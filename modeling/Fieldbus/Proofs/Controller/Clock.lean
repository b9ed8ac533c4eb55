import Fieldbus.Proofs.Controller.History
import Fieldbus.Proofs.Controller.Poll

namespace Fieldbus

/-- The clock readings of the polls, in order. -/
def readingsOf {π : Type} [Platform π] (rs : List (Request π)) : List Nat :=
  rs.filterMap fun
    | .poll p => some (Platform.now p).toMillis
    | _ => none

/-- The clock reading from which the time of a query counts: that of the last poll before it was
issued, or else of the first one after. -/
def countedFrom? {π : Type} [Platform π] (before later : List (Request π)) : Option Nat :=
  (readingsOf before).getLast?.or (readingsOf later).head?

section Readings

variable {π : Type} [Platform π]

theorem readingsOf_append (first rest : List (Request π)) :
    readingsOf (first ++ rest) = readingsOf first ++ readingsOf rest := List.filterMap_append

theorem readingsOf_poll (p : π) : readingsOf [.poll p] = [(Platform.now p).toMillis] := rfl

theorem readingsOf_eq_nil {x : Request π} (h : ∀ p, x ≠ .poll p) : readingsOf [x] = [] := by
  cases x with
  | poll p => exact absurd rfl (h p)
  | _ => rfl

theorem le_of_getLast? {l : List Nat} (h : l.Pairwise (· ≤ ·)) {t u : Nat}
    (hl : l.getLast? = some u) (ht : t ∈ l) : t ≤ u := by
  obtain ⟨init, rfl⟩ := List.getLast?_eq_some_iff.mp hl
  rcases List.mem_append.mp ht with ht | ht
  · exact (List.pairwise_append.mp h).2.2 t ht u List.mem_cons_self
  · exact Nat.le_of_eq (List.mem_singleton.mp ht)

end Readings

namespace Controller

variable {σ π : Type} {N : Nat} {c d : Controller σ N}

/-- No query waits longer than the largest span. -/
theorem le_maxSpan_of_mem_agenda (hk : c.pool.WellKept) {e : Handle × Nat} (he : e ∈ c.agenda) :
    e.2 ≤ maxSpan := by
  obtain ⟨i, left, hm, rfl⟩ := Pool.mem_agenda_iff.mp he
  exact (Deadlines.le_total_of_mem_agenda hm).trans hk.total_le

section LastPoll

theorem Refused.lastPoll (h : c.Refused d) : d.lastPoll = c.lastPoll := by
  rcases h with rfl | ⟨i, pool, ha, rfl⟩ <;> rfl

theorem lastPoll_observe (c : Controller σ N) (f : Frame) :
    (c.observe f).1.lastPoll = c.lastPoll := by
  rcases observe_cases c f with he | ⟨s, _, _, ⟨_, he⟩ | ⟨_, he⟩⟩ <;> rw [he]

theorem lastPoll_advanceSweep (c : Controller σ N) (elapsed : Nat) :
    (c.advanceSweep elapsed).1.lastPoll = c.lastPoll := by
  rcases advanceSweep_cases c elapsed with he | ⟨s, r, _, _, ⟨_, he⟩ | ⟨_, he⟩⟩ <;> rw [he]

theorem lastPoll_endSweep (c : Controller σ N) (reason : SweepEnd) :
    (c.endSweep reason).1.lastPoll = c.lastPoll := by
  unfold endSweep
  split <;> rfl

variable [Listener σ]

theorem lastPoll_spread (c : Controller σ N) (i : Fin N) (q : PendingQuery) (f : Frame) :
    (c.spread i q f).1.lastPoll = c.lastPoll := by
  have hcase := spreading c i q f
  generalize c.spread i q f = out at hcase ⊢
  cases hcase <;> rfl

theorem lastPoll_match? (c : Controller σ N) (f : Frame) :
    (c.match? f).1.lastPoll = c.lastPoll := by
  unfold match?
  split
  next => rfl
  next =>
    split
    next =>
      split
      next => rfl
      next => exact lastPoll_spread ..
    next => rfl

theorem lastPoll_respond (c : Controller σ N) (frame : Option Frame) :
    (c.respond frame).1.lastPoll = c.lastPoll := by
  cases frame with
  | none => rfl
  | some f =>
    by_cases hr : f.id.isResponse = true
    · simp only [respond, hr, if_true]
      exact (lastPoll_match? _ f).trans (lastPoll_observe c f)
    · simp only [respond, hr]
      rfl

theorem lastPoll_expire (c : Controller σ N) (i : Fin N) :
    (c.expire i).1.lastPoll = c.lastPoll := by
  cases hq : c.pool.query? i with
  | none => simp [expire, hq]
  | some q =>
    have hcase := expiring hq
    generalize c.expire i = out at hcase ⊢
    cases hcase <;> rfl

theorem lastPoll_expireDue (c : Controller σ N) (slots : List (Fin N)) :
    (c.expireDue slots).1.lastPoll = c.lastPoll := by
  induction slots generalizing c with
  | nil => rfl
  | cons i rest ih =>
    unfold expireDue
    split
    next => exact (ih _).trans (lastPoll_expire c i)
    next => rfl

theorem lastPoll_receive (c : Controller σ N) (elapsed : Nat) (frame : Option Frame) :
    (c.receive elapsed frame).1.lastPoll = c.lastPoll := by
  refine (lastPoll_expireDue _ _).trans ?_
  exact (lastPoll_advanceSweep _ elapsed).trans (lastPoll_respond c frame)

theorem lastPoll_feed (c : Controller σ N) (elapsed : Nat) (frames : List Frame) :
    (c.feed elapsed frames).1.lastPoll = c.lastPoll := by
  induction frames generalizing c elapsed with
  | nil => exact lastPoll_receive c elapsed none
  | cons f rest ih => exact (ih _ 0).trans (lastPoll_receive c elapsed (some f))

theorem lastPoll_cancel (c : Controller σ N) (h : Handle) (suppress : Bool) :
    (c.cancel h suppress).2.1.lastPoll = c.lastPoll := by
  cases hl : c.pool.lookup? h with
  | none => simp [cancel, hl]
  | some found =>
    have hcase := cancelling hl suppress
    generalize (c.cancel h suppress).2 = out at hcase ⊢
    cases hcase <;> rfl

theorem lastPoll_cancelSlots (c : Controller σ N) (suppress : Bool) (slots : List (Fin N)) :
    (c.cancelSlots suppress slots).1.lastPoll = c.lastPoll := by
  induction slots generalizing c with
  | nil => rfl
  | cons i rest ih =>
    cases hq : c.pool.query? i with
    | none =>
      simp only [cancelSlots, hq]
      exact ih c
    | some q =>
      simp only [cancelSlots, hq]
      exact (ih _).trans (lastPoll_cancel c q.handle suppress)

variable [Platform π]

/-- A controller remembers the reading of its last poll. -/
theorem lastPoll_serve (c : Controller σ N) (x : Request π) :
    (c.serve x).1.lastPoll = (readingsOf [x]).getLast?.or c.lastPoll := by
  cases x with
  | query p did frame timeout tag =>
    change (c.query p did frame timeout tag).controller.lastPoll = c.lastPoll
    rcases query_cases c p did frame timeout tag with
      ⟨_, _, _, _, _, _, _, _, hout, _⟩ | ⟨hout, _, _⟩
    · rw [hout]
      rfl
    · exact hout.lastPoll
  | startSweep p plan goOn =>
    change (c.startSweep p plan goOn).controller.lastPoll = c.lastPoll
    rcases startSweep_cases c p plan goOn with
      ⟨_, _, _, _, _, _, _, _, _, _, _, _, hout, _⟩ | ⟨_, _, _, hout, _⟩ | ⟨hout, _, _⟩
    · rw [hout]
      rfl
    · rw [hout]
    · exact hout.lastPoll
  | cancel h suppress => exact lastPoll_cancel c h suppress
  | cancelAll suppress => exact lastPoll_cancelSlots c suppress _
  | receive elapsed frame => exact lastPoll_receive c elapsed frame
  | poll p => exact lastPoll_feed _ _ _
  | stopSweep =>
    change c.stopSweep.2.1.lastPoll = c.lastPoll
    unfold stopSweep
    split
    next => rfl
    next =>
      split
      next => exact lastPoll_cancel c _ true
      next => exact lastPoll_endSweep c _

theorem lastPoll_run (c : Controller σ N) (rs : List (Request π)) :
    (c.run rs).1.lastPoll = (readingsOf rs).getLast?.or c.lastPoll := by
  induction rs using List.reverseRecOn with
  | nil => rfl
  | append_singleton rs x ih =>
    rw [run_append, run_singleton, lastPoll_serve, ih, readingsOf_append, List.getLast?_append,
      Option.or_assoc]

end LastPoll

variable [Listener σ] [Platform π] {h : Handle} {left ms : Nat}

section Passing

/-- The time that a request lets pass. -/
def passing (c : Controller σ N) : Request π → Nat
  | .receive elapsed _ => elapsed
  | .poll p => c.elapsedAt (Platform.now p).toMillis
  | _ => 0

omit [Listener σ] in
theorem mem_agenda_query (hk : c.pool.WellKept) (p : π) (did : Did) (frame : Frame)
    (timeout : Timeout) (tag : UInt32)
    (hm : (h, left) ∈ (c.query p did frame timeout tag).controller.agenda)
    (unused : h ∉ (issuesOf (c.query p did frame timeout tag).acts).map Prod.fst) :
    (h, left) ∈ c.agenda := by
  rcases query_cases c p did frame timeout tag with
    ⟨i, pool, correlation, _, ha, _, _, _, hout, hacts⟩ | ⟨hout, _, _⟩
  · have hagenda : (c.query p did frame timeout tag).controller.agenda =
        c.agenda.enlist ⟨i⟩ timeout := by
      rw [hout]
      exact hk.agenda_fill ha
    rw [hacts, issuesOf_append, issuesOf_install] at unused
    rw [hagenda] at hm
    exact Agenda.mem_of_mem_enlist (by simpa [issuesOf] using unused) hm
  · rwa [hout.eq hk] at hm

omit [Listener σ] in
theorem mem_agenda_startSweep (hk : c.pool.WellKept) (p : π) (plan : SweepPlan)
    (goOn : List (Did × Frame) → Bool)
    (hm : (h, left) ∈ (c.startSweep p plan goOn).controller.agenda)
    (unused : h ∉ (issuesOf (c.startSweep p plan goOn).acts).map Prod.fst) :
    (h, left) ∈ c.agenda := by
  rcases startSweep_cases c p plan goOn with
    ⟨query, i, pool, correlation, _, _, _, _, ha, _, _, _, hout, hacts⟩ | ⟨_, _, _, hout, _⟩ |
    ⟨hout, _, _⟩
  · have hagenda : (c.startSweep p plan goOn).controller.agenda =
        c.agenda.enlist ⟨i⟩ plan.timeout := by
      rw [hout]
      exact hk.agenda_fill ha
    rw [hacts, issuesOf_append, issuesOf_append, issuesOf_install] at unused
    rw [hagenda] at hm
    exact Agenda.mem_of_mem_enlist (by simpa [issuesOf] using unused) hm
  · rw [hout] at hm
    exact hm
  · rwa [hout.eq hk] at hm

/-- A query that still waits had as much more time before as passed, and none is left to wait
without time by a poll. -/
theorem mem_agenda_serve (hc : c.Sound) (x : Request π) (hm : (h, left) ∈ (c.serve x).1.agenda)
    (unused : h ∉ (issuesOf (c.serve x).2).map Prod.fst) :
    (h, left + c.passing x) ∈ c.agenda ∧ ((∃ p, x = .poll p) → 0 < left) := by
  have hk := hc.kept
  cases x with
  | query p did frame timeout tag =>
    exact ⟨mem_agenda_query hk p did frame timeout tag hm unused, by simp⟩
  | startSweep p plan goOn => exact ⟨mem_agenda_startSweep hk p plan goOn hm unused, by simp⟩
  | receive elapsed frame => exact ⟨(mem_agenda_receive hc hm).1, by simp⟩
  | poll p =>
    exact (mem_agenda_feed (hc.woken _) hm).imp_right fun hpos _ => hpos
  | cancel h suppress =>
    simp only [serve, agenda_cancel hk] at hm
    exact ⟨List.mem_of_mem_filter hm, by simp⟩
  | cancelAll suppress =>
    simp only [serve, agenda_cancelAll hc] at hm
    exact absurd hm List.not_mem_nil
  | stopSweep =>
    simp only [serve, agenda_stopSweep hk] at hm
    split at hm
    next => exact ⟨List.mem_of_mem_filter hm, by simp⟩
    next => exact ⟨hm, by simp⟩

/-- A query that expires in a poll had no more time than what passed. -/
theorem mem_agenda_of_expiriesOf_poll (hc : c.Sound) (p : π)
    (hm : h ∈ expiriesOf (c.serve (.poll p)).2) :
    ∃ left, (h, left) ∈ c.agenda ∧ left ≤ c.elapsedAt (Platform.now p).toMillis := by
  obtain ⟨left, hin, hle⟩ := mem_agenda_of_expiriesOf_feed (hc.woken _) hm
  exact ⟨left, hin, hle⟩

end Passing

/-- The clock readings that a controller has seen after some requests, as far as it remembers. -/
def known (c : Controller σ N) (rs : List (Request π)) : List Nat :=
  c.lastPoll.toList ++ readingsOf rs

omit [Listener σ] in
theorem known_append (c : Controller σ N) (first rest : List (Request π)) :
    c.known (first ++ rest) = c.known first ++ readingsOf rest := by
  rw [known, readingsOf_append, ← List.append_assoc, known]

theorem lastPoll_run_eq_getLast? (c : Controller σ N) (rs : List (Request π)) :
    (c.run rs).1.lastPoll = (c.known rs).getLast? := by
  rw [lastPoll_run, known, List.getLast?_append]
  cases c.lastPoll <;> rfl

omit [Listener σ] in
theorem passing_eq_zero {x : Request π} (hx : ∀ p, x ≠ .poll p)
    (timeless : ∀ elapsed frame, x = .receive elapsed frame → elapsed = 0) : c.passing x = 0 := by
  cases x with
  | receive elapsed frame => exact timeless elapsed frame rfl
  | poll p => exact absurd rfl (hx p)
  | _ => rfl

/-- The reading of the last poll and the time that is left for a query add up to its deadline. -/
theorem time_left_run (hd : d.Sound) (fresh : ∀ left, (h, left) ∈ d.agenda → left = ms)
    (rs : List (Request π)) (timeless : ∀ elapsed frame, .receive elapsed frame ∈ rs → elapsed = 0)
    (unused : h ∉ (issuesOf (d.run rs).2).map Prod.fst)
    (sorted : (d.known rs).Pairwise (· ≤ ·)) (hm : (h, left) ∈ (d.run rs).1.agenda) :
    (readingsOf rs ≠ [] → 0 < left) ∧ (d.known rs = [] → left = ms) ∧
      ∀ s t, (d.known rs).head? = some s → (d.known rs).getLast? = some t → t + left = s + ms := by
  induction rs using List.reverseRecOn generalizing left with
  | nil =>
    have hleft := fresh left hm
    refine ⟨by simp [readingsOf], fun _ => hleft, fun s t hs ht => ?_⟩
    cases hl : d.lastPoll with
    | none => simp [known, hl, readingsOf] at hs
    | some u =>
      simp only [known, hl, readingsOf, Option.toList, List.filterMap_nil, List.append_nil,
        List.head?_cons, List.getLast?_singleton, Option.some.injEq] at hs ht
      omega
  | append_singleton rs x ih =>
    rw [run_append, run_singleton] at hm unused
    rw [notMem_issuesOf_append] at unused
    rw [known_append, List.pairwise_append] at sorted
    have hc := hd.run rs
    obtain ⟨hbefore, hpos⟩ := mem_agenda_serve hc x hm unused.2
    obtain ⟨hwaits, hfirst, hsum⟩ :=
      ih (fun e f hm => timeless e f (List.mem_append_left _ hm)) unused.1 sorted.1 hbefore
    rw [known_append, readingsOf_append]
    by_cases hx : ∃ p, x = .poll p
    · obtain ⟨p, rfl⟩ := hx
      have hpos := hpos ⟨p, rfl⟩
      have hle := le_maxSpan_of_mem_agenda hc.kept hbefore
      rw [passing, elapsedAt, lastPoll_run_eq_getLast?] at hfirst hsum hle
      refine ⟨fun _ => hpos, by simp [readingsOf_poll], fun s t hs ht => ?_⟩
      simp only [readingsOf_poll, List.getLast?_concat, Option.some.injEq] at hs ht hle
      cases hl : (d.known rs).getLast? with
      | none =>
        have hnil := List.getLast?_eq_none_iff.mp hl
        simp only [hnil, List.nil_append, List.head?_cons, Option.some.injEq] at hs
        have hms := hfirst hnil
        simp only [hl] at hms
        omega
      | some u =>
        -- The time is not cut off, as no query waits longer than the largest span.
        have hu := sorted.2.2 u (List.mem_of_getLast? hl) t (by simp [readingsOf_poll, ht])
        have hne : d.known rs ≠ [] := fun hnil => by simp [hnil] at hl
        rw [List.head?_append_of_ne_nil _ hne] at hs
        have hms := hsum s u hs hl
        simp only [hl] at hms hle
        omega
    · have hnot : ∀ p, x ≠ .poll p := fun p hp => hx ⟨p, hp⟩
      rw [passing_eq_zero hnot fun e f hf => timeless e f (by simp [hf])] at hwaits hfirst hsum
      rw [readingsOf_eq_nil hnot, List.append_nil, List.append_nil]
      exact ⟨hwaits, hfirst, hsum⟩

theorem exists_end (pending : d.isPending h = true) (rs : List (Request π))
    (gone : (d.run rs).1.isPending h = false) :
    ∃ first x rest, rs = first ++ x :: rest ∧ (d.run first).1.isPending h = true ∧
      ((d.run first).1.serve x).1.isPending h = false := by
  induction rs generalizing d with
  | nil => exact absurd (pending.symm.trans gone) (by simp)
  | cons x rs ih =>
    cases hx : (d.serve x).1.isPending h with
    | false => exact ⟨[], x, rs, rfl, pending, hx⟩
    | true =>
      obtain ⟨first, y, rest, rfl, hp, hg⟩ := ih hx gone
      exact ⟨x :: first, y, rest, rfl, hp, hg⟩

omit [Platform π] [Listener σ] in
theorem agenda_new (l : σ) : (new l : Controller σ N).agenda = [] := by
  rw [agenda, Pool.agenda]
  change Agenda.rekey _ (Deadlines.agenda (Pool.new : Pool N).deadlines) = []
  rw [Pool.queues_new.deadlines_eq]
  rfl

/-- Exactly the pending queries that were issued with a finite time wait for a deadline. -/
theorem timed_run (l : σ) (rs : List (Request π)) :
    Timed (issuesOf ((new l : Controller σ N).run rs).2) ((new l : Controller σ N).run rs).1 := by
  have hstart : Timed [] (new l : Controller σ N) := fun i q hq => by
    simp [new, Pool.query?_new] at hq
  have hties : TiesInOrder [] (new l : Controller σ N).agenda := by
    rw [agenda_new]
    exact List.Pairwise.nil
  exact (run_timed (sound_new l) hstart hties rs).1

/-- A pending query that was issued with a finite time waits for its deadline. -/
theorem mem_agenda_of_isPending (l : σ) (rs : List (Request π)) {ms : UInt32}
    (hl : lastTimeout? (issuesOf ((new l : Controller σ N).run rs).2) h = some (.millis ms))
    (pending : ((new l : Controller σ N).run rs).1.isPending h = true) :
    ∃ left, (h, left) ∈ ((new l : Controller σ N).run rs).1.agenda := by
  have hc : ((new l : Controller σ N).run rs).1.Sound := (sound_new l).run rs
  obtain ⟨i, q, rfl, found⟩ := (isPending_iff hc.kept).mp pending
  have hlink := (timed_run l rs i q found).mpr ⟨ms, hl⟩
  obtain ⟨e, he, heq⟩ := List.mem_map.mp (hc.kept.mem_map_fst_agenda_iff.mpr hlink)
  exact ⟨e.2, heq ▸ he⟩

/-- Whatever ends a query while these requests are answered is a poll in which it expires. -/
def OnlyExpires (c : Controller σ N) (h : Handle) (rs : List (Request π)) : Prop :=
  ∀ first x rest, rs = first ++ x :: rest → (c.run first).1.isPending h = true →
    ((c.run first).1.serve x).1.isPending h = false →
      (∃ p, x = .poll p) ∧ h ∈ expiriesOf ((c.run first).1.serve x).2

theorem onlyExpires_nil (c : Controller σ N) (h : Handle) :
    c.OnlyExpires h ([] : List (Request π)) := fun first x rest split => by simp at split

theorem onlyExpires_cons {x : Request π} {rs : List (Request π)} :
    c.OnlyExpires h (x :: rs) ↔
      (c.isPending h = true → (c.serve x).1.isPending h = false →
        (∃ p, x = .poll p) ∧ h ∈ expiriesOf (c.serve x).2) ∧
      (c.serve x).1.OnlyExpires h rs := by
  constructor
  · intro only
    refine ⟨only [] x rs rfl, fun first y rest split => ?_⟩
    exact only (x :: first) y rest (by rw [split, List.cons_append])
  · rintro ⟨hfirst, hrest⟩ first y rest split
    cases first with
    | nil =>
      obtain ⟨rfl, rfl⟩ := List.cons.inj split
      exact hfirst
    | cons z first =>
      obtain ⟨rfl, hsplit⟩ := List.cons.inj split
      exact hrest first y rest hsplit

/-- A query was just issued with a finite time; from now on time passes in polls only, by a clock
that does not go back, and nothing else ends the query. -/
structure Timekept (d : Controller σ N) (h : Handle) (ms : Nat) (later : List (Request π)) :
    Prop where
  sound : d.Sound
  pending : d.isPending h = true
  fresh : ∀ left, (h, left) ∈ d.agenda → left = ms
  waits : ∀ first rest, later = first ++ rest → (d.run first).1.isPending h = true →
    ∃ left, (h, left) ∈ (d.run first).1.agenda
  unused : h ∉ (issuesOf (d.run later).2).map Prod.fst
  timeless : ∀ elapsed frame, .receive elapsed frame ∈ later → elapsed = 0
  sorted : (d.known later).Pairwise (· ≤ ·)
  only : d.OnlyExpires h later

namespace Timekept

variable {first rest later : List (Request π)}

theorem time_left (hk : d.Timekept h ms later) (split : later = first ++ rest)
    (hm : (h, left) ∈ (d.run first).1.agenda) :
    (readingsOf first ≠ [] → 0 < left) ∧ (d.known first = [] → left = ms) ∧
      ∀ s t, (d.known first).head? = some s → (d.known first).getLast? = some t →
        t + left = s + ms := by
  obtain rfl := split
  have hunused := hk.unused
  have hsorted := hk.sorted
  rw [run_append, notMem_issuesOf_append] at hunused
  rw [known_append] at hsorted
  exact time_left_run hk.sound hk.fresh first
    (fun elapsed frame hin => hk.timeless elapsed frame (List.mem_append_left _ hin)) hunused.1
    (List.pairwise_append.mp hsorted).1 hm

/-- The query expires in no poll but the first one that is due. -/
theorem due_of_expires (hk : d.Timekept h ms later) {x : Request π}
    (split : later = first ++ x :: rest) (hm : h ∈ expiriesOf ((d.run first).1.serve x).2) :
    ∃ p start, x = .poll p ∧ (d.known later).head? = some start ∧
      start + ms ≤ (Platform.now p).toMillis ∧ ∀ t ∈ readingsOf first, t < start + ms := by
  have hc := hk.sound.run first
  have hunused : h ∉ (issuesOf ((d.run first).1.serve x).2).map Prod.fst := by
    have hall := hk.unused
    rw [split, run_append, run_cons] at hall
    simp only [notMem_issuesOf_append] at hall
    exact hall.2.1
  obtain ⟨i, _, rfl, _⟩ := (isPending_iff hk.sound.kept).mp hk.pending
  obtain ⟨hpending, hgone⟩ := (serve_steps _ x).expired hc hunused hm
  obtain ⟨⟨p, rfl⟩, _⟩ := hk.only first x rest split hpending hgone
  obtain ⟨left, hin, hle⟩ := mem_agenda_of_expiriesOf_poll hc p hm
  obtain ⟨hpos, hfirst, hsum⟩ := hk.time_left split hin
  have hknown : d.known later =
      d.known first ++ (Platform.now p).toMillis :: readingsOf rest := by
    rw [split, known_append]
    rfl
  have hsorted := hk.sorted
  rw [hknown, List.pairwise_append] at hsorted
  rw [elapsedAt, lastPoll_run_eq_getLast?] at hle
  rw [hknown]
  cases hl : (d.known first).getLast? with
  | none =>
    -- There was no poll so far, so no time passes in this one.
    have hnil := List.getLast?_eq_none_iff.mp hl
    simp only [hl] at hle
    have hms := hfirst hnil
    refine ⟨p, _, rfl, by rw [hnil]; rfl, by omega, fun t ht => ?_⟩
    have hin : t ∈ d.known first := List.mem_append_right _ ht
    simp [hnil] at hin
  | some u =>
    have hne : d.known first ≠ [] := fun hnil => by simp [hnil] at hl
    obtain ⟨s, hs⟩ := Option.isSome_iff_exists.mp (List.isSome_head?.mpr hne)
    have hms := hsum s u hs hl
    have hu := hsorted.2.2 u (List.mem_of_getLast? hl) _ List.mem_cons_self
    simp only [hl] at hle
    refine ⟨p, s, rfl, by rw [List.head?_append_of_ne_nil _ hne, hs], by omega, fun t ht => ?_⟩
    have hleft := hpos (List.ne_nil_of_mem ht)
    have hlast := le_of_getLast? hsorted.1 hl (List.mem_append_right _ ht)
    omega

/-- The query expires in the first poll that is due. -/
theorem expires_of_due (hk : d.Timekept h ms later) {p : π} {start : Nat}
    (split : later = first ++ .poll p :: rest) (counted : (d.known later).head? = some start)
    (due : start + ms ≤ (Platform.now p).toMillis)
    (early : ∀ t ∈ readingsOf first, t < start + ms) :
    h ∈ expiriesOf ((d.run first).1.serve (.poll p)).2 := by
  have hpending : (d.run first).1.isPending h = true := by
    by_contra hn
    obtain ⟨f, y, g, rfl, hp, hg⟩ := exists_end hk.pending first (Bool.eq_false_of_not_eq_true hn)
    have hsplit : later = f ++ y :: (g ++ .poll p :: rest) := by simp [split]
    obtain ⟨p', start', rfl, hstart, hdue, _⟩ :=
      hk.due_of_expires hsplit (hk.only _ _ _ hsplit hp hg).2
    cases Option.some.inj (counted.symm.trans hstart)
    have hlt := early (Platform.now p').toMillis
      (by rw [readingsOf_append]; exact List.mem_append_right _ List.mem_cons_self)
    omega
  have hgone : ((d.run first).1.serve (.poll p)).1.isPending h = false := by
    by_contra hn
    have hlater : later = (first ++ [.poll p]) ++ rest := by simp [split]
    have hstill : (d.run (first ++ [.poll p])).1.isPending h = true := by
      rw [run_append, run_singleton]
      exact Bool.eq_true_of_not_eq_false hn
    obtain ⟨left, hin⟩ := hk.waits _ _ hlater hstill
    obtain ⟨hpos, _, hsum⟩ := hk.time_left hlater hin
    have hknown : d.known (first ++ [.poll p]) = d.known first ++ [(Platform.now p).toMillis] := by
      rw [known_append, readingsOf_poll]
    have hne : d.known (first ++ [.poll p]) ≠ [] := by simp [hknown]
    rw [hlater, known_append, List.head?_append_of_ne_nil _ hne] at counted
    have hlast := hsum start _ counted (by rw [hknown, List.getLast?_concat])
    have hleft := hpos (by simp [readingsOf_append, readingsOf_poll])
    omega
  exact (hk.only first _ rest split hpending hgone).2

end Timekept

section Issued

variable {l : σ} {before later : List (Request π)} {r : Request π} {question : Frame} {a : Issue}
  {ms : UInt32}

omit [Listener σ] in
theorem Accepts.readingsOf_eq_nil (h : c.Accepts r question a) : readingsOf [r] = [] := by
  cases h <;> rfl

/-- The first clock reading that counts for a query is known when it is issued, or is the next. -/
theorem head?_known (accepted : ((new l : Controller σ N).run before).1.Accepts r question a) :
    ((((new l : Controller σ N).run before).1.serve r).1.known later).head? =
      countedFrom? before later := by
  rw [known, List.head?_append, lastPoll_serve, accepted.readingsOf_eq_nil, lastPoll_run,
    countedFrom?]
  cases (readingsOf before).getLast? <;> rfl

theorem sorted_known (accepted : ((new l : Controller σ N).run before).1.Accepts r question a)
    (sorted : (readingsOf (before ++ r :: later)).Pairwise (· ≤ ·)) :
    ((((new l : Controller σ N).run before).1.serve r).1.known later).Pairwise (· ≤ ·) := by
  refine sorted.sublist ?_
  rw [readingsOf_append, ← List.singleton_append, readingsOf_append, accepted.readingsOf_eq_nil,
    List.nil_append, known, lastPoll_serve, accepted.readingsOf_eq_nil, lastPoll_run]
  refine List.Sublist.append_right ?_ _
  cases hl : (readingsOf before).getLast? with
  | none => exact List.nil_sublist _
  | some t =>
    obtain ⟨init, hinit⟩ := List.getLast?_eq_some_iff.mp hl
    rw [hinit]
    exact List.sublist_append_right init [t]

theorem Accepts.timekept (accepted : ((new l : Controller σ N).run before).1.Accepts r question a)
    (issued : (a.handle, .millis ms) ∈ issuesOf (((new l : Controller σ N).run before).1.serve r).2)
    (unused : a.handle ∉ (issuesOf
      ((((new l : Controller σ N).run before).1.serve r).1.run later).2).map Prod.fst)
    (timeless : ∀ elapsed frame, .receive elapsed frame ∈ later → elapsed = 0)
    (sorted : (readingsOf (before ++ r :: later)).Pairwise (· ≤ ·))
    (only : (((new l : Controller σ N).run before).1.serve r).1.OnlyExpires a.handle later) :
    (((new l : Controller σ N).run before).1.serve r).1.Timekept a.handle ms.toNat later := by
  have hc : ((new l : Controller σ N).run before).1.Sound := (sound_new l).run before
  obtain ⟨i, k, placed⟩ := accepted.placed hc
  rcases enlists_serve hc r with ⟨_, hnone⟩ | ⟨h, timeout, hfresh, hagenda, hissues⟩
  · simp [hnone] at issued
  obtain ⟨rfl, rfl⟩ := Prod.mk.inj (List.mem_singleton.mp (hissues ▸ issued))
  refine
    { sound := hc.serve r
      pending := placed.living.isPending (hc.serve r).kept
      fresh := fun left hm => ?_
      waits := fun first rest split pending => ?_
      unused, timeless, only
      sorted := sorted_known accepted sorted }
  · rw [hagenda] at hm
    rcases Agenda.mem_insert_iff.mp hm with he | hm
    · exact (Prod.mk.inj he).2
    · exact absurd (List.mem_map_of_mem hm) hfresh
  · rw [split, run_append, notMem_issuesOf_append] at unused
    have hrun : (new l : Controller σ N).run (before ++ r :: first) = _ := run_append _ _ _
    have hlast : lastTimeout? (issuesOf ((new l : Controller σ N).run (before ++ r :: first)).2)
        a.handle = some (.millis ms) := by
      rw [hrun, run_cons, issuesOf_append, issuesOf_append, hissues, ← List.append_assoc,
        lastTimeout?_append_of_notMem unused.1, lastTimeout?_concat_self]
    have hwaits := mem_agenda_of_isPending l (before ++ r :: first) hlast
    rw [hrun] at hwaits
    exact hwaits pending

end Issued

/-- A query that nothing else ends expires in the first poll whose clock reading is at least its
time after the last poll before it was issued, or after the first poll since if there was none. -/
theorem expires_in_first_due_poll (l : σ) (before : List (Request π)) (r : Request π)
    (question : Frame) (a : Issue) (ms : UInt32) (later : List (Request π)) :
    let start : Controller σ N := ((new l).run before).1
    let asked := (start.serve r).1
    start.Accepts r question a → (a.handle, .millis ms) ∈ issuesOf (start.serve r).2 →
    a.handle ∉ (issuesOf (asked.run later).2).map Prod.fst →
    (∀ elapsed frame, .receive elapsed frame ∈ later → elapsed = 0) →
    (readingsOf (before ++ r :: later)).Pairwise (· ≤ ·) →
    asked.OnlyExpires a.handle later →
    ∀ first x rest, later = first ++ x :: rest →
      let c := (asked.run first).1
      let out := c.serve x
      (a.handle ∈ expiriesOf out.2 ↔ ∃ p origin, x = .poll p ∧
        countedFrom? before later = some origin ∧
        origin + ms.toNat ≤ (Platform.now p).toMillis ∧
        ∀ t ∈ readingsOf first, t < origin + ms.toNat) ∧
      (a.handle ∈ expiriesOf out.2 →
        c.isPending a.handle = true ∧ out.1.isPending a.handle = false ∧
        (a.swept = false → a.final .timeout ∈ eventsOf out.2)) := by
  intro start asked accepted issued unused timeless sorted only first x rest split c out
  have hstart : start.Sound := (sound_new l).run before
  have hasked : asked.Sound := hstart.serve r
  obtain ⟨i, k, placed⟩ := accepted.placed hstart
  have hcounted : (asked.known later).head? = countedFrom? before later := head?_known accepted
  have timekept : asked.Timekept a.handle ms.toNat later :=
    accepted.timekept issued unused timeless sorted only
  refine ⟨⟨fun hm => ?_, ?_⟩, fun hm => ?_⟩
  · obtain ⟨p, origin, rfl, hhead, hdue, hearly⟩ := timekept.due_of_expires split hm
    exact ⟨p, origin, rfl, hcounted.symm.trans hhead, hdue, hearly⟩
  · rintro ⟨p, origin, rfl, horigin, hdue, hearly⟩
    exact timekept.expires_of_due split (hcounted.trans horigin) hdue hearly
  · have hc : c.Sound := hasked.run first
    have hunused := unused
    rw [split, run_append, run_cons] at hunused
    simp only [notMem_issuesOf_append] at hunused
    have hexpired : c.isPending a.handle = true ∧ out.1.isPending a.handle = false := by
      rw [placed.slot] at hm hunused ⊢
      exact (serve_steps c x).expired hc hunused.2.1 hm
    obtain ⟨q, living⟩ := run_living_of_isPending hasked placed.living first hunused.1 hexpired.1
    exact ⟨hexpired.1, hexpired.2, fun own =>
      (serve_steps c x).tells_expired hc living own hunused.2.1 hm⟩

/-- A query with a tenth of a second that is issued after a poll at 1000 expires at 1100. -/
theorem expires_in_first_due_poll_tenth :
    let start : Controller Silence 1 := ((new .silence).run [.poll (⟨1000, []⟩ : Mailbox)]).1
    let asked := (start.serve Mailbox.ask).1
    let early : Mailbox := ⟨1099, [Mailbox.other]⟩
    let due : Mailbox := ⟨1100, []⟩
    let c := (asked.run [.poll early]).1
    ⟨0⟩ ∉ expiriesOf (asked.serve (.poll early)).2 ∧ ⟨0⟩ ∈ expiriesOf (c.serve (.poll due)).2 ∧
      Silence.issue.final .timeout ∈ eventsOf (c.serve (.poll due)).2 := by
  intro start asked early due c
  have hstart : start = ({ (new .silence : Controller Silence 1) with
      lastPoll := some 1000 }.feed 0 []).1 :=
    congrArg Prod.fst (run_poll_mailbox (new Silence.silence) _)
  have hasked : asked = (Controller.serve _ Mailbox.ask).1 :=
    congrArg (fun d => (Controller.serve d Mailbox.ask).1) hstart
  have accepted : start.Accepts Mailbox.ask Silence.question Silence.issue :=
    .query _ (.ofRaw 1) Silence.question (.millis 100) 7 ⟨0⟩ (by rw [hstart]; rfl)
  have issued : (⟨0⟩, .millis 100) ∈ issuesOf (start.serve Mailbox.ask).2 := by
    rw [hstart]
    decide
  have unused : ⟨0⟩ ∉ (issuesOf (asked.run [.poll early, .poll due]).2).map Prod.fst := by
    rw [run_cons, run_singleton, serve_poll_mailbox, serve_poll_mailbox, hasked]
    decide
  have only : asked.OnlyExpires ⟨0⟩ [.poll early, .poll due] := by
    refine onlyExpires_cons.mpr ⟨fun _ hgone => absurd hgone ?_,
      onlyExpires_cons.mpr ⟨fun _ _ => ⟨⟨due, rfl⟩, ?_⟩, onlyExpires_nil _ _⟩⟩
    · rw [serve_poll_mailbox, hasked]
      decide
    · rw [serve_poll_mailbox, serve_poll_mailbox, hasked]
      decide
  have hall := expires_in_first_due_poll (N := 1) Silence.silence [.poll (⟨1000, []⟩ : Mailbox)]
    Mailbox.ask Silence.question Silence.issue 100 [.poll early, .poll due] accepted issued unused
    (by simp) (by decide) only
  obtain ⟨hearly, _⟩ := hall [] (.poll early) [.poll due] rfl
  obtain ⟨hdue, htold⟩ := hall [.poll early] (.poll due) [] rfl
  have hexpires := hdue.mpr ⟨due, 1000, rfl, rfl, by decide, by decide⟩
  refine ⟨fun hm => ?_, hexpires, (htold hexpires).2.2 rfl⟩
  obtain ⟨p, origin, hp, horigin, hle, _⟩ := hearly.mp hm
  cases hp
  cases horigin
  exact absurd hle (by decide)

end Controller

end Fieldbus
