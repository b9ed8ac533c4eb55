import Fieldbus.Proofs.Controller.Expiry
import Fieldbus.Proofs.Controller.Origin

namespace Fieldbus

/-- A platform with a clock in milliseconds, where the frames of a list wait to be received. -/
structure Mailbox where
  clock : Nat
  inbox : List Frame

instance : Platform Mailbox where
  send m _ _ := (.ok (), m)
  receive m :=
    match m.inbox with
    | [] => (.ok none, m)
    | f :: rest => (.ok (some f), { m with inbox := rest })
  now m := .ofMillis m.clock
  setClock m secs := (.ok (), { m with clock := secs.toNat * 1000 })
  entropy m n := (.replicate n 0, m)
  waiting m := m.inbox.length
  waiting_receive m m' f h := by
    cases hi : m.inbox with
    | nil => simp [hi] at h
    | cons g rest =>
      simp only [hi, Prod.mk.injEq] at h
      simp [← h.2]

namespace Mailbox

/-- A query that is to be answered within a tenth of a second. -/
def ask : Request Mailbox := .query ⟨0, []⟩ (.ofRaw 1) Silence.question (.millis 100) 7

/-- A query to another device, which has a whole second. -/
def askOther : Request Mailbox :=
  .query ⟨0, []⟩ (.ofRaw 2) (.telemetryQuery (.ofRaw 2) .app) (.millis 1000) 8

/-- The answer of the other device. -/
def other : Frame := .empty (.response .telemetry (.ofRaw 2) .app)

end Mailbox

theorem Silence.answers_question : answer.Answers question := ⟨Or.inr rfl, Or.inr rfl, rfl⟩

namespace Controller

variable {σ π : Type} {N : Nat} {c d : Controller σ N} {i j : Fin N} {q r : PendingQuery}

theorem drain_mailbox (m : Mailbox) : drain m = (m.inbox, none, { m with inbox := [] }) := by
  obtain ⟨clock, inbox⟩ := m
  induction inbox with
  | nil =>
    rw [drain]
    rfl
  | cons f rest ih =>
    rw [drain]
    simp only [Platform.receive]
    rw [ih]

theorem poll_mailbox [Listener σ] (c : Controller σ N) (m : Mailbox) :
    let now := (Platform.now m).toMillis
    let out := { c with lastPoll := some now }.feed (c.elapsedAt now) m.inbox
    c.poll m = ⟨.ok (), out.1, { m with inbox := [] }, out.2⟩ := by
  simp only [poll, drain_mailbox]

/-- The query in a slot is as before, and so is the time that is left for it. -/
def Spares (c d : Controller σ N) (i : Fin N) : Prop :=
  d.pool.query? i = c.pool.query? i ∧
    ∀ left, (⟨i⟩, left) ∈ c.agenda → (⟨i⟩, left) ∈ d.agenda

section Spares

theorem spares_of_pool (h : d.pool = c.pool) : c.Spares d i := by
  rw [Spares, agenda, agenda, h]
  exact ⟨rfl, fun _ => id⟩

theorem spares_of_pool_finish (hk : c.pool.WellKept) (hne : i ≠ j)
    (h : d.pool = c.pool.finish j r) : c.Spares d i := by
  refine ⟨by rw [h, Pool.query?_finish, if_neg hne], fun left hm => ?_⟩
  rw [agenda, h, hk.agenda_finish]
  exact List.mem_filter.mpr ⟨hm, by simpa using handle_ne hne⟩

theorem spares_of_pool_setQuery (hk : c.pool.WellKept) (hne : i ≠ j)
    (found : c.pool.query? j = some q) (h : d.pool = c.pool.setQuery j r) : c.Spares d i := by
  refine ⟨by rw [h, Pool.query?_setQuery found, if_neg hne], fun left hm => ?_⟩
  rw [agenda, h, hk.agenda_setQuery]
  exact hm

end Spares

variable [Listener σ]

/-- A response does nothing to a query that it does not answer. -/
theorem spares_respond (hc : c.Sound) (found : c.pool.query? i = some q) {f : Frame}
    (passes : f.id.isResponse = true → q.isAnsweredBy f = false) :
    c.Spares (c.respond (some f)).1 i := by
  by_cases hr : f.id.isResponse = true
  case neg =>
    simp only [respond, hr]
    exact spares_of_pool rfl
  simp only [respond, hr, if_true]
  have hne : ∀ {j p}, c.pool.query? j = some p → p.isAnsweredBy f = true → i ≠ j := by
    rintro j p hp ha rfl
    cases Option.some.inj (found.symm.trans hp)
    exact Bool.false_ne_true ((passes hr).symm.trans ha)
  cases hu : c.unicastFor? f with
  | some e =>
    obtain ⟨_, hp, _, ha⟩ := query?_of_unicastFor? hu
    exact spares_of_pool_finish hc.kept (hne hp ha) (pool_handleResponse_of_unicastFor? hu)
  | none =>
    cases hb : c.broadcastFor? f with
    | none => exact spares_of_pool (pool_handleResponse_of_none hu hb)
    | some e =>
      obtain ⟨hp, _, ha⟩ := query?_of_broadcastFor? hb
      cases hn : e.2.notified.contains f.did with
      | true => exact spares_of_pool (pool_handleResponse_of_notified hu hb hn)
      | false =>
        rcases pool_handleResponse_of_first hu hb hn with h | h
        · exact spares_of_pool_setQuery hc.kept (hne hp ha) hp h
        · exact spares_of_pool_finish hc.kept (hne hp ha) h

variable [Platform π] {may : Licence} {acts : List ControllerAct} {a : Issue}

/-- The first event of a query to one device is its last one, and ends it. -/
theorem Steps.eventsFor_unicast (h : Steps may c acts d) (hc : c.Sound) (hl : c.Living a i q [])
    (unicast : a.did ≠ .broadcast) (unused : a.handle ∉ (issuesOf acts).map Prod.fst) {e : Event}
    (he : e ∈ eventsFor a.handle acts) :
    eventsFor a.handle acts = [e] ∧ d.isPending a.handle = false := by
  rw [← map_fst_answersFor a.handle c.listener] at he ⊢
  rcases h.living hc hl unused with ⟨p, hp⟩ | ⟨gone, more, last, hnew, reports, word⟩
  · rw [List.nil_append] at hp
    simp [hp.reports.silent (Or.inl unicast)] at he
  · refine ⟨?_, gone⟩
    have hmore : more = [] := reports.silent (Or.inl unicast)
    subst hmore
    rw [hnew, List.nil_append] at he ⊢
    have hone : last = [] ∨ ∃ x, last = [x] := by cases word <;> simp
    rcases hone with rfl | ⟨x, rfl⟩
    · simp at he
    · rw [List.mem_singleton.mp he, List.map_singleton]

section Feed

variable {elapsed : Nat} {passed : List Frame} {f : Frame}

/-- A query that is not due is answered by the first response to it. -/
theorem feed_answers (hc : c.Sound) (found : c.pool.query? i = some q)
    (unicast : q.did ≠ .broadcast) (hr : f.id.isResponse = true)
    (answer : q.isAnsweredBy f = true)
    (passes : ∀ g ∈ passed, g.id.isResponse = true → q.isAnsweredBy g = false)
    (waits : passed = [] ∨ ∀ left, (⟨i⟩, left) ∈ c.agenda → elapsed < left) (rest : List Frame) :
    responseEvent q f true ∈ eventsFor ⟨i⟩ (c.feed elapsed (passed ++ f :: rest)).2 := by
  induction passed generalizing c elapsed with
  | nil =>
    have hd : q.did = f.did := by
      simp only [PendingQuery.isAnsweredBy, Bool.and_eq_true, Bool.or_eq_true,
        Did.isBroadcast_iff, decide_eq_true_eq] at answer
      exact (answer.1.resolve_left unicast).symm
    have hu := unicastFor?_of_query? hc.kept found hd (hd ▸ unicast) answer
    change _ ∈ eventsFor ⟨i⟩ ((c.receive elapsed (some f)).2 ++ _)
    rw [eventsFor_append, (receive_unicast hc hr elapsed hu).1]
    exact List.mem_append_left _ List.mem_cons_self
  | cons g passed ih =>
    have hwaits := waits.resolve_left (List.cons_ne_nil g passed)
    have hm := hc.respond (some g)
    have hspares := spares_respond hc found (passes g List.mem_cons_self)
    have hquiet : ⟨i⟩ ∉ expiriesOf ((c.respond (some g)).1.advance elapsed).2 := by
      intro hexpires
      rw [expiriesOf_advance hm] at hexpires
      obtain ⟨e, he, heq⟩ := List.mem_map.mp hexpires
      obtain ⟨hin, hle⟩ := List.mem_filter.mp he
      have hlt := hwaits e.2 (heq ▸ agenda_respond_subset hc.kept (some g) hin)
      have hle : e.2 ≤ elapsed := of_decide_eq_true hle
      omega
    have hnext := ih (hc.receive elapsed (some g))
      ((query?_advance hm hquiet).trans (hspares.1.trans found))
      (fun g' hg => passes g' (List.mem_cons_of_mem g hg))
      (Or.inr fun left hin => (mem_agenda_receive hc hin).2)
    change _ ∈ eventsFor ⟨i⟩ ((c.receive elapsed (some g)).2 ++ _)
    rw [eventsFor_append]
    exact List.mem_append_right _ hnext

/-- A query that is due expires with the first frame, unless that is an answer to it. -/
theorem feed_expires (hc : c.Sound) (found : c.pool.query? i = some q) {g : Frame}
    (passes : g.id.isResponse = true → q.isAnsweredBy g = false) {left : Nat}
    (due : (⟨i⟩, left) ∈ c.agenda) (hle : left ≤ elapsed) (rest : List Frame) :
    ⟨i⟩ ∈ expiriesOf (c.feed elapsed (g :: rest)).2 := by
  change _ ∈ expiriesOf ((c.receive elapsed (some g)).2 ++ _)
  rw [expiriesOf_append, expiriesOf_receive hc]
  have hin := (spares_respond hc found passes).2 left due
  have hwithin : (⟨i⟩, left) ∈ ((c.respond (some g)).1.agenda.within elapsed) :=
    List.mem_filter.mpr ⟨hin, by simpa using hle⟩
  exact List.mem_append_left _ (List.mem_map_of_mem hwithin)

end Feed

/-- A query to one device whose answer is received by a poll ends in that poll. It is answered by
the first answer, except that it expires when it is due and other frames come before that answer:
the time passes with the first frame. -/
theorem poll_first_answer (l : σ) (before : List (Request π)) (r : Request π) (question : Frame)
    (a : Issue) (later : List (Request π)) (p : π) (passed : List Frame) (f : Frame)
    (rest : List Frame) :
    let start : Controller σ N := ((new l).run before).1
    let asked := (start.serve r).1
    let c := (asked.run later).1
    let out := c.poll p
    let due := (c.remaining? a.handle).any (· ≤ c.elapsedAt (Platform.now p).toMillis)
    start.Accepts r question a → a.handle ∉ (issuesOf (asked.run later).2).map Prod.fst →
    c.isPending a.handle = true → a.did ≠ .broadcast →
    (drain p).1 = passed ++ f :: rest → f.id.isResponse = true → f.Answers question →
    (∀ g ∈ passed, g.id.isResponse = true → ¬ g.Answers question) →
      out.controller.isPending a.handle = false ∧
      eventsFor a.handle out.acts =
        [if due = true ∧ passed ≠ [] then a.final .timeout else a.report f true] := by
  intro start asked c out due accepted unused pending unicast frames hr answers passes
  have hstart : start.Sound := (sound_new l).run before
  have hasked : asked.Sound := hstart.serve r
  have hc : c.Sound := hasked.run later
  obtain ⟨i, k, placed⟩ := accepted.placed hstart
  -- Nothing was told of the query so far, as the first event would have ended it.
  obtain ⟨q, living⟩ := run_living_of_isPending hasked placed.living later unused pending
  rw [List.nil_append] at living
  rw [living.reports.silent (Or.inl unicast)] at living
  have hunicast : q.did ≠ .broadcast := living.did ▸ unicast
  have hanswers : ∀ g : Frame, q.isAnsweredBy g = true ↔ g.Answers question := by
    have hasks : Asks (N := N) l (before ++ r :: later) i question :=
      ⟨before, r, later, a, rfl, accepted, placed.slot, placed.slot ▸ unused⟩
    have hq : ((new l : Controller σ N).run (before ++ r :: later)).1.pool.query? i = some q := by
      rw [run_append, run_cons]
      exact living.found
    obtain ⟨hd, _, hk⟩ := hasks.query hq
    exact fun g => PendingQuery.isAnsweredBy_iff hd hk
  have hpasses : ∀ g ∈ passed, g.id.isResponse = true → q.isAnsweredBy g = false :=
    fun g hg hgr => Bool.eq_false_of_not_eq_true fun h => passes g hg hgr ((hanswers g).mp h)
  have hsteps := serve_steps c (.poll p)
  have hunused : a.handle ∉ (issuesOf out.acts).map Prod.fst := by
    have hnone := hsteps.issuesOf_eq_nil hc id
    simp [show issuesOf out.acts = [] from hnone]
  have hwoken := hc.woken (Platform.now p).toMillis
  have hremaining : ∀ left, c.remaining? a.handle = some left ↔ (⟨i⟩, left) ∈ c.agenda := by
    rw [placed.slot]
    exact fun left => remaining?_eq_some_iff hc.kept
  suffices htold : (if due = true ∧ passed ≠ [] then a.final .timeout else a.report f true) ∈
      eventsFor a.handle out.acts from
    (hsteps.eventsFor_unicast hc living unicast hunused htold).symm
  split
  next hlate =>
    obtain ⟨left, hleft, hle⟩ := (Option.any_eq_true _ _).mp hlate.1
    obtain ⟨g, passed, rfl⟩ := List.exists_cons_of_ne_nil hlate.2
    have hexpires := feed_expires hwoken living.found (hpasses g List.mem_cons_self)
      ((hremaining left).mp hleft) (of_decide_eq_true hle) (passed ++ f :: rest)
    rw [← List.cons_append, ← frames, ← placed.slot] at hexpires
    have hown : a.swept = false :=
      Bool.eq_false_of_not_eq_true fun h => unicast (placed.search h)
    exact List.mem_filter.mpr
      ⟨hsteps.tells_expired hc living hown hunused hexpires, by simp [Issue.final]⟩
  next hearly =>
    have hwaits : passed = [] ∨ ∀ left, (⟨i⟩, left) ∈ c.agenda →
        c.elapsedAt (Platform.now p).toMillis < left := by
      by_cases hp : passed = []
      · exact Or.inl hp
      · refine Or.inr fun left hm => Nat.lt_of_not_le fun hle => hearly ⟨?_, hp⟩
        exact (Option.any_eq_true _ _).mpr ⟨left, (hremaining left).mpr hm, decide_eq_true hle⟩
    have hreport := feed_answers hwoken living.found hunicast hr ((hanswers f).mpr answers) hpasses
      hwaits rest
    rw [← frames, living.responseEvent_eq hc.kept, ← placed.slot] at hreport
    exact hreport

theorem serve_poll_mailbox (c : Controller σ N) (m : Mailbox) :
    c.serve (.poll m) = { c with lastPoll := some (Platform.now m).toMillis }.feed
      (c.elapsedAt (Platform.now m).toMillis) m.inbox := by
  change ((c.poll m).controller, (c.poll m).acts) = _
  rw [poll_mailbox]

theorem run_poll_mailbox (c : Controller σ N) (m : Mailbox) :
    c.run [.poll m] = { c with lastPoll := some (Platform.now m).toMillis }.feed
      (c.elapsedAt (Platform.now m).toMillis) m.inbox := by
  rw [run_singleton, serve_poll_mailbox]

/-- The answer to a query that is due comes too late when another response waits before it. -/
theorem poll_first_answer_late :
    let asked : Controller Silence 2 := ((new .silence).serve Mailbox.ask).1
    let c := (asked.run [.poll (⟨0, []⟩ : Mailbox)]).1
    let out := c.poll (⟨100, [Mailbox.other, Silence.answer]⟩ : Mailbox)
    c.isPending ⟨0⟩ = true ∧ out.controller.isPending ⟨0⟩ = false ∧
      eventsFor ⟨0⟩ out.acts = [Silence.issue.final .timeout] := by
  intro asked c out
  have accepted : (new .silence : Controller Silence 2).Accepts Mailbox.ask Silence.question
      Silence.issue :=
    .query _ (.ofRaw 1) Silence.question (.millis 100) 7 ⟨0⟩ rfl
  have hrun := run_poll_mailbox asked ⟨0, []⟩
  have pending : c.isPending ⟨0⟩ = true := by
    rw [show c = _ from congrArg Prod.fst hrun]
    decide
  have due : (c.remaining? ⟨0⟩).any (· ≤ c.elapsedAt 100) = true := by
    rw [show c = _ from congrArg Prod.fst hrun]
    decide
  have unused : ⟨0⟩ ∉ (issuesOf (asked.run [.poll (⟨0, []⟩ : Mailbox)]).2).map Prod.fst := by
    rw [hrun]
    decide
  obtain ⟨gone, told⟩ := poll_first_answer Silence.silence [] Mailbox.ask Silence.question
    Silence.issue [.poll ⟨0, []⟩] (⟨100, [Mailbox.other, Silence.answer]⟩ : Mailbox)
    [Mailbox.other] Silence.answer [] accepted unused pending (by decide)
    (by rw [drain_mailbox]; rfl) rfl Silence.answers_question fun g hg _ hga => by
      rw [List.mem_singleton.mp hg] at hga
      exact absurd (hga.1.resolve_left (by decide)) (by decide)
  rw [if_pos ⟨due, List.cons_ne_nil _ _⟩] at told
  exact ⟨pending, gone, told⟩

/-- Two queries are pending, one of them is due, and the answers to both wait: the order in which
they wait tells how it ends. -/
theorem poll_outcome_by_order :
    let c : Controller Silence 2 :=
      ((new .silence).run [Mailbox.ask, Mailbox.askOther, .poll ⟨0, []⟩]).1
    let first := c.poll (⟨100, [Silence.answer, Mailbox.other]⟩ : Mailbox)
    let second := c.poll (⟨100, [Mailbox.other, Silence.answer]⟩ : Mailbox)
    c.isPending ⟨0⟩ = true ∧ Silence.answer.Answers Silence.question ∧
      eventsFor ⟨0⟩ first.acts = [Silence.issue.report Silence.answer true] ∧
      eventsFor ⟨0⟩ second.acts = [Silence.issue.final .timeout] := by
  intro c first second
  have hc : c = (((new .silence : Controller Silence 2).run [Mailbox.ask, Mailbox.askOther]).1.run
    [.poll (⟨0, []⟩ : Mailbox)]).1 := rfl
  rw [run_poll_mailbox] at hc
  refine ⟨by rw [hc]; decide, Silence.answers_question, ?_, ?_⟩
  · rw [show first = _ from poll_mailbox .., hc]
    decide
  · rw [show second = _ from poll_mailbox .., hc]
    decide

end Controller

end Fieldbus
