import Fieldbus.Proofs.Controller.Invariant
import Fieldbus.Proofs.Pool.Agenda

namespace Fieldbus

namespace Controller

variable {σ π : Type} {N : Nat} {c d : Controller σ N}

/-- The queries that wait for a deadline, with the time that is left for each. -/
def agenda (c : Controller σ N) : Agenda Handle := c.pool.agenda

/-- What is told when the time of an entry is up; a sweep keeps silent about its own query. -/
def timeoutEvent? (c : Controller σ N) (e : Handle × Nat) : Option Event :=
  if c.sweepOwns e.1 then none
  else (c.pool.lookup? e.1).map fun found => finalEvent found.2 .timeout

theorem remaining?_eq_some_iff (hk : c.pool.WellKept) {h : Handle} {ms : Nat} :
    c.remaining? h = some ms ↔ (h, ms) ∈ c.agenda := by
  constructor
  · intro hr
    obtain ⟨⟨i, q⟩, hl, hi⟩ := Option.bind_eq_some_iff.mp hr
    obtain ⟨rfl, _, _⟩ := Pool.query?_of_lookup? hl
    exact hk.remaining?_eq_some_iff.mp hi
  · intro hm
    obtain ⟨i, left, _, he⟩ := Pool.mem_agenda_iff.mp hm
    obtain ⟨rfl, rfl⟩ := Prod.mk.inj he
    have hlink := hk.mem_map_fst_agenda_iff.mp (List.mem_map_of_mem hm)
    cases hq : c.pool.query? i with
    | none => simp [Pool.link?_eq_none hq] at hlink
    | some q =>
      rw [remaining?, Pool.lookup?_of_query? hq (hk.handle i q hq)]
      exact hk.remaining?_eq_some_iff.mpr hm

theorem isPending_of_mem_agenda (hk : c.pool.WellKept) {e : Handle × Nat} (he : e ∈ c.agenda) :
    c.isPending e.1 = true := by
  have hr := (remaining?_eq_some_iff hk).mpr he
  obtain ⟨found, hl, _⟩ := Option.bind_eq_some_iff.mp hr
  simp [isPending, hl]

theorem isPending_of_pool_setQuery {i : Fin N} {q r : PendingQuery} (hk : c.pool.WellKept)
    (found : c.pool.query? i = some q) (hr : r.handle = q.handle)
    (hd : d.pool = c.pool.setQuery i r) : d.isPending q.handle = true := by
  have hi := hk.handle i q found
  have hq : d.pool.query? i = some r := by rw [hd, Pool.query?_setQuery found, if_pos rfl]
  have hl : d.pool.lookup? q.handle = some (i, r) := by
    rw [hi]
    exact Pool.lookup?_of_query? hq (hr.trans hi)
  simp [isPending, hl]

theorem isPending_of_pool_finish {i : Fin N} {q : PendingQuery} (hk : c.pool.WellKept)
    (found : c.pool.query? i = some q) (hd : d.pool = c.pool.finish i q) :
    d.isPending q.handle = false := by
  rw [hk.handle i q found, isPending, hd, Pool.lookup?, dif_pos i.isLt, Pool.query?_finish,
    if_pos rfl]
  rfl

section Queue

variable {i : Fin N} {delay : Nat} {q : Deadlines (Fin N)}

theorem agenda_of_deadlines (hd : c.pool.deadlines = (i, delay) :: q) :
    c.agenda = (⟨i⟩, delay) :: ((Deadlines.agenda q).later delay).rekey Pool.handleOf := by
  rw [agenda, Pool.agenda, hd]
  rfl

theorem le_of_mem_agenda (hd : c.pool.deadlines = (i, delay) :: q) {e : Handle × Nat}
    (he : e ∈ c.agenda) : delay ≤ e.2 := by
  rw [agenda_of_deadlines hd] at he
  rcases List.mem_cons.mp he with rfl | he
  · exact Nat.le_refl _
  · obtain ⟨f, hf, rfl⟩ := List.mem_map.mp he
    obtain ⟨g, _, rfl⟩ := List.mem_map.mp hf
    exact Nat.le_add_right _ _

end Queue

section Aged

/-- Time has passed, and no query has ended for it yet. -/
def aged (c : Controller σ N) (elapsed : Nat) : Controller σ N :=
  { (c.advanceSweep elapsed).1 with pool := (c.advanceSweep elapsed).1.pool.elapse elapsed }

theorem pool_aged (c : Controller σ N) (elapsed : Nat) :
    (c.aged elapsed).pool = c.pool.elapse elapsed := by
  change (c.advanceSweep elapsed).1.pool.elapse elapsed = _
  rw [pool_advanceSweep]

theorem agenda_aged (hk : c.pool.WellKept) (elapsed : Nat) :
    (c.aged elapsed).agenda = c.agenda.aged elapsed := by
  rw [agenda, pool_aged]
  exact hk.agenda_elapse elapsed

theorem timeoutEvent?_aged (hc : c.Sound) (elapsed : Nat) (e : Handle × Nat) :
    (c.aged elapsed).timeoutEvent? (e.1, e.2 - elapsed) = c.timeoutEvent? e := by
  have hlookup : (c.aged elapsed).pool.lookup? e.1 = c.pool.lookup? e.1 := by
    simp only [Pool.lookup?, pool_aged, (Pool.sameQueries_elapse c.pool elapsed).query?]
  have hown : (c.aged elapsed).sweepOwns e.1 = c.sweepOwns e.1 :=
    sweepOwns_advanceSweep hc.sweep elapsed e.1
  simp only [timeoutEvent?, hlookup, hown]

end Aged

section Request

variable [Platform π]

end Request

variable [Listener σ]

theorem pool_cancel {h : Handle} {suppress : Bool} {i : Fin N} {q : PendingQuery}
    (found : c.pool.lookup? h = some (i, q)) :
    (c.cancel h suppress).2.1.pool = c.pool.finish i q := by
  have hcase := cancelling found suppress
  generalize (c.cancel h suppress).2 = out at hcase ⊢
  cases hcase <;> rfl

theorem agenda_cancel (hk : c.pool.WellKept) (h : Handle) (suppress : Bool) :
    (c.cancel h suppress).2.1.agenda = c.agenda.erase h := by
  cases hl : c.pool.lookup? h with
  | none =>
    have hout : h ∉ c.agenda.map Prod.fst := by
      intro hm
      obtain ⟨e, he, rfl⟩ := List.mem_map.mp hm
      simpa [isPending, hl] using isPending_of_mem_agenda hk he
    rw [Agenda.erase_eq_self hout]
    simp [cancel, hl]
  | some found =>
    obtain ⟨i, q⟩ := found
    obtain ⟨rfl, _, _⟩ := Pool.query?_of_lookup? hl
    rw [agenda, pool_cancel hl]
    exact hk.agenda_finish

theorem agenda_stopSweep (hk : c.pool.WellKept) :
    c.stopSweep.2.1.agenda =
      match c.sweep.bind Sweep.handle with
      | some h => c.agenda.erase h
      | none => c.agenda := by
  unfold stopSweep
  cases hs : c.sweep with
  | none => rfl
  | some s =>
    cases hh : s.handle with
    | none => simp [hh, agenda]
    | some h => simpa [hh] using agenda_cancel hk h true

/-- A slot that is empty stays so, and the listed ones are emptied. -/
theorem query?_cancelSlots (hk : c.pool.WellKept) (suppress : Bool) (slots : List (Fin N))
    (j : Fin N) (hj : j ∈ slots ∨ c.pool.query? j = none) :
    (c.cancelSlots suppress slots).1.pool.query? j = none := by
  -- The pool that one cancellation leaves behind is well kept, and its slot stays empty.
  induction slots generalizing c with
  | nil => simpa [cancelSlots] using hj
  | cons i rest ih =>
    cases hq : c.pool.query? i with
    | none =>
      simp only [cancelSlots, hq]
      refine ih hk ?_
      rcases hj with hj | hj
      · rcases List.mem_cons.mp hj with rfl | hj
        · exact Or.inr hq
        · exact Or.inl hj
      · exact Or.inr hj
    | some q =>
      have hpool : (c.cancel q.handle suppress).2.1.pool = c.pool.finish i q := by
        rw [hk.handle i q hq]
        exact pool_cancel (Pool.lookup?_of_query? hq (hk.handle i q hq))
      simp only [cancelSlots, hq]
      refine ih (by rw [hpool]; exact hk.finish hq) ?_
      rw [hpool, Pool.query?_finish]
      by_cases hji : j = i
      · exact Or.inr (if_pos hji)
      · rw [if_neg hji]
        exact hj.imp_left fun hj => (List.mem_cons.mp hj).resolve_left hji

theorem agenda_cancelAll (hc : c.Sound) (suppress : Bool) :
    (c.cancelAll suppress).1.agenda = [] := by
  have hk := (hc.cancelAll suppress).kept
  refine List.eq_nil_iff_forall_not_mem.mpr fun e he => ?_
  obtain ⟨i, left, _, rfl⟩ := Pool.mem_agenda_iff.mp he
  have hp := isPending_of_mem_agenda hk he
  obtain ⟨found, hl⟩ := Option.isSome_iff_exists.mp hp
  obtain ⟨hi, hq, _⟩ := Pool.query?_of_lookup? hl
  have hnone := query?_cancelSlots hc.kept suppress (List.finRange N) found.1
    (Or.inl (List.mem_finRange _))
  exact absurd (hnone.symm.trans hq) (by simp)

section Respond

variable {f : Frame}

theorem pool_handleResponse_of_unicastFor? {i : Fin N} {q : PendingQuery}
    (found : c.unicastFor? f = some (i, q)) :
    (c.handleResponse f).1.pool = c.pool.finish i q := by
  have hu := (unicastFor?_of_pool (f := f) (pool_observe c f)).trans found
  simp only [handleResponse, match?, hu]
  change (c.observe f).1.pool.finish i q = _
  rw [pool_observe]

theorem pool_handleResponse_of_none (hu : c.unicastFor? f = none)
    (hb : c.broadcastFor? f = none) : (c.handleResponse f).1.pool = c.pool := by
  have hu' := (unicastFor?_of_pool (f := f) (pool_observe c f)).trans hu
  have hb' := (broadcastFor?_of_pool (f := f) (pool_observe c f)).trans hb
  simp only [handleResponse, match?, hu', hb']
  exact pool_observe c f

section Broadcast

variable {i : Fin N} {q : PendingQuery}

theorem pool_handleResponse_of_notified (hu : c.unicastFor? f = none)
    (found : c.broadcastFor? f = some (i, q)) (hn : q.notified.contains f.did = true) :
    (c.handleResponse f).1.pool = c.pool := by
  have hu' := (unicastFor?_of_pool (f := f) (pool_observe c f)).trans hu
  have hb' := (broadcastFor?_of_pool (f := f) (pool_observe c f)).trans found
  simp only [handleResponse, match?, hu', hb', hn, if_true]
  exact pool_observe c f

theorem pool_handleResponse_of_first (hu : c.unicastFor? f = none)
    (found : c.broadcastFor? f = some (i, q)) (hn : q.notified.contains f.did = false) :
    (c.handleResponse f).1.pool = c.pool.setQuery i (q.note f.did) ∨
      (c.handleResponse f).1.pool = c.pool.finish i q := by
  have hu' := (unicastFor?_of_pool (f := f) (pool_observe c f)).trans hu
  have hb' := (broadcastFor?_of_pool (f := f) (pool_observe c f)).trans found
  have hout : (c.handleResponse f).1.pool = ((c.observe f).1.spread i q f).1.pool := by
    simp only [handleResponse, match?, hu', hb', hn, Bool.false_eq_true, if_false]
  rw [hout, ← pool_observe c f]
  exact pool_spread (c.observe f).1 i q f

end Broadcast

/-- A response ends at most the query that it answers, and changes no other deadline. -/
theorem agenda_handleResponse (hk : c.pool.WellKept) (f : Frame) :
    (c.handleResponse f).1.agenda =
      match c.unicastFor? f, c.broadcastFor? f with
      | some (_, q), _ => c.agenda.erase q.handle
      | none, some (_, q) =>
        if q.notified.contains f.did ∨ (c.handleResponse f).1.isPending q.handle then c.agenda
        else c.agenda.erase q.handle
      | none, none => c.agenda := by
  have hfinish : ∀ {i q}, c.pool.query? i = some q →
      (c.handleResponse f).1.pool = c.pool.finish i q →
      (c.handleResponse f).1.agenda = c.agenda.erase q.handle := by
    intro i q hs he
    rw [agenda, he, hk.agenda_finish, hk.handle i q hs]
    rfl
  cases hun : c.unicastFor? f with
  | some found =>
    obtain ⟨i, q⟩ := found
    obtain ⟨_, hs, _, _⟩ := query?_of_unicastFor? hun
    exact hfinish hs (pool_handleResponse_of_unicastFor? hun)
  | none =>
    cases hbr : c.broadcastFor? f with
    | none =>
      rw [agenda, pool_handleResponse_of_none hun hbr]
      rfl
    | some found =>
      obtain ⟨i, q⟩ := found
      obtain ⟨hs, _, _⟩ := query?_of_broadcastFor? hbr
      cases hn : q.notified.contains f.did with
      | true =>
        refine Eq.trans ?_ (if_pos (Or.inl hn)).symm
        rw [agenda, pool_handleResponse_of_notified hun hbr hn]
        rfl
      | false =>
        -- The listener decides which it is: a query that is halted is no longer pending.
        rcases pool_handleResponse_of_first hun hbr hn with he | he
        · have hp := isPending_of_pool_setQuery (r := q.note f.did) hk hs rfl he
          refine Eq.trans ?_ (if_pos (Or.inr hp)).symm
          rw [agenda, he, hk.agenda_setQuery]
          rfl
        · have hp := isPending_of_pool_finish hk hs he
          refine Eq.trans ?_ (if_neg (by simp [hn, hp])).symm
          exact hfinish hs he

end Respond

section Advance

theorem advance_eq (c : Controller σ N) (elapsed : Nat) :
    c.advance elapsed = (((c.aged elapsed).expireDue (c.aged elapsed).pool.queue).1,
      (c.advanceSweep elapsed).2 ++ ((c.aged elapsed).expireDue (c.aged elapsed).pool.queue).2) :=
  rfl

theorem pool_expire {i : Fin N} {q : PendingQuery} (found : c.pool.query? i = some q) :
    (c.expire i).1.pool = c.pool.finish i q := by
  have hcase := expiring found
  generalize c.expire i = out at hcase ⊢
  cases hcase <;> rfl

/-- A query that expires is told of unless a sweep owns it; no other query is concerned. -/
theorem timeoutEvent?_expire (hk : c.pool.WellKept) {i : Fin N} {q : PendingQuery}
    (found : c.pool.query? i = some q) :
    eventsOf (c.expire i).2 = (c.timeoutEvent? (⟨i⟩, 0)).toList ∧
      ∀ e : Handle × Nat, e.1 ≠ ⟨i⟩ → (c.expire i).1.timeoutEvent? e = c.timeoutEvent? e := by
  have hh := hk.handle i q found
  have hlookup : ∀ h : Handle, h ≠ ⟨i⟩ → (c.expire i).1.pool.lookup? h = c.pool.lookup? h := by
    intro h hne
    rw [pool_expire found, Pool.lookup?, Pool.lookup?]
    by_cases hlt : h.slot < N
    · have hi : (⟨h.slot, hlt⟩ : Fin N) ≠ i := by
        rintro rfl
        exact hne rfl
      rw [dif_pos hlt, dif_pos hlt, Pool.query?_finish, if_neg hi]
    · rw [dif_neg hlt, dif_neg hlt]
  have hself := Pool.lookup?_of_query? found hh
  cases ho : c.sweepOwns q.handle with
  | true =>
    obtain ⟨s, hs, howner⟩ := sweepOwns_iff.mp ho
    refine ⟨?_, fun e hne => ?_⟩
    · rw [expire_of_sweepOwns found ho, timeoutEvent?, ← hh, if_pos ho]
      rfl
    · have hold : c.sweepOwns e.1 = false := by
        rw [hh] at howner
        simpa [sweepOwns, hs, howner] using hne.symm
      have hnew : (c.expire i).1.sweepOwns e.1 = false := by
        rw [expire_of_sweepOwns found ho]
        rfl
      rw [timeoutEvent?, timeoutEvent?, hlookup e.1 hne, hold, hnew]
  | false =>
    refine ⟨?_, fun e hne => ?_⟩
    · rw [expire_told found ho, timeoutEvent?, ← hh, if_neg (by simp [ho]), hh, hself]
      rfl
    · have hsame : (c.expire i).1.sweepOwns e.1 = c.sweepOwns e.1 := by
        rw [expire_told found ho]
        rfl
      rw [timeoutEvent?, timeoutEvent?, hlookup e.1 hne, hsame]

theorem deadlines_expire {i : Fin N} {q : Deadlines (Fin N)} (hk : c.pool.WellKept)
    (hd : c.pool.deadlines = (i, 0) :: q) {r : PendingQuery} (found : c.pool.query? i = some r) :
    (c.expire i).1.pool.deadlines = q := by
  have hle := hk.total_le
  rw [hd, Deadlines.total, Nat.zero_add] at hle
  rw [pool_expire found, hk.queues_finish.deadlines_eq, hd, Deadlines.remove, if_pos rfl,
    Deadlines.postpone_zero hle]

theorem agenda_expire {i : Fin N} {q : Deadlines (Fin N)} (hk : c.pool.WellKept)
    (hd : c.pool.deadlines = (i, 0) :: q) {r : PendingQuery} (found : c.pool.query? i = some r) :
    c.agenda = (⟨i⟩, 0) :: (c.expire i).1.agenda := by
  rw [agenda_of_deadlines hd, agenda, Pool.agenda, deadlines_expire hk hd found]
  simp [Agenda.later]

/-- The queries that have no time left end in order of expiry, and no other one does. -/
theorem expireDue_spec (hc : c.Sound) :
    (c.expireDue c.pool.queue).1.agenda = c.agenda.after 0 ∧
      eventsOf (c.expireDue c.pool.queue).2 =
        (c.agenda.within 0).filterMap c.timeoutEvent? := by
  rw [hc.kept.queues.queue_eq]
  generalize hq : c.pool.deadlines = q
  -- What is left of the queue is the queue of the controller that one expiry leaves behind.
  induction q generalizing c with
  | nil =>
    have hnil : c.agenda = [] := by
      rw [agenda, Pool.agenda, hq]
      rfl
    rw [hnil]
    exact ⟨hnil, rfl⟩
  | cons e q ih =>
    obtain ⟨i, delay⟩ := e
    have hqueues := hc.kept.queues
    rw [hq] at hqueues
    rw [Deadlines.keys_cons, expireDue, hqueues.isDue_eq]
    by_cases hdelay : delay = 0
    · subst hdelay
      have hlink := (hqueues.mem_keys i).mp List.mem_cons_self
      cases found : c.pool.query? i with
      | none => simp [Pool.link?_eq_none found] at hlink
      | some r =>
        have hnext := deadlines_expire hc.kept hq found
        have htail := agenda_expire hc.kept hq found
        obtain ⟨hagenda, hevents⟩ := ih (hc.expire i) hnext
        obtain ⟨hown, hothers⟩ := timeoutEvent?_expire hc.kept found
        have hnodup := hc.kept.nodup_agenda
        change (c.agenda.map Prod.fst).Nodup at hnodup
        rw [htail, List.map_cons, List.nodup_cons] at hnodup
        have hsame : ((c.expire i).1.agenda.within 0).filterMap (c.expire i).1.timeoutEvent? =
            ((c.expire i).1.agenda.within 0).filterMap c.timeoutEvent? := by
          refine List.filterMap_congr fun e he => hothers e fun hh => hnodup.1 ?_
          have hm : e.1 ∈ (c.expire i).1.agenda.map Prod.fst :=
            List.mem_map_of_mem (List.mem_of_mem_filter he)
          rwa [hh] at hm
        rw [htail, Agenda.after_cons_of_le _ (Nat.le_refl 0), Agenda.within_cons]
        refine ⟨hagenda, ?_⟩
        change eventsOf ((c.expire i).2 ++ ((c.expire i).1.expireDue (Deadlines.keys q)).2) = _
        rw [eventsOf_append, hown, hevents, if_pos (Nat.le_refl 0), List.filterMap_cons, hsame]
        cases c.timeoutEvent? (⟨i⟩, 0) <;> rfl
    · have hpos : ∀ e ∈ c.agenda, 0 < e.2 := by
        intro e he
        have hle := le_of_mem_agenda hq he
        omega
      rw [Agenda.after_zero_eq_self hpos, Agenda.within_eq_nil hpos, decide_eq_false hdelay]
      exact ⟨rfl, rfl⟩

/-- When time passes, the queries whose time is up end in order of expiry, each is told of unless a
sweep owns it, and all others wait on. -/
theorem advance_spec (hc : c.Sound) (elapsed : Nat) :
    (c.advance elapsed).1.agenda = c.agenda.after elapsed ∧
      eventsOf (c.advance elapsed).2 =
        (c.agenda.within elapsed).filterMap c.timeoutEvent? := by
  have hsound : (c.aged elapsed).Sound := hc.elapse elapsed
  obtain ⟨hout, hevents⟩ := expireDue_spec hsound
  refine ⟨?_, ?_⟩
  · rw [← Agenda.after_aged, ← agenda_aged hc.kept]
    exact hout
  · change eventsOf ((c.advanceSweep elapsed).2 ++
      ((c.aged elapsed).expireDue (c.aged elapsed).pool.queue).2) = _
    rw [eventsOf_append, eventsOf_advanceSweep, List.nil_append, hevents, agenda_aged hc.kept,
      Agenda.within_aged, Agenda.aged, List.filterMap_map]
    exact List.filterMap_congr fun e _ => timeoutEvent?_aged hc elapsed e

end Advance

end Controller

end Fieldbus
