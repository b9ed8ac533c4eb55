import Fieldbus.Proofs.Controller.Answer

namespace Fieldbus

/-- The queries whose time was up, in order. -/
def expiriesOf (acts : List ControllerAct) : List Handle :=
  acts.filterMap fun
    | .expired _ h _ => some h
    | _ => none

@[simp] theorem expiriesOf_nil : expiriesOf [] = [] := rfl

@[simp] theorem expiriesOf_append (a b : List ControllerAct) :
    expiriesOf (a ++ b) = expiriesOf a ++ expiriesOf b := List.filterMap_append

theorem expiriesOf_silent {acts : List ControllerAct} (h : ∀ a ∈ acts, a.isSilent = true) :
    expiriesOf acts = [] := by
  apply List.filterMap_eq_nil_iff.mpr
  intro a ha
  have hs := h a ha
  cases a <;> simp_all [ControllerAct.isSilent]

namespace Controller

variable {σ π : Type} {N : Nat} {c d : Controller σ N}

section Pieces

theorem expiriesOf_install (c : Controller σ N) (i : Fin N) (query : Frame)
    (correlation : Correlation) (timeout : Timeout) (tag : UInt32) :
    expiriesOf (c.install i query correlation timeout tag).2 = [] := by
  cases timeout <;> rfl

theorem expiriesOf_endSweep (c : Controller σ N) (reason : SweepEnd) :
    expiriesOf (c.endSweep reason).2 = [] := by
  unfold endSweep
  split <;> rfl

theorem expiriesOf_observe (c : Controller σ N) (f : Frame) : expiriesOf (c.observe f).2 = [] := by
  rcases observe_cases c f with he | ⟨s, _, _, ⟨_, he⟩ | ⟨_, he⟩⟩ <;> rw [he] <;> rfl

theorem expiriesOf_advanceSweep (c : Controller σ N) (elapsed : Nat) :
    expiriesOf (c.advanceSweep elapsed).2 = [] := by
  rcases advanceSweep_cases c elapsed with he | ⟨s, r, _, _, ⟨_, he⟩ | ⟨_, he⟩⟩ <;> rw [he] <;> rfl

variable [Listener σ]

theorem expiriesOf_spread (c : Controller σ N) (i : Fin N) (q : PendingQuery) (f : Frame) :
    expiriesOf (c.spread i q f).2 = [] := by
  have hcase := spreading c i q f
  generalize c.spread i q f = out at hcase ⊢
  cases hcase <;> rfl

theorem expiriesOf_cancel {h : Handle} {suppress : Bool} {i : Fin N} {q : PendingQuery}
    (found : c.pool.lookup? h = some (i, q)) : expiriesOf (c.cancel h suppress).2.2 = [] := by
  have hcase := cancelling found suppress
  generalize (c.cancel h suppress).2 = out at hcase ⊢
  cases hcase <;> rfl

theorem expiriesOf_expire {i : Fin N} {q : PendingQuery} (found : c.pool.query? i = some q) :
    expiriesOf (c.expire i).2 = [q.handle] := by
  have hcase := expiring found
  generalize c.expire i = out at hcase ⊢
  cases hcase <;> rfl

theorem expiriesOf_match? (c : Controller σ N) (f : Frame) : expiriesOf (c.match? f).2 = [] := by
  unfold match?
  split
  next => rfl
  next =>
    split
    next =>
      split
      next => rfl
      next => exact expiriesOf_spread ..
    next => rfl

theorem expiriesOf_respond (c : Controller σ N) (frame : Option Frame) :
    expiriesOf (c.respond frame).2 = [] := by
  cases frame with
  | none => rfl
  | some f =>
    by_cases hr : f.id.isResponse = true
    · simp only [respond, hr, if_true]
      change expiriesOf ((c.observe f).2 ++ ((c.observe f).1.match? f).2) = []
      rw [expiriesOf_append, expiriesOf_observe, expiriesOf_match?, List.nil_append]
    · simp only [respond, hr]
      rfl

end Pieces

variable [Listener σ] [Platform π] {may : Licence} {acts : List ControllerAct} {i : Fin N}
  {q : PendingQuery}

/-- Only the end of a query whose time is up counts as an expiry. -/
theorem Step.expiries (h : Step may c acts d) :
    expiriesOf acts = [] ∨
      ∃ i q, c.pool.query? i = some q ∧ acts = (c.expire i).2 ∧ d = (c.expire i).1 := by
  cases h with
  | expire i q found => exact Or.inr ⟨i, q, found, rfl, rfl⟩
  | skip refused silent => exact Or.inl (expiriesOf_silent silent)
  | clock now => exact Or.inl rfl
  | accept => exact Or.inl (expiriesOf_install ..)
  | search =>
    left
    rw [expiriesOf_append, expiriesOf_install]
    rfl
  | watch => exact Or.inl rfl
  | unwatch => exact Or.inl (expiriesOf_endSweep ..)
  | cancel h suppress i q found => exact Or.inl (expiriesOf_cancel found)
  | observe f => exact Or.inl (expiriesOf_observe c f)
  | conclude => exact Or.inl rfl
  | spread f i q => exact Or.inl (expiriesOf_spread c i q f)
  | orphan => exact Or.inl rfl
  | wane elapsed => exact Or.inl (expiriesOf_advanceSweep c elapsed)
  | elapse => exact Or.inl rfl

/-- A query that expires in a step leaves its slot. -/
theorem Step.expired (h : Step may c acts d) (hk : c.pool.WellKept) (hm : ⟨i⟩ ∈ expiriesOf acts) :
    ∃ q, c.pool.query? i = some q ∧ d.pool.query? i = none ∧ acts = (c.expire i).2 := by
  rcases h.expiries with hn | ⟨j, q, found, rfl, rfl⟩
  · simp [hn] at hm
  · rw [expiriesOf_expire found, List.mem_singleton, hk.handle j q found] at hm
    cases Fin.ext (Handle.mk.inj hm)
    refine ⟨q, found, ?_, rfl⟩
    rw [pool_expire found, Pool.query?_finish, if_pos rfl]

/-- A query that expires was pending and is not pending any more. -/
theorem Steps.expired (h : Steps may c acts d) (hc : c.Sound)
    (unused : ⟨i⟩ ∉ (issuesOf acts).map Prod.fst) (hm : ⟨i⟩ ∈ expiriesOf acts) :
    c.isPending ⟨i⟩ = true ∧ d.isPending ⟨i⟩ = false := by
  induction h with
  | refl => simp at hm
  | cons first rest ih =>
    rw [notMem_issuesOf_append] at unused
    have hmid := first.sound hc
    rcases List.mem_append.mp (expiriesOf_append _ _ ▸ hm) with hm | hm
    · obtain ⟨q, found, gone, _⟩ := first.expired hc.kept hm
      refine ⟨(isPending_iff hc.kept).mpr ⟨i, q, rfl, found⟩, ?_⟩
      exact (rest.vacant hmid ((isPending_eq_false_iff hmid.kept).mpr gone) unused.2).1
    · obtain ⟨pending, gone⟩ := ih hmid unused.2 hm
      refine ⟨?_, gone⟩
      by_contra hn
      have hfree := (first.steps.vacant hc (Bool.eq_false_of_not_eq_true hn) unused.1).1
      exact Bool.false_ne_true (hfree.symm.trans pending)

/-- The listener is told of a query that expires, unless a sweep waits for it. -/
theorem Steps.tells_expired {a : Issue} {told : List (Event × Bool)} (h : Steps may c acts d)
    (hc : c.Sound) (hl : c.Living a i q told) (own : a.swept = false)
    (unused : a.handle ∉ (issuesOf acts).map Prod.fst) (hm : a.handle ∈ expiriesOf acts) :
    a.final .timeout ∈ eventsOf acts := by
  induction h generalizing q told with
  | refl => simp at hm
  | cons first rest ih =>
    rw [notMem_issuesOf_append] at unused
    have hmid := first.sound hc
    rw [eventsOf_append]
    rcases List.mem_append.mp (expiriesOf_append _ _ ▸ hm) with hm | hm
    · rw [hl.slot] at hm
      obtain ⟨r, found, _, rfl⟩ := first.expired hc.kept hm
      cases Option.some.inj (found.symm.trans hl.found)
      have hown := hl.owns.trans own
      rw [← hc.kept.handle i q found] at hown
      rw [expire_told found hown, ← hl.finalEvent_eq hc.kept]
      exact List.mem_append_left _ List.mem_cons_self
    · rw [hl.slot] at hm unused
      -- It expires later, so the first step did not end it.
      have hpending := (rest.expired hmid unused.2 hm).1
      rw [← hl.slot] at hm hpending unused
      rcases first.living hc hl with ⟨r, hr⟩ | closed
      · exact List.mem_append_right _ (ih hmid hr unused.2 hm)
      · exact absurd (closed.1.symm.trans hpending) Bool.false_ne_true

section Advance

/-- The queries that have no time left expire, in order. -/
theorem expiriesOf_expireDue (hc : c.Sound) :
    expiriesOf (c.expireDue c.pool.queue).2 = (c.agenda.within 0).map Prod.fst := by
  rw [hc.kept.queues.queue_eq]
  generalize hq : c.pool.deadlines = q
  induction q generalizing c with
  | nil =>
    rw [agenda, Pool.agenda, hq]
    rfl
  | cons e q ih =>
    obtain ⟨i, delay⟩ := e
    have hqueues := hc.kept.queues
    rw [hq] at hqueues
    rw [Deadlines.keys_cons, expireDue, hqueues.isDue_eq]
    by_cases hdelay : delay = 0
    · subst hdelay
      have hlink := (hqueues.mem_keys i).mp List.mem_cons_self
      cases found : c.pool.query? i with
      | none => simp [Pool.link?_eq_none found] at hlink
      | some r =>
        rw [agenda_expire hc.kept hq found, Agenda.within_cons, if_pos (Nat.le_refl 0),
          List.map_cons, ← ih (hc.expire i) (deadlines_expire hc.kept hq found)]
        change expiriesOf ((c.expire i).2 ++ ((c.expire i).1.expireDue (Deadlines.keys q)).2) = _
        rw [expiriesOf_append, expiriesOf_expire found, hc.kept.handle i r found]
        rfl
    · have hpos : ∀ e ∈ c.agenda, 0 < e.2 := by
        intro e he
        have hle := le_of_mem_agenda hq he
        omega
      rw [Agenda.within_eq_nil hpos, decide_eq_false hdelay]
      rfl

/-- Exactly the queries whose time is up within a while expire when it passes. -/
theorem expiriesOf_advance (hc : c.Sound) (elapsed : Nat) :
    expiriesOf (c.advance elapsed).2 = (c.agenda.within elapsed).map Prod.fst := by
  have hsound : (c.aged elapsed).Sound := hc.elapse elapsed
  change expiriesOf ((c.advanceSweep elapsed).2 ++
    ((c.aged elapsed).expireDue (c.aged elapsed).pool.queue).2) = _
  rw [expiriesOf_append, expiriesOf_advanceSweep, List.nil_append, expiriesOf_expireDue hsound,
    agenda_aged hc.kept, Agenda.within_aged, Agenda.aged, List.map_map]
  rfl

theorem query?_expireDue (hc : c.Sound) (slots : List (Fin N))
    (waits : ⟨i⟩ ∉ expiriesOf (c.expireDue slots).2) :
    (c.expireDue slots).1.pool.query? i = c.pool.query? i := by
  induction slots generalizing c with
  | nil => rfl
  | cons j rest ih =>
    rw [expireDue] at waits ⊢
    split at waits
    next hdue =>
      rw [if_pos hdue]
      change ⟨i⟩ ∉ expiriesOf ((c.expire j).2 ++ ((c.expire j).1.expireDue rest).2) at waits
      change ((c.expire j).1.expireDue rest).1.pool.query? i = _
      rw [expiriesOf_append, List.mem_append, not_or] at waits
      rw [ih (hc.expire j) waits.2]
      cases found : c.pool.query? j with
      | none => simp [expire, found]
      | some r =>
        rw [expiriesOf_expire found, hc.kept.handle j r found, List.mem_singleton] at waits
        have hij : i ≠ j := fun hij => waits.1 (congrArg (fun k : Fin N => Handle.mk k) hij)
        rw [pool_expire found, Pool.query?_finish, if_neg hij]
    next hdue => rw [if_neg hdue]

/-- A query that does not expire stays as it is when time passes. -/
theorem query?_advance (hc : c.Sound) {elapsed : Nat}
    (waits : ⟨i⟩ ∉ expiriesOf (c.advance elapsed).2) :
    (c.advance elapsed).1.pool.query? i = c.pool.query? i := by
  have hsound : (c.aged elapsed).Sound := hc.elapse elapsed
  change ⟨i⟩ ∉ expiriesOf ((c.advanceSweep elapsed).2 ++
    ((c.aged elapsed).expireDue (c.aged elapsed).pool.queue).2) at waits
  rw [expiriesOf_append, expiriesOf_advanceSweep, List.nil_append] at waits
  refine (query?_expireDue hsound _ waits).trans ?_
  rw [pool_aged, (Pool.sameQueries_elapse c.pool elapsed).query?]

end Advance

section Receive

variable {h : Handle} {left elapsed : Nat} {frame : Option Frame} {frames : List Frame}

/-- No response gives a query more time. -/
theorem agenda_respond_subset (hk : c.pool.WellKept) (frame : Option Frame) :
    (c.respond frame).1.agenda ⊆ c.agenda := by
  cases frame with
  | none => exact List.Subset.refl _
  | some f =>
    by_cases hr : f.id.isResponse = true
    · simp only [respond, hr, if_true]
      rw [agenda_handleResponse hk f]
      split
      next => exact List.filter_subset_self _
      next =>
        split
        next => exact List.Subset.refl _
        next => exact List.filter_subset_self _
      next => exact List.Subset.refl _
    · simp only [respond, hr]
      exact List.Subset.refl _

theorem expiriesOf_receive (hc : c.Sound) (elapsed : Nat) (frame : Option Frame) :
    expiriesOf (c.receive elapsed frame).2 =
      ((c.respond frame).1.agenda.within elapsed).map Prod.fst := by
  change expiriesOf ((c.respond frame).2 ++ ((c.respond frame).1.advance elapsed).2) = _
  rw [expiriesOf_append, expiriesOf_respond, List.nil_append,
    expiriesOf_advance (hc.respond frame)]

/-- A query that still waits has waited for the time that passed, and has time left. -/
theorem mem_agenda_receive (hc : c.Sound) (hm : (h, left) ∈ (c.receive elapsed frame).1.agenda) :
    (h, left + elapsed) ∈ c.agenda ∧ 0 < left := by
  change (h, left) ∈ ((c.respond frame).1.advance elapsed).1.agenda at hm
  rw [(advance_spec (hc.respond frame) elapsed).1] at hm
  obtain ⟨e, he, heq⟩ := List.mem_map.mp hm
  obtain ⟨hin, hlt⟩ := List.mem_filter.mp he
  obtain ⟨rfl, rfl⟩ := Prod.mk.inj heq
  have hlt : elapsed < e.2 := of_decide_eq_true hlt
  rw [Nat.sub_add_cancel (Nat.le_of_lt hlt)]
  exact ⟨agenda_respond_subset hc.kept frame hin, Nat.sub_pos_of_lt hlt⟩

/-- A query that expires had no more time than what passed. -/
theorem mem_agenda_of_expiriesOf_receive (hc : c.Sound)
    (hm : h ∈ expiriesOf (c.receive elapsed frame).2) :
    ∃ left, (h, left) ∈ c.agenda ∧ left ≤ elapsed := by
  rw [expiriesOf_receive hc] at hm
  obtain ⟨e, he, rfl⟩ := List.mem_map.mp hm
  obtain ⟨hin, hle⟩ := List.mem_filter.mp he
  exact ⟨e.2, agenda_respond_subset hc.kept frame hin, of_decide_eq_true hle⟩

theorem mem_agenda_feed (hc : c.Sound) (hm : (h, left) ∈ (c.feed elapsed frames).1.agenda) :
    (h, left + elapsed) ∈ c.agenda ∧ 0 < left := by
  induction frames generalizing c elapsed with
  | nil => exact mem_agenda_receive hc hm
  | cons f rest ih =>
    obtain ⟨hfirst, hpos⟩ := ih (hc.receive elapsed (some f)) hm
    exact ⟨(mem_agenda_receive hc hfirst).1, hpos⟩

/-- All queries that expire while frames are taken do so with the first, when the time passes. -/
theorem mem_agenda_of_expiriesOf_feed (hc : c.Sound)
    (hm : h ∈ expiriesOf (c.feed elapsed frames).2) :
    ∃ left, (h, left) ∈ c.agenda ∧ left ≤ elapsed := by
  induction frames generalizing c elapsed with
  | nil => exact mem_agenda_of_expiriesOf_receive hc hm
  | cons f rest ih =>
    change h ∈ expiriesOf ((c.receive elapsed (some f)).2 ++
      ((c.receive elapsed (some f)).1.feed 0 rest).2) at hm
    rw [expiriesOf_append] at hm
    rcases List.mem_append.mp hm with hm | hm
    · exact mem_agenda_of_expiriesOf_receive hc hm
    · obtain ⟨left, hin, hle⟩ := ih (hc.receive elapsed (some f)) hm
      have hpos := (mem_agenda_receive hc hin).2
      omega

end Receive

end Controller

end Fieldbus
