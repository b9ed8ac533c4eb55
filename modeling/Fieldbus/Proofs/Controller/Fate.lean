import Fieldbus.Proofs.Controller.Invariant

namespace Fieldbus

namespace Controller

variable {σ : Type} {N : Nat} {c d : Controller σ N}

/-- An event of a pending query that no sweep owns, or one of an orphan. -/
def Genuine (c : Controller σ N) (e : Event) : Prop :=
  (∃ h, e.context = .query ∧ e.handle = some h ∧ c.isPending h = true ∧ c.sweepOwns h = false) ∨
    e.context = .orphan ∧ e.handle = none ∧ e.tag = 0 ∧ e.terminated = true

theorem genuine_of_query? {e : Event} {i : Fin N} {q : PendingQuery} (hk : c.pool.WellKept)
    (hq : c.pool.query? i = some q)
    (he : e.handle = some q.handle ∧ e.context = .query) (own : c.sweepOwns q.handle = false) :
    c.Genuine e :=
  Or.inl ⟨q.handle, he.2, he.1, (isPending_iff hk).mpr ⟨i, q, hk.handle i q hq, hq⟩, own⟩

variable [Listener σ]

/-- What becomes of the query in a slot while some events are told. -/
inductive Fate (may : Licence) (c : Controller σ N) (i : Fin N) (q : PendingQuery)
    (events : List Event) (d : Controller σ N) : Prop
  | kept (found : d.pool.query? i = some q) (owns : d.sweepOwns ⟨i⟩ = c.sweepOwns ⟨i⟩)
      (silent : ∀ e ∈ events, e.handle ≠ some ⟨i⟩)
  | noted (f : Frame) (broadcast : q.did = .broadcast) (answer : q.isAnsweredBy f = true)
      (first : q.notified.contains f.did = false) (heard : may.hear f)
      (goOn : c.sweepOwns ⟨i⟩ = false →
        (Listener.onEvent c.listener (responseEvent q f false)).1 = true)
      (found : d.pool.query? i = some (q.note f.did))
      (owns : d.sweepOwns ⟨i⟩ = c.sweepOwns ⟨i⟩)
      (told : events = if c.sweepOwns ⟨i⟩ then [] else [responseEvent q f false])
  | ended (gone : d.pool.query? i = none) (ending : Ending may c q events d.sweep)

variable {may : Licence} {events : List Event} {issues : List (Handle × Timeout)}
  {acts : List ControllerAct} {i : Fin N} {q : PendingQuery}

/-- Every event of an ending carries the handle of the query that ends. -/
theorem Ending.handle_eq {sweep : Option Sweep} (h : Ending may c q events sweep) :
    ∀ e ∈ events, e.handle = some q.handle ∧ e.context = .query := by
  cases h with
  | hushed => simp
  | swept => simp
  | answered => simp [responseEvent]
  | halted => simp [responseEvent]
  | expired => simp [finalEvent]
  | cancelled => simp [finalEvent]

/-- The end of another query leaves it to the sweep whether it owns this one. -/
theorem Ending.sweepOwns_of_ne {h : Handle} (he : Ending may c q events d.sweep)
    (hne : h ≠ q.handle) : d.sweepOwns h = c.sweepOwns h := by
  generalize hs : d.sweep = sweep at he
  cases he with
  | swept own =>
    obtain ⟨s, hsweep, hh⟩ := sweepOwns_iff.mp own
    simp [sweepOwns, hs, hsweep, hh, hne.symm]
  | answered => exact sweepOwns_of_sweep hs h
  | expired => exact sweepOwns_of_sweep hs h
  | cancelled => exact sweepOwns_of_sweep hs h
  | hushed => exact sweepOwns_of_sweep hs h
  | halted => exact sweepOwns_of_sweep hs h

theorem handle_ne {j : Fin N} (h : i ≠ j) : (⟨i⟩ : Handle) ≠ ⟨j⟩ :=
  fun hh => h (Fin.ext (Handle.mk.inj hh))

theorem Effect.fate (h : Effect may c events issues d) (hk : c.pool.WellKept)
    (hq : c.pool.query? i = some q) : Fate may c i q events d := by
  cases h with
  | quiet pool sweep owns => exact .kept (pool ▸ hq) (owns _) (by simp)
  | watched s pool resting sweep passive =>
    refine .kept (pool ▸ hq) ?_ (by simp)
    simp [sweepOwns, resting, sweep, passive.1]
  | orphaned e pool sweep orphan =>
    refine .kept (pool ▸ hq) (sweepOwns_of_sweep sweep _) fun e' he => ?_
    rw [List.mem_singleton.mp he, orphan.2.1]
    simp
  | elapsed ms pool sweep =>
    refine .kept ?_ (sweepOwns_of_sweep sweep _) (by simp)
    rw [pool, (Pool.sameQueries_elapse c.pool ms).query?, hq]
  | taken j taken query correlation timeout tag alloc idle asks allowed pool sweep =>
    obtain ⟨_, _, hfree, _⟩ := hk.alloc alloc
    have hij : i ≠ j := by
      rintro rfl
      simp [hfree] at hq
    refine .kept ?_ ?_ (by simp)
    · rw [pool, Pool.query?_fill_alloc alloc, if_neg hij, hq]
    · rcases sweep with same | ⟨resting, _, s, hs, hh, _⟩
      · exact sweepOwns_of_sweep same _
      · simp [sweepOwns, resting, hs, hh, (handle_ne hij).symm]
  | noted j r f found broadcast answer first heard goOn pool sweep owns =>
    have hh := hk.handle j r found
    by_cases hij : i = j
    · subst hij
      cases Option.some.inj (found.symm.trans hq)
      rw [hh] at goOn ⊢
      refine .noted f broadcast answer first heard goOn ?_ (owns _) rfl
      rw [pool, Pool.query?_setQuery found, if_pos rfl]
    · refine .kept ?_ (owns _) fun e he => ?_
      · rw [pool, Pool.query?_setQuery found, if_neg hij, hq]
      · split at he
        next => simp at he
        next =>
          rw [List.mem_singleton.mp he]
          simpa [responseEvent, hh] using (handle_ne hij).symm
  | ended j r found pool ending =>
    have hh := hk.handle j r found
    by_cases hij : i = j
    · subst hij
      cases Option.some.inj (found.symm.trans hq)
      exact .ended (by rw [pool, Pool.query?_finish, if_pos rfl]) ending
    · refine .kept ?_ (ending.sweepOwns_of_ne (hh ▸ handle_ne hij)) fun e he => ?_
      · rw [pool, Pool.query?_finish, if_neg hij, hq]
      · rw [(ending.handle_eq e he).1, hh]
        simpa using (handle_ne hij).symm

/-- A free slot stays free and is not told of until it is taken. -/
theorem Effect.vacant (h : Effect may c events issues d) (hk : c.pool.WellKept)
    (hq : c.pool.query? i = none) (unused : ⟨i⟩ ∉ issues.map Prod.fst) :
    d.pool.query? i = none ∧ ∀ e ∈ events, e.handle ≠ some ⟨i⟩ := by
  cases h with
  | quiet pool => exact ⟨pool ▸ hq, by simp⟩
  | watched s pool => exact ⟨pool ▸ hq, by simp⟩
  | orphaned e pool sweep orphan =>
    refine ⟨pool ▸ hq, fun e' he => ?_⟩
    rw [List.mem_singleton.mp he, orphan.2.1]
    simp
  | elapsed ms pool =>
    refine ⟨?_, by simp⟩
    rw [pool, (Pool.sameQueries_elapse c.pool ms).query?, hq]
  | taken j taken query correlation timeout tag alloc idle asks allowed pool =>
    have hij : i ≠ j := by
      rintro rfl
      simp at unused
    refine ⟨?_, by simp⟩
    rw [pool, Pool.query?_fill_alloc alloc, if_neg hij, hq]
  | noted j r f found broadcast answer first heard goOn pool =>
    have hij : i ≠ j := by
      rintro rfl
      simp [hq] at found
    refine ⟨by rw [pool, Pool.query?_setQuery found, if_neg hij, hq], fun e he => ?_⟩
    split at he
    next => simp at he
    next =>
      rw [List.mem_singleton.mp he]
      simpa [responseEvent, hk.handle j r found] using (handle_ne hij).symm
  | ended j r found pool ending =>
    have hij : i ≠ j := by
      rintro rfl
      simp [hq] at found
    refine ⟨by rw [pool, Pool.query?_finish, if_neg hij, hq], fun e he => ?_⟩
    rw [(ending.handle_eq e he).1, hk.handle j r found]
    simpa using (handle_ne hij).symm

/-- After the end of a query nothing is told of it until its handle is used again. -/
theorem Steps.vacant (h : Steps may c acts d) (hc : c.Sound) (hp : c.isPending ⟨i⟩ = false)
    (unused : ⟨i⟩ ∉ (issuesOf acts).map Prod.fst) :
    d.isPending ⟨i⟩ = false ∧ ∀ e ∈ eventsOf acts, e.handle ≠ some ⟨i⟩ := by
  induction h with
  | refl => exact ⟨hp, by simp⟩
  | cons first _ ih =>
    rw [notMem_issuesOf_append] at unused
    rw [isPending_eq_false_iff hc.kept] at hp
    -- Each step may leave the slot free only if it does not take it.
    obtain ⟨hm, hfirst⟩ := (first.effect hc).vacant hc.kept hp unused.1
    rw [← isPending_eq_false_iff (first.sound hc).kept] at hm
    obtain ⟨hd, hrest⟩ := ih (first.sound hc) hm unused.2
    refine ⟨hd, fun e he => ?_⟩
    rw [eventsOf_append] at he
    rcases List.mem_append.mp he with he | he
    · exact hfirst e he
    · exact hrest e he

theorem Ending.genuine {sweep : Option Sweep} (hc : c.Sound) (hq : c.pool.query? i = some q)
    (h : Ending may c q events sweep) {e : Event} (he : e ∈ events) : c.Genuine e := by
  refine genuine_of_query? hc.kept hq (h.handle_eq e he) ?_
  cases h with
  | answered f unicast =>
    rw [hc.kept.handle i q hq]
    exact hc.not_sweepOwns hq unicast
  | expired own => exact own
  | cancelled own => exact own
  | halted f broadcast own => exact own
  | hushed => simp at he
  | swept => simp at he

theorem Effect.genuine (h : Effect may c events issues d) (hc : c.Sound) {e : Event}
    (he : e ∈ events) : c.Genuine e := by
  cases h with
  | orphaned e' pool sweep orphan =>
    rw [List.mem_singleton.mp he]
    exact Or.inr orphan
  | noted j r f found =>
    cases own : c.sweepOwns r.handle with
    | true => simp [own] at he
    | false =>
      refine genuine_of_query? hc.kept found ?_ own
      simp only [own, Bool.false_eq_true, ↓reduceIte, List.mem_singleton] at he
      exact he ▸ ⟨rfl, rfl⟩
  | ended j r found pool ending => exact ending.genuine hc found he
  | _ => simp at he

/-- What is genuine after a step that accepts nothing was so before. -/
theorem Effect.genuine_of_genuine (h : Effect may c events [] d) (hc : c.Sound) (hd : d.Sound)
    {e : Event} (he : d.Genuine e) : c.Genuine e := by
  rcases he with ⟨g, hx, hg, hp, own⟩ | orphan
  · obtain ⟨i, r, rfl, hr⟩ := (isPending_iff hd.kept).mp hp
    cases hq : c.pool.query? i with
    | none => simp [(h.vacant hc.kept hq (by simp)).1] at hr
    | some q =>
      refine Or.inl ⟨_, hx, hg, (isPending_iff hc.kept).mpr ⟨i, q, rfl, hq⟩, ?_⟩
      cases h.fate hc.kept hq with
      | kept found owns => exact owns ▸ own
      | noted f broadcast answer first heard goOn found owns => exact owns ▸ own
      | ended gone => simp [gone] at hr
  · exact Or.inr orphan

theorem Steps.genuine (h : Steps may c acts d) (hc : c.Sound) (hn : ¬ may.accept) {e : Event}
    (he : e ∈ eventsOf acts) : c.Genuine e := by
  induction h with
  | refl => simp at he
  | cons first _ ih =>
    rw [eventsOf_append] at he
    rcases List.mem_append.mp he with he | he
    · exact (first.effect hc).genuine hc he
    -- What is told later concerns a query that was pending from the start, as none is accepted.
    · have hback := first.effect hc
      rw [hback.issues_eq_nil hn] at hback
      exact hback.genuine_of_genuine hc (first.sound hc) (ih (first.sound hc) he)

end Controller

end Fieldbus
