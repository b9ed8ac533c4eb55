import Fieldbus.Proofs.Controller.Run

namespace Fieldbus

namespace Controller

variable {σ : Type} {N : Nat} {c d : Controller σ N}

theorem sweepOwns_iff {h : Handle} :
    c.sweepOwns h = true ↔ ∃ s, c.sweep = some s ∧ s.handle = some h := by
  simp [sweepOwns, Option.any_eq_true]

theorem sweepOwns_of_sweep (hs : d.sweep = c.sweep) (h : Handle) :
    d.sweepOwns h = c.sweepOwns h := by
  simp only [sweepOwns, hs]

/-- A sweep that runs in `d` ran in `c` already, for the same search. -/
def Continues (c d : Controller σ N) : Prop :=
  ∀ t, d.sweep = some t → ∃ s, c.sweep = some s ∧ t.plan = s.plan ∧ t.handle = s.handle ∧
    (s.remaining = none → t.remaining = none)

theorem continues_of_sweep (h : d.sweep = c.sweep) : c.Continues d := by
  intro t ht
  exact ⟨t, h ▸ ht, rfl, rfl, id⟩

theorem continues_of_none (h : d.sweep = none) : c.Continues d := by
  intro t ht
  simp [h] at ht

section EndSweep

variable (c) (reason : SweepEnd)

theorem endSweep_of_sweep {c : Controller σ N} {s : Sweep} (hs : c.sweep = some s) :
    c.endSweep reason = ({ c with sweep := none }, [.sweepEnded reason]) := by
  simp [endSweep, hs]

@[simp] theorem pool_endSweep : (c.endSweep reason).1.pool = c.pool := by
  unfold endSweep
  split <;> rfl

@[simp] theorem sweep_endSweep : (c.endSweep reason).1.sweep = none := by
  unfold endSweep
  split
  next hs => exact hs
  next => rfl

@[simp] theorem listener_endSweep : (c.endSweep reason).1.listener = c.listener := by
  unfold endSweep
  split <;> rfl

@[simp] theorem eventsOf_endSweep : eventsOf (c.endSweep reason).2 = [] := by
  unfold endSweep
  split <;> rfl

@[simp] theorem issuesOf_endSweep : issuesOf (c.endSweep reason).2 = [] := by
  unfold endSweep
  split <;> rfl

end EndSweep

section Observe

variable (c) (f : Frame)

theorem observe_cases :
    c.observe f = (c, []) ∨
    ∃ s, c.sweep = some s ∧ s.notices f = true ∧
      (((s.mark f).relay f).1 = true ∧
        c.observe f = ({ c with sweep := some ((s.mark f).relay f).2 }, [.relay f.did f]) ∨
      ((s.mark f).relay f).1 = false ∧
        c.observe f =
          ({ c with sweep := none }, [.relay f.did f, .sweepEnded .stoppedByCallback])) := by
  cases hs : c.sweep with
  | none => exact Or.inl (by simp [observe, hs])
  | some s =>
    cases hn : s.notices f with
    | false => exact Or.inl (by simp [observe, hs, hn])
    | true =>
      refine Or.inr ⟨s, rfl, hn, ?_⟩
      cases hg : ((s.mark f).relay f).1 with
      | true => exact Or.inl ⟨rfl, by simp [observe, hs, hn, hg]⟩
      | false => exact Or.inr ⟨rfl, by simp [observe, hs, hn, hg, endSweep]⟩

@[simp] theorem pool_observe : (c.observe f).1.pool = c.pool := by
  rcases observe_cases c f with he | ⟨s, _, _, ⟨_, he⟩ | ⟨_, he⟩⟩ <;> rw [he]

@[simp] theorem listener_observe : (c.observe f).1.listener = c.listener := by
  rcases observe_cases c f with he | ⟨s, _, _, ⟨_, he⟩ | ⟨_, he⟩⟩ <;> rw [he]

@[simp] theorem eventsOf_observe : eventsOf (c.observe f).2 = [] := by
  rcases observe_cases c f with he | ⟨s, _, _, ⟨_, he⟩ | ⟨_, he⟩⟩ <;> rw [he] <;> rfl

@[simp] theorem issuesOf_observe : issuesOf (c.observe f).2 = [] := by
  rcases observe_cases c f with he | ⟨s, _, _, ⟨_, he⟩ | ⟨_, he⟩⟩ <;> rw [he] <;> rfl

theorem continues_observe : c.Continues (c.observe f).1 := by
  rcases observe_cases c f with he | ⟨s, hs, _, ⟨_, he⟩ | ⟨_, he⟩⟩
  · rw [he]
    exact continues_of_sweep rfl
  · rw [he]
    intro t ht
    cases Option.some.inj ht
    exact ⟨s, hs, rfl, rfl, id⟩
  · rw [he]
    exact continues_of_none rfl

end Observe

section AdvanceSweep

variable (c) (elapsed : Nat)

theorem advanceSweep_cases :
    c.advanceSweep elapsed = (c, []) ∨
    ∃ s remaining, c.sweep = some s ∧ s.remaining = some remaining ∧
      (remaining ≤ elapsed ∧
        c.advanceSweep elapsed = ({ c with sweep := none }, [.sweepEnded .timedOut]) ∨
      elapsed < remaining ∧ c.advanceSweep elapsed =
        ({ c with sweep := some { s with remaining := some (remaining - elapsed) } }, [])) := by
  cases hs : c.sweep with
  | none => exact Or.inl (by simp [advanceSweep, hs])
  | some s =>
    cases hr : s.remaining with
    | none => exact Or.inl (by simp [advanceSweep, hs, hr])
    | some remaining =>
      refine Or.inr ⟨s, remaining, rfl, hr, ?_⟩
      by_cases hle : remaining ≤ elapsed
      · exact Or.inl ⟨hle, by simp [advanceSweep, hs, hr, hle, endSweep]⟩
      · exact Or.inr ⟨by omega, by simp [advanceSweep, hs, hr, hle]⟩

@[simp] theorem pool_advanceSweep : (c.advanceSweep elapsed).1.pool = c.pool := by
  rcases advanceSweep_cases c elapsed with he | ⟨s, r, _, _, ⟨_, he⟩ | ⟨_, he⟩⟩ <;> rw [he]

@[simp] theorem listener_advanceSweep : (c.advanceSweep elapsed).1.listener = c.listener := by
  rcases advanceSweep_cases c elapsed with he | ⟨s, r, _, _, ⟨_, he⟩ | ⟨_, he⟩⟩ <;> rw [he]

@[simp] theorem eventsOf_advanceSweep : eventsOf (c.advanceSweep elapsed).2 = [] := by
  rcases advanceSweep_cases c elapsed with he | ⟨s, r, _, _, ⟨_, he⟩ | ⟨_, he⟩⟩ <;> rw [he] <;> rfl

@[simp] theorem issuesOf_advanceSweep : issuesOf (c.advanceSweep elapsed).2 = [] := by
  rcases advanceSweep_cases c elapsed with he | ⟨s, r, _, _, ⟨_, he⟩ | ⟨_, he⟩⟩ <;> rw [he] <;> rfl

theorem relaysOf_advanceSweep : relaysOf (c.advanceSweep elapsed).2 = [] := by
  rcases advanceSweep_cases c elapsed with he | ⟨s, r, _, _, ⟨_, he⟩ | ⟨_, he⟩⟩ <;> rw [he] <;> rfl

theorem continues_advanceSweep : c.Continues (c.advanceSweep elapsed).1 := by
  rcases advanceSweep_cases c elapsed with he | ⟨s, r, hs, hr, ⟨_, he⟩ | ⟨_, he⟩⟩
  · rw [he]
    exact continues_of_sweep rfl
  · rw [he]
    exact continues_of_none rfl
  · rw [he]
    intro t ht
    cases Option.some.inj ht
    exact ⟨s, hs, rfl, rfl, by simp [hr]⟩

end AdvanceSweep

/-- An active sweep waits for a pending broadcast query; a passive one waits for none. -/
def SweepSound (c : Controller σ N) : Prop :=
  ∀ s, c.sweep = some s →
    (s.handle = none ∧ s.plan.mode = .passive) ∨
    (∃ (i : Fin N) (q : PendingQuery), s.handle = some ⟨i⟩ ∧ s.plan.mode = .active ∧
      s.remaining = none ∧ c.pool.query? i = some q ∧ q.did = .broadcast)

theorem sweepSound_of_none (h : c.sweep = none) : c.SweepSound := by
  intro s hs
  simp [h] at hs

/-- A sweep stays sound as long as the query it waits for stays. -/
theorem SweepSound.of_continues (h : c.SweepSound) (hc : c.Continues d)
    (keep : ∀ i q, c.pool.query? i = some q → q.did = .broadcast → d.sweepOwns ⟨i⟩ = true →
      ∃ r, d.pool.query? i = some r ∧ r.did = .broadcast) : d.SweepSound := by
  intro t ht
  obtain ⟨s, hs, hp, hh, hr⟩ := hc t ht
  rcases h s hs with ⟨hn, hm⟩ | ⟨i, q, hi, hm, hrem, hq, hd⟩
  · exact Or.inl ⟨hh.trans hn, hp ▸ hm⟩
  · obtain ⟨r, hsr, hrd⟩ := keep i q hq hd (sweepOwns_iff.mpr ⟨t, ht, hh.trans hi⟩)
    exact Or.inr ⟨i, r, hh.trans hi, hp ▸ hm, hr hrem, hsr, hrd⟩

/-- A passive sweep that ends did not own any query. -/
theorem sweepOwns_advanceSweep (hs : c.SweepSound) (elapsed : Nat) (h : Handle) :
    (c.advanceSweep elapsed).1.sweepOwns h = c.sweepOwns h := by
  rcases advanceSweep_cases c elapsed with he | ⟨s, r, hsweep, hr, ⟨_, he⟩ | ⟨_, he⟩⟩
  · rw [he]
  · rcases hs s hsweep with ⟨hn, _⟩ | ⟨_, _, _, _, hnone, _⟩
    · rw [he]
      simp [sweepOwns, hsweep, hn]
    · simp [hr] at hnone
  · rw [he]
    simp [sweepOwns, hsweep]

/-- A sweep that watches a response did not own any query. -/
theorem sweepOwns_observe (hs : c.SweepSound) (f : Frame) (h : Handle) :
    (c.observe f).1.sweepOwns h = c.sweepOwns h := by
  rcases observe_cases c f with he | ⟨s, hsweep, hn, hcase⟩
  · rw [he]
  · rcases hs s hsweep with ⟨hnone, _⟩ | ⟨_, _, _, hm, _⟩
    · rcases hcase with ⟨_, he⟩ | ⟨_, he⟩
      · rw [he]
        simp [sweepOwns, hsweep, Sweep.mark, Sweep.relay]
      · rw [he]
        simp [sweepOwns, hsweep, hnone]
    · simp [Sweep.notices, hm] at hn

/-- A sweep that waits for a query does not watch the responses to others. -/
theorem observe_of_sweepOwns (hs : c.SweepSound) {h : Handle} (own : c.sweepOwns h = true)
    (f : Frame) : c.observe f = (c, []) := by
  rcases observe_cases c f with he | ⟨s, hsweep, hn, _⟩
  · exact he
  · rcases hs s hsweep with ⟨hnone, _⟩ | ⟨_, _, _, hm, _⟩
    · simp [sweepOwns, hsweep, hnone] at own
    · simp [Sweep.notices, hm] at hn

/-- What holds of a controller between any two steps. -/
structure Sound (c : Controller σ N) : Prop where
  kept : c.pool.WellKept
  sweep : c.SweepSound

theorem sound_new (l : σ) : (new l : Controller σ N).Sound :=
  ⟨Pool.wellKept_new, sweepSound_of_none rfl⟩

theorem Sound.woken (hc : c.Sound) (now : Nat) :
    ({ c with lastPoll := some now } : Controller σ N).Sound := ⟨hc.kept, hc.sweep⟩

/-- No sweep waits for a query to one device. -/
theorem Sound.not_sweepOwns (hc : c.Sound) {i : Fin N} {q : PendingQuery}
    (hq : c.pool.query? i = some q) (unicast : q.did ≠ .broadcast) : c.sweepOwns ⟨i⟩ = false := by
  by_contra own
  obtain ⟨s, hs, hh⟩ := sweepOwns_iff.mp (Bool.eq_true_of_not_eq_false own)
  rcases hc.sweep s hs with ⟨hn, _⟩ | ⟨j, r, hj, _, _, hr, hd⟩
  · simp [hn] at hh
  · cases Fin.ext (Handle.mk.inj (Option.some.inj (hh.symm.trans hj)))
    cases Option.some.inj (hq.symm.trans hr)
    exact unicast hd

end Controller

end Fieldbus
