import Fieldbus.Controller.Issue

namespace Fieldbus

namespace ControllerAct

/-- What neither reports nor accepts anything. -/
def isSilent : ControllerAct → Bool
  | slotTaken _ | send _ | duplicate _ => true
  | _ => false

end ControllerAct

namespace Controller

variable {σ π : Type} {N : Nat} [Platform π]

/-- Nothing is kept; at most a slot was taken and given back. -/
def Refused (c d : Controller σ N) : Prop :=
  d = c ∨ ∃ i pool, c.pool.alloc? = some (i, pool) ∧ d = { c with pool := pool.release i }

/-- A query is accepted into the first free slot, or nothing is kept of it. -/
theorem query_cases (c : Controller σ N) (p : π) (did : Did) (frame : Frame) (timeout : Timeout)
    (tag : UInt32) :
    (∃ i pool correlation, timeout ≠ .untracked ∧ c.pool.alloc? = some (i, pool) ∧
      c.isDidPending did = false ∧
      Correlation.ofQuery? (frame.withDid did) = some correlation ∧
      (c.query p did frame timeout tag).result = .ok (some ⟨i⟩) ∧
      (c.query p did frame timeout tag).controller =
        ({ c with pool }.install i (frame.withDid did) correlation timeout tag).1 ∧
      (c.query p did frame timeout tag).acts = [.slotTaken i, .send (frame.withDid did)] ++
        ({ c with pool }.install i (frame.withDid did) correlation timeout tag).2) ∨
    (c.Refused (c.query p did frame timeout tag).controller ∧
      (∀ a ∈ (c.query p did frame timeout tag).acts, a.isSilent = true) ∧
      ∀ h, (c.query p did frame timeout tag).result ≠ .ok (some h)) := by
  by_cases hq : frame.id.isQuery = true
  case neg => exact Or.inr (by simp [query, hq, Refused])
  by_cases ht : timeout = .untracked
  · refine Or.inr ⟨Or.inl (by simp [query, hq, ht]),
      by simp [query, hq, ht, ControllerAct.isSilent], fun h => ?_⟩
    cases hs : (Platform.send p (frame.withDid did) 0).1 <;>
      simp [query, hq, ht, hs, Except.map]
  cases hb : c.isDidPending did with
  | true => exact Or.inr (by simp [query, hq, ht, hb, Refused])
  | false =>
    cases hc : Correlation.ofQuery? (frame.withDid did) with
    | none => exact Or.inr (by simp [query, hq, ht, hb, hc, Refused])
    | some correlation =>
      cases hf : c.pool.alloc? with
      | none => exact Or.inr (by simp [query, hq, ht, hb, hc, hf, Refused])
      | some taken =>
        obtain ⟨i, pool⟩ := taken
        rcases hs : Platform.send p (frame.withDid did) 0 with ⟨sent, p'⟩
        cases sent with
        | error fault =>
          refine Or.inr ⟨Or.inr ⟨i, pool, hf, ?_⟩, ?_, ?_⟩
          · simp [query, hq, ht, hb, hc, hf, hs]
          · simp [query, hq, ht, hb, hc, hf, hs, ControllerAct.isSilent]
          · simp [query, hq, ht, hb, hc, hf, hs]
        | ok =>
          refine Or.inl ⟨i, pool, correlation, ht, rfl, rfl, rfl, ?_, ?_, ?_⟩
          · simp [query, hq, ht, hb, hc, hf, hs]
          · simp [query, hq, ht, hb, hc, hf, hs]
          · simp [query, hq, ht, hb, hc, hf, hs]

theorem withDid_sweepQuery {target : SweepTarget} {f : Frame} (h : sweepQuery? target = some f) :
    f.withDid .broadcast = f ∧ f.did = .broadcast := by
  cases target with
  | telemetry endpoint =>
    cases Option.some.inj h
    exact ⟨rfl, rfl⟩
  | key key =>
    cases Option.some.inj h
    exact ⟨rfl, rfl⟩
  | any => simp [sweepQuery?] at h

/-- A sweep starts by its broadcast query, or by watching, or not at all. -/
theorem startSweep_cases (c : Controller σ N) (p : π) (plan : SweepPlan)
    (goOn : List (Did × Frame) → Bool) :
    (∃ query i pool correlation, c.sweep = none ∧ plan.timeout ≠ .untracked ∧
      plan.mode = .active ∧ sweepQuery? plan.target = some query ∧
      c.pool.alloc? = some (i, pool) ∧ c.isDidPending query.did = false ∧
      Correlation.ofQuery? query = some correlation ∧
      (c.startSweep p plan goOn).result = .ok () ∧
      (c.startSweep p plan goOn).controller =
        { ({ c with pool }.install i query correlation plan.timeout 0).1 with
          sweep := some { plan, goOn, handle := some ⟨i⟩, remaining := none } } ∧
      (c.startSweep p plan goOn).acts = [.slotTaken i, .send query] ++
        (({ c with pool }.install i query correlation plan.timeout 0).2 ++
          [.sweepStarted plan.mode plan.target])) ∨
    (c.sweep = none ∧ plan.mode = .passive ∧ (c.startSweep p plan goOn).result = .ok () ∧
      (c.startSweep p plan goOn).controller = { c with
        sweep := some { plan, goOn, handle := none, remaining := plan.timeout.span? } } ∧
      (c.startSweep p plan goOn).acts = [.sweepStarted plan.mode plan.target]) ∨
    (c.Refused (c.startSweep p plan goOn).controller ∧
      (∀ a ∈ (c.startSweep p plan goOn).acts, a.isSilent = true) ∧
      (c.startSweep p plan goOn).result ≠ .ok ()) := by
  cases hs : c.sweep with
  | some s => exact Or.inr (Or.inr (by simp [startSweep, isSweeping, hs, Refused]))
  | none =>
    by_cases ht : plan.timeout = .untracked
    · exact Or.inr (Or.inr (by simp [startSweep, isSweeping, hs, ht, Refused]))
    cases hm : plan.mode with
    | passive =>
      cases hg : plan.target with
      | key key => exact Or.inr (Or.inr (by simp [startSweep, isSweeping, hs, ht, hm, hg, Refused]))
      | telemetry endpoint =>
        refine Or.inr (Or.inl ⟨rfl, rfl, ?_, ?_, ?_⟩) <;>
          simp [startSweep, isSweeping, hs, ht, hm, hg]
      | any =>
        refine Or.inr (Or.inl ⟨rfl, rfl, ?_, ?_, ?_⟩) <;>
          simp [startSweep, isSweeping, hs, ht, hm, hg]
    | active =>
      cases hg : sweepQuery? plan.target with
      | none => exact Or.inr (Or.inr (by simp [startSweep, isSweeping, hs, ht, hm, hg, Refused]))
      | some query =>
        obtain ⟨hwith, hdid⟩ := withDid_sweepQuery hg
        rcases query_cases c p .broadcast query plan.timeout 0 with
          ⟨i, pool, correlation, _, halloc, hidle, hasks, hr, hc, ha⟩ | ⟨hc, ha, hr⟩
        · rw [hwith] at hasks hc ha
          refine Or.inl ⟨query, i, pool, correlation, rfl, ht, rfl, rfl, halloc, by rwa [hdid],
            hasks, ?_, ?_, ?_⟩
          · simp [startSweep, isSweeping, hs, ht, hm, hg, hr]
          · simp [startSweep, isSweeping, hs, ht, hm, hg, hr, hc]
          · simp [startSweep, isSweeping, hs, ht, hm, hg, hr, ha]
        · refine Or.inr (Or.inr ?_)
          cases hres : (c.query p .broadcast query plan.timeout 0).result with
          | error fault =>
            refine ⟨?_, ?_, ?_⟩
            · simpa [startSweep, isSweeping, hs, ht, hm, hg, hres] using hc
            · simpa [startSweep, isSweeping, hs, ht, hm, hg, hres] using ha
            · simp [startSweep, isSweeping, hs, ht, hm, hg, hres]
          | ok handle =>
            cases handle with
            | none =>
              refine ⟨?_, ?_, ?_⟩
              · simpa [startSweep, isSweeping, hs, ht, hm, hg, hres] using hc
              · simpa [startSweep, isSweeping, hs, ht, hm, hg, hres] using ha
              · simp [startSweep, isSweeping, hs, ht, hm, hg, hres]
            | some h => exact absurd hres (hr h)

end Controller

end Fieldbus
