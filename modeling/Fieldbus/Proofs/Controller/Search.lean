import Fieldbus.Proofs.Controller.Origin

namespace Fieldbus

/-- A device tells that it is there. -/
def Silence.sign (did : Nat) : Frame := .empty (.response .telemetry (.ofRaw did) .app)

namespace SweepTarget

/-- A response is what is searched for. -/
def Finds (target : SweepTarget) (f : Frame) : Prop :=
  match target with
  | .telemetry e => f.id.frameType = .telemetry ∧ f.id.endpoint = e
  | .key k => f.id.frameType = .readAttribute ∧ f.key? = some k
  | .any => True

/-- An error response tells that a device has not got what is searched for; of a key it names the
key in its argument. -/
def Fails (target : SweepTarget) (f : Frame) : Prop :=
  match target with
  | .telemetry e => f.id.frameType = .command ∧ f.id.endpoint = e
  | .key k => f.id.frameType = .writeAttribute ∧ (f.error?.map fun r => r.2.toUInt16) = some k.raw
  | .any => True

instance : (target : SweepTarget) → (f : Frame) → Decidable (target.Finds f)
  | .telemetry e, f => inferInstanceAs (Decidable (f.id.frameType = .telemetry ∧ f.id.endpoint = e))
  | .key k, f => inferInstanceAs (Decidable (f.id.frameType = .readAttribute ∧ f.key? = some k))
  | .any, _ => .isTrue trivial

instance : (target : SweepTarget) → (f : Frame) → Decidable (target.Fails f)
  | .telemetry e, f => inferInstanceAs (Decidable (f.id.frameType = .command ∧ f.id.endpoint = e))
  | .key k, f => inferInstanceAs (Decidable (f.id.frameType = .writeAttribute ∧
      (f.error?.map fun r => r.2.toUInt16) = some k.raw))
  | .any, _ => .isTrue trivial

end SweepTarget

/-- A response is a sign of a device that is searched for. -/
def SweepPlan.Wants (plan : SweepPlan) (f : Frame) : Prop :=
  f.id.isError = false ∧ plan.target.Finds f ∨
    f.id.isError = true ∧ plan.admitErrors = true ∧ plan.target.Fails f

instance (plan : SweepPlan) (f : Frame) : Decidable (plan.Wants f) :=
  inferInstanceAs (Decidable (_ ∨ _))

/-- Every answer to the calls made so far was to go on. -/
def GoesOn (goOn : List (Did × Frame) → Bool) (calls : List (Did × Frame)) : Prop :=
  ∀ first, first <+: calls → first ≠ [] → goOn first.reverse = true

theorem goesOn_nil (goOn : List (Did × Frame) → Bool) : GoesOn goOn [] := by
  intro first hp hne
  exact absurd (List.prefix_nil.mp hp) hne

theorem GoesOn.of_append {goOn : List (Did × Frame) → Bool} {calls more : List (Did × Frame)}
    (h : GoesOn goOn (calls ++ more)) : GoesOn goOn calls :=
  fun first hp => h first (hp.trans (List.prefix_append ..))

theorem goesOn_concat {goOn : List (Did × Frame) → Bool} {calls : List (Did × Frame)}
    {r : Did × Frame} :
    GoesOn goOn (calls ++ [r]) ↔ GoesOn goOn calls ∧ goOn (r :: calls.reverse) = true := by
  constructor
  · intro h
    refine ⟨h.of_append, ?_⟩
    simpa using h (calls ++ [r]) (List.prefix_refl _) (by simp)
  · rintro ⟨h, hr⟩ first hp hne
    rcases List.prefix_concat_iff.mp hp with rfl | hp
    · simpa using hr
    · exact h first hp hne

namespace SweepTarget

variable {target : SweepTarget} {question f : Frame} {k : Correlation}

/-- What answers the question of a search carries the endpoint or the key of its target. -/
theorem correlation_of_sweepQuery? (asked : Controller.sweepQuery? target = some question)
    (asks : Correlation.ofQuery? question = some k) :
    (∃ e, target = .telemetry e ∧ k = .endpoint e) ∨ ∃ key, target = .key key ∧ k = .key key := by
  cases target with
  | telemetry e =>
    cases Option.some.inj asked
    exact Or.inl ⟨e, rfl, (Option.some.inj asks).symm⟩
  | key key =>
    cases Option.some.inj asked
    have hattribute : (Frame.readAttribute .broadcast key).id.frameType.isAttribute = true := rfl
    rw [Correlation.ofQuery?, if_pos hattribute, Frame.key?_readAttribute] at asks
    exact Or.inr ⟨key, rfl, (Option.some.inj asks).symm⟩
  | any => simp [Controller.sweepQuery?] at asked

/-- The answers to the question are the finds and the failures. -/
theorem accepts_iff (asked : Controller.sweepQuery? target = some question)
    (asks : Correlation.ofQuery? question = some k) (response : f.id.isResponse = true) :
    k.accepts f = true ↔
      f.id.isError = false ∧ target.Finds f ∨ f.id.isError = true ∧ target.Fails f := by
  rcases correlation_of_sweepQuery? asked asks with ⟨e, rfl, rfl⟩ | ⟨key, rfl, rfl⟩
  · cases ht : f.id.frameType <;>
      simp [Correlation.accepts, Id.isError, Finds, Fails, response, ht]
  · cases ht : f.id.frameType <;>
      simp [Correlation.accepts, Id.isError, Finds, Fails, response, ht, Option.any_eq_true]

end SweepTarget

namespace Sweep

variable {s : Sweep} {f question : Frame} {k : Correlation}

theorem admits_iff : s.admits f = true ↔
    f.id.isError = false ∧ s.plan.target.Finds f ∨
      f.id.isError = true ∧ s.plan.admitErrors = true := by
  cases he : f.id.isError with
  | true => simp [admits, he]
  | false => cases ht : s.plan.target <;> simp [admits, he, ht, SweepTarget.Finds]

/-- An active sweep relays the answers to its question that are signs of a device. -/
theorem wants_iff (asked : Controller.sweepQuery? s.plan.target = some question)
    (asks : Correlation.ofQuery? question = some k) (response : f.id.isResponse = true) :
    s.plan.Wants f ↔ k.accepts f = true ∧ s.admits f = true := by
  rw [SweepTarget.accepts_iff asked asks response, admits_iff, SweepPlan.Wants]
  cases f.id.isError <;> simp [and_comm]

theorem concernsError_iff (watchable : ∀ key, s.plan.target ≠ .key key) :
    s.concernsError f = true ↔ s.plan.target.Fails f := by
  cases ht : s.plan.target with
  | telemetry e => simp [concernsError, ht, SweepTarget.Fails]
  | key key => exact absurd ht (watchable key)
  | any => simp [concernsError, ht, SweepTarget.Fails]

/-- A passive sweep relays the signs of devices that it has not seen yet. -/
theorem notices_iff (passive : s.plan.mode = .passive)
    (watchable : ∀ key, s.plan.target ≠ .key key) :
    s.notices f = true ↔ s.plan.Wants f ∧ s.seen.contains f.did = false := by
  rw [notices, Bool.and_eq_true, Bool.and_eq_true, Bool.and_eq_true, Bool.or_eq_true,
    Bool.not_eq_true', Bool.not_eq_true', admits_iff, concernsError_iff watchable,
    SweepPlan.Wants, decide_eq_true_iff]
  refine and_congr_left fun _ => ?_
  cases f.id.isError <;> simp [passive, and_comm]

end Sweep

end Fieldbus
