import Fieldbus.Proofs.Device.ErrorRegisters

namespace Fieldbus

namespace Attempt

variable {α : Type} [Application α] (a : Attempt α)

/-- The telemetry that an attempt builds, if it does. -/
def frame? : Option Frame := a.outcome.result.toOption

theorem frame?_eq_some_iff {frame : Frame} :
    a.frame? = some frame ↔ a.outcome.result = .ok frame := by
  unfold frame?
  cases a.outcome.result <;> simp [Except.toOption]

end Attempt

namespace Device

variable {α π : Type} [Application α] [Platform π] (d : Device α) (p : π)

/-- The answer to the frame that a poll receives. -/
def answered : Option Frame :=
  (incoming? p).bind fun query => ((d.updateTime (Platform.now p)).handle query).result

/-- The attempt to build telemetry that a poll makes on its own, unless it broke off before. -/
def unsolicited : List (Attempt α) :=
  match (d.take p).result with
  | .ok () => (d.take p).device.due
  | .error _ => []

theorem triedInPoll_eq : d.triedInPoll p = d.triedInTake p ++ d.unsolicited p := rfl

variable {d p} {out : Polled α π}

omit [Platform π] in
theorem Reporting.sent_eq (h : d.Reporting p out) :
    sentFrames out.acts = d.due.filterMap Attempt.frame? := by
  have hbuilt : ∀ {endpoint result e acts},
      d.trying.buildTelemetry endpoint = ⟨result, e, acts⟩ → sentFrames acts = [] ∧
        (⟨d.trying, endpoint⟩ : Attempt α).frame? = result.toOption := by
    intro endpoint result e acts built
    have hinner := sentFrames_inner (works_buildTelemetry d.trying endpoint).inner
    rw [built] at hinner
    exact ⟨hinner, by rw [Attempt.frame?, Attempt.outcome, built]⟩
  cases h with
  | idle none => simp [due, none]
  | failed endpoint fault e acts due built =>
    obtain ⟨hacts, hframe⟩ := hbuilt built
    rw [sentFrames_append, hacts, Device.due, due]
    simp [hframe, sentFrames, Except.toOption]
  | sent endpoint frame e acts due built =>
    obtain ⟨hacts, hframe⟩ := hbuilt built
    rw [sentFrames_append, hacts, Device.due, due]
    simp [hframe, sentFrames, Except.toOption]

omit [Platform π] in
theorem Replying.sent_eq {query : Frame} (h : d.Replying p query out) :
    sentFrames out.acts = (d.handle query).result.toList := by
  have hinner := sentFrames_inner (works_handle d query).inner
  cases h with
  | silent none => rw [hinner, none]; rfl
  | said answer some => rw [sentFrames_append, hinner, some]; rfl

theorem Taking.sent_eq (h : d.Taking p out) : sentFrames out.acts = (d.answered p).toList := by
  cases h with
  | idle silent => simp [answered, incoming?_of_silent silent]
  | unsent query q received =>
    rw [(replying _ q query).sent_eq, answered, incoming?_of_received received]
    rfl
  | served query q received replied synced reply _ sync =>
    have hreply := (replying (d.updateTime (Platform.now p)) q query).sent_eq
    rw [reply] at hreply
    rw [sentFrames_append, hreply, sync.counters.2, List.append_nil, answered,
      incoming?_of_received received]
    rfl

/-- A poll sends the answer to the frame that it receives, and then telemetry on its own. -/
theorem sentFrames_poll (d : Device α) (p : π) :
    sentFrames (d.poll p).acts =
      (d.answered p).toList ++ (d.unsolicited p).filterMap Attempt.frame? := by
  have htake := (taking d p).sent_eq
  rw [poll_eq, unsolicited]
  split
  next failed => rw [failed, htake, List.filterMap_nil, List.append_nil]
  next done =>
    have hreport := (reporting (d.take p).device (d.take p).platform).sent_eq
    rw [done, sentFrames_append, htake, hreport]

end Device

end Fieldbus
