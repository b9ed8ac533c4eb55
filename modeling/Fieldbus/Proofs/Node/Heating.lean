import Fieldbus.Proofs.Controller.Poll
import Fieldbus.Proofs.Device.Handlers
import Fieldbus.Proofs.Thermostat
import Fieldbus.Simulation

namespace Fieldbus

namespace Node

theorem reaches_serveQueue {α π : Type} [Application α] [Platform π] (fuel : Nat) (d : Device α)
    (p : π) : Application.Reaches d.app (serveQueue fuel d p).device.app := by
  induction fuel generalizing d p with
  | zero => exact Device.reaches_poll d p
  | succ fuel ih =>
    have hpoll := Device.reaches_poll d p
    unfold serveQueue
    dsimp only
    split
    · exact hpoll
    · split
      · exact hpoll
      · exact hpoll.trans (ih _ _)

end Node

namespace Thermostat

/-- No handler touches the temperature. -/
theorem temperature_of_reaches {t u : Thermostat} (h : Application.Reaches t u) :
    u.temperature = t.temperature := by
  induction h with
  | refl => rfl
  | @command u _ endpoint payload ih =>
    exact (temperature_perform u (a := .command endpoint payload) nofun).trans ih
  | @writeCustom u _ key value ih =>
    exact (temperature_perform u (a := .write key value) nofun).trans ih
  | telemetry _ _ ih | readCustom _ _ ih | configRead _ _ ih | configWritten _ _ ih => exact ih

end Thermostat

namespace Node

variable {π : Type} [Platform π]

/-- Whatever a node receives, a poll moves its temperature by one step. -/
theorem temperature_poll (d : Device Thermostat) (p : π) :
    (Node.poll d p).device.app.temperature = d.app.step.temperature :=
  Thermostat.temperature_of_reaches
    (reaches_serveQueue (Platform.waiting p) { d with app := d.app.step } p)

/-- The device of a node that is polled on one platform after the other. -/
def pollAll (d : Device Thermostat) (platforms : List π) : Device Thermostat :=
  platforms.foldl (fun d p => (Node.poll d p).device) d

theorem inRange_pollAll {d : Device Thermostat} (inRange : Thermostat.InRange d.app.temperature)
    (platforms : List π) : Thermostat.InRange (pollAll d platforms).app.temperature := by
  induction platforms generalizing d with
  | nil => exact inRange
  | cons p rest ih =>
    apply ih
    rw [temperature_poll]
    exact inRange.step

end Node

namespace Thermostat

/-- From ticks 0, a heater in its range that keeps its relays is five hundredths of a degree warmer
or three colder for every twenty steps, up to the end of the range; the wrap of the ticks does not
show. Whatever is done to it between its steps, and whatever its node receives, it stays in range. -/
theorem heating_model (t : Thermostat) (inRange : InRange t.temperature) :
    (t.ticks = 0 → ∀ n : Nat,
      (step^[n] t).temperature =
        if t.relays &&& 1 ≠ 0 then min 4000 (t.temperature + 5 * (n / 20 : Nat))
        else max (-1000) (t.temperature - 3 * (n / 20 : Nat))) ∧
    (∀ acts, InRange (t.run acts).temperature) ∧
    ∀ (π : Type) [Platform π] (d : Device Thermostat), d.app = t →
      ∀ platforms : List π, InRange (Node.pollAll d platforms).app.temperature := by
  refine ⟨fun started n => ?_, inRange.run, fun π _ d same platforms => ?_⟩
  · rw [temperature_iterate_step inRange started, drift, heating]
    simp only [decide_eq_true_eq]
  · rw [← same] at inRange
    exact Node.inRange_pollAll inRange platforms

/-- The coldest heater is at the warm end long before its ticks wrap, and stays there. -/
theorem heating_model_past_wrap :
    let t : Thermostat := { temperature := -1000, relays := 1 }
    let d : Device Thermostat := .build (.ofName (.ofRaw 1) 1 "d" 0) {} t
    InRange t.temperature ∧ t.ticks = 0 ∧ d.app = t ∧
      (step^[39] t).temperature = -995 ∧ (step^[65539] t).temperature = 4000 ∧
      InRange (t.run [.step, .command .boardControl [], .switch 0, .count 19, .step]).temperature ∧
      InRange (Node.pollAll d [(⟨1000, [Silence.question]⟩ : Mailbox)]).app.temperature := by
  intro t d
  have inRange : InRange t.temperature := by decide
  obtain ⟨hsteps, hrun, hnode⟩ := heating_model t inRange
  have started : t.ticks = 0 := rfl
  refine ⟨inRange, started, rfl, ?_, ?_, hrun _, hnode Mailbox d rfl _⟩
  · rw [hsteps started]
    decide
  · rw [hsteps started]
    decide

end Thermostat

end Fieldbus
