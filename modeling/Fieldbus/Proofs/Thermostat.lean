import Fieldbus.Thermostat
import Mathlib.Logic.Function.Iterate

namespace Fieldbus

namespace Thermostat

/-- Between -10 and 40 degrees. -/
def InRange (temperature : Int) : Prop := -1000 ≤ temperature ∧ temperature ≤ 4000
deriving Decidable

/-- Where a temperature is after `k` changes, each by five up to 40 degrees or by three down
to -10. -/
def drift (heating : Bool) (temperature : Int) (k : Nat) : Int :=
  if heating then min 4000 (temperature + 5 * k) else max (-1000) (temperature - 3 * k)

section Drift

variable {heating : Bool} {temperature : Int} {k : Nat}

theorem drift_drift (heating : Bool) (temperature : Int) (j k : Nat) :
    drift heating (drift heating temperature j) k = drift heating temperature (j + k) := by
  unfold drift
  split <;> omega

theorem drift_zero (inRange : InRange temperature) : drift heating temperature 0 = temperature := by
  obtain ⟨hlow, hhigh⟩ := inRange
  unfold drift
  split <;> omega

theorem InRange.drift (inRange : InRange temperature) (heating : Bool) (k : Nat) :
    InRange (drift heating temperature k) := by
  obtain ⟨hlow, hhigh⟩ := inRange
  unfold Thermostat.drift InRange
  split <;> omega

/-- From one end of the range it takes 1000 changes up or 1667 down to the other. -/
theorem drift_settled (inRange : InRange temperature) (long : 1667 ≤ k) :
    drift heating temperature k = if heating then 4000 else -1000 := by
  obtain ⟨hlow, hhigh⟩ := inRange
  unfold drift
  split <;> omega

end Drift

section Step

variable (t : Thermostat)

theorem step_eq :
    t.step =
      { t with
        ticks := t.ticks + 1
        temperature :=
          if (t.ticks + 1) % 20 = 0 then drift t.heating t.temperature 1 else t.temperature } := by
  have hup : drift true t.temperature 1 = min (t.temperature + 5) 4000 := Int.min_comm ..
  have hdown : drift false t.temperature 1 = max (t.temperature - 3) (-1000) := Int.max_comm ..
  unfold step
  simp only [ne_eq, ite_not]
  split
  next due =>
    have hheating : ({ t with ticks := t.ticks + 1 } : Thermostat).heating = t.heating := rfl
    rw [hheating]
    cases t.heating with
    | true => rw [hup, if_pos rfl]
    | false => rw [hdown, if_neg Bool.false_ne_true]
  next => rfl

theorem ticks_step : t.step.ticks = t.ticks + 1 := by rw [step_eq]

theorem relays_step : t.step.relays = t.relays := by rw [step_eq]

theorem temperature_step :
    t.step.temperature =
      if t.step.ticks % 20 = 0 then drift t.heating t.temperature 1 else t.temperature := by
  rw [ticks_step, step_eq]

theorem heating_iterate_step (n : Nat) : (step^[n] t).heating = t.heating := by
  have hrelays : (step^[n] t).relays = t.relays := by
    induction n with
    | zero => rfl
    | succ n ih => rw [Function.iterate_succ_apply', relays_step, ih]
  rw [heating, hrelays, heating]

theorem ticks_iterate_step (started : t.ticks = 0) (n : Nat) :
    (step^[n] t).ticks = UInt16.ofNat n := by
  induction n with
  | zero => exact started
  | succ n ih =>
    rw [Function.iterate_succ_apply', ticks_step, ih, UInt16.ofNat_add]
    rfl

/-- Until the ticks wrap, every twentieth changes the temperature. -/
theorem due_iff {n : Nat} (early : n < 65536) : UInt16.ofNat n % 20 = 0 ↔ n % 20 = 0 := by
  rw [← UInt16.toNat_inj, UInt16.toNat_mod, UInt16.toNat_ofNat_of_lt' early]
  rfl

variable {t}

/-- From ticks 0 on there is a change for every twenty steps, however often the ticks have
wrapped. -/
theorem temperature_iterate_step (inRange : InRange t.temperature) (started : t.ticks = 0)
    (n : Nat) : (step^[n] t).temperature = drift t.heating t.temperature (n / 20) := by
  induction n with
  | zero => exact (drift_zero inRange).symm
  | succ n ih =>
    have hticks := ticks_iterate_step t started (n + 1)
    rw [Function.iterate_succ_apply'] at hticks ⊢
    rw [temperature_step, hticks, heating_iterate_step, ih, drift_drift]
    rcases Nat.lt_or_ge (n + 1) 65536 with early | late
    · split
      next due =>
        have hcount : n / 20 + 1 = (n + 1) / 20 := by
          have hdue := (due_iff early).mp due
          omega
        rw [hcount]
      next between =>
        have hcount : n / 20 = (n + 1) / 20 := by
          have hbetween := mt (due_iff early).mpr between
          omega
        rw [hcount]
    · -- The ticks wrap 16 steps after a change, and from there on the changes come at other steps.
      -- It does not show because the temperature has come to its limit by then.
      have hlong : 1667 ≤ n / 20 := by omega
      have hlonger : 1667 ≤ (n + 1) / 20 := by omega
      rw [drift_settled inRange hlonger, drift_settled inRange hlong,
        drift_settled inRange (Nat.le_succ_of_le hlong), ite_self]

example : (step^[40] ({ temperature := 2000, relays := 1 } : Thermostat)).temperature = 2010 :=
  temperature_iterate_step (by decide) rfl 40

end Step

/-- A step, or what can be done to a heater between two steps. -/
inductive Act
  | step
  | command (endpoint : Endpoint) (payload : List UInt8)
  | write (key : Key) (value : UInt32)
  | switch (relays : UInt8)
  | count (ticks : UInt16)
deriving DecidableEq

def perform (t : Thermostat) : Act → Thermostat
  | .step => t.step
  | .command endpoint payload => (t.command endpoint payload).2
  | .write key value => (t.writeCustom key value).2
  | .switch relays => { t with relays }
  | .count ticks => { t with ticks }

def run (t : Thermostat) (acts : List Act) : Thermostat := acts.foldl perform t

section Run

variable (t : Thermostat)

/-- Between steps the temperature stays as it is. -/
theorem temperature_perform {a : Act} (between : a ≠ .step) :
    (t.perform a).temperature = t.temperature := by
  cases a with
  | step => exact absurd rfl between
  | command endpoint payload =>
    change (t.command endpoint payload).2.temperature = t.temperature
    unfold command
    split <;> rfl
  | write key value =>
    change (t.writeCustom key value).2.temperature = t.temperature
    unfold writeCustom
    split
    · split <;> rfl
    · rfl
  | switch | count => rfl

variable {t}

theorem InRange.step (inRange : InRange t.temperature) : InRange t.step.temperature := by
  rw [temperature_step]
  split
  · exact inRange.drift t.heating 1
  · exact inRange

theorem InRange.perform (inRange : InRange t.temperature) (a : Act) :
    InRange (t.perform a).temperature := by
  by_cases stepping : a = .step
  · rw [stepping]
    exact inRange.step
  · rwa [temperature_perform t stepping]

theorem InRange.run (inRange : InRange t.temperature) (acts : List Act) :
    InRange (t.run acts).temperature := by
  induction acts generalizing t with
  | nil => exact inRange
  | cons a rest ih => exact ih (inRange.perform a)

end Run

end Thermostat

end Fieldbus
