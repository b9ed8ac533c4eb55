import Fieldbus.Controller.Issue
import Fieldbus.Log
import Fieldbus.Thermostat

namespace Fieldbus

inductive Probe
  | telemetry
  | uptime
  | toggleRelay
  | raiseSetpoint
  | name
  /-- An endpoint that a thermostat does not have. -/
  | badEndpoint
deriving DecidableEq

namespace Probe

def text : Probe → String
  | telemetry => "Telemetry"
  | uptime => "Uptime"
  | toggleRelay => "ToggleRelay"
  | raiseSetpoint => "RaiseSetpoint"
  | name => "Name"
  | badEndpoint => "BadEndpoint"

/-- The probe of a lap; the six take turns. -/
def ofLap (lap : Nat) : Probe :=
  match lap % 6 with
  | 0 => telemetry
  | 1 => uptime
  | 2 => toggleRelay
  | 3 => raiseSetpoint
  | 4 => name
  | _ => badEndpoint

end Probe

/-- Asks the known devices in turn, all of them by one probe before the next. -/
structure Scheduler where
  /-- The calls so far, in a word that starts again when it is full. -/
  round : UInt64 := 0
  relays : UInt8 := 0
  setpoint : UInt32 := 2000
deriving DecidableEq

namespace Scheduler

def next? (s : Scheduler) (known : List Did) : Option (Did × Probe) :=
  let round := s.round.toNat
  (known[round % known.length]?).map fun did => (did, Probe.ofLap (round / known.length))

def advance (s : Scheduler) (probe : Probe) : Scheduler where
  round := s.round + 1
  relays := if probe = .toggleRelay then s.relays ^^^ 1 else s.relays
  setpoint := if probe = .raiseSetpoint then s.setpoint + 50 else s.setpoint

/-- The query of a probe, with the relay and setpoint values already advanced. -/
def query (s : Scheduler) (did : Did) : Probe → Frame
  | .telemetry => .telemetryQuery did .app
  | .uptime => .readAttribute did .uptime
  | .toggleRelay => ⟨.query .command did .app, [s.relays], by simp⟩
  | .raiseSetpoint => .writeAttribute did .setpoint s.setpoint
  | .name => .readAttribute did .name
  | .badEndpoint => .telemetryQuery did .ep2

/-- A probe that was tried: how that ended and the device and the probe, if one is known. -/
structure Attempt (σ : Type) (N : Nat) (π : Type) where
  scheduler : Scheduler
  tried : Option (Did × Probe)
  exchange : Exchange σ N π (Option Handle)

variable {σ π : Type} {N : Nat} [Platform π]

/-- Tries the next probe; nothing happens when no device is known. -/
def attempt (s : Scheduler) (c : Controller σ N) (p : π) (known : List Did) (timeout : Timeout) :
    Attempt σ N π :=
  match s.next? known with
  | none => ⟨s, none, ⟨.ok none, c, p, []⟩⟩
  | some (did, probe) =>
    let s := s.advance probe
    ⟨s, some (did, probe), c.query p did (s.query did probe) timeout 0⟩

end Scheduler

namespace Scheduler.Attempt

variable {σ π : Type} {N : Nat}

/-- A controller that is busy is no failure. -/
def fault? (a : Attempt σ N π) : Option Fault :=
  match a.exchange.result with
  | .ok _ => none
  | .error .busy => none
  | .error .poolExhausted => none
  | .error fault => some fault

def skipRecord? (a : Attempt σ N π) : Option LogRecord :=
  match a.exchange.result, a.tried with
  | .error _, some (did, probe) =>
    if a.fault?.isNone then
      some ⟨.debug, "Controller busy, skipping", [("did", did.text), ("probe", probe.text)]⟩
    else none
  | _, _ => none

end Scheduler.Attempt

end Fieldbus
