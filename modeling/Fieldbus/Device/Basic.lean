import Fieldbus.Device.Application
import Fieldbus.Timestamp

namespace Fieldbus

/-- A device: its attributes, its application and its clock in milliseconds. -/
structure Device (α : Type) where
  identification : Identification
  system : SystemStatus := {}
  config : Config
  app : α
  /-- What the application offered when the device was built. -/
  capabilities : Capabilities
  now : Nat := 0
  lastTelemetry : Option Nat := none
  requested : Option Endpoint := none
  /-- A written time that the platform clock has not been set to yet. -/
  pendingSync : Option UInt32 := none

/-- What a device does, in order. -/
inductive DeviceAct
  | handling (query : Frame)
  | call (call : Call)
  | rejected (fault : Fault)
  | silenced (fault : Fault)
  | send (frame : Frame) (delay : Nat)
  | syncing (secs : UInt32)
  | setClock (secs : UInt32)
  | telemetryFailed (fault : Fault)
deriving DecidableEq

/-- The answer of an operation, the device after it and what the device did. -/
structure Outcome (α β : Type) where
  result : β
  device : Device α
  acts : List DeviceAct

namespace Device

def build [Application α] (identification : Identification) (config : Config) (app : α) :
    Device α where
  identification := identification
  config := config
  app := app
  capabilities := Application.capabilities app

def did (d : Device α) : Did := d.identification.did

def setBattery (d : Device α) (level : UInt8) : Device α :=
  { d with system := { d.system with battery := level } }

def resetCounters (d : Device α) : Device α := { d with system := d.system.resetCounters }

/-- Takes over the platform time; a start time of zero counts as not started. -/
def updateTime (d : Device α) (t : Timestamp) : Device α :=
  let start := if d.system.startTime = 0 then t.secs else d.system.startTime
  { d with
    now := t.toMillis
    system := { d.system with
      startTime := start
      time := t.secs
      uptime := if start ≤ t.secs then t.secs - start else 0 } }

def trigger (d : Device α) (endpoint : Endpoint) : Device α :=
  { d with requested := some endpoint }

def sinceTelemetry (d : Device α) (last : Nat) : Nat := d.now - last

/-- Milliseconds until the device has telemetry to send by itself. -/
def untilTelemetry (d : Device α) : Nat :=
  if d.requested.isSome then 0
  else if d.config.telemetryPeriod = 0 then 0xFFFFFFFF
  else
    match d.lastTelemetry with
    | none => 0
    | some last => d.config.telemetryPeriod.toNat - d.sinceTelemetry last

/-- The endpoint of the telemetry to send now: a requested one first, else the periodic one. -/
def dueTelemetry (d : Device α) : Option Endpoint :=
  match d.requested with
  | some endpoint => some endpoint
  | none =>
    if d.config.telemetryPeriod = 0 then none
    else
      match d.lastTelemetry with
      | none => some d.config.telemetryEndpoint
      | some last =>
        if d.config.telemetryPeriod.toNat ≤ d.sinceTelemetry last then
          some d.config.telemetryEndpoint
        else none

end Device

end Fieldbus
