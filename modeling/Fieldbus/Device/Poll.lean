import Fieldbus.Device.Dispatch
import Fieldbus.Platform

namespace Fieldbus

/-- How a poll ended, the device and the platform after it and what the device did. -/
structure Polled (α π : Type) where
  result : Except Fault Unit
  device : Device α
  platform : π
  acts : List DeviceAct

namespace Device

variable [Application α] [Platform π]

/-- Answers to a broadcast wait for a random time, others do not wait. -/
def responseDelay (d : Device α) (p : π) (query : Frame) : Nat × π :=
  if query.did.isBroadcast then
    delayBetween p d.config.telemetryDelayMin.toNat d.config.telemetryDelayMax.toNat
  else (0, p)

/-- Telemetry that was not asked for waits for a random or a fixed time, as configured. -/
def telemetryDelay (d : Device α) (p : π) : Nat × π :=
  if d.config.randomDelay then
    delayBetween p d.config.telemetryDelayMin.toNat d.config.telemetryDelayMax.toNat
  else (d.config.telemetryDelay.toNat, p)

/-- Sets the platform clock to a written time, once. -/
def syncClock (d : Device α) (p : π) : Polled α π :=
  match d.pendingSync with
  | none => ⟨.ok (), d, p, []⟩
  | some secs =>
    let d := { d with pendingSync := none }
    let acts := [.syncing secs, .setClock secs]
    match Platform.setClock p secs with
    | (.error fault, p) => ⟨.error fault, d, p, acts⟩
    | (.ok (), p) => ⟨.ok (), d.updateTime (Platform.now p), p, acts⟩

/-- Answers one received frame and then sets the clock, if that is pending. -/
def serve (d : Device α) (p : π) (query : Frame) : Polled α π :=
  let handled := d.handle query
  match handled.result with
  | none =>
    let synced := handled.device.syncClock p
    { synced with acts := handled.acts ++ synced.acts }
  | some response =>
    let (delay, p) := handled.device.responseDelay p query
    let acts := handled.acts ++ [.send response delay]
    match Platform.send p response delay with
    | (.error fault, p) => ⟨.error fault, handled.device, p, acts⟩
    | (.ok (), p) =>
      let synced := handled.device.syncClock p
      { synced with acts := acts ++ synced.acts }

/-- Sends the telemetry that is due; an attempt that fails counts for the period too. -/
def report (d : Device α) (p : π) : Polled α π :=
  match d.dueTelemetry with
  | none => ⟨.ok (), d, p, []⟩
  | some endpoint =>
    let built :=
      { d with requested := none, lastTelemetry := some d.now }.buildTelemetry endpoint
    match built.result with
    | .error fault => ⟨.ok (), built.device, p, built.acts ++ [.telemetryFailed fault]⟩
    | .ok frame =>
      let (delay, p) := built.device.telemetryDelay p
      let (sent, p) := Platform.send p frame delay
      ⟨sent, built.device.countSent frame, p, built.acts ++ [.send frame delay]⟩

/-- Answers at most one received frame, then sends due telemetry; a failed receive is told last. -/
def poll (d : Device α) (p : π) : Polled α π :=
  let d := d.updateTime (Platform.now p)
  let (received, p) := Platform.receive p
  let served :=
    match received with
    | .ok (some query) => d.serve p query
    | _ => ⟨.ok (), d, p, []⟩
  match served.result with
  | .error _ => served
  | .ok () =>
    let reported := served.device.report served.platform
    { reported with
      result := reported.result.bind fun _ => received.map fun _ => ()
      acts := served.acts ++ reported.acts }

end Device

end Fieldbus
