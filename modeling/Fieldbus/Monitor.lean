import Fieldbus.Controller.Event
import Fieldbus.Log
import Fieldbus.Thermostat

namespace Fieldbus

/-- Counts of events, in words that start again when they are full. -/
structure MonitorStats where
  ok : UInt32 := 0
  errors : UInt32 := 0
  timeouts : UInt32 := 0
  cancelled : UInt32 := 0
  orphans : UInt32 := 0
deriving DecidableEq

/-- Counts the events of a controller and never asks it to stop. -/
structure Monitor where
  stats : MonitorStats := {}
deriving DecidableEq

def MonitorStats.count (s : MonitorStats) (e : Event) : MonitorStats :=
  match e.context, e.status with
  | .orphan, _ => { s with orphans := s.orphans + 1 }
  | .query, .ok => { s with ok := s.ok + 1 }
  | .query, .error => { s with errors := s.errors + 1 }
  | .query, .timeout => { s with timeouts := s.timeouts + 1 }
  | .query, .cancelled => { s with cancelled := s.cancelled + 1 }

instance : Listener Monitor where
  onEvent m e := (true, { m with stats := m.stats.count e })

namespace Event

def silentRecord (e : Event) : LogRecord :=
  let fields :=
    [("did", e.did.text), ("handle", optionText (e.handle.map fun h => toString h.number))]
  if e.status = .timeout then ⟨.warn, "Query timed out", fields⟩
  else ⟨.debug, "Query " ++ e.status.text, fields⟩

def responseRecord (e : Event) (f : Frame) : LogRecord :=
  let handle := optionText (e.handle.map fun h => toString h.number)
  let detail := (describeTelemetry f).getD f.text
  if e.context = .orphan then ⟨.debug, "Unsolicited: " ++ detail, [("did", f.did.text)]⟩
  else if e.status = .error then
    ⟨.warn, "Device error: " ++ (e.fault?.map Fault.message).getD "",
      [("did", f.did.text), ("handle", handle)]⟩
  else ⟨.info, detail, [("did", f.did.text), ("handle", handle)]⟩

def logRecord (e : Event) : LogRecord :=
  match e.response with
  | none => e.silentRecord
  | some f => e.responseRecord f

def report (json : Bool) (e : Event) : Output :=
  if json then .line e.json.compact else .record e.logRecord

end Event

end Fieldbus
