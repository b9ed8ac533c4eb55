import Fieldbus.Bus
import Fieldbus.Controller.Basic
import Fieldbus.Device.Basic
import Fieldbus.Monitor

namespace Fieldbus

def sentRecord (node : Nat) (frame : Frame) (delay : Nat) : LogRecord :=
  ⟨.trace, "Tx " ++ frame.text, [("node", toString node), ("delay_ms", toString delay)]⟩

def BusMishap.logRecord : BusMishap → LogRecord
  | lost sender frame => ⟨.trace, "Frame lost: " ++ frame.text, [("from", toString sender)]⟩
  | overrun node => ⟨.warn, "Receive queue full, frame dropped", [("node", toString node)]⟩

namespace DeviceAct

/-- How an act of a thermostat is logged; the bus clock gives the offset of a clock that is set. -/
def record? (did : Did) (node clock : Nat) : DeviceAct → Option LogRecord
  | handling query => some ⟨.trace, "Handling " ++ query.text, [("did", did.text)]⟩
  | call (.command .app (relays :: _)) =>
    some ⟨.debug, "Relays switched", [("relays", toString relays.toNat)]⟩
  | call _ => none
  | rejected fault => some ⟨.debug, "Query failed: " ++ fault.message, [("did", did.text)]⟩
  | silenced fault =>
    some ⟨.warn, "Dropping error response: " ++ fault.message, [("did", did.text)]⟩
  | send frame delay => some (sentRecord node frame delay)
  | syncing secs =>
    some ⟨.debug, "Synchronizing platform time to " ++ toString secs.toNat, [("did", did.text)]⟩
  | setClock secs =>
    some ⟨.trace, "Clock adjusted",
      [("node", toString node), ("offset_ms", toString ((secs.toNat * 1000 : Int) - clock))]⟩
  | telemetryFailed fault =>
    some ⟨.warn, "Periodic telemetry failed: " ++ fault.message, [("did", did.text)]⟩

end DeviceAct

namespace ControllerAct

def output (json : Bool) (node : Nat) : ControllerAct → Output
  | event e => e.report json
  | slotTaken slot => .record ⟨.trace, "Slot allocated", [("idx", toString slot)]⟩
  | send frame => .record (sentRecord node frame 0)
  | scheduled slot ms =>
    .record ⟨.trace, "Query scheduled", [("idx", toString slot), ("timeout", toString ms)]⟩
  | issued did handle timeout frame =>
    .record ⟨.debug, "Query " ++ frame.text,
      [("did", did.text), ("handle", toString handle.number), ("timeout", timeout.debugText)]⟩
  | cancelled did handle =>
    .record ⟨.debug, "Query cancelled",
      [("did", did.text), ("handle", toString handle.number)]⟩
  | answered did handle frame =>
    .record ⟨.debug, "Response " ++ frame.text,
      [("did", did.text), ("handle", toString handle.number)]⟩
  | duplicate did =>
    .record ⟨.trace, "Duplicate broadcast response dropped", [("did", did.text)]⟩
  | orphaned did frame =>
    .record ⟨.debug, "Orphan response " ++ frame.text, [("did", did.text)]⟩
  | halted handle =>
    .record ⟨.debug, "Broadcast query stopped by callback",
      [("handle", toString handle.number)]⟩
  | expired did handle frameType =>
    .record ⟨.debug, "Query timed out",
      [("did", did.text), ("handle", toString handle.number), ("query", frameType.text)]⟩
  | sweepStarted mode target =>
    .record ⟨.info, "Discovery started", [("mode", mode.name), ("target", target.debugText)]⟩
  | sweepEnded reason => .record ⟨.info, "Discovery ended: " ++ reason.text, []⟩
  | relay did frame =>
    .record ⟨.info, "Discovered device: " ++ frame.text, [("did", did.text)]⟩

end ControllerAct

end Fieldbus
