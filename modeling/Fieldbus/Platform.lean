import Fieldbus.Frame
import Fieldbus.Timestamp

namespace Fieldbus

/-- What devices and controllers run on: a bus connection, a clock and a source of entropy. -/
class Platform (π : Type) where
  /-- Hands over a frame for transmission after a delay in milliseconds. -/
  send : π → Frame → Nat → Except Fault Unit × π
  receive : π → Except Fault (Option Frame) × π
  now : π → Timestamp
  setClock : π → UInt32 → Except Fault Unit × π
  entropy : π → (n : Nat) → Vector UInt8 n × π
  /-- A bound on the frames that can still be received. -/
  waiting : π → Nat
  waiting_receive (p p' : π) (f : Frame) :
    receive p = (.ok (some f), p') → waiting p' < waiting p

/-- A number from `low` to `high` by four random bytes; `low` itself when the range is not wider. -/
def delayBetween [Platform π] (p : π) (low high : Nat) : Nat × π :=
  if high ≤ low then (low, p)
  else
    let (bytes, p) := Platform.entropy p 4
    (low + ofLeBytes bytes.toList % (high - low + 1), p)

end Fieldbus
