namespace Fieldbus

@[ext] structure Timestamp where
  secs : UInt32
  millis : UInt16
deriving DecidableEq

namespace Timestamp

/-- Seconds beyond 32 bits wrap. -/
def ofMillis (total : Nat) : Timestamp :=
  ⟨UInt32.ofNat (total / 1000), UInt16.ofNat (total % 1000)⟩

def toMillis (t : Timestamp) : Nat := t.secs.toNat * 1000 + t.millis.toNat

end Timestamp

end Fieldbus
