namespace Fieldbus

inductive Timeout
  /-- The query is sent and forgotten. -/
  | untracked
  | millis (ms : UInt32)
  | forever
deriving DecidableEq

namespace Timeout

/-- Zero means untracked and the largest number means forever. -/
def ofMillis (ms : UInt32) : Timeout :=
  if ms = 0 then untracked else if ms = 0xFFFFFFFF then forever else millis ms

/-- Whole milliseconds of a duration; what exceeds 32 bits means forever. -/
def ofDuration (secs nanos : Nat) : Timeout :=
  ofMillis (UInt32.ofNat (min (secs * 1000 + nanos / 1000000) 0xFFFFFFFF))

def span? : Timeout → Option Nat
  | millis ms => some ms.toNat
  | _ => none

def debugText : Timeout → String
  | untracked => "Untracked"
  | millis ms => "Millis(" ++ toString ms.toNat ++ ")"
  | forever => "Forever"

end Timeout

end Fieldbus
