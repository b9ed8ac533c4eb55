import Fieldbus.Text.Hex

namespace Fieldbus

namespace Numeral

def digit? (base : Nat) (c : Char) : Option Nat := (Hex.digitValue? c).filter (· < base)

def extend? (base : Nat) : Nat → List Char → Option Nat
  | n, [] => some n
  | n, c :: rest => (digit? base c).bind fun d => extend? base (base * n + d) rest

def digits? (base : Nat) (cs : List Char) : Option Nat :=
  if cs.isEmpty then none else extend? base 0 cs

def natural? (base : Nat) : List Char → Option Nat
  | '+' :: rest => digits? base rest
  | cs => digits? base cs

def integer? (base : Nat) : List Char → Option Int
  | '-' :: rest => (digits? base rest).map fun n => -(n : Int)
  | cs => (natural? base cs).map Int.ofNat

def bounded? (base bound : Nat) (cs : List Char) : Option Nat :=
  (natural? base cs).filter (· < bound)

end Numeral

/-- The decimal text of a number of hundredths, always with two places. -/
def hundredthsText (n : Int) : String :=
  let places := n.natAbs % 100
  (if n < 0 then "-" else "") ++ toString (n.natAbs / 100) ++ "." ++
    toString (places / 10) ++ toString (places % 10)

end Fieldbus
