import Fieldbus.Text.Numeral

namespace Fieldbus

namespace Real64

/-- The unsigned decimal `digits` times ten to the power `exponent`, rounded to nearest. -/
def ofDecimal (digits : Nat) (exponent : Int) : Float :=
  let top := exponent + (toString digits).length
  if digits = 0 ∨ top < -400 then 0
  else if 400 < top then 1 / 0
  else .ofScientific digits (exponent < 0) exponent.natAbs

/-- The power of ten behind a mantissa: nothing, or `e` and a signed number. -/
def exponent? : List Char → Option Int
  | [] => some 0
  | c :: rest => if c = 'e' ∨ c = 'E' then Numeral.integer? 10 rest else none

/-- Digits with at most one point among or around them, then an optional power of ten. -/
def decimal? (cs : List Char) : Option Float :=
  let whole := cs.takeWhile Char.isDigit
  let rest := cs.dropWhile Char.isDigit
  let (places, rest) :=
    match rest with
    | '.' :: rest => (rest.takeWhile Char.isDigit, rest.dropWhile Char.isDigit)
    | rest => ([], rest)
  (Numeral.digits? 10 (whole ++ places)).bind fun digits =>
    (exponent? rest).map fun exponent => ofDecimal digits (exponent - places.length)

/-- A decimal, or a word for infinity or for no number, in any case. -/
def unsigned? (cs : List Char) : Option Float :=
  let word := String.ofList (cs.map Char.toLower)
  if word = "inf" ∨ word = "infinity" then some (1 / 0)
  else if word = "nan" then some (0 / 0)
  else decimal? cs

def read? : List Char → Option Float
  | '-' :: rest => (unsigned? rest).map fun x => -x
  | '+' :: rest => unsigned? rest
  | cs => unsigned? cs

def signWeight : Nat := 0x8000000000000000

def exponentWeight : Nat := 0x10000000000000

/-- The finite number `mantissa` times two to the power `exponent`. -/
structure Dyadic where
  mantissa : Nat
  exponent : Int
  /-- The next smaller number is only half as far away as the next larger one. -/
  lowerIsCloser : Bool

def Dyadic.ofBits (bits : Nat) : Dyadic :=
  let fraction := bits % exponentWeight
  let exponent : Nat := bits / exponentWeight % 2048
  if exponent = 0 then ⟨fraction, -1074, false⟩
  else ⟨fraction + exponentWeight, (exponent : Int) - 1075, fraction = 0 && 1 < exponent⟩

/-- Ten to a power, split into a numerator and a denominator. -/
def tenths (power : Int) : Nat × Nat := (Nat.pow 10 power.toNat, Nat.pow 10 (-power).toNat)

/-- The least power of ten above the number, as an exponent. -/
def Dyadic.magnitude (d : Dyadic) : Int :=
  let above := d.mantissa * Nat.pow 2 d.exponent.toNat
  let below := Nat.pow 2 (-d.exponent).toNat
  if below ≤ above then (toString (above / below)).length
  else
    let steps := (List.range 400).find? fun j => below ≤ above * Nat.pow 10 (j + 1)
    Int.negOfNat (steps.getD 0)

/-- The multiple of ten to the power `grid` that is nearest among those that read back as the
number; the larger of two equally near ones. -/
def Dyadic.onGrid? (d : Dyadic) (grid : Int) : Option Nat :=
  let (up, down) := tenths grid
  let quarter := d.exponent - 2
  let unit := Nat.pow 2 quarter.toNat * down
  let scale := up * Nat.pow 2 (-quarter).toNat
  let middle := 4 * d.mantissa * unit
  let low := (4 * d.mantissa - if d.lowerIsCloser then 1 else 2) * unit
  let high := (4 * d.mantissa + 2) * unit
  let closed := d.mantissa % 2 = 0
  let fits (c : Nat) : Bool :=
    if closed then low ≤ c * scale && c * scale ≤ high else low < c * scale && c * scale < high
  let floor := middle / scale
  let nearer := if middle - floor * scale < (floor + 1) * scale - middle then floor else floor + 1
  let other := if nearer = floor then floor + 1 else floor
  if fits nearer then some nearer else if fits other then some other else none

/-- The fewest decimal digits that read back as the number, and their power of ten. -/
def Dyadic.shortest (d : Dyadic) : Nat × Int :=
  let top := d.magnitude
  let hit := (List.range 17).findSome? fun (n : Nat) =>
    let grid := top - ((n : Int) + 1)
    (d.onGrid? grid).map fun c => (c, grid)
  hit.getD (0, 0)

/-- The digits of a multiple of a power of ten, without exponent and without needless zeros. -/
def positional (digits : Nat) (power : Int) : String :=
  let cs := (toString digits).toList
  let kept := (cs.reverse.dropWhile (· = '0')).reverse
  let power := power + (cs.length - kept.length : Nat)
  let places := (-power).toNat
  if 0 ≤ power then String.ofList (kept ++ .replicate power.toNat '0')
  else if places < kept.length then
    String.ofList (kept.take (kept.length - places) ++ '.' :: kept.drop (kept.length - places))
  else String.ofList ('0' :: '.' :: List.replicate (places - kept.length) '0' ++ kept)

/-- The shortest text that reads back as the number, always without exponent. -/
def text (x : Float) : String :=
  let bits := x.toBits.toNat
  let sign := if bits / signWeight = 1 then "-" else ""
  if x.isNaN then "NaN"
  else if x.isInf then sign ++ "inf"
  else if bits % signWeight = 0 then sign ++ "0"
  else
    let (digits, power) := (Dyadic.ofBits (bits % signWeight)).shortest
    sign ++ positional digits power

end Real64

end Fieldbus
