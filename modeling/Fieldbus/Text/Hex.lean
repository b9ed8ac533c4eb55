namespace Fieldbus

namespace Hex

def digit (n : Nat) : Char := Nat.digitChar (n % 16)

def digitValue? (c : Char) : Option Nat :=
  if '0' ≤ c ∧ c ≤ '9' then some (c.toNat - '0'.toNat)
  else if 'a' ≤ c ∧ c ≤ 'f' then some (c.toNat - 'a'.toNat + 10)
  else if 'A' ≤ c ∧ c ≤ 'F' then some (c.toNat - 'A'.toNat + 10)
  else none

def fixed : Nat → Nat → List Char
  | 0, _ => []
  | width + 1, n => fixed width (n / 16) ++ [digit n]

def digits (n : Nat) : List Char :=
  if n < 16 then [digit n] else digits (n / 16) ++ [digit n]
termination_by n
decreasing_by omega

def padded (width n : Nat) : List Char :=
  List.replicate (width - (digits n).length) '0' ++ digits n

/-- The text `0x` and at least `width` digits. -/
def tagged (width n : Nat) : String := "0x" ++ String.ofList (padded width n)

def ofByte (b : UInt8) : List Char := fixed 2 b.toNat

def ofBytes (bytes : List UInt8) : List Char := bytes.flatMap ofByte

def text (bytes : List UInt8) : String := String.ofList (ofBytes bytes)

def upperText (bytes : List UInt8) : String := String.ofList ((ofBytes bytes).map Char.toUpper)

/-- Takes the digits two by two; an odd digit or any other character is refused. -/
def bytes? : List Char → Option (List UInt8)
  | [] => some []
  | [_] => none
  | a :: b :: rest => do
    let high ← digitValue? a
    let low ← digitValue? b
    let bytes ← bytes? rest
    return UInt8.ofNat (16 * high + low) :: bytes

end Hex

end Fieldbus
