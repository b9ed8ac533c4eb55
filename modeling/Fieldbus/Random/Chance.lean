import Fieldbus.Random.ChaCha

namespace Fieldbus

/-- Decides which frames are lost and hands out random bytes. -/
class Chance (ρ : Type) where
  loses : ρ → Bool × ρ
  bytes : ρ → (n : Nat) → Vector UInt8 n × ρ

/-- How often a frame is lost: a 64-bit draw below a threshold decides. -/
inductive LossRate
  | never
  | always
  | below (threshold : Nat)
deriving DecidableEq

/-- The rate of a probability from 0 to 1; nothing is drawn for 0 and 1. -/
def LossRate.ofProbability (p : Float) : LossRate :=
  if !(p > 0) then never
  else if p ≥ 1 then always
  else below (p * 18446744073709551616.0).toUInt64.toNat

structure SeededChance where
  stream : ChaCha
  rate : LossRate

namespace SeededChance

def ofSeed (seed : UInt64) (rate : LossRate) : SeededChance := ⟨.ofSeed seed, rate⟩

def loses (c : SeededChance) : Bool × SeededChance :=
  match c.rate with
  | .never => (false, c)
  | .always => (true, c)
  | .below threshold =>
    let (drawn, stream) := c.stream.next64
    (drawn < threshold, { c with stream })

instance : Chance SeededChance where
  loses := loses
  bytes c n :=
    let (bytes, stream) := c.stream.bytes n
    (bytes, { c with stream })

end SeededChance

end Fieldbus
