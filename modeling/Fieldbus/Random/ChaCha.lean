import Fieldbus.Words

namespace Fieldbus

/-- A stream of words by ChaCha with eight rounds, read from a position on. -/
structure ChaCha where
  key : Vector UInt32 8
  position : Nat := 0
deriving DecidableEq

namespace ChaCha

/-- The seed expander: a linear congruential step, then shifts and a rotation by the top bits. -/
def expand (s : UInt64) : UInt64 × UInt32 :=
  let s := s * 6364136223846793005 + 11634580027462260723
  let x := (((s >>> 18) ^^^ s) >>> 27).toUInt32
  let turn := (s >>> 59).toUInt32
  (s, (x >>> turn) ||| (x <<< ((32 - turn) % 32)))

def expansion : Nat → UInt64 → List UInt32
  | 0, _ => []
  | n + 1, s => (expand s).2 :: expansion n (expand s).1

def ofSeed (seed : UInt64) : ChaCha where
  key := .ofFn fun i => (expansion 8 seed).getD i 0

def rotate (x : UInt32) (n : UInt32) : UInt32 := (x <<< n) ||| (x >>> (32 - n))

def quarter (v : Vector UInt32 16) (a b c d : Fin 16) : Vector UInt32 16 :=
  let v := v.set a (v[a] + v[b])
  let v := v.set d (rotate (v[d] ^^^ v[a]) 16)
  let v := v.set c (v[c] + v[d])
  let v := v.set b (rotate (v[b] ^^^ v[c]) 12)
  let v := v.set a (v[a] + v[b])
  let v := v.set d (rotate (v[d] ^^^ v[a]) 8)
  let v := v.set c (v[c] + v[d])
  v.set b (rotate (v[b] ^^^ v[c]) 7)

def doubleRound (v : Vector UInt32 16) : Vector UInt32 16 :=
  let v := quarter v 0 4 8 12
  let v := quarter v 1 5 9 13
  let v := quarter v 2 6 10 14
  let v := quarter v 3 7 11 15
  let v := quarter v 0 5 10 15
  let v := quarter v 1 6 11 12
  let v := quarter v 2 7 8 13
  quarter v 3 4 9 14

def block (key : Vector UInt32 8) (number : Nat) : Vector UInt32 16 :=
  let start : Vector UInt32 16 :=
    #v[0x61707865, 0x3320646e, 0x79622d32, 0x6b206574,
      key[0], key[1], key[2], key[3], key[4], key[5], key[6], key[7],
      UInt32.ofNat (number % 0x100000000), UInt32.ofNat (number / 0x100000000), 0, 0]
  let mixed := doubleRound (doubleRound (doubleRound (doubleRound start)))
  .ofFn fun i => mixed[i] + start[i]

def wordAt (key : Vector UInt32 8) (position : Nat) : UInt32 :=
  (block key (position / 16)).get ⟨position % 16, Nat.mod_lt _ (by decide)⟩

def next (r : ChaCha) : UInt32 × ChaCha :=
  (wordAt r.key r.position, { r with position := r.position + 1 })

/-- The next two words as one number, the first being the low half. -/
def next64 (r : ChaCha) : Nat × ChaCha :=
  let (low, r) := r.next
  let (high, r) := r.next
  (low.toNat + 0x100000000 * high.toNat, r)

/-- The bytes of the next words, as many words as are needed. -/
def bytes (r : ChaCha) (n : Nat) : Vector UInt8 n × ChaCha :=
  (.ofFn fun i => (leBytes 4 (wordAt r.key (r.position + i / 4)).toNat).getD (i % 4) 0,
    { r with position := r.position + (n + 3) / 4 })

end ChaCha

end Fieldbus
