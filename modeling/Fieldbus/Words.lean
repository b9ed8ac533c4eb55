namespace Fieldbus

/-- A count that a word holds is shown as a number. -/
instance coeWord32 : Coe UInt32 Nat := ⟨UInt32.toNat⟩

instance coeWord64 : Coe UInt64 Nat := ⟨UInt64.toNat⟩

/-- The `width` bytes of `n`, least significant first; higher bits are dropped. -/
def leBytes : Nat → Nat → List UInt8
  | 0, _ => []
  | width + 1, n => UInt8.ofNat (n % 256) :: leBytes width (n / 256)

def byteSpan : Nat → Nat
  | 0 => 1
  | width + 1 => 256 * byteSpan width

def ofLeBytes : List UInt8 → Nat
  | [] => 0
  | b :: rest => b.toNat + 256 * ofLeBytes rest

@[simp] theorem length_leBytes (width n : Nat) : (leBytes width n).length = width := by
  induction width generalizing n with
  | zero => rfl
  | succ width ih => simp only [leBytes, List.length_cons, ih]

theorem ofLeBytes_leBytes (width n : Nat) : ofLeBytes (leBytes width n) = n % byteSpan width := by
  induction width generalizing n with
  | zero => simp only [leBytes, ofLeBytes, byteSpan, Nat.mod_one]
  | succ width ih =>
    have h : (UInt8.ofNat (n % 256)).toNat = n % 256 := by
      rw [UInt8.toNat_ofNat']; omega
    rw [leBytes, ofLeBytes, ih, h, byteSpan, Nat.mod_mul]

theorem ofLeBytes_lt (bytes : List UInt8) : ofLeBytes bytes < byteSpan bytes.length := by
  induction bytes with
  | nil => simp [ofLeBytes, byteSpan]
  | cons b rest ih =>
    have hb := b.toNat_lt
    rw [ofLeBytes, List.length_cons, byteSpan]
    omega

theorem leBytes_ofLeBytes (bytes : List UInt8) :
    leBytes bytes.length (ofLeBytes bytes) = bytes := by
  induction bytes with
  | nil => rfl
  | cons b rest ih =>
    have hb := b.toNat_lt
    have hlow : (b.toNat + 256 * ofLeBytes rest) % 256 = b.toNat := by omega
    have hhigh : (b.toNat + 256 * ofLeBytes rest) / 256 = ofLeBytes rest := by omega
    simp only [List.length_cons, leBytes, ofLeBytes, hlow, hhigh, ih, UInt8.ofNat_toNat]

def window (offset size : Nat) (bytes : List UInt8) : List UInt8 :=
  (bytes.drop offset).take size

def overwrite (offset : Nat) (patch bytes : List UInt8) : List UInt8 :=
  bytes.take offset ++ patch ++ bytes.drop (offset + patch.length)

theorem length_overwrite {offset : Nat} {patch bytes : List UInt8}
    (h : offset + patch.length ≤ bytes.length) :
    (overwrite offset patch bytes).length = bytes.length := by
  simp only [overwrite, List.length_append, List.length_take, List.length_drop]
  omega

theorem window_overwrite {offset : Nat} {patch bytes : List UInt8}
    (h : offset + patch.length ≤ bytes.length) :
    window offset patch.length (overwrite offset patch bytes) = patch := by
  have ht : (bytes.take offset).length = offset := by rw [List.length_take]; omega
  rw [window, overwrite, List.append_assoc, List.drop_append_of_le_length (by omega),
    List.drop_of_length_le (by omega), List.nil_append, List.take_append_of_le_length (by omega),
    List.take_length]

/-- A list cut or zero-filled to exactly `n` bytes. -/
def fitBytes (n : Nat) (bytes : List UInt8) : Vector UInt8 n :=
  Vector.ofFn fun i => bytes.getD i 0

end Fieldbus
