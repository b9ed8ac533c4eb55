import Fieldbus.Text.Hex

namespace Fieldbus

namespace Hex

/-- A digit of either case. -/
def IsDigit (c : Char) : Prop :=
  ('0' ≤ c ∧ c ≤ '9') ∨ ('a' ≤ c ∧ c ≤ 'f') ∨ ('A' ≤ c ∧ c ≤ 'F')

instance (c : Char) : Decidable (IsDigit c) := inferInstanceAs (Decidable (_ ∨ _ ∨ _))

theorem digitValue?_isSome_iff {c : Char} : (digitValue? c).isSome ↔ IsDigit c := by
  unfold digitValue? IsDigit
  split
  next decimal => simp [decimal]
  next =>
    split
    next lower => simp [lower]
    next =>
      split
      next upper => simp [upper]
      next => simp [*]

theorem digitValue?_lt {c : Char} {n : Nat} (h : digitValue? c = some n) : n < 16 := by
  have h0 : '0'.toNat = 48 := rfl
  have h9 : '9'.toNat = 57 := rfl
  have ha : 'a'.toNat = 97 := rfl
  have hf : 'f'.toNat = 102 := rfl
  have hA : 'A'.toNat = 65 := rfl
  have hF : 'F'.toNat = 70 := rfl
  simp only [digitValue?, Char.le_def, UInt32.le_iff_toNat_le, Char.toNat_val] at h
  split at h
  next decimal => cases h; omega
  next =>
    split at h
    next lower => cases h; omega
    next =>
      split at h
      next upper => cases h; omega
      next => cases h

theorem values_lt (cs : List Char) : ∀ n ∈ cs.filterMap digitValue?, n < 16 := by
  intro n hn
  obtain ⟨_, _, h⟩ := List.mem_filterMap.mp hn
  exact digitValue?_lt h

/-- Writing the digits otherwise, such as in upper case, leaves their values. -/
def KeepsDigits (f : Char → Char) : Prop := ∀ n, digitValue? (f (digit n)) = some (n % 16)

theorem keepsDigits_id : KeepsDigits id := fun n => by
  have hall : ∀ m < 16, digitValue? (Nat.digitChar m) = some m := by decide
  exact hall _ (Nat.mod_lt n (by decide))

theorem keepsDigits_toUpper : KeepsDigits Char.toUpper := fun n => by
  have hall : ∀ m < 16, digitValue? (Nat.digitChar m).toUpper = some m := by decide
  exact hall _ (Nat.mod_lt n (by decide))

/-- The values of the two digits of a byte. -/
def nibbles (b : UInt8) : List Nat := [b.toNat / 16, b.toNat % 16]

theorem nibbles_ofNat {high low : Nat} (hhigh : high < 16) (hlow : low < 16) :
    nibbles (UInt8.ofNat (16 * high + low)) = [high, low] := by
  rw [nibbles, UInt8.toNat_ofNat', Nat.mod_eq_of_lt (by omega)]
  congr <;> omega

theorem ofNat_nibbles (b : UInt8) : UInt8.ofNat (16 * (b.toNat / 16) + b.toNat % 16) = b := by
  rw [Nat.div_add_mod, UInt8.ofNat_toNat]

/-- The digits of bytes are read as these bytes, and nothing else is. -/
theorem bytes?_eq_some_iff {cs : List Char} {bytes : List UInt8} :
    bytes? cs = some bytes ↔ cs.map digitValue? = (bytes.flatMap nibbles).map some := by
  induction cs using bytes?.induct generalizing bytes with
  | case1 => cases bytes <;> simp [bytes?, nibbles]
  | case2 c => cases bytes <;> simp [bytes?, nibbles]
  | case3 a b rest ih =>
    constructor
    · intro h
      simp only [bytes?, Option.bind_eq_bind, Option.bind_eq_some_iff, Option.pure_def,
        Option.some.injEq] at h
      obtain ⟨high, ha, low, hb, tail, hrest, rfl⟩ := h
      have hbyte := nibbles_ofNat (digitValue?_lt ha) (digitValue?_lt hb)
      rw [List.flatMap_cons, hbyte, List.map_cons, List.map_cons, ha, hb, ih.mp hrest]
      rfl
    · intro h
      cases bytes with
      | nil => simp at h
      | cons byte tail =>
        simp only [List.map_cons, List.flatMap_cons, nibbles, List.cons_append, List.nil_append,
          List.cons.injEq] at h
        obtain ⟨ha, hb, hrest⟩ := h
        have htail := ih.mpr hrest
        simp only [bytes?, ha, hb, htail, Option.bind_eq_bind, Option.bind_some, ofNat_nibbles]
        rfl

/-- The values of a text are all there if it has only digits. -/
theorem map_digitValue?_eq_iff {cs : List Char} {values : List Nat} :
    cs.map digitValue? = values.map some ↔
      (∀ c ∈ cs, IsDigit c) ∧ cs.filterMap digitValue? = values := by
  induction cs generalizing values with
  | nil => cases values <;> simp
  | cons c cs ih =>
    cases value : digitValue? c with
    | none =>
      have hnot : ¬IsDigit c := by simp [← digitValue?_isSome_iff, value]
      cases values <;> simp [value, hnot]
    | some v =>
      have hdigit : IsDigit c := by simp [← digitValue?_isSome_iff, value]
      cases values with
      | nil => simp [value]
      | cons w values => simp [value, hdigit, ih, and_left_comm]

theorem length_flatMap_nibbles (bytes : List UInt8) :
    (bytes.flatMap nibbles).length = 2 * bytes.length := by
  induction bytes with
  | nil => rfl
  | cons b rest ih =>
    rw [List.flatMap_cons, List.length_append, ih, List.length_cons]
    exact Nat.add_comm 2 _

/-- Any even number of values below sixteen are those of the digits of some bytes. -/
theorem exists_flatMap_nibbles :
    ∀ {values : List Nat}, values.length % 2 = 0 → (∀ n ∈ values, n < 16) →
      ∃ bytes : List UInt8, values = bytes.flatMap nibbles
  | [], _, _ => ⟨[], rfl⟩
  | [_], even, _ => nomatch even
  | high :: low :: rest, even, small => by
    have heven : rest.length % 2 = 0 := by
      simp only [List.length_cons] at even
      omega
    obtain ⟨bytes, hbytes⟩ := exists_flatMap_nibbles heven fun n hn => small n (by simp [hn])
    refine ⟨UInt8.ofNat (16 * high + low) :: bytes, ?_⟩
    rw [List.flatMap_cons, nibbles_ofNat (small high (by simp)) (small low (by simp)), ← hbytes]
    rfl

/-- What can be read are the digits in even number. -/
theorem exists_bytes?_iff {cs : List Char} :
    (∃ bytes, bytes? cs = some bytes) ↔ cs.length % 2 = 0 ∧ ∀ c ∈ cs, IsDigit c := by
  constructor
  · rintro ⟨bytes, h⟩
    have hmap := bytes?_eq_some_iff.mp h
    have hlength := congrArg List.length hmap
    rw [List.length_map, List.length_map, length_flatMap_nibbles] at hlength
    exact ⟨by omega, (map_digitValue?_eq_iff.mp hmap).1⟩
  · rintro ⟨even, digits⟩
    have hmap := map_digitValue?_eq_iff.mpr ⟨digits, rfl⟩
    have hlength := congrArg List.length hmap
    rw [List.length_map, List.length_map] at hlength
    obtain ⟨bytes, hbytes⟩ := exists_flatMap_nibbles (hlength ▸ even) (values_lt cs)
    exact ⟨bytes, bytes?_eq_some_iff.mpr (hbytes ▸ hmap)⟩

/-- The printed digits of bytes have the values that their reading asks for. -/
theorem map_digitValue?_ofBytes {f : Char → Char} (keeps : KeepsDigits f) (bytes : List UInt8) :
    ((ofBytes bytes).map f).map digitValue? = (bytes.flatMap nibbles).map some := by
  rw [ofBytes, List.map_flatMap, List.map_flatMap, List.map_flatMap]
  refine congrArg bytes.flatMap (funext fun b => ?_)
  have hhigh : b.toNat / 16 % 16 = b.toNat / 16 :=
    Nat.mod_eq_of_lt (Nat.div_lt_of_lt_mul b.toNat_lt)
  simp [ofByte, fixed, nibbles, keeps _, hhigh]

theorem isDigit_ofBytes {f : Char → Char} (keeps : KeepsDigits f) (bytes : List UInt8) :
    ∀ c ∈ (ofBytes bytes).map f, IsDigit c :=
  (map_digitValue?_eq_iff.mp (map_digitValue?_ofBytes keeps bytes)).1

theorem length_fixed (width n : Nat) : (fixed width n).length = width := by
  induction width generalizing n with
  | zero => rfl
  | succ width ih => rw [fixed, List.length_append, ih, List.length_singleton]

theorem isDigit_fixed {f : Char → Char} (keeps : KeepsDigits f) (width n : Nat) :
    ∀ c ∈ (fixed width n).map f, IsDigit c := by
  induction width generalizing n with
  | zero => exact nofun
  | succ width ih =>
    intro c hc
    rw [fixed, List.map_append, List.mem_append] at hc
    rcases hc with front | last
    · exact ih _ c front
    · cases List.mem_singleton.mp last
      simp [← digitValue?_isSome_iff, keeps n]

end Hex

end Fieldbus
