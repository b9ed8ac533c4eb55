import Fieldbus.Attribute.Records
import Fieldbus.Proofs.Frame.Stored
import Mathlib.Data.String.Basic

namespace Fieldbus

open String (utf8Len)

section Characters

variable {c : Char} {b : UInt8}

theorem byte_ne_zero {n : Nat} (low : 0 < n) (high : n < 256) : UInt8.ofNat n ≠ 0 := by
  intro same
  have hnat := congrArg UInt8.toNat same
  rw [UInt8.toNat_ofNat', UInt8.toNat_zero] at hnat
  omega

/-- Only one character has a zero byte. -/
theorem ne_zero_of_mem_utf8 (ne : c ≠ '\x00') (h : b ∈ String.utf8EncodeChar c) : b ≠ 0 := by
  have hcode : c.val.toNat ≠ 0 := fun zero => ne (Char.ext (UInt32.toNat_inj.mp zero))
  revert h
  -- The bytes of a longer character are marked by high bits, which leaves the single byte.
  fun_cases String.utf8EncodeChar c with
  | case1 v small =>
    intro h
    rw [List.mem_singleton.mp h]
    exact byte_ne_zero (by omega) (by omega)
  | case2 v =>
    simp only [List.mem_cons, List.not_mem_nil, or_false]
    rintro (rfl | rfl) <;> exact byte_ne_zero (by omega) (by omega)
  | case3 v =>
    simp only [List.mem_cons, List.not_mem_nil, or_false]
    rintro (rfl | rfl | rfl) <;> exact byte_ne_zero (by omega) (by omega)
  | case4 v =>
    simp only [List.mem_cons, List.not_mem_nil, or_false]
    rintro (rfl | rfl | rfl | rfl) <;> exact byte_ne_zero (by omega) (by omega)

/-- The bytes up to the first zero byte are those of the characters up to the first zero. -/
theorem takeWhile_utf8 (cs : List Char) :
    (cs.flatMap String.utf8EncodeChar).takeWhile (· ≠ 0) =
      (cs.takeWhile (· ≠ '\x00')).flatMap String.utf8EncodeChar := by
  induction cs with
  | nil => rfl
  | cons c rest ih =>
    rw [List.flatMap_cons]
    by_cases zero : c = '\x00'
    · subst zero
      rfl
    · have hbytes : ∀ b ∈ String.utf8EncodeChar c, decide (b ≠ 0) = true :=
        fun b hb => decide_eq_true (ne_zero_of_mem_utf8 zero hb)
      have hchar : (c :: rest).takeWhile (· ≠ '\x00') = c :: rest.takeWhile (· ≠ '\x00') :=
        List.takeWhile_cons_of_pos (by simpa using zero)
      rw [List.takeWhile_append_of_pos hbytes, ih, hchar, List.flatMap_cons]

theorem takeWhile_append_zeros (bytes : List UInt8) (n : Nat) :
    (bytes ++ List.replicate n 0).takeWhile (· ≠ 0) = bytes.takeWhile (· ≠ 0) := by
  have hzeros : (List.replicate n (0 : UInt8)).takeWhile (· ≠ 0) = [] := by
    rw [List.takeWhile_replicate]
    rfl
  rw [List.takeWhile_append, hzeros, List.append_nil]
  split
  next whole => exact ((List.takeWhile_prefix _).eq_of_length whole).symm
  next => rfl

theorem length_utf8 (cs : List Char) : (cs.flatMap String.utf8EncodeChar).length = utf8Len cs := by
  induction cs with
  | nil => rfl
  | cons c rest ih =>
    rw [List.flatMap_cons, List.length_append, ih, String.length_utf8EncodeChar,
      String.utf8Len_cons, Nat.add_comm]

theorem data_toByteArray_ofList (cs : List Char) :
    (String.ofList cs).toByteArray.data = (cs.flatMap String.utf8EncodeChar).toArray := by
  rw [String.toByteArray_ofList, List.utf8Encode, List.data_toByteArray]

theorem fromUTF8?_utf8 (cs : List Char) :
    String.fromUTF8? ⟨(cs.flatMap String.utf8EncodeChar).toArray⟩ = some (String.ofList cs) := by
  have hbytes : (⟨(cs.flatMap String.utf8EncodeChar).toArray⟩ : ByteArray) =
      (String.ofList cs).toByteArray := ByteArray.ext (data_toByteArray_ofList cs).symm
  rw [hbytes, String.fromUTF8?, dif_pos (String.ofList cs).isValidUTF8]
  rfl

end Characters

/-- The longest start of a text that takes at most `room` bytes in UTF-8. -/
def fitChars : Nat → List Char → List Char
  | _, [] => []
  | room, c :: rest => if c.utf8Size ≤ room then c :: fitChars (room - c.utf8Size) rest else []

section Fitting

variable (room : Nat) (cs : List Char)

theorem fitChars_start : fitChars room cs <+: cs := by
  induction cs generalizing room with
  | nil => exact List.nil_prefix
  | cons c rest ih =>
    unfold fitChars
    split
    next => exact List.cons_prefix_cons.mpr ⟨rfl, ih _⟩
    next => exact List.nil_prefix

theorem utf8Len_fitChars_le : utf8Len (fitChars room cs) ≤ room := by
  induction cs generalizing room with
  | nil => exact Nat.zero_le _
  | cons c rest ih =>
    unfold fitChars
    split
    next fits =>
      have hrest := ih (room - c.utf8Size)
      rw [String.utf8Len_cons]
      omega
    next => exact Nat.zero_le _

variable {room cs}

/-- The first character that is left out has no room. -/
theorem lt_of_left_out {c : Char} {rest : List Char} (left : cs = fitChars room cs ++ c :: rest) :
    room < utf8Len (fitChars room cs) + c.utf8Size := by
  induction cs generalizing room with
  | nil => simp [fitChars] at left
  | cons d cs ih =>
    by_cases fits : d.utf8Size ≤ room
    · rw [fitChars, if_pos fits] at left ⊢
      have hrest := ih (List.cons.inj left).2
      rw [String.utf8Len_cons]
      omega
    · rw [fitChars, if_neg fits] at left ⊢
      obtain ⟨rfl, _⟩ := List.cons.inj left
      rw [String.utf8Len_nil]
      omega

/-- No longer start of the text fits. -/
theorem start_fitChars {front : List Char} (start : front <+: cs) (fits : utf8Len front ≤ room) :
    front <+: fitChars room cs := by
  rcases List.prefix_or_prefix_of_prefix start (fitChars_start room cs) with short | long
  · exact short
  · obtain ⟨more, rfl⟩ := long
    obtain ⟨rest, left⟩ := start
    cases more with
    | nil => simp only [List.append_nil, List.prefix_rfl]
    | cons c more =>
      rw [List.append_assoc, List.cons_append] at left
      have hroom := lt_of_left_out left.symm
      rw [String.utf8Len_append, String.utf8Len_cons] at fits
      omega

/-- A character that is left out takes four bytes at most. -/
theorem min_le_utf8Len_fitChars : min (utf8Len cs) room ≤ utf8Len (fitChars room cs) + 3 := by
  obtain ⟨rest, left⟩ := fitChars_start room cs
  cases rest with
  | nil =>
    rw [List.append_nil] at left
    rw [left]
    omega
  | cons c rest =>
    have hroom := lt_of_left_out left.symm
    have hsize := c.utf8Size_le_four
    omega

end Fitting

section Boundary

variable (text : String) (n : Nat)

theorem lastBoundary_le : lastBoundary text n ≤ n := by
  induction n with
  | zero => exact Nat.le_refl 0
  | succ n ih =>
    unfold lastBoundary
    split
    next => exact Nat.le_refl _
    next => exact Nat.le_succ_of_le ih

theorem isValid_lastBoundary : (⟨lastBoundary text n⟩ : String.Pos.Raw).IsValid text := by
  induction n with
  | zero => exact String.Pos.Raw.isValid_zero
  | succ n ih =>
    unfold lastBoundary
    split
    next valid => exact valid
    next => exact ih

variable {text n}

theorem le_lastBoundary {m : Nat} (valid : (⟨m⟩ : String.Pos.Raw).IsValid text) (le : m ≤ n) :
    m ≤ lastBoundary text n := by
  induction n with
  | zero => exact le
  | succ n ih =>
    unfold lastBoundary
    split
    next => exact le
    next cut =>
      have hne : m ≠ n + 1 := fun same => cut (same ▸ valid)
      exact ih (by omega)

theorem isValid_ofList_iff {m : Nat} {cs : List Char} :
    (⟨m⟩ : String.Pos.Raw).IsValid (String.ofList cs) ↔ ∃ front, front <+: cs ∧ utf8Len front = m := by
  rw [String.Pos.Raw.isValid_ofList]
  constructor
  · rintro ⟨i, hi⟩
    exact ⟨cs.take i, List.take_prefix i cs, by rw [← String.utf8ByteSize_ofList, ← hi]⟩
  · rintro ⟨front, start, rfl⟩
    refine ⟨front.length, ?_⟩
    rw [← List.prefix_iff_eq_take.mp start, String.utf8ByteSize_ofList]

/-- The search for a boundary ends behind the characters that fit. -/
theorem lastBoundary_ofList (room : Nat) (cs : List Char) :
    lastBoundary (String.ofList cs) (min (utf8Len cs) room) = utf8Len (fitChars room cs) := by
  have hlow := lastBoundary_le (String.ofList cs) (min (utf8Len cs) room)
  apply Nat.le_antisymm
  · obtain ⟨front, start, hfront⟩ := isValid_ofList_iff.mp
      (isValid_lastBoundary (String.ofList cs) (min (utf8Len cs) room))
    rw [← hfront] at hlow ⊢
    exact String.utf8Len_le_of_prefix (start_fitChars start (by omega))
  · have start := fitChars_start room cs
    have hroom := utf8Len_fitChars_le room cs
    have hlen := String.utf8Len_le_of_prefix start
    exact le_lastBoundary (isValid_ofList_iff.mpr ⟨_, start, rfl⟩) (by omega)

end Boundary

namespace Identification

theorem nameBytes_eq (text : String) :
    nameBytes text = (fitChars 32 text.toList).flatMap String.utf8EncodeChar := by
  obtain ⟨cs, rfl⟩ := text.exists_eq_ofList
  obtain ⟨lost, hsplit⟩ := fitChars_start 32 cs
  have hbytes : (String.ofList cs).toUTF8.data.toList =
      (fitChars 32 cs).flatMap String.utf8EncodeChar ++ lost.flatMap String.utf8EncodeChar := by
    rw [String.toUTF8_eq_toByteArray, data_toByteArray_ofList, ← List.flatMap_append, hsplit]
  rw [nameBytes, String.utf8ByteSize_ofList, lastBoundary_ofList, ← length_utf8, hbytes,
    List.take_left, String.toList_ofList]

theorem toList_name_ofName (did : Did) (version : UInt16) (text : String) (magicNumber : UInt32) :
    (ofName did version text magicNumber).name.toList =
      nameBytes text ++ List.replicate (32 - (nameBytes text).length) 0 := by
  apply toList_fitBytes
  rw [nameBytes_eq, length_utf8]
  exact utf8Len_fitChars_le 32 text.toList

/-- Behind a name, zeros fill the field, so its first zero byte is that of a character or ends it. -/
theorem takeWhile_name_ofName (did : Did) (version : UInt16) (text : String)
    (magicNumber : UInt32) :
    (ofName did version text magicNumber).name.toList.takeWhile (· ≠ 0) =
      ((fitChars 32 text.toList).takeWhile (· ≠ '\x00')).flatMap String.utf8EncodeChar := by
  rw [toList_name_ofName, takeWhile_append_zeros, nameBytes_eq, takeWhile_utf8]

/-- A device keeps of its name the longest start that takes at most 32 bytes and cuts no character.
The search for the last boundary finds its end, which loses three bytes at most, and zeros fill
what is left of the field. The name is read back as that start up to its first zero character, and
never as a text that is no UTF-8. -/
theorem name_keeps_longest_start (did : Did) (version : UInt16) (text : String)
    (magicNumber : UInt32) :
    let i := ofName did version text magicNumber
    ∃ kept lost : String, text = kept ++ lost ∧
      kept.utf8ByteSize ≤ 32 ∧
      (∀ front rest : String, text = front ++ rest → front.utf8ByteSize ≤ 32 →
        ∃ more, kept = front ++ more) ∧
      lastBoundary text (min text.utf8ByteSize 32) = kept.utf8ByteSize ∧
      min text.utf8ByteSize 32 ≤ kept.utf8ByteSize + 3 ∧
      i.name.toList =
        kept.toUTF8.data.toList ++ List.replicate (32 - kept.utf8ByteSize) 0 ∧
      i.nameText = String.ofList (kept.toList.takeWhile (· ≠ '\x00')) ∧
      String.fromUTF8? ⟨(i.name.toList.takeWhile (· ≠ 0)).toArray⟩ = some i.nameText := by
  intro i
  obtain ⟨cs, rfl⟩ := text.exists_eq_ofList
  obtain ⟨lost, hsplit⟩ := fitChars_start 32 cs
  have hstored : String.fromUTF8? ⟨(i.name.toList.takeWhile (· ≠ 0)).toArray⟩ =
      some (String.ofList ((fitChars 32 cs).takeWhile (· ≠ '\x00'))) := by
    rw [takeWhile_name_ofName, fromUTF8?_utf8, String.toList_ofList]
  have hname : i.nameText = String.ofList ((fitChars 32 cs).takeWhile (· ≠ '\x00')) := by
    rw [nameText, hstored, Option.getD_some]
  refine ⟨String.ofList (fitChars 32 cs), String.ofList lost, ?_, ?_, ?_, ?_, ?_, ?_, ?_, ?_⟩
  · rw [← String.ofList_append, hsplit]
  · rw [String.utf8ByteSize_ofList]
    exact utf8Len_fitChars_le 32 cs
  · intro front rest htext fits
    obtain ⟨front, rfl⟩ := front.exists_eq_ofList
    obtain ⟨rest, rfl⟩ := rest.exists_eq_ofList
    rw [← String.ofList_append, String.ofList_inj] at htext
    rw [String.utf8ByteSize_ofList] at fits
    obtain ⟨more, hmore⟩ := start_fitChars ⟨rest, htext.symm⟩ fits
    exact ⟨String.ofList more, by rw [← String.ofList_append, hmore]⟩
  · rw [String.utf8ByteSize_ofList, String.utf8ByteSize_ofList, lastBoundary_ofList]
  · rw [String.utf8ByteSize_ofList, String.utf8ByteSize_ofList]
    exact min_le_utf8Len_fitChars
  · rw [toList_name_ofName, nameBytes_eq, length_utf8, String.toList_ofList,
      String.toUTF8_eq_toByteArray, data_toByteArray_ofList, String.utf8ByteSize_ofList]
  · rw [hname, String.toList_ofList]
  · rw [hstored, hname]

example :
    (ofName (.ofParts 1 2) 1 ("a" ++ String.ofList (List.replicate 20 'é')) 0).nameText =
      "a" ++ String.ofList (List.replicate 15 'é') := by
  decide +kernel

end Identification

end Fieldbus
