import Fieldbus.Proofs.Text.Hex
import Fieldbus.Report

namespace Fieldbus

/-- Some tags `0x`, one behind the other. -/
def hexTags (n : Nat) : List Char := (List.replicate n ['0', 'x']).flatten

/-- A typed hexadecimal text: blanks, tags, and a body of digits and separators. -/
structure TypedHex (cs body : List Char) : Prop where
  shape : ∃ blanks tags, cs = blanks ++ (hexTags tags ++ body) ∧ ∀ c ∈ blanks, isBlank c
  digits : ∀ c ∈ body, Hex.IsDigit c ∨ isHexSeparator c

section Characters

variable {c : Char}

/-- No blank lies among the characters from the exclamation mark to the tilde. -/
theorem isBlank_range (h : isBlank c) : c.toNat ≤ 32 ∨ 127 < c.toNat := by
  simp only [isBlank, blankRanges, List.any_cons, List.any_nil, Bool.or_eq_true,
    Bool.and_eq_true, decide_eq_true_eq, Bool.or_false] at h
  omega

theorem Hex.IsDigit.range (h : Hex.IsDigit c) :
    48 ≤ c.toNat ∧ c.toNat ≤ 102 ∧ c.toNat ≠ 58 := by
  simp only [Hex.IsDigit, Char.le_def, UInt32.le_iff_toNat_le, Char.toNat_val] at h
  have h0 : '0'.toNat = 48 := rfl
  have h9 : '9'.toNat = 57 := rfl
  have hA : 'A'.toNat = 65 := rfl
  have hF : 'F'.toNat = 70 := rfl
  have ha : 'a'.toNat = 97 := rfl
  have hf : 'f'.toNat = 102 := rfl
  omega

theorem not_blank_of_digit (h : Hex.IsDigit c) : ¬isBlank c := fun hblank => by
  have hdigit := h.range
  have hrange := isBlank_range hblank
  omega

theorem not_separator_of_digit (h : Hex.IsDigit c) : ¬isHexSeparator c := fun hsep => by
  rw [isHexSeparator, Bool.or_eq_true, decide_eq_true_eq] at hsep
  rcases hsep with rfl | hblank
  · exact h.range.2.2 rfl
  · exact not_blank_of_digit h hblank

theorem digitValue?_separator (h : isHexSeparator c) : Hex.digitValue? c = none := by
  rw [← Option.not_isSome_iff_eq_none, Hex.digitValue?_isSome_iff]
  exact fun digit => not_separator_of_digit digit h

end Characters

section Tags

theorem dropHexTags_tags (n : Nat) (rest : List Char) :
    dropHexTags (hexTags n ++ rest) = dropHexTags rest := by
  induction n with
  | zero => rfl
  | succ n ih => exact ih

theorem exists_hexTags (cs : List Char) : ∃ n, cs = hexTags n ++ dropHexTags cs := by
  induction cs using dropHexTags.induct with
  | case1 rest ih =>
    obtain ⟨n, hn⟩ := ih
    exact ⟨n + 1, congrArg ('0' :: 'x' :: ·) hn⟩
  | case2 cs other => exact ⟨0, (dropHexTags.eq_2 cs other).symm⟩

/-- A text without the letter of a tag has no tags. -/
theorem dropHexTags_of_notMem {cs : List Char} (h : 'x' ∉ cs) : dropHexTags cs = cs := by
  induction cs using dropHexTags.induct with
  | case1 rest => simp at h
  | case2 cs other => exact dropHexTags.eq_2 cs other

/-- Blanks behind a text do not complete a tag. -/
theorem dropHexTags_append {cs blanks : List Char} (h : ∀ c ∈ blanks, isBlank c) :
    dropHexTags (cs ++ blanks) = dropHexTags cs ++ blanks := by
  induction cs using dropHexTags.induct with
  | case1 rest ih => exact ih
  | case2 cs other =>
    rw [dropHexTags.eq_2 cs other, dropHexTags.eq_2]
    intro rest same
    match cs, same with
    | [], same =>
      have hrange := isBlank_range (h '0' (by rw [show blanks = _ from same]; simp))
      simp at hrange
    | [c], same =>
      obtain ⟨rfl, hrest⟩ := List.cons.inj same
      have hrange := isBlank_range (h 'x' (by rw [show blanks = _ from hrest]; simp))
      simp at hrange
    | c :: d :: cs, same =>
      obtain ⟨rfl, hrest⟩ := List.cons.inj same
      obtain ⟨rfl, _⟩ := List.cons.inj hrest
      exact other cs rfl

end Tags

theorem exists_trimBlanks (cs : List Char) :
    ∃ blanks, cs.dropWhile isBlank = trimBlanks cs ++ blanks ∧ ∀ c ∈ blanks, isBlank c := by
  let rest := (cs.dropWhile isBlank).reverse
  refine ⟨(rest.takeWhile isBlank).reverse, ?_, fun c hc => ?_⟩
  · rw [trimBlanks, ← List.reverse_append, List.takeWhile_append_dropWhile, List.reverse_reverse]
  · exact List.all_eq_true.mp List.all_takeWhile c (List.mem_reverse.mp hc)

/-- What stands behind the blanks and the tags that a text starts with. -/
def hexBody (cs : List Char) : List Char := dropHexTags (cs.dropWhile isBlank)

theorem typedBytes?_eq (cs : List Char) :
    typedBytes? cs = Hex.bytes? ((hexBody cs).filter fun c => !isHexSeparator c) := by
  obtain ⟨blanks, hrest, hblank⟩ := exists_trimBlanks cs
  have hnone : blanks.filter (fun c => !isHexSeparator c) = [] := by
    simpa [isHexSeparator] using fun c hc _ => hblank c hc
  rw [typedBytes?, hexBody, hrest, dropHexTags_append hblank, List.filter_append, hnone,
    List.append_nil]

namespace TypedHex

variable {cs body : List Char}

theorem of_body (digits : ∀ c ∈ hexBody cs, Hex.IsDigit c ∨ isHexSeparator c) :
    TypedHex cs (hexBody cs) := by
  obtain ⟨tags, htags⟩ := exists_hexTags (cs.dropWhile isBlank)
  refine ⟨⟨cs.takeWhile isBlank, tags, ?_, ?_⟩, digits⟩
  · rw [hexBody, ← htags, List.takeWhile_append_dropWhile]
  · exact List.all_eq_true.mp List.all_takeWhile

theorem notMem (h : TypedHex cs body) : 'x' ∉ body := fun hx => by
  rcases h.digits _ hx with digit | separator
  · exact absurd digit (by decide)
  · exact absurd separator (by decide)

/-- But for blanks in front of it, the body of a typed text is known. -/
theorem exists_body (h : TypedHex cs body) :
    ∃ blanks, body = blanks ++ hexBody cs ∧ ∀ c ∈ blanks, isBlank c := by
  obtain ⟨blanks, tags, rfl, hblank⟩ := h.shape
  rw [hexBody, List.dropWhile_append_of_pos hblank]
  -- Without tags, blanks that the body starts with are skipped together with those before it.
  cases tags with
  | zero =>
    have hx : 'x' ∉ body.dropWhile isBlank := fun hx =>
      h.notMem ((List.dropWhile_sublist _).subset hx)
    refine ⟨body.takeWhile isBlank, ?_, List.all_eq_true.mp List.all_takeWhile⟩
    rw [show hexTags 0 ++ body = body from rfl, dropHexTags_of_notMem hx,
      List.takeWhile_append_dropWhile]
  | succ n =>
    have hstart : (hexTags (n + 1) ++ body).dropWhile isBlank = hexTags (n + 1) ++ body := rfl
    refine ⟨[], ?_, nofun⟩
    rw [hstart, dropHexTags_tags, dropHexTags_of_notMem h.notMem, List.nil_append]

end TypedHex

/-- Leaving out the separators leaves the values of digits. -/
theorem map_filter_eq_iff {cs : List Char} {values : List Nat} :
    (cs.filter fun c => !isHexSeparator c).map Hex.digitValue? = values.map some ↔
      (∀ c ∈ cs, Hex.IsDigit c ∨ isHexSeparator c) ∧ cs.filterMap Hex.digitValue? = values := by
  have hvalues : (cs.filter fun c => !isHexSeparator c).filterMap Hex.digitValue? =
      cs.filterMap Hex.digitValue? := by
    rw [List.filterMap_filter]
    refine congrArg (cs.filterMap ·) (funext fun c => ?_)
    cases separator : isHexSeparator c with
    | false => rfl
    | true => exact (digitValue?_separator separator).symm
  rw [Hex.map_digitValue?_eq_iff, hvalues]
  refine and_congr_left fun _ => forall_congr' fun c => ?_
  rw [List.mem_filter, and_imp]
  refine forall_congr' fun _ => ?_
  cases isHexSeparator c <;> simp

theorem typedBytes?_eq_some_iff {cs : List Char} {bytes : List UInt8} :
    typedBytes? cs = some bytes ↔
      ∃ body, TypedHex cs body ∧ body.filterMap Hex.digitValue? = bytes.flatMap Hex.nibbles := by
  rw [typedBytes?_eq, Hex.bytes?_eq_some_iff, map_filter_eq_iff]
  constructor
  · rintro ⟨digits, values⟩
    exact ⟨_, .of_body digits, values⟩
  · rintro ⟨body, typed, values⟩
    obtain ⟨blanks, rfl, hblank⟩ := typed.exists_body
    have hnone : blanks.filterMap Hex.digitValue? = [] :=
      List.filterMap_eq_nil_iff.mpr fun c hc =>
        digitValue?_separator (by simp [isHexSeparator, hblank c hc])
    rw [List.filterMap_append, hnone, List.nil_append] at values
    exact ⟨fun c hc => typed.digits c (List.mem_append_right _ hc), values⟩

theorem readBytes_eq_ok_iff {text : String} {bytes : List UInt8} :
    readBytes text = .ok bytes ↔ ∃ body, TypedHex text.toList body ∧
      body.filterMap Hex.digitValue? = bytes.flatMap Hex.nibbles := by
  rw [← typedBytes?_eq_some_iff, readBytes]
  cases typedBytes? text.toList <;> simp

theorem exists_readBytes_iff {text : String} :
    (∃ bytes, readBytes text = .ok bytes) ↔
      ∃ body, TypedHex text.toList body ∧ (body.filterMap Hex.digitValue?).length % 2 = 0 := by
  constructor
  · rintro ⟨bytes, read⟩
    obtain ⟨body, typed, values⟩ := readBytes_eq_ok_iff.mp read
    refine ⟨body, typed, ?_⟩
    rw [values, Hex.length_flatMap_nibbles]
    exact Nat.mul_mod_right 2 _
  · rintro ⟨body, typed, even⟩
    obtain ⟨bytes, values⟩ := Hex.exists_flatMap_nibbles even (Hex.values_lt body)
    exact ⟨bytes, readBytes_eq_ok_iff.mpr ⟨body, typed, values⟩⟩

theorem error_readBytes {text : String} {e : InputError} (h : readBytes text = .error e) :
    e = .invalidHex text := by
  unfold readBytes at h
  split at h
  next => cases h
  next => exact (Except.error.inj h).symm

/-- Printed digits of either case can be typed with separators among them, tagged or not. -/
theorem readBytes_printed {body : List Char} {bytes : List UInt8} {f : Char → Char}
    (keeps : Hex.KeepsDigits f)
    (printed : (body.filter fun c => !isHexSeparator c) = (Hex.ofBytes bytes).map f) :
    readBytes (String.ofList body) = .ok bytes ∧
      readBytes ("0x" ++ String.ofList body) = .ok bytes := by
  have hmap := Hex.map_digitValue?_ofBytes keeps bytes
  rw [← printed] at hmap
  obtain ⟨digits, values⟩ := map_filter_eq_iff.mp hmap
  have htyped (tags : Nat) : TypedHex (hexTags tags ++ body) body :=
    ⟨⟨[], tags, rfl, nofun⟩, digits⟩
  refine ⟨readBytes_eq_ok_iff.mpr ⟨body, ?_, values⟩, readBytes_eq_ok_iff.mpr ⟨body, ?_, values⟩⟩
  · rw [String.toList_ofList]
    exact htyped 0
  · rw [String.toList_append, String.toList_ofList, String.toList_ofList]
    exact htyped 1

theorem readBytes_ofBytes {f : Char → Char} (keeps : Hex.KeepsDigits f) (bytes : List UInt8) :
    readBytes (String.ofList ((Hex.ofBytes bytes).map f)) = .ok bytes := by
  refine (readBytes_printed keeps (List.filter_eq_self.mpr fun c hc => ?_)).1
  have hdigit := not_separator_of_digit (Hex.isDigit_ofBytes keeps bytes c hc)
  simpa using hdigit

/-- Bytes that are printed can be typed as they stand. -/
theorem readBytes_text (bytes : List UInt8) : readBytes (Hex.text bytes) = .ok bytes := by
  have h := readBytes_ofBytes Hex.keepsDigits_id bytes
  rwa [List.map_id] at h

theorem readBytes_upperText (bytes : List UInt8) : readBytes (Hex.upperText bytes) = .ok bytes :=
  readBytes_ofBytes Hex.keepsDigits_toUpper bytes

/-- A typed text is read exactly if it is blanks, tags and then an even number of digits with
separators anywhere among them, as the bytes that have these digits. Any other text is refused as it
was typed. Bytes are read back from their digits in either case. -/
theorem readBytes_grammar :
    (∀ cs, (∃ bytes, Hex.bytes? cs = some bytes) ↔
      cs.length % 2 = 0 ∧ ∀ c ∈ cs, Hex.IsDigit c) ∧
    (∀ text,
      ((∃ bytes, readBytes text = .ok bytes) ↔
        ∃ body, TypedHex text.toList body ∧ (body.filterMap Hex.digitValue?).length % 2 = 0) ∧
      (∀ bytes, readBytes text = .ok bytes ↔
        ∃ body, TypedHex text.toList body ∧
          body.filterMap Hex.digitValue? = bytes.flatMap Hex.nibbles) ∧
      ∀ e, readBytes text = .error e → e = .invalidHex text) ∧
    ∀ bytes body,
      (body.filter (fun c => !isHexSeparator c) = Hex.ofBytes bytes ∨
        body.filter (fun c => !isHexSeparator c) = (Hex.ofBytes bytes).map Char.toUpper) →
      readBytes (String.ofList body) = .ok bytes ∧
        readBytes ("0x" ++ String.ofList body) = .ok bytes := by
  refine ⟨fun cs => Hex.exists_bytes?_iff,
    fun text => ⟨exists_readBytes_iff, fun bytes => readBytes_eq_ok_iff, fun e => error_readBytes⟩,
    fun bytes body printed => ?_⟩
  rcases printed with lower | upper
  · exact readBytes_printed Hex.keepsDigits_id (lower.trans (List.map_id _).symm)
  · exact readBytes_printed Hex.keepsDigits_toUpper upper

/-- Either separator may stand between the bytes. -/
theorem readBytes_grammar_separators : readBytes "0x01:02 03" = .ok [1, 2, 3] := by
  obtain ⟨_, _, printed⟩ := readBytes_grammar
  exact (printed [1, 2, 3] "01:02 03".toList (.inl (by decide))).2

end Fieldbus
