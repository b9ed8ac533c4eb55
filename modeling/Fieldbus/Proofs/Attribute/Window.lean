import Fieldbus.Proofs.Attribute
import Fieldbus.Proofs.Frame.Stored
import Mathlib.Algebra.Ring.Nat

namespace Fieldbus

section Bytes

variable {offset size i : Nat} {patch bytes : List UInt8}

theorem byteSpan_eq (width : Nat) : byteSpan width = 2 ^ (8 * width) := by
  induction width with
  | zero => rfl
  | succ width ih => rw [byteSpan, ih, Nat.mul_succ, Nat.pow_add, Nat.mul_comm]

theorem length_window (h : offset + size ≤ bytes.length) :
    (window offset size bytes).length = size := by
  simp only [window, List.length_take, List.length_drop]
  omega

/-- Windows that lie side by side are read as one. -/
theorem window_append_window (offset first second : Nat) (bytes : List UInt8) :
    window offset first bytes ++ window (offset + first) second bytes =
      window offset (first + second) bytes := by
  rw [window, window, window, List.take_add, List.drop_drop]

theorem overwrite_overwrite {first second : List UInt8} (same : first.length = second.length)
    (h : offset + first.length ≤ bytes.length) :
    overwrite offset second (overwrite offset first bytes) = overwrite offset second bytes := by
  have htake : (bytes.take offset).length = offset := by
    rw [List.length_take]
    omega
  have hold : overwrite offset first bytes =
      bytes.take offset ++ (first ++ bytes.drop (offset + first.length)) := by
    rw [overwrite, List.append_assoc]
  rw [hold, overwrite_append htake same.symm, overwrite, same, List.append_assoc]

theorem getElem?_overwrite (outside : i < offset ∨ offset + patch.length ≤ i)
    (h : offset + patch.length ≤ bytes.length) :
    (overwrite offset patch bytes)[i]? = bytes[i]? := by
  have htake : (bytes.take offset).length = offset := by
    rw [List.length_take]
    omega
  rw [overwrite, List.append_assoc]
  rcases outside with before | behind
  · rw [List.getElem?_append_left (by omega), List.getElem?_take_of_lt before]
  · rw [List.getElem?_append_right (by omega), List.getElem?_append_right (by omega),
      List.getElem?_drop]
    congr 1
    omega

/-- The bytes of a window come back from the number they stand for. -/
theorem leBytes_window (h : offset + size ≤ bytes.length) :
    leBytes size (ofLeBytes (window offset size bytes) % 2 ^ (8 * size)) =
      window offset size bytes := by
  have hlt := ofLeBytes_lt (window offset size bytes)
  have hbytes := leBytes_ofLeBytes (window offset size bytes)
  rw [length_window h] at hlt hbytes
  rw [byteSpan_eq] at hlt
  rw [Nat.mod_eq_of_lt hlt, hbytes]

theorem leBytes_word32 (h : offset + 4 ≤ bytes.length) :
    leBytes 4 (word32 offset bytes).toNat = window offset 4 bytes := by
  rw [word32, UInt32.toNat_ofNat']
  exact leBytes_window h

theorem leBytes_word16 (h : offset + 2 ≤ bytes.length) :
    leBytes 2 (word16 offset bytes).toNat = window offset 2 bytes := by
  rw [word16, UInt16.toNat_ofNat']
  exact leBytes_window h

theorem leBytes_word8 (h : offset + 1 ≤ bytes.length) :
    leBytes 1 (word8 offset bytes).toNat = window offset 1 bytes := by
  rw [word8, UInt8.toNat_ofNat']
  exact leBytes_window h

theorem toList_fitBytes_window (h : offset + size ≤ bytes.length) :
    (fitBytes size (window offset size bytes)).toList = window offset size bytes := by
  have hlength := length_window h
  rw [toList_fitBytes (by omega), hlength, Nat.sub_self, List.replicate_zero, List.append_nil]

end Bytes

namespace Identification

theorem length_toBytes (i : Identification) : i.toBytes.length = Section.identification.size := by
  simp [toBytes, Section.size, Section.fields, Field.totalSize]

end Identification

namespace SystemStatus

theorem length_toBytes (s : SystemStatus) : s.toBytes.length = Section.system.size := by
  simp [toBytes, Section.size, Section.fields, Field.totalSize]

variable (s : SystemStatus)

theorem toBytes_uptimeSynced (uptimeSynced : UInt32) :
    ({ s with uptimeSynced } : SystemStatus).toBytes =
      overwrite 0 (leBytes 4 uptimeSynced.toNat) s.toBytes := by
  have hpatch (after : List UInt8) :
      overwrite 0 (leBytes 4 uptimeSynced.toNat) (leBytes 4 s.uptimeSynced.toNat ++ after) =
        leBytes 4 uptimeSynced.toNat ++ after :=
    overwrite_append (show ([] : List UInt8).length = 0 from rfl)
      ((length_leBytes ..).trans (length_leBytes ..).symm) after
  simp only [toBytes, List.append_assoc, hpatch]

theorem toBytes_startTime (startTime : UInt32) :
    ({ s with startTime } : SystemStatus).toBytes =
      overwrite 12 (leBytes 4 startTime.toNat) s.toBytes := by
  let before := leBytes 4 s.uptimeSynced.toNat ++ (leBytes 4 s.time.toNat ++
    leBytes 4 s.uptime.toNat)
  have hpatch (after : List UInt8) :
      overwrite 12 (leBytes 4 startTime.toNat)
          (before ++ (leBytes 4 s.startTime.toNat ++ after)) =
        before ++ (leBytes 4 startTime.toNat ++ after) :=
    overwrite_append (by simp [before]) (by simp) after
  simp only [before, List.append_assoc] at hpatch
  simp only [toBytes, List.append_assoc, hpatch]

end SystemStatus

namespace Config

theorem length_toBytes (c : Config) : c.toBytes.length = Section.config.size := by
  simp [toBytes, Section.size, Section.fields, Field.totalSize]

/-- Every 51 bytes are the bytes of some settings. -/
theorem toBytes_ofBytes {bytes : List UInt8} (h : bytes.length = Section.config.size) :
    (ofBytes bytes).toBytes = bytes := by
  have hsize : bytes.length = 51 := h
  have hwhole : window 0 51 bytes = bytes := by
    rw [window, List.drop_zero, List.take_of_length_le (by omega)]
  rw [toBytes, ofBytes, UInt32.toUInt32_toInt32, leBytes_word32 (by omega),
    leBytes_word32 (by omega), leBytes_word16 (by omega), leBytes_word16 (by omega),
    leBytes_word16 (by omega), leBytes_word8 (by omega), toList_fitBytes_window (by omega),
    toList_fitBytes_window (by omega), toList_fitBytes_window (by omega)]
  calc _ = window 0 51 bytes := by simp only [window_append_window 0]
    _ = bytes := hwhole

end Config

namespace Field

variable {fields : List Field} {f : Field} {i j n : Nat}

theorem totalSize_take_succ (h : fields[i]? = some f) :
    totalSize (fields.take (i + 1)) = totalSize (fields.take i) + f.size := by
  induction fields generalizing i with
  | nil => simp at h
  | cons g rest ih =>
    cases i with
    | zero =>
      cases Option.some.inj h
      simp [totalSize]
    | succ i =>
      have hrest := ih (i := i) (by simpa using h)
      simp only [List.take_succ_cons, totalSize, hrest]
      omega

theorem totalSize_take_le (fields : List Field) (h : i ≤ j) :
    totalSize (fields.take i) ≤ totalSize (fields.take j) := by
  induction fields generalizing i j with
  | nil => simp
  | cons g rest ih =>
    cases i with
    | zero => exact Nat.zero_le _
    | succ i =>
      cases j with
      | zero => omega
      | succ j =>
        have hrest := ih (i := i) (j := j) (by omega)
        simp only [List.take_succ_cons, totalSize]
        omega

/-- Every byte belongs to a field. -/
theorem exists_of_lt_totalSize (h : n < totalSize fields) :
    ∃ i f, fields[i]? = some f ∧ totalSize (fields.take i) ≤ n ∧
      n < totalSize (fields.take i) + f.size := by
  induction fields generalizing n with
  | nil => simp [totalSize] at h
  | cons g rest ih =>
    rw [totalSize] at h
    by_cases hfirst : n < g.size
    · exact ⟨0, g, rfl, Nat.zero_le n, by simpa [totalSize] using hfirst⟩
    · obtain ⟨i, f, hf, hlow, hhigh⟩ := ih (n := n - g.size) (by omega)
      refine ⟨i + 1, f, by simpa using hf, ?_, ?_⟩ <;>
      · rw [List.take_succ_cons, totalSize]
        omega

end Field

namespace Section

variable {s : Section} {f : Field} {i j : Nat}

/-- A field ends before any later one starts. -/
theorem stop_le_offset (h : s.fields[i]? = some f) (later : i < j) :
    s.offset i + f.size ≤ s.offset j := by
  have hstop := Field.totalSize_take_succ h
  have hle := Field.totalSize_take_le s.fields (show i + 1 ≤ j from later)
  unfold offset
  omega

theorem stop_le_size (h : s.fields[i]? = some f) : s.offset i + f.size ≤ s.size := by
  have hlt : i < s.fields.length := (List.getElem?_eq_some_iff.mp h).1
  have hsize : s.offset s.fields.length = s.size := by rw [offset, List.take_length, size]
  exact hsize ▸ stop_le_offset h hlt

theorem length_fields_le (s : Section) : s.fields.length ≤ 16 := by
  cases s <;> decide

theorem size_le_of_mem (h : f ∈ s.fields) : f.size ≤ 32 := by
  revert f
  cases s <;> decide

theorem ofCode?_code (s : Section) : ofCode? s.code = some s := by cases s <;> rfl

theorem code_lt (s : Section) : s.code < 16 := by cases s <;> decide

end Section

namespace Window

variable {w : Window} {bytes : List UInt8} {i : Nat}

/-- A byte of a section that lies in the window. -/
def Covers (w : Window) (s : Section) (i : Nat) : Prop :=
  w.target = s ∧ w.offset ≤ i ∧ i < w.stop

theorem outside_of_not_covers {s : Section} (h : ¬ w.Covers s i) (target : w.target = s) :
    i < w.offset ∨ w.stop ≤ i := by
  simp only [Covers, target, true_and] at h
  omega

theorem fits (inside : w.stop ≤ bytes.length) (value : UInt32) :
    w.offset + (leBytes w.size value.toNat).length ≤ bytes.length := by
  rw [length_leBytes]
  exact inside

theorem length_write (inside : w.stop ≤ bytes.length) (value : UInt32) :
    (w.write bytes value).length = bytes.length :=
  length_overwrite (fits inside value)

/-- A window gives back the low bytes of what was put into it. -/
theorem read_write (inside : w.stop ≤ bytes.length) (value : UInt32) :
    w.read (w.write bytes value) = .ofNat (value.toNat % 2 ^ (8 * w.size)) := by
  have hwindow := window_overwrite (fits inside value)
  rw [length_leBytes] at hwindow
  rw [read, write, hwindow, ofLeBytes_leBytes, byteSpan_eq]

theorem write_write (inside : w.stop ≤ bytes.length) (value later : UInt32) :
    w.write (w.write bytes value) later = w.write bytes later :=
  overwrite_overwrite (by simp) (fits inside value)

theorem getElem?_write (inside : w.stop ≤ bytes.length) (outside : i < w.offset ∨ w.stop ≤ i)
    (value : UInt32) : (w.write bytes value)[i]? = bytes[i]? :=
  getElem?_overwrite (by rwa [length_leBytes]) (fits inside value)

end Window

namespace Key

variable {k j : Key} {s : Section} {f : Field} {w v : Window}

theorem resolve_of_field (hs : s.code = k.sectionCode) (hf : s.fields[k.fieldIndex]? = some f)
    (hp : partSize * k.part < f.size) :
    k.resolve = .ok ⟨s, s.offset k.fieldIndex + partSize * k.part,
      min (f.size - partSize * k.part) partSize, f.readOnly⟩ := by
  have hcode : Section.ofCode? k.sectionCode = some s := hs ▸ s.ofCode?_code
  simp [resolve, field?, hcode, hf, bind, Except.bind, Nat.not_le.mpr hp, pure, Except.pure]

theorem resolve_ne_unknownSection (h : k.isStandard = true) :
    k.resolve ≠ .error .unknownSection := by
  obtain ⟨s, hs⟩ := Option.isSome_iff_exists.mp h
  intro hfault
  unfold resolve field? at hfault
  rw [hs] at hfault
  cases hf : s.fields[k.fieldIndex]? with
  | none => simp [hf, bind, Except.bind] at hfault
  | some f =>
    by_cases hp : f.size ≤ partSize * k.part <;>
    simp [hf, hp, bind, Except.bind, throw, throwThe, MonadExceptOf.throw, pure, Except.pure]
      at hfault

theorem size_of_resolve (h : k.resolve = .ok w) : 1 ≤ w.size ∧ w.size ≤ partSize := by
  obtain ⟨s, f, _, _, hp, rfl⟩ := resolve_eq_ok h
  simp only [partSize] at hp ⊢
  omega

theorem stop_le_size (h : k.resolve = .ok w) : w.stop ≤ w.target.size := by
  obtain ⟨s, f, _, hf, hp, rfl⟩ := resolve_eq_ok h
  have hle := Section.stop_le_size hf
  simp only [Window.stop, partSize] at hp ⊢
  omega

/-- Two keys of a section share no byte. -/
theorem disjoint_of_ne (h : k.resolve = .ok w) (hj : j.resolve = .ok v) (ne : k ≠ j)
    (same : w.target = v.target) : w.stop ≤ v.offset ∨ v.stop ≤ w.offset := by
  obtain ⟨s, f, hs, hf, hp, rfl⟩ := resolve_eq_ok h
  obtain ⟨t, g, ht, hg, hq, rfl⟩ := resolve_eq_ok hj
  obtain rfl : s = t := same
  simp only [Window.stop, partSize] at hp hq ⊢
  rcases Nat.lt_trichotomy k.fieldIndex j.fieldIndex with hlt | heq | hgt
  · have hle := Section.stop_le_offset hf hlt
    omega
  · -- Two parts of one field.
    rw [heq] at hf ⊢
    cases Option.some.inj (hf.symm.trans hg)
    have hpart : k.part ≠ j.part := fun hp => ne (ext_parts (hs.symm.trans ht) heq hp)
    omega
  · have hle := Section.stop_le_offset hg hgt
    omega

theorem toNat_raw_ofParts {c i p : Nat} (hc : c < 16) (hi : i < 256) (hp : p < 16) :
    (ofParts c i p).raw.toNat = 4096 * c + 16 * i + p := by
  rw [ofParts, UInt16.toNat_ofNat']
  omega

/-- Every byte of a section can be reached by a key. -/
theorem exists_covers {i : Nat} (h : i < s.size) :
    ∃ (k : Key) (w : Window), k.resolve = .ok w ∧ w.Covers s i := by
  obtain ⟨index, f, hf, hlow, hhigh⟩ := Field.exists_of_lt_totalSize h
  change s.offset index ≤ i at hlow
  change i < s.offset index + f.size at hhigh
  have hindex : index < s.fields.length := (List.getElem?_eq_some_iff.mp hf).1
  have hlength := s.length_fields_le
  have hsize := Section.size_le_of_mem (List.mem_of_getElem? hf)
  -- The part of the field that the byte falls into; the sizes keep it within four bits.
  obtain ⟨part, hpart⟩ : ∃ part, part = (i - s.offset index) / partSize := ⟨_, rfl⟩
  simp only [partSize] at hpart
  have hraw := toNat_raw_ofParts (p := part) s.code_lt (show index < 256 by omega) (by omega)
  have hs : s.code = (ofParts s.code index part).sectionCode := by
    simp only [sectionCode, hraw]
    omega
  have hi : (ofParts s.code index part).fieldIndex = index := by
    simp only [fieldIndex, hraw]
    omega
  have hp : (ofParts s.code index part).part = part := by
    simp only [Key.part, hraw]
    omega
  have hresolve := resolve_of_field hs (by rwa [hi]) (by simp only [hp, partSize]; omega)
  rw [hi, hp] at hresolve
  refine ⟨_, _, hresolve, rfl, ?_, ?_⟩ <;>
  · simp only [Window.stop, partSize]
    omega

end Key

/-- The windows of the keys cut the section into pieces. -/
structure Section.Tiled (s : Section) : Prop where
  inside {k : Key} {w : Window} (resolves : k.resolve = .ok w) (target : w.target = s) :
    1 ≤ w.size ∧ w.size ≤ 4 ∧ w.stop ≤ s.size
  disjoint {k j : Key} {w v : Window} (resolves : k.resolve = .ok w) (other : j.resolve = .ok v)
    (ne : k ≠ j) (target : w.target = s) (same : v.target = s) :
    w.stop ≤ v.offset ∨ v.stop ≤ w.offset
  covered {i : Nat} (h : i < s.size) : ∃ (k : Key) (w : Window), k.resolve = .ok w ∧ w.Covers s i

theorem Section.tiled (s : Section) : s.Tiled where
  inside resolves target :=
    have hsize := Key.size_of_resolve resolves
    ⟨hsize.1, hsize.2, target ▸ Key.stop_le_size resolves⟩
  disjoint resolves other ne target same :=
    Key.disjoint_of_ne resolves other ne (target.trans same.symm)
  covered := Key.exists_covers

end Fieldbus
