import Fieldbus.Attribute.Key
import Fieldbus.Proofs.Frame

namespace Fieldbus

theorem window_skip {skipped : List UInt8} {width : Nat} (h : skipped.length = width)
    (offset size : Nat) (rest : List UInt8) :
    window (offset + width) size (skipped ++ rest) = window offset size rest := by
  rw [window, window, ← h, Nat.add_comm, List.drop_length_add_append]

theorem overwrite_append {offset : Nat} {before old patch : List UInt8}
    (hb : before.length = offset) (hp : patch.length = old.length) (after : List UInt8) :
    overwrite offset patch (before ++ (old ++ after)) = before ++ (patch ++ after) := by
  rw [overwrite, ← hb, List.take_left, hp, ← List.append_assoc before old, ← List.length_append,
    List.drop_left, List.append_assoc]

section Words

variable (width offset n : Nat) (rest : List UInt8)

theorem word32_skip : word32 (offset + width) (leBytes width n ++ rest) = word32 offset rest := by
  rw [word32, window_skip (length_leBytes width n), word32]

theorem word16_skip : word16 (offset + width) (leBytes width n ++ rest) = word16 offset rest := by
  rw [word16, window_skip (length_leBytes width n), word16]

theorem word8_skip : word8 (offset + width) (leBytes width n ++ rest) = word8 offset rest := by
  rw [word8, window_skip (length_leBytes width n), word8]

theorem word32_first (n : UInt32) : word32 0 (leBytes 4 n.toNat ++ rest) = n := by
  refine word32_of_window ?_
  simpa using window_append [] (leBytes 4 n.toNat) rest

theorem word16_first (n : UInt16) : word16 0 (leBytes 2 n.toNat ++ rest) = n := by
  refine word16_of_window ?_
  simpa using window_append [] (leBytes 2 n.toNat) rest

theorem word8_last (n : UInt8) : word8 0 (leBytes 1 n.toNat) = n := by
  have hwindow : window 0 1 (leBytes 1 n.toNat) = leBytes 1 n.toNat := by
    simpa using window_append [] (leBytes 1 n.toNat) []
  have hspan : n.toNat % byteSpan 1 = n.toNat :=
    Nat.mod_eq_of_lt (by simpa [byteSpan] using n.toNat_lt)
  rw [word8, hwindow, ofLeBytes_leBytes, hspan, UInt8.ofNat_toNat]

end Words

namespace SystemStatus

theorem ofBytes_toBytes (s : SystemStatus) : ofBytes s.toBytes = s := by
  simp only [ofBytes, toBytes, List.append_assoc, word32_skip 4, word16_skip 4, word16_skip 2,
    word8_skip 4, word8_skip 2, word32_first, word16_first, word8_last]

/-- The time stands behind the four bytes of the uptime that was noted with the last time. -/
theorem toBytes_time (s : SystemStatus) (time : UInt32) :
    ({ s with time } : SystemStatus).toBytes =
      overwrite 4 (leBytes 4 time.toNat) s.toBytes := by
  simp only [toBytes, List.append_assoc]
  exact Eq.symm (overwrite_append (length_leBytes ..) (by simp) _)

theorem ofBytes_overwrite_time (s : SystemStatus) (value : UInt32) :
    ofBytes (overwrite 4 (leBytes 4 value.toNat) s.toBytes) = { s with time := value } := by
  rw [← toBytes_time, ofBytes_toBytes]

end SystemStatus

namespace Section

theorem code_of_ofCode? {n : Nat} {s : Section} (h : ofCode? n = some s) : s.code = n := by
  unfold ofCode? at h
  split at h <;> cases h <;> rfl

theorem readOnly_of_mem_identification {f : Field} (h : f ∈ identification.fields) :
    f.readOnly = true := by
  revert f
  decide

theorem readOnly_of_mem_config {f : Field} (h : f ∈ config.fields) : f.readOnly = false := by
  revert f
  decide

/-- Of the system section only the time can be written. -/
theorem index_of_writable {i : Nat} {f : Field} (h : system.fields[i]? = some f)
    (writable : f.readOnly = false) : i = 1 ∧ f.size = 4 := by
  have hall : ∀ j : Fin 16, system.fields[j].readOnly = false →
      j.val = 1 ∧ system.fields[j].size = 4 := by decide
  obtain ⟨hi, rfl⟩ := List.getElem?_eq_some_iff.mp h
  exact hall ⟨i, hi⟩ writable

end Section

namespace Key

variable {k : Key} {w : Window}

theorem ext_parts {j : Key} (hs : k.sectionCode = j.sectionCode) (hf : k.fieldIndex = j.fieldIndex)
    (hp : k.part = j.part) : k = j := by
  apply Key.ext
  apply UInt16.toNat_inj.mp
  unfold sectionCode at hs
  unfold fieldIndex at hf
  unfold part at hp
  omega

/-- A key that resolves names a field, and a part of it that the field is long enough for. -/
theorem resolve_eq_ok (h : k.resolve = .ok w) :
    ∃ s f, s.code = k.sectionCode ∧ s.fields[k.fieldIndex]? = some f ∧
      partSize * k.part < f.size ∧
      w = ⟨s, s.offset k.fieldIndex + partSize * k.part, min (f.size - partSize * k.part) partSize,
        f.readOnly⟩ := by
  unfold resolve field? at h
  split at h
  next => simp [bind, Except.bind] at h
  next s hs =>
    split at h
    next => simp [bind, Except.bind] at h
    next f hf =>
      by_cases hp : f.size ≤ partSize * k.part
      · simp [bind, Except.bind, hp, throw, throwThe, MonadExceptOf.throw] at h
      · refine ⟨s, f, Section.code_of_ofCode? hs, hf, by omega, ?_⟩
        simpa [bind, Except.bind, hp, pure, Except.pure] using h.symm

theorem readOnly_of_identification (h : k.resolve = .ok w) (target : w.target = .identification) :
    w.readOnly = true := by
  obtain ⟨s, f, _, hf, _, rfl⟩ := resolve_eq_ok h
  cases target
  exact Section.readOnly_of_mem_identification (List.mem_of_getElem? hf)

theorem readOnly_of_config (h : k.resolve = .ok w) (target : w.target = .config) :
    w.readOnly = false := by
  obtain ⟨s, f, _, hf, _, rfl⟩ := resolve_eq_ok h
  cases target
  exact Section.readOnly_of_mem_config (List.mem_of_getElem? hf)

theorem resolve_time : Key.time.resolve = .ok ⟨.system, 4, 4, false⟩ := rfl

/-- The time is the one attribute of the system section that can be written. -/
theorem eq_time (h : k.resolve = .ok w) (target : w.target = .system)
    (writable : w.readOnly = false) : k = .time := by
  obtain ⟨s, f, hs, hf, hp, rfl⟩ := resolve_eq_ok h
  cases target
  obtain ⟨hi, hsize⟩ := Section.index_of_writable hf writable
  refine ext_parts hs.symm hi ?_
  have hfirst : k.part = 0 := by
    simp only [hsize, partSize] at hp
    omega
  exact hfirst

end Key

end Fieldbus
