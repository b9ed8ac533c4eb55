import Fieldbus.Proofs.Attribute.Window

namespace Fieldbus

theorem Section.ofCode?_eq_none_iff {n : Nat} : ofCode? n = none ↔ 3 ≤ n := by
  constructor
  · intro h
    by_contra hlt
    obtain rfl | rfl | rfl : n = 0 ∨ n = 1 ∨ n = 2 := by omega
    all_goals simp [ofCode?] at h
  · intro h
    unfold ofCode?
    split
    all_goals first | rfl | omega

namespace Key

variable {k : Key} {fault : Fault}

/-- Why a key names no attribute: the first of section, field and part that does not exist. -/
inductive Unresolved (k : Key) : Fault → Prop
  | noSection (beyond : 3 ≤ k.sectionCode) : Unresolved k .unknownSection
  | noField (s : Section) (code : s.code = k.sectionCode)
      (beyond : s.fields.length ≤ k.fieldIndex) : Unresolved k .unknownAttribute
  | noPart (s : Section) (f : Field) (code : s.code = k.sectionCode)
      (field : s.fields[k.fieldIndex]? = some f) (beyond : f.size ≤ partSize * k.part) :
      Unresolved k .unknownPart

theorem unresolved_of_resolve (h : k.resolve = .error fault) : k.Unresolved fault := by
  unfold resolve field? at h
  split at h
  next hs =>
    cases Except.error.inj h
    exact .noSection (Section.ofCode?_eq_none_iff.mp hs)
  next s hs =>
    have hcode := Section.code_of_ofCode? hs
    split at h
    next hf =>
      cases Except.error.inj h
      exact .noField s hcode (List.getElem?_eq_none_iff.mp hf)
    next f hf =>
      by_cases hp : f.size ≤ partSize * k.part
      · obtain rfl : Fault.unknownPart = fault := by
          simpa [bind, Except.bind, hp, throw, throwThe, MonadExceptOf.throw] using h
        exact .noPart s f hcode hf hp
      · simp [bind, Except.bind, hp, pure, Except.pure] at h

theorem Unresolved.resolve (h : k.Unresolved fault) : k.resolve = .error fault := by
  cases h with
  | noSection beyond =>
    simp [Key.resolve, field?, Section.ofCode?_eq_none_iff.mpr beyond, bind, Except.bind]
  | noField s code beyond =>
    have hs : Section.ofCode? k.sectionCode = some s := code ▸ s.ofCode?_code
    simp [Key.resolve, field?, hs, List.getElem?_eq_none_iff.mpr beyond, bind, Except.bind]
  | noPart s f code field beyond =>
    have hs : Section.ofCode? k.sectionCode = some s := code ▸ s.ofCode?_code
    simp [Key.resolve, field?, hs, field, beyond, bind, Except.bind, throw, throwThe,
      MonadExceptOf.throw]

theorem resolve_eq_error_iff : k.resolve = .error fault ↔ k.Unresolved fault :=
  ⟨unresolved_of_resolve, Unresolved.resolve⟩

theorem resolve_eq_unknownSection_iff :
    k.resolve = .error .unknownSection ↔ 3 ≤ k.sectionCode := by
  refine ⟨fun h => ?_, fun beyond => (Unresolved.noSection beyond).resolve⟩
  cases unresolved_of_resolve h
  assumption

theorem sectionCode_of_resolves {w : Window} (resolves : k.resolve = .ok w) :
    k.sectionCode < 3 := by
  by_contra beyond
  rw [(Unresolved.noSection (Nat.le_of_not_lt beyond)).resolve] at resolves
  cases resolves

end Key

end Fieldbus
