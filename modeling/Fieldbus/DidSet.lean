import Fieldbus.Identifier

namespace Fieldbus

/-- A set of device addresses, one bit for each. -/
@[ext] structure DidSet where
  bits : BitVec 64
deriving DecidableEq

namespace DidSet

def empty : DidSet := ⟨0⟩

def contains (s : DidSet) (d : Did) : Bool := s.bits.getLsbD d.raw

def insert (s : DidSet) (d : Did) : DidSet := ⟨s.bits ||| BitVec.twoPow 64 d.raw⟩

def erase (s : DidSet) (d : Did) : DidSet := ⟨s.bits &&& ~~~BitVec.twoPow 64 d.raw⟩

@[simp] theorem contains_empty (d : Did) : empty.contains d = false := by
  simp [contains, empty]

@[simp] theorem contains_insert (s : DidSet) (d e : Did) :
    (s.insert d).contains e = (s.contains e || decide (d = e)) := by
  have hd := d.raw_lt
  have he := e.raw_lt
  simp only [contains, insert, BitVec.getLsbD_or, BitVec.getLsbD_twoPow]
  by_cases h : d = e
  · simp [h, he]
  · have hr : d.raw ≠ e.raw := fun hh => h (Did.ext hh)
    simp [h, hr]

@[simp] theorem contains_erase (s : DidSet) (d e : Did) :
    (s.erase d).contains e = (s.contains e && decide (d ≠ e)) := by
  have hd := d.raw_lt
  have he := e.raw_lt
  simp only [contains, erase, BitVec.getLsbD_and, BitVec.getLsbD_not, BitVec.getLsbD_twoPow]
  by_cases h : d = e
  · simp [h, he]
  · have hr : d.raw ≠ e.raw := fun hh => h (Did.ext hh)
    simp [h, hr, he]

theorem ext_contains {s t : DidSet} (h : ∀ d, s.contains d = t.contains d) : s = t := by
  apply DidSet.ext
  apply BitVec.eq_of_getLsbD_eq
  intro i hi
  exact h ⟨i, hi⟩

end DidSet

end Fieldbus
