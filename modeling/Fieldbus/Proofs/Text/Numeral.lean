import Fieldbus.Proofs.Text.HexInput
import Mathlib.Algebra.Ring.Nat

namespace Fieldbus

section Digits

variable {cs : List Char}

theorem dropWhile_isBlank_of_digits (digits : ∀ c ∈ cs, Hex.IsDigit c) :
    cs.dropWhile isBlank = cs := by
  cases cs with
  | nil => rfl
  | cons c rest => exact List.dropWhile_cons_of_neg (not_blank_of_digit (digits c (by simp)))

theorem trimBlanks_of_digits (digits : ∀ c ∈ cs, Hex.IsDigit c) : trimBlanks cs = cs := by
  have hback : ∀ c ∈ cs.reverse, Hex.IsDigit c := fun c hc => digits c (List.mem_reverse.mp hc)
  rw [trimBlanks, dropWhile_isBlank_of_digits digits, dropWhile_isBlank_of_digits hback,
    List.reverse_reverse]

theorem dropHexTags_of_digits (digits : ∀ c ∈ cs, Hex.IsDigit c) : dropHexTags cs = cs :=
  dropHexTags_of_notMem fun hx => absurd (digits _ hx) (by decide)

end Digits

namespace Numeral

theorem extend?_append (base start : Nat) (front back : List Char) :
    extend? base start (front ++ back) =
      (extend? base start front).bind fun n => extend? base n back := by
  induction front generalizing start with
  | nil => rfl
  | cons c rest ih =>
    rw [List.cons_append, extend?, extend?, Option.bind_assoc]
    exact congrArg _ (funext fun d => ih _)

theorem natural?_of_digits {cs : List Char} (digits : ∀ c ∈ cs, Hex.IsDigit c) (ne : cs ≠ []) :
    natural? 16 cs = extend? 16 0 cs := by
  have hplain : natural? 16 cs = digits? 16 cs := by
    cases cs with
    | nil => rfl
    | cons c rest =>
      refine natural?.eq_2 _ _ fun tail same => ?_
      have hplus := digits c (by simp)
      rw [(List.cons.inj same).1] at hplus
      exact absurd hplus (by decide)
  rw [hplain, digits?, if_neg (by simpa using ne)]

/-- Printed digits are read as the number that they were printed for. -/
theorem extend?_fixed {f : Char → Char} (keeps : Hex.KeepsDigits f) (start width n : Nat) :
    extend? 16 start ((Hex.fixed width n).map f) =
      some (16 ^ width * start + n % 16 ^ width) := by
  induction width generalizing n with
  | zero => simp [Hex.fixed, extend?, Nat.mod_one]
  | succ width ih =>
    have hsmall : (16 : Nat) > n % 16 := Nat.mod_lt n (by decide)
    rw [Hex.fixed, List.map_append, extend?_append, ih, Option.bind_some]
    have hvalue : digit? 16 (f (Hex.digit n)) = some (n % 16) := by
      rw [digit?, keeps n, Option.filter_some]
      exact if_pos (by simpa using hsmall)
    rw [List.map_singleton, extend?, hvalue, Option.bind_some, extend?, Nat.pow_succ',
      Nat.mod_mul, Nat.mul_assoc, Nat.mul_add]
    exact congrArg some (by omega)

end Numeral

theorem readNumber_fixed {f : Char → Char} (keeps : Hex.KeepsDigits f) {bound width n : Nat}
    (wide : 0 < width) (fits : n < 16 ^ width) (small : n < bound) :
    readNumber bound (String.ofList ((Hex.fixed width n).map f)) = .ok n := by
  have digits := Hex.isDigit_fixed keeps width n
  have hne : (Hex.fixed width n).map f ≠ [] := by
    cases width with
    | zero => cases wide
    | succ width => simp [Hex.fixed]
  have hread : Numeral.bounded? 16 bound ((Hex.fixed width n).map f) = some n := by
    rw [Numeral.bounded?, Numeral.natural?_of_digits digits hne, Numeral.extend?_fixed keeps,
      Nat.mul_zero, Nat.zero_add, Nat.mod_eq_of_lt fits, Option.filter_some]
    exact if_pos (by simpa using small)
  rw [readNumber, String.toList_ofList, trimBlanks_of_digits digits, dropHexTags_of_digits digits,
    hread]

end Fieldbus
