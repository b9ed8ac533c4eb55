import Fieldbus.Controller.Timeout
import Mathlib.Data.List.Basic

namespace Fieldbus

/-- Waiting entries, each with the whole time that is left for it, in order of expiry. -/
abbrev Agenda (ι : Type) := List (ι × Nat)

namespace Agenda

variable {ι : Type}

/-- All entries wait `ms` longer. -/
def later (ms : Nat) (a : Agenda ι) : Agenda ι := a.map fun e => (e.1, ms + e.2)

/-- Adds an entry behind all that expire no later. -/
def insert (i : ι) (ms : Nat) (a : Agenda ι) : Agenda ι :=
  (a.takeWhile fun e => e.2 ≤ ms) ++ (i, ms) :: a.dropWhile fun e => e.2 ≤ ms

def erase [DecidableEq ι] (i : ι) (a : Agenda ι) : Agenda ι := a.filter fun e => e.1 ≠ i

/-- The entries that expire within `ms`. -/
def within (ms : Nat) (a : Agenda ι) : Agenda ι := a.filter fun e => e.2 ≤ ms

/-- All entries have waited for `ms`, as far as they wait at all. -/
def aged (ms : Nat) (a : Agenda ι) : Agenda ι := a.map fun e => (e.1, e.2 - ms)

/-- The entries under other names. -/
def rekey {κ : Type} (f : ι → κ) (a : Agenda ι) : Agenda κ := a.map fun e => (f e.1, e.2)

/-- Adds a query, unless it never expires. -/
def enlist (i : ι) (timeout : Timeout) (a : Agenda ι) : Agenda ι :=
  match timeout with
  | .millis ms => a.insert i ms.toNat
  | _ => a

/-- What is left after `ms`: the entries that expire later, with less time. -/
def after (ms : Nat) (a : Agenda ι) : Agenda ι :=
  (a.filter fun e => ms < e.2).map fun e => (e.1, e.2 - ms)

def InOrder (a : Agenda ι) : Prop := a.Pairwise fun e f => e.2 ≤ f.2

theorem map_fst_later (ms : Nat) (a : Agenda ι) : (later ms a).map Prod.fst = a.map Prod.fst := by
  simp only [later, List.map_map, Function.comp_def]

theorem later_later (ms more : Nat) (a : Agenda ι) :
    later ms (later more a) = later (ms + more) a := by
  simp only [later, List.map_map, Function.comp_def, Nat.add_assoc]

theorem insert_cons_of_lt {i : ι} {ms : Nat} {e : ι × Nat} (a : Agenda ι) (h : ms < e.2) :
    insert i ms (e :: a) = (i, ms) :: e :: a := by
  have hh : ¬ e.2 ≤ ms := by omega
  simp [insert, hh]

theorem insert_cons_of_le {i : ι} {ms : Nat} {e : ι × Nat} (a : Agenda ι) (h : e.2 ≤ ms) :
    insert i ms (e :: a) = e :: insert i ms a := by
  simp [insert, h]

theorem insert_later {i : ι} {ms delay : Nat} (a : Agenda ι) (h : delay ≤ ms) :
    insert i ms (later delay a) = later delay (insert i (ms - delay) a) := by
  induction a with
  | nil => simp [insert, later, h]
  | cons e a ih =>
    change insert i ms ((e.1, delay + e.2) :: later delay a) = _
    by_cases hlt : ms < delay + e.2
    · rw [insert_cons_of_lt _ hlt, insert_cons_of_lt _ (by omega)]
      simp [later, h]
    · rw [insert_cons_of_le _ (by simpa using hlt), insert_cons_of_le _ (by omega), ih]
      rfl

theorem mem_insert_iff {i j : ι} {ms left : Nat} {a : Agenda ι} :
    (j, left) ∈ a.insert i ms ↔ (j, left) = (i, ms) ∨ (j, left) ∈ a := by
  have hsplit := List.takeWhile_append_dropWhile (p := fun e => e.2 ≤ ms) (l := a)
  conv_rhs => rw [← hsplit]
  simp only [insert, List.mem_append, List.mem_cons]
  exact or_left_comm

theorem mem_of_mem_enlist {i j : ι} {timeout : Timeout} {left : Nat} {a : Agenda ι} (hne : j ≠ i)
    (hm : (j, left) ∈ a.enlist i timeout) : (j, left) ∈ a := by
  cases timeout with
  | untracked => exact hm
  | forever => exact hm
  | millis ms => exact (mem_insert_iff.mp hm).resolve_left fun he => hne (Prod.mk.inj he).1

theorem erase_later [DecidableEq ι] (i : ι) (ms : Nat) (a : Agenda ι) :
    erase i (later ms a) = later ms (erase i a) := by
  simp only [erase, later, List.filter_map, Function.comp_def]

theorem erase_eq_self [DecidableEq ι] {i : ι} {a : Agenda ι} (h : i ∉ a.map Prod.fst) :
    erase i a = a := by
  apply List.filter_eq_self.mpr
  intro e he
  have hne : e.1 ≠ i := fun hh => h (hh ▸ List.mem_map_of_mem he)
  simpa using hne

theorem aged_cons (ms : Nat) (e : ι × Nat) (a : Agenda ι) :
    aged ms (e :: a) = (e.1, e.2 - ms) :: aged ms a := rfl

theorem aged_zero (a : Agenda ι) : a.aged 0 = a := by
  simp [aged]

theorem within_cons (ms : Nat) (e : ι × Nat) (a : Agenda ι) :
    within ms (e :: a) = if e.2 ≤ ms then e :: within ms a else within ms a := by
  simp [within, List.filter_cons]

theorem after_cons_of_le {ms : Nat} {e : ι × Nat} (a : Agenda ι) (h : e.2 ≤ ms) :
    after ms (e :: a) = after ms a := by
  simp [after, Nat.not_lt.mpr h]

theorem within_eq_nil {ms : Nat} {a : Agenda ι} (h : ∀ e ∈ a, ms < e.2) : a.within ms = [] := by
  refine List.filter_eq_nil_iff.mpr fun e he => ?_
  have := h e he
  simpa using this

theorem after_zero_eq_self {a : Agenda ι} (h : ∀ e ∈ a, 0 < e.2) : a.after 0 = a := by
  have hf : (a.filter fun e => 0 < e.2) = a := by
    apply List.filter_eq_self.mpr
    intro e he
    simpa using h e he
  rw [after, hf]
  simp

/-- What has no time left after a while is what expires within it. -/
theorem within_aged (ms : Nat) (a : Agenda ι) : (a.aged ms).within 0 = (a.within ms).aged ms := by
  simp only [within, aged, List.filter_map, Function.comp_def]
  congr 2
  funext e
  have hiff : e.2 - ms ≤ 0 ↔ e.2 ≤ ms := by omega
  simp only [hiff]

theorem after_aged (ms : Nat) (a : Agenda ι) : (a.aged ms).after 0 = a.after ms := by
  simp only [after, aged, List.filter_map, List.map_map, Function.comp_def, Nat.sub_zero,
    Nat.sub_pos_iff_lt]

/-- A new entry stands before all that expire later. -/
theorem InOrder.lt_of_mem_dropWhile {ms : Nat} {a : Agenda ι} (h : a.InOrder) {e : ι × Nat}
    (he : e ∈ a.dropWhile fun f => f.2 ≤ ms) : ms < e.2 := by
  induction a with
  | nil => simp at he
  | cons f a ih =>
    obtain ⟨hf, ha⟩ := List.pairwise_cons.mp h
    by_cases hle : f.2 ≤ ms
    · rw [List.dropWhile_cons_of_pos (by simpa using hle)] at he
      exact ih ha he
    · rw [List.dropWhile_cons_of_neg (by simpa using hle)] at he
      rcases List.mem_cons.mp he with rfl | he
      · omega
      · have := hf e he
        omega

section Rekey

variable {κ : Type} {f : ι → κ}

theorem map_fst_rekey (a : Agenda ι) : (a.rekey f).map Prod.fst = (a.map Prod.fst).map f := by
  simp only [rekey, List.map_map, Function.comp_def]

theorem rekey_aged (ms : Nat) (a : Agenda ι) : (a.aged ms).rekey f = (a.rekey f).aged ms := by
  simp only [rekey, aged, List.map_map, Function.comp_def]

theorem rekey_insert (i : ι) (ms : Nat) (a : Agenda ι) :
    (a.insert i ms).rekey f = (a.rekey f).insert (f i) ms := by
  simp only [rekey, insert, List.map_append, List.map_cons, List.takeWhile_map, List.dropWhile_map,
    Function.comp_def]

theorem rekey_enlist (i : ι) (timeout : Timeout) (a : Agenda ι) :
    (a.enlist i timeout).rekey f = (a.rekey f).enlist (f i) timeout := by
  cases timeout with
  | millis ms => exact rekey_insert i ms.toNat a
  | untracked => rfl
  | forever => rfl

theorem rekey_erase [DecidableEq ι] [DecidableEq κ] (hf : Function.Injective f) (i : ι)
    (a : Agenda ι) : (a.erase i).rekey f = (a.rekey f).erase (f i) := by
  simp only [rekey, erase, List.filter_map, Function.comp_def, ne_eq, hf.eq_iff]

theorem InOrder.rekey {a : Agenda ι} (h : a.InOrder) : (a.rekey f).InOrder :=
  List.pairwise_map.mpr h

end Rekey

end Agenda

end Fieldbus
