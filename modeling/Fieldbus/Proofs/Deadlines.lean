import Fieldbus.Controller.Pool
import Fieldbus.Proofs.Agenda
import Mathlib.Algebra.Ring.Nat
import Mathlib.Data.List.Nodup
import Mathlib.Data.List.Perm.Basic

namespace Fieldbus

theorem Timeout.isSome_span?_iff {timeout : Timeout} :
    timeout.span?.isSome = true ↔ ∃ ms, timeout = .millis ms := by
  cases timeout <;> simp [span?]

/-- Waiting entries in order of expiry; each holds its delay after the entry before it. -/
abbrev Deadlines (ι : Type) := List (ι × Nat)

namespace Deadlines

variable {ι : Type}

/-- Changes the delay of the first entry. -/
def mapHead (f : Nat → Nat) : Deadlines ι → Deadlines ι
  | [] => []
  | (j, delay) :: rest => (j, f delay) :: rest

/-- Adds an entry `ms` from now, behind those that expire at the same time. -/
def add (i : ι) : Nat → Deadlines ι → Deadlines ι
  | ms, [] => [(i, ms)]
  | ms, (j, delay) :: rest =>
    if ms < delay then (i, ms) :: (j, delay - ms) :: rest else (j, delay) :: add i (ms - delay) rest

/-- Adds a query, unless it never expires. -/
def enlist (i : ι) (timeout : Timeout) (q : Deadlines ι) : Deadlines ι :=
  match timeout with
  | .millis ms => q.add i ms.toNat
  | _ => q

/-- Lets the first entry wait `delay` longer. -/
def postpone (delay : Nat) (q : Deadlines ι) : Deadlines ι := q.mapHead (addSpans · delay)

/-- Takes an entry out; the next one takes over its delay. -/
def remove [DecidableEq ι] (i : ι) : Deadlines ι → Deadlines ι
  | [] => []
  | (j, delay) :: rest => if j = i then postpone delay rest else (j, delay) :: remove i rest

/-- Lets time pass; entries that are due keep a delay of zero. -/
def elapse : Nat → Deadlines ι → Deadlines ι
  | _, [] => []
  | ms, (j, delay) :: rest =>
    if delay ≤ ms then (j, 0) :: elapse (ms - delay) rest else (j, delay - ms) :: rest

/-- The time left for an entry, on top of `passed`. -/
def remainingFrom? [DecidableEq ι] (i : ι) : Nat → Deadlines ι → Option Nat
  | _, [] => none
  | passed, (j, delay) :: rest =>
    if j = i then some (addSpans passed delay) else remainingFrom? i (addSpans passed delay) rest

/-- The time left until the first expiry. -/
def next? : Deadlines ι → Option Nat
  | [] => none
  | (_, delay) :: _ => some delay

/-- The waiting entries without their delays. -/
def keys (q : Deadlines ι) : List ι := q.map Prod.fst

@[simp] theorem keys_nil : keys ([] : Deadlines ι) = [] := rfl

@[simp] theorem keys_cons (e : ι × Nat) (q : Deadlines ι) : keys (e :: q) = e.1 :: keys q := rfl

@[simp] theorem keys_append (p q : Deadlines ι) : keys (p ++ q) = keys p ++ keys q :=
  List.map_append

theorem exists_append_of_mem_keys {i : ι} {q : Deadlines ι} (h : i ∈ q.keys) :
    ∃ (a : Deadlines ι) (delay : Nat) (b : Deadlines ι), q = a ++ (i, delay) :: b := by
  obtain ⟨e, he, rfl⟩ := List.mem_map.mp h
  obtain ⟨a, b, hq⟩ := List.append_of_mem he
  exact ⟨a, e.2, b, hq⟩

/-- The time until the last entry expires. -/
def total : Deadlines ι → Nat
  | [] => 0
  | (_, delay) :: rest => delay + total rest

def agenda : Deadlines ι → Agenda ι
  | [] => []
  | (i, delay) :: rest => (i, delay) :: (agenda rest).later delay

theorem map_fst_agenda (q : Deadlines ι) : q.agenda.map Prod.fst = q.keys := by
  induction q with
  | nil => rfl
  | cons e q ih => simp only [agenda, List.map_cons, Agenda.map_fst_later, ih, keys]

theorem total_append (p q : Deadlines ι) : total (p ++ q) = total p + total q := by
  induction p with
  | nil => simp [total]
  | cons e p ih => simp only [List.cons_append, total, ih]; omega

theorem total_eq_sum (q : Deadlines ι) : q.total = (q.map Prod.snd).sum := by
  induction q with
  | nil => rfl
  | cons e q ih => rw [total, List.map_cons, List.sum_cons, ih]

theorem agenda_inOrder (q : Deadlines ι) : q.agenda.InOrder := by
  induction q with
  | nil => exact List.Pairwise.nil
  | cons e q ih =>
    refine List.pairwise_cons.mpr ⟨?_, ?_⟩
    · intro f hf
      obtain ⟨g, _, rfl⟩ := List.mem_map.mp hf
      exact Nat.le_add_right _ _
    · exact List.pairwise_map.mpr (ih.imp fun h => by simpa using h)

theorem le_total_of_mem_agenda {q : Deadlines ι} {e : ι × Nat}
    (he : e ∈ q.agenda) : e.2 ≤ q.total := by
  induction q generalizing e with
  | nil => simp [agenda] at he
  | cons f q ih =>
    rw [total]
    rcases List.mem_cons.mp he with rfl | he
    · exact Nat.le_add_right _ _
    · obtain ⟨g, hg, rfl⟩ := List.mem_map.mp he
      exact Nat.add_le_add_left (ih hg) _

section Add

theorem keys_add (i : ι) (ms : Nat) (q : Deadlines ι) : (q.add i ms).keys.Perm (i :: q.keys) := by
  induction q generalizing ms with
  | nil => exact .refl _
  | cons e q ih =>
    unfold add
    split
    next => exact .refl _
    next => exact ((ih _).cons e.1).trans (.swap _ _ _)

theorem agenda_add (i : ι) (ms : Nat) (q : Deadlines ι) :
    (add i ms q).agenda = q.agenda.insert i ms := by
  induction q generalizing ms with
  | nil => simp [add, agenda, Agenda.insert, Agenda.later]
  | cons e q ih =>
    unfold add
    split
    next h =>
      have hsum : ms + (e.2 - ms) = e.2 := by omega
      rw [agenda, agenda, agenda, Agenda.insert_cons_of_lt _ h]
      simp only [Agenda.later, List.map_cons, List.map_map, Function.comp_def, ← Nat.add_assoc,
        hsum]
    next h =>
      have hle : e.2 ≤ ms := Nat.le_of_not_lt h
      rw [agenda, agenda, ih, Agenda.insert_cons_of_le _ hle, Agenda.insert_later _ hle]

theorem total_add (i : ι) (ms : Nat) (q : Deadlines ι) : total (add i ms q) = max q.total ms := by
  induction q generalizing ms with
  | nil => simp [add, total]
  | cons e q ih =>
    unfold add
    split
    next h => simp only [total]; omega
    next h => simp only [total, ih]; omega

theorem mem_keys_enlist {i j : ι} {timeout : Timeout} {q : Deadlines ι} :
    j ∈ (q.enlist i timeout).keys ↔ j = i ∧ timeout.span?.isSome = true ∨ j ∈ q.keys := by
  cases timeout with
  | millis ms => simp [enlist, (keys_add i ms.toNat q).mem_iff, Timeout.span?]
  | untracked => simp [enlist, Timeout.span?]
  | forever => simp [enlist, Timeout.span?]

theorem agenda_enlist (i : ι) (timeout : Timeout) (q : Deadlines ι) :
    (q.enlist i timeout).agenda = q.agenda.enlist i timeout := by
  cases timeout with
  | millis ms => exact agenda_add i ms.toNat q
  | untracked => rfl
  | forever => rfl

theorem total_enlist_le (i : ι) (timeout : Timeout) {q : Deadlines ι} (h : q.total ≤ maxSpan) :
    (q.enlist i timeout).total ≤ maxSpan := by
  cases timeout with
  | millis ms =>
    have hms := ms.toNat_lt
    rw [enlist, total_add]
    unfold maxSpan at *
    omega
  | untracked => exact h
  | forever => exact h

end Add

section Remove

theorem addSpans_le (a b : Nat) : addSpans a b ≤ a + b := Nat.min_le_left _ _

theorem addSpans_eq {a b : Nat} (h : a + b ≤ maxSpan) : addSpans a b = a + b := Nat.min_eq_left h

theorem keys_mapHead (f : Nat → Nat) (q : Deadlines ι) : (q.mapHead f).keys = q.keys := by
  cases q <;> rfl

theorem keys_postpone (delay : Nat) (q : Deadlines ι) : (q.postpone delay).keys = q.keys :=
  keys_mapHead _ q

theorem total_postpone_le (delay : Nat) (q : Deadlines ι) :
    (q.postpone delay).total ≤ delay + q.total := by
  cases q with
  | nil => exact Nat.zero_le _
  | cons e q =>
    have := addSpans_le e.2 delay
    simp only [postpone, mapHead, total]
    omega

theorem agenda_postpone {delay : Nat} {q : Deadlines ι} (h : delay + q.total ≤ maxSpan) :
    (q.postpone delay).agenda = q.agenda.later delay := by
  cases q with
  | nil => rfl
  | cons e q =>
    simp only [total] at h
    have hsum : addSpans e.2 delay = delay + e.2 := by rw [addSpans_eq (by omega), Nat.add_comm]
    simp only [postpone, mapHead, agenda, hsum]
    rw [← Agenda.later_later]
    rfl

theorem postpone_zero {q : Deadlines ι} (h : q.total ≤ maxSpan) : q.postpone 0 = q := by
  cases q with
  | nil => rfl
  | cons e q =>
    simp only [total] at h
    rw [postpone, mapHead, addSpans_eq (by omega)]
    rfl

variable [DecidableEq ι]

theorem keys_remove (i : ι) (q : Deadlines ι) : (q.remove i).keys = q.keys.erase i := by
  induction q with
  | nil => rfl
  | cons e q ih =>
    unfold remove
    split
    next h =>
      rw [keys_postpone]
      simp [keys, h]
    next h => simpa [keys, List.erase_cons, h] using ih

theorem total_remove_le (i : ι) (q : Deadlines ι) : (q.remove i).total ≤ q.total := by
  induction q with
  | nil => exact Nat.le_refl _
  | cons e q ih =>
    unfold remove
    split
    next => exact total_postpone_le _ _
    next => exact Nat.add_le_add_left ih _

theorem remove_of_notMem {i : ι} {q : Deadlines ι} (h : i ∉ q.keys) : q.remove i = q := by
  induction q with
  | nil => rfl
  | cons e q ih =>
    obtain ⟨hne, hi⟩ := List.ne_and_not_mem_of_not_mem_cons h
    rw [remove, if_neg (Ne.symm hne), ih hi]

theorem remove_append {i : ι} {delay : Nat} {p q : Deadlines ι} (h : i ∉ p.keys) :
    remove i (p ++ (i, delay) :: q) = p ++ q.postpone delay := by
  induction p with
  | nil => simp [remove]
  | cons e p ih =>
    obtain ⟨hne, hi⟩ := List.ne_and_not_mem_of_not_mem_cons h
    rw [List.cons_append, remove, if_neg (Ne.symm hne), ih hi, List.cons_append]

/-- An entry that is taken out again gives its delay back to the one before which it was put. -/
theorem remove_add {i : ι} (ms : Nat) {q : Deadlines ι} (hi : i ∉ q.keys)
    (h : q.total ≤ maxSpan) : (q.add i ms).remove i = q := by
  induction q generalizing ms with
  | nil => simp [add, remove, postpone, mapHead]
  | cons e q ih =>
    obtain ⟨hne, hrest⟩ := List.ne_and_not_mem_of_not_mem_cons hi
    rw [total] at h
    unfold add
    split
    next hlt =>
      have hback : addSpans (e.2 - ms) ms = e.2 := by
        rw [addSpans_eq (by omega)]
        omega
      rw [remove, if_pos rfl, postpone, mapHead, hback]
    next => rw [remove, if_neg (Ne.symm hne), ih _ hrest (by omega)]

theorem remove_enlist {i : ι} (timeout : Timeout) {q : Deadlines ι} (hi : i ∉ q.keys)
    (h : q.total ≤ maxSpan) : (q.enlist i timeout).remove i = q := by
  cases timeout with
  | millis ms => exact remove_add ms.toNat hi h
  | untracked => exact remove_of_notMem hi
  | forever => exact remove_of_notMem hi

/-- A removal hands the delay on, so that every other entry keeps its time. -/
theorem agenda_remove {i : ι} {q : Deadlines ι} (hn : q.keys.Nodup) (h : q.total ≤ maxSpan) :
    (q.remove i).agenda = q.agenda.erase i := by
  induction q with
  | nil => rfl
  | cons e q ih =>
    obtain ⟨hmem, hn⟩ := List.nodup_cons.mp hn
    simp only [total] at h
    unfold remove
    split
    next hi =>
      subst hi
      have hrest : e.1 ∉ ((agenda q).later e.2).map Prod.fst := by
        rwa [Agenda.map_fst_later, map_fst_agenda]
      rw [agenda_postpone h]
      simpa [agenda, Agenda.erase] using (Agenda.erase_eq_self hrest).symm
    next hi =>
      rw [agenda, agenda, ih hn (by omega), ← Agenda.erase_later]
      simp [Agenda.erase, hi]

end Remove

section Elapse

theorem keys_elapse (ms : Nat) (q : Deadlines ι) : (q.elapse ms).keys = q.keys := by
  induction q generalizing ms with
  | nil => rfl
  | cons e q ih =>
    unfold elapse
    split
    next => exact congrArg (e.1 :: ·) (ih _)
    next => rfl

theorem elapse_zero (q : Deadlines ι) : q.elapse 0 = q := by
  induction q with
  | nil => rfl
  | cons e q ih =>
    unfold elapse
    split
    next h => rw [Nat.zero_sub, ih, ← Nat.le_zero.mp h]
    next => rw [Nat.sub_zero]

theorem elapse_elapse (a b : Nat) (q : Deadlines ι) :
    (q.elapse a).elapse b = q.elapse (a + b) := by
  induction q generalizing a with
  | nil => rfl
  | cons e q ih =>
    obtain ⟨i, delay⟩ := e
    by_cases hfirst : delay ≤ a
    · -- The entry is due at once, so all of the second part is left for the others.
      have hwhole : delay ≤ a + b := by omega
      have hrest : a - delay + b = a + b - delay := by omega
      simp only [elapse, hfirst, hwhole, if_true, Nat.zero_le, Nat.sub_zero, ih, hrest]
    · by_cases hwhole : delay ≤ a + b
      · have hsecond : delay - a ≤ b := by omega
        have hrest : b - (delay - a) = a + b - delay := by omega
        simp only [elapse, hfirst, hwhole, hsecond, if_true, if_false, hrest]
      · have hsecond : ¬delay - a ≤ b := by omega
        have hdelay : delay - a - b = delay - (a + b) := by omega
        simp only [elapse, hfirst, hwhole, hsecond, if_false, hdelay]

theorem total_elapse_le (ms : Nat) (q : Deadlines ι) : (q.elapse ms).total ≤ q.total := by
  induction q generalizing ms with
  | nil => exact Nat.le_refl _
  | cons e q ih =>
    unfold elapse
    split
    next h =>
      have := ih (ms - e.2)
      simp only [total]
      omega
    next h => simp only [total]; omega

theorem agenda_elapse (ms : Nat) (q : Deadlines ι) :
    (q.elapse ms).agenda = q.agenda.aged ms := by
  induction q generalizing ms with
  | nil => rfl
  | cons e q ih =>
    unfold elapse
    split
    next h =>
      rw [agenda, agenda, ih, Agenda.aged_cons, Nat.sub_eq_zero_of_le h]
      congr 1
      simp only [Agenda.later, Agenda.aged, List.map_map]
      refine List.map_congr_left fun f _ => ?_
      simp only [Function.comp_apply, Prod.mk.injEq, true_and]
      omega
    next h =>
      rw [agenda, agenda, Agenda.aged_cons]
      congr 1
      simp only [Agenda.later, Agenda.aged, List.map_map]
      refine List.map_congr_left fun f _ => ?_
      simp only [Function.comp_apply, Prod.mk.injEq, true_and]
      omega

end Elapse

section Remaining

variable [DecidableEq ι]

theorem remainingFrom?_eq {i : ι} {passed : Nat} {p q : Deadlines ι} {delay : Nat}
    (hi : i ∉ p.keys) (h : passed + p.total + delay ≤ maxSpan) :
    remainingFrom? i passed (p ++ (i, delay) :: q) = some (passed + p.total + delay) := by
  induction p generalizing passed with
  | nil =>
    simp only [total, Nat.add_zero] at h
    simp [remainingFrom?, total, addSpans_eq h]
  | cons e p ih =>
    have hne := List.ne_of_not_mem_cons hi
    simp only [total] at h
    have hsum : addSpans passed e.2 = passed + e.2 := addSpans_eq (by omega)
    rw [List.cons_append, remainingFrom?, if_neg (Ne.symm hne), hsum,
      ih (List.not_mem_of_not_mem_cons hi) (by omega), total]
    simp only [Nat.add_assoc]

/-- The time left for an entry is the one that the list of deadlines gives it. -/
theorem remainingFrom?_eq_some_iff {i : ι} {passed ms : Nat} {q : Deadlines ι}
    (hn : q.keys.Nodup) (h : passed + q.total ≤ maxSpan) :
    remainingFrom? i passed q = some ms ↔ ∃ left, (i, left) ∈ q.agenda ∧ ms = passed + left := by
  induction q generalizing passed with
  | nil => simp [remainingFrom?, agenda]
  | cons e q ih =>
    obtain ⟨j, delay⟩ := e
    obtain ⟨hj, hn⟩ := List.nodup_cons.mp hn
    rw [total] at h
    have hsum : addSpans passed delay = passed + delay := addSpans_eq (by omega)
    rw [remainingFrom?, hsum, agenda]
    by_cases hij : j = i
    · subst hij
      have hout : ∀ left, (j, left) ∉ (agenda q).later delay := by
        intro left hm
        have hkey : j ∈ ((agenda q).later delay).map Prod.fst := List.mem_map_of_mem hm
        rw [Agenda.map_fst_later, map_fst_agenda] at hkey
        exact hj hkey
      simp only [if_true, List.mem_cons, hout, or_false]
      constructor
      · intro hs
        exact ⟨delay, rfl, (Option.some.inj hs).symm⟩
      · rintro ⟨left, he, rfl⟩
        rw [(Prod.mk.inj he).2]
    · rw [if_neg hij, ih hn (by omega)]
      constructor
      · rintro ⟨left, hm, rfl⟩
        refine ⟨delay + left, List.mem_cons_of_mem _ (List.mem_map.mpr ⟨_, hm, rfl⟩), ?_⟩
        omega
      · rintro ⟨left, hm, rfl⟩
        rcases List.mem_cons.mp hm with he | hm
        · exact absurd (Prod.mk.inj he).1.symm hij
        · obtain ⟨f, hf, he⟩ := List.mem_map.mp hm
          obtain ⟨rfl, rfl⟩ := Prod.mk.inj he
          exact ⟨f.2, hf, by omega⟩

end Remaining

end Deadlines

end Fieldbus
