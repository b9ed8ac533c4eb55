import Fieldbus.Proofs.Bus.Landing

namespace Fieldbus

section Stable

variable {α : Type} (key : α → Nat) (xs : List α)

theorem le_trans_key (x y z : α) (h : decide (key x ≤ key y) = true)
    (h' : decide (key y ≤ key z) = true) : decide (key x ≤ key z) = true :=
  decide_eq_true (Nat.le_trans (of_decide_eq_true h) (of_decide_eq_true h'))

theorem le_total_key (x y : α) : (decide (key x ≤ key y) || decide (key y ≤ key x)) = true := by
  simpa using Nat.le_total (key x) (key y)

/-- Sorting by a key does not reorder what has the same key. -/
theorem filter_mergeSort_key (k : Nat) :
    (xs.mergeSort fun x y => key x ≤ key y).filter (key · = k) = xs.filter (key · = k) := by
  have hperm := (xs.mergeSort_perm fun x y => key x ≤ key y).filter (key · = k)
  have halike : (xs.filter (key · = k)).Pairwise fun x y => decide (key x ≤ key y) = true := by
    refine List.pairwise_iff_forall_sublist.mpr fun {x y} hxy => ?_
    have hx : key x = k := by simpa using (List.mem_filter.mp (hxy.subset (by simp))).2
    have hy : key y = k := by simpa using (List.mem_filter.mp (hxy.subset (by simp))).2
    simp [hx, hy]
  have hsub := (List.sublist_mergeSort (le_trans_key key) (le_total_key key) halike
    List.filter_sublist).filter (key · = k)
  rw [List.filter_filter, funext fun x => Bool.and_self _] at hsub
  exact (hsub.eq_of_length hperm.length_eq.symm).symm

/-- What is sorted by a key is in the order of the key, and otherwise in the order before. -/
theorem pairwise_mergeSort_key {R : α → α → Prop} (h : xs.Pairwise R) :
    (xs.mergeSort fun x y => key x ≤ key y).Pairwise fun x y =>
      key x < key y ∨ key x = key y ∧ R x y := by
  refine List.pairwise_iff_forall_sublist.mpr fun {x y} hxy => ?_
  have hsorted := List.pairwise_mergeSort (le_trans_key key) (le_total_key key) xs
  have hle : key x ≤ key y :=
    of_decide_eq_true (List.pairwise_iff_forall_sublist.mp hsorted hxy)
  rcases Nat.lt_or_eq_of_le hle with hlt | heq
  · exact Or.inl hlt
  · -- What has this one key stands as it stood before.
    have hpair := hxy.filter (key · = key y)
    rw [filter_mergeSort_key] at hpair
    have hboth : [x, y].filter (key · = key y) = [x, y] := by simp [heq]
    rw [hboth] at hpair
    exact Or.inr ⟨heq, List.pairwise_iff_forall_sublist.mp h (hpair.trans List.filter_sublist)⟩

end Stable

namespace Shipment

/-- The one is due before the other, or at the same time and was sent before it. -/
def Before (x y : Shipment) : Prop :=
  x.deliverAt < y.deliverAt ∨ x.deliverAt = y.deliverAt ∧ x.serial < y.serial

/-- The frames in flight that are due, in the order in which they arrive. -/
def due (flight : List Shipment) (now : Nat) : List Shipment :=
  (flight.filter fun x => x.deliverAt ≤ now).mergeSort fun x y => x.deliverAt ≤ y.deliverAt

def later (flight : List Shipment) (now : Nat) : List Shipment :=
  flight.filter fun x => ¬x.deliverAt ≤ now

variable {flight : List Shipment} {now : Nat} {x : Shipment}

theorem mem_due : x ∈ due flight now ↔ x ∈ flight ∧ x.deliverAt ≤ now := by
  rw [due, List.mem_mergeSort, List.mem_filter, decide_eq_true_eq]

theorem mem_later : x ∈ later flight now ↔ x ∈ flight ∧ now < x.deliverAt := by
  rw [later, List.mem_filter, decide_eq_true_eq, Nat.not_le]

/-- Each frame in flight is either due or stays in flight. -/
theorem due_append_later (flight : List Shipment) (now : Nat) :
    (due flight now ++ later flight now).Perm flight := by
  have hsplit := List.filter_append_perm (fun x : Shipment => x.deliverAt ≤ now) flight
  have hlater : later flight now = flight.filter fun x => !decide (x.deliverAt ≤ now) := by
    simp only [later, decide_not]
  rw [hlater]
  exact ((List.mergeSort_perm _ _).append_right _).trans hsplit

theorem pairwise_due (h : flight.Pairwise (·.serial < ·.serial)) :
    (due flight now).Pairwise Before :=
  pairwise_mergeSort_key deliverAt _ (h.sublist List.filter_sublist)

end Shipment

namespace Bus

variable {ρ : Type} [Chance ρ]

/-- Delivery lets the frames arrive that are due, and keeps the others in flight. -/
theorem deliver_eq {b : Bus ρ} {flight : List Shipment}
    (h : b.inFlight = flight.map Shipment.inFlight) :
    b.deliver =
      { b with inFlight := (Shipment.later flight b.elapsed).map Shipment.inFlight }.arriveAll
        ((Shipment.due flight b.elapsed).map Shipment.inFlight) := by
  have hdue : (b.inFlight.filter fun x => x.deliverAt ≤ b.elapsed) =
      (flight.filter fun x => x.deliverAt ≤ b.elapsed).map Shipment.inFlight := by
    rw [h, List.filter_map]
    rfl
  have hlater : b.inFlight.filter (not ∘ fun x => decide (x.deliverAt ≤ b.elapsed)) =
      (Shipment.later flight b.elapsed).map Shipment.inFlight := by
    rw [h, List.filter_map, Shipment.later]
    simp only [decide_not]
    rfl
  have hsort : ((flight.filter fun x => x.deliverAt ≤ b.elapsed).map
      Shipment.inFlight).mergeSort (fun x y => x.deliverAt ≤ y.deliverAt) =
        (Shipment.due flight b.elapsed).map Shipment.inFlight := by
    refine (List.map_mergeSort ?_).symm
    exact fun _ _ _ _ => rfl
  simp only [deliver, List.partition_eq_filter_filter, hdue, hlater, hsort]

end Bus

end Fieldbus
