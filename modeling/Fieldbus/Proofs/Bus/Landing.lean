import Fieldbus.Bus
import Mathlib.Algebra.Ring.Nat

namespace Fieldbus

/-- A frame that was sent, with its place in the order of sending. -/
structure Shipment where
  serial : Nat
  sentAt : Nat
  delay : Nat
  sender : Nat
  frame : Frame
deriving DecidableEq

namespace Shipment

def deliverAt (x : Shipment) : Nat := x.sentAt + x.delay

def inFlight (x : Shipment) : InFlight := ⟨x.sender, x.frame, x.deliverAt⟩

end Shipment

/-- A frame that was taken from flight, with the queues that it found. -/
structure Landing where
  shipment : Shipment
  time : Nat
  lost : Bool
  queues : List (List Frame)

namespace Landing

def queue (l : Landing) (node : Nat) : List Frame := l.queues.getD node []

/-- The frame is meant for the node: it is not lost, and the node is another one than its sender. -/
def isFor (l : Landing) (node : Nat) : Bool :=
  !l.lost && node < l.queues.length && node ≠ l.shipment.sender

/-- The frame gets into the node's queue. -/
def reaches (l : Landing) (node : Nat) : Bool :=
  l.isFor node && (l.queue node).length < Bus.inboxDepth

/-- The frame is meant for the node, but its queue is full. -/
def misses (l : Landing) (node : Nat) : Bool :=
  l.isFor node && Bus.inboxDepth ≤ (l.queue node).length

/-- How many nodes the frame reaches. -/
def copies (l : Landing) : Nat := (List.range l.queues.length).countP l.reaches

def overruns (l : Landing) : Nat := (List.range l.queues.length).countP l.misses

/-- The frame is meant for all nodes but its sender. -/
theorem countP_isFor {l : Landing} (kept : l.lost = false)
    (attached : l.shipment.sender < l.queues.length) :
    (List.range l.queues.length).countP l.isFor = l.queues.length - 1 := by
  have hother : (List.range l.queues.length).countP l.isFor =
      (List.range l.queues.length).countP fun node => ¬(node == l.shipment.sender) := by
    refine List.countP_congr fun node hnode => ?_
    simp [isFor, kept, List.mem_range.mp hnode]
  have hself : (List.range l.queues.length).countP (· == l.shipment.sender) = 1 := by
    rw [← List.count, List.count_range, if_pos attached]
  have hsplit := List.length_eq_countP_add_countP (· == l.shipment.sender)
    (l := List.range l.queues.length)
  rw [List.length_range, hself] at hsplit
  omega

theorem copies_add_overruns_eq (l : Landing) :
    l.copies + l.overruns = (List.range l.queues.length).countP l.isFor := by
  have hmisses : l.misses =
      fun node => l.isFor node && !((l.queue node).length < Bus.inboxDepth) := by
    funext node
    simp only [misses, ← Nat.not_lt, decide_not]
  rw [List.countP_eq_countP_filter_add _ _ fun node => (l.queue node).length < Bus.inboxDepth,
    List.countP_filter, List.countP_filter, copies, overruns, hmisses]
  rfl

theorem copies_add_overruns_of_kept {l : Landing} (kept : l.lost = false)
    (attached : l.shipment.sender < l.queues.length) :
    l.copies + l.overruns = l.queues.length - 1 :=
  l.copies_add_overruns_eq.trans (countP_isFor kept attached)

theorem isFor_of_lost {l : Landing} (lost : l.lost = true) (node : Nat) : l.isFor node = false := by
  simp [isFor, lost]

theorem copies_add_overruns_of_lost {l : Landing} (lost : l.lost = true) :
    l.copies + l.overruns = 0 := by
  rw [copies_add_overruns_eq, List.countP_eq_zero]
  exact fun node _ => by
    rw [isFor_of_lost lost]
    decide

end Landing

theorem zipIdx_eq_map_range {α : Type} (xs : List α) (d : α) :
    xs.zipIdx = (List.range xs.length).map fun i => (xs.getD i d, i) := by
  apply List.ext_getElem
  · simp
  · intro i hi hi'
    have h : i < xs.length := by simpa using hi
    simp [h]

namespace Bus

variable {ρ : Type}

/-- A bus has come from another by the given landings. -/
structure Lands (b : Bus ρ) (landings : List Landing) (e : Bus ρ) : Prop where
  elapsed : e.elapsed = b.elapsed
  inFlight : e.inFlight = b.inFlight
  nodes : e.inboxes.length = b.inboxes.length
  inbox : ∀ node, e.inbox node =
    b.inbox node ++ (landings.filter (·.reaches node)).map (·.shipment.frame)
  sent : e.stats.sent = b.stats.sent
  dropped : e.stats.dropped = b.stats.dropped + .ofNat (landings.countP (·.lost))
  delivered : e.stats.delivered = b.stats.delivered + .ofNat (landings.map (·.copies)).sum
  overruns : e.stats.overruns = b.stats.overruns + .ofNat (landings.map (·.overruns)).sum

theorem Lands.refl (b : Bus ρ) : b.Lands [] b where
  elapsed := rfl
  inFlight := rfl
  nodes := rfl
  inbox _ := (List.append_nil _).symm
  sent := rfl
  dropped := (UInt64.add_zero _).symm
  delivered := (UInt64.add_zero _).symm
  overruns := (UInt64.add_zero _).symm

theorem Lands.trans {b e f : Bus ρ} {first more : List Landing} (h : b.Lands first e)
    (h' : e.Lands more f) : b.Lands (first ++ more) f where
  elapsed := h'.elapsed.trans h.elapsed
  inFlight := h'.inFlight.trans h.inFlight
  nodes := h'.nodes.trans h.nodes
  inbox node := by
    rw [h'.inbox, h.inbox, List.filter_append, List.map_append, List.append_assoc]
  sent := h'.sent.trans h.sent
  dropped := by
    rw [h'.dropped, h.dropped, List.countP_append, UInt64.ofNat_add, UInt64.add_assoc]
  delivered := by
    rw [h'.delivered, h.delivered, List.map_append, List.sum_append, UInt64.ofNat_add,
      UInt64.add_assoc]
  overruns := by
    rw [h'.overruns, h.overruns, List.map_append, List.sum_append, UInt64.ofNat_add,
      UInt64.add_assoc]

theorem inbox_spread (b : Bus ρ) (x : InFlight) (node : Nat) :
    (b.spread x).1.inbox node =
      if node < b.inboxes.length ∧ fits x.sender node (b.inbox node) = true then
        b.inbox node ++ [x.frame]
      else b.inbox node := by
  rcases Nat.lt_or_ge node b.inboxes.length with inside | outside
  · simp [inbox, spread, inside]
  · simp [inbox, spread, Nat.not_lt.mpr outside]

theorem delivered_spread (b : Bus ρ) (x : InFlight) :
    (b.spread x).1.stats.delivered =
      b.stats.delivered +
        .ofNat ((List.range b.inboxes.length).countP fun node =>
          fits x.sender node (b.inbox node)) := by
  simp only [spread, zipIdx_eq_map_range b.inboxes [], List.countP_map]
  rfl

theorem overruns_spread (b : Bus ρ) (x : InFlight) :
    (b.spread x).1.stats.overruns =
      b.stats.overruns +
        .ofNat ((List.range b.inboxes.length).countP fun node =>
          node ≠ x.sender && inboxDepth ≤ (b.inbox node).length) := by
  simp only [spread, fullNodes, zipIdx_eq_map_range b.inboxes [], List.length_map,
    ← List.countP_eq_length_filter, List.countP_map]
  rfl

variable [Chance ρ]

/-- What becomes of a frame that arrives now. -/
def landing (b : Bus ρ) (x : Shipment) : Landing :=
  ⟨x, b.elapsed, (Chance.loses b.chance).1, b.inboxes⟩

/-- What becomes of frames that arrive now, one after the other. -/
def landings (b : Bus ρ) : List Shipment → List Landing
  | [] => []
  | x :: rest => b.landing x :: (b.arrive x.inFlight).1.landings rest

theorem arrive_of_lost {b : Bus ρ} (lost : (Chance.loses b.chance).1 = true) (x : InFlight) :
    (b.arrive x).1 =
      { b with
        chance := (Chance.loses b.chance).2
        stats := { b.stats with dropped := b.stats.dropped + 1 } } := by
  simp only [arrive, lost, ↓reduceIte]

theorem arrive_of_kept {b : Bus ρ} (kept : (Chance.loses b.chance).1 = false) (x : InFlight) :
    b.arrive x = { b with chance := (Chance.loses b.chance).2 }.spread x := by
  simp only [arrive, kept, Bool.false_eq_true, ↓reduceIte]

theorem lands_of_lost {b : Bus ρ} (lost : (Chance.loses b.chance).1 = true) (x : Shipment) :
    b.Lands [b.landing x] (b.arrive x.inFlight).1 := by
  have hfor := (b.landing x).isFor_of_lost lost
  have hreaches : ∀ node, (b.landing x).reaches node = false := fun node => by
    rw [Landing.reaches, hfor, Bool.false_and]
  obtain ⟨hcopies, hoverruns⟩ :=
    Nat.add_eq_zero_iff.mp ((b.landing x).copies_add_overruns_of_lost lost)
  have hlost : (b.landing x).lost = true := lost
  rw [arrive_of_lost lost]
  exact
    { elapsed := rfl
      inFlight := rfl
      nodes := rfl
      inbox := fun node => by simp [inbox, hreaches]
      sent := rfl
      dropped := by simp [hlost]
      delivered := by
        rw [List.map_singleton, List.sum_singleton, hcopies]
        exact (UInt64.add_zero _).symm
      overruns := by
        rw [List.map_singleton, List.sum_singleton, hoverruns]
        exact (UInt64.add_zero _).symm }

section Kept

variable {b : Bus ρ} (kept : (Chance.loses b.chance).1 = false) (x : Shipment) (node : Nat)

include kept

theorem isFor_landing :
    (b.landing x).isFor node =
      (decide (node < b.inboxes.length) && decide (node ≠ x.sender)) := by
  have hlost : (b.landing x).lost = false := kept
  rw [Landing.isFor, hlost]
  rfl

theorem reaches_landing :
    (b.landing x).reaches node =
      (decide (node < b.inboxes.length) && fits x.sender node (b.inbox node)) := by
  rw [Landing.reaches, isFor_landing kept, Bool.and_assoc]
  rfl

theorem misses_landing :
    (b.landing x).misses node =
      (decide (node < b.inboxes.length) &&
        (node ≠ x.sender && inboxDepth ≤ (b.inbox node).length)) := by
  rw [Landing.misses, isFor_landing kept, Bool.and_assoc]
  rfl

theorem copies_landing :
    (b.landing x).copies =
      (List.range b.inboxes.length).countP fun node => fits x.sender node (b.inbox node) := by
  refine List.countP_congr fun node hnode => ?_
  have inside : node < b.inboxes.length := List.mem_range.mp hnode
  rw [reaches_landing kept, decide_eq_true inside, Bool.true_and]

theorem overruns_landing :
    (b.landing x).overruns =
      (List.range b.inboxes.length).countP fun node =>
        node ≠ x.sender && inboxDepth ≤ (b.inbox node).length := by
  refine List.countP_congr fun node hnode => ?_
  have inside : node < b.inboxes.length := List.mem_range.mp hnode
  rw [misses_landing kept, decide_eq_true inside, Bool.true_and]

theorem lands_of_kept : b.Lands [b.landing x] (b.arrive x.inFlight).1 := by
  have hlost : (b.landing x).lost = false := kept
  rw [arrive_of_kept kept]
  exact
    { elapsed := rfl
      inFlight := rfl
      nodes := by simp [spread]
      inbox := fun node => by
        have hreaches := reaches_landing kept x node
        refine (inbox_spread _ _ node).trans ?_
        split
        next fitting =>
          have hyes : (b.landing x).reaches node = true := by
            rw [hreaches, Bool.and_eq_true, decide_eq_true_eq]
            exact fitting
          simp only [List.filter_cons, hyes, ↓reduceIte]
          rfl
        next unfit =>
          have hno : (b.landing x).reaches node = false := by
            rw [hreaches, ← Bool.not_eq_true, Bool.and_eq_true, decide_eq_true_eq]
            exact unfit
          simp only [List.filter_cons, hno]
          exact (List.append_nil _).symm
      sent := rfl
      dropped := by simp [hlost, spread]
      delivered := by
        rw [List.map_singleton, List.sum_singleton, copies_landing kept]
        exact delivered_spread _ _
      overruns := by
        rw [List.map_singleton, List.sum_singleton, overruns_landing kept]
        exact overruns_spread _ _ }

end Kept

theorem lands_arrive (b : Bus ρ) (x : Shipment) :
    b.Lands [b.landing x] (b.arrive x.inFlight).1 := by
  cases lost : (Chance.loses b.chance).1 with
  | true => exact lands_of_lost lost x
  | false => exact lands_of_kept lost x

theorem lands_arriveAll (b : Bus ρ) (xs : List Shipment) :
    b.Lands (b.landings xs) (b.arriveAll (xs.map Shipment.inFlight)).1 := by
  induction xs generalizing b with
  | nil => exact .refl b
  | cons x xs ih => exact (lands_arrive b x).trans (ih _)

theorem map_shipment_landings (b : Bus ρ) (xs : List Shipment) :
    (b.landings xs).map (·.shipment) = xs := by
  induction xs generalizing b with
  | nil => rfl
  | cons x xs ih => exact congrArg (x :: ·) (ih _)

/-- What is still in flight does not matter to what arrives. -/
theorem landings_inFlight (b : Bus ρ) (later : List InFlight) (xs : List Shipment) :
    { b with inFlight := later }.landings xs = b.landings xs := by
  induction xs generalizing b with
  | nil => rfl
  | cons x xs ih =>
    have harrive : ({ b with inFlight := later }.arrive x.inFlight).1 =
        { (b.arrive x.inFlight).1 with inFlight := later } := by
      cases lost : (Chance.loses b.chance).1 <;> simp only [arrive, lost] <;> rfl
    rw [landings, harrive, ih]
    rfl

/-- All that arrives at once arrives at one time and finds the same nodes. -/
theorem landings_now {b : Bus ρ} {xs : List Shipment} {l : Landing} (h : l ∈ b.landings xs) :
    l.time = b.elapsed ∧ l.queues.length = b.inboxes.length := by
  induction xs generalizing b with
  | nil => cases h
  | cons x xs ih =>
    rcases List.mem_cons.mp h with rfl | h
    · exact ⟨rfl, rfl⟩
    · have hlands := lands_arrive b x
      obtain ⟨htime, hnodes⟩ := ih h
      exact ⟨htime.trans hlands.elapsed, hnodes.trans hlands.nodes⟩

theorem bounded_arrive {b : Bus ρ} (bounded : ∀ node, (b.inbox node).length ≤ inboxDepth)
    (x : Shipment) (node : Nat) :
    ((b.arrive x.inFlight).1.inbox node).length ≤ inboxDepth := by
  rw [(lands_arrive b x).inbox]
  cases hreaches : (b.landing x).reaches node with
  | false => simpa [hreaches] using bounded node
  | true =>
    have hroom : (b.inbox node).length < inboxDepth :=
      of_decide_eq_true (Bool.and_eq_true_iff.mp hreaches).2
    simpa [hreaches] using Nat.succ_le_of_lt hroom

theorem bounded_landings {b : Bus ρ} (bounded : ∀ node, (b.inbox node).length ≤ inboxDepth)
    (xs : List Shipment) :
    (∀ node, ((b.arriveAll (xs.map Shipment.inFlight)).1.inbox node).length ≤ inboxDepth) ∧
      ∀ l ∈ b.landings xs, ∀ node, (l.queue node).length ≤ inboxDepth := by
  induction xs generalizing b with
  | nil => exact ⟨bounded, fun _ h => nomatch h⟩
  | cons x xs ih =>
    obtain ⟨hafter, hqueues⟩ := ih (bounded_arrive bounded x)
    refine ⟨hafter, fun l h => ?_⟩
    rcases List.mem_cons.mp h with rfl | h
    · exact bounded
    · exact hqueues l h

end Bus

end Fieldbus
