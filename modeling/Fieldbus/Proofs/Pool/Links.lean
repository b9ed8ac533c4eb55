import Fieldbus.Proofs.Deadlines
import Mathlib.Data.Fintype.Card
import Mathlib.Data.List.FinRange

namespace Fieldbus

section Route

variable {ι : Type} {next next' : ι → Option ι} {head last : Option ι}

/-- The links lead from `head` through the listed entries on to `last`. -/
def Route (next : ι → Option ι) (head : Option ι) : List ι → Option ι → Prop
  | [], last => head = last
  | i :: l, last => head = some i ∧ Route next (next i) l last

theorem Route.congr {l : List ι} (h : Route next head l last) (hn : ∀ i ∈ l, next' i = next i) :
    Route next' head l last := by
  induction l generalizing head with
  | nil => exact h
  | cons i l ih =>
    refine ⟨h.1, ?_⟩
    rw [hn i List.mem_cons_self]
    exact ih h.2 fun j hj => hn j (List.mem_cons_of_mem i hj)

/-- A walk that may be as long as the way to the end goes all this way. -/
theorem Route.walk_eq {l : List ι} {n : Nat} (h : Route next head l none) (hl : l.length ≤ n) :
    walk next n head = l := by
  induction l generalizing head n with
  | nil =>
    obtain rfl : head = none := h
    cases n <;> rfl
  | cons i l ih =>
    cases n with
    | zero => simp at hl
    | succ n =>
      obtain ⟨rfl, h⟩ := h
      rw [walk, ih h (by simpa using hl)]

/-- Slots that are all different are no more than there are. -/
theorem Route.walk_eq_of_nodup {N : Nat} {next : Fin N → Option (Fin N)} {head : Option (Fin N)}
    {l : List (Fin N)} (h : Route next head l none) (hn : l.Nodup) : walk next N head = l :=
  h.walk_eq (by simpa using hn.length_le_card)

end Route

namespace Slot

variable {N : Nat} (s : Slot N) (f : Nat → Option (Fin N) → Nat × Option (Fin N)) (q : PendingQuery)

@[simp] theorem query?_mapLink : (s.mapLink f).query? = s.query? := by
  rcases s with next | ⟨q, _ | ⟨delay, next⟩⟩ <;> rfl

@[simp] theorem nextFree_mapLink : (s.mapLink f).nextFree = s.nextFree := by
  rcases s with next | ⟨q, _ | ⟨delay, next⟩⟩ <;> rfl

@[simp] theorem link?_mapLink : (s.mapLink f).link? = s.link?.map fun l => f l.1 l.2 := by
  rcases s with next | ⟨q, _ | ⟨delay, next⟩⟩ <;> rfl

@[simp] theorem query?_setLink (link : Link N) : (s.setLink link).query? = s.query? := by
  cases s <;> rfl

@[simp] theorem nextFree_setLink (link : Link N) : (s.setLink link).nextFree = s.nextFree := by
  cases s <;> rfl

theorem link?_setLink_queued (delay : Nat) (next : Option (Fin N)) :
    (s.setLink (.queued delay next)).link? = s.query?.map fun _ => (delay, next) := by
  cases s <;> rfl

@[simp] theorem link?_setLink_forever : (s.setLink .forever).link? = none := by
  cases s <;> rfl

@[simp] theorem query?_setQuery : (s.setQuery q).query? = s.query?.map fun _ => q := by
  cases s <;> rfl

@[simp] theorem nextFree_setQuery : (s.setQuery q).nextFree = s.nextFree := by
  cases s <;> rfl

@[simp] theorem link?_setQuery : (s.setQuery q).link? = s.link? := by
  rcases s with next | ⟨q, _ | ⟨delay, next⟩⟩ <;> rfl

theorem mapLink_setQuery : (s.setQuery q).mapLink f = (s.mapLink f).setQuery q := by
  rcases s with next | ⟨q, _ | ⟨delay, next⟩⟩ <;> rfl

theorem setLink_setQuery (link : Link N) :
    (s.setQuery q).setLink link = (s.setLink link).setQuery q := by
  cases s <;> rfl

end Slot

namespace Pool

variable {N : Nat}

section Modify

variable (p : Pool N) (i j : Fin N) (f : Slot N → Slot N)

theorem slot_modify : (p.modify i f).slot j = if j = i then f (p.slot i) else p.slot j := by
  change (p.slots.set i (f (p.slot i)) i.isLt)[j.val] = _
  rw [Vector.getElem_set]
  by_cases h : j = i
  · simp [h]
  · have hne : i.val ≠ j.val := fun hh => h (Fin.ext hh.symm)
    rw [if_neg hne, if_neg h]
    rfl

@[simp] theorem slot_modify_self : (p.modify i f).slot i = f (p.slot i) := by simp [slot_modify]

/-- What a change leaves alone in one slot stays the same in all. -/
theorem modify_frame {β : Type} {g : Slot N → β} (hf : ∀ s, g (f s) = g s) :
    g ((p.modify i f).slot j) = g (p.slot j) := by
  rw [slot_modify]
  by_cases h : j = i
  · rw [if_pos h, hf, h]
  · rw [if_neg h]

theorem link?_modify_of_ne {i j : Fin N} (h : j ≠ i) : (p.modify i f).link? j = p.link? j := by
  simp only [link?, slot_modify, if_neg h]

end Modify

section Links

variable (p : Pool N) (i j : Fin N)

theorem link?_mapDelay (f : Nat → Nat) :
    (p.mapDelay i f).link? j =
      if j = i then (p.link? i).map fun l => (f l.1, l.2) else p.link? j := by
  by_cases h : j = i
  · subst h
    simp [mapDelay, link?]
  · rw [mapDelay, link?_modify_of_ne _ _ h, if_neg h]

theorem link?_relink (prev next : Option (Fin N)) :
    (p.relink prev next).link? j =
      if prev = some j then (p.link? j).map fun l => (l.1, next) else p.link? j := by
  cases prev with
  | none => rfl
  | some k =>
    by_cases h : j = k
    · subst h
      simp [relink, link?]
    · have hk : ¬ some k = some j := fun hh => h (Option.some.inj hh).symm
      rw [relink, link?_modify_of_ne _ _ h, if_neg hk]

end Links

/-- The queries, the free slots and the addresses stay; only the queue may be another one. -/
structure SameQueries (p p' : Pool N) : Prop where
  query? : ∀ i, p'.query? i = p.query? i
  nextFree : ∀ i, p'.nextFree i = p.nextFree i
  freeHead : p'.freeHead = p.freeHead
  pending : p'.pending = p.pending

section SameQueries

variable {p p' p'' : Pool N}

theorem SameQueries.refl (p : Pool N) : p.SameQueries p := ⟨fun _ => rfl, fun _ => rfl, rfl, rfl⟩

theorem SameQueries.trans (h : p.SameQueries p') (h' : p'.SameQueries p'') : p.SameQueries p'' where
  query? i := (h'.query? i).trans (h.query? i)
  nextFree i := (h'.nextFree i).trans (h.nextFree i)
  freeHead := h'.freeHead.trans h.freeHead
  pending := h'.pending.trans h.pending

theorem sameQueries_modify (p : Pool N) (i : Fin N) {f : Slot N → Slot N}
    (hq : ∀ s, (f s).query? = s.query?) (hn : ∀ s, (f s).nextFree = s.nextFree) :
    p.SameQueries (p.modify i f) where
  query? j := modify_frame p i j f hq
  nextFree j := modify_frame p i j f hn
  freeHead := rfl
  pending := rfl

theorem sameQueries_mapDelay (p : Pool N) (i : Fin N) (f : Nat → Nat) :
    p.SameQueries (p.mapDelay i f) :=
  sameQueries_modify p i (fun s => s.query?_mapLink _) fun s => s.nextFree_mapLink _

theorem sameQueries_elim_mapDelay (p : Pool N) (next : Option (Fin N)) (f : Nat → Nat) :
    p.SameQueries (next.elim p fun k => p.mapDelay k f) := by
  cases next with
  | none => exact .refl p
  | some k => exact sameQueries_mapDelay p k f

theorem sameQueries_setLink (p : Pool N) (i : Fin N) (link : Link N) :
    p.SameQueries (p.modify i (.setLink link)) :=
  sameQueries_modify p i (fun s => s.query?_setLink link) fun s => s.nextFree_setLink link

theorem sameQueries_relink (p : Pool N) (prev next : Option (Fin N)) :
    p.SameQueries (p.relink prev next) := by
  cases prev with
  | none => exact ⟨fun _ => rfl, fun _ => rfl, rfl, rfl⟩
  | some k =>
    exact sameQueries_modify p k (fun s => s.query?_mapLink _) fun s => s.nextFree_mapLink _

theorem sameQueries_schedule (p : Pool N) (i : Fin N) (ms : Nat) :
    p.SameQueries (p.schedule i ms) :=
  ((sameQueries_elim_mapDelay p _ _).trans (sameQueries_setLink _ i _)).trans
    (sameQueries_relink _ _ _)

theorem sameQueries_unschedule (p : Pool N) (i : Fin N) : p.SameQueries (p.unschedule i) := by
  unfold unschedule
  split
  next =>
    exact ((sameQueries_elim_mapDelay p _ _).trans (sameQueries_relink _ _ _)).trans
      (sameQueries_setLink _ i _)
  next => exact .refl p

/-- What no change of a delay touches stays when time passes. -/
theorem elapseFrom_preserve {P : Pool N → Prop} (keep : ∀ p i f, P p → P (p.mapDelay i f))
    {p : Pool N} (hp : P p) (ms : Nat) (l : List (Fin N)) : P (p.elapseFrom ms l) := by
  induction l generalizing p ms with
  | nil => exact hp
  | cons i l ih =>
    unfold elapseFrom
    split
    next => exact hp
    next =>
      split
      next => exact hp
      next =>
        split
        next => exact ih (keep _ _ _ hp) _
        next => exact keep _ _ _ hp

theorem sameQueries_elapse (p : Pool N) (ms : Nat) : p.SameQueries (p.elapse ms) :=
  elapseFrom_preserve (fun p' i f h => h.trans (sameQueries_mapDelay p' i f)) (.refl p) ms p.queue

@[simp] theorem queueHead_elapse (p : Pool N) (ms : Nat) :
    (p.elapse ms).queueHead = p.queueHead :=
  elapseFrom_preserve (P := fun p' => p'.queueHead = p.queueHead) (fun _ _ _ h => h) rfl ms p.queue

end SameQueries

end Pool

end Fieldbus
