import Fieldbus.Proofs.Pool.Queue

namespace Fieldbus

namespace Slot

variable {N : Nat} {s : Slot N}

theorem eq_free (h : s.query? = none) : s = .free s.nextFree := by
  cases s with
  | free next => rfl
  | inUse q link => simp [query?] at h

theorem link?_eq_none (h : s.query? = none) : s.link? = none := by
  rw [eq_free h]
  rfl

theorem query?_eq_none_iff : s.query? = none ↔ ∃ next, s = .free next := by
  cases s <;> simp [query?]

theorem query?_eq_some_iff {q : PendingQuery} : s.query? = some q ↔ ∃ link, s = .inUse q link := by
  cases s <;> simp [query?]

theorem isSome_link?_iff :
    s.link?.isSome = true ↔ ∃ q delay next, s = .inUse q (.queued delay next) := by
  rcases s with next | ⟨q, _ | ⟨delay, next⟩⟩ <;> simp [link?]

end Slot

namespace Pool

variable {N : Nat} {p p' : Pool N} {i j : Fin N} {q r : PendingQuery}

theorem link?_eq_none (h : p.query? i = none) : p.link? i = none := Slot.link?_eq_none h

/-- The free slots are linked in this order. -/
structure Frees (p : Pool N) (l : List (Fin N)) : Prop where
  route : Route p.nextFree p.freeHead l none
  nodup : l.Nodup
  mem : ∀ i, i ∈ l ↔ p.query? i = none

theorem Frees.freeSlots_eq {l : List (Fin N)} (h : p.Frees l) : p.freeSlots = l :=
  h.route.walk_eq_of_nodup h.nodup

theorem Frees.congr {l : List (Fin N)} (h : p.Frees l) (hh : p'.freeHead = p.freeHead)
    (hn : ∀ i, p'.nextFree i = p.nextFree i) (hq : ∀ i, p'.query? i = p.query? i) :
    p'.Frees l where
  route := by
    rw [hh]
    exact h.route.congr fun i _ => hn i
  nodup := h.nodup
  mem i := by rw [hq, h.mem]

theorem Frees.of_sameQueries {l : List (Fin N)} (h : p.Frees l) (hs : p.SameQueries p') :
    p'.Frees l :=
  h.congr hs.freeHead hs.nextFree hs.query?

/-- The delay of a query after the one before it. -/
def delay (p : Pool N) (i : Fin N) : Nat := ((p.link? i).map Prod.fst).getD 0

/-- The queries that wait with their delays, in order of expiry. -/
def deadlines (p : Pool N) : Deadlines (Fin N) := p.queue.map fun i => (i, p.delay i)

theorem Segment.map_keys {head last : Option (Fin N)} {q : Deadlines (Fin N)}
    (h : p.Segment head q last) :
    (q.keys.map fun i => (i, p.delay i)) = q := by
  induction q generalizing head with
  | nil => rfl
  | cons e q ih =>
    obtain ⟨_, next, hl, hs⟩ := h
    rw [Deadlines.keys_cons, List.map_cons, ih hs, delay, hl]
    rfl

theorem Segment.delay_eq {head last : Option (Fin N)} {q : Deadlines (Fin N)} {delay : Nat}
    (h : p.Segment head q last) (hi : (i, delay) ∈ q) : p.delay i = delay := by
  rw [← h.map_keys] at hi
  obtain ⟨j, _, he⟩ := List.mem_map.mp hi
  cases he
  rfl

theorem Queues.deadlines_eq {q : Deadlines (Fin N)} (h : p.Queues q) : p.deadlines = q := by
  rw [deadlines, h.queue_eq, h.segment.map_keys]

theorem Queues.congr {q : Deadlines (Fin N)} (h : p.Queues q) (hh : p'.queueHead = p.queueHead)
    (hl : ∀ i, p'.link? i = p.link? i) : p'.Queues q where
  segment := by
    rw [hh]
    exact h.segment.congr fun i _ => hl i
  nodup := h.nodup
  mem_keys i := by rw [hl, h.mem_keys]

/-- The free slots, the queue and the addresses agree with the queries in the slots. -/
structure WellKept (p : Pool N) : Prop where
  frees : p.Frees p.freeSlots
  queues : p.Queues p.deadlines
  handle : ∀ i q, p.query? i = some q → q.handle = ⟨i⟩
  did_inj : ∀ i j q r, p.query? i = some q → p.query? j = some r → q.did = r.did → i = j
  contains : ∀ d, p.pending.contains d = true ↔ ∃ i q, p.query? i = some q ∧ q.did = d
  total_le : p.deadlines.total ≤ maxSpan

section New

theorem slot_new (i : Fin N) :
    (new : Pool N).slot i = .free (if h : i.val + 1 < N then some ⟨i.val + 1, h⟩ else none) := by
  change (Vector.ofFn _)[i.val] = _
  simp

@[simp] theorem query?_new (i : Fin N) : (new : Pool N).query? i = none := by
  rw [query?, slot_new]
  rfl

theorem route_new (k : Nat) (hk : k ≤ N) :
    Route (new : Pool N).nextFree (if h : k < N then some ⟨k, h⟩ else none)
      ((List.finRange N).drop k) none := by
  -- The slots from `k` on are linked; the induction goes down from the last one.
  induction hn : N - k generalizing k with
  | zero =>
    have hkn : k = N := by omega
    rw [dif_neg (by omega), List.drop_eq_nil_of_le (by simp [hkn])]
    rfl
  | succ n ih =>
    have hlt : k < N := by omega
    have hdrop : (List.finRange N).drop k = ⟨k, hlt⟩ :: (List.finRange N).drop (k + 1) := by
      rw [List.drop_eq_getElem_cons (by simpa using hlt)]
      simp
    rw [hdrop, dif_pos hlt]
    refine ⟨rfl, ?_⟩
    have hnext := ih (k + 1) hlt (by omega)
    rw [nextFree, slot_new]
    exact hnext

theorem frees_new : (new : Pool N).Frees (List.finRange N) where
  route := by
    have h := route_new 0 (Nat.zero_le N)
    rwa [List.drop_zero] at h
  nodup := List.nodup_finRange N
  mem i := by simp

theorem queues_new : (new : Pool N).Queues [] where
  segment := rfl
  nodup := List.nodup_nil
  mem_keys i := by simp [link?_eq_none (query?_new i)]

theorem wellKept_new : (new : Pool N).WellKept where
  frees := by
    rw [frees_new.freeSlots_eq]
    exact frees_new
  queues := by
    rw [queues_new.deadlines_eq]
    exact queues_new
  handle i q h := by simp at h
  did_inj i j q r h := by simp at h
  contains d := by
    refine iff_of_false (Bool.eq_false_iff.mp (DidSet.contains_empty d)) ?_
    rintro ⟨i, q, hq, _⟩
    simp at hq
  total_le := by
    rw [queues_new.deadlines_eq]
    exact Nat.zero_le _

end New

section Fill

variable {timeout : Timeout}

/-- A slot takes a query that waits for no deadline yet. -/
def hold (p : Pool N) (i : Fin N) (q : PendingQuery) : Pool N :=
  p.modify i fun _ => .inUse q .forever

theorem query?_hold (p : Pool N) (i j : Fin N) (q : PendingQuery) :
    (p.hold i q).query? j = if j = i then some q else p.query? j := by
  rw [query?, hold, slot_modify]
  split <;> rfl

theorem link?_hold_self (p : Pool N) (i : Fin N) (q : PendingQuery) :
    (p.hold i q).link? i = none := by
  rw [link?, hold, slot_modify_self]
  rfl

/-- Apart from its address, only the deadline of a query is added to the slot that holds it. -/
theorem fill_eq (p : Pool N) (i : Fin N) (q : PendingQuery) (timeout : Timeout) :
    ∃ r, (p.hold i q).SameQueries r ∧
      p.fill i q timeout = { r with pending := r.pending.insert q.did } := by
  cases timeout with
  | millis ms => exact ⟨_, sameQueries_schedule (p.hold i q) i ms.toNat, rfl⟩
  | untracked => exact ⟨_, .refl (p.hold i q), rfl⟩
  | forever => exact ⟨_, .refl (p.hold i q), rfl⟩

theorem query?_fill (p : Pool N) (i j : Fin N) (q : PendingQuery) (timeout : Timeout) :
    (p.fill i q timeout).query? j = if j = i then some q else p.query? j := by
  obtain ⟨r, hsame, heq⟩ := p.fill_eq i q timeout
  rw [heq, ← query?_hold]
  exact hsame.query? j

theorem pending_fill (p : Pool N) (i : Fin N) (q : PendingQuery) (timeout : Timeout) :
    (p.fill i q timeout).pending = p.pending.insert q.did := by
  obtain ⟨r, hsame, heq⟩ := p.fill_eq i q timeout
  rw [heq]
  exact congrArg (DidSet.insert · q.did) hsame.pending

theorem query?_fill_alloc (ha : p.alloc? = some (i, p')) :
    (p'.fill i q timeout).query? j = if j = i then some q else p.query? j := by
  obtain ⟨k, _, he⟩ := Option.map_eq_some_iff.mp ha
  cases he
  exact query?_fill _ i j q timeout

theorem pending_fill_alloc (ha : p.alloc? = some (i, p')) :
    (p'.fill i q timeout).pending = p.pending.insert q.did := by
  obtain ⟨k, _, he⟩ := Option.map_eq_some_iff.mp ha
  cases he
  exact pending_fill _ i q timeout

/-- The first free slot holds no query, and the others follow it. -/
theorem WellKept.alloc (h : p.WellKept) (ha : p.alloc? = some (i, p')) :
    p' = { p with freeHead := p.nextFree i } ∧ p.freeHead = some i ∧ p.query? i = none ∧
      ∃ rest, p.freeSlots = i :: rest ∧ Route p.nextFree (p.nextFree i) rest none ∧
        i ∉ rest ∧ rest.Nodup := by
  obtain ⟨k, hhead, he⟩ := Option.map_eq_some_iff.mp ha
  cases he
  obtain ⟨hroute, hnodup, hmem⟩ := h.frees
  rw [hhead] at hroute
  cases hl : p.freeSlots with
  | nil =>
    rw [hl] at hroute
    simp [Route] at hroute
  | cons k rest =>
    rw [hl] at hroute hnodup hmem
    obtain ⟨hk, hrest⟩ := hroute
    cases Option.some.inj hk
    obtain ⟨hi, hnodup⟩ := List.nodup_cons.mp hnodup
    exact ⟨rfl, hhead, (hmem i).mp List.mem_cons_self, rest, rfl, hrest, hi, hnodup⟩

/-- A slot that was taken and not filled goes back to where it was. -/
theorem WellKept.release_alloc (h : p.WellKept) (ha : p.alloc? = some (i, p')) :
    p'.release i = p := by
  obtain ⟨rfl, hhead, hfree, _⟩ := h.alloc ha
  have hslot : p.slots[i.val] = .free (p.nextFree i) := Slot.eq_free hfree
  have hslots : p.slots.set i (.free (p.nextFree i)) i.isLt = p.slots := by
    rw [← hslot, Vector.set_getElem_self]
  change ({ p with slots := p.slots.set i (.free (p.nextFree i)) i.isLt, freeHead := some i } :
    Pool N) = p
  rw [hslots, ← hhead]

theorem WellKept.frees_fill (h : p.WellKept) (ha : p.alloc? = some (i, p')) :
    (p'.fill i q timeout).Frees p.freeSlots.tail := by
  obtain ⟨rfl, _, hfree, rest, hl, hroute, hi, hnodup⟩ := h.alloc ha
  obtain ⟨r, hsame, heq⟩ := fill_eq { p with freeHead := p.nextFree i } i q timeout
  have hheld : (hold { p with freeHead := p.nextFree i } i q).Frees rest := by
    refine ⟨hroute.congr fun j hj => ?_, hnodup, fun j => ?_⟩
    · have hne : j ≠ i := fun hh => hi (hh ▸ hj)
      rw [nextFree, hold, slot_modify, if_neg hne]
      rfl
    · have hmem := h.frees.mem j
      rw [hl, List.mem_cons] at hmem
      rw [query?_hold]
      by_cases hj : j = i
      · simp [hj, hi]
      · simp only [hj, false_or] at hmem
        rw [if_neg hj]
        exact hmem
  rw [hl, List.tail_cons, heq]
  exact (hheld.of_sameQueries hsame).congr rfl (fun _ => rfl) fun _ => rfl

theorem WellKept.queues_fill (h : p.WellKept) (ha : p.alloc? = some (i, p')) :
    (p'.fill i q timeout).Queues (p.deadlines.enlist i timeout) := by
  obtain ⟨rfl, _, hfree, _⟩ := h.alloc ha
  have hlink := link?_hold_self { p with freeHead := p.nextFree i } i q
  have hquery := query?_hold { p with freeHead := p.nextFree i } i i q
  rw [if_pos rfl] at hquery
  have hheld : (hold { p with freeHead := p.nextFree i } i q).Queues p.deadlines := by
    refine h.queues.congr rfl fun j => ?_
    by_cases hj : j = i
    · rw [hj, hlink, link?_eq_none hfree]
    · exact link?_modify_of_ne _ _ hj
  cases timeout with
  | millis ms => exact (hheld.schedule hquery hlink).congr rfl fun _ => rfl
  | untracked => exact hheld.congr rfl fun _ => rfl
  | forever => exact hheld.congr rfl fun _ => rfl

theorem wellKept_of {l : List (Fin N)} {entries : Deadlines (Fin N)} (frees : p.Frees l)
    (queues : p.Queues entries) (total_le : entries.total ≤ maxSpan)
    (handle : ∀ i q, p.query? i = some q → q.handle = ⟨i⟩)
    (did_inj : ∀ i j q r, p.query? i = some q → p.query? j = some r → q.did = r.did → i = j)
    (contains : ∀ d, p.pending.contains d = true ↔ ∃ i q, p.query? i = some q ∧ q.did = d) :
    p.WellKept where
  frees := by rwa [frees.freeSlots_eq]
  queues := by rwa [queues.deadlines_eq]
  handle := handle
  did_inj := did_inj
  contains := contains
  total_le := by rwa [queues.deadlines_eq]

/-- A query is taken into the first free slot. -/
theorem WellKept.fill (h : p.WellKept) (ha : p.alloc? = some (i, p')) (hh : q.handle = ⟨i⟩)
    (hd : p.pending.contains q.did = false) : (p'.fill i q timeout).WellKept := by
  obtain ⟨_, _, hi, _⟩ := h.alloc ha
  -- Every query is the new one or an old one, and the two have different addresses.
  have hquery : ∀ j, (p'.fill i q timeout).query? j = if j = i then some q else p.query? j :=
    fun j => query?_fill_alloc ha
  have hother : ∀ j r, p.query? j = some r → r.did ≠ q.did := by
    intro j r hr he
    exact Bool.false_ne_true (hd.symm.trans ((h.contains q.did).mpr ⟨j, r, hr, he⟩))
  refine wellKept_of (h.frees_fill ha) (h.queues_fill ha)
    (Deadlines.total_enlist_le i timeout h.total_le) ?_ ?_ ?_
  · intro j r hr
    rw [hquery] at hr
    split at hr
    next hj =>
      cases Option.some.inj hr
      rw [hj, hh]
    next => exact h.handle j r hr
  · intro j k r s hr hs he
    rw [hquery] at hr hs
    split at hr
    next hj =>
      cases Option.some.inj hr
      split at hs
      next hk => rw [hj, hk]
      next => exact absurd he.symm (hother k s hs)
    next =>
      split at hs
      next hk =>
        cases Option.some.inj hs
        exact absurd he (hother j r hr)
      next => exact h.did_inj j k r s hr hs he
  · intro d
    rw [pending_fill_alloc ha, DidSet.contains_insert, Bool.or_eq_true, h.contains,
      decide_eq_true_iff]
    constructor
    · rintro (⟨j, r, hr, rfl⟩ | rfl)
      · have hj : j ≠ i := by
          rintro rfl
          simp [hi] at hr
        exact ⟨j, r, by rw [hquery, if_neg hj, hr], rfl⟩
      · exact ⟨i, q, by rw [hquery, if_pos rfl], rfl⟩
    · rintro ⟨j, r, hr, rfl⟩
      rw [hquery] at hr
      split at hr
      next =>
        cases Option.some.inj hr
        exact Or.inr rfl
      next => exact Or.inl ⟨j, r, hr, rfl⟩

end Fill

end Pool

end Fieldbus
