import Fieldbus.Proofs.Pool.WellKept

namespace Fieldbus

namespace Pool

variable {N : Nat} {p p' : Pool N} {i j : Fin N} {q r : PendingQuery}

section Finish

theorem slot_finish (p : Pool N) (i j : Fin N) (q : PendingQuery) :
    (p.finish i q).slot j =
      if j = i then .free (p.unschedule i).freeHead else (p.unschedule i).slot j :=
  slot_modify (p.unschedule i) i j fun _ => .free (p.unschedule i).freeHead

theorem query?_finish (p : Pool N) (i j : Fin N) (q : PendingQuery) :
    (p.finish i q).query? j = if j = i then none else p.query? j := by
  rw [query?, slot_finish]
  split
  next => rfl
  next => exact (sameQueries_unschedule p i).query? j

theorem pending_finish (p : Pool N) (i : Fin N) (q : PendingQuery) :
    (p.finish i q).pending = p.pending.erase q.did := rfl

theorem WellKept.frees_finish (h : p.WellKept) (hs : p.query? i = some q) :
    (p.finish i q).Frees (i :: p.freeSlots) := by
  have hf : (p.unschedule i).Frees p.freeSlots :=
    h.frees.of_sameQueries (sameQueries_unschedule p i)
  have hi : i ∉ p.freeSlots := by
    rw [h.frees.mem, hs]
    simp
  refine ⟨⟨rfl, ?_⟩, List.nodup_cons.mpr ⟨hi, hf.nodup⟩, fun j => ?_⟩
  · have hnext : (p.finish i q).nextFree i = (p.unschedule i).freeHead := by
      rw [nextFree, slot_finish, if_pos rfl]
      rfl
    rw [hnext]
    refine hf.route.congr fun j hj => ?_
    have hne : j ≠ i := fun hh => hi (hh ▸ hj)
    rw [nextFree, slot_finish, if_neg hne]
    rfl
  · rw [query?_finish, List.mem_cons, h.frees.mem]
    by_cases hj : j = i <;> simp [hj]

theorem WellKept.queues_finish (h : p.WellKept) :
    (p.finish i q).Queues (p.deadlines.remove i) := by
  have hq : (p.unschedule i).Queues (p.deadlines.remove i) := h.queues.unschedule
  refine hq.congr rfl fun j => ?_
  by_cases hj : j = i
  · subst hj
    have hnone : (p.unschedule j).link? j = none := by
      have hmem := hq.mem_keys j
      rw [Deadlines.keys_remove, h.queues.nodup.mem_erase_iff] at hmem
      simpa using hmem
    rw [hnone, link?_eq_none]
    rw [query?_finish, if_pos rfl]
  · rw [link?, slot_finish, if_neg hj]
    rfl

/-- A query ends: its slot is free again and nothing else is touched. -/
theorem WellKept.finish (h : p.WellKept) (hs : p.query? i = some q) : (p.finish i q).WellKept := by
  have hback : ∀ j r, (p.finish i q).query? j = some r → j ≠ i ∧ p.query? j = some r := by
    intro j r hr
    rw [query?_finish] at hr
    split at hr
    next => simp at hr
    next hj => exact ⟨hj, hr⟩
  refine wellKept_of (h.frees_finish hs) h.queues_finish
    (Nat.le_trans (Deadlines.total_remove_le i _) h.total_le) ?_ ?_ ?_
  · intro j r hr
    exact h.handle j r (hback j r hr).2
  · intro j k r s hr hs he
    exact h.did_inj j k r s (hback j r hr).2 (hback k s hs).2 he
  · intro d
    rw [pending_finish, DidSet.contains_erase, Bool.and_eq_true, h.contains, decide_eq_true_iff]
    constructor
    · rintro ⟨⟨j, r, hr, rfl⟩, hd⟩
      have hj : j ≠ i := by
        rintro rfl
        exact hd (by rw [Option.some.inj (hs.symm.trans hr)])
      exact ⟨j, r, by rw [query?_finish, if_neg hj, hr], rfl⟩
    · rintro ⟨j, r, hr, rfl⟩
      obtain ⟨hj, hr⟩ := hback j r hr
      exact ⟨⟨j, r, hr, rfl⟩, fun hd => hj (h.did_inj j i r q hr hs hd.symm)⟩

end Finish

section SetQuery

theorem query?_setQuery (hs : p.query? i = some q) :
    (p.setQuery i r).query? j = if j = i then some r else p.query? j := by
  rw [query?, setQuery, slot_modify]
  split
  next =>
    rw [Slot.query?_setQuery]
    change (p.query? i).map _ = _
    rw [hs]
    rfl
  next => rfl

theorem nextFree_setQuery (p : Pool N) (i j : Fin N) (r : PendingQuery) :
    (p.setQuery i r).nextFree j = p.nextFree j :=
  modify_frame p i j _ fun s => s.nextFree_setQuery r

theorem link?_setQuery (p : Pool N) (i j : Fin N) (r : PendingQuery) :
    (p.setQuery i r).link? j = p.link? j :=
  modify_frame p i j _ fun s => s.link?_setQuery r

theorem WellKept.frees_setQuery (h : p.WellKept) (hs : p.query? i = some q) :
    (p.setQuery i r).Frees p.freeSlots where
  route := h.frees.route.congr fun j _ => nextFree_setQuery p i j r
  nodup := h.frees.nodup
  mem j := by
    rw [query?_setQuery hs, h.frees.mem]
    by_cases hj : j = i
    · simp [hj, hs]
    · simp [hj]

theorem WellKept.queues_setQuery (h : p.WellKept) : (p.setQuery i r).Queues p.deadlines :=
  h.queues.congr rfl fun j => link?_setQuery p i j r

/-- A query that keeps its address and its handle may change otherwise. -/
theorem WellKept.setQuery (h : p.WellKept) (hs : p.query? i = some q) (hd : r.did = q.did)
    (hh : r.handle = q.handle) : (p.setQuery i r).WellKept := by
  have hback : ∀ j s, (p.setQuery i r).query? j = some s →
      ∃ t, p.query? j = some t ∧ s.did = t.did ∧ s.handle = t.handle := by
    intro j s hj
    rw [query?_setQuery hs] at hj
    split at hj
    next hi =>
      cases Option.some.inj hj
      exact ⟨q, hi ▸ hs, hd, hh⟩
    next => exact ⟨s, hj, rfl, rfl⟩
  refine wellKept_of (h.frees_setQuery hs) h.queues_setQuery h.total_le ?_ ?_ ?_
  · intro j s hj
    obtain ⟨t, ht, _, hst⟩ := hback j s hj
    exact hst.trans (h.handle j t ht)
  · intro j k s t hj hk he
    obtain ⟨s', hs', hds, _⟩ := hback j s hj
    obtain ⟨t', ht', hdt, _⟩ := hback k t hk
    exact h.did_inj j k s' t' hs' ht' (hds.symm.trans (he.trans hdt))
  · intro d
    change p.pending.contains d = true ↔ _
    rw [h.contains]
    constructor
    · rintro ⟨j, t, hj, rfl⟩
      by_cases hi : j = i
      · subst hi
        cases Option.some.inj (hs.symm.trans hj)
        exact ⟨j, r, by rw [query?_setQuery hs, if_pos rfl], hd⟩
      · exact ⟨j, t, by rw [query?_setQuery hs, if_neg hi, hj], rfl⟩
    · rintro ⟨j, s, hj, rfl⟩
      obtain ⟨t, ht, hdt, _⟩ := hback j s hj
      exact ⟨j, t, ht, hdt.symm⟩

theorem ext_slot (hs : ∀ i, p.slot i = p'.slot i) (hf : p.freeHead = p'.freeHead)
    (hq : p.queueHead = p'.queueHead) (hp : p.pending = p'.pending) : p = p' := by
  obtain ⟨slots, freeHead, queueHead, pending⟩ := p
  obtain ⟨slots', freeHead', queueHead', pending'⟩ := p'
  obtain rfl : freeHead = freeHead' := hf
  obtain rfl : queueHead = queueHead' := hq
  obtain rfl : pending = pending' := hp
  congr 1
  exact Vector.ext fun n hn => hs ⟨n, hn⟩

theorem modify_setQuery (p : Pool N) (i j : Fin N) (r : PendingQuery) {f : Slot N → Slot N}
    (hf : ∀ s, f (s.setQuery r) = (f s).setQuery r) :
    (p.setQuery i r).modify j f = (p.modify j f).setQuery i r := by
  refine ext_slot (fun k => ?_) rfl rfl rfl
  simp only [setQuery, slot_modify]
  by_cases hi : k = i <;> by_cases hj : k = j <;> grind

theorem queue_setQuery (p : Pool N) (i : Fin N) (r : PendingQuery) :
    (p.setQuery i r).queue = p.queue := by
  have hnext : (p.setQuery i r).nextQueued = p.nextQueued := by
    funext k
    rw [nextQueued, link?_setQuery, nextQueued]
  rw [queue, hnext, queue]
  rfl

theorem elim_mapDelay_setQuery (p : Pool N) (i : Fin N) (r : PendingQuery)
    (next : Option (Fin N)) (f : Nat → Nat) :
    (next.elim (p.setQuery i r) fun k => (p.setQuery i r).mapDelay k f) =
      (next.elim p fun k => p.mapDelay k f).setQuery i r := by
  cases next with
  | none => rfl
  | some k => exact modify_setQuery p i k r fun s => s.mapLink_setQuery _ r

theorem relink_setQuery (p : Pool N) (i : Fin N) (r : PendingQuery) (prev next : Option (Fin N)) :
    (p.setQuery i r).relink prev next = (p.relink prev next).setQuery i r := by
  cases prev with
  | none => rfl
  | some k => exact modify_setQuery p i k r fun s => s.mapLink_setQuery _ r

theorem unschedule_setQuery (p : Pool N) (i j : Fin N) (r : PendingQuery) :
    (p.setQuery i r).unschedule j = (p.unschedule j).setQuery i r := by
  unfold unschedule
  rw [link?_setQuery, queue_setQuery]
  split
  next =>
    simp only [elim_mapDelay_setQuery, relink_setQuery]
    exact modify_setQuery _ i j r fun s => s.setLink_setQuery r .forever
  next => rfl

/-- What is noted of a query is gone once it ends. -/
theorem finish_setQuery (p : Pool N) (i : Fin N) (hd : r.did = q.did) :
    (p.setQuery i r).finish i r = p.finish i q := by
  refine ext_slot (fun j => ?_) rfl ?_ ?_
  · rw [slot_finish, slot_finish, unschedule_setQuery]
    by_cases hj : j = i
    · rw [if_pos hj, if_pos hj]
      rfl
    · rw [if_neg hj, if_neg hj, setQuery, slot_modify, if_neg hj]
  · change ((p.setQuery i r).unschedule i).queueHead = (p.unschedule i).queueHead
    rw [unschedule_setQuery]
    rfl
  · rw [pending_finish, pending_finish, hd]
    rfl

end SetQuery

section Elapse

variable {ms : Nat}

theorem WellKept.frees_elapse (h : p.WellKept) : (p.elapse ms).Frees p.freeSlots :=
  h.frees.of_sameQueries (sameQueries_elapse p ms)

theorem WellKept.elapse (h : p.WellKept) (ms : Nat) : (p.elapse ms).WellKept := by
  have hsame := sameQueries_elapse p ms
  refine wellKept_of h.frees_elapse h.queues.elapse
    (Nat.le_trans (Deadlines.total_elapse_le ms _) h.total_le) ?_ ?_ ?_
  · intro i q hq
    exact h.handle i q (hsame.query? i ▸ hq)
  · intro i j q r hq hr he
    exact h.did_inj i j q r (hsame.query? i ▸ hq) (hsame.query? j ▸ hr) he
  · intro d
    simp only [hsame.pending, hsame.query?, h.contains]

end Elapse

section Queue

variable {before after : List (Fin N)}

theorem total_deadlines (p : Pool N) (l : List (Fin N)) :
    Deadlines.total (l.map fun i => (i, p.delay i)) = (l.map p.delay).sum := by
  rw [Deadlines.total_eq_sum, List.map_map]
  rfl

/-- The delays up to any entry of the queue add up to a time span that can be kept. -/
theorem WellKept.sum_delay_le (h : p.WellKept) (hq : p.queue = before ++ i :: after) :
    (before.map p.delay).sum + p.delay i ≤ maxSpan := by
  have ht := h.total_le
  rw [deadlines, total_deadlines, hq, List.map_append, List.map_cons, List.sum_append,
    List.sum_cons] at ht
  omega

/-- The time left for a query is the sum of the delays up to it, without a cut. -/
theorem WellKept.remaining?_eq (h : p.WellKept) (hq : p.queue = before ++ i :: after) :
    p.remaining? i = some ((before.map p.delay).sum + p.delay i) := by
  have hnodup := h.queues.nodup
  rw [← h.queues.queue_eq, hq] at hnodup
  have hi : i ∉ before := fun hi => List.disjoint_of_nodup_append hnodup hi List.mem_cons_self
  have hle := h.sum_delay_le hq
  have hsplit : p.deadlines = (before.map fun j => (j, p.delay j)) ++
      (i, p.delay i) :: after.map fun j => (j, p.delay j) := by
    rw [deadlines, hq, List.map_append, List.map_cons]
  -- The sum never reaches the largest span, since all the delays together do not.
  rw [h.queues.remaining?_eq, hsplit, Deadlines.remainingFrom?_eq, Nat.zero_add, total_deadlines]
  · simpa [Deadlines.keys] using hi
  · rwa [Nat.zero_add, total_deadlines]

/-- The delay of a query that ends is added to the next one, without a cut. -/
theorem WellKept.delay_unschedule (h : p.WellKept) (hq : p.queue = before ++ i :: j :: after) :
    (p.unschedule i).delay j = p.delay j + p.delay i := by
  have hnodup := h.queues.nodup
  rw [← h.queues.queue_eq, hq] at hnodup
  have hi : i ∉ before := fun hi => List.disjoint_of_nodup_append hnodup hi List.mem_cons_self
  have hsplit : p.deadlines = (before.map fun k => (k, p.delay k)) ++
      (i, p.delay i) :: (j, p.delay j) :: after.map fun k => (k, p.delay k) := by
    rw [deadlines, hq, List.map_append, List.map_cons, List.map_cons]
  have hfits : p.delay j + p.delay i ≤ maxSpan := by
    have ht := h.total_le
    rw [hsplit, Deadlines.total_append, Deadlines.total, Deadlines.total] at ht
    omega
  have hseg := h.queues.unschedule (i := i).segment
  rw [hsplit, Deadlines.remove_append (by simpa [Deadlines.keys] using hi)] at hseg
  refine (hseg.delay_eq (List.mem_append_right _ List.mem_cons_self)).trans ?_
  exact Deadlines.addSpans_eq hfits

end Queue

/-- Each slot is either free or in use, so the two counts add up to the capacity. -/
theorem WellKept.freeCount_add_pendingCount (h : p.WellKept) :
    p.freeCount + p.pendingCount = N := by
  have hslots : p.slots.toList = (List.finRange N).map p.slot := by
    apply List.ext_getElem (by simp)
    intro n hn hm
    simp only [Vector.getElem_toList, List.getElem_map, List.getElem_finRange]
    rfl
  have hperm : p.freeSlots.Perm ((List.finRange N).filter fun i => (p.query? i).isNone) := by
    apply (List.perm_ext_iff_of_nodup h.frees.nodup ((List.nodup_finRange N).filter _)).mpr
    intro i
    simp [h.frees.mem]
  have hcount : p.pendingCount =
      ((List.finRange N).filter fun i => (p.query? i).isSome).length := by
    rw [pendingCount, hslots, List.countP_map, List.countP_eq_length_filter]
    rfl
  have hsplit := List.length_eq_length_filter_add (l := List.finRange N) fun i =>
    (p.query? i).isSome
  simp only [List.length_finRange, Option.not_isSome] at hsplit
  rw [freeCount, hperm.length_eq, hcount]
  omega

end Pool

end Fieldbus
