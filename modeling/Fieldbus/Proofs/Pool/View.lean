import Fieldbus.Proofs.Pool.Change

namespace Fieldbus

section Route

variable {ι : Type} {next next' : ι → Option ι} {head head' last : Option ι}

theorem Route.head_eq {l : List ι} (h : Route next head l none) : head = l.head? := by
  cases l with
  | nil => exact h
  | cons i l => exact h.1

/-- Two ways through the same entries to the end follow the same links. -/
theorem Route.next_eq {l : List ι} (h : Route next head l none) (h' : Route next' head' l none) :
    ∀ i ∈ l, next i = next' i := by
  induction l generalizing head head' with
  | nil => simp
  | cons j l ih =>
    obtain ⟨_, h⟩ := h
    obtain ⟨_, h'⟩ := h'
    intro i hi
    rcases List.mem_cons.mp hi with rfl | hi
    · exact h.head_eq.trans h'.head_eq.symm
    · exact ih h h' i hi

end Route

namespace Slot

variable {N : Nat} {s t : Slot N}

/-- A slot holds a query with its link, or leads on to the next free one. -/
theorem ext_view (query : s.query? = t.query?) (link : s.link? = t.link?)
    (next : s.query? = none → s.nextFree = t.nextFree) : s = t := by
  cases hs : s.query? with
  | none =>
    have ht : t.query? = none := query ▸ hs
    calc
      s = .free s.nextFree := eq_free hs
      _ = .free t.nextFree := by rw [next hs]
      _ = t := (eq_free ht).symm
  | some q =>
    obtain ⟨l, rfl⟩ := query?_eq_some_iff.mp hs
    obtain ⟨l', rfl⟩ := query?_eq_some_iff.mp (query ▸ hs)
    rcases l with _ | ⟨delay, after⟩ <;> rcases l' with _ | ⟨delay', after'⟩ <;> simp_all [link?]

end Slot

namespace Pool

variable {N : Nat} {p p' : Pool N} {i : Fin N} {q : PendingQuery}

/-- Two queues with the same delays follow the same links. -/
theorem Segment.link?_eq {head head' : Option (Fin N)} {entries : Deadlines (Fin N)}
    (h : p.Segment head entries none) (h' : p'.Segment head' entries none) :
    ∀ i ∈ entries.keys, p.link? i = p'.link? i := by
  induction entries generalizing head head' with
  | nil => simp
  | cons e entries ih =>
    obtain ⟨_, next, hl, h⟩ := h
    obtain ⟨_, next', hl', h'⟩ := h'
    intro i hi
    rcases List.mem_cons.mp hi with rfl | hi
    · rw [hl, hl', h.head_eq, h'.head_eq]
    · exact ih h h' i hi

/-- A pool is what its queries, its free slots, its deadlines and its addresses say: the slots and
links leave no more to choose. -/
theorem ext_view {free : List (Fin N)} {entries : Deadlines (Fin N)}
    (query : ∀ i, p.query? i = p'.query? i) (frees : p.Frees free) (frees' : p'.Frees free)
    (queues : p.Queues entries) (queues' : p'.Queues entries) (pending : p.pending = p'.pending) :
    p = p' := by
  have hlink : ∀ i, p.link? i = p'.link? i := by
    intro i
    by_cases hi : i ∈ entries.keys
    · exact queues.segment.link?_eq queues'.segment i hi
    · have hnone := mt (queues.mem_keys i).mpr hi
      have hnone' := mt (queues'.mem_keys i).mpr hi
      rw [Option.not_isSome_iff_eq_none] at hnone hnone'
      rw [hnone, hnone']
  refine ext_slot (fun i => Slot.ext_view (query i) (hlink i) fun hfree => ?_) ?_ ?_ pending
  · exact frees.route.next_eq frees'.route i ((frees.mem i).mpr hfree)
  · exact frees.route.head_eq.trans frees'.route.head_eq.symm
  · exact queues.segment.head_eq.trans queues'.segment.head_eq.symm

namespace WellKept

variable {entries : Deadlines (Fin N)}

theorem deadlines_elapse (h : p.WellKept) (ms : Nat) :
    (p.elapse ms).deadlines = p.deadlines.elapse ms := h.queues.elapse.deadlines_eq

/-- Time may pass at once or in two parts. -/
theorem elapse_elapse (h : p.WellKept) (a b : Nat) : (p.elapse a).elapse b = p.elapse (a + b) := by
  have hfirst := sameQueries_elapse p a
  have hboth := hfirst.trans (sameQueries_elapse (p.elapse a) b)
  have hwhole := sameQueries_elapse p (a + b)
  have hqueues : (p.elapse (a + b)).Queues _ := h.queues.elapse
  rw [← Deadlines.elapse_elapse] at hqueues
  exact ext_view (fun i => (hboth.query? i).trans (hwhole.query? i).symm)
    (h.frees.of_sameQueries hboth) (h.frees.of_sameQueries hwhole) h.queues.elapse.elapse hqueues
    (hboth.pending.trans hwhole.pending.symm)

/-- The first query, once it is due, leaves no trace in the time of the others. -/
theorem queues_finish_due (h : p.WellKept) (first : p.deadlines = (i, 0) :: entries) :
    (p.finish i q).Queues entries := by
  have hqueues := h.queues_finish (i := i) (q := q)
  have hle := h.total_le
  rw [first, Deadlines.total, Nat.zero_add] at hle
  rwa [first, Deadlines.remove, if_pos rfl, Deadlines.postpone_zero hle] at hqueues

/-- Whether a due query ends before or after time passes makes no difference. -/
theorem finish_elapse (h : p.WellKept) (first : p.deadlines = (i, 0) :: entries)
    (found : p.query? i = some q) (ms : Nat) :
    (p.elapse ms).finish i q = (p.finish i q).elapse ms := by
  have hsame := sameQueries_elapse p ms
  have hend := sameQueries_elapse (p.finish i q) ms
  have hlater := h.elapse ms
  have hfound : (p.elapse ms).query? i = some q := (hsame.query? i).trans found
  have hfirst : (p.elapse ms).deadlines = (i, 0) :: entries.elapse ms := by
    rw [h.deadlines_elapse, first, Deadlines.elapse, if_pos (Nat.zero_le ms), Nat.sub_zero]
  have hfrees := hlater.frees_finish hfound
  rw [h.frees_elapse.freeSlots_eq] at hfrees
  refine ext_view (fun j => ?_) hfrees ((h.frees_finish found).of_sameQueries hend)
    (hlater.queues_finish_due hfirst) (h.queues_finish_due first).elapse ?_
  · rw [hend.query?, query?_finish, query?_finish, hsame.query?]
  · rw [hend.pending, pending_finish, pending_finish, hsame.pending]

/-- A query that ends as soon as it was taken in leaves no trace, wherever in the queue it was. -/
theorem finish_fill (h : p.WellKept) (ha : p.alloc? = some (i, p')) {timeout : Timeout}
    (handle : q.handle = ⟨i⟩) (idle : p.pending.contains q.did = false) :
    (p'.fill i q timeout).finish i q = p := by
  obtain ⟨_, _, hfree, rest, hslots, _⟩ := h.alloc ha
  have hfilled : (p'.fill i q timeout).WellKept := h.fill ha handle idle
  have hheld : (p'.fill i q timeout).query? i = some q := by
    rw [query?_fill_alloc ha, if_pos rfl]
  have hfrees := hfilled.frees_finish hheld
  have hqueues := hfilled.queues_finish (i := i) (q := q)
  rw [(h.frees_fill ha).freeSlots_eq, hslots, List.tail_cons, ← hslots] at hfrees
  have hwaits : i ∉ p.deadlines.keys := by
    rw [h.queues.mem_keys, link?_eq_none hfree]
    simp
  rw [(h.queues_fill ha).deadlines_eq, Deadlines.remove_enlist timeout hwaits h.total_le]
    at hqueues
  refine ext_view (fun j => ?_) hfrees h.frees hqueues h.queues ?_
  · rw [query?_finish, query?_fill_alloc ha]
    by_cases hj : j = i
    · rw [if_pos hj, hj, hfree]
    · rw [if_neg hj, if_neg hj]
  · refine DidSet.ext_contains fun d => ?_
    rw [pending_finish, pending_fill_alloc ha, DidSet.contains_erase, DidSet.contains_insert]
    by_cases hd : q.did = d
    · simp [← hd, idle]
    · simp [hd]

end WellKept

end Pool

end Fieldbus
