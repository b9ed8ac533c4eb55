import Fieldbus.Proofs.Pool.Change

namespace Fieldbus

namespace Pool

variable {N : Nat} {p p' : Pool N} {i : Fin N} {q : PendingQuery} {timeout : Timeout}

/-- The handle of the query in a slot. -/
def handleOf (i : Fin N) : Handle := ⟨i⟩

theorem handleOf_injective : Function.Injective (handleOf : Fin N → Handle) :=
  fun _ _ h => Fin.ext (Handle.mk.inj h)

/-- The queries that wait for a deadline, by handle, with the time that is left for each. -/
def agenda (p : Pool N) : Agenda Handle := p.deadlines.agenda.rekey handleOf

theorem mem_agenda_iff {e : Handle × Nat} :
    e ∈ p.agenda ↔ ∃ i left, (i, left) ∈ p.deadlines.agenda ∧ e = (⟨i⟩, left) := by
  simp only [agenda, Agenda.rekey, List.mem_map, Prod.exists, eq_comm]
  rfl

theorem map_fst_agenda (p : Pool N) : p.agenda.map Prod.fst = p.deadlines.keys.map handleOf := by
  rw [agenda, Agenda.map_fst_rekey, Deadlines.map_fst_agenda]

theorem agenda_inOrder (p : Pool N) : p.agenda.InOrder := (Deadlines.agenda_inOrder _).rekey

namespace WellKept

theorem nodup_agenda (h : p.WellKept) : (p.agenda.map Prod.fst).Nodup := by
  rw [map_fst_agenda]
  exact h.queues.nodup.map handleOf_injective

/-- Exactly the queries whose slots are queued are waiting. -/
theorem mem_map_fst_agenda_iff (h : p.WellKept) :
    (⟨i⟩ : Handle) ∈ p.agenda.map Prod.fst ↔ (p.link? i).isSome = true := by
  rw [map_fst_agenda, ← h.queues.mem_keys]
  exact List.mem_map_of_injective handleOf_injective

theorem agenda_fill (h : p.WellKept) (ha : p.alloc? = some (i, p')) :
    (p'.fill i q timeout).agenda = p.agenda.enlist ⟨i⟩ timeout := by
  rw [agenda, (h.queues_fill ha).deadlines_eq, Deadlines.agenda_enlist, Agenda.rekey_enlist, agenda]
  rfl

theorem agenda_finish (h : p.WellKept) : (p.finish i q).agenda = p.agenda.erase ⟨i⟩ := by
  rw [agenda, h.queues_finish.deadlines_eq,
    Deadlines.agenda_remove h.queues.nodup h.total_le, Agenda.rekey_erase handleOf_injective,
    agenda]
  rfl

theorem agenda_setQuery (h : p.WellKept) : (p.setQuery i q).agenda = p.agenda := by
  rw [agenda, h.queues_setQuery.deadlines_eq, agenda]

theorem agenda_elapse (h : p.WellKept) (ms : Nat) : (p.elapse ms).agenda = p.agenda.aged ms := by
  rw [agenda, h.queues.elapse.deadlines_eq, Deadlines.agenda_elapse, Agenda.rekey_aged, agenda]

theorem remaining?_eq_some_iff (h : p.WellKept) {ms : Nat} :
    p.remaining? i = some ms ↔ (⟨i⟩, ms) ∈ p.agenda := by
  have hle : 0 + p.deadlines.total ≤ maxSpan := by simpa using h.total_le
  rw [h.queues.remaining?_eq, Deadlines.remainingFrom?_eq_some_iff h.queues.nodup hle,
    mem_agenda_iff]
  constructor
  · rintro ⟨left, hm, rfl⟩
    exact ⟨i, left, hm, by simp⟩
  · rintro ⟨j, left, hm, he⟩
    obtain ⟨hj, rfl⟩ := Prod.mk.inj he
    obtain rfl := handleOf_injective hj
    exact ⟨ms, hm, by simp⟩

end WellKept

end Pool

end Fieldbus
