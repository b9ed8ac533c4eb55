import Fieldbus.Controller.Issue
import Fieldbus.Proofs.Pool.Change

namespace Fieldbus

namespace Did

@[simp] theorem isBroadcast_iff {d : Did} : d.isBroadcast = true ↔ d = broadcast := by
  simp [isBroadcast]

@[simp] theorem isBroadcast_eq_false {d : Did} : d.isBroadcast = false ↔ d ≠ broadcast := by
  simp [isBroadcast]

end Did

namespace Pool

variable {N : Nat} {p : Pool N} {d : Did} {i : Fin N} {q : PendingQuery}

theorem query?_of_find? (h : p.find? d = some (i, q)) : p.query? i = some q ∧ q.did = d := by
  obtain ⟨j, _, hj⟩ := List.exists_of_findSome?_eq_some h
  obtain ⟨r, hr, he⟩ := Option.map_eq_some_iff.mp hj
  obtain ⟨hs, hd⟩ := Option.filter_eq_some_iff.mp hr
  cases he
  exact ⟨hs, by simpa using hd⟩

theorem did_ne_of_find?_eq_none (h : p.find? d = none) (hs : p.query? i = some q) : q.did ≠ d := by
  intro hd
  have hi := List.findSome?_eq_none_iff.mp h i (List.mem_finRange i)
  simp [hs, hd] at hi

theorem query?_of_lookup? {h : Handle} (hl : p.lookup? h = some (i, q)) :
    h = ⟨i⟩ ∧ p.query? i = some q ∧ q.handle = h := by
  unfold lookup? at hl
  split at hl
  next hlt =>
    obtain ⟨r, hr, he⟩ := Option.map_eq_some_iff.mp hl
    obtain ⟨hs, hh⟩ := Option.filter_eq_some_iff.mp hr
    cases he
    exact ⟨rfl, hs, by simpa using hh⟩
  next => simp at hl

theorem lookup?_of_query? (hs : p.query? i = some q) (hh : q.handle = ⟨i⟩) :
    p.lookup? ⟨i⟩ = some (i, q) := by
  simp [lookup?, hs, hh]

theorem find?_of_query? (hk : p.WellKept) (hq : p.query? i = some q) :
    p.find? q.did = some (i, q) := by
  cases hf : p.find? q.did with
  | none => exact absurd rfl (did_ne_of_find?_eq_none hf hq)
  | some e =>
    obtain ⟨hr, hd⟩ := query?_of_find? hf
    obtain rfl := hk.did_inj i e.1 q e.2 hq hr hd.symm
    rw [Option.some.inj (hq.symm.trans hr)]

end Pool

namespace Controller

variable {σ : Type} {N : Nat} {c d : Controller σ N} {f : Frame} {i : Fin N} {q : PendingQuery}

/-- A pending query for the sender of the response, which the response answers. -/
theorem query?_of_unicastFor? (h : c.unicastFor? f = some (i, q)) :
    f.did ≠ .broadcast ∧ c.pool.query? i = some q ∧ q.did = f.did ∧ q.isAnsweredBy f = true := by
  unfold unicastFor? at h
  split at h
  next hd =>
    obtain ⟨hf, ha⟩ := Option.filter_eq_some_iff.mp h
    obtain ⟨hs, hq⟩ := Pool.query?_of_find? hf
    simp only [Bool.and_eq_true, Bool.not_eq_true', Did.isBroadcast_eq_false] at hd
    exact ⟨hd.1, hs, hq, ha⟩
  next => simp at h

theorem query?_of_broadcastFor? (h : c.broadcastFor? f = some (i, q)) :
    c.pool.query? i = some q ∧ q.did = .broadcast ∧ q.isAnsweredBy f = true := by
  unfold broadcastFor? at h
  split at h
  next =>
    obtain ⟨hf, ha⟩ := Option.filter_eq_some_iff.mp h
    obtain ⟨hs, hq⟩ := Pool.query?_of_find? hf
    exact ⟨hs, hq, ha⟩
  next => simp at h

theorem unicastFor?_of_pool (h : d.pool = c.pool) : d.unicastFor? f = c.unicastFor? f := by
  rw [unicastFor?, unicastFor?, isDidPending, isDidPending, h]

theorem broadcastFor?_of_pool (h : d.pool = c.pool) : d.broadcastFor? f = c.broadcastFor? f := by
  rw [broadcastFor?, broadcastFor?, isDidPending, isDidPending, h]

theorem unicastFor?_of_query? (hk : c.pool.WellKept) (hq : c.pool.query? i = some q)
    (hd : q.did = f.did) (unicast : f.did ≠ .broadcast) (answer : q.isAnsweredBy f = true) :
    c.unicastFor? f = some (i, q) := by
  have hpending : c.isDidPending f.did = true := (hk.contains _).mpr ⟨i, q, hq, hd⟩
  have hfind : c.pool.find? f.did = some (i, q) := hd ▸ Pool.find?_of_query? hk hq
  simp [unicastFor?, unicast, hpending, hfind, answer]

theorem broadcastFor?_of_query? (hk : c.pool.WellKept) (hq : c.pool.query? i = some q)
    (hd : q.did = .broadcast) (answer : q.isAnsweredBy f = true) :
    c.broadcastFor? f = some (i, q) := by
  have hpending : c.isDidPending .broadcast = true := (hk.contains _).mpr ⟨i, q, hq, hd⟩
  have hfind : c.pool.find? .broadcast = some (i, q) := hd ▸ Pool.find?_of_query? hk hq
  simp [broadcastFor?, hpending, hfind, answer]

theorem isPending_iff (hk : c.pool.WellKept) {h : Handle} :
    c.isPending h = true ↔
      ∃ (i : Fin N) (q : PendingQuery), h = ⟨i⟩ ∧ c.pool.query? i = some q := by
  constructor
  · intro hp
    obtain ⟨⟨i, q⟩, hl⟩ := Option.isSome_iff_exists.mp hp
    obtain ⟨hh, hq, _⟩ := Pool.query?_of_lookup? hl
    exact ⟨i, q, hh, hq⟩
  · rintro ⟨i, q, rfl, hq⟩
    simp [isPending, Pool.lookup?_of_query? hq (hk.handle i q hq)]

theorem isPending_eq_false_iff (hk : c.pool.WellKept) :
    c.isPending ⟨i⟩ = false ↔ c.pool.query? i = none := by
  rw [← Bool.not_eq_true, isPending_iff hk]
  constructor
  · intro hn
    exact Option.eq_none_iff_forall_ne_some.mpr fun q hq => hn ⟨i, q, rfl, hq⟩
  · rintro hq ⟨j, q, hh, hj⟩
    cases Fin.ext (Handle.mk.inj hh)
    simp [hq] at hj

end Controller

end Fieldbus
