import Fieldbus.Proofs.Pool.Links

namespace Fieldbus

namespace Pool

variable {N : Nat} {p p' : Pool N} {head last : Option (Fin N)} {a b q : Deadlines (Fin N)}

section Segment

/-- The queue leads from `head` through these queries with their delays on to `last`. -/
def Segment (p : Pool N) (head : Option (Fin N)) : Deadlines (Fin N) → Option (Fin N) → Prop
  | [], last => head = last
  | (i, delay) :: q, last =>
    head = some i ∧ ∃ next, p.link? i = some (delay, next) ∧ p.Segment next q last

theorem segment_append :
    p.Segment head (a ++ b) last ↔ ∃ mid, p.Segment head a mid ∧ p.Segment mid b last := by
  induction a generalizing head with
  | nil => simp [Segment]
  | cons e a ih =>
    constructor
    · rintro ⟨hh, next, hl, hs⟩
      obtain ⟨mid, ha, hb⟩ := ih.mp hs
      exact ⟨mid, ⟨hh, next, hl, ha⟩, hb⟩
    · rintro ⟨mid, ⟨hh, next, hl, ha⟩, hb⟩
      exact ⟨hh, next, hl, ih.mpr ⟨mid, ha, hb⟩⟩

theorem Segment.congr (h : p.Segment head q last)
    (hl : ∀ i ∈ q.keys, p'.link? i = p.link? i) : p'.Segment head q last := by
  induction q generalizing head with
  | nil => exact h
  | cons e q ih =>
    obtain ⟨hh, next, hn, hs⟩ := h
    refine ⟨hh, next, ?_, ih hs fun i hi => hl i (List.mem_cons_of_mem _ hi)⟩
    rw [hl e.1 List.mem_cons_self, hn]

theorem Segment.route (h : p.Segment head q last) : Route p.nextQueued head q.keys last := by
  induction q generalizing head with
  | nil => exact h
  | cons e q ih =>
    obtain ⟨hh, next, hn, hs⟩ := h
    refine ⟨hh, ?_⟩
    rw [nextQueued, hn]
    exact ih hs

theorem Segment.isSome_link? {i : Fin N} (h : p.Segment head q last) (hi : i ∈ q.keys) :
    (p.link? i).isSome = true := by
  induction q generalizing head with
  | nil => simp at hi
  | cons e q ih =>
    obtain ⟨_, next, hl, hs⟩ := h
    rcases List.mem_cons.mp hi with rfl | hi
    · simp [hl]
    · exact ih hs hi

theorem Segment.head_eq (h : p.Segment head q none) : head = q.keys.head? := by
  cases q with
  | nil => exact h
  | cons e q => exact h.1

/-- The end of a queue is led to somewhere else. -/
theorem segment_relink {next : Option (Fin N)} (h : p.Segment p.queueHead a last)
    (hn : a.keys.Nodup) :
    (p.relink a.keys.getLast? next).Segment (p.relink a.keys.getLast? next).queueHead a next := by
  rcases List.eq_nil_or_concat' a with rfl | ⟨a, e, rfl⟩
  · rfl
  · have hlast : (Deadlines.keys (a ++ [e])).getLast? = some e.1 := by simp
    have he : e.1 ∉ Deadlines.keys a := by
      intro hm
      rw [Deadlines.keys_append] at hn
      exact List.disjoint_of_nodup_append hn hm List.mem_cons_self
    obtain ⟨mid, ha, rfl, old, hl, -⟩ := segment_append.mp h
    rw [hlast]
    refine segment_append.mpr ⟨some e.1, ?_, rfl, next, by simp [link?_relink, hl], rfl⟩
    refine ha.congr fun i hi => ?_
    rw [link?_relink, if_neg fun hh => he (by rwa [Option.some.inj hh])]

theorem link?_relink_of_notMem {next : Option (Fin N)} {l : List (Fin N)} {j : Fin N}
    (h : j ∉ l) : (p.relink l.getLast? next).link? j = p.link? j := by
  rw [link?_relink, if_neg fun hh => h (List.mem_of_getLast? hh)]

/-- The first of the remaining entries gets another delay. -/
theorem segment_mapDelay {f : Nat → Nat} (h : p.Segment head q none) (hn : q.keys.Nodup) :
    (head.elim p fun k => p.mapDelay k f).Segment head (q.mapHead f) none := by
  cases q with
  | nil =>
    obtain rfl : head = none := h
    rfl
  | cons e q =>
    obtain ⟨rfl, next, hl, hs⟩ := h
    refine ⟨rfl, next, by simp [link?_mapDelay, hl], hs.congr fun i hi => ?_⟩
    have hne : i ≠ e.1 := fun hh => (List.nodup_cons.mp hn).1 (hh ▸ hi)
    exact (link?_mapDelay p e.1 i f).trans (if_neg hne)

end Segment

section Kept

variable (p) (i : Fin N) (prev next : Option (Fin N)) (f : Nat → Nat)

theorem link?_elim_mapDelay_of_ne {p : Pool N} {i : Fin N} {next : Option (Fin N)}
    (h : next ≠ some i) : (next.elim p fun k => p.mapDelay k f).link? i = p.link? i := by
  cases next with
  | none => rfl
  | some k =>
    have hne : i ≠ k := fun hh => h (hh ▸ rfl)
    simp [link?_mapDelay, hne]

@[simp] theorem isSome_link?_elim_mapDelay :
    ((next.elim p fun k => p.mapDelay k f).link? i).isSome = (p.link? i).isSome := by
  cases next with
  | none => rfl
  | some k =>
    by_cases h : i = k
    · subst h
      simp [link?_mapDelay]
    · simp [link?_mapDelay, h]

@[simp] theorem isSome_link?_relink :
    ((p.relink prev next).link? i).isSome = (p.link? i).isSome := by
  rw [link?_relink]
  split <;> simp

@[simp] theorem queueHead_elim_mapDelay :
    (next.elim p fun k => p.mapDelay k f).queueHead = p.queueHead := by
  cases next <;> rfl

theorem Segment.before_mapDelay {p : Pool N} {next : Option (Fin N)}
    (h : p.Segment p.queueHead a last) (hn : ∀ j ∈ a.keys, next ≠ some j) :
    (next.elim p fun k => p.mapDelay k f).Segment
      (next.elim p fun k => p.mapDelay k f).queueHead a last := by
  rw [queueHead_elim_mapDelay]
  exact h.congr fun j hj => link?_elim_mapDelay_of_ne f (hn j hj)

end Kept

section Link

variable {i : Fin N} {delay : Nat}

/-- A query starts to wait between two others. -/
def linkIn (p : Pool N) (i : Fin N) (delay : Nat) (prev next : Option (Fin N)) : Pool N :=
  (p.modify i (.setLink (.queued delay next))).relink prev (some i)

/-- A query no longer waits between two others. -/
def linkOut (p : Pool N) (i : Fin N) (prev next : Option (Fin N)) : Pool N :=
  (p.relink prev next).modify i (.setLink .forever)

theorem link?_setLink_self (delay : Nat) (next : Option (Fin N))
    (hi : (p.query? i).isSome = true) :
    (p.modify i (.setLink (.queued delay next))).link? i = some (delay, next) := by
  obtain ⟨query, hq⟩ := Option.isSome_iff_exists.mp hi
  rw [link?, slot_modify_self, Slot.link?_setLink_queued]
  change (p.query? i).map _ = _
  rw [hq]
  rfl

theorem isSome_link?_linkIn {prev next : Option (Fin N)} {j : Fin N}
    (hi : (p.query? i).isSome = true) :
    ((p.linkIn i delay prev next).link? j).isSome = true ↔
      j = i ∨ (p.link? j).isSome = true := by
  rw [linkIn, isSome_link?_relink]
  by_cases hj : j = i
  · subst hj
    simp [link?_setLink_self _ _ hi]
  · rw [link?_modify_of_ne _ _ hj]
    simp [hj]

theorem isSome_link?_linkOut {prev next : Option (Fin N)} {j : Fin N} :
    ((p.linkOut i prev next).link? j).isSome = true ↔ j ≠ i ∧ (p.link? j).isSome = true := by
  by_cases hj : j = i
  · subst hj
    simp [linkOut, link?, Slot.link?_setLink_forever]
  · rw [linkOut, link?_modify_of_ne _ _ hj, isSome_link?_relink]
    simp [hj]

/-- Two parts of the queue are joined by the query that is put between them. -/
theorem segment_linkIn (delay : Nat) (hi : (p.query? i).isSome = true) (hn : (a.keys ++ i :: b.keys).Nodup)
    (ha : p.Segment p.queueHead a b.keys.head?) (hb : p.Segment b.keys.head? b none) :
    (p.linkIn i delay a.keys.getLast? b.keys.head?).Segment
      (p.linkIn i delay a.keys.getLast? b.keys.head?).queueHead (a ++ (i, delay) :: b) none := by
  obtain ⟨hna, hnb, hdis⟩ := List.nodup_append'.mp hn
  have hia : i ∉ a.keys := fun hh => hdis hh List.mem_cons_self
  have hib : i ∉ b.keys := (List.nodup_cons.mp hnb).1
  have hlink := link?_setLink_self delay b.keys.head? hi
  have hbefore : (p.modify i (.setLink (.queued delay b.keys.head?))).Segment p.queueHead a
      b.keys.head? := by
    refine ha.congr fun j hj => link?_modify_of_ne _ _ ?_
    rintro rfl
    exact hia hj
  refine segment_append.mpr ⟨some i, segment_relink hbefore hna, rfl, b.keys.head?, ?_, ?_⟩
  · rw [linkIn, link?_relink_of_notMem hia, hlink]
  · refine hb.congr fun j hj => ?_
    have hja : j ∉ a.keys := fun hh => hdis hh (List.mem_cons_of_mem i hj)
    have hne : j ≠ i := by
      rintro rfl
      exact hib hj
    rw [linkIn, link?_relink_of_notMem hja, link?_modify_of_ne _ _ hne]

/-- Two parts of the queue are joined where the query between them is taken out. -/
theorem segment_linkOut (hn : (a.keys ++ i :: b.keys).Nodup)
    (ha : p.Segment p.queueHead a (some i)) (hb : p.Segment b.keys.head? b none) :
    (p.linkOut i a.keys.getLast? b.keys.head?).Segment
      (p.linkOut i a.keys.getLast? b.keys.head?).queueHead (a ++ b) none := by
  obtain ⟨hna, hnb, hdis⟩ := List.nodup_append'.mp hn
  have hia : i ∉ a.keys := fun hh => hdis hh List.mem_cons_self
  have hib : i ∉ b.keys := (List.nodup_cons.mp hnb).1
  refine segment_append.mpr ⟨b.keys.head?, ?_, ?_⟩
  · refine (segment_relink ha hna).congr fun j hj => link?_modify_of_ne _ _ ?_
    rintro rfl
    exact hia hj
  · refine hb.congr fun j hj => ?_
    have hja : j ∉ a.keys := fun hh => hdis hh (List.mem_cons_of_mem i hj)
    have hne : j ≠ i := by
      rintro rfl
      exact hib hj
    rw [linkOut, link?_modify_of_ne _ _ hne, link?_relink_of_notMem hja]

end Link

/-- The queue leads through exactly the queries that wait for a deadline, with these delays. -/
structure Queues (p : Pool N) (q : Deadlines (Fin N)) : Prop where
  segment : p.Segment p.queueHead q none
  nodup : q.keys.Nodup
  mem_keys : ∀ i, i ∈ q.keys ↔ (p.link? i).isSome = true

theorem Queues.queue_eq (h : p.Queues q) : p.queue = q.keys :=
  h.segment.route.walk_eq_of_nodup h.nodup

section Schedule

variable {i : Fin N} {ms : Nat}

/-- A query is put behind all that expire no later, and takes its delay from the next one. -/
theorem place_spec (i : Fin N) (ms : Nat) (prev : Option (Fin N)) (h : p.Segment head q none) :
    ∃ a b remaining, q = a ++ b ∧
      p.place ms prev q.keys = (remaining, a.keys.getLast?.or prev, b.keys.head?) ∧
      q.add i ms = a ++ (i, remaining) :: b.mapHead (· - remaining) := by
  -- Each entry that is passed takes its delay off what is left, in the slots and in the list.
  induction q generalizing head ms prev with
  | nil => exact ⟨[], [], ms, rfl, rfl, rfl⟩
  | cons e q ih =>
    obtain ⟨j, delay⟩ := e
    obtain ⟨_, next, hl, hs⟩ := h
    by_cases hlt : ms < delay
    · refine ⟨[], (j, delay) :: q, ms, rfl, ?_, by simp [Deadlines.add, Deadlines.mapHead, hlt]⟩
      simp [Deadlines.keys, place, hl, hlt]
    · obtain ⟨a, b, remaining, rfl, hp, ha⟩ := ih (ms - delay) (some j) hs
      refine ⟨(j, delay) :: a, b, remaining, rfl, ?_, by simp [Deadlines.add, hlt, ha]⟩
      have hprev : (j :: a.keys).getLast?.or prev = a.keys.getLast?.or (some j) := by
        rw [List.getLast?_cons]
        cases a.keys.getLast? <;> rfl
      rw [Deadlines.keys_cons, Deadlines.keys_cons, hprev, ← hp]
      simp only [place, hl, hlt, if_false]

/-- A query that is put into the queue leaves the time of all others as it is. -/
theorem Queues.schedule {query : PendingQuery} (h : p.Queues q) (hi : p.query? i = some query)
    (hl : p.link? i = none) : (p.schedule i ms).Queues (q.add i ms) := by
  obtain ⟨a, b, remaining, rfl, hp, hadd⟩ := place_spec i ms none h.segment
  obtain ⟨mid, ha, hb⟩ := segment_append.mp h.segment
  obtain rfl := hb.head_eq
  have hfresh : i ∉ (a ++ b).keys := by
    rw [h.mem_keys, hl]
    simp
  have hn : (a.keys ++ b.keys).Nodup := by simpa using h.nodup
  obtain ⟨_, hnb, hdis⟩ := List.nodup_append'.mp hn
  have hschedule : p.schedule i ms =
      (b.keys.head?.elim p fun k => p.mapDelay k (· - remaining)).linkIn i remaining
        a.keys.getLast? b.keys.head? := by
    rw [Pool.schedule, h.queue_eq, hp]
    simp only [Option.or_none]
    rfl
  -- The next query is told its new delay before the links are set, and no link changes by that.
  have hquery := (sameQueries_elim_mapDelay p b.keys.head? (· - remaining)).query? i
  have hbefore := ha.before_mapDelay (· - remaining) fun j hj hh =>
    hdis hj (List.mem_of_head? hh)
  have hafter := segment_mapDelay (f := (· - remaining)) hb hnb
  have hmem := fun j => isSome_link?_elim_mapDelay p j b.keys.head? (· - remaining)
  have hperm := Deadlines.keys_add i ms (a ++ b)
  rw [hschedule]
  generalize (b.keys.head?.elim p fun k => p.mapDelay k (· - remaining)) = r at *
  have hr : (r.query? i).isSome = true := by rw [hquery, hi, Option.isSome_some]
  have hall : (a.keys ++ i :: b.keys).Nodup := by
    rw [Deadlines.keys_append] at hfresh
    exact List.nodup_middle.mpr (List.nodup_cons.mpr ⟨hfresh, hn⟩)
  refine ⟨?_, ?_, ?_⟩
  · rw [hadd]
    have hseg := segment_linkIn (a := a) (b := b.mapHead (· - remaining)) remaining hr
    rw [Deadlines.keys_mapHead] at hseg
    exact hseg hall hbefore hafter
  · exact hperm.nodup_iff.mpr (List.nodup_cons.mpr ⟨hfresh, h.nodup⟩)
  · intro j
    rw [hperm.mem_iff, List.mem_cons, h.mem_keys, isSome_link?_linkIn hr, hmem]

end Schedule

section Unschedule

variable {i : Fin N}

theorem before?_append {prev : Option (Fin N)} {l m : List (Fin N)} (h : i ∉ l) :
    before? i prev (l ++ i :: m) = some (l.getLast?.or prev) := by
  induction l generalizing prev with
  | nil => simp [before?]
  | cons j l ih =>
    obtain ⟨hne, hi⟩ := List.ne_and_not_mem_of_not_mem_cons h
    rw [List.cons_append, before?, if_neg (Ne.symm hne), ih hi, List.getLast?_cons]
    cases l.getLast? <;> rfl

/-- A query that is taken out of the queue leaves its delay to the next one. -/
theorem Queues.unschedule (h : p.Queues q) : (p.unschedule i).Queues (q.remove i) := by
  by_cases hmem : i ∈ q.keys
  case neg =>
    have hl : p.link? i = none := by simpa [h.mem_keys] using hmem
    rw [Deadlines.remove_of_notMem hmem]
    simpa [Pool.unschedule, hl] using h
  obtain ⟨a, delay, b, rfl⟩ := Deadlines.exists_append_of_mem_keys hmem
  obtain ⟨mid, ha, rfl, next, hl, hb⟩ := segment_append.mp h.segment
  obtain rfl := hb.head_eq
  have hn : (a.keys ++ i :: b.keys).Nodup := by simpa using h.nodup
  obtain ⟨_, hnb, hdis⟩ := List.nodup_append'.mp hn
  obtain ⟨hib, hnb⟩ := List.nodup_cons.mp hnb
  have hia : i ∉ a.keys := fun hh => hdis hh List.mem_cons_self
  have hunschedule : p.unschedule i =
      (b.keys.head?.elim p fun k => p.mapDelay k (addSpans · delay)).linkOut i
        a.keys.getLast? b.keys.head? := by
    have hbefore : before? i none p.queue = some a.keys.getLast? := by
      rw [h.queue_eq, Deadlines.keys_append, Deadlines.keys_cons, before?_append hia,
        Option.or_none]
    simp only [Pool.unschedule, hl, hbefore]
    rfl
  have hbefore := ha.before_mapDelay (addSpans · delay) fun j hj hh =>
    hdis hj (List.mem_cons_of_mem i (List.mem_of_head? hh))
  have hafter : Segment _ b.keys.head? (b.postpone delay) none := segment_mapDelay hb hnb
  have hmem := fun j => isSome_link?_elim_mapDelay p j b.keys.head? (addSpans · delay)
  rw [hunschedule, Deadlines.remove_append hia]
  generalize (b.keys.head?.elim p fun k => p.mapDelay k (addSpans · delay)) = r at *
  refine ⟨?_, ?_, ?_⟩
  · have hseg := segment_linkOut (p := r) (i := i) (a := a) (b := b.postpone delay)
    rw [Deadlines.keys_postpone] at hseg
    exact hseg hn hbefore hafter
  · rw [Deadlines.keys_append, Deadlines.keys_postpone]
    exact (List.nodup_middle.mp hn).of_cons
  · intro j
    rw [isSome_link?_linkOut, hmem, ← h.mem_keys, Deadlines.keys_append,
      Deadlines.keys_postpone]
    by_cases hj : j = i
    · subst hj
      simp [hia, hib]
    · simp [hj]

end Unschedule

section Elapse

/-- The queries at the front come due, and the first of the others waits for less. -/
theorem elapseFrom_spec (ms : Nat) (h : p.Segment head q none) (hn : q.keys.Nodup) :
    (p.elapseFrom ms q.keys).Segment head (q.elapse ms) none ∧
      ∀ j, j ∉ q.keys → (p.elapseFrom ms q.keys).link? j = p.link? j := by
  -- The slots in front change first, so the pool varies, and the rest of the way must survive.
  induction q generalizing p head ms with
  | nil => exact ⟨h, fun _ _ => rfl⟩
  | cons e q ih =>
    obtain ⟨i, delay⟩ := e
    obtain ⟨rfl, next, hl, hs⟩ := id h
    obtain ⟨hi, hn⟩ := List.nodup_cons.mp hn
    have hmap : ∀ f : Nat → Nat, (p.mapDelay i f).link? i = some (f delay, next) ∧
        ∀ j, j ≠ i → (p.mapDelay i f).link? j = p.link? j := by
      intro f
      refine ⟨by simp [link?_mapDelay, hl], fun j hj => ?_⟩
      rw [link?_mapDelay, if_neg hj]
    have hrest : ∀ f : Nat → Nat, (p.mapDelay i f).Segment next q none := by
      intro f
      refine hs.congr fun j hj => (hmap f).2 j ?_
      rintro rfl
      exact hi hj
    rw [Deadlines.keys_cons, elapseFrom]
    by_cases hz : ms = 0
    · subst hz
      rw [if_pos rfl, Deadlines.elapse_zero]
      exact ⟨h, fun _ _ => rfl⟩
    rw [if_neg hz, hl, Deadlines.elapse]
    by_cases hle : delay ≤ ms
    · obtain ⟨hseg, hkeep⟩ := ih (ms - delay) (hrest fun _ => 0) hn
      simp only [hle, if_true]
      refine ⟨⟨rfl, next, (hkeep i hi).trans (hmap _).1, hseg⟩, fun j hj => ?_⟩
      obtain ⟨hne, hj⟩ := List.ne_and_not_mem_of_not_mem_cons hj
      exact (hkeep j hj).trans ((hmap _).2 j hne)
    · simp only [hle, if_false]
      refine ⟨⟨rfl, next, (hmap _).1, hrest _⟩, fun j hj => ?_⟩
      exact (hmap _).2 j (List.ne_of_not_mem_cons hj)

theorem Queues.elapse {ms : Nat} (h : p.Queues q) : (p.elapse ms).Queues (q.elapse ms) := by
  obtain ⟨hs, hkeep⟩ := elapseFrom_spec ms h.segment h.nodup
  rw [← h.queue_eq, ← queueHead_elapse p ms] at hs
  refine ⟨hs, ?_, fun i => ?_⟩
  · rw [Deadlines.keys_elapse]
    exact h.nodup
  · by_cases hi : i ∈ q.keys
    · refine iff_of_true (by rwa [Deadlines.keys_elapse]) (hs.isSome_link? ?_)
      rwa [Deadlines.keys_elapse]
    · rw [Deadlines.keys_elapse, h.mem_keys, Pool.elapse, h.queue_eq, hkeep i hi]

end Elapse

section Read

variable {i : Fin N}

theorem Segment.remainingFrom?_eq {passed : Nat} (h : p.Segment head q last) :
    p.remainingFrom? i passed q.keys = Deadlines.remainingFrom? i passed q := by
  induction q generalizing head passed with
  | nil => rfl
  | cons e q ih =>
    obtain ⟨_, next, hl, hs⟩ := h
    simp only [Deadlines.keys_cons, remainingFrom?, hl, Deadlines.remainingFrom?, ih hs]

theorem Queues.remaining?_eq (h : p.Queues q) :
    p.remaining? i = Deadlines.remainingFrom? i 0 q := by
  rw [remaining?, h.queue_eq, h.segment.remainingFrom?_eq]

theorem Queues.isDue_eq {delay : Nat} (h : p.Queues ((i, delay) :: q)) :
    p.isDue i = decide (delay = 0) := by
  obtain ⟨_, next, hl, _⟩ := h.segment
  simp [isDue, hl]

end Read

end Pool

end Fieldbus
