import Fieldbus.Proofs.Controller.Effects

namespace Fieldbus

namespace Controller

variable {σ π : Type} {N : Nat} {c d : Controller σ N} [Listener σ] [Platform π] {may : Licence}
  {acts : List ControllerAct} {events : List Event} {issues : List (Handle × Timeout)}

theorem Effect.wellKept (h : Effect may c events issues d) (hk : c.pool.WellKept) :
    d.pool.WellKept := by
  cases h with
  | quiet pool => rwa [pool]
  | watched s pool => rwa [pool]
  | orphaned e pool => rwa [pool]
  | elapsed ms pool =>
    rw [pool]
    exact hk.elapse ms
  | taken i taken query correlation timeout tag alloc idle asks allowed pool =>
    rw [pool]
    exact hk.fill alloc rfl idle
  | noted i q f found broadcast answer first heard goOn pool =>
    rw [pool]
    exact hk.setQuery found rfl rfl
  | ended i q found pool =>
    rw [pool]
    exact hk.finish found

theorem Ending.continues {q : PendingQuery} {events : List Event}
    (h : Ending may c q events d.sweep) : c.Continues d := by
  generalize hs : d.sweep = sweep at h
  cases h with
  | swept => exact continues_of_none hs
  | answered => exact continues_of_sweep hs
  | expired => exact continues_of_sweep hs
  | cancelled => exact continues_of_sweep hs
  | hushed => exact continues_of_sweep hs
  | halted => exact continues_of_sweep hs

/-- The query of a sweep ends only together with the sweep. -/
theorem Ending.not_sweepOwns {q : PendingQuery} {events : List Event} (hd : q.did = .broadcast)
    (h : Ending may c q events d.sweep) : d.sweepOwns q.handle = false := by
  generalize hs : d.sweep = sweep at h
  cases h with
  | answered f unicast => exact absurd hd unicast
  | swept => simp [sweepOwns, hs]
  | expired own => exact (sweepOwns_of_sweep hs _).trans own
  | cancelled own => exact (sweepOwns_of_sweep hs _).trans own
  | hushed own => exact (sweepOwns_of_sweep hs _).trans own
  | halted f broadcast own => exact (sweepOwns_of_sweep hs _).trans own

theorem Effect.sweepSound (h : Effect may c events issues d) (hk : c.pool.WellKept)
    (hs : c.SweepSound) : d.SweepSound := by
  cases h with
  | quiet pool sweep => exact hs.of_continues sweep fun i q hq hd _ => ⟨q, pool ▸ hq, hd⟩
  | watched s pool resting sweep passive =>
    intro t ht
    cases Option.some.inj (sweep.symm.trans ht)
    exact Or.inl passive
  | orphaned e pool sweep =>
    exact hs.of_continues (continues_of_sweep sweep) fun i q hq hd _ => ⟨q, pool ▸ hq, hd⟩
  | elapsed ms pool sweep =>
    refine hs.of_continues (continues_of_sweep sweep) fun i q hq hd _ => ⟨q, ?_, hd⟩
    rw [pool, (Pool.sameQueries_elapse c.pool ms).query?, hq]
  | taken i taken query correlation timeout tag alloc idle asks allowed pool sweep =>
    rcases sweep with same | ⟨_, hd, s, hsweep, hh, hm, hr⟩
    · refine hs.of_continues (continues_of_sweep same) fun j q hq hd _ => ⟨q, ?_, hd⟩
      obtain ⟨_, _, hi, _⟩ := hk.alloc alloc
      have hj : j ≠ i := by
        rintro rfl
        simp [hi] at hq
      rw [pool, Pool.query?_fill_alloc alloc, if_neg hj, hq]
    · intro t ht
      cases Option.some.inj (hsweep.symm.trans ht)
      refine Or.inr ⟨i, .ask ⟨i⟩ query correlation tag, hh, hm, hr, ?_, hd⟩
      rw [pool, Pool.query?_fill_alloc alloc, if_pos rfl]
  | noted i q f found broadcast answer first heard goOn pool sweep =>
    refine hs.of_continues sweep fun j r hr hd _ => ?_
    by_cases hj : j = i
    · exact ⟨q.note f.did, by rw [pool, Pool.query?_setQuery found, if_pos hj], broadcast⟩
    · exact ⟨r, by rw [pool, Pool.query?_setQuery found, if_neg hj, hr], hd⟩
  | ended i q found pool ending =>
    refine hs.of_continues ending.continues fun j r hr hd hown => ?_
    have hj : j ≠ i := by
      rintro rfl
      cases Option.some.inj (found.symm.trans hr)
      rw [← hk.handle j q found] at hown
      exact Bool.false_ne_true ((ending.not_sweepOwns hd).symm.trans hown)
    exact ⟨r, by rw [pool, Pool.query?_finish, if_neg hj, hr], hd⟩

theorem Step.sound (h : Step may c acts d) (hc : c.Sound) : d.Sound :=
  ⟨(h.effect hc).wellKept hc.kept, (h.effect hc).sweepSound hc.kept hc.sweep⟩

theorem Steps.sound (h : Steps may c acts d) (hc : c.Sound) : d.Sound :=
  h.preserve (fun _ _ _ step => step.sound) hc

theorem Effect.issues_eq_nil (h : Effect may c events issues d) (hn : ¬ may.accept) :
    issues = [] := by
  cases h with
  | taken i taken query correlation timeout tag alloc idle asks allowed => exact absurd allowed hn
  | _ => rfl

/-- Only some requests accept queries. -/
theorem Steps.issuesOf_eq_nil (h : Steps may c acts d) (hc : c.Sound) (hn : ¬ may.accept) :
    issuesOf acts = [] := by
  induction h with
  | refl => rfl
  | cons first _ ih =>
    rw [issuesOf_append, ih (first.sound hc), (first.effect hc).issues_eq_nil hn,
      List.append_nil]

theorem Sound.cancelAll (hc : c.Sound) (suppress : Bool) : (c.cancelAll suppress).1.Sound :=
  have h : Steps .all c _ _ := cancelSlots_steps c suppress _ fun _ _ => trivial
  h.sound hc

theorem Sound.expire (hc : c.Sound) (i : Fin N) : (c.expire i).1.Sound :=
  have h : Steps .all c _ _ := expire_steps c i
  h.sound hc

theorem Sound.respond (hc : c.Sound) (frame : Option Frame) : (c.respond frame).1.Sound :=
  have h : Steps .all c _ _ := respond_steps c frame fun _ _ _ => trivial
  h.sound hc

theorem Sound.receive (hc : c.Sound) (elapsed : Nat) (frame : Option Frame) :
    (c.receive elapsed frame).1.Sound :=
  have h : Steps .all c _ _ := receive_steps c elapsed frame fun _ _ _ => trivial
  h.sound hc

theorem Sound.elapse (hc : c.Sound) (elapsed : Nat) :
    ({ (c.advanceSweep elapsed).1 with
      pool := (c.advanceSweep elapsed).1.pool.elapse elapsed } : Controller σ N).Sound :=
  have h : Steps .all c _ _ := .cons (.wane elapsed) (Step.elapse elapsed).steps
  h.sound hc

theorem Sound.serve (hc : c.Sound) (r : Request π) : (c.serve r).1.Sound :=
  (serve_steps c r).sound hc

theorem Sound.run (hc : c.Sound) (rs : List (Request π)) : (c.run rs).1.Sound :=
  run_preserve (fun _ _ _ _ step => step.sound) c hc rs

/-- After any requests each free slot is linked once and nothing else is, each query that waits is
queued once, each address has one query at most, and no sum of delays is ever cut. -/
theorem pool_invariant (l : σ) (rs : List (Request π)) :
    let c : Controller σ N := ((new l).run rs).1
    let p := c.pool
    (Route p.nextFree p.freeHead p.freeSlots none ∧ p.freeSlots.Nodup ∧
      ∀ i, i ∈ p.freeSlots ↔ ∃ next, p.slot i = .free next) ∧
    (Route p.nextQueued p.queueHead p.queue none ∧ p.queue.Nodup ∧
      ∀ i, i ∈ p.queue ↔ ∃ q delay next, p.slot i = .inUse q (.queued delay next)) ∧
    (∀ i q link, p.slot i = .inUse q link → q.handle.number = i + 1) ∧
    (∀ i j q r link link', p.slot i = .inUse q link → p.slot j = .inUse r link' →
      q.did = r.did → i = j) ∧
    (∀ d, p.pending.contains d = true ↔ ∃ i q link, p.slot i = .inUse q link ∧ q.did = d) ∧
    (∀ before i after, p.queue = before ++ i :: after →
      (before.map p.delay).sum + p.delay i ≤ maxSpan ∧
      c.remaining? ⟨i⟩ = some ((before.map p.delay).sum + p.delay i)) ∧
    (∀ before i j after, p.queue = before ++ i :: j :: after →
      (p.unschedule i).delay j = p.delay j + p.delay i) ∧
    c.freeCount + c.pendingCount = N := by
  intro c p
  have h : p.WellKept := ((sound_new l).run rs).kept
  have hused : ∀ {i q link}, p.slot i = .inUse q link → p.query? i = some q :=
    fun hs => Slot.query?_eq_some_iff.mpr ⟨_, hs⟩
  refine ⟨⟨h.frees.route, h.frees.nodup, fun i => ?_⟩, ⟨?_, ?_, fun i => ?_⟩, ?_, ?_, fun d => ?_,
    ?_, fun _ _ _ _ => h.delay_unschedule, h.freeCount_add_pendingCount⟩
  · rw [h.frees.mem]
    exact Slot.query?_eq_none_iff
  · rw [h.queues.queue_eq]
    exact h.queues.segment.route
  · rw [h.queues.queue_eq]
    exact h.queues.nodup
  · rw [h.queues.queue_eq, h.queues.mem_keys]
    exact Slot.isSome_link?_iff
  · intro i q link hs
    rw [h.handle i q (hused hs)]
    rfl
  · intro i j q r link link' hi hj
    exact h.did_inj i j q r (hused hi) (hused hj)
  · rw [h.contains]
    constructor
    · rintro ⟨i, q, hq, hd⟩
      obtain ⟨link, hs⟩ := Slot.query?_eq_some_iff.mp hq
      exact ⟨i, q, link, hs, hd⟩
    · rintro ⟨i, q, link, hs, hd⟩
      exact ⟨i, q, hused hs, hd⟩
  · intro before i after hq
    refine ⟨h.sum_delay_le hq, ?_⟩
    have hmem : i ∈ p.queue := by simp [hq]
    rw [h.queues.queue_eq, h.queues.mem_keys] at hmem
    obtain ⟨q, delay, next, hs⟩ := Slot.isSome_link?_iff.mp hmem
    have hlookup := Pool.lookup?_of_query? (hused hs) (h.handle i q (hused hs))
    change (p.lookup? ⟨i⟩).bind _ = _
    rw [hlookup]
    exact h.remaining?_eq hq

end Controller

end Fieldbus
