import Fieldbus.Proofs.Controller.Sweeping

namespace Fieldbus

namespace Controller

variable {σ : Type} {N : Nat} {c d : Controller σ N}

theorem Refused.eq (h : c.Refused d) (hk : c.pool.WellKept) : d = c := by
  rcases h with rfl | ⟨i, pool, ha, rfl⟩
  · rfl
  · rw [hk.release_alloc ha]

theorem Refused.listener (h : c.Refused d) : d.listener = c.listener := by
  rcases h with rfl | ⟨i, pool, ha, rfl⟩ <;> rfl

section Install

variable (c) (i : Fin N) (query : Frame) (correlation : Correlation) (timeout : Timeout)
  (tag : UInt32)

theorem eventsOf_install : eventsOf (c.install i query correlation timeout tag).2 = [] := by
  cases timeout <;> rfl

theorem issuesOf_install :
    issuesOf (c.install i query correlation timeout tag).2 = [(⟨i⟩, timeout)] := by
  cases timeout <;> rfl

end Install

variable [Listener σ]

/-- The listener after a list of events. -/
def hear (l : σ) (events : List Event) : σ :=
  events.foldl (fun l e => (Listener.onEvent l e).2) l

@[simp] theorem hear_nil (l : σ) : hear l [] = l := rfl

@[simp] theorem hear_cons (l : σ) (e : Event) (rest : List Event) :
    hear l (e :: rest) = hear (Listener.onEvent l e).2 rest := rfl

theorem hear_append (l : σ) (a b : List Event) : hear l (a ++ b) = hear (hear l a) b :=
  List.foldl_append

/-- How the query in a slot ends: what is told of it, and whether the sweep ends with it. -/
inductive Ending (may : Licence) (c : Controller σ N) (q : PendingQuery) :
    List Event → Option Sweep → Prop
  | answered (f : Frame) (unicast : q.did ≠ .broadcast) (sender : q.did = f.did)
      (answer : q.isAnsweredBy f = true) (heard : may.hear f) :
      Ending may c q [responseEvent q f true] c.sweep
  | expired (own : c.sweepOwns q.handle = false) : Ending may c q [finalEvent q .timeout] c.sweep
  | cancelled (own : c.sweepOwns q.handle = false) :
      Ending may c q [finalEvent q .cancelled] c.sweep
  | hushed (own : c.sweepOwns q.handle = false) (allowed : may.hush q.handle) :
      Ending may c q [] c.sweep
  | halted (f : Frame) (broadcast : q.did = .broadcast) (own : c.sweepOwns q.handle = false)
      (first : q.notified.contains f.did = false)
      (answer : (Listener.onEvent c.listener (responseEvent q f false)).1 = false)
      (heard : may.hear f) :
      Ending may c q [responseEvent q f false] c.sweep
  | swept (own : c.sweepOwns q.handle = true) : Ending may c q [] none

/-- What a step does to the queries and to the sweep, the events it tells the listener and the
queries it accepts. -/
inductive Effect (may : Licence) (c : Controller σ N) :
    List Event → List (Handle × Timeout) → Controller σ N → Prop
  | quiet {d : Controller σ N} (pool : d.pool = c.pool) (sweep : c.Continues d)
      (owns : ∀ h, d.sweepOwns h = c.sweepOwns h) : Effect may c [] [] d
  | watched {d : Controller σ N} (s : Sweep) (pool : d.pool = c.pool) (resting : c.sweep = none)
      (sweep : d.sweep = some s) (passive : s.handle = none ∧ s.plan.mode = .passive)
      (allowed : may.accept) : Effect may c [] [] d
  | orphaned {d : Controller σ N} (e : Event) (pool : d.pool = c.pool)
      (sweep : d.sweep = c.sweep)
      (orphan : e.context = .orphan ∧ e.handle = none ∧ e.tag = 0 ∧ e.terminated = true) :
      Effect may c [e] [] d
  | elapsed {d : Controller σ N} (ms : Nat) (pool : d.pool = c.pool.elapse ms)
      (sweep : d.sweep = c.sweep) :
      Effect may c [] [] d
  | taken {d : Controller σ N} (i : Fin N) (taken : Pool N) (query : Frame)
      (correlation : Correlation) (timeout : Timeout) (tag : UInt32)
      (alloc : c.pool.alloc? = some (i, taken)) (idle : c.isDidPending query.did = false)
      (asks : Correlation.ofQuery? query = some correlation) (allowed : may.accept)
      (pool : d.pool = taken.fill i (.ask ⟨i⟩ query correlation tag) timeout)
      (sweep : d.sweep = c.sweep ∨ c.sweep = none ∧ query.did = .broadcast ∧
        ∃ s, d.sweep = some s ∧ s.handle = some ⟨i⟩ ∧ s.plan.mode = .active ∧ s.remaining = none) :
      Effect may c [] [(⟨i⟩, timeout)] d
  | noted {d : Controller σ N} (i : Fin N) (q : PendingQuery) (f : Frame)
      (found : c.pool.query? i = some q) (broadcast : q.did = .broadcast)
      (answer : q.isAnsweredBy f = true) (first : q.notified.contains f.did = false)
      (heard : may.hear f)
      (goOn : c.sweepOwns q.handle = false →
        (Listener.onEvent c.listener (responseEvent q f false)).1 = true)
      (pool : d.pool = c.pool.setQuery i (q.note f.did)) (sweep : c.Continues d)
      (owns : ∀ h, d.sweepOwns h = c.sweepOwns h) :
      Effect may c (if c.sweepOwns q.handle then [] else [responseEvent q f false]) [] d
  | ended {d : Controller σ N} {events : List Event} (i : Fin N) (q : PendingQuery)
      (found : c.pool.query? i = some q) (pool : d.pool = c.pool.finish i q)
      (ending : Ending may c q events d.sweep) :
      Effect may c events [] d

variable {may : Licence} {acts : List ControllerAct}

section Cancel

variable {h : Handle} {suppress : Bool} {i : Fin N} {q : PendingQuery}

theorem cancel_of_sweepOwns (found : c.pool.lookup? h = some (i, q)) (own : c.sweepOwns h = true) :
    (c.cancel h suppress).2 =
      ({ c.finish i q with sweep := none }, [.cancelled q.did h, .sweepEnded .queryCancelled]) := by
  obtain ⟨s, hs, _⟩ := sweepOwns_iff.mp own
  have hown : (c.finish i q).sweepOwns h = true := own
  have hsweep : (c.finish i q).sweep = some s := hs
  simp [cancel, found, hown, endSweep_of_sweep _ hsweep]

theorem cancel_suppressed (found : c.pool.lookup? h = some (i, q)) (own : c.sweepOwns h = false) :
    (c.cancel h true).2 = (c.finish i q, [.cancelled q.did h]) := by
  have hown : (c.finish i q).sweepOwns h = false := own
  simp [cancel, found, hown]

theorem cancel_told (found : c.pool.lookup? h = some (i, q)) (own : c.sweepOwns h = false) :
    (c.cancel h false).2 = (((c.finish i q).notify (finalEvent q .cancelled)).2,
      [.cancelled q.did h, .event (finalEvent q .cancelled)]) := by
  have hown : (c.finish i q).sweepOwns h = false := own
  simp [cancel, found, hown]

/-- How a pending query is cancelled. -/
inductive Cancelling (c : Controller σ N) (h : Handle) (i : Fin N) (q : PendingQuery) :
    Bool → Controller σ N × List ControllerAct → Prop
  | swept {suppress : Bool} (own : c.sweepOwns h = true) :
      Cancelling c h i q suppress
        ({ c.finish i q with sweep := none }, [.cancelled q.did h, .sweepEnded .queryCancelled])
  | suppressed (own : c.sweepOwns h = false) :
      Cancelling c h i q true (c.finish i q, [.cancelled q.did h])
  | told (own : c.sweepOwns h = false) :
      Cancelling c h i q false (((c.finish i q).notify (finalEvent q .cancelled)).2,
        [.cancelled q.did h, .event (finalEvent q .cancelled)])

theorem cancelling (found : c.pool.lookup? h = some (i, q)) (suppress : Bool) :
    Cancelling c h i q suppress (c.cancel h suppress).2 := by
  cases ho : c.sweepOwns h with
  | true =>
    rw [cancel_of_sweepOwns found ho]
    exact .swept ho
  | false =>
    cases suppress with
    | true =>
      rw [cancel_suppressed found ho]
      exact .suppressed ho
    | false =>
      rw [cancel_told found ho]
      exact .told ho

theorem effect_cancel (found : c.pool.lookup? h = some (i, q))
    (allowed : suppress = true → may.hush h) :
    Effect may c (eventsOf (c.cancel h suppress).2.2) (issuesOf (c.cancel h suppress).2.2)
      (c.cancel h suppress).2.1 := by
  obtain ⟨_, hs, rfl⟩ := Pool.query?_of_lookup? found
  have hcase := cancelling found suppress
  generalize (c.cancel q.handle suppress).2 = out at hcase ⊢
  cases hcase with
  | swept own => exact .ended i q hs rfl (.swept own)
  | suppressed own => exact .ended i q hs rfl (.hushed own (allowed rfl))
  | told own => exact .ended i q hs rfl (.cancelled own)

end Cancel

section Expire

variable {i : Fin N} {q : PendingQuery}

theorem expire_of_sweepOwns (found : c.pool.query? i = some q) (own : c.sweepOwns q.handle = true) :
    c.expire i = ({ c.finish i q with sweep := none },
      [.expired q.did q.handle q.frameType, .sweepEnded .queryTimedOut]) := by
  obtain ⟨s, hs, _⟩ := sweepOwns_iff.mp own
  have hown : (c.finish i q).sweepOwns q.handle = true := own
  have hsweep : (c.finish i q).sweep = some s := hs
  simp [expire, found, hown, endSweep_of_sweep _ hsweep]

theorem expire_told (found : c.pool.query? i = some q) (own : c.sweepOwns q.handle = false) :
    c.expire i = (((c.finish i q).notify (finalEvent q .timeout)).2,
      [.expired q.did q.handle q.frameType, .event (finalEvent q .timeout)]) := by
  have hown : (c.finish i q).sweepOwns q.handle = false := own
  simp [expire, found, hown]

/-- How a query ends whose time is up. -/
inductive Expiring (c : Controller σ N) (i : Fin N) (q : PendingQuery) :
    Controller σ N × List ControllerAct → Prop
  | swept (own : c.sweepOwns q.handle = true) :
      Expiring c i q ({ c.finish i q with sweep := none },
        [.expired q.did q.handle q.frameType, .sweepEnded .queryTimedOut])
  | told (own : c.sweepOwns q.handle = false) :
      Expiring c i q (((c.finish i q).notify (finalEvent q .timeout)).2,
        [.expired q.did q.handle q.frameType, .event (finalEvent q .timeout)])

theorem expiring (found : c.pool.query? i = some q) : Expiring c i q (c.expire i) := by
  cases ho : c.sweepOwns q.handle with
  | true =>
    rw [expire_of_sweepOwns found ho]
    exact .swept ho
  | false =>
    rw [expire_told found ho]
    exact .told ho

theorem effect_expire (found : c.pool.query? i = some q) :
    Effect may c (eventsOf (c.expire i).2) (issuesOf (c.expire i).2) (c.expire i).1 := by
  have hcase := expiring found
  generalize c.expire i = out at hcase ⊢
  cases hcase with
  | swept own => exact .ended i q found rfl (.swept own)
  | told own => exact .ended i q found rfl (.expired own)

end Expire

section Spread

variable {i : Fin N} {q : PendingQuery} {f : Frame}

theorem spread_kept (own : c.sweepOwns q.handle = false)
    (answer : (Listener.onEvent c.listener (responseEvent q f false)).1 = true) :
    c.spread i q f = (((c.note i q f.did).notify (responseEvent q f false)).2,
      [.event (responseEvent q f false)]) := by
  have hown : (c.note i q f.did).sweepOwns (q.note f.did).handle = false := own
  have hanswer : ((c.note i q f.did).notify
    (responseEvent (q.note f.did) f false)).1 = true := answer
  simp only [spread, hown, hanswer, Bool.false_eq_true, ↓reduceIte]
  rfl

theorem spread_halted (own : c.sweepOwns q.handle = false)
    (answer : (Listener.onEvent c.listener (responseEvent q f false)).1 = false) :
    c.spread i q f =
      (((c.note i q f.did).notify (responseEvent q f false)).2.finish i
        (q.note f.did), [.event (responseEvent q f false), .halted q.handle]) := by
  have hown : (c.note i q f.did).sweepOwns (q.note f.did).handle = false := own
  have hanswer : ((c.note i q f.did).notify
    (responseEvent (q.note f.did) f false)).1 = false := answer
  have hend : (((c.note i q f.did).notify
    (responseEvent (q.note f.did) f false)).2.finish i (q.note f.did)).sweepOwns
      (q.note f.did).handle = false := own
  simp only [spread, hown, hanswer, hend, Bool.false_eq_true, ↓reduceIte]
  rfl

theorem spread_unwanted {s : Sweep} (hs : c.sweep = some s) (hh : s.handle = some q.handle)
    (hf : s.admits f = false) : c.spread i q f = (c.note i q f.did, []) := by
  have hsweep : (c.note i q f.did).sweep = some s := hs
  have hown : (c.note i q f.did).sweepOwns (q.note f.did).handle = true :=
    sweepOwns_iff.mpr ⟨s, hs, hh⟩
  simp only [spread, hown, forward, hsweep, hf, Bool.false_eq_true, ↓reduceIte]

theorem spread_relayed {s : Sweep} (hs : c.sweep = some s) (hh : s.handle = some q.handle)
    (hf : s.admits f = true) (answer : (s.relay f).1 = true) :
    c.spread i q f = ({ c.note i q f.did with sweep := some (s.relay f).2 },
      [.relay f.did f]) := by
  have hsweep : (c.note i q f.did).sweep = some s := hs
  have hown : (c.note i q f.did).sweepOwns (q.note f.did).handle = true :=
    sweepOwns_iff.mpr ⟨s, hs, hh⟩
  simp only [spread, hown, forward, hsweep, hf, answer, ↓reduceIte]

theorem spread_stopped {s : Sweep} (hs : c.sweep = some s) (hh : s.handle = some q.handle)
    (hf : s.admits f = true) (answer : (s.relay f).1 = false) :
    c.spread i q f =
      ({ (c.note i q f.did).finish i (q.note f.did) with sweep := none },
        [.relay f.did f, .halted q.handle, .sweepEnded .stoppedByCallback]) := by
  have hsweep : (c.note i q f.did).sweep = some s := hs
  have hown : (c.note i q f.did).sweepOwns (q.note f.did).handle = true :=
    sweepOwns_iff.mpr ⟨s, hs, hh⟩
  have hend : (({ c.note i q f.did with sweep := some (s.relay f).2 } :
      Controller σ N).finish i (q.note f.did)).sweepOwns (q.note f.did).handle = true :=
    sweepOwns_iff.mpr ⟨(s.relay f).2, rfl, hh⟩
  have hlast : (({ c.note i q f.did with sweep := some (s.relay f).2 } :
      Controller σ N).finish i (q.note f.did)).sweep = some (s.relay f).2 := rfl
  simp only [spread, hown, forward, hsweep, hf, answer, hend, endSweep_of_sweep _ hlast,
    Bool.false_eq_true, ↓reduceIte]
  rfl

/-- How a broadcast query takes the first answer of a device. -/
inductive Spreading (c : Controller σ N) (i : Fin N) (q : PendingQuery) (f : Frame) :
    Controller σ N × List ControllerAct → Prop
  | kept (own : c.sweepOwns q.handle = false)
      (answer : (Listener.onEvent c.listener (responseEvent q f false)).1 = true) :
      Spreading c i q f (((c.note i q f.did).notify (responseEvent q f false)).2,
        [.event (responseEvent q f false)])
  | halted (own : c.sweepOwns q.handle = false)
      (answer : (Listener.onEvent c.listener (responseEvent q f false)).1 = false) :
      Spreading c i q f
        (((c.note i q f.did).notify (responseEvent q f false)).2.finish i (q.note f.did),
          [.event (responseEvent q f false), .halted q.handle])
  | unwanted (s : Sweep) (own : c.sweepOwns q.handle = true) (sweep : c.sweep = some s)
      (unwanted : s.admits f = false) : Spreading c i q f (c.note i q f.did, [])
  | relayed (s : Sweep) (own : c.sweepOwns q.handle = true) (sweep : c.sweep = some s)
      (wanted : s.admits f = true) (answer : (s.relay f).1 = true) :
      Spreading c i q f
        ({ c.note i q f.did with sweep := some (s.relay f).2 }, [.relay f.did f])
  | stopped (s : Sweep) (own : c.sweepOwns q.handle = true) (sweep : c.sweep = some s)
      (wanted : s.admits f = true) (answer : (s.relay f).1 = false) :
      Spreading c i q f
        ({ (c.note i q f.did).finish i (q.note f.did) with sweep := none },
          [.relay f.did f, .halted q.handle, .sweepEnded .stoppedByCallback])

theorem spreading (c : Controller σ N) (i : Fin N) (q : PendingQuery) (f : Frame) :
    Spreading c i q f (c.spread i q f) := by
  cases ho : c.sweepOwns q.handle with
  | false =>
    cases hl : (Listener.onEvent c.listener (responseEvent q f false)).1 with
    | true =>
      rw [spread_kept ho hl]
      exact .kept ho hl
    | false =>
      rw [spread_halted ho hl]
      exact .halted ho hl
  | true =>
    obtain ⟨s, hs, hh⟩ := sweepOwns_iff.mp ho
    cases hf : s.admits f with
    | false =>
      rw [spread_unwanted hs hh hf]
      exact .unwanted s ho hs hf
    | true =>
      cases hg : (s.relay f).1 with
      | true =>
        rw [spread_relayed hs hh hf hg]
        exact .relayed s ho hs hf hg
      | false =>
        rw [spread_stopped hs hh hf hg]
        exact .stopped s ho hs hf hg

theorem noted_of_eq {events : List Event} (found : c.pool.query? i = some q)
    (broadcast : q.did = .broadcast) (answer : q.isAnsweredBy f = true)
    (first : q.notified.contains f.did = false) (heard : may.hear f)
    (goOn : c.sweepOwns q.handle = false →
      (Listener.onEvent c.listener (responseEvent q f false)).1 = true)
    (pool : d.pool = c.pool.setQuery i (q.note f.did)) (sweep : c.Continues d)
    (owns : ∀ h, d.sweepOwns h = c.sweepOwns h)
    (told : events = if c.sweepOwns q.handle then [] else [responseEvent q f false]) :
    Effect may c events [] d := by
  rw [told]
  exact .noted i q f found broadcast answer first heard goOn pool sweep owns

theorem effect_spread (found : c.broadcastFor? f = some (i, q))
    (first : q.notified.contains f.did = false) (heard : may.hear f) :
    Effect may c (eventsOf (c.spread i q f).2) (issuesOf (c.spread i q f).2)
      (c.spread i q f).1 := by
  obtain ⟨hs, hd, ha⟩ := query?_of_broadcastFor? found
  have hcase := spreading c i q f
  generalize c.spread i q f = out at hcase ⊢
  cases hcase with
  | kept own answer =>
    exact noted_of_eq hs hd ha first heard (fun _ => answer) rfl (continues_of_sweep rfl)
      (sweepOwns_of_sweep rfl) (by rw [own]; rfl)
  | halted own answer =>
    exact .ended i q hs (c.pool.finish_setQuery i rfl) (.halted f hd own first answer heard)
  | unwanted s own =>
    exact noted_of_eq hs hd ha first heard (fun hn => by simp [own] at hn) rfl
      (continues_of_sweep rfl) (sweepOwns_of_sweep rfl) (by rw [own]; rfl)
  | relayed s own sweep wanted answer =>
    refine noted_of_eq hs hd ha first heard (fun hn => by simp [own] at hn) rfl ?_ ?_
      (by rw [own]; rfl)
    · intro t ht
      cases Option.some.inj ht
      exact ⟨s, sweep, rfl, rfl, id⟩
    · intro h
      simp [sweepOwns, sweep, Sweep.relay]
  | stopped s own => exact .ended i q hs (c.pool.finish_setQuery i rfl) (.swept own)

theorem pool_spread (c : Controller σ N) (i : Fin N) (q : PendingQuery) (f : Frame) :
    (c.spread i q f).1.pool = c.pool.setQuery i (q.note f.did) ∨
      (c.spread i q f).1.pool = c.pool.finish i q := by
  have hcase := spreading c i q f
  generalize c.spread i q f = out at hcase ⊢
  cases hcase with
  | kept => exact Or.inl rfl
  | unwanted => exact Or.inl rfl
  | relayed => exact Or.inl rfl
  | halted => exact Or.inr (c.pool.finish_setQuery i rfl)
  | stopped => exact Or.inr (c.pool.finish_setQuery i rfl)

theorem listener_spread (c : Controller σ N) (i : Fin N) (q : PendingQuery) (f : Frame) :
    (c.spread i q f).1.listener = hear c.listener (eventsOf (c.spread i q f).2) := by
  have hcase := spreading c i q f
  generalize c.spread i q f = out at hcase ⊢
  cases hcase <;> rfl

end Spread

theorem effect_conclude {f : Frame} {i : Fin N} {q : PendingQuery}
    (found : c.unicastFor? f = some (i, q)) (heard : may.hear f) :
    Effect may c (eventsOf (c.conclude i q f).2) (issuesOf (c.conclude i q f).2)
      (c.conclude i q f).1 := by
  obtain ⟨hf, hs, hd, ha⟩ := query?_of_unicastFor? found
  exact .ended i q hs rfl (.answered f (hd ▸ hf) hd ha heard)

/-- Every step has one of these effects. -/
theorem Step.effect (h : Step may c acts d) (hc : c.Sound) :
    Effect may c (eventsOf acts) (issuesOf acts) d := by
  cases h with
  | skip refused silent =>
    -- A slot that was taken for a query that is refused after all is back in its place.
    obtain rfl := refused.eq hc.kept
    rw [eventsOf_silent silent, issuesOf_silent silent]
    exact .quiet rfl (continues_of_sweep rfl) (sweepOwns_of_sweep rfl)
  | clock now => exact .quiet rfl (continues_of_sweep rfl) (sweepOwns_of_sweep rfl)
  | accept i pool query correlation timeout tag alloc idle asks allowed =>
    rw [eventsOf_install, issuesOf_install]
    exact .taken i pool query correlation timeout tag alloc idle asks allowed rfl
      (Or.inl rfl)
  | search i pool query correlation plan goOn alloc idle asks resting active question allowed =>
    rw [eventsOf_append, issuesOf_append, eventsOf_install, issuesOf_install]
    exact .taken i pool query correlation plan.timeout 0 alloc idle asks allowed rfl
      (Or.inr ⟨resting, (withDid_sweepQuery question).2, _, rfl, rfl, active, rfl⟩)
  | watch plan goOn remaining resting passive allowed =>
    exact .watched _ rfl resting rfl ⟨rfl, passive⟩ allowed
  | unwatch s watching passive =>
    rw [eventsOf_endSweep, issuesOf_endSweep]
    refine .quiet (pool_endSweep c _) (continues_of_none (sweep_endSweep c _)) fun h => ?_
    simp [sweepOwns, watching, passive]
  | cancel h suppress i q found allowed => exact effect_cancel found allowed
  | observe f =>
    rw [eventsOf_observe, issuesOf_observe]
    exact .quiet (pool_observe c f) (continues_observe c f) (sweepOwns_observe hc.sweep f)
  | conclude f i q found heard => exact effect_conclude found heard
  | spread f i q found first heard => exact effect_spread found first heard
  | orphan f => exact .orphaned _ rfl rfl ⟨rfl, rfl, rfl, rfl⟩
  | wane elapsed =>
    rw [eventsOf_advanceSweep, issuesOf_advanceSweep]
    exact .quiet (pool_advanceSweep c elapsed) (continues_advanceSweep c elapsed)
      (sweepOwns_advanceSweep hc.sweep elapsed)
  | elapse ms => exact .elapsed ms rfl rfl
  | expire i q found => exact effect_expire found

/-- The listener hears every event, in order, and nothing else. -/
theorem Step.listener (h : Step may c acts d) : d.listener = hear c.listener (eventsOf acts) := by
  cases h with
  | skip refused silent =>
    rw [eventsOf_silent silent, hear_nil]
    exact refused.listener
  | clock now => rfl
  | accept i pool query correlation timeout tag =>
    rw [eventsOf_install]
    rfl
  | search i pool query correlation plan goOn =>
    rw [eventsOf_append, eventsOf_install]
    rfl
  | watch plan goOn remaining resting passive => rfl
  | unwatch s watching passive => rw [listener_endSweep, eventsOf_endSweep, hear_nil]
  | cancel h suppress i q found allowed =>
    have hcase := cancelling found suppress
    generalize (c.cancel h suppress).2 = out at hcase ⊢
    cases hcase <;> rfl
  | observe f => rw [listener_observe, eventsOf_observe, hear_nil]
  | conclude f i q found => rfl
  | spread f i q found first => exact listener_spread c i q f
  | orphan f => rfl
  | wane elapsed => rw [listener_advanceSweep, eventsOf_advanceSweep, hear_nil]
  | elapse ms => rfl
  | expire i q found =>
    have hcase := expiring found
    generalize c.expire i = out at hcase ⊢
    cases hcase <;> rfl

theorem Steps.listener (h : Steps may c acts d) :
    d.listener = hear c.listener (eventsOf acts) := by
  induction h with
  | refl => rfl
  | cons first _ ih => rw [ih, first.listener, eventsOf_append, hear_append]

end Controller

end Fieldbus
