import Fieldbus.Proofs.Controller.Agenda
import Fieldbus.Proofs.Controller.Refusal

namespace Fieldbus

/-- Whether something is done for a sweep and not for a query. -/
def ControllerAct.isOfSweep : ControllerAct → Bool
  | sweepStarted .. | sweepEnded _ | relay .. => true
  | _ => false

/-- What is done for queries. -/
def unswept (acts : List ControllerAct) : List ControllerAct :=
  acts.filter fun a => !a.isOfSweep

theorem unswept_append (a b : List ControllerAct) :
    unswept (a ++ b) = unswept a ++ unswept b := List.filter_append a b

theorem eventsOf_unswept (acts : List ControllerAct) : eventsOf (unswept acts) = eventsOf acts := by
  induction acts with
  | nil => rfl
  | cons a rest ih =>
    cases a <;> simp_all [unswept, eventsOf, ControllerAct.isOfSweep]

theorem sendsOf_unswept (acts : List ControllerAct) : sendsOf (unswept acts) = sendsOf acts := by
  induction acts with
  | nil => rfl
  | cons a rest ih =>
    cases a <;> simp_all [unswept, sendsOf, ControllerAct.isOfSweep]

/-- What a caller gets back, with the platform if it was used. -/
structure Reply (π : Type) where
  result : Except Fault (Option Handle)
  platform : Option π

namespace Request

variable {π : Type}

/-- Whether a request concerns queries and not a sweep. -/
def isQuerying : Request π → Bool
  | startSweep .. | stopSweep => false
  | _ => true

/-- Starts no search that sends anything. -/
def Watches : Request π → Prop
  | startSweep _ plan _ => plan.mode = .passive
  | _ => True

end Request

namespace Controller

variable {σ π : Type} {N : Nat} {c c' d d' e : Controller σ N}

/-- What a request gives back. -/
def reply [Listener σ] [Platform π] (c : Controller σ N) : Request π → Reply π
  | .query p did frame timeout tag =>
    let asked := c.query p did frame timeout tag
    ⟨asked.result, some asked.platform⟩
  | .cancel handle suppress => ⟨(c.cancel handle suppress).1.map fun _ => none, none⟩
  | .cancelAll _ | .receive .. => ⟨.ok none, none⟩
  | .poll p =>
    let polled := c.poll p
    ⟨polled.result.map fun _ => none, some polled.platform⟩
  | .startSweep p plan goOn =>
    let started := c.startSweep p plan goOn
    ⟨started.result.map fun _ => none, some started.platform⟩
  | .stopSweep => ⟨c.stopSweep.1.map fun _ => none, none⟩

/-- No sweep waits for a query. -/
def Unswept (c : Controller σ N) : Prop := ∀ h, c.sweepOwns h = false

/-- The same but for a sweep that watches. -/
structure Alike (c d : Controller σ N) : Prop where
  pool : d.pool = c.pool
  listener : d.listener = c.listener
  lastPoll : d.lastPoll = c.lastPoll
  left : c.Unswept
  right : d.Unswept

theorem unswept_of_sweep (h : d.sweep = c.sweep) (hc : c.Unswept) : d.Unswept :=
  fun g => (sweepOwns_of_sweep h g).trans (hc g)

theorem unswept_of_handle (h : ∀ s, c.sweep = some s → s.handle = none) : c.Unswept := by
  intro g
  cases hs : c.sweep with
  | none => simp [sweepOwns, hs]
  | some s => simp [sweepOwns, hs, h s hs]

theorem unswept_of_continues (h : c.Continues d) (hc : c.Unswept) : d.Unswept := by
  intro g
  by_contra own
  obtain ⟨t, ht, hg⟩ := sweepOwns_iff.mp (Bool.eq_true_of_not_eq_false own)
  obtain ⟨s, hs, _, hh, _⟩ := h t ht
  have hown := sweepOwns_iff.mpr ⟨s, hs, hh ▸ hg⟩
  exact Bool.false_ne_true ((hc g).symm.trans hown)

namespace Alike

theorem refl (h : c.Unswept) : c.Alike c := ⟨rfl, rfl, rfl, h, h⟩

theorem symm (h : c.Alike d) : d.Alike c :=
  ⟨h.pool.symm, h.listener.symm, h.lastPoll.symm, h.right, h.left⟩

theorem trans (h : c.Alike d) (hd : d.Alike e) : c.Alike e :=
  ⟨hd.pool.trans h.pool, hd.listener.trans h.listener, hd.lastPoll.trans h.lastPoll, h.left,
    hd.right⟩

end Alike

/-- Two controllers stay alike, and do the same for queries. -/
def AlikeAfter (out out' : Controller σ N × List ControllerAct) : Prop :=
  out.1.Alike out'.1 ∧ unswept out.2 = unswept out'.2

theorem AlikeAfter.append {out out' : Controller σ N × List ControllerAct}
    {acts acts' : List ControllerAct} (h : AlikeAfter out out')
    (first : unswept acts = unswept acts') :
    AlikeAfter (out.1, acts ++ out.2) (out'.1, acts' ++ out'.2) :=
  ⟨h.1, by rw [unswept_append, unswept_append, first, h.2]⟩

section Watching

/-- What is done for a sweep alone. -/
def Aside (c : Controller σ N) (out : Controller σ N × List ControllerAct) : Prop :=
  c.Alike out.1 ∧ unswept out.2 = []

theorem aside_refl (h : c.Unswept) : c.Aside (c, []) := ⟨.refl h, rfl⟩

theorem aside_endSweep (h : c.Unswept) (reason : SweepEnd) : c.Aside (c.endSweep reason) := by
  unfold endSweep
  split
  next => exact aside_refl h
  next => exact ⟨⟨rfl, rfl, rfl, h, fun _ => rfl⟩, rfl⟩

theorem aside_observe (h : c.Unswept) (f : Frame) : c.Aside (c.observe f) := by
  have hright := unswept_of_continues (continues_observe c f) h
  rcases observe_cases c f with he | ⟨s, _, _, ⟨_, he⟩ | ⟨_, he⟩⟩
  · rw [he]
    exact aside_refl h
  · rw [he] at hright ⊢
    exact ⟨⟨rfl, rfl, rfl, h, hright⟩, rfl⟩
  · rw [he] at hright ⊢
    exact ⟨⟨rfl, rfl, rfl, h, hright⟩, rfl⟩

theorem aside_advanceSweep (h : c.Unswept) (elapsed : Nat) : c.Aside (c.advanceSweep elapsed) := by
  have hright := unswept_of_continues (continues_advanceSweep c elapsed) h
  rcases advanceSweep_cases c elapsed with he | ⟨s, r, _, _, ⟨_, he⟩ | ⟨_, he⟩⟩
  · rw [he]
    exact aside_refl h
  · rw [he] at hright ⊢
    exact ⟨⟨rfl, rfl, rfl, h, hright⟩, rfl⟩
  · rw [he] at hright ⊢
    exact ⟨⟨rfl, rfl, rfl, h, hright⟩, rfl⟩

theorem aside_stopSweep [Listener σ] (h : c.Unswept) : c.Aside c.stopSweep.2 := by
  unfold stopSweep
  cases hs : c.sweep with
  | none => exact aside_refl h
  | some s =>
    cases hh : s.handle with
    | none =>
      simp only [hh]
      exact aside_endSweep h .stopped
    | some g =>
      have hown := sweepOwns_iff.mpr ⟨s, hs, hh⟩
      exact absurd ((h g).symm.trans hown) Bool.false_ne_true

/-- A sweep that watches sends nothing, whether it is started or refused. -/
theorem aside_startSweep [Platform π] (h : c.Unswept) (p : π) {plan : SweepPlan}
    (passive : plan.mode = .passive) (goOn : List (Did × Frame) → Bool) :
    c.Aside ((c.startSweep p plan goOn).controller, (c.startSweep p plan goOn).acts) ∧
      (c.startSweep p plan goOn).platform = p := by
  unfold startSweep
  split
  next => exact ⟨aside_refl h, rfl⟩
  next =>
    split
    next => exact ⟨aside_refl h, rfl⟩
    next =>
      simp only [passive]
      split
      next => exact ⟨aside_refl h, rfl⟩
      next => exact ⟨⟨⟨rfl, rfl, rfl, h, unswept_of_handle (by simp)⟩, rfl⟩, rfl⟩

theorem Aside.alike {out out' : Controller σ N × List ControllerAct} (h : c.Aside out)
    (hd : d.Aside out') (hcd : c.Alike d) : out.1.Alike out'.1 :=
  h.1.symm.trans (hcd.trans hd.1)

end Watching

theorem Alike.finish (h : c.Alike d) (i : Fin N) (q : PendingQuery) :
    (c.finish i q).Alike (d.finish i q) where
  pool := by
    change d.pool.finish i q = c.pool.finish i q
    rw [h.pool]
  listener := h.listener
  lastPoll := h.lastPoll
  left := h.left
  right := h.right

theorem Alike.note (h : c.Alike d) (i : Fin N) (q : PendingQuery) (did : Did) :
    (c.note i q did).Alike (d.note i q did) where
  pool := by
    change d.pool.setQuery i (q.note did) = c.pool.setQuery i (q.note did)
    rw [h.pool]
  listener := h.listener
  lastPoll := h.lastPoll
  left := h.left
  right := h.right

theorem Alike.elapse (h : c.Alike d) (ms : Nat) :
    ({ c with pool := c.pool.elapse ms } : Controller σ N).Alike
      { d with pool := d.pool.elapse ms } where
  pool := congrArg (Pool.elapse · ms) h.pool
  listener := h.listener
  lastPoll := h.lastPoll
  left := h.left
  right := h.right

section Exchange

variable [Platform π]

/-- Two exchanges have the same outcome for the caller, the platform and the queries. -/
structure SameExchange {β : Type} (x y : Exchange σ N π β) : Prop where
  result : x.result = y.result
  platform : x.platform = y.platform
  after : AlikeAfter (x.controller, x.acts) (y.controller, y.acts)

theorem Alike.query (h : c.Alike d) (p : π) (did : Did) (frame : Frame) (timeout : Timeout)
    (tag : UInt32) :
    SameExchange (c.query p did frame timeout tag) (d.query p did frame timeout tag) := by
  have hpending : d.isDidPending did = c.isDidPending did := by
    rw [isDidPending, isDidPending, h.pool]
  rw [Controller.query, Controller.query, hpending, h.pool]
  split
  next => exact ⟨rfl, rfl, h, rfl⟩
  next =>
    dsimp only
    split
    next => exact ⟨rfl, rfl, h, rfl⟩
    next =>
      split
      next => exact ⟨rfl, rfl, h, rfl⟩
      next =>
        split
        next => exact ⟨rfl, rfl, h, rfl⟩
        next => exact ⟨rfl, rfl, h, rfl⟩
        next =>
          split
          next => exact ⟨rfl, rfl, ⟨rfl, h.listener, h.lastPoll, h.left, h.right⟩, rfl⟩
          next => exact ⟨rfl, rfl, ⟨rfl, h.listener, h.lastPoll, h.left, h.right⟩, rfl⟩

end Exchange

variable [Listener σ]

theorem Alike.notify (h : c.Alike d) (event : Event) :
    (c.notify event).2.Alike (d.notify event).2 where
  pool := h.pool
  listener := by
    change (Listener.onEvent d.listener event).2 = (Listener.onEvent c.listener event).2
    rw [h.listener]
  lastPoll := h.lastPoll
  left := h.left
  right := h.right

theorem Alike.conclude (h : c.Alike d) (i : Fin N) (q : PendingQuery) (f : Frame) :
    AlikeAfter (c.conclude i q f) (d.conclude i q f) :=
  ⟨(h.finish i q).notify _, rfl⟩

theorem Alike.reportOrphan (h : c.Alike d) (f : Frame) :
    AlikeAfter (c.reportOrphan f) (d.reportOrphan f) := ⟨h.notify _, rfl⟩

theorem Alike.spread (h : c.Alike d) (i : Fin N) (q : PendingQuery) (f : Frame) :
    AlikeAfter (c.spread i q f) (d.spread i q f) := by
  have hnotify := (h.note i q f.did).notify (responseEvent q f false)
  cases hl : (Listener.onEvent c.listener (responseEvent q f false)).1 with
  | true =>
    rw [spread_kept (h.left _) hl, spread_kept (h.right _) (by rw [h.listener, hl])]
    exact ⟨hnotify, rfl⟩
  | false =>
    rw [spread_halted (h.left _) hl, spread_halted (h.right _) (by rw [h.listener, hl])]
    exact ⟨hnotify.finish i (q.note f.did), rfl⟩

theorem Alike.match? (h : c.Alike d) (f : Frame) : AlikeAfter (c.match? f) (d.match? f) := by
  rw [Controller.match?, Controller.match?, unicastFor?_of_pool h.pool,
    broadcastFor?_of_pool h.pool]
  split
  next => exact h.conclude ..
  next =>
    split
    next =>
      split
      next => exact ⟨h, rfl⟩
      next => exact h.spread ..
    next => exact h.reportOrphan f

theorem Alike.respond (h : c.Alike d) (frame : Option Frame) :
    AlikeAfter (c.respond frame) (d.respond frame) := by
  cases frame with
  | none => exact ⟨h, rfl⟩
  | some f =>
    by_cases hr : f.id.isResponse = true
    · simp only [Controller.respond, hr, if_true]
      have hc := aside_observe h.left f
      have hd := aside_observe h.right f
      exact ((hc.alike hd h).match? f).append (hc.2.trans hd.2.symm)
    · simp only [Controller.respond, hr]
      exact ⟨h, rfl⟩

theorem Alike.expire (h : c.Alike d) (i : Fin N) : AlikeAfter (c.expire i) (d.expire i) := by
  cases found : c.pool.query? i with
  | none =>
    have found' : d.pool.query? i = none := h.pool ▸ found
    simp only [Controller.expire, found, found']
    exact ⟨h, rfl⟩
  | some q =>
    rw [expire_told found (h.left _), expire_told (h.pool ▸ found) (h.right _)]
    exact ⟨(h.finish i q).notify _, rfl⟩

theorem Alike.expireDue (h : c.Alike d) (slots : List (Fin N)) :
    AlikeAfter (c.expireDue slots) (d.expireDue slots) := by
  induction slots generalizing c d with
  | nil => exact ⟨h, rfl⟩
  | cons i rest ih =>
    rw [Controller.expireDue, Controller.expireDue, h.pool]
    split
    next => exact (ih (h.expire i).1).append (h.expire i).2
    next => exact ⟨h, rfl⟩

theorem Alike.advance (h : c.Alike d) (elapsed : Nat) :
    AlikeAfter (c.advance elapsed) (d.advance elapsed) := by
  have hc := aside_advanceSweep h.left elapsed
  have hd := aside_advanceSweep h.right elapsed
  have haged : (c.aged elapsed).Alike (d.aged elapsed) := (hc.alike hd h).elapse elapsed
  rw [advance_eq, advance_eq, haged.pool]
  exact (haged.expireDue _).append (hc.2.trans hd.2.symm)

theorem Alike.receive (h : c.Alike d) (elapsed : Nat) (frame : Option Frame) :
    AlikeAfter (c.receive elapsed frame) (d.receive elapsed frame) :=
  ((h.respond frame).1.advance elapsed).append (h.respond frame).2

theorem Alike.feed (h : c.Alike d) (elapsed : Nat) (frames : List Frame) :
    AlikeAfter (c.feed elapsed frames) (d.feed elapsed frames) := by
  induction frames generalizing c d elapsed with
  | nil => exact h.receive elapsed none
  | cons f rest ih =>
    have hfirst := h.receive elapsed (some f)
    exact (ih hfirst.1 0).append hfirst.2

theorem Alike.cancel (h : c.Alike d) (g : Handle) (suppress : Bool) :
    AlikeAfter (c.cancel g suppress).2 (d.cancel g suppress).2 ∧
      (c.cancel g suppress).1 = (d.cancel g suppress).1 := by
  cases found : c.pool.lookup? g with
  | none =>
    have found' : d.pool.lookup? g = none := h.pool ▸ found
    simp only [Controller.cancel, found, found']
    exact ⟨⟨h, rfl⟩, trivial⟩
  | some e =>
    have found' : d.pool.lookup? g = some e := h.pool ▸ found
    refine ⟨?_, by simp only [Controller.cancel, found, found']⟩
    cases suppress with
    | true =>
      rw [cancel_suppressed found (h.left _), cancel_suppressed found' (h.right _)]
      exact ⟨h.finish .., rfl⟩
    | false =>
      rw [cancel_told found (h.left _), cancel_told found' (h.right _)]
      exact ⟨(h.finish ..).notify _, rfl⟩

theorem Alike.cancelSlots (h : c.Alike d) (suppress : Bool) (slots : List (Fin N)) :
    AlikeAfter (c.cancelSlots suppress slots) (d.cancelSlots suppress slots) := by
  induction slots generalizing c d with
  | nil => exact ⟨h, rfl⟩
  | cons i rest ih =>
    rw [Controller.cancelSlots, Controller.cancelSlots, h.pool]
    cases c.pool.query? i with
    | none => exact ih h
    | some q =>
      have hfirst := (h.cancel q.handle suppress).1
      exact (ih hfirst.1).append hfirst.2

variable [Platform π]

theorem Alike.poll (h : c.Alike d) (p : π) : SameExchange (c.poll p) (d.poll p) := by
  have helapsed : d.elapsedAt (Platform.now p).toMillis = c.elapsedAt (Platform.now p).toMillis := by
    rw [elapsedAt, elapsedAt, h.lastPoll]
  have hwoken : ({ c with lastPoll := some (Platform.now p).toMillis } : Controller σ N).Alike
      { d with lastPoll := some (Platform.now p).toMillis } :=
    ⟨h.pool, h.listener, rfl, h.left, h.right⟩
  rw [Controller.poll, Controller.poll, helapsed]
  exact ⟨rfl, rfl, hwoken.feed ..⟩

theorem Alike.serve (h : c.Alike d) {r : Request π} (hr : r.isQuerying = true) :
    AlikeAfter (c.serve r) (d.serve r) ∧ c.reply r = d.reply r := by
  cases r with
  | query p did frame timeout tag =>
    have hq := h.query p did frame timeout tag
    exact ⟨hq.after, by simp only [reply, hq.result, hq.platform]⟩
  | cancel g suppress =>
    have hg := h.cancel g suppress
    exact ⟨hg.1, by simp only [reply, hg.2]⟩
  | cancelAll suppress => exact ⟨h.cancelSlots suppress _, rfl⟩
  | receive elapsed frame => exact ⟨h.receive elapsed frame, rfl⟩
  | poll p =>
    have hp := h.poll p
    exact ⟨hp.after, by simp only [reply, hp.result, hp.platform]⟩
  | startSweep => simp [Request.isQuerying] at hr
  | stopSweep => simp [Request.isQuerying] at hr

theorem aside_serve (h : c.Unswept) {r : Request π} (hr : r.isQuerying = false)
    (watches : r.Watches) : c.Aside (c.serve r) := by
  cases r with
  | startSweep p plan goOn => exact (aside_startSweep h p watches goOn).1
  | stopSweep => exact aside_stopSweep h
  | query => simp [Request.isQuerying] at hr
  | cancel => simp [Request.isQuerying] at hr
  | cancelAll => simp [Request.isQuerying] at hr
  | receive => simp [Request.isQuerying] at hr
  | poll => simp [Request.isQuerying] at hr

/-- A run is the same for queries without the sweeps that watch. -/
theorem Alike.run (h : c.Alike d) (rs : List (Request π)) (watches : ∀ r ∈ rs, r.Watches) :
    AlikeAfter (c.run rs) (d.run (rs.filter Request.isQuerying)) := by
  induction rs generalizing c d with
  | nil => exact ⟨h, rfl⟩
  | cons r rest ih =>
    have hrest : ∀ r ∈ rest, r.Watches := fun r hm => watches r (List.mem_cons_of_mem _ hm)
    cases hr : r.isQuerying with
    | true =>
      have hfirst := (h.serve hr).1
      rw [List.filter_cons_of_pos hr, run_cons, run_cons]
      exact (ih hfirst.1 hrest).append hfirst.2
    | false =>
      -- The other controller does not notice that a sweep is started or stopped.
      have hfirst := aside_serve h.left hr (watches r List.mem_cons_self)
      have hmid := ih (hfirst.1.symm.trans h) hrest
      rw [List.filter_cons_of_neg (by simp [hr]), run_cons]
      have hnone : unswept (c.serve r).2 = unswept [] := hfirst.2
      exact hmid.append hnone

/-- Sweeps that watch leave all else as it is: without them every call has the same result, the
same frames are sent, the same events are told and the same queries wait. -/
theorem passive_sweeps_do_not_interfere (l : σ) (before rs : List (Request π)) :
    let c : Controller σ N := ((new l).run before).1
    let watched := c.run rs
    let plain := c.run (rs.filter Request.isQuerying)
    (∀ s, c.sweep = some s → s.plan.mode = .passive) → (∀ r ∈ rs, r.Watches) →
      watched.1.pool = plain.1.pool ∧ watched.1.lastPoll = plain.1.lastPoll ∧
      watched.1.listener = plain.1.listener ∧ eventsOf watched.2 = eventsOf plain.2 ∧
      sendsOf watched.2 = sendsOf plain.2 ∧
      (∀ r : Request π, r.isQuerying = true → watched.1.reply r = plain.1.reply r) ∧
      ∀ (p : π) plan goOn, plan.mode = .passive →
        (watched.1.startSweep p plan goOn).platform = p := by
  intro c watched plain passive watches
  have hc : c.Sound := (sound_new l).run before
  have hunswept : c.Unswept := unswept_of_handle fun s hs => by
    rcases hc.sweep s hs with ⟨hn, _⟩ | ⟨_, _, _, hm, _⟩
    · exact hn
    · simp [passive s hs] at hm
  obtain ⟨halike, hacts⟩ := (Alike.refl hunswept).run rs watches
  refine ⟨halike.pool.symm, halike.lastPoll.symm, halike.listener.symm, ?_, ?_,
    fun r hr => (halike.serve hr).2, fun p plan goOn hp => (aside_startSweep halike.left p hp goOn).2⟩
  · rw [← eventsOf_unswept watched.2, ← eventsOf_unswept plain.2, hacts]
  · rw [← sendsOf_unswept watched.2, ← sendsOf_unswept plain.2, hacts]

/-- A sweep that stops at the first response does not keep it from the query it answers. -/
theorem passive_sweeps_do_not_interfere_answered :
    let plan : SweepPlan := ⟨.passive, .any, true, .forever⟩
    let rs : List (Request Silence) :=
      [.startSweep .silence plan fun _ => false, .receive 5 (some Silence.answer)]
    let c : Controller Silence 1 := ((new .silence).run [Silence.ask]).1
    c.sweep = none ∧ relaysOf (c.run rs).2 = [(.ofRaw 1, Silence.answer)] ∧
      (c.run rs).1.pool = (c.run (rs.filter Request.isQuerying)).1.pool ∧
      eventsOf (c.run rs).2 = [Silence.issue.report Silence.answer true] := by
  intro plan rs c
  have hsweep : c.sweep = none := rfl
  obtain ⟨hpool, _, _, hevents, _⟩ := passive_sweeps_do_not_interfere (N := 1) Silence.silence
    [Silence.ask] rs (fun s hs => nomatch hsweep.symm.trans hs) (by simp [rs, Request.Watches, plan])
  refine ⟨hsweep, by decide, ?_, hevents.trans (by decide)⟩
  have hh : c = ((new .silence : Controller Silence 1).run [Silence.ask]).1 := rfl
  rw [hh]
  exact hpool

end Controller

end Fieldbus
