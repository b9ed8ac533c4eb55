import Fieldbus.Proofs.Controller.Issue
import Fieldbus.Proofs.Controller.Lookup

namespace Fieldbus

/-- What can be asked of a controller; the platform may differ from call to call. -/
inductive Request (π : Type)
  | query (platform : π) (did : Did) (frame : Frame) (timeout : Timeout) (tag : UInt32)
  | cancel (handle : Handle) (suppress : Bool)
  | cancelAll (suppress : Bool)
  | receive (elapsed : Nat) (frame : Option Frame)
  | poll (platform : π)
  | startSweep (platform : π) (plan : SweepPlan) (goOn : List (Did × Frame) → Bool)
  | stopSweep

/-- The frames that a request makes a controller take. -/
def Request.frames {π : Type} [Platform π] : Request π → List Frame
  | .receive _ frame => frame.toList
  | .poll p => (Controller.drain p).1
  | _ => []

@[simp] theorem eventsOf_nil : eventsOf [] = [] := rfl

@[simp] theorem eventsOf_append (a b : List ControllerAct) :
    eventsOf (a ++ b) = eventsOf a ++ eventsOf b := List.filterMap_append

/-- The queries that were accepted, and how long their answers are awaited. -/
def issuesOf (acts : List ControllerAct) : List (Handle × Timeout) :=
  acts.filterMap fun
    | .issued _ h timeout _ => some (h, timeout)
    | _ => none

@[simp] theorem issuesOf_nil : issuesOf [] = [] := rfl

@[simp] theorem issuesOf_append (a b : List ControllerAct) :
    issuesOf (a ++ b) = issuesOf a ++ issuesOf b := List.filterMap_append

theorem notMem_issuesOf_append {a b : List ControllerAct} {h : Handle} :
    h ∉ (issuesOf (a ++ b)).map Prod.fst ↔
      h ∉ (issuesOf a).map Prod.fst ∧ h ∉ (issuesOf b).map Prod.fst := by
  rw [issuesOf_append, List.map_append, List.mem_append, not_or]

theorem relaysOf_append (a b : List ControllerAct) :
    relaysOf (a ++ b) = relaysOf a ++ relaysOf b := List.filterMap_append

/-- The events that carry a handle. -/
def eventsFor (h : Handle) (acts : List ControllerAct) : List Event :=
  (eventsOf acts).filter fun e => e.handle = some h

theorem eventsFor_append (h : Handle) (a b : List ControllerAct) :
    eventsFor h (a ++ b) = eventsFor h a ++ eventsFor h b := by
  rw [eventsFor, eventsOf_append, List.filter_append]
  rfl

theorem eventsOf_silent {acts : List ControllerAct} (h : ∀ a ∈ acts, a.isSilent = true) :
    eventsOf acts = [] := by
  apply List.filterMap_eq_nil_iff.mpr
  intro a ha
  have hs := h a ha
  cases a <;> simp_all [ControllerAct.isSilent]

theorem issuesOf_silent {acts : List ControllerAct} (h : ∀ a ∈ acts, a.isSilent = true) :
    issuesOf acts = [] := by
  apply List.filterMap_eq_nil_iff.mpr
  intro a ha
  have hs := h a ha
  cases a <;> simp_all [ControllerAct.isSilent]

namespace Controller

variable {σ π : Type} {N : Nat} [Listener σ] [Platform π]

/-- Answers one request. -/
def serve (c : Controller σ N) : Request π → Controller σ N × List ControllerAct
  | .query p did frame timeout tag =>
    let asked := c.query p did frame timeout tag
    (asked.controller, asked.acts)
  | .cancel handle suppress => (c.cancel handle suppress).2
  | .cancelAll suppress => c.cancelAll suppress
  | .receive elapsed frame => c.receive elapsed frame
  | .poll p =>
    let polled := c.poll p
    (polled.controller, polled.acts)
  | .startSweep p plan goOn =>
    let started := c.startSweep p plan goOn
    (started.controller, started.acts)
  | .stopSweep => c.stopSweep.2

/-- Answers requests one after the other. -/
def run (c : Controller σ N) : List (Request π) → Controller σ N × List ControllerAct
  | [] => (c, [])
  | r :: rest =>
    let (c, acts) := c.serve r
    let (c, more) := c.run rest
    (c, acts ++ more)

theorem run_cons (c : Controller σ N) (r : Request π) (rest : List (Request π)) :
    c.run (r :: rest) =
      (((c.serve r).1.run rest).1, (c.serve r).2 ++ ((c.serve r).1.run rest).2) := rfl

theorem run_append (c : Controller σ N) (first rest : List (Request π)) :
    c.run (first ++ rest) =
      (((c.run first).1.run rest).1, (c.run first).2 ++ ((c.run first).1.run rest).2) := by
  induction first generalizing c with
  | nil => rfl
  | cons r first ih =>
    rw [List.cons_append, run_cons, run_cons, ih, List.append_assoc]

theorem run_singleton (c : Controller σ N) (r : Request π) : c.run [r] = c.serve r := by
  rw [run_cons]
  change ((c.serve r).1, (c.serve r).2 ++ []) = c.serve r
  rw [List.append_nil]

/-- What a request may do: end these queries without an event, accept one or start a search, take
these frames. -/
structure Licence where
  hush : Handle → Prop
  accept : Prop
  hear : Frame → Prop

def Licence.all : Licence := ⟨fun _ => True, True, fun _ => True⟩

def Licence.none : Licence := ⟨fun _ => False, False, fun _ => False⟩

/-- One thing that a controller may do. -/
inductive Step (may : Licence) :
    Controller σ N → List ControllerAct → Controller σ N → Prop
  | skip {c acts d} (refused : c.Refused d) (silent : ∀ a ∈ acts, a.isSilent = true) :
      Step may c acts d
  | clock {c} (now : Nat) : Step may c [] { c with lastPoll := some now }
  | accept {c} (i : Fin N) (pool : Pool N) (query : Frame) (correlation : Correlation)
      (timeout : Timeout) (tag : UInt32) (alloc : c.pool.alloc? = some (i, pool))
      (idle : c.isDidPending query.did = false)
      (asks : Correlation.ofQuery? query = some correlation) (allowed : may.accept) :
      Step may c ({ c with pool }.install i query correlation timeout tag).2
        ({ c with pool }.install i query correlation timeout tag).1
  | search {c} (i : Fin N) (pool : Pool N) (query : Frame) (correlation : Correlation)
      (plan : SweepPlan) (goOn : List (Did × Frame) → Bool)
      (alloc : c.pool.alloc? = some (i, pool)) (idle : c.isDidPending query.did = false)
      (asks : Correlation.ofQuery? query = some correlation)
      (resting : c.sweep = none) (active : plan.mode = .active)
      (question : sweepQuery? plan.target = some query) (allowed : may.accept) :
      Step may c
        (({ c with pool }.install i query correlation plan.timeout 0).2 ++
          [.sweepStarted plan.mode plan.target])
        { ({ c with pool }.install i query correlation plan.timeout 0).1 with
          sweep := some { plan, goOn, handle := some ⟨i⟩, remaining := none } }
  | watch {c} (plan : SweepPlan) (goOn : List (Did × Frame) → Bool) (remaining : Option Nat)
      (resting : c.sweep = none) (passive : plan.mode = .passive) (allowed : may.accept) :
      Step may c [.sweepStarted plan.mode plan.target]
        { c with sweep := some { plan, goOn, handle := none, remaining } }
  | unwatch {c} (s : Sweep) (watching : c.sweep = some s) (passive : s.handle = none) :
      Step may c (c.endSweep .stopped).2 (c.endSweep .stopped).1
  | cancel {c} (h : Handle) (suppress : Bool) (i : Fin N) (q : PendingQuery)
      (found : c.pool.lookup? h = some (i, q)) (allowed : suppress = true → may.hush h) :
      Step may c (c.cancel h suppress).2.2 (c.cancel h suppress).2.1
  | observe {c} (f : Frame) : Step may c (c.observe f).2 (c.observe f).1
  | conclude {c} (f : Frame) (i : Fin N) (q : PendingQuery)
      (found : c.unicastFor? f = some (i, q)) (heard : may.hear f) :
      Step may c (c.conclude i q f).2 (c.conclude i q f).1
  | spread {c} (f : Frame) (i : Fin N) (q : PendingQuery)
      (found : c.broadcastFor? f = some (i, q)) (first : q.notified.contains f.did = false)
      (heard : may.hear f) :
      Step may c (c.spread i q f).2 (c.spread i q f).1
  | orphan {c} (f : Frame) : Step may c (c.reportOrphan f).2 (c.reportOrphan f).1
  | wane {c} (elapsed : Nat) : Step may c (c.advanceSweep elapsed).2 (c.advanceSweep elapsed).1
  | elapse {c} (ms : Nat) : Step may c [] { c with pool := c.pool.elapse ms }
  | expire {c} (i : Fin N) (q : PendingQuery) (found : c.pool.query? i = some q) :
      Step may c (c.expire i).2 (c.expire i).1

/-- Steps one after the other. -/
inductive Steps (may : Licence) :
    Controller σ N → List ControllerAct → Controller σ N → Prop
  | refl (c) : Steps may c [] c
  | cons {c acts d more e} (first : Step may c acts d) (rest : Steps may d more e) :
      Steps may c (acts ++ more) e

variable {may : Licence} {c d e : Controller σ N} {acts more : List ControllerAct}

theorem Step.steps (h : Step may c acts d) : Steps may c acts d := by
  simpa using Steps.cons h (.refl d)

theorem Steps.trans (h : Steps may c acts d) (hh : Steps may d more e) :
    Steps may c (acts ++ more) e := by
  induction h with
  | refl => exact hh
  | cons first _ ih =>
    rw [List.append_assoc]
    exact .cons first (ih hh)

/-- What every step keeps holds as long as a controller runs. -/
theorem Steps.preserve {P : Controller σ N → Prop}
    (keep : ∀ c acts d, Step may c acts d → P c → P d) (h : Steps may c acts d) (hc : P c) :
    P d := by
  induction h with
  | refl => exact hc
  | cons first _ ih => exact ih (keep _ _ _ first hc)

/-- What a controller may do to answer a request. -/
def licence (c : Controller σ N) (r : Request π) : Licence where
  hush h :=
    match r with
    | .cancel handle suppress => suppress = true ∧ h = handle
    | .cancelAll suppress => suppress = true
    | .stopSweep => c.sweepOwns h = true
    | _ => False
  accept :=
    match r with
    | .query .. | .startSweep .. => True
    | _ => False
  hear f := f ∈ r.frames ∧ f.id.isResponse = true

theorem query_steps (c : Controller σ N) (p : π) (did : Did) (frame : Frame) (timeout : Timeout)
    (tag : UInt32) (allowed : may.accept) : Steps may c (c.query p did frame timeout tag).acts
      (c.query p did frame timeout tag).controller := by
  rcases query_cases c p did frame timeout tag with
    ⟨i, pool, correlation, _, halloc, hidle, hasks, _, hc, ha⟩ | ⟨hc, ha, _⟩
  · rw [hc, ha]
    have haccept := Step.accept i pool (frame.withDid did) correlation timeout tag halloc hidle
      hasks allowed
    exact .cons (.skip (Or.inl rfl) (by simp [ControllerAct.isSilent])) haccept.steps
  · exact (Step.skip hc ha).steps

theorem cancel_steps (c : Controller σ N) (h : Handle) (suppress : Bool)
    (allowed : suppress = true → may.hush h) :
    Steps may c (c.cancel h suppress).2.2 (c.cancel h suppress).2.1 := by
  cases hl : c.pool.lookup? h with
  | none =>
    simp only [cancel, hl]
    exact .refl c
  | some e => exact (Step.cancel h suppress e.1 e.2 hl allowed).steps

theorem cancelSlots_steps (c : Controller σ N) (suppress : Bool) (slots : List (Fin N))
    (allowed : ∀ h, suppress = true → may.hush h) :
    Steps may c (c.cancelSlots suppress slots).2 (c.cancelSlots suppress slots).1 := by
  induction slots generalizing c with
  | nil => exact .refl c
  | cons i rest ih =>
    cases hs : c.pool.query? i with
    | none =>
      simp only [cancelSlots, hs, List.nil_append]
      exact ih c
    | some q =>
      simp only [cancelSlots, hs]
      exact (cancel_steps c q.handle suppress (allowed _)).trans (ih _)

theorem match?_steps (c : Controller σ N) (f : Frame) (heard : may.hear f) :
    Steps may c (c.match? f).2 (c.match? f).1 := by
  unfold match?
  split
  next i q hu => exact (Step.conclude f i q hu heard).steps
  next =>
    split
    next i q hb =>
      split
      next => exact (Step.skip (Or.inl rfl) (by simp [ControllerAct.isSilent])).steps
      next hn => exact (Step.spread f i q hb (by simpa using hn) heard).steps
    next => exact (Step.orphan f).steps

theorem handleResponse_steps (c : Controller σ N) (f : Frame) (heard : may.hear f) :
    Steps may c (c.handleResponse f).2 (c.handleResponse f).1 :=
  .cons (Step.observe f) (match?_steps (c.observe f).1 f heard)

theorem expire_steps (c : Controller σ N) (i : Fin N) :
    Steps may c (c.expire i).2 (c.expire i).1 := by
  cases hs : c.pool.query? i with
  | none =>
    simp only [expire, hs]
    exact .refl c
  | some q => exact (Step.expire i q hs).steps

theorem expireDue_steps (c : Controller σ N) (slots : List (Fin N)) :
    Steps may c (c.expireDue slots).2 (c.expireDue slots).1 := by
  induction slots generalizing c with
  | nil => exact .refl c
  | cons i rest ih =>
    unfold expireDue
    split
    next => exact (expire_steps c i).trans (ih _)
    next => exact .refl c

theorem advance_steps (c : Controller σ N) (elapsed : Nat) :
    Steps may c (c.advance elapsed).2 (c.advance elapsed).1 := by
  exact .cons (.wane elapsed) (.cons (.elapse elapsed) (expireDue_steps _ _))

theorem respond_steps (c : Controller σ N) (frame : Option Frame)
    (heard : ∀ f ∈ frame, f.id.isResponse = true → may.hear f) :
    Steps may c (c.respond frame).2 (c.respond frame).1 := by
  cases frame with
  | none => exact .refl c
  | some f =>
    by_cases hr : f.id.isResponse = true
    · simp only [respond, hr, if_true]
      exact handleResponse_steps c f (heard f rfl hr)
    · simp only [respond, hr]
      exact .refl c

theorem receive_steps (c : Controller σ N) (elapsed : Nat) (frame : Option Frame)
    (heard : ∀ f ∈ frame, f.id.isResponse = true → may.hear f) :
    Steps may c (c.receive elapsed frame).2 (c.receive elapsed frame).1 :=
  (respond_steps c frame heard).trans (advance_steps _ elapsed)

theorem feed_steps (c : Controller σ N) (elapsed : Nat) (frames : List Frame)
    (heard : ∀ f ∈ frames, f.id.isResponse = true → may.hear f) :
    Steps may c (c.feed elapsed frames).2 (c.feed elapsed frames).1 := by
  induction frames generalizing c elapsed with
  | nil => exact receive_steps c elapsed none (by simp)
  | cons f rest ih =>
    refine (receive_steps c elapsed (some f) fun g hg => ?_).trans (ih _ 0 fun g hg => ?_)
    · exact heard g (by simp [Option.mem_some_iff.mp hg])
    · exact heard g (List.mem_cons_of_mem f hg)

theorem poll_steps (c : Controller σ N) (p : π)
    (heard : ∀ f ∈ (drain p).1, f.id.isResponse = true → may.hear f) :
    Steps may c (c.poll p).acts (c.poll p).controller :=
  .cons (Step.clock (Platform.now p).toMillis) (feed_steps _ _ _ heard)

theorem startSweep_steps (c : Controller σ N) (p : π) (plan : SweepPlan)
    (goOn : List (Did × Frame) → Bool) (allowed : may.accept) :
    Steps may c (c.startSweep p plan goOn).acts (c.startSweep p plan goOn).controller := by
  rcases startSweep_cases c p plan goOn with
    ⟨query, i, pool, correlation, hs, _, hm, hg, halloc, hidle, hasks, _, hc, ha⟩ |
    ⟨hs, hm, _, hc, ha⟩ | ⟨hc, ha, _⟩
  · rw [hc, ha]
    exact .cons (.skip (Or.inl rfl) (by simp [ControllerAct.isSilent]))
      (Step.search i pool query correlation plan goOn halloc hidle hasks hs hm hg
        allowed).steps
  · rw [hc, ha]
    exact (Step.watch plan goOn _ hs hm allowed).steps
  · exact (Step.skip hc ha).steps

theorem stopSweep_steps (c : Controller σ N) (allowed : ∀ h, c.sweepOwns h = true → may.hush h) :
    Steps may c c.stopSweep.2.2 c.stopSweep.2.1 := by
  unfold stopSweep
  cases hs : c.sweep with
  | none => exact .refl c
  | some s =>
    cases hh : s.handle with
    | none =>
      simp only [hh]
      exact (Step.unwatch s hs hh).steps
    | some h =>
      simp only [hh]
      exact cancel_steps c h true fun _ => allowed h (by simp [sweepOwns, hs, hh])

/-- Every request is answered by steps. -/
theorem serve_steps (c : Controller σ N) (r : Request π) :
    Steps (c.licence r) c (c.serve r).2 (c.serve r).1 := by
  cases r with
  | query p did frame timeout tag => exact query_steps c p did frame timeout tag trivial
  | cancel h suppress => exact cancel_steps c h suppress fun hs => ⟨hs, rfl⟩
  | cancelAll suppress => exact cancelSlots_steps c suppress _ fun _ hs => hs
  | receive elapsed frame =>
    exact receive_steps c elapsed frame fun f hf hr =>
      ⟨Option.mem_toList.mpr hf, hr⟩
  | poll p => exact poll_steps c p fun f hf hr => ⟨hf, hr⟩
  | startSweep p plan goOn => exact startSweep_steps c p plan goOn trivial
  | stopSweep => exact stopSweep_steps c fun _ h => h

/-- What every step keeps holds after any requests. -/
theorem run_preserve {P : Controller σ N → Prop}
    (keep : ∀ may c acts d, Step may c acts d → P c → P d) (c : Controller σ N) (hc : P c)
    (rs : List (Request π)) : P (c.run rs).1 := by
  induction rs generalizing c with
  | nil => exact hc
  | cons r rest ih => exact ih _ ((serve_steps c r).preserve (keep _) hc)

end Controller

end Fieldbus
