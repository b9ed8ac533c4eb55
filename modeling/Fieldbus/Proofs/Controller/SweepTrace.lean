import Fieldbus.Proofs.Controller.Expiry
import Fieldbus.Proofs.Controller.Refusal

namespace Fieldbus

/-- Whether a sweep runs after some acts; none if a response is relayed or a sweep ends while none
runs, or if a sweep starts while one runs. -/
def sweepingAfter (running : Bool) (acts : List ControllerAct) : Option Bool :=
  acts.foldlM (fun running act =>
    match act with
    | .sweepStarted .. => if running then none else some true
    | .relay .. => if running then some true else none
    | .sweepEnded _ => if running then some false else none
    | _ => some running) running

theorem sweepingAfter_append (running : Bool) (a b : List ControllerAct) :
    sweepingAfter running (a ++ b) =
      (sweepingAfter running a).bind fun running => sweepingAfter running b :=
  List.foldlM_append

theorem sweepingAfter_silent {acts : List ControllerAct} (h : ∀ a ∈ acts, a.isSilent = true)
    (running : Bool) : sweepingAfter running acts = some running := by
  induction acts with
  | nil => rfl
  | cons a rest ih =>
    have hrest := ih fun b hb => h b (List.mem_cons_of_mem a hb)
    have ha := h a List.mem_cons_self
    cases a <;> simp_all [ControllerAct.isSilent, sweepingAfter]

theorem relaysOf_silent {acts : List ControllerAct} (h : ∀ a ∈ acts, a.isSilent = true) :
    relaysOf acts = [] := by
  apply List.filterMap_eq_nil_iff.mpr
  intro a ha
  have hs := h a ha
  cases a <;> simp_all [ControllerAct.isSilent]

/-- The queries that were cancelled, in order. -/
def cancelsOf (acts : List ControllerAct) : List Handle :=
  acts.filterMap fun
    | .cancelled _ h => some h
    | _ => none

theorem cancelsOf_append (a b : List ControllerAct) :
    cancelsOf (a ++ b) = cancelsOf a ++ cancelsOf b := List.filterMap_append

theorem cancelsOf_silent {acts : List ControllerAct} (h : ∀ a ∈ acts, a.isSilent = true) :
    cancelsOf acts = [] := by
  apply List.filterMap_eq_nil_iff.mpr
  intro a ha
  have hs := h a ha
  cases a <;> simp_all [ControllerAct.isSilent]

namespace Controller

variable {σ π : Type} {N : Nat} {c d : Controller σ N}

section Install

variable (c) (i : Fin N) (query : Frame) (correlation : Correlation) (timeout : Timeout)
  (tag : UInt32)

theorem relaysOf_install : relaysOf (c.install i query correlation timeout tag).2 = [] := by
  cases timeout <;> rfl

theorem cancelsOf_install : cancelsOf (c.install i query correlation timeout tag).2 = [] := by
  cases timeout <;> rfl

theorem sweepingAfter_install (running : Bool) :
    sweepingAfter running (c.install i query correlation timeout tag).2 = some running := by
  cases timeout <;> rfl

end Install

theorem Continues.trans {e : Controller σ N} (h : c.Continues d) (hd : d.Continues e) :
    c.Continues e := by
  intro u hu
  obtain ⟨t, ht, hp, hh, hr⟩ := hd u hu
  obtain ⟨s, hs, hp', hh', hr'⟩ := h t ht
  exact ⟨s, hs, hp.trans hp', hh.trans hh', fun hn => hr (hr' hn)⟩

theorem Continues.sweep_eq_none (h : c.Continues d) (hs : c.sweep = none) : d.sweep = none := by
  refine Option.eq_none_iff_forall_ne_some.mpr fun t ht => ?_
  obtain ⟨s, hc, _⟩ := h t ht
  simp [hs] at hc

theorem Refused.sweep (h : c.Refused d) : d.sweep = c.sweep := by
  rcases h with rfl | ⟨i, pool, _, rfl⟩ <;> rfl

theorem sweep_query [Platform π] (c : Controller σ N) (p : π) (did : Did) (frame : Frame)
    (timeout : Timeout) (tag : UInt32) :
    (c.query p did frame timeout tag).controller.sweep = c.sweep := by
  rcases query_cases c p did frame timeout tag with
    ⟨_, _, _, _, _, _, _, _, hout, _⟩ | ⟨hout, _, _⟩
  · rw [hout]
    rfl
  · exact hout.sweep

section Cancels

theorem cancelsOf_observe (c : Controller σ N) (f : Frame) : cancelsOf (c.observe f).2 = [] := by
  rcases observe_cases c f with he | ⟨s, _, _, ⟨_, he⟩ | ⟨_, he⟩⟩ <;> rw [he] <;> rfl

theorem cancelsOf_advanceSweep (c : Controller σ N) (elapsed : Nat) :
    cancelsOf (c.advanceSweep elapsed).2 = [] := by
  rcases advanceSweep_cases c elapsed with he | ⟨s, r, _, _, ⟨_, he⟩ | ⟨_, he⟩⟩ <;> rw [he] <;> rfl

variable [Listener σ]

theorem cancelsOf_spread (c : Controller σ N) (i : Fin N) (q : PendingQuery) (f : Frame) :
    cancelsOf (c.spread i q f).2 = [] := by
  have hcase := spreading c i q f
  generalize c.spread i q f = out at hcase ⊢
  cases hcase <;> rfl

theorem cancelsOf_match? (c : Controller σ N) (f : Frame) : cancelsOf (c.match? f).2 = [] := by
  unfold match?
  split
  next => rfl
  next =>
    split
    next =>
      split
      next => rfl
      next => exact cancelsOf_spread ..
    next => rfl

theorem cancelsOf_respond (c : Controller σ N) (frame : Option Frame) :
    cancelsOf (c.respond frame).2 = [] := by
  cases frame with
  | none => rfl
  | some f =>
    by_cases hr : f.id.isResponse = true
    · simp only [respond, hr, if_true]
      change cancelsOf ((c.observe f).2 ++ ((c.observe f).1.match? f).2) = []
      rw [cancelsOf_append, cancelsOf_observe, cancelsOf_match?, List.nil_append]
    · simp only [respond, hr]
      rfl

theorem cancelsOf_expire (c : Controller σ N) (i : Fin N) : cancelsOf (c.expire i).2 = [] := by
  cases hq : c.pool.query? i with
  | none => simp [expire, hq, cancelsOf]
  | some q =>
    have hcase := expiring hq
    generalize c.expire i = out at hcase ⊢
    cases hcase <;> rfl

theorem cancelsOf_expireDue (c : Controller σ N) (slots : List (Fin N)) :
    cancelsOf (c.expireDue slots).2 = [] := by
  induction slots generalizing c with
  | nil => rfl
  | cons i rest ih =>
    unfold expireDue
    split
    next =>
      change cancelsOf ((c.expire i).2 ++ _) = []
      rw [cancelsOf_append, cancelsOf_expire, ih, List.nil_append]
    next => rfl

theorem cancelsOf_receive (c : Controller σ N) (elapsed : Nat) (frame : Option Frame) :
    cancelsOf (c.receive elapsed frame).2 = [] := by
  change cancelsOf ((c.respond frame).2 ++
    (((c.respond frame).1.advanceSweep elapsed).2 ++ _)) = []
  rw [cancelsOf_append, cancelsOf_append, cancelsOf_respond, cancelsOf_advanceSweep,
    cancelsOf_expireDue]
  rfl

/-- No query is cancelled while frames are taken. -/
theorem cancelsOf_feed (c : Controller σ N) (elapsed : Nat) (frames : List Frame) :
    cancelsOf (c.feed elapsed frames).2 = [] := by
  induction frames generalizing c elapsed with
  | nil => exact cancelsOf_receive c elapsed none
  | cons f rest ih =>
    change cancelsOf ((c.receive elapsed (some f)).2 ++ _) = []
    rw [cancelsOf_append, cancelsOf_receive, ih, List.nil_append]

end Cancels

variable [Listener σ] {may : Licence} {acts : List ControllerAct} {events : List Event}
  {issues : List (Handle × Timeout)}

/-- Sweeps are started only by requests that may accept queries. -/
theorem Effect.continues (h : Effect may c events issues d) (hn : ¬ may.accept) :
    c.Continues d := by
  cases h with
  | quiet pool sweep => exact sweep
  | watched s pool resting sweep passive allowed => exact absurd allowed hn
  | orphaned e pool sweep => exact continues_of_sweep sweep
  | elapsed ms pool sweep => exact continues_of_sweep sweep
  | taken i taken query correlation timeout tag alloc idle asks allowed => exact absurd allowed hn
  | noted i q f found broadcast answer first heard goOn pool sweep => exact sweep
  | ended i q found pool ending => exact ending.continues

theorem Effect.not_hasQuery (h : Effect may c events [] d) (hc : c.Sound) {did : Did}
    (free : ¬ c.HasQuery did) : ¬ d.HasQuery did := by
  rintro ⟨i, r, hr, rfl⟩
  cases hq : c.pool.query? i with
  | none => simp [(h.vacant hc.kept hq (by simp)).1] at hr
  | some q =>
    cases h.fate hc.kept hq with
    | kept found =>
      cases Option.some.inj (found.symm.trans hr)
      exact free ⟨i, _, hq, rfl⟩
    | noted f broadcast answer first heard goOn found =>
      cases Option.some.inj (found.symm.trans hr)
      exact free ⟨i, q, hq, rfl⟩
    | ended gone => simp [gone] at hr

variable [Platform π]

/-- A sweep starts while none runs, and responses are relayed and it ends while it runs. -/
theorem Step.sweepingAfter (h : Step may c acts d) (hc : c.Sound) :
    sweepingAfter c.isSweeping acts = some d.isSweeping := by
  cases h with
  | skip refused silent =>
    obtain rfl := refused.eq hc.kept
    exact sweepingAfter_silent silent _
  | clock now => rfl
  | accept => exact sweepingAfter_install ..
  | search i pool query correlation plan goOn alloc idle asks resting =>
    rw [sweepingAfter_append, sweepingAfter_install, isSweeping, resting]
    rfl
  | watch plan goOn remaining resting =>
    rw [isSweeping, resting]
    rfl
  | unwatch s watching =>
    rw [endSweep_of_sweep _ watching, isSweeping, watching]
    rfl
  | cancel h suppress i q found =>
    have hcase := cancelling found suppress
    generalize (c.cancel h suppress).2 = out at hcase ⊢
    cases hcase with
    | swept own =>
      obtain ⟨s, hs, _⟩ := sweepOwns_iff.mp own
      rw [isSweeping, hs]
      rfl
    | suppressed => rfl
    | told => rfl
  | observe f =>
    rcases observe_cases c f with he | ⟨s, hs, _, ⟨_, he⟩ | ⟨_, he⟩⟩
    · rw [he]
      rfl
    · rw [he, isSweeping, hs]
      rfl
    · rw [he, isSweeping, hs]
      rfl
  | conclude => rfl
  | spread f i q =>
    have hcase := spreading c i q f
    generalize c.spread i q f = out at hcase ⊢
    cases hcase with
    | kept => rfl
    | halted => rfl
    | unwanted => rfl
    | relayed s own sweep =>
      rw [isSweeping, sweep]
      rfl
    | stopped s own sweep =>
      rw [isSweeping, sweep]
      rfl
  | orphan => rfl
  | wane elapsed =>
    rcases advanceSweep_cases c elapsed with he | ⟨s, r, hs, _, ⟨_, he⟩ | ⟨_, he⟩⟩
    · rw [he]
      rfl
    · rw [he, isSweeping, hs]
      rfl
    · rw [he, isSweeping, hs]
      rfl
  | elapse => rfl
  | expire i q found =>
    have hcase := expiring found
    generalize c.expire i = out at hcase ⊢
    cases hcase with
    | swept own =>
      obtain ⟨s, hs, _⟩ := sweepOwns_iff.mp own
      rw [isSweeping, hs]
      rfl
    | told => rfl

/-- Nothing is relayed while no sweep runs, nor by a sweep that waits for a query when no frame is
taken. -/
theorem Step.relaysOf_eq_nil (h : Step may c acts d) (hc : c.Sound)
    (quiet : c.sweep = none ∨ (∃ g, c.sweepOwns g = true) ∧ ∀ f, ¬ may.hear f) :
    relaysOf acts = [] := by
  cases h with
  | skip refused silent => exact relaysOf_silent silent
  | clock now => rfl
  | accept => exact relaysOf_install ..
  | search =>
    rw [relaysOf_append, relaysOf_install]
    rfl
  | watch => rfl
  | unwatch s watching =>
    rw [endSweep_of_sweep _ watching]
    rfl
  | cancel h suppress i q found =>
    have hcase := cancelling found suppress
    generalize (c.cancel h suppress).2 = out at hcase ⊢
    cases hcase <;> rfl
  | observe f =>
    have hidle : c.observe f = (c, []) := by
      rcases quiet with resting | ⟨⟨g, own⟩, _⟩
      · simp only [Controller.observe, resting]
      · exact observe_of_sweepOwns hc.sweep own f
    rw [hidle]
    rfl
  | conclude => rfl
  | spread f i q found first heard =>
    have resting := quiet.resolve_right fun hq => hq.2 f heard
    have hcase := spreading c i q f
    generalize c.spread i q f = out at hcase ⊢
    cases hcase with
    | kept => rfl
    | halted => rfl
    | unwanted => rfl
    | relayed s own sweep => simp [resting] at sweep
    | stopped s own sweep => simp [resting] at sweep
  | orphan => rfl
  | wane elapsed => exact relaysOf_advanceSweep c elapsed
  | elapse => rfl
  | expire i q found => exact relaysOf_expire c i

theorem Steps.sweepingAfter (h : Steps may c acts d) (hc : c.Sound) :
    sweepingAfter c.isSweeping acts = some d.isSweeping := by
  induction h with
  | refl => rfl
  | cons first _ ih =>
    rw [sweepingAfter_append, first.sweepingAfter hc]
    exact ih (first.sound hc)

/-- Without a new query an address stays free. -/
theorem Steps.not_hasQuery (h : Steps may c acts d) (hc : c.Sound) (hn : ¬ may.accept) {did : Did}
    (free : ¬ c.HasQuery did) : ¬ d.HasQuery did := by
  induction h with
  | refl => exact free
  | cons first _ ih =>
    have heffect := first.effect hc
    rw [heffect.issues_eq_nil hn] at heffect
    exact ih (first.sound hc) (heffect.not_hasQuery hc free)

theorem Steps.continues (h : Steps may c acts d) (hc : c.Sound) (hn : ¬ may.accept) :
    c.Continues d := by
  induction h with
  | refl => exact continues_of_sweep rfl
  | cons first _ ih => exact ((first.effect hc).continues hn).trans (ih (first.sound hc))

theorem Steps.relaysOf_eq_nil (h : Steps may c acts d) (hc : c.Sound) (hn : ¬ may.accept)
    (resting : c.sweep = none) : relaysOf acts = [] := by
  induction h with
  | refl => rfl
  | cons first _ ih =>
    have hm := ((first.effect hc).continues hn).sweep_eq_none resting
    rw [relaysOf_append, first.relaysOf_eq_nil hc (Or.inl resting), ih (first.sound hc) hm,
      List.nil_append]

/-- A sweep is started by one request only, and while none runs. -/
theorem serve_continues (hc : c.Sound) (r : Request π)
    (h : c.isSweeping = true ∨ ∀ p plan goOn, r ≠ .startSweep p plan goOn) :
    c.Continues (c.serve r).1 := by
  have hsteps := serve_steps c r
  cases r with
  | query p did frame timeout tag => exact continues_of_sweep (sweep_query ..)
  | startSweep p plan goOn =>
    have hs := h.resolve_right fun hn => hn p plan goOn rfl
    refine continues_of_sweep ?_
    simp [serve, startSweep, hs]
  | cancel => exact hsteps.continues hc id
  | cancelAll => exact hsteps.continues hc id
  | receive => exact hsteps.continues hc id
  | poll => exact hsteps.continues hc id
  | stopSweep => exact hsteps.continues hc id

theorem run_sweepingAfter (hc : c.Sound) (rs : List (Request π)) :
    sweepingAfter c.isSweeping (c.run rs).2 = some (c.run rs).1.isSweeping := by
  induction rs generalizing c with
  | nil => rfl
  | cons r rest ih =>
    rw [run_cons, sweepingAfter_append, (serve_steps c r).sweepingAfter hc]
    exact ih (hc.serve r)

end Controller

end Fieldbus
