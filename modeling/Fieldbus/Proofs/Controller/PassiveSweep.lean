import Fieldbus.Proofs.Controller.Noninterference
import Fieldbus.Proofs.Controller.Search

namespace Fieldbus

namespace DidSet

def ofList (dids : List Did) : DidSet := dids.foldl insert .empty

@[simp] theorem ofList_nil : ofList [] = .empty := rfl

theorem ofList_concat (dids : List Did) (d : Did) :
    ofList (dids ++ [d]) = (ofList dids).insert d := by
  rw [ofList, List.foldl_append]
  rfl

theorem contains_ofList (dids : List Did) (d : Did) :
    (ofList dids).contains d = decide (d ∈ dids) := by
  induction dids using List.reverseRecOn with
  | nil => simp
  | append_singleton dids e ih => simp [ofList_concat, ih, eq_comm]

end DidSet

namespace SweepPlan

/-- A search that watches, after these calls and this time. -/
def watching (plan : SweepPlan) (goOn : List (Did × Frame) → Bool) (elapsed : Nat)
    (calls : List (Did × Frame)) : Sweep where
  plan := plan
  goOn := goOn
  handle := none
  remaining := plan.timeout.span?.map (· - elapsed)
  seen := .ofList (calls.map Prod.fst)
  relayed := calls.reverse

/-- A received frame is a sign of a device that is searched for. -/
def Spots (plan : SweepPlan) (frame : Option Frame) (f : Frame) : Prop :=
  frame = some f ∧ f.id.isResponse = true ∧ plan.Wants f

/-- A device gave a sign in one of the frames that were received. -/
def Spotted (plan : SweepPlan) (passed : List (Nat × Option Frame)) (did : Did) : Prop :=
  ∃ r ∈ passed, ∃ f, plan.Spots r.2 f ∧ f.did = did

theorem spotted_concat {plan : SweepPlan} {passed : List (Nat × Option Frame)}
    {r : Nat × Option Frame} {did : Did} :
    plan.Spotted (passed ++ [r]) did ↔
      plan.Spotted passed did ∨ ∃ f, plan.Spots r.2 f ∧ f.did = did := by
  simp only [Spotted, List.mem_append, List.mem_singleton, or_and_right, exists_or,
    exists_eq_left]

end SweepPlan

/-- Whether a search is still on when so much time passed: it takes the first frame in any case. -/
def InTime (timeout : Timeout) (times : List Nat) : Prop :=
  times = [] ∨ ∀ ms, timeout.span? = some ms → times.sum < ms

theorem inTime_concat {timeout : Timeout} {times : List Nat} {elapsed : Nat} :
    InTime timeout (times ++ [elapsed]) ↔
      ∀ ms, timeout.span? = some ms → times.sum + elapsed < ms := by
  simp [InTime]

theorem InTime.of_concat {timeout : Timeout} {times : List Nat} {elapsed : Nat}
    (h : InTime timeout (times ++ [elapsed])) : InTime timeout times := by
  refine Or.inr fun ms hms => ?_
  have hlt := inTime_concat.mp h ms hms
  omega

namespace Controller

variable {σ π : Type} {N : Nat} {c : Controller σ N} {plan : SweepPlan}
  {goOn : List (Did × Frame) → Bool} {elapsed : Nat} {calls : List (Did × Frame)}

/-- No query holds up a sweep that watches. -/
theorem unswept_of_watching (hs : c.sweep = some (plan.watching goOn elapsed calls)) :
    c.Unswept := by
  refine unswept_of_handle fun s h => ?_
  cases Option.some.inj (hs.symm.trans h)
  rfl

theorem unswept_of_none (hs : c.sweep = none) : c.Unswept := by
  refine unswept_of_handle fun s h => ?_
  simp [hs] at h

section Engine

variable [Listener σ]

/-- Queries leave the sweep alone that waits for none of them. -/
theorem sweep_match? (h : c.Unswept) (f : Frame) :
    (c.match? f).1.sweep = c.sweep ∧ relaysOf (c.match? f).2 = [] := by
  unfold match?
  split
  next => exact ⟨rfl, rfl⟩
  next =>
    split
    next i q _ =>
      split
      next => exact ⟨rfl, rfl⟩
      next =>
        have hcase := spreading c i q f
        generalize c.spread i q f = out at hcase ⊢
        cases hcase with
        | kept => exact ⟨rfl, rfl⟩
        | halted => exact ⟨rfl, rfl⟩
        | unwanted s own => exact absurd ((h _).symm.trans own) Bool.false_ne_true
        | relayed s own => exact absurd ((h _).symm.trans own) Bool.false_ne_true
        | stopped s own => exact absurd ((h _).symm.trans own) Bool.false_ne_true
    next => exact ⟨rfl, rfl⟩

theorem sweep_expire (h : c.Unswept) (i : Fin N) : (c.expire i).1.sweep = c.sweep := by
  cases hq : c.pool.query? i with
  | none => simp [expire, hq]
  | some q =>
    rw [expire_told hq (h _)]
    rfl

theorem sweep_expireDue (h : c.Unswept) (slots : List (Fin N)) :
    (c.expireDue slots).1.sweep = c.sweep := by
  induction slots generalizing c with
  | nil => rfl
  | cons i rest ih =>
    have hsweep := sweep_expire h i
    unfold expireDue
    split
    next => exact (ih (unswept_of_sweep hsweep h)).trans hsweep
    next => rfl

theorem sweep_advance (h : c.Unswept) (elapsed : Nat) :
    (c.advance elapsed).1.sweep = (c.advanceSweep elapsed).1.sweep := by
  have hwaned : (c.advanceSweep elapsed).1.Unswept :=
    unswept_of_continues (continues_advanceSweep c elapsed) h
  have haged : (c.aged elapsed).Unswept := unswept_of_sweep rfl hwaned
  exact sweep_expireDue haged _

theorem sweep_respond (h : c.Unswept) {f : Frame} (response : f.id.isResponse = true) :
    (c.respond (some f)).1.sweep = (c.observe f).1.sweep ∧
      relaysOf (c.respond (some f)).2 = relaysOf (c.observe f).2 := by
  have hseen : (c.observe f).1.Unswept := unswept_of_continues (continues_observe c f) h
  obtain ⟨hsweep, hrelays⟩ := sweep_match? hseen f
  simp only [respond, response, if_true, handleResponse]
  exact ⟨hsweep, by rw [relaysOf_append, hrelays, List.append_nil]⟩

end Engine

section Watching

/-- Time wears a sweep down, and ends it when none is left. -/
theorem sweep_advanceSweep_watching (hs : c.sweep = some (plan.watching goOn elapsed calls))
    (more : Nat) :
    ((∀ ms, plan.timeout.span? = some ms → elapsed + more < ms) →
      (c.advanceSweep more).1.sweep = some (plan.watching goOn (elapsed + more) calls)) ∧
    (¬ (∀ ms, plan.timeout.span? = some ms → elapsed + more < ms) →
      (c.advanceSweep more).1.sweep = none) := by
  cases ht : plan.timeout.span? with
  | none => simp [advanceSweep, hs, SweepPlan.watching, ht]
  | some ms =>
    by_cases hlt : elapsed + more < ms
    · have hnot : ¬ ms - elapsed ≤ more := by omega
      simp [advanceSweep, hs, SweepPlan.watching, ht, hlt, hnot, Nat.sub_sub]
    · have hle : ms - elapsed ≤ more := by omega
      simp [advanceSweep, hs, SweepPlan.watching, ht, hlt, hle, endSweep]

/-- A controller watches for devices, after these calls and this time. -/
structure Watching (c : Controller σ N) (plan : SweepPlan) (goOn : List (Did × Frame) → Bool)
    (elapsed : Nat) (calls : List (Did × Frame)) : Prop where
  sweep : c.sweep = some (plan.watching goOn elapsed calls)
  passive : plan.mode = .passive
  watchable : ∀ key, plan.target ≠ .key key

theorem Watching.notices_iff (h : c.Watching plan goOn elapsed calls) {f : Frame} :
    (plan.watching goOn elapsed calls).notices f = true ↔
      plan.Wants f ∧ f.did ∉ calls.map Prod.fst := by
  have hn := Sweep.notices_iff (s := plan.watching goOn elapsed calls) (f := f) h.passive
    h.watchable
  rwa [SweepPlan.watching, DidSet.contains_ofList, decide_eq_false_iff_not] at hn

/-- The sign of a new device is relayed, and ends the search if it was the last one wanted. -/
theorem Watching.observe_first (h : c.Watching plan goOn elapsed calls) {f : Frame}
    (wanted : plan.Wants f) (first : f.did ∉ calls.map Prod.fst) :
    relaysOf (c.observe f).2 = [(f.did, f)] ∧
      (goOn ((f.did, f) :: calls.reverse) = true →
        (c.observe f).1.sweep = some (plan.watching goOn elapsed (calls ++ [(f.did, f)]))) ∧
      (goOn ((f.did, f) :: calls.reverse) = false → (c.observe f).1.sweep = none) := by
  have hn := h.notices_iff.mpr ⟨wanted, first⟩
  rcases observe_cases c f with he | ⟨s, hs, _, ⟨hg, he⟩ | ⟨hg, he⟩⟩
  · simp [observe, h.sweep, hn] at he
  · cases Option.some.inj (h.sweep.symm.trans hs)
    have hgo : goOn ((f.did, f) :: calls.reverse) = true := hg
    rw [he]
    refine ⟨rfl, fun _ => ?_, fun hf => absurd (hf.symm.trans hgo) Bool.false_ne_true⟩
    simp [SweepPlan.watching, Sweep.mark, Sweep.relay, DidSet.ofList_concat]
  · cases Option.some.inj (h.sweep.symm.trans hs)
    have hgo : goOn ((f.did, f) :: calls.reverse) = false := hg
    rw [he]
    exact ⟨rfl, fun hf => absurd (hgo.symm.trans hf) Bool.false_ne_true, fun _ => rfl⟩

theorem Watching.observe_other (h : c.Watching plan goOn elapsed calls) {f : Frame}
    (other : ¬ (plan.Wants f ∧ f.did ∉ calls.map Prod.fst)) : c.observe f = (c, []) := by
  have hn := Bool.eq_false_of_not_eq_true fun hn => other (h.notices_iff.mp hn)
  simp [observe, h.sweep, hn]

end Watching

variable [Listener σ]

section Receive

variable {frame : Option Frame} {f : Frame}

theorem Watching.respond_first (h : c.Watching plan goOn elapsed calls)
    (spots : plan.Spots frame f) (first : f.did ∉ calls.map Prod.fst) :
    relaysOf (c.respond frame).2 = [(f.did, f)] ∧
      (goOn ((f.did, f) :: calls.reverse) = true →
        (c.respond frame).1.sweep = some (plan.watching goOn elapsed (calls ++ [(f.did, f)]))) ∧
      (goOn ((f.did, f) :: calls.reverse) = false → (c.respond frame).1.sweep = none) := by
  obtain ⟨rfl, response, wanted⟩ := spots
  obtain ⟨hsweep, hrelays⟩ := sweep_respond (unswept_of_watching h.sweep) response
  rw [hsweep, hrelays]
  exact h.observe_first wanted first

theorem Watching.respond_other (h : c.Watching plan goOn elapsed calls)
    (other : ∀ f, plan.Spots frame f → f.did ∈ calls.map Prod.fst) :
    relaysOf (c.respond frame).2 = [] ∧ (c.respond frame).1.sweep = c.sweep := by
  cases frame with
  | none => exact ⟨rfl, rfl⟩
  | some f =>
    by_cases response : f.id.isResponse = true
    · obtain ⟨hsweep, hrelays⟩ := sweep_respond (unswept_of_watching h.sweep) response
      have hother := h.observe_other (f := f)
        fun hf => hf.2 (other f ⟨rfl, response, hf.1⟩)
      rw [hsweep, hrelays, hother]
      exact ⟨rfl, rfl⟩
    · simp only [respond, response]
      exact ⟨rfl, rfl⟩

/-- A frame goes to the search before time passes: the search is over or has relayed one more. -/
theorem Watching.respond (h : c.Watching plan goOn elapsed calls) (goesOn : GoesOn goOn calls)
    (frame : Option Frame) :
    let more := relaysOf (c.respond frame).2
    (GoesOn goOn (calls ++ more) →
      (c.respond frame).1.Watching plan goOn elapsed (calls ++ more)) ∧
    (¬ GoesOn goOn (calls ++ more) → (c.respond frame).1.sweep = none) ∧
    ∀ did, did ∈ (calls ++ more).map Prod.fst ↔
      did ∈ calls.map Prod.fst ∨ ∃ f, plan.Spots frame f ∧ f.did = did := by
  intro more
  by_cases hf : ∃ f, plan.Spots frame f ∧ f.did ∉ calls.map Prod.fst
  · obtain ⟨f, spots, first⟩ := hf
    obtain ⟨hmore, hon, hoff⟩ := h.respond_first spots first
    have hgo : GoesOn goOn (calls ++ more) ↔ goOn ((f.did, f) :: calls.reverse) = true := by
      rw [show more = [(f.did, f)] from hmore, goesOn_concat]
      simp [goesOn]
    rw [hgo, show more = [(f.did, f)] from hmore]
    refine ⟨fun hg => ⟨hon hg, h.passive, h.watchable⟩, fun hg => hoff (by simpa using hg),
      fun did => ?_⟩
    rw [List.map_append, List.mem_append]
    refine or_congr_right ⟨fun hm => ⟨f, spots, (List.mem_singleton.mp hm).symm⟩, ?_⟩
    rintro ⟨g, ⟨hg, _⟩, rfl⟩
    cases Option.some.inj (spots.1.symm.trans hg)
    exact List.mem_singleton_self _
  · have hknown : ∀ f, plan.Spots frame f → f.did ∈ calls.map Prod.fst := fun f spots => by
      by_contra hm
      exact hf ⟨f, spots, hm⟩
    obtain ⟨hmore, hsweep⟩ := h.respond_other hknown
    rw [show more = [] from hmore, List.append_nil]
    refine ⟨fun _ => ⟨hsweep.trans h.sweep, h.passive, h.watchable⟩, fun hn => absurd goesOn hn,
      fun did => ⟨Or.inl, ?_⟩⟩
    rintro (hm | ⟨f, spots, rfl⟩)
    · exact hm
    · exact hknown f spots

theorem Watching.advance (h : c.Watching plan goOn elapsed calls) (more : Nat) :
    ((∀ ms, plan.timeout.span? = some ms → elapsed + more < ms) →
      (c.advance more).1.Watching plan goOn (elapsed + more) calls) ∧
    (¬ (∀ ms, plan.timeout.span? = some ms → elapsed + more < ms) →
      (c.advance more).1.sweep = none) := by
  obtain ⟨hon, hoff⟩ := sweep_advanceSweep_watching h.sweep more
  have hsweep := sweep_advance (unswept_of_watching h.sweep) more
  exact ⟨fun ht => ⟨hsweep.trans (hon ht), h.passive, h.watchable⟩,
    fun ht => hsweep.trans (hoff ht)⟩

theorem advance_unwatched (hs : c.sweep = none) (elapsed : Nat) :
    (c.advance elapsed).1.sweep = none := by
  rw [sweep_advance (unswept_of_none hs)]
  simp [advanceSweep, hs]

theorem receive_unwatched (hs : c.sweep = none) (elapsed : Nat) (frame : Option Frame) :
    (c.receive elapsed frame).1.sweep = none ∧ relaysOf (c.receive elapsed frame).2 = [] := by
  have hrespond : (c.respond frame).1.sweep = none ∧ relaysOf (c.respond frame).2 = [] := by
    cases frame with
    | none => exact ⟨hs, rfl⟩
    | some f =>
      by_cases response : f.id.isResponse = true
      · obtain ⟨hsweep, hrelays⟩ := sweep_respond (unswept_of_none hs) response
        rw [hsweep, hrelays]
        simp [observe, hs, relaysOf]
      · simp only [respond, response]
        exact ⟨hs, rfl⟩
  rw [relaysOf_receive]
  exact ⟨advance_unwatched hrespond.1 elapsed, hrespond.2⟩

end Receive

end Controller

namespace SweepPlan

/-- The search is not over: every answer was to go on, and there is time left. -/
def StillOn (plan : SweepPlan) (goOn : List (Did × Frame) → Bool)
    (passed : List (Nat × Option Frame)) (calls : List (Did × Frame)) : Prop :=
  GoesOn goOn calls ∧ InTime plan.timeout (passed.map Prod.fst)

end SweepPlan

namespace Controller

variable {σ π : Type} {N : Nat} {c : Controller σ N} {plan : SweepPlan}
  {goOn : List (Did × Frame) → Bool} {calls : List (Did × Frame)}
  {passed : List (Nat × Option Frame)} {out : Controller σ N × List ControllerAct}

/-- What a search that watches has come to when these frames were received. -/
structure Watched (plan : SweepPlan) (goOn : List (Did × Frame) → Bool)
    (passed : List (Nat × Option Frame)) (out : Controller σ N × List ControllerAct) : Prop where
  on : plan.StillOn goOn passed (relaysOf out.2) →
    out.1.Watching plan goOn (passed.map Prod.fst).sum (relaysOf out.2) ∧
      ∀ did, did ∈ (relaysOf out.2).map Prod.fst ↔ plan.Spotted passed did
  off : ¬ plan.StillOn goOn passed (relaysOf out.2) → out.1.sweep = none

section Start

variable [Platform π] {p : π}

/-- Only a sweep in progress, a query that is not followed and a key keep a search from watching. -/
theorem startSweep_eq_ok_iff (passive : plan.mode = .passive) :
    (c.startSweep p plan goOn).result = .ok () ↔
      c.isSweeping = false ∧ plan.timeout ≠ .untracked ∧ ∀ key, plan.target ≠ .key key := by
  unfold startSweep
  split
  next hs => simp [hs]
  next hs =>
    split
    next ht => simp [ht]
    next ht =>
      simp only [passive]
      split
      next key hkey => simp [hkey]
      next hkey => simpa [hs, ht] using hkey

/-- A search starts to watch before any frame is received. -/
theorem watched_startSweep (passive : plan.mode = .passive)
    (started : (c.startSweep p plan goOn).result = .ok ()) :
    Watched plan goOn [] ((c.startSweep p plan goOn).controller, []) := by
  obtain ⟨_, _, watchable⟩ := (startSweep_eq_ok_iff passive).mp started
  have hwatch : (c.startSweep p plan goOn).controller.Watching plan goOn 0 [] := by
    rcases startSweep_cases c p plan goOn with
      ⟨_, _, _, _, _, _, hm, _⟩ | ⟨_, _, _, hout, _⟩ | ⟨_, _, hr⟩
    · simp [passive] at hm
    · exact ⟨by simp [hout, SweepPlan.watching], passive, watchable⟩
    · exact absurd started hr
  exact ⟨fun _ => ⟨hwatch, by simp [SweepPlan.Spotted, relaysOf]⟩,
    fun past => absurd ⟨goesOn_nil goOn, Or.inl rfl⟩ past⟩

end Start

variable [Listener σ]

/-- Exactly the first sign of a device is relayed, as long as the search is on. -/
theorem Watched.relays (h : Watched plan goOn passed out) (elapsed : Nat) (frame : Option Frame) :
    (∀ r, r ∈ relaysOf (out.1.receive elapsed frame).2 ↔
      r.1 = r.2.did ∧ plan.Spots frame r.2 ∧ ¬ plan.Spotted passed r.1 ∧
        plan.StillOn goOn passed (relaysOf out.2)) ∧
      (relaysOf (out.1.receive elapsed frame).2).length ≤ 1 := by
  by_cases on : plan.StillOn goOn passed (relaysOf out.2)
  case neg =>
    rw [(receive_unwatched (h.off on) elapsed frame).2]
    simp [on]
  obtain ⟨hw, hseen⟩ := h.on on
  rw [relaysOf_receive]
  by_cases hf : ∃ f, plan.Spots frame f ∧ ¬ plan.Spotted passed f.did
  · obtain ⟨f, spots, first⟩ := hf
    rw [(hw.respond_first spots fun hm => first ((hseen _).mp hm)).1]
    refine ⟨fun r => ?_, Nat.le_refl 1⟩
    rw [List.mem_singleton]
    constructor
    · rintro rfl
      exact ⟨rfl, spots, first, on⟩
    · rintro ⟨hd, ⟨hr, _⟩, _⟩
      obtain rfl : f = r.2 := Option.some.inj (spots.1.symm.trans hr)
      exact Prod.ext hd rfl
  · have hknown : ∀ f, plan.Spots frame f → f.did ∈ (relaysOf out.2).map Prod.fst := by
      intro f spots
      by_contra hm
      exact hf ⟨f, spots, fun hp => hm ((hseen _).mpr hp)⟩
    rw [(hw.respond_other hknown).1]
    refine ⟨fun r => iff_of_false (by simp) ?_, Nat.zero_le 1⟩
    rintro ⟨hd, spots, first, _⟩
    exact hf ⟨r.2, spots, hd ▸ first⟩

/-- One more frame is received. -/
theorem Watched.receive (h : Watched plan goOn passed out) (elapsed : Nat) (frame : Option Frame) :
    Watched plan goOn (passed ++ [(elapsed, frame)])
      ((out.1.receive elapsed frame).1, out.2 ++ (out.1.receive elapsed frame).2) := by
  have htimes : (passed ++ [(elapsed, frame)]).map Prod.fst = passed.map Prod.fst ++ [elapsed] := by
    simp
  by_cases on : plan.StillOn goOn passed (relaysOf out.2)
  case neg =>
    obtain ⟨hsweep, hrelays⟩ := receive_unwatched (h.off on) elapsed frame
    have hover : ¬ plan.StillOn goOn (passed ++ [(elapsed, frame)]) (relaysOf out.2) := by
      rintro ⟨hg, ht⟩
      rw [htimes] at ht
      exact on ⟨hg, ht.of_concat⟩
    refine ⟨fun hon => absurd ?_ hover, fun _ => hsweep⟩
    rwa [relaysOf_append, hrelays, List.append_nil] at hon
  obtain ⟨hw, hseen⟩ := h.on on
  obtain ⟨hon, hoff, hmore⟩ := hw.respond on.1 frame
  constructor
  · rintro ⟨hg, ht⟩
    rw [htimes] at ht ⊢
    rw [relaysOf_append, relaysOf_receive] at hg ⊢
    refine ⟨?_, fun did => ?_⟩
    · rw [List.sum_append, List.sum_singleton]
      exact ((hon hg).advance elapsed).1 (inTime_concat.mp ht)
    · rw [hmore, hseen, SweepPlan.spotted_concat]
  · intro past
    rw [relaysOf_append, relaysOf_receive] at past
    by_cases hg : GoesOn goOn (relaysOf out.2 ++ relaysOf (out.1.respond frame).2)
    · refine ((hon hg).advance elapsed).2 fun ht => past ⟨hg, ?_⟩
      rw [htimes]
      exact inTime_concat.mpr ht
    · exact advance_unwatched (hoff hg) elapsed

variable [Platform π]

theorem Watched.run (h : Watched plan goOn [] out) (passed : List (Nat × Option Frame)) :
    Watched plan goOn passed
      ((out.1.run (passed.map fun r => (.receive r.1 r.2 : Request π))).1,
        out.2 ++ (out.1.run (passed.map fun r => (.receive r.1 r.2 : Request π))).2) := by
  induction passed using List.reverseRecOn with
  | nil => simpa [Controller.run] using h
  | append_singleton passed r ih =>
    have hnext := ih.receive r.1 r.2
    rw [List.append_assoc] at hnext
    rw [List.map_append, List.map_singleton, run_append, run_singleton]
    exact hnext

/-- A search that watches starts unless something stands against it. Of the frames that are received
one after the other it relays exactly the first sign of each device, up to the first answer not to
go on and as long as there is time left; in the call where one of these fails it ends. -/
theorem passive_sweep_relays_first_signs (l : σ) (before : List (Request π)) (p : π)
    (plan : SweepPlan) (goOn : List (Did × Frame) → Bool) (passed : List (Nat × Option Frame)) :
    let c : Controller σ N := ((new l).run before).1
    let start := c.startSweep p plan goOn
    let out := start.controller.run (passed.map fun r => (.receive r.1 r.2 : Request π))
    let calls := relaysOf out.2
    plan.mode = .passive →
      (start.result = .ok () ↔ c.isSweeping = false ∧ plan.timeout ≠ .untracked ∧
        ∀ key, plan.target ≠ .key key) ∧
      (start.result = .ok () →
        (out.1.isSweeping = true ↔ plan.StillOn goOn passed calls) ∧
        ∀ elapsed frame, let more := relaysOf (out.1.receive elapsed frame).2
          (∀ r, r ∈ more ↔ r.1 = r.2.did ∧ plan.Spots frame r.2 ∧ ¬ plan.Spotted passed r.1 ∧
            plan.StillOn goOn passed calls) ∧ more.length ≤ 1) := by
  intro c start out calls passive
  refine ⟨startSweep_eq_ok_iff passive, fun started => ?_⟩
  have hw : Watched plan goOn passed out := (watched_startSweep passive started).run passed
  refine ⟨⟨fun running => ?_, fun on => ?_⟩, fun elapsed frame => hw.relays elapsed frame⟩
  · by_contra past
    simp [isSweeping, hw.off past] at running
  · simp [isSweeping, (hw.on on).1.sweep]

/-- With one millisecond left the second device is still relayed, and the first one no more. -/
theorem passive_sweep_relays_first_signs_second :
    let plan : SweepPlan := ⟨.passive, .telemetry .app, false, .millis 10⟩
    let goOn : List (Did × Frame) → Bool := fun calls => calls.length < 2
    let passed := [(3, some (Silence.sign 1)), (6, some (Silence.sign 1))]
    let c : Controller Silence 1 := ((new .silence).run [Silence.ask]).1
    let start := c.startSweep Silence.silence plan goOn
    let out := start.controller.run
      (passed.map fun r => (.receive r.1 r.2 : Request Silence))
    plan.mode = .passive ∧ start.result = .ok () ∧ out.1.isSweeping = true ∧
      (Did.ofRaw 2, Silence.sign 2) ∈ relaysOf (out.1.receive 1 (some (Silence.sign 2))).2 ∧
      (Did.ofRaw 1, Silence.sign 1) ∉ relaysOf (out.1.receive 1 (some (Silence.sign 1))).2 := by
  intro plan goOn passed c start out
  have started : start.result = .ok () := rfl
  have running : out.1.isSweeping = true := by decide
  obtain ⟨_, hstart⟩ := passive_sweep_relays_first_signs (N := 1) Silence.silence [Silence.ask]
    Silence.silence plan goOn passed rfl
  obtain ⟨hon, hrelays⟩ := hstart started
  have on := hon.mp running
  refine ⟨rfl, started, running, ?_, ?_⟩
  · refine ((hrelays 1 (some (Silence.sign 2))).1 _).mpr ⟨rfl, ⟨rfl, rfl, by decide⟩, ?_, on⟩
    rintro ⟨r, hr, f, ⟨hf, _⟩, hd⟩
    have hsame : ∀ r ∈ passed, r.2 = some (Silence.sign 1) := by simp [passed]
    cases Option.some.inj ((hsame r hr).symm.trans hf)
    exact absurd hd (by decide)
  · intro hm
    obtain ⟨_, _, known, _⟩ := ((hrelays 1 (some (Silence.sign 1))).1 _).mp hm
    exact known ⟨(3, some (Silence.sign 1)), List.mem_cons_self,
      Silence.sign 1, ⟨rfl, rfl, by decide⟩, rfl⟩

end Controller

end Fieldbus
