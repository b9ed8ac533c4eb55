import Fieldbus.Proofs.Controller.Agenda
import Fieldbus.Proofs.Controller.Lifecycle
import Fieldbus.Proofs.Device.Response

namespace Fieldbus

instance : Application Silence where
  capabilities _ := {}

/-- A device that answers every command and every telemetry query by an error. -/
def Silence.device : Device Silence :=
  .build (.ofName (.ofRaw 1) 1 "" 0) {} .silence

/-- The same query as before, with devices added that were heard to answer it. -/
structure PendingQuery.Stems (q origin : PendingQuery) (heard : Frame → Prop) : Prop where
  same : q = { origin with notified := q.notified }
  noted : ∀ d, q.notified.contains d = true →
    ∃ f, heard f ∧ f.did = d ∧ origin.isAnsweredBy f = true

namespace Controller

variable {σ π α : Type} {N : Nat} {c d : Controller σ N} {i : Fin N} {q origin : PendingQuery}
  {heard : Frame → Prop} {f : Frame}

/-- A query is pending that a response answers. -/
structure Awaits (c : Controller σ N) (a : Issue) (i : Fin N) (q : PendingQuery) (f : Frame) :
    Prop where
  found : c.pool.query? i = some q
  did : q.did = a.did
  owns : c.sweepOwns q.handle = a.swept
  answers : q.isAnsweredBy f = true
  report : ∀ terminated, responseEvent q f terminated = a.report f terminated

theorem Awaits.unicastFor? {a : Issue} (h : c.Awaits a i q f) (hk : c.pool.WellKept)
    (hd : a.did = f.did) (unicast : f.did ≠ .broadcast) : c.unicastFor? f = some (i, q) :=
  unicastFor?_of_query? hk h.found (h.did.trans hd) unicast h.answers

theorem Awaits.broadcastFor? {a : Issue} (h : c.Awaits a i q f) (hk : c.pool.WellKept)
    (hd : a.did = .broadcast) : c.broadcastFor? f = some (i, q) :=
  broadcastFor?_of_query? hk h.found (h.did.trans hd) h.answers

/-- A query that is still pending is answered by what carries what it asked for. -/
theorem Placed.awaits {a : Issue} {k : Correlation} {question answer : Frame}
    (placed : d.Placed acts question a i k) (hk : c.pool.WellKept)
    (found : c.pool.query? i = some q) (stems : q.Stems (.ask ⟨i⟩ question k a.tag) heard)
    (owns : c.sweepOwns ⟨i⟩ = d.sweepOwns ⟨i⟩) (accepts : k.accepts answer = true)
    (sender : a.did = answer.did ∨ a.did = .broadcast) : c.Awaits a i q answer := by
  have hdid : q.did = a.did := by
    rw [stems.same, ← placed.did]
    rfl
  have hcorrelation : q.correlation = k := by
    rw [stems.same]
    rfl
  have hhandle : q.handle = ⟨i⟩ := hk.handle i q found
  refine ⟨found, hdid, ?_, ?_, fun terminated => ?_⟩
  · rw [hhandle, owns, placed.owns]
  · rw [PendingQuery.isAnsweredBy, hdid, hcorrelation, accepts]
    rcases sender with hs | hs <;> simp [hs]
  · rw [responseEvent, Issue.report, hhandle, placed.slot, stems.same]
    rfl

variable [Listener σ] [Platform π] {may : Licence} {acts : List ControllerAct}

theorem Fate.stems {events : List Event} (h : Fate may c i q events d)
    (hears : ∀ g, may.hear g → heard g) (hs : q.Stems origin heard)
    (pending : d.pool.query? i ≠ none) :
    ∃ p, d.pool.query? i = some p ∧ p.Stems origin heard ∧ d.sweepOwns ⟨i⟩ = c.sweepOwns ⟨i⟩ := by
  cases h with
  | kept found owns => exact ⟨q, found, hs, owns⟩
  | noted f broadcast answer first hear goOn found owns =>
    refine ⟨_, found, ⟨?_, fun d hd => ?_⟩, owns⟩
    · rw [PendingQuery.note, hs.same]
    · rw [PendingQuery.note, DidSet.contains_insert, Bool.or_eq_true, decide_eq_true_iff] at hd
      rcases hd with hd | rfl
      · exact hs.noted d hd
      · rw [hs.same] at answer
        exact ⟨f, hears f hear, rfl, answer⟩
  | ended gone => exact absurd gone pending

theorem Steps.stems (h : Steps may c acts d) (hc : c.Sound) (hears : ∀ g, may.hear g → heard g)
    (unused : ⟨i⟩ ∉ (issuesOf acts).map Prod.fst) (pending : d.isPending ⟨i⟩ = true)
    (hq : c.pool.query? i = some q) (hs : q.Stems origin heard) :
    ∃ p, d.pool.query? i = some p ∧ p.Stems origin heard ∧ d.sweepOwns ⟨i⟩ = c.sweepOwns ⟨i⟩ := by
  induction h generalizing q with
  | refl => exact ⟨q, hq, hs, rfl⟩
  | cons first rest ih =>
    rw [notMem_issuesOf_append] at unused
    have hm := first.sound hc
    have hmid : _ ≠ none := fun hn =>
      Bool.false_ne_true ((rest.vacant hm ((isPending_eq_false_iff hm.kept).mpr hn)
        unused.2).1.symm.trans pending)
    obtain ⟨r, hr, hrs, howns⟩ := ((first.effect hc).fate hc.kept hq).stems hears hs hmid
    obtain ⟨p, hp, hps, howns'⟩ := ih hm unused.2 pending hr hrs
    exact ⟨p, hp, hps, howns'.trans howns⟩

/-- As long as a query is pending it stays the same but for the devices that answered it. -/
theorem run_stems (hc : c.Sound) (rs : List (Request π))
    (hears : ∀ g ∈ rs.flatMap Request.frames, g.id.isResponse = true → heard g)
    (unused : ⟨i⟩ ∉ (issuesOf (c.run rs).2).map Prod.fst)
    (pending : (c.run rs).1.isPending ⟨i⟩ = true)
    (hq : c.pool.query? i = some q) (hs : q.Stems origin heard) :
    ∃ p, (c.run rs).1.pool.query? i = some p ∧ p.Stems origin heard ∧
      (c.run rs).1.sweepOwns ⟨i⟩ = c.sweepOwns ⟨i⟩ := by
  induction rs generalizing c q with
  | nil => exact ⟨q, hq, hs, rfl⟩
  | cons r rest ih =>
    rw [run_cons] at pending ⊢
    rw [run_cons, notMem_issuesOf_append] at unused
    rw [List.flatMap_cons] at hears
    have hm := hc.serve r
    -- The query is pending at the end and its slot is not taken again, so it is pending here.
    have hmid : (c.serve r).1.isPending ⟨i⟩ = true := by
      by_contra hn
      have hgone := (run_vacant hm (Bool.eq_false_of_not_eq_true hn) rest unused.2).1
      exact Bool.false_ne_true (hgone.symm.trans pending)
    obtain ⟨p, hp, hps, howns⟩ := (serve_steps c r).stems hc
      (fun g hg => hears g (List.mem_append_left _ hg.1) hg.2) unused.1 hmid hq hs
    obtain ⟨p', hp', hps', howns'⟩ := ih hm
      (fun g hg => hears g (List.mem_append_right _ hg)) unused.2 pending hp hps
    exact ⟨p', hp', hps', howns'.trans howns⟩

section Receive

variable (c) (f) (elapsed : Nat)

theorem receive_response (hr : f.id.isResponse = true) :
    c.receive elapsed (some f) =
      ((((c.observe f).1.match? f).1.advance elapsed).1,
        (c.observe f).2 ++ ((c.observe f).1.match? f).2 ++
          (((c.observe f).1.match? f).1.advance elapsed).2) := by
  simp [receive, respond, hr, handleResponse]

theorem eventsOf_receive (hr : f.id.isResponse = true) :
    eventsOf (c.receive elapsed (some f)).2 = eventsOf ((c.observe f).1.match? f).2 ++
      eventsOf (((c.observe f).1.match? f).1.advance elapsed).2 := by
  rw [receive_response c f elapsed hr, eventsOf_append, eventsOf_append, eventsOf_observe,
    List.nil_append]

end Receive

theorem event_advance (hc : c.Sound) {elapsed : Nat} {e : Event}
    (he : e ∈ eventsOf (c.advance elapsed).2) : e.context = .query ∧ e.response = none := by
  rw [(advance_spec hc elapsed).2] at he
  obtain ⟨entry, _, ht⟩ := List.mem_filterMap.mp he
  unfold timeoutEvent? at ht
  split at ht
  next => simp at ht
  next =>
    obtain ⟨found, _, rfl⟩ := Option.map_eq_some_iff.mp ht
    exact ⟨rfl, rfl⟩

theorem Sound.match? (hc : c.Sound) (f : Frame) : (c.match? f).1.Sound :=
  have h : Steps .all c _ _ := match?_steps c f trivial
  h.sound hc

theorem Sound.observe (hc : c.Sound) (f : Frame) : (c.observe f).1.Sound :=
  have h : Steps .all c _ _ := (Step.observe f).steps
  h.sound hc

theorem match?_of_unicastFor? (found : c.unicastFor? f = some (i, q)) :
    c.match? f = c.conclude i q f := by
  simp [match?, found]

theorem match?_of_broadcastFor? (other : c.unicastFor? f = none)
    (found : c.broadcastFor? f = some (i, q)) :
    c.match? f =
      if q.notified.contains f.did then (c, [.duplicate f.did]) else c.spread i q f := by
  simp [match?, other, found]

theorem eventsOf_spread (c : Controller σ N) (i : Fin N) (q : PendingQuery) (f : Frame) :
    eventsOf (c.spread i q f).2 =
      if c.sweepOwns q.handle then [] else [responseEvent q f false] := by
  have hcase := spreading c i q f
  generalize c.spread i q f = out at hcase ⊢
  cases hcase with
  | kept own => simp [own, eventsOf]
  | halted own => simp [own, eventsOf]
  | unwanted s own => simp [own]
  | relayed s own => simp [own, eventsOf]
  | stopped s own => simp [own, eventsOf]

theorem relaysOf_spread {s : Sweep} (own : c.sweepOwns q.handle = true)
    (running : c.sweep = some s) :
    relaysOf (c.spread i q f).2 = if s.admits f then [(f.did, f)] else [] := by
  have hcase := spreading c i q f
  generalize c.spread i q f = out at hcase ⊢
  cases hcase with
  | kept own' => simp [own] at own'
  | halted own' => simp [own] at own'
  | unwanted s' _ sweep unwanted =>
    cases Option.some.inj (running.symm.trans sweep)
    simp [unwanted, relaysOf]
  | relayed s' _ sweep wanted =>
    cases Option.some.inj (running.symm.trans sweep)
    simp [wanted, relaysOf]
  | stopped s' _ sweep wanted =>
    cases Option.some.inj (running.symm.trans sweep)
    simp [wanted, relaysOf]

/-- A response to a query makes no orphan. -/
theorem receive_not_orphan (hc : c.Sound) (hr : f.id.isResponse = true) (elapsed : Nat)
    (answers : (c.unicastFor? f).isSome = true ∨ (c.broadcastFor? f).isSome = true) :
    ∀ e ∈ eventsOf (c.receive elapsed (some f)).2, e.context = .query := by
  have hpool := pool_observe c f
  rw [← unicastFor?_of_pool hpool, ← broadcastFor?_of_pool hpool] at answers
  intro e he
  rw [eventsOf_receive c f elapsed hr] at he
  rcases List.mem_append.mp he with he | he
  · cases hu : (c.observe f).1.unicastFor? f with
    | some found =>
      rw [match?_of_unicastFor? hu] at he
      rw [List.mem_singleton.mp he]
      rfl
    | none =>
      obtain ⟨⟨i, q⟩, hb⟩ := Option.isSome_iff_exists.mp (answers.resolve_left (by simp [hu]))
      rw [match?_of_broadcastFor? hu hb] at he
      split at he
      next => simp [eventsOf] at he
      next =>
        rw [eventsOf_spread] at he
        split at he
        next => simp at he
        next =>
          rw [List.mem_singleton.mp he]
          rfl
  · exact (event_advance ((hc.observe f).match? f) he).1

/-- A response to a query to its sender ends the query. -/
theorem receive_unicast (hc : c.Sound) (hr : f.id.isResponse = true) (elapsed : Nat)
    (found : c.unicastFor? f = some (i, q)) :
    eventsFor ⟨i⟩ (c.receive elapsed (some f)).2 = [responseEvent q f true] ∧
      (c.receive elapsed (some f)).1.isPending ⟨i⟩ = false := by
  rw [← unicastFor?_of_pool (pool_observe c f)] at found
  obtain ⟨_, hq, _⟩ := query?_of_unicastFor? found
  have ho := hc.observe f
  have hm := ho.match? f
  have hgone : ((c.observe f).1.match? f).1.isPending ⟨i⟩ = false := by
    rw [isPending_eq_false_iff hm.kept, match?_of_unicastFor? found]
    exact (Pool.query?_finish ..).trans (if_pos rfl)
  have hsteps : Steps .none _ _ _ :=
    advance_steps ((c.observe f).1.match? f).1 elapsed
  have hnone := hsteps.issuesOf_eq_nil hm id
  obtain ⟨hpending, hsilent⟩ := hsteps.vacant hm hgone (by simp [hnone])
  refine ⟨?_, ?_⟩
  · have hnow : eventsOf ((c.observe f).1.match? f).2 = [responseEvent q f true] := by
      rw [match?_of_unicastFor? found]
      rfl
    have hlater := eventsFor_eq_nil hsilent
    rw [eventsFor] at hlater
    rw [eventsFor, eventsOf_receive c f elapsed hr, List.filter_append, hlater, hnow]
    simp [responseEvent, ho.kept.handle i q hq]
  · rw [receive_response c f elapsed hr]
    exact hpending

/-- The first answer of a device to a broadcast query is reported, unless a sweep asked for it. -/
theorem receive_broadcast (hc : c.Sound) (hr : f.id.isResponse = true) (elapsed : Nat)
    (other : c.unicastFor? f = none) (found : c.broadcastFor? f = some (i, q))
    (first : q.notified.contains f.did = false) :
    (eventsOf (c.receive elapsed (some f)).2).filter (fun e => e.response = some f) =
      if c.sweepOwns q.handle then [] else [responseEvent q f false] := by
  rw [← unicastFor?_of_pool (pool_observe c f)] at other
  rw [← broadcastFor?_of_pool (pool_observe c f)] at found
  have hm := (hc.observe f).match? f
  have hlater : (eventsOf (((c.observe f).1.match? f).1.advance elapsed).2).filter
      (fun e => e.response = some f) = [] := by
    refine List.filter_eq_nil_iff.mpr fun e he => ?_
    simp [(event_advance hm he).2]
  rw [eventsOf_receive c f elapsed hr, List.filter_append, hlater, List.append_nil,
    match?_of_broadcastFor? other found, if_neg (by simp [first]), eventsOf_spread,
    sweepOwns_observe hc.sweep]
  split
  next => rfl
  next => simp [responseEvent]

theorem relaysOf_expire (c : Controller σ N) (i : Fin N) : relaysOf (c.expire i).2 = [] := by
  cases hq : c.pool.query? i with
  | none => simp [expire, hq, relaysOf]
  | some q =>
    have hcase := expiring hq
    generalize c.expire i = out at hcase ⊢
    cases hcase <;> rfl

theorem relaysOf_expireDue (c : Controller σ N) (slots : List (Fin N)) :
    relaysOf (c.expireDue slots).2 = [] := by
  induction slots generalizing c with
  | nil => rfl
  | cons i rest ih =>
    unfold expireDue
    split
    next =>
      change relaysOf ((c.expire i).2 ++ _) = []
      rw [relaysOf_append, relaysOf_expire, ih, List.nil_append]
    next => rfl

/-- No response is relayed while time passes. -/
theorem relaysOf_advance (c : Controller σ N) (elapsed : Nat) :
    relaysOf (c.advance elapsed).2 = [] := by
  change relaysOf ((c.advanceSweep elapsed).2 ++ _) = []
  rw [relaysOf_append, relaysOf_advanceSweep, relaysOf_expireDue, List.nil_append]

theorem relaysOf_receive (c : Controller σ N) (elapsed : Nat) (frame : Option Frame) :
    relaysOf (c.receive elapsed frame).2 = relaysOf (c.respond frame).2 := by
  change relaysOf ((c.respond frame).2 ++ ((c.respond frame).1.advance elapsed).2) = _
  rw [relaysOf_append, relaysOf_advance, List.append_nil]

/-- The first answer of a device to the query of a sweep is relayed if it is searched for. -/
theorem receive_swept (hc : c.Sound) (hr : f.id.isResponse = true) (elapsed : Nat)
    (other : c.unicastFor? f = none) (found : c.broadcastFor? f = some (i, q))
    (first : q.notified.contains f.did = false) (own : c.sweepOwns q.handle = true) :
    ∃ s, c.sweep = some s ∧ s.handle = some q.handle ∧
      relaysOf (c.receive elapsed (some f)).2 = if s.admits f then [(f.did, f)] else [] := by
  obtain ⟨s, hs, hh⟩ := sweepOwns_iff.mp own
  refine ⟨s, hs, hh, ?_⟩
  rw [receive_response c f elapsed hr, observe_of_sweepOwns hc.sweep own, List.nil_append,
    relaysOf_append, relaysOf_advance, List.append_nil, match?_of_broadcastFor? other found,
    if_neg (by simp [first]), relaysOf_spread own hs]

/-- What a device answers to a query is taken as an answer to that query while it is pending. -/
theorem device_response_correlates [Application α] (l : σ) (before : List (Request π))
    (r : Request π) (f : Frame) (a : Issue) (later : List (Request π)) (device : Device α)
    (answer : Frame) (elapsed : Nat) :
    let start : Controller σ N := ((new l).run before).1
    let asked := (start.serve r).1
    let c := (asked.run later).1
    let out := c.receive elapsed (some answer)
    start.Accepts r f a → a.handle ∉ (issuesOf (asked.run later).2).map Prod.fst →
    c.isPending a.handle = true → device.did ≠ .broadcast →
    (device.handle f).result = some answer →
      .send f ∈ (start.serve r).2 ∧ (a.did = device.did ∨ a.did = .broadcast) ∧
      (∀ e ∈ eventsOf out.2, e.context = .query) ∧
      (a.did = device.did →
        eventsFor a.handle out.2 = [a.report answer true] ∧ out.1.isPending a.handle = false) ∧
      (a.did = .broadcast →
        (∀ i q, c.pool.query? i = some q → q.did = device.did →
          q.correlation.accepts answer = false) →
        (∀ g ∈ later.flatMap Request.frames, g.id.isResponse = true → g.did = device.did →
          f.correlates g = false) →
        (eventsOf out.2).filter (fun e => e.response = some answer) =
            (if a.swept then [] else [a.report answer false]) ∧
          (a.swept = true → ∃ s, c.sweep = some s ∧ s.handle = some a.handle ∧
            relaysOf out.2 = if s.admits answer then [(device.did, answer)] else [])) ∧
      ∀ terminated, (a.report answer terminated).Tells f (device.outcome f) := by
  intro start asked c out accepted unused pending named handled
  have hstart : start.Sound := (sound_new l).run before
  have hasked : asked.Sound := hstart.serve r
  have hc : c.Sound := hasked.run later
  obtain ⟨i, k, placed⟩ := accepted.placed hstart
  obtain ⟨haccepts, hsender, hresponse, hdid⟩ := Device.accepts_of_handle placed.asks handled
  rw [placed.did, ← hsender] at hdid
  rw [← hsender] at named ⊢
  rw [placed.slot] at unused pending
  -- When the query was sent no device was noted yet.
  have horigin : (PendingQuery.ask ⟨i⟩ f k a.tag).Stems (.ask ⟨i⟩ f k a.tag)
      fun g => g ∈ later.flatMap Request.frames ∧ g.id.isResponse = true :=
    ⟨rfl, by simp [PendingQuery.ask]⟩
  obtain ⟨q, found, stems, owns⟩ := run_stems hasked later (fun g hg hr => ⟨hg, hr⟩) unused
    pending placed.found horigin
  have awaits : c.Awaits a i q answer :=
    placed.awaits hc.kept found stems owns haccepts hdid
  refine ⟨placed.sent, hdid, ?_, fun hd => ?_, fun hd other first => ?_,
    fun _ => Device.tells_of_handle placed.asks handled rfl rfl⟩
  · refine receive_not_orphan hc hresponse elapsed (hdid.imp (fun hd => ?_) fun hd => ?_)
    · rw [awaits.unicastFor? hc.kept hd named]
      rfl
    · rw [awaits.broadcastFor? hc.kept hd]
      rfl
  · rw [placed.slot, ← awaits.report]
    exact receive_unicast hc hresponse elapsed (awaits.unicastFor? hc.kept hd named)
  · have hother : c.unicastFor? answer = none := by
      refine Option.eq_none_iff_forall_ne_some.mpr fun e hu => ?_
      obtain ⟨_, hp, hpd, hpa⟩ := query?_of_unicastFor? hu
      simp [PendingQuery.isAnsweredBy, other _ _ hp hpd] at hpa
    have hfirst : q.notified.contains answer.did = false := by
      by_contra hn
      obtain ⟨g, ⟨hg, hr⟩, hgd, hga⟩ := stems.noted _ (Bool.eq_true_of_not_eq_false hn)
      have hnone := first g hg hr hgd
      simp only [Frame.correlates, placed.asks, Option.any_some] at hnone
      simp [PendingQuery.isAnsweredBy, PendingQuery.ask, hnone] at hga
    have hbroadcast := awaits.broadcastFor? hc.kept hd
    refine ⟨?_, fun hswept => ?_⟩
    · rw [← awaits.report, ← awaits.owns]
      exact receive_broadcast hc hresponse elapsed hother hbroadcast hfirst
    · rw [placed.slot, ← hc.kept.handle i q found]
      exact receive_swept hc hresponse elapsed hother hbroadcast hfirst
        (awaits.owns.trans hswept)

/-- A device without handlers answers by an error, which ends the query. -/
theorem device_response_correlates_failure :
    let start : Controller Silence 1 := ((new .silence).run (π := Silence) [.receive 1 none]).1
    let c := ((start.serve Silence.ask).1.run (π := Silence) [.receive 2 none]).1
    (Silence.device.handle Silence.question).result = some Silence.answer ∧
      c.isPending Silence.issue.handle = true ∧
      eventsFor Silence.issue.handle (c.receive 5 (some Silence.answer)).2 =
        [Silence.issue.report Silence.answer true] ∧
      (Silence.issue.report Silence.answer true).Tells Silence.question
        (Silence.device.outcome Silence.question) := by
  have accepted : ((new .silence : Controller Silence 1).run (π := Silence)
      [.receive 1 none]).1.Accepts Silence.ask Silence.question Silence.issue :=
    .query Silence.silence (.ofRaw 1) Silence.question .forever 7 ⟨0⟩ rfl
  have handled : (Silence.device.handle Silence.question).result = some Silence.answer := by decide
  obtain ⟨_, _, _, hends, _, htells⟩ := device_response_correlates (π := Silence) (N := 1)
    Silence.silence [.receive 1 none] Silence.ask Silence.question Silence.issue [.receive 2 none]
    Silence.device Silence.answer 5 accepted (by decide) (by decide) (by decide) handled
  exact ⟨handled, by decide, (hends rfl).1, htells true⟩

end Controller

end Fieldbus
