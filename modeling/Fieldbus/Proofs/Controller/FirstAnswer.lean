import Fieldbus.Proofs.Controller.ActiveSweep

namespace Fieldbus

namespace Search

/-- Whether a frame is an answer of a device to the question of a search. -/
def hears (x : Search) (did : Did) (f : Frame) : Bool :=
  f.id.isResponse && f.did = did && x.question.correlates f

/-- The call for a device that sent these frames: for its first answer, if that is a sign of what
the search looks for, and else for none of its answers. -/
def callFor (x : Search) (did : Did) (frames : List Frame) : List (Did × Frame) :=
  match frames.find? (x.hears did) with
  | some f => if x.plan.Wants f then [(did, f)] else []
  | none => []

/-- The call for the first answer of a device that is a sign, whatever it sent before. -/
def signFor (x : Search) (did : Did) (frames : List Frame) : List (Did × Frame) :=
  match frames.find? fun f => x.hears did f && x.plan.Wants f with
  | some f => [(did, f)]
  | none => []

/-- A search has taken the answers of a device among these frames. -/
structure Tracks (x : Search) (did : Did) (frames : List Frame) (query : Option PendingQuery)
    (calls : List (Did × Frame)) : Prop where
  noted : ∀ q, query = some q → q.notified.contains did = frames.any (x.hears did)
  told : (calls.filter fun r => r.1 = did) = x.callFor did frames

variable {x : Search} {did : Did} {frames : List Frame} {f : Frame} {q : PendingQuery}
  {query next : Option PendingQuery} {calls more : List (Did × Frame)}

theorem hears_iff : x.hears did f = true ↔
    f.id.isResponse = true ∧ f.did = did ∧ x.question.correlates f = true := by
  simp [hears, and_assoc]

theorem callFor_concat :
    x.callFor did (frames ++ [f]) = x.callFor did frames ++
      if frames.any (x.hears did) = false ∧ x.hears did f = true ∧ x.plan.Wants f then [(did, f)]
      else [] := by
  rw [callFor, callFor, List.find?_append]
  cases hg : frames.find? (x.hears did) with
  | some g =>
    have hany : frames.any (x.hears did) = true :=
      List.any_eq_true.mpr ⟨g, List.mem_of_find?_eq_some hg, List.find?_some hg⟩
    simp [hany]
  | none =>
    have hany : frames.any (x.hears did) = false := by
      simpa using hg
    cases hf : x.hears did f <;> simp [hany, hf]

/-- A device whose first answer is a sign is found by it. -/
theorem signFor_eq_of_find? (first : frames.find? (x.hears did) = some f) (wanted : x.plan.Wants f) :
    x.signFor did frames = [(did, f)] := by
  obtain ⟨hears, passed, rest, rfl, silent⟩ := List.find?_eq_some_iff_append.mp first
  have hpassed : (passed.find? fun g => x.hears did g && x.plan.Wants g) = none := by
    refine List.find?_eq_none.mpr fun g hg => ?_
    have hsilent := silent g hg
    simp_all
  rw [signFor, List.find?_append, hpassed, Option.none_or,
    List.find?_cons_of_pos (by simp [hears, wanted])]

theorem signFor_ne_nil_iff :
    x.signFor did frames ≠ [] ↔ ∃ f ∈ frames, x.hears did f = true ∧ x.plan.Wants f := by
  rw [signFor]
  cases hg : frames.find? fun f => x.hears did f && x.plan.Wants f with
  | some g =>
    have hfound := List.find?_some hg
    rw [Bool.and_eq_true, decide_eq_true_iff] at hfound
    exact iff_of_true (List.cons_ne_nil _ _) ⟨g, List.mem_of_find?_eq_some hg, hfound⟩
  | none =>
    refine iff_of_false (fun hn => hn rfl) ?_
    rintro ⟨f, hf, hears, wanted⟩
    exact List.find?_eq_none.mp hg f hf (by simp [hears, wanted])

theorem Tracks.concat (h : x.Tracks did frames (some q) calls)
    (noted : ∀ r, next = some r →
      r.notified.contains did = (q.notified.contains did || x.hears did f))
    (told : (more.filter fun r => r.1 = did) =
      if q.notified.contains did = false ∧ x.hears did f = true ∧ x.plan.Wants f then [(did, f)]
      else []) :
    x.Tracks did (frames ++ [f]) next (calls ++ more) := by
  constructor
  · intro r hr
    rw [noted r hr, h.noted q rfl]
    simp
  · rw [List.filter_append, h.told, told, h.noted q rfl, callFor_concat]

/-- A frame that is no answer of the device, or not its first one, changes nothing for it. -/
theorem Tracks.pass (h : x.Tracks did frames (some q) calls)
    (other : x.hears did f = true → q.notified.contains did = true) :
    x.Tracks did (frames ++ [f]) (some q) calls := by
  rw [← List.append_nil calls]
  refine h.concat ?_ ?_
  · intro r hr
    rw [← Option.some.inj hr]
    cases hf : x.hears did f with
    | false => simp
    | true => simp [other hf]
  · rw [if_neg fun hn => Bool.false_ne_true (hn.1.symm.trans (other hn.2.1))]
    rfl

theorem Tracks.of_gone (h : x.Tracks did frames query calls)
    (gone : next = query ∨ next = none) : x.Tracks did frames next calls := by
  refine ⟨fun q hq => ?_, h.told⟩
  rcases gone with rfl | rfl
  · exact h.noted q hq
  · simp at hq

end Search

namespace Controller

variable {σ π : Type} {N : Nat} {c d : Controller σ N} {x : Search} {i : Fin N}
  {q r : PendingQuery} {calls : List (Did × Frame)} {acts : List ControllerAct}
  {frames : List Frame} {did : Did} {f : Frame}

theorem Searching.correlates (hx : c.Searching x i q calls) :
    x.question.correlates f = q.isAnsweredBy f := by
  rw [Frame.correlates, hx.asks, PendingQuery.isAnsweredBy, hx.did]
  simp

theorem Searching.broadcastFor?_eq_none (hx : c.Searching x i q calls) (hk : c.pool.WellKept)
    (other : q.isAnsweredBy f = false) : c.broadcastFor? f = none := by
  refine Option.eq_none_iff_forall_ne_some.mpr fun e he => ?_
  obtain ⟨hp, hdid, answer⟩ := query?_of_broadcastFor? he
  have heq := hk.did_inj e.1 i e.2 q hp hx.found (hdid.trans hx.did.symm)
  rw [heq] at hp
  cases Option.some.inj (hp.symm.trans hx.found)
  exact Bool.false_ne_true (other.symm.trans answer)

/-- An answer that is no sign of what is searched for is an error that is not admitted. -/
theorem Searching.wants_of_hears (hx : c.Searching x i q calls) (hears : x.hears did f = true)
    (clear : x.plan.admitErrors = true ∨ f.id.isError = false) : x.plan.Wants f := by
  obtain ⟨response, _, answer⟩ := Search.hears_iff.mp hears
  rw [hx.correlates, PendingQuery.isAnsweredBy, Bool.and_eq_true] at answer
  rcases (SweepTarget.accepts_iff hx.question hx.asks response).mp answer.2 with find | fail
  · exact Or.inl find
  · exact Or.inr ⟨fail.1, clear.resolve_right (by simp [fail.1]), fail.2⟩

/-- Just an error that comes first and is not admitted keeps a search from a sign of its device. -/
theorem Searching.callFor_ne_signFor_iff (hx : c.Searching x i q calls) :
    x.callFor did frames ≠ x.signFor did frames ↔
      x.plan.admitErrors = false ∧
      (∃ e, frames.find? (x.hears did) = some e ∧ e.id.isError = true) ∧
      ∃ f ∈ frames, x.hears did f = true ∧ x.plan.Wants f := by
  rw [← Search.signFor_ne_nil_iff, Search.callFor]
  cases hg : frames.find? (x.hears did) with
  | none =>
    have hnone : ¬ x.signFor did frames ≠ [] := by
      rw [Search.signFor_ne_nil_iff]
      rintro ⟨f, hf, hears, _⟩
      exact List.find?_eq_none.mp hg f hf hears
    exact iff_of_false (fun hn => hnone hn.symm) fun hn => hnone hn.2.2
  | some e =>
    by_cases wanted : x.plan.Wants e
    · rw [Search.signFor_eq_of_find? hg wanted]
      refine iff_of_false (by simp [wanted]) ?_
      rintro ⟨refused, ⟨g, hfirst, error⟩, _⟩
      rw [← Option.some.inj hfirst] at error
      simp [SweepPlan.Wants, refused, error] at wanted
    · have herror := mt (hx.wants_of_hears (List.find?_some hg)) wanted
      rw [not_or, Bool.not_eq_true, Bool.not_eq_false] at herror
      simp only [wanted, if_false, herror.1, true_and]
      exact ⟨fun hn => ⟨⟨e, rfl, herror.2⟩, hn.symm⟩, fun hn => hn.2.symm⟩

/-- No query but that of the search waits for an answer of the device. -/
def Unasked (c : Controller σ N) (did : Did) : Prop :=
  did ≠ .broadcast → c.isDidPending did = false

theorem Unasked.unicastFor? (h : c.Unasked did) (hd : f.did = did) : c.unicastFor? f = none := by
  by_cases hb : did = .broadcast
  · simp [Controller.unicastFor?, hd, hb]
  · simp [Controller.unicastFor?, hd, h hb]

variable [Listener σ]

/-- Without a new query a device stays unasked. -/
theorem Steps.unasked {may : Licence} (h : Steps may c acts d) (hc : c.Sound)
    (hn : ¬ may.accept) (unasked : c.Unasked did) : d.Unasked did := by
  intro unicast
  have hfree : ¬ d.HasQuery did := h.not_hasQuery hc hn fun hq => by
    rw [← isDidPending_iff hc.kept, unasked unicast] at hq
    exact Bool.false_ne_true hq
  rwa [← isDidPending_iff (h.sound hc).kept, Bool.not_eq_true] at hfree

section Receive

/-- What a controller may do while responses are taken. -/
def Licence.taking : Licence := ⟨fun _ => False, False, fun f => f.id.isResponse = true⟩

/-- The first answer of a device is noted, and relayed if it is a sign of what is searched for. -/
theorem Searching.spread_tracks (hx : c.Searching x i q calls) (hc : c.Sound)
    (tracks : x.Tracks did frames (some q) calls) (response : f.id.isResponse = true)
    (answer : q.isAnsweredBy f = true) (first : q.notified.contains f.did = false) :
    x.Tracks did (frames ++ [f]) ((c.spread i q f).1.pool.query? i)
      (calls ++ relaysOf (c.spread i q f).2) := by
  have hown : c.sweepOwns q.handle = true := by
    rw [hc.kept.handle i q hx.found]
    exact hx.sweepOwns
  have hhears : x.hears did f = decide (f.did = did) := by
    simp [Search.hears, response, hx.correlates, answer]
  have hwants : (x.sweep calls).admits f = true ↔ x.plan.Wants f := by
    rw [hx.wants_iff response]
    rw [PendingQuery.isAnsweredBy, Bool.and_eq_true] at answer
    exact ⟨fun h => ⟨answer.2, h⟩, And.right⟩
  refine tracks.concat (fun r hr => ?_) ?_
  · rcases pool_spread c i q f with hpool | hpool
    · rw [hpool, Pool.query?_setQuery hx.found, if_pos rfl] at hr
      rw [← Option.some.inj hr, PendingQuery.note, DidSet.contains_insert, hhears]
    · rw [hpool, Pool.query?_finish, if_pos rfl] at hr
      simp at hr
  · rw [relaysOf_spread hown hx.sweep, hhears]
    by_cases hdid : f.did = did
    · subst hdid
      by_cases hw : x.plan.Wants f
      · simp [hwants.mpr hw, first, hw]
      · simp [Bool.eq_false_of_not_eq_true fun h => hw (hwants.mp h), hw]
    · by_cases hw : (x.sweep calls).admits f = true <;> simp [hw, hdid]

/-- A search takes a frame. -/
theorem Searching.respond_tracks (hx : c.Searching x i q calls) (hc : c.Sound)
    (unasked : c.Unasked did) (tracks : x.Tracks did frames (some q) calls)
    (frame : Option Frame) :
    x.Tracks did (frames ++ frame.toList) ((c.respond frame).1.pool.query? i)
      (calls ++ relaysOf (c.respond frame).2) := by
  cases frame with
  | none => simpa [respond, relaysOf, hx.found] using tracks
  | some f =>
    have hother : ∀ {d : Controller σ N} {acts}, d.pool.query? i = some q → relaysOf acts = [] →
        (x.hears did f = true → q.notified.contains did = true) →
        x.Tracks did (frames ++ [f]) (d.pool.query? i) (calls ++ relaysOf acts) := by
      intro d acts found quiet other
      rw [found, quiet, List.append_nil]
      exact tracks.pass other
    by_cases response : f.id.isResponse = true
    case neg =>
      simp only [respond, response]
      exact hother hx.found rfl fun hf => absurd hf (by simp [Search.hears, response])
    have hrespond : c.respond (some f) = c.match? f := by
      simp [respond, response, handleResponse, observe_of_sweepOwns hc.sweep hx.sweepOwns f]
    rw [hrespond]
    cases hu : c.unicastFor? f with
    | some e =>
      -- Another device was asked, and answers.
      obtain ⟨unicast, hp, hdid, _⟩ := query?_of_unicastFor? hu
      rw [match?_of_unicastFor? hu]
      refine hother ?_ rfl fun hf => ?_
      · have hij : i ≠ e.1 := by
          rintro rfl
          cases Option.some.inj (hp.symm.trans hx.found)
          exact unicast (hdid.symm.trans hx.did)
        exact (Pool.query?_finish ..).trans ((if_neg hij).trans hx.found)
      · simp [unasked.unicastFor? (Search.hears_iff.mp hf).2.1] at hu
    | none =>
      cases answer : q.isAnsweredBy f with
      | true =>
        rw [match?_of_broadcastFor? hu (broadcastFor?_of_query? hc.kept hx.found hx.did answer)]
        cases first : q.notified.contains f.did with
        | true =>
          refine hother hx.found rfl fun hf => ?_
          rw [← (Search.hears_iff.mp hf).2.1, first]
        | false => exact hx.spread_tracks hc tracks response answer first
      | false =>
        simp only [match?, hu, hx.broadcastFor?_eq_none hc.kept answer]
        exact hother hx.found rfl fun hf =>
          absurd hf (by simp [Search.hears, hx.correlates, answer])

theorem feed_cons (c : Controller σ N) (elapsed : Nat) (f : Frame) (rest : List Frame) :
    c.feed elapsed (f :: rest) = (((c.receive elapsed (some f)).1.feed 0 rest).1,
      (c.receive elapsed (some f)).2 ++ ((c.receive elapsed (some f)).1.feed 0 rest).2) := rfl

/-- While time passes a query stays as it is or ends. -/
theorem query?_advance_cases (hc : c.Sound) (elapsed : Nat) :
    (c.advance elapsed).1.pool.query? i = c.pool.query? i ∨
      (c.advance elapsed).1.pool.query? i = none := by
  by_cases hm : ⟨i⟩ ∈ expiriesOf (c.advance elapsed).2
  · have hsteps : Steps .none _ _ _ := advance_steps c elapsed
    have hnone := hsteps.issuesOf_eq_nil hc id
    obtain ⟨_, gone⟩ := hsteps.expired hc (by simp [hnone]) hm
    exact Or.inr ((isPending_eq_false_iff (hsteps.sound hc).kept).mp gone)
  · exact Or.inl (query?_advance hc hm)

/-- A search takes a frame before time passes. -/
theorem Searching.receive_tracks (hx : c.Searching x i q calls) (hc : c.Sound)
    (unasked : c.Unasked did) (tracks : x.Tracks did frames (some q) calls) (elapsed : Nat)
    (frame : Option Frame) :
    x.Tracks did (frames ++ frame.toList) ((c.receive elapsed frame).1.pool.query? i)
      (calls ++ relaysOf (c.receive elapsed frame).2) := by
  rw [relaysOf_receive]
  exact (hx.respond_tracks hc unasked tracks frame).of_gone
    (query?_advance_cases (hc.respond frame) elapsed)

/-- Only the callback ends a search whose time is not up while frames are taken. -/
theorem Searching.feed_lasts (hx : c.Searching x i q calls) (hc : c.Sound) (elapsed : Nat)
    (taken : List Frame) (waits : ∀ left, (x.handle, left) ∈ c.agenda → elapsed < left)
    (goesOn : GoesOn x.goOn (calls ++ relaysOf (c.feed elapsed taken).2)) :
    (c.feed elapsed taken).1.isPending x.handle = true := by
  have hsteps : Steps .taking c _ _ := feed_steps c elapsed taken fun f _ hr => hr
  cases hsteps.searching hc (fun f hf => hf) hx (Or.inl id) with
  | lasts r on searching => exact searching.isPending (hsteps.sound hc).kept
  | ended ends relays released =>
    rcases ends with stopped | expired | cancelled
    · exact absurd goesOn stopped
    · obtain ⟨left, hin, hle⟩ := mem_agenda_of_expiriesOf_feed hc expired
      exact absurd (waits left hin) (Nat.not_lt.mpr hle)
    · simp [cancelsOf_feed] at cancelled

/-- A search takes frame after frame, unless it ends: then it takes the first one only, with which
the time passes. -/
theorem Searching.feed_tracks (hx : c.Searching x i q calls) (hc : c.Sound)
    (unasked : c.Unasked did) (tracks : x.Tracks did frames (some q) calls) (elapsed : Nat)
    (taken : List Frame)
    (goesOn : GoesOn x.goOn (calls ++ relaysOf (c.feed elapsed taken).2)) :
    x.Tracks did
      (frames ++ if (c.feed elapsed taken).1.isPending x.handle then taken else taken.take 1)
      ((c.feed elapsed taken).1.pool.query? i) (calls ++ relaysOf (c.feed elapsed taken).2) := by
  induction taken generalizing c elapsed q calls frames with
  | nil =>
    rw [List.take_nil, ite_self]
    exact hx.receive_tracks hc unasked tracks elapsed none
  | cons f rest ih =>
    have hfirst : Steps .taking c _ _ := receive_steps c elapsed (some f) fun g _ hr => hr
    have hm := hfirst.sound hc
    have hrest : Steps .taking _ _ _ := feed_steps (c.receive elapsed (some f)).1 0 rest
      fun g _ hr => hr
    have hnext := hx.receive_tracks hc unasked tracks elapsed (some f)
    rw [feed_cons, relaysOf_append, ← List.append_assoc] at goesOn ⊢
    cases hfirst.searching hc (fun g hg => hg) hx (Or.inl id) with
    | lasts r on searching =>
      rw [searching.found] at hnext
      have hwaits : ∀ left, (x.handle, left) ∈ (c.receive elapsed (some f)).1.agenda → 0 < left :=
        fun left hin => (mem_agenda_receive hc hin).2
      have hpending := searching.feed_lasts hm 0 rest hwaits goesOn
      have hlast := ih searching hm (hfirst.unasked hc id unasked) hnext 0 goesOn
      rw [if_pos hpending] at hlast ⊢
      rwa [List.append_assoc] at hlast
    | ended ends relays released =>
      obtain ⟨hreleased, quiet⟩ := hrest.released hm (Or.inl id) released
      have hd := (hrest.sound hm).kept
      have hgone := hreleased.isPending hd
      rw [← hx.slot] at hgone
      rw [if_neg (Bool.eq_false_iff.mp hgone), quiet, List.append_nil]
      exact hnext.of_gone (Or.inr ((hd.frees.mem i).mp hreleased.free))

end Receive

section Serve

variable [Platform π] {may : Licence}

/-- When no frame is taken a search goes on as before or ends. -/
theorem Steps.unheard (h : Steps may c acts d) (hc : c.Sound) (deaf : ∀ f, ¬ may.hear f)
    (hx : c.Searching x i q calls)
    (keeps : ¬ may.accept ∨ ⟨i⟩ ∉ (issuesOf acts).map Prod.fst ∧ d.sweepOwns ⟨i⟩ = true) :
    (d.pool.query? i = some q ∨ d.pool.query? i = none) ∧ relaysOf acts = [] := by
  induction h with
  | refl => exact ⟨Or.inl hx.found, rfl⟩
  | cons first rest ih =>
    have hm := first.sound hc
    have hlater := keeps.imp_right fun k => And.intro (notMem_issuesOf_append.mp k.1).2 k.2
    have hquiet := first.relaysOf_eq_nil hc (Or.inr ⟨⟨_, hx.sweepOwns⟩, deaf⟩)
    have hnext := first.searching hc (fun f hf => absurd hf (deaf f)) hx
    rw [hquiet, List.append_nil] at hnext
    rw [relaysOf_append, hquiet, List.nil_append]
    cases hnext with
    | lasts r on searching =>
      have hr : r = q := by
        cases (first.effect hc).fate hc.kept hx.found with
        | kept found => exact Option.some.inj (searching.found.symm.trans found)
        | noted f broadcast answer first heard => exact absurd heard (deaf f)
        | ended gone => simp [searching.found] at gone
      subst hr
      exact ih hm searching hlater
    | ended ends relays released =>
      obtain ⟨hreleased, quiet⟩ := rest.released hm hlater released
      exact ⟨Or.inr (((rest.sound hm).kept.frees.mem i).mp hreleased.free), quiet⟩

/-- A request makes a search take its frames, or only the first one if it ends. -/
theorem Searching.serve_tracks (hx : c.Searching x i q calls) (hc : c.Sound)
    (unasked : c.Unasked did) (tracks : x.Tracks did frames (some q) calls) (r : Request π)
    (goesOn : GoesOn x.goOn (calls ++ relaysOf (c.serve r).2)) :
    x.Tracks did
      (frames ++ if (c.serve r).1.isPending x.handle then r.frames else r.frames.take 1)
      ((c.serve r).1.pool.query? i) (calls ++ relaysOf (c.serve r).2) := by
  have hdeaf : r.frames = [] → x.Tracks did
      (frames ++ if (c.serve r).1.isPending x.handle then r.frames else r.frames.take 1)
      ((c.serve r).1.pool.query? i) (calls ++ relaysOf (c.serve r).2) := by
    intro none
    obtain ⟨found, quiet⟩ := (serve_steps c r).unheard hc
      (fun f hf => List.not_mem_nil (none ▸ hf.1)) hx (serve_keeps hc hx r)
    rw [none, quiet, List.take_nil, ite_self, List.append_nil, List.append_nil]
    exact tracks.of_gone found
  cases r with
  | receive elapsed frame =>
    have htake : frame.toList.take 1 = frame.toList := by cases frame <;> rfl
    rw [Request.frames, htake, ite_self]
    exact hx.receive_tracks hc unasked tracks elapsed frame
  | poll p =>
    have hwoken : Searching { c with lastPoll := some (Platform.now p).toMillis } x i q calls :=
      ⟨hx.slot, hx.sweep, hx.found, hx.did, hx.question, hx.asks, hx.noted, hx.relays, hx.goesOn⟩
    exact hwoken.feed_tracks (hc.woken _) unasked tracks _ _ goesOn
  | query => exact hdeaf rfl
  | cancel => exact hdeaf rfl
  | cancelAll => exact hdeaf rfl
  | startSweep => exact hdeaf rfl
  | stopSweep => exact hdeaf rfl

/-- As long as a search goes on it takes the frames of every request. -/
theorem Searching.run_tracks (hx : c.Searching x i q calls) (hc : c.Sound)
    (tracks : x.Tracks did frames (some q) calls) (rs : List (Request π))
    (unused : x.handle ∉ (issuesOf (c.run rs).2).map Prod.fst)
    (unasked : ∀ first, first <+: rs → (c.run first).1.Unasked did)
    (pending : (c.run rs).1.isPending x.handle = true) :
    ∃ r, (c.run rs).1.Searching x i r (calls ++ relaysOf (c.run rs).2) ∧
      x.Tracks did (frames ++ rs.flatMap Request.frames) (some r)
        (calls ++ relaysOf (c.run rs).2) := by
  induction rs generalizing c q calls frames with
  | nil => exact ⟨q, by simpa [run, relaysOf] using hx, by simpa [run, relaysOf] using tracks⟩
  | cons r rest ih =>
    rw [run_cons] at unused pending ⊢
    rw [notMem_issuesOf_append] at unused
    have hm := hc.serve r
    rw [relaysOf_append, ← List.append_assoc, List.flatMap_cons, ← List.append_assoc]
    cases serve_searching hc hx r with
    | lasts r' on searching =>
      have hnext := hx.serve_tracks hc (unasked [] List.nil_prefix) tracks r searching.goesOn
      rw [searching.found, if_pos (searching.isPending hm.kept)] at hnext
      refine ih searching hm hnext unused.2 (fun first hf => ?_) pending
      exact unasked (r :: first) (List.cons_prefix_cons.mpr ⟨rfl, hf⟩)
    | ended ends relays released =>
      rw [hx.slot] at unused pending
      have hgone := (run_vacant hm (released.isPending hm.kept) rest unused.2).1
      exact absurd (hgone.symm.trans pending) Bool.false_ne_true

/-- As long as an active sweep goes on, it relays of a device that is not asked otherwise the first
answer to its question, if that is a sign of what it searches for. Of a request that ends it, other
than by an answer not to go on, it still takes the first frame. A device is missed exactly if it
first answers by an error which is not admitted and then by a sign. -/
theorem active_sweep_relays_first_answers (l : σ) (before : List (Request π)) (p : π) (x : Search)
    (did : Did) (later : List (Request π)) :
    let c : Controller σ N := ((new l).run before).1
    let started := (c.serve (x.request p)).1
    let out := started.run later
    let taken := later.flatMap Request.frames
    c.Starts p x → x.handle ∉ (issuesOf out.2).map Prod.fst → out.1.isPending x.handle = true →
    (∀ first, first <+: later → (started.run first).1.Unasked did) →
      ((relaysOf out.2).filter fun r => r.1 = did) = x.callFor did taken ∧
      (∀ r : Request π, let next := out.1.serve r
        let more := if next.1.isPending x.handle then r.frames else r.frames.take 1
        GoesOn x.goOn (relaysOf (out.2 ++ next.2)) →
          ((relaysOf (out.2 ++ next.2)).filter fun r => r.1 = did) =
            x.callFor did (taken ++ more)) ∧
      ∀ frames, x.callFor did frames ≠ x.signFor did frames ↔
        x.plan.admitErrors = false ∧
        (∃ e, frames.find? (x.hears did) = some e ∧ e.id.isError = true) ∧
        ∃ f ∈ frames, x.hears did f = true ∧ x.plan.Wants f := by
  intro c started out taken starts unused pending unasked
  have hc : c.Sound := (sound_new l).run before
  have hstarted : started.Sound := hc.serve _
  obtain ⟨⟨i, q, hx, hq⟩, _⟩ := starts.searching
  have hnew : x.Tracks did [] (some q) [] := by
    refine ⟨fun r hr => ?_, rfl⟩
    simp [← Option.some.inj hr, hq]
  obtain ⟨r, hr, tracks⟩ := hx.run_tracks hstarted hnew later unused unasked pending
  refine ⟨tracks.told, fun y => ?_, fun frames => hx.callFor_ne_signFor_iff⟩
  intro next more goesOn
  rw [relaysOf_append] at goesOn ⊢
  exact (hr.serve_tracks (hstarted.run later) (unasked later List.prefix_rfl) tracks y goesOn).told

/-- One device is asked otherwise and answers; the sign of another one comes with the end of the
search. -/
theorem active_sweep_relays_first_answers_last :
    let x : Search := ⟨⟨.active, .telemetry .app, false, .millis 100⟩, fun _ => true,
      .telemetryQuery .broadcast .app, ⟨1⟩⟩
    let c : Controller Silence 2 := ((new .silence).run [Silence.ask]).1
    let started := (c.serve (x.request Silence.silence)).1
    let later : List (Request Silence) := [.receive 1 (some Silence.answer)]
    let out := started.run later
    let next := out.1.serve (.receive 100 (some (Silence.sign 2)) : Request Silence)
    c.Starts Silence.silence x ∧
      (∀ first, first <+: later → (started.run first).1.Unasked (.ofRaw 2)) ∧
      out.1.isPending x.handle = true ∧ next.1.isPending x.handle = false ∧
      ((relaysOf (out.2 ++ next.2)).filter fun r => r.1 = .ofRaw 2) =
        [(.ofRaw 2, Silence.sign 2)] := by
  intro x c started later out next
  have starts : c.Starts Silence.silence x := ⟨by decide, rfl, by decide⟩
  have pending : out.1.isPending x.handle = true := by decide
  have gone : next.1.isPending x.handle = false := by decide
  have unasked : ∀ first, first <+: later → (started.run first).1.Unasked (.ofRaw 2) := by
    intro first hp _
    simp only [later, List.prefix_cons_iff, List.prefix_nil] at hp
    rcases hp with rfl | ⟨_, rfl, rfl⟩ <;> decide
  obtain ⟨_, hnext, _⟩ := active_sweep_relays_first_answers (N := 2) Silence.silence [Silence.ask]
    Silence.silence x (.ofRaw 2) later starts (by decide) pending unasked
  have hlast := hnext (.receive 100 (some (Silence.sign 2))) fun _ _ _ => rfl
  rw [if_neg (Bool.eq_false_iff.mp gone)] at hlast
  exact ⟨starts, unasked, pending, gone, hlast.trans (by decide)⟩

/-- An error keeps an active sweep from the sign of the same device, and a passive sweep not. -/
theorem active_sweep_misses_sign_after_error :
    let goOn : List (Did × Frame) → Bool := fun _ => true
    let watch : SweepPlan := ⟨.passive, .telemetry .app, false, .millis 100⟩
    let x : Search := ⟨{ watch with mode := .active }, goOn, .telemetryQuery .broadcast .app, ⟨0⟩⟩
    let c : Controller Silence 2 := new .silence
    let later : List (Request Silence) :=
      [.receive 0 (some Silence.answer), .receive 0 (some (Silence.sign 1))]
    let active := (c.serve (x.request Silence.silence)).1.run later
    let passive := (c.startSweep Silence.silence watch goOn).controller.run later
    c.Starts Silence.silence x ∧ issuesOf active.2 = [] ∧ active.1.isPending x.handle = true ∧
      x.hears (.ofRaw 1) (Silence.sign 1) = true ∧ x.plan.Wants (Silence.sign 1) ∧
      relaysOf active.2 = [] ∧ relaysOf passive.2 = [(.ofRaw 1, Silence.sign 1)] := by
  intro goOn watch x c later active passive
  exact ⟨⟨by decide, rfl, by decide⟩, by decide, by decide, by decide, by decide, by decide,
    by decide⟩

end Serve

end Controller

end Fieldbus
