import Fieldbus.Proofs.Controller.Accept

namespace Fieldbus

section Answered

variable {σ : Type} [Listener σ]

/-- The events with the answers that the listener gives to them. -/
def answered (l : σ) : List Event → List (Event × Bool)
  | [] => []
  | e :: rest => (e, (Listener.onEvent l e).1) :: answered (Listener.onEvent l e).2 rest

/-- The events that carry a handle, with the answers to them. -/
def answersFor (h : Handle) (l : σ) (acts : List ControllerAct) : List (Event × Bool) :=
  (answered l (eventsOf acts)).filter fun e => e.1.handle = some h

theorem answered_append (l : σ) (a b : List Event) :
    answered l (a ++ b) = answered l a ++ answered (Controller.hear l a) b := by
  induction a generalizing l with
  | nil => rfl
  | cons e rest ih => simp [answered, ih]

theorem map_fst_answered (l : σ) (events : List Event) :
    (answered l events).map Prod.fst = events := by
  induction events generalizing l with
  | nil => rfl
  | cons e rest ih => simp [answered, ih]

theorem map_fst_answersFor (h : Handle) (l : σ) (acts : List ControllerAct) :
    (answersFor h l acts).map Prod.fst = eventsFor h acts := by
  rw [answersFor, eventsFor, ← map_fst_answered l (eventsOf acts), List.filter_map,
    map_fst_answered]
  rfl

@[simp] theorem answersFor_nil (h : Handle) (l : σ) : answersFor h l [] = [] := rfl

theorem answersFor_append (h : Handle) (l : σ) (a b : List ControllerAct) :
    answersFor h l (a ++ b) =
      answersFor h l a ++ answersFor h (Controller.hear l (eventsOf a)) b := by
  rw [answersFor, eventsOf_append, answered_append, List.filter_append]
  rfl

theorem answersFor_eq_nil {h : Handle} {l : σ} {acts : List ControllerAct}
    (silent : ∀ e ∈ eventsOf acts, e.handle ≠ some h) : answersFor h l acts = [] := by
  refine List.filter_eq_nil_iff.mpr fun e he => ?_
  have hm : e.1 ∈ (answered l (eventsOf acts)).map Prod.fst := List.mem_map_of_mem he
  rw [map_fst_answered] at hm
  simpa using silent e.1 hm

theorem eventsFor_eq_nil {h : Handle} {acts : List ControllerAct}
    (silent : ∀ e ∈ eventsOf acts, e.handle ≠ some h) : eventsFor h acts = [] :=
  List.filter_eq_nil_iff.mpr fun e he => by simpa using silent e he

end Answered

/-- Whether a request may end a query without an event. -/
def Request.hushes {π : Type} (r : Request π) (h : Handle) : Prop :=
  r = .cancel h true ∨ r = .cancelAll true

namespace Issue

/-- What may be told of a query while it is pending: devices that answer a broadcast, each once,
and the listener wants to go on. -/
structure Reports (a : Issue) (told : List (Event × Bool)) : Prop where
  silent : a.did ≠ .broadcast ∨ a.swept = true → told = []
  each : ∀ e ∈ told, e.2 = true ∧ ∃ f : Frame, e.1 = a.report f false
  distinct : (told.map fun e => e.1.did).Nodup

/-- What may be told at the end of a query, after what was told before. -/
inductive LastWord (a : Issue) (hushed : Prop) (told : List (Event × Bool)) :
    List (Event × Bool) → Prop
  | answered (f : Frame) (answer : Bool) (unicast : a.did ≠ .broadcast) (sender : f.did = a.did) :
      LastWord a hushed told [(a.report f true, answer)]
  | expired (answer : Bool) (own : a.swept = false) :
      LastWord a hushed told [(a.final .timeout, answer)]
  | cancelled (answer : Bool) (own : a.swept = false) :
      LastWord a hushed told [(a.final .cancelled, answer)]
  | halted (f : Frame) (broadcast : a.did = .broadcast) (own : a.swept = false)
      (first : f.did ∉ told.map fun e => e.1.did) :
      LastWord a hushed told [(a.report f false, false)]
  | hushed (own : a.swept = false) (allowed : hushed) : LastWord a hushed told []
  | swept (broadcast : a.did = .broadcast) (own : a.swept = true) : LastWord a hushed told []

theorem reports_nil (a : Issue) : a.Reports [] := ⟨fun _ => rfl, by simp, by simp⟩

theorem LastWord.mono {a : Issue} {p p' : Prop} {told last : List (Event × Bool)}
    (h : a.LastWord p told last) (himp : a.swept = false → p → p') : a.LastWord p' told last := by
  cases h with
  | answered f answer unicast sender => exact .answered f answer unicast sender
  | expired answer own => exact .expired answer own
  | cancelled answer own => exact .cancelled answer own
  | halted f broadcast own first => exact .halted f broadcast own first
  | hushed own allowed => exact .hushed own (himp own allowed)
  | swept broadcast own => exact .swept broadcast own

end Issue

namespace Controller

variable {σ π : Type} {N : Nat} {c d : Controller σ N}

/-- A query is pending, and this was told of it so far. -/
structure Living (c : Controller σ N) (a : Issue) (i : Fin N) (q : PendingQuery)
    (told : List (Event × Bool)) : Prop where
  slot : a.handle = ⟨i⟩
  found : c.pool.query? i = some q
  did : q.did = a.did
  tag : q.tag = a.tag
  owns : c.sweepOwns ⟨i⟩ = a.swept
  search : a.swept = true → a.did = .broadcast
  noted : ∀ e ∈ told, q.notified.contains e.1.did = true
  reports : a.Reports told

variable {a : Issue} {i : Fin N} {q : PendingQuery} {told : List (Event × Bool)}

theorem Living.handle (h : c.Living a i q told) (hk : c.pool.WellKept) :
    q.handle = a.handle := by
  rw [hk.handle i q h.found, h.slot]

theorem Living.responseEvent_eq (h : c.Living a i q told) (hk : c.pool.WellKept) (f : Frame)
    (terminated : Bool) : responseEvent q f terminated = a.report f terminated := by
  rw [responseEvent, h.handle hk, h.tag]
  rfl

theorem Living.finalEvent_eq (h : c.Living a i q told) (hk : c.pool.WellKept)
    (status : EventStatus) : finalEvent q status = a.final status := by
  rw [finalEvent, h.handle hk, h.tag, h.did]
  rfl

theorem Living.isPending (h : c.Living a i q told) (hk : c.pool.WellKept) :
    c.isPending a.handle = true :=
  (isPending_iff hk).mpr ⟨i, q, h.slot, h.found⟩

theorem Living.kept (hl : c.Living a i q told) (found : d.pool.query? i = some q)
    (owns : d.sweepOwns ⟨i⟩ = c.sweepOwns ⟨i⟩) : d.Living a i q told :=
  { hl with found, owns := owns.trans hl.owns }

theorem Living.note (hl : c.Living a i q told) {f : Frame}
    (found : d.pool.query? i = some (q.note f.did)) (owns : d.sweepOwns ⟨i⟩ = c.sweepOwns ⟨i⟩) :
    d.Living a i (q.note f.did) told where
  slot := hl.slot
  found := found
  did := hl.did
  tag := hl.tag
  owns := owns.trans hl.owns
  search := hl.search
  noted e he := by simp [PendingQuery.note, hl.noted e he]
  reports := hl.reports

theorem Living.notMem (hl : c.Living a i q told) {f : Frame}
    (first : q.notified.contains f.did = false) : f.did ∉ told.map fun e => e.1.did := by
  intro hm
  obtain ⟨e, he, hd⟩ := List.mem_map.mp hm
  rw [← hd, hl.noted e he] at first
  simp at first

/-- A device that was not noted before is reported. -/
theorem Living.report (hl : c.Living a i q told) (hk : c.pool.WellKept) {f : Frame}
    (broadcast : q.did = .broadcast) (own : a.swept = false)
    (first : q.notified.contains f.did = false)
    (found : d.pool.query? i = some (q.note f.did)) (owns : d.sweepOwns ⟨i⟩ = c.sweepOwns ⟨i⟩) :
    d.Living a i (q.note f.did) (told ++ [(responseEvent q f false, true)]) where
  slot := hl.slot
  found := found
  did := hl.did
  tag := hl.tag
  owns := owns.trans hl.owns
  search := hl.search
  noted e he := by
    rcases List.mem_append.mp he with he | he
    · simp [PendingQuery.note, hl.noted e he]
    · rw [List.mem_singleton.mp he]
      simp [PendingQuery.note, responseEvent]
  reports :=
    { silent := by simp [own, ← hl.did, broadcast]
      each := by
        intro e he
        rcases List.mem_append.mp he with he | he
        · exact hl.reports.each e he
        · rw [List.mem_singleton.mp he]
          exact ⟨rfl, f, hl.responseEvent_eq hk f false⟩
      distinct := by
        rw [List.map_append, List.nodup_append]
        refine ⟨hl.reports.distinct, by simp, fun d hd d' hd' heq => hl.notMem first ?_⟩
        have hf : d' = f.did := List.mem_singleton.mp hd'
        rwa [← hf, ← heq] }

/-- The query ended while these events were told, the last of them as its last word. -/
def Closed (d : Controller σ N) (a : Issue) (hushed : Prop) (told new : List (Event × Bool)) :
    Prop :=
  d.isPending a.handle = false ∧
    ∃ more last, new = more ++ last ∧ a.Reports (told ++ more) ∧
      a.LastWord hushed (told ++ more) last

theorem Closed.cons {hushed : Prop} {new more : List (Event × Bool)}
    (h : d.Closed a hushed (told ++ new) more) : d.Closed a hushed told (new ++ more) := by
  obtain ⟨gone, rest, last, rfl, reports, word⟩ := h
  rw [List.append_assoc] at reports word
  exact ⟨gone, new ++ rest, last, (List.append_assoc ..).symm, reports, word⟩

theorem Placed.living {f : Frame} {k : Correlation} {acts : List ControllerAct}
    (h : d.Placed acts f a i k) :
    d.Living a i (.ask ⟨i⟩ f k a.tag) [] where
  slot := h.slot
  found := h.found
  did := h.did
  tag := rfl
  owns := h.owns
  search := h.search
  noted := by simp
  reports := a.reports_nil

variable [Listener σ] [Platform π] {may : Licence} {acts : List ControllerAct}

theorem answersFor_of_eq_singleton {h : Handle} {l : σ} {e : Event} (he : eventsOf acts = [e])
    (hh : e.handle = some h) : answersFor h l acts = [(e, (Listener.onEvent l e).1)] := by
  simp [answersFor, he, answered, hh]

/-- The last word of a query is what its end tells. -/
theorem Living.lastWord (hl : c.Living a i q told) (hk : c.pool.WellKept) {sweep : Option Sweep}
    (ending : Ending may c q (eventsOf acts) sweep) :
    a.LastWord (may.hush a.handle) told (answersFor a.handle c.listener acts) := by
  have hh := hl.handle hk
  have hown : c.sweepOwns q.handle = a.swept := by rw [hh, hl.slot, hl.owns]
  generalize he : eventsOf acts = events at ending
  cases ending with
  | answered f unicast sender answer heard =>
    rw [hl.responseEvent_eq hk] at he
    rw [answersFor_of_eq_singleton he rfl]
    exact .answered f _ (hl.did ▸ unicast) (sender.symm.trans hl.did)
  | expired own =>
    rw [hl.finalEvent_eq hk] at he
    rw [answersFor_of_eq_singleton he rfl]
    exact .expired _ (hown ▸ own)
  | cancelled own =>
    rw [hl.finalEvent_eq hk] at he
    rw [answersFor_of_eq_singleton he rfl]
    exact .cancelled _ (hown ▸ own)
  | hushed own allowed =>
    rw [answersFor_eq_nil (by simp [he])]
    exact .hushed (hown ▸ own) (hh ▸ allowed)
  | halted f broadcast own first answer heard =>
    rw [hl.responseEvent_eq hk] at he answer
    rw [answersFor_of_eq_singleton he rfl, answer]
    exact .halted f (hl.did ▸ broadcast) (hown ▸ own) (hl.notMem first)
  | swept own =>
    rw [answersFor_eq_nil (by simp [he])]
    exact .swept (hl.search (hown ▸ own)) (hown ▸ own)

/-- A step tells of a pending query what it may, and ends the query with its last word. -/
theorem Step.living (h : Step may c acts d) (hc : c.Sound) (hl : c.Living a i q told) :
    (∃ r, d.Living a i r (told ++ answersFor a.handle c.listener acts)) ∨
      d.Closed a (may.hush a.handle) told (answersFor a.handle c.listener acts) := by
  cases (h.effect hc).fate hc.kept hl.found with
  | kept found owns silent =>
    rw [answersFor_eq_nil (hl.slot ▸ silent), List.append_nil]
    exact Or.inl ⟨q, hl.kept found owns⟩
  | noted f broadcast answer first heard goOn found owns events =>
    rw [hl.owns] at goOn events
    cases hs : a.swept with
    | true =>
      rw [answersFor_eq_nil (by simp [events, hs]), List.append_nil]
      exact Or.inl ⟨_, hl.note found owns⟩
    | false =>
      rw [hs] at events
      rw [answersFor_of_eq_singleton events (by simp [responseEvent, hl.handle hc.kept]), goOn hs]
      exact Or.inl ⟨_, hl.report hc.kept broadcast hs first found owns⟩
  | ended gone ending =>
    refine Or.inr ⟨?_, [], answersFor a.handle c.listener acts, rfl, ?_, ?_⟩
    · rw [hl.slot, isPending_eq_false_iff (h.sound hc).kept]
      exact gone
    · rw [List.append_nil]
      exact hl.reports
    · rw [List.append_nil]
      exact hl.lastWord hc.kept ending

theorem Steps.living (h : Steps may c acts d) (hc : c.Sound) (hl : c.Living a i q told)
    (unused : a.handle ∉ (issuesOf acts).map Prod.fst) :
    (∃ r, d.Living a i r (told ++ answersFor a.handle c.listener acts)) ∨
      d.Closed a (may.hush a.handle) told (answersFor a.handle c.listener acts) := by
  induction h generalizing q told with
  | refl =>
    rw [answersFor_nil, List.append_nil]
    exact Or.inl ⟨q, hl⟩
  | cons first rest ih =>
    rw [notMem_issuesOf_append] at unused
    rw [answersFor_append, ← first.listener, ← List.append_assoc]
    rcases first.living hc hl with ⟨r, hm⟩ | ⟨gone, more, last, hnew, reports, word⟩
    -- Once the query has ended, the other steps of the same request find its slot free.
    · exact (ih (first.sound hc) hm unused.2).imp_right Closed.cons
    · rw [hl.slot] at gone unused
      obtain ⟨hgone, hsilent⟩ := rest.vacant (first.sound hc) gone unused.2
      rw [← hl.slot] at hgone hsilent
      refine Or.inr ⟨hgone, more, last, ?_, reports, word⟩
      rw [answersFor_eq_nil hsilent, List.append_nil, hnew]

theorem serve_living (hc : c.Sound) (hl : c.Living a i q told) (r : Request π)
    (unused : a.handle ∉ (issuesOf (c.serve r).2).map Prod.fst) :
    (∃ p, (c.serve r).1.Living a i p (told ++ answersFor a.handle c.listener (c.serve r).2)) ∨
      (c.serve r).1.Closed a (r.hushes a.handle) told
        (answersFor a.handle c.listener (c.serve r).2) := by
  refine ((serve_steps c r).living hc hl unused).imp_right fun hend => ?_
  obtain ⟨gone, more, last, hnew, reports, word⟩ := hend
  refine ⟨gone, more, last, hnew, reports, word.mono fun own hhush => ?_⟩
  cases r with
  | cancel h suppress =>
    obtain ⟨rfl, rfl⟩ := hhush
    exact Or.inl rfl
  | cancelAll suppress =>
    cases (hhush : suppress = true)
    exact Or.inr rfl
  | stopSweep =>
    -- A sweep that is stopped hushes its own query only, and this one has no sweep.
    have hown : c.sweepOwns a.handle = true := hhush
    simp [hl.slot, hl.owns, own] at hown
  | query => exact hhush.elim
  | receive => exact hhush.elim
  | poll => exact hhush.elim
  | startSweep => exact hhush.elim

theorem run_vacant (hc : c.Sound) (hp : c.isPending ⟨i⟩ = false) (rs : List (Request π))
    (unused : ⟨i⟩ ∉ (issuesOf (c.run rs).2).map Prod.fst) :
    (c.run rs).1.isPending ⟨i⟩ = false ∧ ∀ e ∈ eventsOf (c.run rs).2, e.handle ≠ some ⟨i⟩ := by
  induction rs generalizing c with
  | nil => exact ⟨hp, by simp [run]⟩
  | cons r rest ih =>
    rw [run_cons, notMem_issuesOf_append] at unused
    obtain ⟨hm, hfirst⟩ := (serve_steps c r).vacant hc hp unused.1
    obtain ⟨hd, hrest⟩ := ih (hc.serve r) hm unused.2
    refine ⟨hd, fun e he => ?_⟩
    rw [run_cons, eventsOf_append] at he
    rcases List.mem_append.mp he with he | he
    · exact hfirst e he
    · exact hrest e he

/-- A request ends a query and tells its last word; nothing is told of it later. -/
structure Ends (c : Controller σ N) (a : Issue) (told : List (Event × Bool)) (r : Request π)
    (later : List (Request π)) : Prop where
  pending : c.isPending a.handle = true
  reports : a.Reports told
  closed : (c.serve r).1.Closed a (r.hushes a.handle) told
    (answersFor a.handle c.listener (c.serve r).2)
  gone : ((c.serve r).1.run later).1.isPending a.handle = false
  silent : eventsFor a.handle ((c.serve r).1.run later).2 = []

theorem run_living (hc : c.Sound) (hl : c.Living a i q told) (rs : List (Request π))
    (unused : a.handle ∉ (issuesOf (c.run rs).2).map Prod.fst) :
    (∃ p, (c.run rs).1.Living a i p (told ++ answersFor a.handle c.listener (c.run rs).2)) ∨
      ∃ before r later, rs = before ++ r :: later ∧
        (c.run before).1.Ends a (told ++ answersFor a.handle c.listener (c.run before).2) r
          later := by
  induction rs generalizing c q told with
  | nil =>
    rw [run, answersFor_nil, List.append_nil]
    exact Or.inl ⟨q, hl⟩
  | cons r rest ih =>
    rw [run_cons, notMem_issuesOf_append] at unused
    rcases serve_living hc hl r unused.1 with ⟨p, hm⟩ | closed
    · rcases ih (hc.serve r) hm unused.2 with ⟨p, hd⟩ | ⟨before, last, later, rfl, ends⟩
      · refine Or.inl ⟨p, ?_⟩
        rwa [run_cons, answersFor_append, ← (serve_steps c r).listener, ← List.append_assoc]
      · refine Or.inr ⟨r :: before, last, later, rfl, ?_⟩
        rwa [run_cons, answersFor_append, ← (serve_steps c r).listener, ← List.append_assoc]
    · -- The first request ends the query, so the later ones have nothing left to tell of it.
      refine Or.inr ⟨[], r, rest, rfl, ?_⟩
      have gone := closed.1
      rw [hl.slot] at gone unused
      obtain ⟨hgone, hsilent⟩ := run_vacant (hc.serve r) gone rest unused.2
      rw [← hl.slot] at hgone hsilent
      rw [run, answersFor_nil, List.append_nil]
      exact ⟨hl.isPending hc.kept, hl.reports, closed, hgone, eventsFor_eq_nil hsilent⟩

theorem run_living_of_isPending (hc : c.Sound) (hl : c.Living a i q told) (rs : List (Request π))
    (unused : a.handle ∉ (issuesOf (c.run rs).2).map Prod.fst)
    (pending : (c.run rs).1.isPending a.handle = true) :
    ∃ p, (c.run rs).1.Living a i p (told ++ answersFor a.handle c.listener (c.run rs).2) := by
  refine (run_living hc hl rs unused).resolve_right ?_
  rintro ⟨before, r, later, rfl, ends⟩
  rw [run_append, run_cons] at pending
  exact Bool.false_ne_true (ends.gone.symm.trans pending)

/-- A request that may accept a query tells nothing. -/
theorem eventsOf_serve_of_accept (c : Controller σ N) {r : Request π} (h : (c.licence r).accept) :
    eventsOf (c.serve r).2 = [] := by
  cases r with
  | query p did frame timeout tag =>
    rcases query_cases c p did frame timeout tag with
      ⟨_, _, _, _, _, _, _, _, _, hacts⟩ | ⟨_, hacts, _⟩
    · simp only [serve, hacts, eventsOf_append, eventsOf_install]
      rfl
    · exact eventsOf_silent hacts
  | startSweep p plan goOn =>
    rcases startSweep_cases c p plan goOn with
      ⟨_, _, _, _, _, _, _, _, _, _, _, _, _, hacts⟩ | ⟨_, _, _, _, hacts⟩ | ⟨_, hacts, _⟩
    · simp only [serve, hacts, eventsOf_append, eventsOf_install]
      rfl
    · simp only [serve, hacts]
      rfl
    · exact eventsOf_silent hacts
  | cancel => exact h.elim
  | cancelAll => exact h.elim
  | receive => exact h.elim
  | poll => exact h.elim
  | stopSweep => exact h.elim

theorem serve_genuine (hc : c.Sound) (r : Request π) {e : Event}
    (he : e ∈ eventsOf (c.serve r).2) : c.Genuine e := by
  by_cases h : (c.licence r).accept
  · simp [eventsOf_serve_of_accept c h] at he
  · exact (serve_steps c r).genuine hc h he

/-- Every event is of a pending query or an orphan. From when a query is accepted until its handle
is used again, it is told what it may while it is pending and its last word when it ends. -/
theorem query_lifecycle (l : σ) :
    (∀ (before : List (Request π)) (r : Request π) (e : Event),
      let c : Controller σ N := ((new l).run before).1
      e ∈ eventsOf (c.serve r).2 → c.Genuine e) ∧
    ∀ (before : List (Request π)) (r : Request π) (f : Frame) (a : Issue)
      (later : List (Request π)),
      let c : Controller σ N := ((new l).run before).1
      let d := (c.serve r).1
      c.Accepts r f a → a.handle ∉ (issuesOf (d.run later).2).map Prod.fst →
        eventsFor a.handle (c.serve r).2 = [] ∧ d.isPending a.handle = true ∧
        ((d.run later).1.isPending a.handle = true ∧
            a.Reports (answersFor a.handle d.listener (d.run later).2) ∨
          ∃ first last rest, later = first ++ last :: rest ∧
            (d.run first).1.Ends a (answersFor a.handle d.listener (d.run first).2) last rest) := by
  refine ⟨fun before r e he => serve_genuine ((sound_new l).run before) r he, ?_⟩
  intro before r f a later c d accepted unused
  have hc : c.Sound := (sound_new l).run before
  have hd : d.Sound := hc.serve r
  obtain ⟨i, k, placed⟩ := accepted.placed hc
  refine ⟨eventsFor_eq_nil (by simp [placed.silent]), placed.living.isPending hd.kept, ?_⟩
  rcases run_living hd placed.living later unused with ⟨q, hl⟩ | hends
  · exact Or.inl ⟨hl.isPending ((hd.run later).kept), hl.reports⟩
  · exact Or.inr hends

/-- A query to one device ends with the answer. -/
theorem query_lifecycle_answered :
    let c : Controller Silence 1 := new .silence
    let d := (c.serve Silence.ask).1
    c.Accepts Silence.ask Silence.question Silence.issue ∧ d.isPending ⟨0⟩ = true ∧
      ∃ first last rest, [.receive 5 (some Silence.answer)] = first ++ last :: rest ∧
        (d.run (π := Silence) first).1.Ends Silence.issue
          (answersFor ⟨0⟩ d.listener (d.run first).2) last rest := by
  have accepted : (new .silence : Controller Silence 1).Accepts Silence.ask Silence.question
      Silence.issue :=
    .query Silence.silence (.ofRaw 1) Silence.question .forever 7 ⟨0⟩ rfl
  have gone : (((new .silence : Controller Silence 1).serve Silence.ask).1.run (π := Silence)
      [.receive 5 (some Silence.answer)]).1.isPending ⟨0⟩ = false := by decide
  obtain ⟨_, pending, hlife⟩ := (query_lifecycle (π := Silence) (N := 1) Silence.silence).2 []
    Silence.ask Silence.question Silence.issue [.receive 5 (some Silence.answer)]
    accepted (by decide)
  exact ⟨accepted, pending, hlife.resolve_left fun h => Bool.false_ne_true (gone.symm.trans h.1)⟩

end Controller

end Fieldbus
