import Fieldbus.Proofs.Controller.Fate

namespace Fieldbus

/-- What is known of a query from when it is accepted. -/
structure Issue where
  handle : Handle
  did : Did
  tag : UInt32
  /-- A sweep waits for it. -/
  swept : Bool

namespace Issue

/-- The event that reports a response to the query. -/
def report (a : Issue) (f : Frame) (terminated : Bool) : Event where
  context := .query
  status := .ofResponse f
  did := f.did
  handle := some a.handle
  terminated := terminated
  response := some f
  tag := a.tag

/-- The event that ends the query without a response. -/
def final (a : Issue) (status : EventStatus) : Event where
  context := .query
  status := status
  did := a.did
  handle := some a.handle
  terminated := true
  response := none
  tag := a.tag

end Issue

/-- A listener that takes everything, on a bus where nothing is ever heard. -/
inductive Silence
  | silence

instance : Listener Silence where
  onEvent s _ := (true, s)

instance : Platform Silence where
  send s _ _ := (.ok (), s)
  receive s := (.ok none, s)
  now _ := ⟨0, 0⟩
  setClock s _ := (.ok (), s)
  entropy s n := (.replicate n 0, s)
  waiting _ := 0
  waiting_receive _ _ _ h := by simp at h

namespace Silence

def question : Frame := .telemetryQuery (.ofRaw 1) .app

def answer : Frame := .errorResponse (.ofRaw 1) .telemetry .app 0x3A06 0

def ask : Request Silence := .query silence (.ofRaw 1) question .forever 7

def issue : Issue := ⟨⟨0⟩, .ofRaw 1, 7, false⟩

end Silence

namespace Controller

variable {σ π : Type} {N : Nat} {c : Controller σ N} [Platform π]

/-- No sweep waits for a query that is not pending. -/
theorem Sound.not_sweepOwns_of_free (hc : c.Sound) {i : Fin N} (hi : c.pool.query? i = none) :
    c.sweepOwns ⟨i⟩ = false := by
  by_contra own
  obtain ⟨s, hs, hh⟩ := sweepOwns_iff.mp (Bool.eq_true_of_not_eq_false own)
  rcases hc.sweep s hs with ⟨hn, _⟩ | ⟨j, q, hj, _, _, hq, _⟩
  · simp [hn] at hh
  · cases Fin.ext (Handle.mk.inj (Option.some.inj (hh.symm.trans hj)))
    simp [hi] at hq

/-- A query is in its slot, just sent, and nothing was told yet. -/
structure Placed (d : Controller σ N) (acts : List ControllerAct) (f : Frame) (a : Issue)
    (i : Fin N) (k : Correlation) : Prop where
  slot : a.handle = ⟨i⟩
  did : f.did = a.did
  asks : Correlation.ofQuery? f = some k
  found : d.pool.query? i = some (.ask ⟨i⟩ f k a.tag)
  owns : d.sweepOwns ⟨i⟩ = a.swept
  search : a.swept = true → a.did = .broadcast
  silent : eventsOf acts = []
  sent : .send f ∈ acts

variable [Listener σ]

/-- A request makes a query pending, for which this frame is sent. -/
inductive Accepts (c : Controller σ N) : Request π → Frame → Issue → Prop
  | query (p : π) (did : Did) (frame : Frame) (timeout : Timeout) (tag : UInt32) (h : Handle)
      (accepted : (c.query p did frame timeout tag).result = .ok (some h)) :
      Accepts c (.query p did frame timeout tag) (frame.withDid did) ⟨h, did, tag, false⟩
  | startSweep (p : π) (plan : SweepPlan) (goOn : List (Did × Frame) → Bool) (f : Frame)
      (h : Handle) (accepted : (c.startSweep p plan goOn).result = .ok ())
      (question : sweepQuery? plan.target = some f)
      (owns : (c.startSweep p plan goOn).controller.sweepOwns h = true) :
      Accepts c (.startSweep p plan goOn) f ⟨h, .broadcast, 0, true⟩

theorem Accepts.placed {r : Request π} {f : Frame} {a : Issue} (h : c.Accepts r f a)
    (hc : c.Sound) : ∃ i k, (c.serve r).1.Placed (c.serve r).2 f a i k := by
  cases h with
  | query p did frame timeout tag h accepted =>
    rcases query_cases c p did frame timeout tag with
      ⟨i, pool, k, _, halloc, _, hasks, hr, hout, hacts⟩ | ⟨_, _, hr⟩
    · obtain ⟨_, _, hfree, _⟩ := hc.kept.alloc halloc
      cases Option.some.inj (Except.ok.inj (accepted.symm.trans hr))
      refine ⟨i, k, ?_⟩
      simp only [serve, hout, hacts]
      exact
        { slot := rfl
          did := rfl
          asks := hasks
          found := (Pool.query?_fill_alloc halloc).trans (if_pos rfl)
          owns := hc.not_sweepOwns_of_free hfree
          search := by simp
          silent := by
            rw [eventsOf_append, eventsOf_install]
            rfl
          sent := by simp }
    · exact absurd accepted (hr h)
  | startSweep p plan goOn f h accepted question owns =>
    rcases startSweep_cases c p plan goOn with
      ⟨query, i, pool, k, _, _, _, hg, halloc, _, hasks, _, hout, hacts⟩ |
      ⟨_, _, _, hout, _⟩ | ⟨_, _, hr⟩
    · cases Option.some.inj (question.symm.trans hg)
      rw [hout] at owns
      obtain ⟨s, hs, hh⟩ := sweepOwns_iff.mp owns
      cases Option.some.inj hs
      cases Option.some.inj hh
      refine ⟨i, k, ?_⟩
      simp only [serve, hout, hacts]
      exact
        { slot := rfl
          did := (withDid_sweepQuery question).2
          asks := hasks
          found := (Pool.query?_fill_alloc halloc).trans (if_pos rfl)
          owns := owns
          search := fun _ => rfl
          silent := by
            rw [eventsOf_append, eventsOf_append, eventsOf_install]
            rfl
          sent := by simp }
    · simp [hout, sweepOwns] at owns
    · exact absurd accepted hr

end Controller

end Fieldbus
