import Fieldbus.Proofs.Controller.Origin

namespace Fieldbus

/-- What may be done with a response. -/
inductive Verdict (N : Nat)
  /-- It ends the query in this slot. -/
  | concludes (slot : Fin N) (query : PendingQuery)
  /-- Its sender has answered the broadcast query in this slot before. -/
  | drops (slot : Fin N) (query : PendingQuery)
  /-- It is the first answer of its sender to the broadcast query in this slot. -/
  | reports (slot : Fin N) (query : PendingQuery)
  | orphans

/-- The event that reports a response to no query. -/
def orphanEvent (f : Frame) : Event where
  context := .orphan
  status := .ofResponse f
  did := f.did
  handle := none
  terminated := true
  response := some f
  tag := 0

namespace Controller

variable {σ π : Type} {N : Nat}

/-- One query is gone, and all others are as before. -/
structure Without (c d : Controller σ N) (i : Fin N) (q : PendingQuery) : Prop where
  queries : ∀ j, d.pool.query? j = if j = i then none else c.pool.query? j
  agenda : d.agenda = c.agenda.erase ⟨i⟩
  free : d.pool.freeSlots = i :: c.pool.freeSlots
  dids : d.pool.pending = c.pool.pending.erase q.did
  lastPoll : d.lastPoll = c.lastPoll

/-- One query has heard of a device, and nothing else is changed of it or of the others. -/
structure Noted (c d : Controller σ N) (i : Fin N) (q : PendingQuery) (did : Did) : Prop where
  queries : ∀ j, d.pool.query? j =
    if j = i then some { q with notified := q.notified.insert did } else c.pool.query? j
  agenda : d.agenda = c.agenda
  free : d.pool.freeSlots = c.pool.freeSlots
  dids : d.pool.pending = c.pool.pending
  lastPoll : d.lastPoll = c.lastPoll

section Change

variable {c d : Controller σ N} {i : Fin N} {q : PendingQuery}

end Change

variable [Listener σ]

/-- These events are told and these responses are relayed, in order, and nothing else. -/
structure Tells (c : Controller σ N) (out : Controller σ N × List ControllerAct)
    (events : List Event) (relays : List (Did × Frame)) : Prop where
  told : eventsOf out.2 = events
  relayed : relaysOf out.2 = relays
  heard : out.1.listener = hear c.listener events

end Controller

namespace Verdict

variable {σ π : Type} {N : Nat} [Listener σ] [Platform π]

open Controller

/-- What becomes of the controller, and what is told. -/
def Outcome (c : Controller σ N) (f : Frame) (out : Controller σ N × List ControllerAct) :
    Verdict N → Prop
  | concludes i q =>
    c.Without out.1 i q ∧ out.1.sweep = c.sweep ∧ c.Tells out [responseEvent q f true] []
  | drops _ _ => out.1 = c ∧ c.Tells out [] []
  | reports i q =>
    if c.sweepOwns q.handle then
      ∃ s, c.sweep = some s ∧ s.handle = some q.handle ∧
        if s.admits f then
          c.Tells out [] [(f.did, f)] ∧
            if (s.relay f).1 then c.Noted out.1 i q f.did ∧ out.1.sweep = some (s.relay f).2
            else c.Without out.1 i q ∧ out.1.sweep = none
        else c.Tells out [] [] ∧ c.Noted out.1 i q f.did ∧ out.1.sweep = c.sweep
    else
      c.Tells out [responseEvent q f false] [] ∧ out.1.sweep = c.sweep ∧
        if (Listener.onEvent c.listener (responseEvent q f false)).1 then
          c.Noted out.1 i q f.did
        else c.Without out.1 i q
  | orphans => out.1 = { c with listener := out.1.listener } ∧ c.Tells out [orphanEvent f] []

section Matching

variable {l : σ} {rs : List (Request π)} {f : Frame} {i : Fin N} {q : PendingQuery}

end Matching

section Outcome

variable {c : Controller σ N} {f : Frame} {i : Fin N} {q : PendingQuery}

end Outcome

end Verdict

end Fieldbus
