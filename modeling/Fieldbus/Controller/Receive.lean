import Fieldbus.Controller.Basic

namespace Fieldbus

namespace Controller

variable {σ : Type} {N : Nat} [Listener σ]

def observe (c : Controller σ N) (f : Frame) : Controller σ N × List ControllerAct :=
  match c.sweep with
  | none => (c, [])
  | some s =>
    if s.notices f then
      let (goOn, s) := (s.mark f).relay f
      let c := { c with sweep := some s }
      let (c, ended) := if goOn then (c, []) else c.endSweep .stoppedByCallback
      (c, .relay f.did f :: ended)
    else (c, [])

def conclude (c : Controller σ N) (i : Fin N) (q : PendingQuery) (f : Frame) :
    Controller σ N × List ControllerAct :=
  let event := responseEvent q f true
  ((c.finish i q).notify event |>.2, [.answered f.did q.handle f, .event event])

/-- Relays a response to the sweep that asked for it, if it is of the kind searched for. -/
def forward (c : Controller σ N) (f : Frame) : Bool × Controller σ N × List ControllerAct :=
  match c.sweep with
  | none => (false, c, [])
  | some s =>
    if s.admits f then
      let (goOn, s) := s.relay f
      (goOn, { c with sweep := some s }, [.relay f.did f])
    else (true, c, [])

/-- Reports the first response of a device to a broadcast query, which ends it on request. -/
def spread (c : Controller σ N) (i : Fin N) (q : PendingQuery) (f : Frame) :
    Controller σ N × List ControllerAct :=
  let c := c.note i q f.did
  let q := q.note f.did
  let (goOn, c, acts) :=
    if c.sweepOwns q.handle then c.forward f
    else
      let event := responseEvent q f false
      let (goOn, c) := c.notify event
      (goOn, c, [.event event])
  if goOn then (c, acts)
  else
    let c := c.finish i q
    let (c, ended) := if c.sweepOwns q.handle then c.endSweep .stoppedByCallback else (c, [])
    (c, acts ++ .halted q.handle :: ended)

def reportOrphan (c : Controller σ N) (f : Frame) : Controller σ N × List ControllerAct :=
  let event : Event := ⟨.orphan, .ofResponse f, f.did, none, true, some f, 0⟩
  ((c.notify event).2, [.orphaned f.did f, .event event])

/-- The query to the sender of a response that the response answers. -/
def unicastFor? (c : Controller σ N) (f : Frame) : Option (Fin N × PendingQuery) :=
  if !f.did.isBroadcast && c.isDidPending f.did then
    (c.pool.find? f.did).filter fun e => e.2.isAnsweredBy f
  else none

def broadcastFor? (c : Controller σ N) (f : Frame) : Option (Fin N × PendingQuery) :=
  if c.isDidPending .broadcast then (c.pool.find? .broadcast).filter fun e => e.2.isAnsweredBy f
  else none

/-- Gives a response to the query it answers; one to its sender goes before a broadcast one. -/
def match? (c : Controller σ N) (f : Frame) : Controller σ N × List ControllerAct :=
  match c.unicastFor? f with
  | some (i, q) => c.conclude i q f
  | none =>
    match c.broadcastFor? f with
    | some (i, q) =>
      if q.notified.contains f.did then (c, [.duplicate f.did]) else c.spread i q f
    | none => c.reportOrphan f

def handleResponse (c : Controller σ N) (f : Frame) : Controller σ N × List ControllerAct :=
  let (c, seen) := c.observe f
  let (c, acts) := c.match? f
  (c, seen ++ acts)

def advanceSweep (c : Controller σ N) (elapsed : Nat) : Controller σ N × List ControllerAct :=
  match c.sweep with
  | none => (c, [])
  | some s =>
    match s.remaining with
    | none => (c, [])
    | some remaining =>
      if remaining ≤ elapsed then c.endSweep .timedOut
      else ({ c with sweep := some { s with remaining := some (remaining - elapsed) } }, [])

def expire (c : Controller σ N) (i : Fin N) : Controller σ N × List ControllerAct :=
  match c.pool.query? i with
  | none => (c, [])
  | some q =>
    let c := c.finish i q
    let (c, acts) :=
      if c.sweepOwns q.handle then c.endSweep .queryTimedOut
      else
        let event := finalEvent q .timeout
        ((c.notify event).2, [.event event])
    (c, .expired q.did q.handle q.frameType :: acts)

/-- Ends the queries that are due, one after the other, as long as there are some. -/
def expireDue (c : Controller σ N) : List (Fin N) → Controller σ N × List ControllerAct
  | [] => (c, [])
  | i :: rest =>
    if c.pool.isDue i then
      let (c, acts) := c.expire i
      let (c, more) := c.expireDue rest
      (c, acts ++ more)
    else (c, [])

/-- Lets time pass for the sweep and for every query, and ends the queries that are due. -/
def advance (c : Controller σ N) (elapsed : Nat) : Controller σ N × List ControllerAct :=
  let (c, swept) := c.advanceSweep elapsed
  let c := { c with pool := c.pool.elapse elapsed }
  let (c, acts) := c.expireDue c.pool.queue
  (c, swept ++ acts)

/-- Takes a received frame, if there is one and it is a response. -/
def respond (c : Controller σ N) : Option Frame → Controller σ N × List ControllerAct
  | some f => if f.id.isResponse then c.handleResponse f else (c, [])
  | none => (c, [])

/-- Takes a received frame, if any, and then the time that passed. -/
def receive (c : Controller σ N) (elapsed : Nat) (frame : Option Frame) :
    Controller σ N × List ControllerAct :=
  let (c, acts) := c.respond frame
  let (c, more) := c.advance elapsed
  (c, acts ++ more)

/-- Ends a pending query; the listener is told unless `suppress` or a sweep owns the query. -/
def cancel (c : Controller σ N) (h : Handle) (suppress : Bool) :
    Except Fault Unit × Controller σ N × List ControllerAct :=
  match c.pool.lookup? h with
  | none => (.error .noSuchHandle, c, [])
  | some (i, q) =>
    let c := c.finish i q
    let (c, acts) :=
      if c.sweepOwns h then c.endSweep .queryCancelled
      else if suppress then (c, [])
      else
        let event := finalEvent q .cancelled
        ((c.notify event).2, [.event event])
    (.ok (), c, .cancelled q.did h :: acts)

def cancelSlots (c : Controller σ N) (suppress : Bool) :
    List (Fin N) → Controller σ N × List ControllerAct
  | [] => (c, [])
  | i :: rest =>
    let (c, acts) :=
      match c.pool.query? i with
      | none => (c, [])
      | some q => (c.cancel q.handle suppress).2
    let (c, more) := c.cancelSlots suppress rest
    (c, acts ++ more)

/-- Ends every pending query, in the order of the slots. -/
def cancelAll (c : Controller σ N) (suppress : Bool) : Controller σ N × List ControllerAct :=
  c.cancelSlots suppress (List.finRange N)

/-- Ends every pending query with an event and gives the listener back. -/
def close (c : Controller σ N) : σ × List ControllerAct :=
  let (c, acts) := c.cancelAll false
  (c.listener, acts)

end Controller

end Fieldbus
