import Fieldbus.Controller.Pool
import Fieldbus.Controller.Sweep

namespace Fieldbus

/-- Issues queries and follows each until it ends; holds at most `N` of them at a time. -/
structure Controller (σ : Type) (N : Nat) where
  pool : Pool N
  listener : σ
  sweep : Option Sweep
  lastPoll : Option Nat

inductive SweepEnd
  | stopped
  | stoppedByCallback
  | timedOut
  | queryCancelled
  | queryTimedOut
deriving DecidableEq

def SweepEnd.text : SweepEnd → String
  | stopped => "stopped"
  | stoppedByCallback => "stopped by callback"
  | timedOut => "timed out"
  | queryCancelled => "query cancelled"
  | queryTimedOut => "query timed out"

/-- What a controller does, in order. -/
inductive ControllerAct
  | slotTaken (slot : Nat)
  | send (frame : Frame)
  | scheduled (slot : Nat) (ms : Nat)
  | issued (did : Did) (handle : Handle) (timeout : Timeout) (frame : Frame)
  | cancelled (did : Did) (handle : Handle)
  | answered (did : Did) (handle : Handle) (frame : Frame)
  | duplicate (did : Did)
  | orphaned (did : Did) (frame : Frame)
  | halted (handle : Handle)
  | expired (did : Did) (handle : Handle) (frameType : FrameType)
  | sweepStarted (mode : SweepMode) (target : SweepTarget)
  | sweepEnded (reason : SweepEnd)
  | event (event : Event)
  | relay (did : Did) (frame : Frame)
deriving DecidableEq

def eventsOf (acts : List ControllerAct) : List Event :=
  acts.filterMap fun
    | .event e => some e
    | _ => none

def relaysOf (acts : List ControllerAct) : List (Did × Frame) :=
  acts.filterMap fun
    | .relay d f => some (d, f)
    | _ => none

namespace Controller

variable {σ : Type} {N : Nat}

def new (listener : σ) : Controller σ N where
  pool := .new
  listener := listener
  sweep := none
  lastPoll := none

def capacity (_ : Controller σ N) : Nat := N

def freeCount (c : Controller σ N) : Nat := c.pool.freeCount

def pendingCount (c : Controller σ N) : Nat := c.pool.pendingCount

def isPending (c : Controller σ N) (h : Handle) : Bool := (c.pool.lookup? h).isSome

def isDidPending (c : Controller σ N) (d : Did) : Bool := c.pool.pending.contains d

/-- The time left for a query; none when it is not pending or never expires. -/
def remaining? (c : Controller σ N) (h : Handle) : Option Nat :=
  (c.pool.lookup? h).bind fun e => c.pool.remaining? e.1

def nextTimeout? (c : Controller σ N) : Option Nat := c.pool.nextTimeout?

def isSweeping (c : Controller σ N) : Bool := c.sweep.isSome

def note (c : Controller σ N) (i : Fin N) (q : PendingQuery) (d : Did) : Controller σ N :=
  { c with pool := c.pool.setQuery i (q.note d) }

def finish (c : Controller σ N) (i : Fin N) (q : PendingQuery) : Controller σ N :=
  { c with pool := c.pool.finish i q }

/-- Whether the running sweep waits for this query. -/
def sweepOwns (c : Controller σ N) (h : Handle) : Bool := c.sweep.any fun s => s.handle = some h

def endSweep (c : Controller σ N) (reason : SweepEnd) : Controller σ N × List ControllerAct :=
  match c.sweep with
  | none => (c, [])
  | some _ => ({ c with sweep := none }, [.sweepEnded reason])

def notify [Listener σ] (c : Controller σ N) (e : Event) : Bool × Controller σ N :=
  let (answer, listener) := Listener.onEvent c.listener e
  (answer, { c with listener })

/-- The event that reports a response to a query. -/
def responseEvent (q : PendingQuery) (f : Frame) (terminated : Bool) : Event where
  context := .query
  status := .ofResponse f
  did := f.did
  handle := some q.handle
  terminated := terminated
  response := some f
  tag := q.tag

/-- The last event of a query, without a response. -/
def finalEvent (q : PendingQuery) (status : EventStatus) : Event where
  context := .query
  status := status
  did := q.did
  handle := some q.handle
  terminated := true
  response := none
  tag := q.tag

end Controller

end Fieldbus
