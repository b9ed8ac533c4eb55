import Fieldbus.Controller.Receive
import Fieldbus.Platform

namespace Fieldbus

/-- The answer of an operation that uses the platform, with all that it left behind. -/
structure Exchange (σ : Type) (N : Nat) (π β : Type) where
  result : Except Fault β
  controller : Controller σ N
  platform : π
  acts : List ControllerAct

namespace Controller

variable {σ π : Type} {N : Nat} [Platform π]

def install (c : Controller σ N) (i : Fin N) (query : Frame) (correlation : Correlation)
    (timeout : Timeout) (tag : UInt32) : Controller σ N × List ControllerAct :=
  let scheduled :=
    match timeout with
    | .millis ms => [ControllerAct.scheduled i ms.toNat]
    | _ => []
  ({ c with pool := c.pool.fill i (.ask ⟨i⟩ query correlation tag) timeout },
    scheduled ++ [.issued query.did ⟨i⟩ timeout query])

/-- Sends a query to an address and follows it, unless it is untracked; one at a time for each. -/
def query (c : Controller σ N) (p : π) (did : Did) (frame : Frame) (timeout : Timeout)
    (tag : UInt32) : Exchange σ N π (Option Handle) :=
  if !frame.id.isQuery then ⟨.error .invalidArgument, c, p, []⟩
  else
    let frame := frame.withDid did
    if timeout = .untracked then
      let (sent, p) := Platform.send p frame 0
      ⟨sent.map fun _ => none, c, p, [.send frame]⟩
    else if c.isDidPending did then ⟨.error .busy, c, p, []⟩
    else
      match Correlation.ofQuery? frame, c.pool.alloc? with
      | none, _ => ⟨.error .invalidArgument, c, p, []⟩
      | some _, none => ⟨.error .poolExhausted, c, p, []⟩
      | some correlation, some (i, pool) =>
        let taken : List ControllerAct := [.slotTaken i, .send frame]
        match Platform.send p frame 0 with
        | (.error fault, p) => ⟨.error fault, { c with pool := pool.release i }, p, taken⟩
        | (.ok (), p) =>
          let (c, acts) := { c with pool }.install i frame correlation timeout tag
          ⟨.ok (some ⟨i⟩), c, p, taken ++ acts⟩

def queryTelemetry (c : Controller σ N) (p : π) (did : Did) (endpoint : Endpoint)
    (timeout : Timeout) : Exchange σ N π (Option Handle) :=
  c.query p did (.telemetryQuery did endpoint) timeout 0

def queryCommand (c : Controller σ N) (p : π) (did : Did) (endpoint : Endpoint)
    (payload : List UInt8) (timeout : Timeout) : Exchange σ N π (Option Handle) :=
  match Frame.command did endpoint payload with
  | .error fault => ⟨.error fault, c, p, []⟩
  | .ok frame => c.query p did frame timeout 0

def queryRead (c : Controller σ N) (p : π) (did : Did) (key : Key) (timeout : Timeout) :
    Exchange σ N π (Option Handle) :=
  c.query p did (.readAttribute did key) timeout 0

def queryWrite (c : Controller σ N) (p : π) (did : Did) (key : Key) (value : UInt32)
    (timeout : Timeout) : Exchange σ N π (Option Handle) :=
  c.query p did (.writeAttribute did key value) timeout 0

/-- The question that an active sweep asks; there is none that any response answers. -/
def sweepQuery? : SweepTarget → Option Frame
  | .telemetry endpoint => some (.telemetryQuery .broadcast endpoint)
  | .key key => some (.readAttribute .broadcast key)
  | .any => none

/-- Starts a search for devices, one at a time. -/
def startSweep (c : Controller σ N) (p : π) (plan : SweepPlan)
    (goOn : List (Did × Frame) → Bool) : Exchange σ N π Unit :=
  if c.isSweeping then ⟨.error .busy, c, p, []⟩
  else if plan.timeout = .untracked then ⟨.error .invalidArgument, c, p, []⟩
  else
    let started : ControllerAct := .sweepStarted plan.mode plan.target
    match plan.mode with
    | .active =>
      match sweepQuery? plan.target with
      | none => ⟨.error .notSupported, c, p, []⟩
      | some frame =>
        let asked := c.query p .broadcast frame plan.timeout 0
        match asked.result with
        | .error fault => { asked with result := .error fault }
        | .ok none => { asked with result := .error .invalidArgument }
        | .ok (some handle) =>
          { asked with
            result := .ok ()
            controller := { asked.controller with
              sweep := some { plan, goOn, handle := some handle, remaining := none } }
            acts := asked.acts ++ [started] }
    | .passive =>
      match plan.target with
      | .key _ => ⟨.error .notSupported, c, p, []⟩
      | _ =>
        let sweep : Sweep := { plan, goOn, handle := none, remaining := plan.timeout.span? }
        ⟨.ok (), { c with sweep := some sweep }, p, [started]⟩

/-- Ends the running search and silently its broadcast query. -/
def stopSweep [Listener σ] (c : Controller σ N) :
    Except Fault Unit × Controller σ N × List ControllerAct :=
  match c.sweep with
  | none => (.error .invalidArgument, c, [])
  | some s =>
    match s.handle with
    | some handle => c.cancel handle true
    | none => (.ok (), c.endSweep .stopped)

def drain (p : π) : List Frame × Option Fault × π :=
  match _h : Platform.receive p with
  | (.ok none, p') => ([], none, p')
  | (.error fault, p') => ([], some fault, p')
  | (.ok (some f), p') =>
    let rest := drain p'
    (f :: rest.1, rest.2)
termination_by Platform.waiting p
decreasing_by exact Platform.waiting_receive _ _ _ _h

/-- Takes frames one after the other; all the time passes with the first call. -/
def feed [Listener σ] (c : Controller σ N) (elapsed : Nat) :
    List Frame → Controller σ N × List ControllerAct
  | [] => c.receive elapsed none
  | f :: rest =>
    let (c, acts) := c.receive elapsed (some f)
    let (c, more) := c.feed 0 rest
    (c, acts ++ more)

/-- The time since the last poll, cut off at the largest span; none passes before the first. -/
def elapsedAt (c : Controller σ N) (now : Nat) : Nat :=
  match c.lastPoll with
  | some last => min (now - last) maxSpan
  | none => 0

/-- Handles all received frames and the time that passed; a failed receive is told afterwards. -/
def poll [Listener σ] (c : Controller σ N) (p : π) : Exchange σ N π Unit :=
  let now := (Platform.now p).toMillis
  let elapsed := c.elapsedAt now
  let (frames, fault, p) := drain p
  let (c, acts) := { c with lastPoll := some now }.feed elapsed frames
  let result :=
    match fault with
    | none => .ok ()
    | some fault => .error fault
  ⟨result, c, p, acts⟩

end Controller

end Fieldbus
