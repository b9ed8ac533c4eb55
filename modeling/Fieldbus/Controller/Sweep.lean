import Fieldbus.Controller.Event
import Fieldbus.Controller.Timeout
import Fieldbus.DidSet

namespace Fieldbus

inductive SweepMode
  /-- Asks every device by a broadcast query. -/
  | active
  /-- Sends nothing and watches the responses to others. -/
  | passive
deriving DecidableEq

def SweepMode.name : SweepMode → String
  | .active => "Active"
  | .passive => "Passive"

/-- The responses that count as a sign of a device. -/
inductive SweepTarget
  | telemetry (endpoint : Endpoint)
  | key (key : Key)
  | any
deriving DecidableEq

def SweepTarget.debugText : SweepTarget → String
  | telemetry e => "Telemetry(" ++ e.name ++ ")"
  | key k => "Attribute(" ++ k.debugText ++ ")"
  | any => "Any"

structure SweepPlan where
  mode : SweepMode
  target : SweepTarget
  admitErrors : Bool
  timeout : Timeout
deriving DecidableEq

structure Sweep where
  plan : SweepPlan
  /-- Whether to go on after the relayed responses, the latest first. -/
  goOn : List (Did × Frame) → Bool
  /-- The broadcast query of an active sweep. -/
  handle : Option Handle
  /-- The time left of a passive sweep, if it ends at all. -/
  remaining : Option Nat
  /-- The devices whose first sign a passive sweep has relayed. -/
  seen : DidSet := .empty
  relayed : List (Did × Frame) := []

namespace Sweep

/-- Whether a response is of the kind that is searched for. -/
def admits (s : Sweep) (f : Frame) : Bool :=
  if f.id.isError then s.plan.admitErrors
  else
    match s.plan.target with
    | .telemetry e => f.id.frameType = .telemetry && f.id.endpoint = e
    | .key k => f.id.frameType = .readAttribute && f.key? = some k
    | .any => true

/-- Whether an error frame may answer a query for the target. -/
def concernsError (s : Sweep) (f : Frame) : Bool :=
  match s.plan.target with
  | .telemetry e => f.id.frameType = .command && f.id.endpoint = e
  | .key _ => f.id.frameType = .writeAttribute
  | .any => true

/-- Whether a passive sweep relays a frame that it watches: the first of each device. -/
def notices (s : Sweep) (f : Frame) : Bool :=
  s.plan.mode = .passive && (!f.id.isError || s.concernsError f) && s.admits f &&
    !s.seen.contains f.did

def mark (s : Sweep) (f : Frame) : Sweep := { s with seen := s.seen.insert f.did }

def relay (s : Sweep) (f : Frame) : Bool × Sweep :=
  let relayed := (f.did, f) :: s.relayed
  (s.goOn relayed, { s with relayed })

end Sweep

end Fieldbus
