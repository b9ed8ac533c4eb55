import Fieldbus.Frame

namespace Fieldbus

/-- Names a pending query by the pool slot that holds it. -/
structure Handle where
  slot : Nat
deriving DecidableEq

namespace Handle

/-- Handles are numbered from one. -/
def number (h : Handle) : Nat := h.slot + 1

def ofNumber? : Nat → Option Handle
  | 0 => none
  | n + 1 => some ⟨n⟩

@[simp] theorem ofNumber?_number (h : Handle) : ofNumber? h.number = some h := rfl

end Handle

inductive EventContext
  | query
  /-- A response that no pending query accounts for. -/
  | orphan
deriving DecidableEq

namespace EventContext

def text : EventContext → String
  | query => "query"
  | orphan => "orphan"

def name : EventContext → String
  | query => "Query"
  | orphan => "Orphan"

end EventContext

inductive EventStatus
  | ok
  /-- The device answered by an error frame. -/
  | error
  | timeout
  | cancelled
deriving DecidableEq

namespace EventStatus

def text : EventStatus → String
  | ok => "ok"
  | error => "error"
  | timeout => "timeout"
  | cancelled => "cancelled"

def name : EventStatus → String
  | ok => "Ok"
  | error => "Error"
  | timeout => "Timeout"
  | cancelled => "Cancelled"

def ofResponse (f : Frame) : EventStatus := if f.id.isError then error else ok

end EventStatus

structure Event where
  context : EventContext
  status : EventStatus
  did : Did
  handle : Option Handle
  /-- No later event carries this handle for the same query. -/
  terminated : Bool
  response : Option Frame
  /-- The tag of the query, zero for an orphan. -/
  tag : UInt32
deriving DecidableEq

namespace Event

/-- The failure that the device reported by its response. -/
def fault? (e : Event) : Option Fault :=
  (e.response.bind Frame.error?).map fun r => .reported r.1 r.2

def json (e : Event) : Json :=
  .object [
    ("context", .text e.context.name),
    ("status", .text e.status.name),
    ("did", .ofNat e.did.raw),
    ("handle", .ofOption (fun h => .ofNat h.number) e.handle),
    ("terminated", .bool e.terminated),
    ("response", .ofOption Frame.json e.response),
    ("tag", .ofNat e.tag.toNat)]

end Event

/-- Receives events; `false` for an event that does not end a broadcast query ends it. -/
class Listener (σ : Type) where
  onEvent : σ → Event → Bool × σ

end Fieldbus
