import Fieldbus.Controller.Event
import Fieldbus.Controller.Timeout
import Fieldbus.DidSet

namespace Fieldbus

/-- What a response has to carry to answer a query. -/
inductive Correlation
  | endpoint (endpoint : Endpoint)
  | key (key : Key)
deriving DecidableEq

namespace Correlation

/-- Attribute queries are told apart by key, others by endpoint; a query without key has none. -/
def ofQuery? (query : Frame) : Option Correlation :=
  if query.id.frameType.isAttribute then query.key?.map key else some (endpoint query.id.endpoint)

/-- Whether a response carries what is asked for; an error names the key in its argument. -/
def accepts (c : Correlation) (f : Frame) : Bool :=
  match c with
  | endpoint e => (f.id.frameType = .telemetry || f.id.frameType = .command) && f.id.endpoint = e
  | key k =>
    match f.id.frameType with
    | .readAttribute => f.key? = some k
    | .writeAttribute => f.error?.any fun r => r.2.toUInt16 = k.raw
    | _ => false

end Correlation

structure PendingQuery where
  did : Did
  handle : Handle
  frameType : FrameType
  correlation : Correlation
  /-- The devices whose answers to a broadcast query were already reported. -/
  notified : DidSet
  tag : UInt32
deriving DecidableEq

def PendingQuery.ask (handle : Handle) (query : Frame) (correlation : Correlation)
    (tag : UInt32) : PendingQuery where
  did := query.did
  handle := handle
  frameType := query.id.frameType
  correlation := correlation
  notified := .empty
  tag := tag

/-- Whether a frame answers the query; a broadcast query is answered by any device. -/
def PendingQuery.isAnsweredBy (q : PendingQuery) (f : Frame) : Bool :=
  (q.did.isBroadcast || f.did = q.did) && q.correlation.accepts f

def PendingQuery.note (q : PendingQuery) (d : Did) : PendingQuery :=
  { q with notified := q.notified.insert d }

end Fieldbus
