import Fieldbus.Attribute.Key
import Fieldbus.Text.Json

namespace Fieldbus

/-- A message on the bus: an identifier and up to eight bytes. -/
@[ext] structure Frame where
  id : Id
  payload : List UInt8
  payload_le : payload.length ≤ 8
deriving DecidableEq

namespace Frame

def maxPayload : Nat := 8

def ofPayload (id : Id) (payload : List UInt8) : Except Fault Frame :=
  if h : payload.length ≤ 8 then .ok ⟨id, payload, h⟩ else .error .invalidArgument

def empty (id : Id) : Frame := ⟨id, [], by decide⟩

def setPayload (f : Frame) (payload : List UInt8) : Except Fault Frame := ofPayload f.id payload

def did (f : Frame) : Did := f.id.did

/-- The same frame addressed to or sent by another device. -/
def withDid (f : Frame) (did : Did) : Frame := { f with id := { f.id with did := did } }

def telemetryQuery (did : Did) (endpoint : Endpoint) : Frame :=
  empty (.query .telemetry did endpoint)

def command (did : Did) (endpoint : Endpoint) (payload : List UInt8) : Except Fault Frame :=
  ofPayload (.query .command did endpoint) payload

def readAttribute (did : Did) (key : Key) : Frame where
  id := .query .readAttribute did .app
  payload := leBytes 2 key.raw.toNat
  payload_le := by simp

def keyValue (id : Id) (key : Key) (value : UInt32) : Frame where
  id := id
  payload := leBytes 2 key.raw.toNat ++ leBytes 4 value.toNat
  payload_le := by simp

def writeAttribute (did : Did) (key : Key) (value : UInt32) : Frame :=
  keyValue (.query .writeAttribute did .app) key value

def telemetryResponse (did : Did) (endpoint : Endpoint) (payload : List UInt8) :
    Except Fault Frame :=
  ofPayload (.response .telemetry did endpoint) payload

def attributeResponse (did : Did) (key : Key) (value : UInt32) : Frame :=
  keyValue (.response .readAttribute did .app) key value

/-- The report that a query of type `queryType` failed. -/
def errorResponse (did : Did) (queryType : FrameType) (endpoint : Endpoint)
    (code argument : UInt32) : Frame where
  id := .response queryType.errorType did endpoint
  payload := leBytes 4 code.toNat ++ leBytes 4 argument.toNat
  payload_le := by simp

def key? (f : Frame) : Option Key :=
  if f.id.frameType.isAttribute ∧ 2 ≤ f.payload.length then some ⟨word16 0 f.payload⟩ else none

def value? (f : Frame) : Option UInt32 :=
  if f.id.frameType.isAttribute ∧ 6 ≤ f.payload.length then some (word32 2 f.payload) else none

/-- The code and the argument of an error frame; an argument cut short counts as zero. -/
def error? (f : Frame) : Option (UInt32 × UInt32) :=
  if f.id.isError ∧ 4 ≤ f.payload.length then
    some (word32 0 f.payload, if 8 ≤ f.payload.length then word32 4 f.payload else 0)
  else none

def buffer (f : Frame) : List UInt8 := f.payload ++ List.replicate (8 - f.payload.length) 0

def toWire (f : Frame) : Nat × List UInt8 × Nat := (f.id.encode, f.buffer, f.payload.length)

def ofWire (rawId : Nat) (payload : List UInt8) : Except Fault Frame :=
  ofPayload (.decode rawId) payload

def debugText (f : Frame) : String :=
  "Frame \x7b id: " ++ f.id.debugText ++ ", payload: [" ++
    String.intercalate ", " (f.payload.map fun b => toString b.toNat) ++ "] \x7d"

def text (f : Frame) : String :=
  let head := "[" ++ Hex.tagged 3 f.id.encode ++ "] " ++ f.id.did.text ++ " "
  match f.error? with
  | some (code, argument) =>
    let query := if f.id.frameType = .command then "command/telemetry" else "attribute"
    head ++ query ++ " error " ++ Hex.tagged 4 code.toNat ++ " arg " ++
      Hex.tagged 8 argument.toNat
  | none =>
    let start := head ++ f.id.frameType.text ++ " " ++ f.id.direction.text
    if f.id.frameType.isAttribute then
      let key := (f.key?.map fun k => " key " ++ k.text).getD ""
      let value := (f.value?.map fun v => " = " ++ Hex.tagged 8 v.toNat).getD ""
      start ++ key ++ value
    else
      start ++ " ep " ++ f.id.endpoint.text ++ " :" ++
        String.join (f.payload.map fun b => " " ++ String.ofList (Hex.ofByte b))

def json (f : Frame) : Json :=
  .object [
    ("id", .object [
      ("frame_type", .text f.id.frameType.name),
      ("direction", .text f.id.direction.name),
      ("did", .ofNat f.id.did.raw),
      ("endpoint", .text f.id.endpoint.name)]),
    ("buf", .array (f.buffer.map fun b => .ofNat b.toNat)),
    ("len", .ofNat f.payload.length)]

end Frame

end Fieldbus
