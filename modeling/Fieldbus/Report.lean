import Fieldbus.Frame
import Fieldbus.Text.HexInput
import Fieldbus.Text.Numeral

namespace Fieldbus

inductive InputError
  | invalidHex (text : String)
  | identifierTooLarge (n : Nat)
  | payloadTooLong (length : Nat)
  | outOfRange (field : String) (value max : Nat)
deriving DecidableEq

namespace InputError

def name : InputError → String
  | invalidHex _ => "InvalidHex"
  | identifierTooLarge _ => "IdentifierTooLarge"
  | payloadTooLong _ => "PayloadTooLong"
  | outOfRange _ _ _ => "OutOfRange"

def message : InputError → String
  | invalidHex text => "Invalid hex string '" ++ text ++ "'"
  | identifierTooLarge n => "Identifier " ++ Hex.tagged 1 n ++ " does not fit in 11 bits"
  | payloadTooLong length =>
    "Payload of " ++ toString length ++ " bytes exceeds the 8 byte CAN limit"
  | outOfRange field value max =>
    "Value " ++ toString value ++ " out of range for " ++ field ++ " (max " ++ toString max ++ ")"

end InputError

def readBytes (text : String) : Except InputError (List UInt8) :=
  match typedBytes? text.toList with
  | some bytes => .ok bytes
  | none => .error (.invalidHex text)

/-- A typed hexadecimal number below `bound`; blanks around it and leading `0x` are skipped. -/
def readNumber (bound : Nat) (text : String) : Except InputError Nat :=
  match Numeral.bounded? 16 bound (dropHexTags (trimBlanks text.toList)) with
  | some n => .ok n
  | none => .error (.invalidHex text)

def readIdentifier (text : String) : Except InputError Nat := do
  let n ← readNumber 0x100000000 text
  if Id.maxRaw < n then throw (.identifierTooLarge n)
  return n

def readKey (text : String) : Except InputError Key :=
  (readNumber 0x10000 text).map fun n => ⟨UInt16.ofNat n⟩

def framed (id : Id) (payload : List UInt8) : Except InputError Frame :=
  match Frame.ofPayload id payload with
  | .ok f => .ok f
  | .error _ => .error (.payloadTooLong payload.length)

structure DecodeRequest where
  identifier : String
  payload : String := ""
deriving DecidableEq

def DecodeRequest.frame (r : DecodeRequest) : Except InputError Frame := do
  let raw ← readIdentifier r.identifier
  let payload ← readBytes r.payload
  framed (.decode raw) payload

structure EncodeRequest where
  frameType : FrameType
  response : Bool := false
  deviceClass : Nat := 0
  subId : Nat := 0
  broadcast : Bool := false
  endpoint : Nat := 0
  data : String := ""
  key : Option String := none
  value : Option UInt32 := none
deriving DecidableEq

namespace EncodeRequest

def checkRange (field : String) (value max : Nat) : Except InputError Nat :=
  if max < value then .error (.outOfRange field value max) else .ok value

def did (r : EncodeRequest) : Except InputError Did :=
  if r.broadcast then .ok .broadcast
  else do
    let deviceClass ← checkRange "class" r.deviceClass Did.maxClass
    let subId ← checkRange "sub-id" r.subId Did.maxSubId
    return .ofParts deviceClass subId

def direction (r : EncodeRequest) : Direction := if r.response then .response else .query

/-- The payload of an attribute frame: only a read query carries no value. -/
def keyPayload (id : Id) (key : Key) (value : UInt32) : Frame :=
  if id.frameType = .readAttribute ∧ id.direction = .query then
    { Frame.readAttribute id.did key with id }
  else .keyValue id key value

/-- Builds the frame; other frames than attribute frames ignore the key. -/
def frame (r : EncodeRequest) : Except InputError Frame := do
  let did ← r.did
  let endpoint ← checkRange "endpoint" r.endpoint 3
  let id : Id := ⟨r.frameType, r.direction, did, .ofCode endpoint⟩
  match r.key with
  | some text =>
    if id.frameType.isAttribute then
      let key ← readKey text
      return keyPayload id key (r.value.getD 0)
    else framed id (← readBytes r.data)
  | none => framed id (← readBytes r.data)

end EncodeRequest

namespace Frame

def codeName (code : UInt32) : String :=
  match FaultKind.ofCode? code with
  | some kind => "(" ++ kind.name ++ ")"
  | none => "(unknown)"

/-- The identifier in hexadecimal, a number sign and the payload in upper case. -/
def dumpLine (f : Frame) : String :=
  String.ofList ((Hex.fixed 3 f.id.encode).map Char.toUpper) ++ "#" ++ Hex.upperText f.payload

def contentLines (f : Frame) : List String :=
  match f.error?, f.key? with
  | some (code, argument), _ =>
    ["  error      " ++ Hex.tagged 4 code.toNat ++ " " ++ codeName code,
      "  argument   " ++ Hex.tagged 8 argument.toNat]
  | none, some key =>
    ("  key        " ++ key.text) ::
      (f.value?.map fun v =>
        "  value      " ++ toString v.toNat ++ " (" ++ Hex.tagged 8 v.toNat ++ ")").toList
  | none, none => if f.payload.isEmpty then [] else ["  payload    " ++ Hex.text f.payload]

def lines (f : Frame) : List String :=
  [f.text,
    "  type       " ++ f.id.frameType.text,
    "  direction  " ++ f.id.direction.text,
    "  did        " ++ f.id.did.text ++ " (class " ++ toString f.id.did.deviceClass ++
      ", sub-id " ++ toString f.id.did.subId ++ ")",
    "  endpoint   " ++ f.id.endpoint.text] ++ f.contentLines

/-- The members of the report that tell what the frame carries, before and after `endpoint`. -/
def contentMembers (f : Frame) : List (String × Json) × List (String × Json) :=
  match f.error?, f.key? with
  | some (code, argument), _ =>
    ([], [("error", .object [
      ("arg", .ofNat argument.toNat),
      ("code", .ofNat code.toNat),
      ("name", .text (codeName code))])])
  | none, some key =>
    ([("attribute", .object [
      ("key", .ofNat key.raw.toNat),
      ("name", .ofOption .text key.name?),
      ("part", .ofNat key.part),
      ("value", .ofOption (fun v => .ofNat v.toNat) f.value?)])], [])
  | none, none => ([], [])

/-- The explanation of a frame as one value, with its members in order of name. -/
def report (f : Frame) : Json :=
  let (before, after) := f.contentMembers
  .object (before ++ [
    ("did", .object [
      ("broadcast", .bool f.id.did.isBroadcast),
      ("class", .ofNat f.id.did.deviceClass),
      ("raw", .ofNat f.id.did.raw),
      ("subid", .ofNat f.id.did.subId)]),
    ("direction", .text f.id.direction.text),
    ("endpoint", .text f.id.endpoint.text)] ++ after ++ [
    ("id", .ofNat f.id.encode),
    ("payload", .text (Hex.text f.payload)),
    ("type", .text f.id.frameType.text)])

end Frame

end Fieldbus
