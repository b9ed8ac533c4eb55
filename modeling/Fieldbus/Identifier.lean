namespace Fieldbus

inductive FrameType
  | command
  | telemetry
  | writeAttribute
  | readAttribute
deriving DecidableEq, Repr

namespace FrameType

def code : FrameType → Nat
  | command => 0
  | telemetry => 1
  | writeAttribute => 2
  | readAttribute => 3

/-- Numbers above three stand for a command. -/
def ofCode : Nat → FrameType
  | 1 => telemetry
  | 2 => writeAttribute
  | 3 => readAttribute
  | _ => command

def text : FrameType → String
  | command => "command"
  | telemetry => "telemetry"
  | writeAttribute => "write-attribute"
  | readAttribute => "read-attribute"

def name : FrameType → String
  | command => "Command"
  | telemetry => "Telemetry"
  | writeAttribute => "WriteAttribute"
  | readAttribute => "ReadAttribute"

def isAttribute : FrameType → Bool
  | command | telemetry => false
  | writeAttribute | readAttribute => true

/-- The type of the frame by which a device reports that such a query failed. -/
def errorType : FrameType → FrameType
  | command | telemetry => command
  | writeAttribute | readAttribute => writeAttribute

theorem code_lt (t : FrameType) : t.code < 4 := by cases t <;> decide

@[simp] theorem ofCode_code (t : FrameType) : ofCode t.code = t := by cases t <;> rfl

end FrameType

inductive Direction
  | query
  | response
deriving DecidableEq, Repr

namespace Direction

def code : Direction → Nat
  | query => 0
  | response => 1

/-- Numbers above one stand for a query. -/
def ofCode : Nat → Direction
  | 1 => response
  | _ => query

def text : Direction → String
  | query => "query"
  | response => "response"

def name : Direction → String
  | query => "Query"
  | response => "Response"

theorem code_lt (d : Direction) : d.code < 2 := by cases d <;> decide

@[simp] theorem ofCode_code (d : Direction) : ofCode d.code = d := by cases d <;> rfl

end Direction

inductive Endpoint
  | app
  | ep1
  | ep2
  | boardControl
deriving DecidableEq, Repr

namespace Endpoint

def code : Endpoint → Nat
  | app => 0
  | ep1 => 1
  | ep2 => 2
  | boardControl => 3

/-- Numbers above three stand for the application endpoint. -/
def ofCode : Nat → Endpoint
  | 1 => ep1
  | 2 => ep2
  | 3 => boardControl
  | _ => app

def text : Endpoint → String
  | app => "app"
  | ep1 => "ep-1"
  | ep2 => "ep-2"
  | boardControl => "board-control"

def name : Endpoint → String
  | app => "App"
  | ep1 => "Ep1"
  | ep2 => "Ep2"
  | boardControl => "BoardControl"

theorem code_lt (e : Endpoint) : e.code < 4 := by cases e <;> decide

@[simp] theorem ofCode_code (e : Endpoint) : ofCode e.code = e := by cases e <;> rfl

end Endpoint

/-- A device address of six bits: the class in the low three, the sub-id in the high three. -/
@[ext] structure Did where
  raw : Nat
  raw_lt : raw < 64
deriving DecidableEq

namespace Did

def ofRaw (n : Nat) : Did := ⟨n % 64, Nat.mod_lt n (by decide)⟩

/-- The address with the low three bits of a class and of a sub-id. -/
def ofParts (deviceClass subId : Nat) : Did := ofRaw (deviceClass % 8 + 8 * (subId % 8))

def deviceClass (d : Did) : Nat := d.raw % 8

def subId (d : Did) : Nat := d.raw / 8

def maxClass : Nat := 7

def maxSubId : Nat := 7

/-- The address that every device listens to. -/
def broadcast : Did := ⟨63, by decide⟩

def isBroadcast (d : Did) : Bool := d = broadcast

def all : List Did := (List.range 64).map ofRaw

/-- A frame sent to `incoming` concerns the device at `target`. -/
def concerns (target incoming : Did) : Bool := incoming = target || incoming.isBroadcast

def text (d : Did) : String :=
  if d.isBroadcast then "broadcast" else toString d.deviceClass ++ ":" ++ toString d.subId

def debugText (d : Did) : String :=
  "Did(" ++ toString d.deviceClass ++ ", " ++ toString d.subId ++ ")"

@[simp] theorem ofRaw_raw (d : Did) : ofRaw d.raw = d :=
  Did.ext (Nat.mod_eq_of_lt d.raw_lt)

theorem deviceClass_lt (d : Did) : d.deviceClass < 8 := Nat.mod_lt d.raw (by decide)

theorem subId_lt (d : Did) : d.subId < 8 := by
  have h := d.raw_lt
  unfold subId
  omega

@[simp] theorem ofParts_deviceClass_subId (d : Did) : ofParts d.deviceClass d.subId = d := by
  have h := d.raw_lt
  apply Did.ext
  simp only [ofParts, ofRaw, deviceClass, subId]
  omega

end Did

/-- An eleven-bit bus identifier, field by field. -/
structure Id where
  frameType : FrameType
  direction : Direction
  did : Did
  endpoint : Endpoint
deriving DecidableEq

namespace Id

def maxRaw : Nat := 2047

def query (frameType : FrameType) (did : Did) (endpoint : Endpoint) : Id :=
  ⟨frameType, .query, did, endpoint⟩

def response (frameType : FrameType) (did : Did) (endpoint : Endpoint) : Id :=
  ⟨frameType, .response, did, endpoint⟩

/-- From the low bits up: type (2), direction (1), address (6), endpoint (2). -/
def encode (i : Id) : Nat :=
  i.frameType.code + 4 * i.direction.code + 8 * i.did.raw + 512 * i.endpoint.code

def decode (n : Nat) : Id where
  frameType := .ofCode (n % 4)
  direction := .ofCode (n / 4 % 2)
  did := .ofRaw (n / 8)
  endpoint := .ofCode (n / 512 % 4)

def isQuery (i : Id) : Bool := i.direction = .query

def isResponse (i : Id) : Bool := i.direction = .response

/-- Responses of type command and write-attribute report a failed query. -/
def isError (i : Id) : Bool :=
  i.isResponse && (i.frameType = .command || i.frameType = .writeAttribute)

def debugText (i : Id) : String :=
  "Id \x7b frame_type: " ++ i.frameType.name ++ ", direction: " ++ i.direction.name ++
    ", did: " ++ i.did.debugText ++ ", endpoint: " ++ i.endpoint.name ++ " \x7d"

theorem encode_lt (i : Id) : i.encode < 2048 := by
  have := i.frameType.code_lt
  have := i.direction.code_lt
  have := i.did.raw_lt
  have := i.endpoint.code_lt
  unfold encode
  omega

theorem decode_encode (i : Id) : decode i.encode = i := by
  have ht := i.frameType.code_lt
  have hd := i.direction.code_lt
  have ha := i.did.raw_lt
  have he := i.endpoint.code_lt
  have h1 : i.encode % 4 = i.frameType.code := by unfold encode; omega
  have h2 : i.encode / 4 % 2 = i.direction.code := by unfold encode; omega
  have h3 : i.encode / 8 % 64 = i.did.raw := by unfold encode; omega
  have h4 : i.encode / 512 % 4 = i.endpoint.code := by unfold encode; omega
  have h5 : Did.ofRaw (i.encode / 8) = i.did := Did.ext h3
  simp only [decode, h1, h2, h4, h5, FrameType.ofCode_code, Direction.ofCode_code,
    Endpoint.ofCode_code]

end Id

end Fieldbus
