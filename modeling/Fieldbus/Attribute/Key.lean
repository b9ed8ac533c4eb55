import Fieldbus.Attribute.Records
import Fieldbus.Fault

namespace Fieldbus

inductive Section
  | identification
  | system
  | config
deriving DecidableEq, Repr

/-- An attribute of a section; a section stores its attributes one after the other. -/
structure Field where
  name : String
  size : Nat
  readOnly : Bool
deriving DecidableEq, Repr

def Field.totalSize : List Field → Nat
  | [] => 0
  | f :: rest => f.size + totalSize rest

namespace Section

def code : Section → Nat
  | identification => 0
  | system => 1
  | config => 2

def ofCode? : Nat → Option Section
  | 0 => some identification
  | 1 => some system
  | 2 => some config
  | _ => none

def text : Section → String
  | identification => "identification"
  | system => "system"
  | config => "config"

def all : List Section := [identification, system, config]

def fields : Section → List Field
  | identification =>
    [⟨"did", 1, true⟩, ⟨"version", 2, true⟩, ⟨"name", 32, true⟩, ⟨"magic_number", 4, true⟩,
      ⟨"build_date", 4, true⟩, ⟨"build_commit", 20, true⟩, ⟨"features", 4, true⟩]
  | system =>
    [⟨"uptime_synced", 4, true⟩, ⟨"time", 4, false⟩, ⟨"uptime", 4, true⟩,
      ⟨"start_time", 4, true⟩, ⟨"last_telemetry", 4, true⟩, ⟨"received.total", 4, true⟩,
      ⟨"received.read_attribute", 4, true⟩, ⟨"received.write_attribute", 4, true⟩,
      ⟨"received.command", 4, true⟩, ⟨"received.request_telemetry", 4, true⟩,
      ⟨"received.ignored", 4, true⟩, ⟨"sent.total", 4, true⟩, ⟨"sent.telemetry", 4, true⟩,
      ⟨"last_command_error", 2, true⟩, ⟨"last_telemetry_error", 2, true⟩, ⟨"battery", 1, true⟩]
  | config =>
    [⟨"telemetry.period", 4, false⟩, ⟨"telemetry.delay", 2, false⟩,
      ⟨"telemetry.delay_min", 2, false⟩, ⟨"telemetry.delay_max", 2, false⟩, ⟨"flags", 1, false⟩,
      ⟨"timezone", 4, false⟩, ⟨"location.region", 2, false⟩, ⟨"location.country", 2, false⟩,
      ⟨"class_config", 32, false⟩]

def offset (s : Section) (index : Nat) : Nat := Field.totalSize (s.fields.take index)

def size (s : Section) : Nat := Field.totalSize s.fields

end Section

/-- The address of an attribute: section (4 bits), attribute (8 bits), part (4 bits). -/
@[ext] structure Key where
  raw : UInt16
deriving DecidableEq

namespace Key

/-- Bits above the width of a component are dropped. -/
def ofParts (sectionCode fieldIndex part : Nat) : Key :=
  ⟨UInt16.ofNat (4096 * (sectionCode % 16) + 16 * (fieldIndex % 256) + part % 16)⟩

def sectionCode (k : Key) : Nat := k.raw.toNat / 4096

def fieldIndex (k : Key) : Nat := k.raw.toNat / 16 % 256

def part (k : Key) : Nat := k.raw.toNat % 16

def withPart (k : Key) (part : Nat) : Key :=
  ⟨UInt16.ofNat (16 * (k.raw.toNat / 16) + part % 16)⟩

/-- The first of the two errors that keeps a key from naming a field. -/
def field? (k : Key) : Except Fault (Section × Field) :=
  match Section.ofCode? k.sectionCode with
  | none => .error .unknownSection
  | some s =>
    match s.fields[k.fieldIndex]? with
    | none => .error .unknownAttribute
    | some f => .ok (s, f)

def name? (k : Key) : Option String := (k.field?.toOption).map fun sf => sf.2.name

def isStandard (k : Key) : Bool := (Section.ofCode? k.sectionCode).isSome

def text (k : Key) : String :=
  match k.name? with
  | some name => Hex.tagged 4 k.raw.toNat ++ " (" ++ name ++ "[" ++ toString k.part ++ "])"
  | none => Hex.tagged 4 k.raw.toNat

def debugText (k : Key) : String := "AttributeKey(" ++ Hex.tagged 4 k.raw.toNat ++ ")"

def standard : List Key :=
  Section.all.flatMap fun s => (List.range s.fields.length).map fun i => ofParts s.code i 0

def time : Key := ofParts 1 1 0

def uptime : Key := ofParts 1 2 0

def name : Key := ofParts 0 2 0

end Key

def partSize : Nat := 4

structure Window where
  target : Section
  offset : Nat
  size : Nat
  readOnly : Bool
deriving DecidableEq, Repr

namespace Window

def stop (w : Window) : Nat := w.offset + w.size

/-- The value in the window, filled with zeros above. -/
def read (w : Window) (bytes : List UInt8) : UInt32 :=
  UInt32.ofNat (ofLeBytes (window w.offset w.size bytes))

/-- Puts the low bytes of a value into the window. -/
def write (w : Window) (bytes : List UInt8) (value : UInt32) : List UInt8 :=
  overwrite w.offset (leBytes w.size value.toNat) bytes

end Window

namespace Key

/-- The window of a standard attribute; its last part may be shorter than the others. -/
def resolve (k : Key) : Except Fault Window := do
  let (target, field) ← k.field?
  let skipped := partSize * k.part
  if field.size ≤ skipped then throw .unknownPart
  return {
    target
    offset := target.offset k.fieldIndex + skipped
    size := min (field.size - skipped) partSize
    readOnly := field.readOnly }

def partCount (k : Key) : Except Fault Nat :=
  k.field?.map fun sf => (sf.2.size + partSize - 1) / partSize

end Key

end Fieldbus
