import Fieldbus.Text.Hex

namespace Fieldbus

inductive FaultKind
  | invalidArgument
  | unknownSection
  | unknownAttribute
  | unknownPart
  | noSuchCustomAttribute
  | readOnly
  | handlerMissing
  | invalidEndpoint
  | busy
  | poolExhausted
  | noSuchHandle
  | notSupported
  | notImplemented
  | driver
deriving DecidableEq, Repr

namespace FaultKind

def all : List FaultKind :=
  [invalidArgument, unknownSection, unknownAttribute, unknownPart, noSuchCustomAttribute, readOnly,
    handlerMissing, invalidEndpoint, busy, poolExhausted, noSuchHandle, notSupported,
    notImplemented, driver]

def code : FaultKind → UInt32
  | invalidArgument => 0x3A00
  | unknownSection => 0x3A01
  | unknownAttribute => 0x3A02
  | unknownPart => 0x3A03
  | noSuchCustomAttribute => 0x3A04
  | readOnly => 0x3A05
  | handlerMissing => 0x3A06
  | invalidEndpoint => 0x3A07
  | busy => 0x3A08
  | poolExhausted => 0x3A09
  | noSuchHandle => 0x3A0A
  | notSupported => 0x3A0B
  | notImplemented => 0x3A0C
  | driver => 0x3A0D

def ofCode? (code : UInt32) : Option FaultKind := all.find? fun k => k.code = code

def name : FaultKind → String
  | invalidArgument => "InvalidArgument"
  | unknownSection => "UnknownSection"
  | unknownAttribute => "UnknownAttribute"
  | unknownPart => "UnknownPart"
  | noSuchCustomAttribute => "NoSuchCustomAttribute"
  | readOnly => "ReadOnly"
  | handlerMissing => "HandlerMissing"
  | invalidEndpoint => "InvalidEndpoint"
  | busy => "Busy"
  | poolExhausted => "PoolExhausted"
  | noSuchHandle => "NoSuchHandle"
  | notSupported => "NotSupported"
  | notImplemented => "NotImplemented"
  | driver => "Driver"

theorem ofCode?_code (k : FaultKind) : ofCode? k.code = some k := by cases k <;> rfl

end FaultKind

/-- Why an operation failed, here or on the device that was asked. -/
inductive Fault
  | invalidArgument
  | unknownSection
  | unknownAttribute
  | unknownPart
  | noSuchCustomAttribute
  | readOnly
  | handlerMissing
  | invalidEndpoint
  | busy
  | poolExhausted
  | noSuchHandle
  | notSupported
  | notImplemented
  | driver (status : Int32)
  | remote (code argument : UInt32)
deriving DecidableEq

namespace Fault

def remoteBit : UInt32 := 0x0100

def kind? : Fault → Option FaultKind
  | invalidArgument => some .invalidArgument
  | unknownSection => some .unknownSection
  | unknownAttribute => some .unknownAttribute
  | unknownPart => some .unknownPart
  | noSuchCustomAttribute => some .noSuchCustomAttribute
  | readOnly => some .readOnly
  | handlerMissing => some .handlerMissing
  | invalidEndpoint => some .invalidEndpoint
  | busy => some .busy
  | poolExhausted => some .poolExhausted
  | noSuchHandle => some .noSuchHandle
  | notSupported => some .notSupported
  | notImplemented => some .notImplemented
  | driver _ => some .driver
  | remote _ _ => none

/-- The failure of a kind; a driver failure gets status zero. -/
def ofKind : FaultKind → Fault
  | .invalidArgument => invalidArgument
  | .unknownSection => unknownSection
  | .unknownAttribute => unknownAttribute
  | .unknownPart => unknownPart
  | .noSuchCustomAttribute => noSuchCustomAttribute
  | .readOnly => readOnly
  | .handlerMissing => handlerMissing
  | .invalidEndpoint => invalidEndpoint
  | .busy => busy
  | .poolExhausted => poolExhausted
  | .noSuchHandle => noSuchHandle
  | .notSupported => notSupported
  | .notImplemented => notImplemented
  | .driver => driver 0

def code : Fault → UInt32
  | remote code _ => code
  | invalidArgument => FaultKind.code .invalidArgument
  | unknownSection => FaultKind.code .unknownSection
  | unknownAttribute => FaultKind.code .unknownAttribute
  | unknownPart => FaultKind.code .unknownPart
  | noSuchCustomAttribute => FaultKind.code .noSuchCustomAttribute
  | readOnly => FaultKind.code .readOnly
  | handlerMissing => FaultKind.code .handlerMissing
  | invalidEndpoint => FaultKind.code .invalidEndpoint
  | busy => FaultKind.code .busy
  | poolExhausted => FaultKind.code .poolExhausted
  | noSuchHandle => FaultKind.code .noSuchHandle
  | notSupported => FaultKind.code .notSupported
  | notImplemented => FaultKind.code .notImplemented
  | driver _ => FaultKind.code .driver

/-- The failure that a device reported by an error frame. -/
def reported (code argument : UInt32) : Fault := remote (code ||| remoteBit) argument

def isRemote : Fault → Bool
  | remote _ _ => true
  | _ => false

def remoteCause? : Fault → Option FaultKind
  | remote code _ => FaultKind.ofCode? (code &&& ~~~remoteBit)
  | _ => none

/-- Codes from 0x3A00 to 0x3BFF are reserved for failures. -/
def isReserved (code : UInt32) : Bool := 0x3A00 ≤ code && code ≤ 0x3BFF

def name : Fault → String
  | remote _ _ => "Remote"
  | f => (f.kind?.map FaultKind.name).getD ""

def message : Fault → String
  | invalidArgument => "Invalid argument"
  | unknownSection => "Unknown attribute section"
  | unknownAttribute => "Unknown attribute"
  | unknownPart => "Unknown attribute part"
  | noSuchCustomAttribute => "No such custom attribute"
  | readOnly => "Attribute is read-only"
  | handlerMissing => "No handler registered for this request"
  | invalidEndpoint => "Invalid endpoint"
  | busy => "Device busy: a query is already pending for this device"
  | poolExhausted => "Pending query pool exhausted"
  | noSuchHandle => "No such pending query handle"
  | notSupported => "Operation not supported"
  | notImplemented => "Not implemented"
  | driver status => "Driver error: " ++ toString status.toInt
  | remote code argument =>
    "Device error " ++ Hex.tagged 4 code.toNat ++ " (argument " ++
      Hex.tagged 8 argument.toNat ++ ")"

def debugText : Fault → String
  | driver status => "Driver(" ++ toString status.toInt ++ ")"
  | remote code argument =>
    "Remote \x7b code: " ++ toString code.toNat ++ ", arg: " ++ toString argument.toNat ++ " \x7d"
  | f => f.name

end Fault

end Fieldbus
