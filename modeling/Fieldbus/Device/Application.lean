import Fieldbus.Frame

namespace Fieldbus

/-- The optional handlers that an application offers. -/
structure Capabilities where
  command : Bool := false
  telemetry : Bool := false
  customAttributes : Bool := false
  configHooks : Bool := false
deriving DecidableEq

def Capabilities.full : Capabilities := ⟨true, true, true, true⟩

/-- A filled telemetry buffer and the number of its bytes to send, which may be too large. -/
structure Reading where
  buffer : Vector UInt8 8
  length : Nat

/-- The bytes to send, unless more were claimed than the buffer holds. -/
def Reading.payload? (r : Reading) : Option (List UInt8) :=
  if r.length ≤ 8 then some (r.buffer.toList.take r.length) else none

/-- The program that runs on a device; handlers without capability are never called. -/
class Application (α : Type) where
  capabilities : α → Capabilities
  command : α → Endpoint → List UInt8 → Except Fault Unit × α :=
    fun a _ _ => (.error .handlerMissing, a)
  telemetry : α → Endpoint → Except Fault Reading × α :=
    fun a _ => (.error .handlerMissing, a)
  readCustom : α → Key → Except Fault UInt32 × α :=
    fun a _ => (.error .noSuchCustomAttribute, a)
  writeCustom : α → Key → UInt32 → Except Fault Unit × α :=
    fun a _ _ => (.error .noSuchCustomAttribute, a)
  /-- Refreshes the settings before they are read; a change stays even when it fails. -/
  configRead : α → Config → Except Fault Unit × Config × α :=
    fun a c => (.ok (), c, a)
  /-- Accepts or rejects settings that were just written. -/
  configWritten : α → Config → Except Fault Unit × α :=
    fun a _ => (.ok (), a)

inductive Call
  | command (endpoint : Endpoint) (payload : List UInt8)
  | telemetry (endpoint : Endpoint)
  | readCustom (key : Key)
  | writeCustom (key : Key) (value : UInt32)
  | configRead
  | configWritten (config : Config)
deriving DecidableEq

end Fieldbus
