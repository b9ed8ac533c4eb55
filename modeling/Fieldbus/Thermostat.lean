import Fieldbus.Device.Application
import Fieldbus.Text.Numeral

namespace Fieldbus

/-- A heater behind relay 0; temperatures are in hundredths of a degree. -/
structure Thermostat where
  temperature : Int
  setpoint : Int := 2000
  relays : UInt8 := 0
  ticks : UInt16 := 0
deriving DecidableEq

def Key.setpoint : Key := ofParts 10 0 0

def signedBytes (n : Int) : List UInt8 := leBytes 2 (n % 65536).toNat

def signed16 (offset : Nat) (bytes : List UInt8) : Int := (word16 offset bytes).toInt16.toInt

namespace Thermostat

def heating (t : Thermostat) : Bool := t.relays &&& 1 ≠ 0

/-- Every twentieth step warms up to 40 degrees or cools down to -10. -/
def step (t : Thermostat) : Thermostat :=
  let t := { t with ticks := t.ticks + 1 }
  if t.ticks % 20 ≠ 0 then t
  else if t.heating then { t with temperature := min (t.temperature + 5) 4000 }
  else { t with temperature := max (t.temperature - 3) (-1000) }

/-- Switches the relays, or restarts the ticks through the board. -/
def command (t : Thermostat) : Endpoint → List UInt8 → Except Fault Unit × Thermostat
  | .app, relays :: _ => (.ok (), { t with relays })
  | .app, [] => (.error .invalidArgument, t)
  | .boardControl, _ => (.ok (), { t with ticks := 0 })
  | _, _ => (.error .invalidEndpoint, t)

def telemetry (t : Thermostat) : Endpoint → Except Fault (List UInt8)
  | .app => .ok (signedBytes t.temperature ++ [t.relays] ++ leBytes 2 t.ticks.toNat)
  | .ep1 => .ok (signedBytes t.setpoint)
  | _ => .error .invalidEndpoint

def readCustom (t : Thermostat) (key : Key) : Except Fault UInt32 :=
  if key = .setpoint then .ok (UInt32.ofNat (t.setpoint % 65536).toNat)
  else .error .noSuchCustomAttribute

/-- A setpoint has to fit in fifteen bits. -/
def writeCustom (t : Thermostat) (key : Key) (value : UInt32) : Except Fault Unit × Thermostat :=
  if key = .setpoint then
    if value < 32768 then (.ok (), { t with setpoint := value.toNat })
    else (.error .invalidArgument, t)
  else (.error .noSuchCustomAttribute, t)

end Thermostat

instance : Application Thermostat where
  capabilities _ := ⟨true, true, true, false⟩
  command := Thermostat.command
  telemetry t endpoint :=
    ((t.telemetry endpoint).map fun bytes => ⟨fitBytes 8 bytes, bytes.length⟩, t)
  readCustom t key := (t.readCustom key, t)
  writeCustom := Thermostat.writeCustom

def describeTelemetry (f : Frame) : Option String :=
  if f.id.frameType ≠ .telemetry then none
  else if f.id.endpoint = .app ∧ 5 ≤ f.payload.length then
    some (hundredthsText (signed16 0 f.payload) ++ " °C, relays " ++
      Hex.tagged 2 (word8 2 f.payload).toNat ++ ", tick " ++
      toString (word16 3 f.payload).toNat)
  else if f.id.endpoint = .ep1 ∧ 2 ≤ f.payload.length then
    some ("setpoint " ++ hundredthsText (signed16 0 f.payload) ++ " °C")
  else none

end Fieldbus
