import Fieldbus.Device.Basic

namespace Fieldbus

namespace Device

/-- Lets the application refresh the settings, when it asked for that. -/
def refreshConfig [Application α] (d : Device α) : Outcome α (Except Fault Unit) :=
  if d.capabilities.configHooks then
    let (result, config, app) := Application.configRead d.app d.config
    ⟨result, { d with config, app }, [.call .configRead]⟩
  else ⟨.ok (), d, []⟩

/-- Reads an attribute; keys outside the standard sections go to the application. -/
def readAttribute [Application α] (d : Device α) (key : Key) : Outcome α (Except Fault UInt32) :=
  match key.resolve with
  | .ok w =>
    match w.target with
    | .identification => ⟨.ok (w.read d.identification.toBytes), d, []⟩
    | .system => ⟨.ok (w.read d.system.toBytes), d, []⟩
    | .config =>
      let refreshed := d.refreshConfig
      { refreshed with
        result := refreshed.result.map fun _ => w.read refreshed.device.config.toBytes }
  | .error fault =>
    if fault = .unknownSection ∧ d.capabilities.customAttributes then
      let (result, app) := Application.readCustom d.app key
      ⟨result, { d with app }, [.call (.readCustom key)]⟩
    else ⟨.error fault, d, []⟩

/-- Moves the start time so that the uptime stays, and remembers to set the platform clock. -/
def timeWritten (d : Device α) (secs : UInt32) : Device α :=
  let uptime := d.system.uptime
  { d with
    pendingSync := some secs
    system := { d.system with
      startTime := if uptime ≤ secs then secs - uptime else 0
      uptimeSynced := uptime } }

/-- Stores settings; the application may reject them, which brings the old ones back. -/
def storeConfig [Application α] (d : Device α) (config : Config) :
    Outcome α (Except Fault Unit) :=
  if d.capabilities.configHooks then
    let (result, app) := Application.configWritten d.app config
    let kept := match result with
      | .ok _ => config
      | .error _ => d.config
    ⟨result, { d with config := kept, app }, [.call (.configWritten config)]⟩
  else ⟨.ok (), { d with config }, []⟩

/-- Writes an attribute; keys outside the standard sections go to the application. -/
def writeAttribute [Application α] (d : Device α) (key : Key) (value : UInt32) :
    Outcome α (Except Fault Unit) :=
  match key.resolve with
  | .ok w =>
    if w.readOnly then ⟨.error .readOnly, d, []⟩
    else
      match w.target with
      | .identification => ⟨.error .readOnly, d, []⟩
      | .system =>
        let d := { d with system := .ofBytes (w.write d.system.toBytes value) }
        ⟨.ok (), if key.fieldIndex = Key.time.fieldIndex then d.timeWritten value else d, []⟩
      | .config => d.storeConfig (.ofBytes (w.write d.config.toBytes value))
  | .error fault =>
    if fault = .unknownSection ∧ d.capabilities.customAttributes then
      let (result, app) := Application.writeCustom d.app key value
      ⟨result, { d with app }, [.call (.writeCustom key value)]⟩
    else ⟨.error fault, d, []⟩

end Device

end Fieldbus
