import Fieldbus.Device.Attributes

namespace Fieldbus

/-- The number that an error register keeps of a result: zero for success. -/
def errorRegister : Except Fault β → UInt16
  | .ok _ => 0
  | .error fault => fault.code.toUInt16

namespace Device

def runCommand [Application α] (d : Device α) (endpoint : Endpoint) (payload : List UInt8) :
    Outcome α (Except Fault Unit) :=
  let (result, app, acts) :=
    if d.capabilities.command then
      let (result, app) := Application.command d.app endpoint payload
      (result, app, [DeviceAct.call (.command endpoint payload)])
    else (.error .handlerMissing, d.app, [])
  ⟨result, { d with app, system := { d.system with lastCommandError := errorRegister result } },
    acts⟩

/-- Builds telemetry; the error register notes how the handler ended. -/
def buildTelemetry [Application α] (d : Device α) (endpoint : Endpoint) :
    Outcome α (Except Fault Frame) :=
  let (reading, app, acts) :=
    if d.capabilities.telemetry then
      let (reading, app) := Application.telemetry d.app endpoint
      (reading, app, [DeviceAct.call (.telemetry endpoint)])
    else (.error .handlerMissing, d.app, [])
  let d := { d with app, system := { d.system with lastTelemetryError := errorRegister reading } }
  let frame := do
    let reading ← reading
    match reading.payload? with
    | none => .error .invalidArgument
    | some payload => Frame.telemetryResponse d.did endpoint payload
  match frame with
  | .error fault => ⟨.error fault, d, acts⟩
  | .ok frame =>
    ⟨.ok frame,
      { d with
        lastTelemetry := some d.now
        system := { d.system with lastTelemetry := d.system.time } },
      acts⟩

def answerRead [Application α] (d : Device α) (query : Frame) : Outcome α (Except Fault Frame) :=
  match query.key? with
  | none => ⟨.error .invalidArgument, d, []⟩
  | some key =>
    let value := d.readAttribute key
    { value with result := value.result.map (.attributeResponse d.did key) }

/-- Answers a write query by the value that is read back. -/
def answerWrite [Application α] (d : Device α) (query : Frame) : Outcome α (Except Fault Frame) :=
  match query.key?, query.value? with
  | some key, some value =>
    let written := d.writeAttribute key value
    match written.result with
    | .error fault => { written with result := .error fault }
    | .ok () =>
      let back := written.device.readAttribute key
      { back with
        result := back.result.map (.attributeResponse d.did key)
        acts := written.acts ++ back.acts }
  | _, _ => ⟨.error .invalidArgument, d, []⟩

/-- Answers a command by telemetry of the same endpoint, unless the command fails. -/
def answerCommand [Application α] (d : Device α) (query : Frame) :
    Outcome α (Except Fault Frame) :=
  let done := d.runCommand query.id.endpoint query.payload
  match done.result with
  | .error fault => { done with result := .error fault }
  | .ok () =>
    let built := done.device.buildTelemetry query.id.endpoint
    { built with acts := done.acts ++ built.acts }

def countIgnored (d : Device α) : Device α :=
  { d with system := { d.system with receivedIgnored := d.system.receivedIgnored + 1 } }

def countReceived (d : Device α) (frameType : FrameType) : Device α :=
  let s := { d.system with receivedTotal := d.system.receivedTotal + 1 }
  { d with
    system :=
      match frameType with
      | .command => { s with receivedCommand := s.receivedCommand + 1 }
      | .telemetry => { s with receivedRequestTelemetry := s.receivedRequestTelemetry + 1 }
      | .writeAttribute => { s with receivedWriteAttribute := s.receivedWriteAttribute + 1 }
      | .readAttribute => { s with receivedReadAttribute := s.receivedReadAttribute + 1 } }

def countSent (d : Device α) (frame : Frame) : Device α :=
  { d with
    system := { d.system with
      sentTotal := d.system.sentTotal + 1
      sentTelemetry :=
        if frame.id.frameType = .telemetry then d.system.sentTelemetry + 1
        else d.system.sentTelemetry } }

def dispatch [Application α] (d : Device α) (query : Frame) : Outcome α (Except Fault Frame) :=
  match query.id.frameType with
  | .command => d.answerCommand query
  | .telemetry => d.buildTelemetry query.id.endpoint
  | .writeAttribute => d.answerWrite query
  | .readAttribute => d.answerRead query

/-- Handles a received frame: at most one response, an error frame if the settings allow it. -/
def handle [Application α] (d : Device α) (query : Frame) : Outcome α (Option Frame) :=
  if query.id.isQuery && d.did.concerns query.did then
    let done := (d.countReceived query.id.frameType).dispatch query
    let acts := .handling query :: done.acts
    match done.result with
    | .ok response => ⟨some response, done.device.countSent response, acts⟩
    | .error fault =>
      if done.device.config.errorResponse then
        let argument := (query.key?.map fun key => key.raw.toUInt32).getD 0
        let response :=
          Frame.errorResponse d.did query.id.frameType query.id.endpoint fault.code argument
        ⟨some response, done.device.countSent response, acts ++ [.rejected fault]⟩
      else ⟨none, done.device, acts ++ [.silenced fault]⟩
  else ⟨none, d.countIgnored, []⟩

end Device

end Fieldbus
