import Fieldbus.Proofs.Device.Attributes
import Fieldbus.Proofs.Device.Response

namespace Fieldbus

namespace Device

variable {α : Type} {d : Device α} {endpoint : Endpoint}

/-- The frame that carries what was filled in. -/
def telemetryFrame (d : Device α) (endpoint : Endpoint) (reading : Reading) :
    Except Fault Frame :=
  match reading.payload? with
  | none => .error .invalidArgument
  | some payload => Frame.telemetryResponse d.did endpoint payload

theorem telemetryFrame_of_long {reading : Reading} (long : 8 < reading.length) :
    d.telemetryFrame endpoint reading = .error .invalidArgument := by
  have hnone : reading.payload? = none := if_neg (by omega)
  rw [telemetryFrame, hnone]

theorem telemetryFrame_of_fits (d : Device α) (endpoint : Endpoint) {reading : Reading}
    (fits : reading.length ≤ 8) :
    ∃ frame, d.telemetryFrame endpoint reading = .ok frame ∧
      frame.id = .response .telemetry d.did endpoint ∧
      frame.payload = reading.buffer.toList.take reading.length := by
  have hsome : reading.payload? = some (reading.buffer.toList.take reading.length) := if_pos fits
  have hlength : (reading.buffer.toList.take reading.length).length ≤ 8 := by
    rw [List.length_take]
    omega
  refine ⟨⟨.response .telemetry d.did endpoint, _, hlength⟩, ?_, rfl, rfl⟩
  rw [telemetryFrame, hsome]
  exact dif_pos hlength

/-- The same device, but for the counters of its system section. -/
structure Counted (d e : Device α) : Prop where
  same : e = { d with system := e.system }
  time : e.system.time = d.system.time
  startTime : e.system.startTime = d.system.startTime
  uptimeSynced : e.system.uptimeSynced = d.system.uptimeSynced

theorem counted_countReceived (d : Device α) (frameType : FrameType) :
    d.Counted (d.countReceived frameType) := by
  cases frameType <;> exact ⟨rfl, rfl, rfl, rfl⟩

theorem counted_countSent (d : Device α) (frame : Frame) : d.Counted (d.countSent frame) :=
  ⟨rfl, rfl, rfl, rfl⟩

variable [Application α]

/-- What the command handler makes of a command, if there is one. -/
def commanded (d : Device α) (endpoint : Endpoint) (payload : List UInt8) :
    Except Fault Unit × α :=
  if d.capabilities.command then Application.command d.app endpoint payload
  else (.error .handlerMissing, d.app)

/-- What the telemetry handler fills in, if there is one. -/
def measured (d : Device α) (endpoint : Endpoint) : Except Fault Reading × α :=
  if d.capabilities.telemetry then Application.telemetry d.app endpoint
  else (.error .handlerMissing, d.app)

/-- The device that has asked for telemetry. -/
def afterMeasuring (d : Device α) (endpoint : Endpoint) : Device α :=
  { d with
    app := (d.measured endpoint).2
    system := { d.system with lastTelemetryError := errorRegister (d.measured endpoint).1 } }

def measuringCalls (d : Device α) (endpoint : Endpoint) : List DeviceAct :=
  if d.capabilities.telemetry then [.call (.telemetry endpoint)] else []

theorem runCommand_eq (d : Device α) (endpoint : Endpoint) (payload : List UInt8) :
    d.runCommand endpoint payload =
      ⟨(d.commanded endpoint payload).1,
        { d with
          app := (d.commanded endpoint payload).2
          system := { d.system with
            lastCommandError := errorRegister (d.commanded endpoint payload).1 } },
        if d.capabilities.command then [.call (.command endpoint payload)] else []⟩ := by
  cases h : d.capabilities.command <;> simp [runCommand, commanded, h]

theorem buildTelemetry_eq (d : Device α) (endpoint : Endpoint) :
    d.buildTelemetry endpoint =
      match (d.measured endpoint).1 >>= d.telemetryFrame endpoint with
      | .error fault => ⟨.error fault, d.afterMeasuring endpoint, d.measuringCalls endpoint⟩
      | .ok frame =>
        ⟨.ok frame,
          { d.afterMeasuring endpoint with
            lastTelemetry := some d.now
            system := { (d.afterMeasuring endpoint).system with lastTelemetry := d.system.time } },
          d.measuringCalls endpoint⟩ := by
  cases h : d.capabilities.telemetry <;>
    simp [buildTelemetry, measured, afterMeasuring, measuringCalls, h] <;> rfl

/-- What building telemetry comes to. -/
inductive Measuring (d : Device α) (endpoint : Endpoint) : Outcome α (Except Fault Frame) → Prop
  | failed (fault : Fault) (told : (d.measured endpoint).1 = .error fault) :
      Measuring d endpoint ⟨.error fault, d.afterMeasuring endpoint, d.measuringCalls endpoint⟩
  | oversized (reading : Reading) (told : (d.measured endpoint).1 = .ok reading)
      (long : 8 < reading.length) :
      Measuring d endpoint
        ⟨.error .invalidArgument, d.afterMeasuring endpoint, d.measuringCalls endpoint⟩
  | built (reading : Reading) (frame : Frame) (told : (d.measured endpoint).1 = .ok reading)
      (fits : reading.length ≤ 8) (id : frame.id = .response .telemetry d.did endpoint)
      (payload : frame.payload = reading.buffer.toList.take reading.length) :
      Measuring d endpoint
        ⟨.ok frame,
          { d.afterMeasuring endpoint with
            lastTelemetry := some d.now
            system := { (d.afterMeasuring endpoint).system with lastTelemetry := d.system.time } },
          d.measuringCalls endpoint⟩

theorem measuring (d : Device α) (endpoint : Endpoint) :
    Measuring d endpoint (d.buildTelemetry endpoint) := by
  rw [buildTelemetry_eq]
  cases told : (d.measured endpoint).1 with
  | error fault => exact .failed fault told
  | ok reading =>
    rcases Nat.lt_or_ge 8 reading.length with long | fits
    · simp only [bind, Except.bind, telemetryFrame_of_long long]
      exact .oversized reading told long
    · obtain ⟨frame, hframe, hid, hpayload⟩ := telemetryFrame_of_fits d endpoint fits
      simp only [bind, Except.bind, hframe]
      exact .built reading frame told fits hid hpayload

/-- What dispatching a query comes to, by the steps that it goes through. -/
inductive Dispatching (d : Device α) (query : Frame) : Outcome α (Except Fault Frame) → Prop
  | commandFailed (fault : Fault) (e : Device α) (acts : List DeviceAct)
      (type : query.id.frameType = .command)
      (ran : d.runCommand query.id.endpoint query.payload = ⟨.error fault, e, acts⟩) :
      Dispatching d query ⟨.error fault, e, acts⟩
  | command (e : Device α) (acts : List DeviceAct) (type : query.id.frameType = .command)
      (ran : d.runCommand query.id.endpoint query.payload = ⟨.ok (), e, acts⟩) :
      Dispatching d query
        { e.buildTelemetry query.id.endpoint with
          acts := acts ++ (e.buildTelemetry query.id.endpoint).acts }
  | telemetry (type : query.id.frameType = .telemetry) :
      Dispatching d query (d.buildTelemetry query.id.endpoint)
  | malformed (type : query.id.frameType.isAttribute = true)
      (cut : query.key? = none ∨ query.id.frameType = .writeAttribute ∧ query.value? = none) :
      Dispatching d query ⟨.error .invalidArgument, d, []⟩
  | read (key : Key) (type : query.id.frameType = .readAttribute) (asked : query.key? = some key) :
      Dispatching d query
        { d.readAttribute key with
          result := (d.readAttribute key).result.map (.attributeResponse d.did key) }
  | writeFailed (key : Key) (value : UInt32) (fault : Fault) (e : Device α)
      (acts : List DeviceAct) (type : query.id.frameType = .writeAttribute)
      (asked : query.key? = some key) (given : query.value? = some value)
      (wrote : d.writeAttribute key value = ⟨.error fault, e, acts⟩) :
      Dispatching d query ⟨.error fault, e, acts⟩
  | write (key : Key) (value : UInt32) (e : Device α) (acts : List DeviceAct)
      (type : query.id.frameType = .writeAttribute) (asked : query.key? = some key)
      (given : query.value? = some value)
      (wrote : d.writeAttribute key value = ⟨.ok (), e, acts⟩) :
      Dispatching d query
        { e.readAttribute key with
          result := (e.readAttribute key).result.map (.attributeResponse d.did key)
          acts := acts ++ (e.readAttribute key).acts }

theorem dispatching (d : Device α) (query : Frame) : Dispatching d query (d.dispatch query) := by
  unfold dispatch
  split
  next type =>
    rcases ran : d.runCommand query.id.endpoint query.payload with ⟨result, e, acts⟩
    cases result with
    | error fault =>
      simp only [answerCommand, ran]
      exact .commandFailed fault e acts type ran
    | ok _ =>
      simp only [answerCommand, ran]
      exact .command e acts type ran
  next type => exact .telemetry type
  next type =>
    cases asked : query.key? with
    | none =>
      simp only [answerWrite, asked]
      exact .malformed (by rw [type]; rfl) (Or.inl asked)
    | some key =>
      cases given : query.value? with
      | none =>
        simp only [answerWrite, asked, given]
        exact .malformed (by rw [type]; rfl) (Or.inr ⟨type, given⟩)
      | some value =>
        rcases wrote : d.writeAttribute key value with ⟨result, e, acts⟩
        cases result with
        | error fault =>
          simp only [answerWrite, asked, given, wrote]
          exact .writeFailed key value fault e acts type asked given wrote
        | ok _ =>
          simp only [answerWrite, asked, given, wrote]
          exact .write key value e acts type asked given wrote
  next type =>
    cases asked : query.key? with
    | none =>
      simp only [answerRead, asked]
      exact .malformed (by rw [type]; rfl) (Or.inl asked)
    | some key =>
      simp only [answerRead, asked]
      exact .read key type asked

/-- The error response to a query. -/
def refusal (d : Device α) (query : Frame) (fault : Fault) : Frame :=
  .errorResponse d.did query.id.frameType query.id.endpoint fault.code query.argument

/-- What handling a frame comes to. -/
inductive Handling (d : Device α) (query : Frame) : Outcome α (Option Frame) → Prop
  | ignored (other : ¬(query.id.isQuery = true ∧ d.did.concerns query.did = true)) :
      Handling d query ⟨none, d.countIgnored, []⟩
  | answered (answer : Frame) (e : Device α) (acts : List DeviceAct)
      (concerned : query.id.isQuery = true ∧ d.did.concerns query.did = true)
      (done : (d.countReceived query.id.frameType).dispatch query = ⟨.ok answer, e, acts⟩) :
      Handling d query ⟨some answer, e.countSent answer, .handling query :: acts⟩
  | reported (fault : Fault) (e : Device α) (acts : List DeviceAct)
      (concerned : query.id.isQuery = true ∧ d.did.concerns query.did = true)
      (failed : (d.countReceived query.id.frameType).dispatch query = ⟨.error fault, e, acts⟩)
      (allowed : e.config.errorResponse = true) :
      Handling d query ⟨some (d.refusal query fault), e.countSent (d.refusal query fault),
        .handling query :: acts ++ [.rejected fault]⟩
  | silenced (fault : Fault) (e : Device α) (acts : List DeviceAct)
      (concerned : query.id.isQuery = true ∧ d.did.concerns query.did = true)
      (failed : (d.countReceived query.id.frameType).dispatch query = ⟨.error fault, e, acts⟩)
      (forbidden : e.config.errorResponse = false) :
      Handling d query ⟨none, e, .handling query :: acts ++ [.silenced fault]⟩

theorem handling (d : Device α) (query : Frame) : Handling d query (d.handle query) := by
  unfold handle
  split
  next concerned =>
    rw [Bool.and_eq_true] at concerned
    rcases done : (d.countReceived query.id.frameType).dispatch query with ⟨result, e, acts⟩
    cases result with
    | ok answer => exact .answered answer e acts concerned done
    | error fault =>
      cases allowed : e.config.errorResponse with
      | true =>
        simpa [allowed, refusal, Frame.argument] using
          Handling.reported fault e acts concerned done allowed
      | false => simpa [allowed] using Handling.silenced fault e acts concerned done allowed
  next other => exact .ignored (by simpa only [Bool.and_eq_true] using other)

theorem handle_of_other {query : Frame}
    (other : ¬(query.id.isQuery = true ∧ d.did.concerns query.did = true)) :
    d.handle query = ⟨none, d.countIgnored, []⟩ :=
  if_neg (by simpa only [Bool.and_eq_true] using other)

/-- Once a query has been dispatched, its handling counts a response at most. -/
theorem Handling.device {query : Frame} {out : Outcome α (Option Frame)} (h : d.Handling query out)
    (concerned : query.id.isQuery = true ∧ d.did.concerns query.did = true) :
    let done := (d.countReceived query.id.frameType).dispatch query
    out.device = done.device ∨ ∃ response, out.device = done.device.countSent response := by
  cases h with
  | ignored other => exact absurd concerned other
  | answered answer e acts _ done =>
    rw [done]
    exact Or.inr ⟨answer, rfl⟩
  | reported fault e acts _ failed _ =>
    rw [failed]
    exact Or.inr ⟨d.refusal query fault, rfl⟩
  | silenced fault e acts _ failed _ =>
    rw [failed]
    exact Or.inl rfl

theorem Handling.counted {query : Frame} {out : Outcome α (Option Frame)}
    (h : d.Handling query out) (isQuery : query.id.isQuery = true)
    (concerned : d.did.concerns query.did = true) :
    ((d.countReceived query.id.frameType).dispatch query).device.Counted out.device := by
  rcases h.device ⟨isQuery, concerned⟩ with same | ⟨response, sent⟩
  · rw [same]
    exact ⟨rfl, rfl, rfl, rfl⟩
  · rw [sent]
    exact counted_countSent _ response

end Device

end Fieldbus
