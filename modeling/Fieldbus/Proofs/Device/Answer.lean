import Fieldbus.Proofs.Device.Dispatch

namespace Fieldbus

/-- What a device has to tell: measurements of an endpoint, or the value of an attribute. -/
inductive Told
  | telemetry (payload : List UInt8)
  | attribute (key : Key) (value : UInt32)

/-- An answer to a query conveys what there is to tell, or why there is nothing. -/
def Frame.Conveys (answer query : Frame) : Except Fault Told → Prop
  | .ok (.telemetry payload) =>
    answer.id.frameType = .telemetry ∧ answer.id.endpoint = query.id.endpoint ∧
      answer.payload = payload
  | .ok (.attribute key value) =>
    answer.id.frameType = .readAttribute ∧ answer.key? = some key ∧ answer.value? = some value
  | .error fault =>
    answer.id.frameType = query.id.frameType.errorType ∧ answer.id.endpoint = query.id.endpoint ∧
      answer.payload.length = 8 ∧ answer.error? = some (fault.code, query.argument)

namespace Device

variable {α : Type} [Application α] {d : Device α} {query : Frame} {told : Except Fault Told}

/-- The device that a query makes take measurements: for a command, after the application has
carried it out. -/
inductive AsksTelemetry (d : Device α) (query : Frame) : Device α → Prop
  | telemetry (type : query.id.frameType = .telemetry) : AsksTelemetry d query d
  | command (app : α) (type : query.id.frameType = .command)
      (done : d.commanded query.id.endpoint query.payload = (.ok (), app)) :
      AsksTelemetry d query { d with app }

/-- The device that a query makes read an attribute: for a write, after the value is written. -/
inductive AsksAttribute (d : Device α) (query : Frame) : Key → Device α → Prop
  | read (key : Key) (type : query.id.frameType = .readAttribute) (asked : query.key? = some key) :
      AsksAttribute d query key d
  | write (key : Key) (value : UInt32) (type : query.id.frameType = .writeAttribute)
      (asked : query.key? = some key) (given : query.value? = some value)
      (done : (d.writeAttribute key value).result = .ok ()) :
      AsksAttribute d query key (d.writeAttribute key value).device

/-- How a device fares with a query: what it has to tell in the end, or why it fails. -/
inductive Fares (d : Device α) (query : Frame) : Except Fault Told → Prop
  | commandFails (fault : Fault) (type : query.id.frameType = .command)
      (failed : (d.commanded query.id.endpoint query.payload).1 = .error fault) :
      Fares d query (.error fault)
  | telemetryFails (source : Device α) (fault : Fault) (asks : d.AsksTelemetry query source)
      (failed : (source.measured query.id.endpoint).1 = .error fault) :
      Fares d query (.error fault)
  | oversized (source : Device α) (reading : Reading) (asks : d.AsksTelemetry query source)
      (filled : (source.measured query.id.endpoint).1 = .ok reading) (long : 8 < reading.length) :
      Fares d query (.error .invalidArgument)
  | measured (source : Device α) (reading : Reading) (asks : d.AsksTelemetry query source)
      (filled : (source.measured query.id.endpoint).1 = .ok reading) (fits : reading.length ≤ 8) :
      Fares d query (.ok (.telemetry (reading.buffer.toList.take reading.length)))
  | malformed (type : query.id.frameType.isAttribute = true)
      (cut : query.key? = none ∨ query.id.frameType = .writeAttribute ∧ query.value? = none) :
      Fares d query (.error .invalidArgument)
  | writeFails (key : Key) (value : UInt32) (fault : Fault)
      (type : query.id.frameType = .writeAttribute) (asked : query.key? = some key)
      (given : query.value? = some value)
      (failed : (d.writeAttribute key value).result = .error fault) : Fares d query (.error fault)
  | readFails (key : Key) (source : Device α) (fault : Fault)
      (asks : d.AsksAttribute query key source)
      (failed : (source.readAttribute key).result = .error fault) : Fares d query (.error fault)
  | read (key : Key) (source : Device α) (value : UInt32) (asks : d.AsksAttribute query key source)
      (found : (source.readAttribute key).result = .ok value) :
      Fares d query (.ok (.attribute key value))

theorem fares_of_measuring {source : Device α} (asks : d.AsksTelemetry query source)
    {out : Outcome α (Except Fault Frame)} (h : source.Measuring query.id.endpoint out) :
    ∃ told, d.Fares query told := by
  cases h with
  | failed fault failed => exact ⟨_, .telemetryFails source fault asks failed⟩
  | oversized reading filled long => exact ⟨_, .oversized source reading asks filled long⟩
  | built reading _ filled fits => exact ⟨_, .measured source reading asks filled fits⟩

theorem fares_of_asksAttribute {key : Key} {source : Device α}
    (asks : d.AsksAttribute query key source) : ∃ told, d.Fares query told := by
  cases h : (source.readAttribute key).result with
  | error fault => exact ⟨_, .readFails key source fault asks h⟩
  | ok value => exact ⟨_, .read key source value asks h⟩

theorem exists_fares (d : Device α) (query : Frame) : ∃ told, d.Fares query told := by
  cases type : query.id.frameType with
  | command =>
    rcases done : d.commanded query.id.endpoint query.payload with ⟨result, app⟩
    cases result with
    | error fault => exact ⟨_, .commandFails fault type (by rw [done])⟩
    | ok _ => exact fares_of_measuring (.command app type done) (measuring _ _)
  | telemetry => exact fares_of_measuring (.telemetry type) (measuring _ _)
  | writeAttribute =>
    cases asked : query.key? with
    | none => exact ⟨_, .malformed (by rw [type]; rfl) (Or.inl asked)⟩
    | some key =>
      cases given : query.value? with
      | none => exact ⟨_, .malformed (by rw [type]; rfl) (Or.inr ⟨type, given⟩)⟩
      | some value =>
        cases done : (d.writeAttribute key value).result with
        | error fault => exact ⟨_, .writeFails key value fault type asked given done⟩
        | ok _ => exact fares_of_asksAttribute (.write key value type asked given done)
  | readAttribute =>
    cases asked : query.key? with
    | none => exact ⟨_, .malformed (by rw [type]; rfl) (Or.inl asked)⟩
    | some key => exact fares_of_asksAttribute (.read key type asked)

theorem AsksTelemetry.dispatch {source : Device α} (asks : d.AsksTelemetry query source) :
    ∃ e : Device α, e.measured query.id.endpoint = source.measured query.id.endpoint ∧
      (d.dispatch query).result = (e.buildTelemetry query.id.endpoint).result := by
  unfold Device.dispatch
  cases asks with
  | telemetry type =>
    rw [type]
    exact ⟨d, rfl, rfl⟩
  | command app type done =>
    rw [type]
    refine ⟨(d.runCommand query.id.endpoint query.payload).device, ?_, ?_⟩
    · rw [runCommand_eq, done]
      rfl
    · simp only [answerCommand, runCommand_eq, done]

theorem AsksAttribute.dispatch {key : Key} {source : Device α}
    (asks : d.AsksAttribute query key source) :
    query.key? = some key ∧ (d.dispatch query).result =
      (source.readAttribute key).result.map (.attributeResponse d.did key) := by
  unfold Device.dispatch
  cases asks with
  | read type asked =>
    rw [type]
    exact ⟨asked, by simp only [answerRead, asked]⟩
  | write value type asked given done =>
    rw [type]
    refine ⟨asked, ?_⟩
    simp only [answerWrite, asked, given, done]

/-- The result of a query is the fault, or an answer that conveys what there is to tell. -/
def Yields (query : Frame) (result : Except Fault Frame) : Except Fault Told → Prop
  | .error fault => result = .error fault
  | .ok content => ∃ answer, result = .ok answer ∧ answer.Conveys query (.ok content)

theorem Fares.yields (h : d.Fares query told) : Yields query (d.dispatch query).result told := by
  cases h with
  | commandFails fault type failed =>
    simp only [Yields, Device.dispatch, type, answerCommand, runCommand_eq, failed]
  | telemetryFails source fault asks failed =>
    obtain ⟨e, he, hresult⟩ := asks.dispatch
    rw [hresult, buildTelemetry_eq, he, failed]
    rfl
  | oversized source reading asks filled long =>
    obtain ⟨e, he, hresult⟩ := asks.dispatch
    rw [hresult, buildTelemetry_eq, he, filled]
    simp only [Yields, bind, Except.bind, telemetryFrame_of_long long]
  | measured source reading asks filled fits =>
    obtain ⟨e, he, hresult⟩ := asks.dispatch
    obtain ⟨frame, hframe, hid, hpayload⟩ :=
      telemetryFrame_of_fits e query.id.endpoint fits
    refine ⟨frame, ?_, by rw [hid]; rfl, by rw [hid]; rfl, hpayload⟩
    rw [hresult, buildTelemetry_eq, he, filled]
    simp only [bind, Except.bind, hframe]
  | malformed type cut =>
    change (d.dispatch query).result = .error .invalidArgument
    unfold Device.dispatch
    split
    next ht => simp [ht, FrameType.isAttribute] at type
    next ht => simp [ht, FrameType.isAttribute] at type
    next =>
      rcases cut with hkey | ⟨_, hvalue⟩
      · simp only [answerWrite, hkey]
      · cases hkey : query.key? <;> simp only [answerWrite, hkey, hvalue]
    next ht =>
      have hkey : query.key? = none := by simpa [ht] using cut
      simp only [answerRead, hkey]
  | writeFails key value fault type asked given failed =>
    simp only [Yields, Device.dispatch, type, answerWrite, asked, given, failed]
  | readFails key source fault asks failed =>
    obtain ⟨_, hresult⟩ := asks.dispatch
    rw [hresult, failed]
    rfl
  | read key source value asks found =>
    obtain ⟨_, hresult⟩ := asks.dispatch
    refine ⟨.attributeResponse d.did key value, by rw [hresult, found]; rfl, rfl, ?_, ?_⟩
    · exact Frame.key?_keyValue key value rfl
    · exact Frame.value?_keyValue key value rfl

/-- What handling a query hands back tells how the device fares with the query. -/
theorem Handling.tells {out : Outcome α (Option Frame)} (h : d.Handling query out)
    (fares : (d.countReceived query.id.frameType).Fares query told) :
    (out.result = none ↔ query.id.isQuery = false ∨ d.did.concerns query.did = false ∨
      (∃ fault, told = .error fault) ∧ out.device.config.errorResponse = false) ∧
    ∀ answer, out.result = some answer → answer.Conveys query told := by
  have hyields := fares.yields
  cases h with
  | ignored other =>
    refine ⟨⟨fun _ => ?_, fun _ => rfl⟩, by simp⟩
    cases hq : query.id.isQuery with
    | false => exact Or.inl rfl
    | true => exact Or.inr (Or.inl (by simpa [hq] using other))
  | answered answer e acts concerned done =>
    rw [done] at hyields
    cases told with
    | error fault => simp [Yields] at hyields
    | ok content =>
      obtain ⟨_, heq, hconveys⟩ := hyields
      cases Except.ok.inj heq
      refine ⟨by simp [concerned.1, concerned.2], fun other h => ?_⟩
      cases Option.some.inj h
      exact hconveys
  | reported fault e acts concerned failed allowed =>
    rw [failed] at hyields
    cases told with
    | ok content => simp [Yields] at hyields
    | error told =>
      cases Except.error.inj hyields
      refine ⟨by simp [concerned.1, concerned.2, countSent, allowed], fun other h => ?_⟩
      cases Option.some.inj h
      exact ⟨rfl, rfl, by simp [refusal, Frame.errorResponse], Frame.error?_errorResponse ..⟩
  | silenced fault e acts concerned failed forbidden =>
    rw [failed] at hyields
    cases told with
    | ok content => simp [Yields] at hyields
    | error told => exact ⟨by simp [forbidden], by simp⟩

/-- An answer is a response under the device's own identity. -/
theorem response_of_handle {answer : Frame} (h : (d.handle query).result = some answer) :
    answer.id.direction = .response ∧ answer.did = d.did := by
  obtain ⟨_, _, hok | ⟨fault, _, rfl⟩⟩ := handle_eq_some h
  · rcases dispatch_eq_ok hok with ⟨_, hid⟩ | ⟨key, value, _, _, rfl⟩
    · rw [Frame.did, hid]
      exact ⟨rfl, rfl⟩
    · exact ⟨rfl, rfl⟩
  · exact ⟨rfl, rfl⟩

theorem dispatch_of_commandFailed {fault : Fault} (type : query.id.frameType = .command)
    (failed : (d.commanded query.id.endpoint query.payload).1 = .error fault) :
    (d.dispatch query).result = .error fault ∧
      (d.dispatch query).acts = (d.runCommand query.id.endpoint query.payload).acts := by
  simp [dispatch, type, answerCommand, runCommand_eq, failed]

/-- A command that fails ends the handling: no measurement is taken. -/
theorem not_measuring_of_commandFailed {fault : Fault} (type : query.id.frameType = .command)
    (failed : ((d.countReceived query.id.frameType).commanded query.id.endpoint
      query.payload).1 = .error fault) (endpoint : Endpoint) :
    .call (.telemetry endpoint) ∉ (d.handle query).acts := by
  obtain ⟨hresult, hacts⟩ := dispatch_of_commandFailed type failed
  have hrun : .call (.telemetry endpoint) ∉
      ((d.countReceived query.id.frameType).dispatch query).acts := by
    rw [hacts, runCommand_eq]
    split <;> simp
  have h := handling d query
  generalize d.handle query = out at h ⊢
  cases h with
  | ignored _ => simp
  | answered answer e acts _ done => simp [done] at hresult
  | reported fault' e acts _ done _ => simpa [done] using hrun
  | silenced fault' e acts _ done _ => simpa [done] using hrun

/-- What a device does with a received frame: nothing, or one answer of its own that tells how it
fares with the query. -/
theorem answer_shape (d : Device α) (query : Frame) :
    let counted := d.countReceived query.id.frameType
    let out := d.handle query
    (∃ told, counted.Fares query told) ∧
    (∀ told, counted.Fares query told →
      (out.result = none ↔
        query.id.isQuery = false ∨ ¬(query.did = d.did ∨ query.did = .broadcast) ∨
          (∃ fault, told = .error fault) ∧ out.device.config.errorResponse = false) ∧
      ∀ answer, out.result = some answer →
        answer.id.direction = .response ∧ answer.did = d.did ∧ answer.payload.length ≤ 8 ∧
          answer.Conveys query told) ∧
    (query.id.frameType = .command → ∀ fault,
      (counted.commanded query.id.endpoint query.payload).1 = .error fault →
      ∀ endpoint, .call (.telemetry endpoint) ∉ out.acts) := by
  refine ⟨exists_fares _ query, fun told fares => ?_, fun type fault failed endpoint =>
    not_measuring_of_commandFailed type failed endpoint⟩
  obtain ⟨hnone, hconveys⟩ := (handling d query).tells fares
  have hconcerns : d.did.concerns query.did = false ↔
      ¬(query.did = d.did ∨ query.did = .broadcast) := by
    simp [Did.concerns, Did.isBroadcast]
  refine ⟨by rw [hnone, hconcerns], fun answer h => ?_⟩
  obtain ⟨hdirection, hdid⟩ := response_of_handle h
  exact ⟨hdirection, hdid, answer.payload_le, hconveys answer h⟩

end Device

end Fieldbus
