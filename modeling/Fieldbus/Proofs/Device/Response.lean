import Fieldbus.Controller.Event
import Fieldbus.Controller.Query
import Fieldbus.Device.Dispatch
import Fieldbus.Proofs.Frame

namespace Fieldbus

/-- Whether a response carries what a query asks for. -/
def Frame.correlates (query response : Frame) : Bool :=
  (Correlation.ofQuery? query).any fun k => k.accepts response

/-- What an error response names beside the code: the key that was asked for, if any. -/
def Frame.argument (query : Frame) : UInt32 := (query.key?.map fun k => k.raw.toUInt32).getD 0

/-- An event tells how a device fared with the query that it answered. -/
def Event.Tells (e : Event) (query : Frame) : Except Fault Frame → Prop
  | .ok answer => e.status = .ok ∧ e.response = some answer ∧ e.fault? = none
  | .error fault => e.status = .error ∧ ∃ argument,
    e.fault? = some (.remote (fault.code ||| 0x0100) argument) ∧
      if query.id.frameType.isAttribute then
        ∃ key, query.key? = some key ∧ argument = key.raw.toUInt32
      else argument = 0

namespace FrameType

theorem errorType_of_isAttribute {t : FrameType} (h : t.isAttribute = true) :
    t.errorType = .writeAttribute := by
  cases t with
  | command => simp [isAttribute] at h
  | telemetry => simp [isAttribute] at h
  | writeAttribute => rfl
  | readAttribute => rfl

theorem errorType_of_not_isAttribute {t : FrameType} (h : t.isAttribute = false) :
    t.errorType = .command := by
  cases t with
  | command => rfl
  | telemetry => rfl
  | writeAttribute => simp [isAttribute] at h
  | readAttribute => simp [isAttribute] at h

end FrameType

namespace Correlation

variable {f : Frame} {key : Key}

theorem accepts_of_readAttribute (h : f.id.frameType = .readAttribute) :
    (Correlation.key key).accepts f = decide (f.key? = some key) := by
  simp [accepts, h]

theorem accepts_of_writeAttribute (h : f.id.frameType = .writeAttribute) :
    (Correlation.key key).accepts f = f.error?.any fun r => r.2.toUInt16 = key.raw := by
  simp [accepts, h]

end Correlation

theorem Frame.id_of_ofPayload {id : Id} {payload : List UInt8} {f : Frame}
    (h : ofPayload id payload = .ok f) : f.id = id := by
  unfold ofPayload at h
  split at h
  next =>
    cases Except.ok.inj h
    rfl
  next => simp at h

namespace Device

variable {α : Type} [Application α] {d : Device α} {query answer : Frame}

/-- How a device fares with a query, whether or not it tells of a failure. -/
def outcome (d : Device α) (query : Frame) : Except Fault Frame :=
  ((d.countReceived query.id.frameType).dispatch query).result

theorem id_of_buildTelemetry {endpoint : Endpoint}
    (h : (d.buildTelemetry endpoint).result = .ok answer) :
    answer.id = .response .telemetry d.did endpoint := by
  unfold buildTelemetry at h
  simp only at h
  split at h
  next => simp at h
  next frame hframe =>
    cases Except.ok.inj h
    obtain ⟨reading, _, hpayload⟩ := exists_of_bind_eq_ok hframe
    split at hpayload
    next => simp at hpayload
    next => exact Frame.id_of_ofPayload hpayload

theorem id_of_answerCommand (h : (d.answerCommand query).result = .ok answer) :
    answer.id = .response .telemetry d.did query.id.endpoint := by
  have hdid : (d.runCommand query.id.endpoint query.payload).device.did = d.did := rfl
  unfold answerCommand at h
  simp only at h
  split at h
  next => simp at h
  next =>
    rw [← hdid]
    exact id_of_buildTelemetry h

theorem answerRead_eq_ok (h : (d.answerRead query).result = .ok answer) :
    ∃ key value, query.key? = some key ∧ answer = .attributeResponse d.did key value := by
  unfold answerRead at h
  split at h
  next => simp at h
  next key hkey =>
    obtain ⟨value, _, rfl⟩ := exists_of_map_eq_ok h
    exact ⟨key, value, hkey, rfl⟩

theorem answerWrite_eq_ok (h : (d.answerWrite query).result = .ok answer) :
    ∃ key value, query.key? = some key ∧ answer = .attributeResponse d.did key value := by
  unfold answerWrite at h
  split at h
  next key value hkey _ =>
    simp only at h
    split at h
    next => simp at h
    next =>
      obtain ⟨value, _, rfl⟩ := exists_of_map_eq_ok h
      exact ⟨key, value, hkey, rfl⟩
  next => simp at h

/-- A device that does well answers by telemetry of the endpoint or by the attribute it was asked
for. -/
theorem dispatch_eq_ok (h : (d.dispatch query).result = .ok answer) :
    (query.id.frameType.isAttribute = false ∧
      answer.id = .response .telemetry d.did query.id.endpoint) ∨
    ∃ key value, query.id.frameType.isAttribute = true ∧ query.key? = some key ∧
      answer = .attributeResponse d.did key value := by
  unfold dispatch at h
  split at h
  next ht => exact Or.inl ⟨by rw [ht]; rfl, id_of_answerCommand h⟩
  next ht => exact Or.inl ⟨by rw [ht]; rfl, id_of_buildTelemetry h⟩
  next ht =>
    obtain ⟨key, value, hkey, hanswer⟩ := answerWrite_eq_ok h
    exact Or.inr ⟨key, value, by rw [ht]; rfl, hkey, hanswer⟩
  next ht =>
    obtain ⟨key, value, hkey, hanswer⟩ := answerRead_eq_ok h
    exact Or.inr ⟨key, value, by rw [ht]; rfl, hkey, hanswer⟩

theorem isError_of_dispatch (h : (d.dispatch query).result = .ok answer) :
    answer.id.isError = false := by
  rcases dispatch_eq_ok h with ⟨_, hid⟩ | ⟨key, value, _, _, rfl⟩
  · simp [hid, Id.response, Id.isError]
  · rfl

/-- A device answers queries that concern it, by what it has to tell or by an error response. -/
theorem handle_eq_some (h : (d.handle query).result = some answer) :
    query.id.isQuery = true ∧ d.did.concerns query.did = true ∧
      (d.outcome query = .ok answer ∨ ∃ fault, d.outcome query = .error fault ∧
        answer = .errorResponse d.did query.id.frameType query.id.endpoint fault.code
          query.argument) := by
  unfold handle at h
  split at h
  next hq =>
    rw [Bool.and_eq_true] at hq
    refine ⟨hq.1, hq.2, ?_⟩
    simp only at h
    split at h
    next response hresponse =>
      cases Option.some.inj h
      exact Or.inl hresponse
    next fault hfault =>
      split at h
      next =>
        cases Option.some.inj h
        exact Or.inr ⟨fault, hfault, rfl⟩
      next => simp at h
  next => simp at h

variable {k : Correlation}

theorem accepts_of_dispatch (asks : Correlation.ofQuery? query = some k)
    (h : (d.dispatch query).result = .ok answer) :
    k.accepts answer = true ∧ answer.did = d.did ∧ answer.id.isResponse = true ∧
      answer.id.isError = false := by
  unfold Correlation.ofQuery? at asks
  rcases dispatch_eq_ok h with ⟨ht, hid⟩ | ⟨key, value, ht, hkey, rfl⟩
  · simp only [ht, Bool.false_eq_true, ↓reduceIte, Option.some.injEq] at asks
    subst asks
    refine ⟨?_, ?_, ?_, ?_⟩
    · simp [Correlation.accepts, hid, Id.response]
    · rw [Frame.did, hid]
      rfl
    · simp [hid, Id.response, Id.isResponse]
    · simp [hid, Id.response, Id.isError]
  · simp only [ht, ↓reduceIte, hkey, Option.map_some, Option.some.injEq] at asks
    subst asks
    refine ⟨?_, rfl, rfl, rfl⟩
    have hback : (Frame.attributeResponse d.did key value).key? = some key :=
      Frame.key?_keyValue key value rfl
    rw [Correlation.accepts_of_readAttribute rfl, hback]
    simp

/-- An error response is matched by the key in its argument. -/
theorem accepts_errorResponse (asks : Correlation.ofQuery? query = some k) (did : Did)
    (code : UInt32) :
    k.accepts (.errorResponse did query.id.frameType query.id.endpoint code query.argument) =
      true := by
  unfold Correlation.ofQuery? at asks
  cases ht : query.id.frameType.isAttribute with
  | false =>
    simp only [ht, Bool.false_eq_true, ↓reduceIte, Option.some.injEq] at asks
    subst asks
    simp [Correlation.accepts, Frame.errorResponse, Id.response,
      FrameType.errorType_of_not_isAttribute ht]
  | true =>
    simp only [ht, ↓reduceIte] at asks
    obtain ⟨key, hkey, rfl⟩ := Option.map_eq_some_iff.mp asks
    rw [Correlation.accepts_of_writeAttribute (FrameType.errorType_of_isAttribute ht),
      Frame.error?_errorResponse]
    simp [Frame.argument, hkey]

/-- A response carries what the query asks for, and it comes from a device that was asked. -/
theorem accepts_of_handle (asks : Correlation.ofQuery? query = some k)
    (h : (d.handle query).result = some answer) :
    k.accepts answer = true ∧ answer.did = d.did ∧ answer.id.isResponse = true ∧
      (query.did = d.did ∨ query.did = .broadcast) := by
  obtain ⟨_, hconcerns, hcase⟩ := handle_eq_some h
  have hdid : query.did = d.did ∨ query.did = .broadcast := by
    simpa [Did.concerns, Did.isBroadcast] using hconcerns
  rcases hcase with hok | ⟨fault, _, rfl⟩
  · obtain ⟨haccepts, hsender, hresponse, _⟩ := accepts_of_dispatch asks hok
    exact ⟨haccepts, hsender, hresponse, hdid⟩
  · exact ⟨accepts_errorResponse asks d.did fault.code, rfl, rfl, hdid⟩

/-- The event that reports a response tells how the device fared. -/
theorem tells_of_handle (asks : Correlation.ofQuery? query = some k)
    (h : (d.handle query).result = some answer) {e : Event}
    (status : e.status = .ofResponse answer) (response : e.response = some answer) :
    e.Tells query (d.outcome query) := by
  obtain ⟨_, _, hcase⟩ := handle_eq_some h
  rcases hcase with hok | ⟨fault, hfault, rfl⟩
  · obtain ⟨_, _, _, herror⟩ := accepts_of_dispatch asks hok
    rw [hok]
    refine ⟨by simp [status, EventStatus.ofResponse, herror], response, ?_⟩
    simp [Event.fault?, response, Frame.error?, herror]
  · have herror := Frame.isError_errorResponse d.did query.id.frameType query.id.endpoint
      fault.code query.argument
    rw [hfault]
    refine ⟨by simp [status, EventStatus.ofResponse, herror], query.argument, ?_, ?_⟩
    · simp [Event.fault?, response, Frame.error?_errorResponse, Fault.reported, Fault.remoteBit]
    · unfold Correlation.ofQuery? at asks
      split
      next ht =>
        rw [if_pos ht] at asks
        obtain ⟨key, hkey, _⟩ := Option.map_eq_some_iff.mp asks
        exact ⟨key, hkey, by simp [Frame.argument, hkey]⟩
      next ht => simp [Frame.argument, Frame.key?, ht]

end Device

end Fieldbus
