import Fieldbus.Proofs.Frame.Stored

namespace Fieldbus

theorem FrameType.code_ofCode : ∀ n < 4, (ofCode n).code = n := by decide

theorem Direction.code_ofCode : ∀ n < 2, (ofCode n).code = n := by decide

theorem Endpoint.code_ofCode : ∀ n < 4, (ofCode n).code = n := by decide

theorem Did.deviceClass_ofParts {deviceClass subId : Nat} (fits : deviceClass ≤ 7) :
    (ofParts deviceClass subId).deviceClass = deviceClass := by
  simp only [ofParts, ofRaw, Did.deviceClass]
  omega

theorem Did.subId_ofParts {deviceClass subId : Nat} (fits : subId ≤ 7) :
    (ofParts deviceClass subId).subId = subId := by
  simp only [ofParts, ofRaw, Did.subId]
  omega

/-- The bits above the eleven of an identifier are ignored. -/
theorem Id.encode_decode (n : Nat) : (decode n).encode = n % 2048 := by
  have htype := FrameType.code_ofCode (n % 4) (Nat.mod_lt n (by decide : 0 < 4))
  have hdirection := Direction.code_ofCode (n / 4 % 2) (Nat.mod_lt (n / 4) (by decide : 0 < 2))
  have hendpoint := Endpoint.code_ofCode (n / 512 % 4) (Nat.mod_lt (n / 512) (by decide : 0 < 4))
  simp only [encode, decode, htype, hdirection, hendpoint, Did.ofRaw]
  omega

/-- The ways to make a frame. -/
inductive Making
  | empty (id : Id)
  | ofPayload (id : Id) (payload : List UInt8)
  | telemetryQuery (did : Did) (endpoint : Endpoint)
  | command (did : Did) (endpoint : Endpoint) (payload : List UInt8)
  | readAttribute (did : Did) (key : Key)
  | writeAttribute (did : Did) (key : Key) (value : UInt32)
  | telemetryResponse (did : Did) (endpoint : Endpoint) (payload : List UInt8)
  | attributeResponse (did : Did) (key : Key) (value : UInt32)
  | errorResponse (did : Did) (queryType : FrameType) (endpoint : Endpoint)
      (code argument : UInt32)
  | ofWire (rawId : Nat) (payload : List UInt8)

namespace Making

def frame : Making → Except Fault Frame
  | empty id => .ok (.empty id)
  | ofPayload id payload => Frame.ofPayload id payload
  | telemetryQuery did endpoint => .ok (.telemetryQuery did endpoint)
  | command did endpoint payload => Frame.command did endpoint payload
  | readAttribute did key => .ok (.readAttribute did key)
  | writeAttribute did key value => .ok (.writeAttribute did key value)
  | telemetryResponse did endpoint payload => Frame.telemetryResponse did endpoint payload
  | attributeResponse did key value => .ok (.attributeResponse did key value)
  | errorResponse did queryType endpoint code argument =>
    .ok (.errorResponse did queryType endpoint code argument)
  | ofWire rawId payload => Frame.ofWire rawId payload

/-- Makes a frame in memory. -/
def stored : Making → Except Fault StoredFrame
  | empty id => .ok (.empty id)
  | ofPayload id payload => StoredFrame.ofPayload id payload
  | telemetryQuery did endpoint => .ok (.empty (.query .telemetry did endpoint))
  | command did endpoint payload => StoredFrame.ofPayload (.query .command did endpoint) payload
  | readAttribute did key =>
    .ok (.ofBytes (.query .readAttribute did .app) (leBytes 2 key.raw.toNat))
  | writeAttribute did key value =>
    .ok (.ofBytes (.query .writeAttribute did .app)
      (leBytes 2 key.raw.toNat ++ leBytes 4 value.toNat))
  | telemetryResponse did endpoint payload =>
    StoredFrame.ofPayload (.response .telemetry did endpoint) payload
  | attributeResponse did key value =>
    .ok (.ofBytes (.response .readAttribute did .app)
      (leBytes 2 key.raw.toNat ++ leBytes 4 value.toNat))
  | errorResponse did queryType endpoint code argument =>
    .ok (.ofBytes (.response queryType.errorType did endpoint)
      (leBytes 4 code.toNat ++ leBytes 4 argument.toNat))
  | ofWire rawId payload => StoredFrame.ofWire rawId payload

theorem stored_eq (m : Making) : m.stored = m.frame.map Frame.stored := by
  cases m with
  | empty id => exact congrArg Except.ok (Frame.empty_stored id)
  | telemetryQuery did endpoint => exact congrArg Except.ok (Frame.empty_stored _)
  | ofPayload id payload => exact Frame.ofPayload_stored id payload
  | command did endpoint payload => exact Frame.ofPayload_stored _ payload
  | telemetryResponse did endpoint payload => exact Frame.ofPayload_stored _ payload
  | ofWire rawId payload => exact Frame.ofPayload_stored _ payload
  | readAttribute did key =>
    exact congrArg Except.ok (Frame.ofBytes_stored (.readAttribute did key))
  | writeAttribute did key value =>
    exact congrArg Except.ok (Frame.ofBytes_stored (.writeAttribute did key value))
  | attributeResponse did key value =>
    exact congrArg Except.ok (Frame.ofBytes_stored (.attributeResponse did key value))
  | errorResponse did queryType endpoint code argument =>
    exact congrArg Except.ok
      (Frame.ofBytes_stored (.errorResponse did queryType endpoint code argument))

/-- A frame that is made and refilled in memory is kept as the same frame made and refilled. -/
theorem refill_stored (m : Making) (payloads : List (List UInt8)) :
    m.stored.map (·.refill payloads) = m.frame.map fun f => (f.refill payloads).stored := by
  rw [stored_eq]
  cases m.frame with
  | error fault => rfl
  | ok f => exact congrArg Except.ok (Frame.refill_stored f payloads)

end Making

namespace Frame

/-- A frame that is sent and received. -/
def overWire (f : Frame) : Except Fault Frame :=
  ofWire f.toWire.1 (f.toWire.2.1.take f.toWire.2.2)

theorem overWire_eq (f : Frame) : f.overWire = .ok f := by
  have hbytes : f.buffer.take f.payload.length = f.payload := List.take_left
  rw [overWire, ofWire, toWire, Id.decode_encode, hbytes]
  exact dif_pos f.payload_le

theorem length_buffer (f : Frame) : f.buffer.length = 8 := by
  have h := f.payload_le
  simp only [buffer, List.length_append, List.length_replicate]
  omega

theorem toWire_ofWire (raw : Nat) (data : List UInt8) :
    (ofWire raw data).map toWire =
      if 8 < data.length then .error .invalidArgument
      else .ok (raw &&& 0x7FF, data ++ List.replicate (8 - data.length) 0, data.length) := by
  have hmask : raw &&& 0x7FF = raw % 2048 := Nat.and_two_pow_sub_one_eq_mod raw 11
  rcases Nat.lt_or_ge 8 data.length with long | fits
  · have hfault : ofWire raw data = .error .invalidArgument := dif_neg (by omega)
    rw [hfault, if_pos long]
    rfl
  · have hok : ofWire raw data = .ok ⟨.decode raw, data, fits⟩ := dif_pos fits
    rw [hok, if_neg (by omega), hmask, ← Id.encode_decode]
    rfl

theorem value?_readAttribute (did : Did) (key : Key) : (readAttribute did key).value? = none := by
  simp [value?, readAttribute]

theorem overWire_keyValue {id : Id} (key : Key) (value : UInt32)
    (h : id.frameType.isAttribute = true) :
    ((keyValue id key value).overWire.map fun f => (f.key?, f.value?)) =
      .ok (some key, some value) := by
  rw [overWire_eq, Except.map, key?_keyValue key value h,
    value?_keyValue key value h]

theorem overWire_readAttribute (did : Did) (key : Key) :
    ((readAttribute did key).overWire.map fun f => (f.key?, f.value?)) = .ok (some key, none) := by
  rw [overWire_eq, Except.map, key?_readAttribute, value?_readAttribute]

/-- The argument of an error frame that is cut short is zero. -/
theorem error?_of_short {f : Frame} (error : f.id.isError = true) (code : 4 ≤ f.payload.length)
    (short : f.payload.length < 8) : f.error? = some (word32 0 f.payload, 0) := by
  rw [error?, if_pos ⟨error, code⟩, if_neg (by omega)]

/-- Frames survive the wire. What is sent of a frame is at most eight bytes of a zero-filled buffer
under an identifier of eleven bits, and the same frame is received; what is received is sent again
but for bits above the eleven; and the keys, values, codes and arguments that a frame was made with
are read from the received one. A frame in memory is zero beyond its payload however often it was
refilled, it is received as it was, and a payload that is too long does not change it. -/
theorem wire_round_trip :
    (∀ f : Frame,
      f.toWire.2.2 ≤ 8 ∧ f.toWire.1 < 2048 ∧ f.toWire.2.1.length = 8 ∧
        (∀ b ∈ f.toWire.2.1.drop f.toWire.2.2, b = 0) ∧ f.overWire = .ok f) ∧
    (∀ (raw : Nat) (data : List UInt8),
      (ofWire raw data).map toWire =
        if 8 < data.length then .error .invalidArgument
        else .ok (raw &&& 0x7FF, data ++ List.replicate (8 - data.length) 0, data.length)) ∧
    (∀ (did : Did) (key : Key) (value : UInt32),
      ((writeAttribute did key value).overWire.map fun f => (f.key?, f.value?)) =
          .ok (some key, some value) ∧
        ((attributeResponse did key value).overWire.map fun f => (f.key?, f.value?)) =
          .ok (some key, some value) ∧
        ((readAttribute did key).overWire.map fun f => (f.key?, f.value?)) =
          .ok (some key, none)) ∧
    (∀ (did : Did) (queryType : FrameType) (endpoint : Endpoint) (code argument : UInt32),
      (errorResponse did queryType endpoint code argument).overWire.map error? =
        .ok (some (code, argument))) ∧
    (∀ f : Frame, f.id.isError = true → 4 ≤ f.payload.length → f.payload.length < 8 →
      f.overWire.map error? = .ok (some (word32 0 f.payload, 0))) ∧
    (∀ (m : Making) (payloads : List (List UInt8)) (s : StoredFrame), m.stored = .ok s →
      let t := s.refill payloads
      (m.frame.map fun f => (f.refill payloads).stored) = .ok t ∧
        t.len.toNat ≤ 8 ∧ (∀ b ∈ t.buf.toList.drop t.len.toNat, b = 0) ∧
        StoredFrame.ofWire t.id.encode t.payload = .ok t) ∧
    ∀ (s : StoredFrame) (payload : List UInt8) (fault : Fault),
      (s.setPayload payload).1 = .error fault → (s.setPayload payload).2 = s := by
  refine ⟨fun f => ?_, toWire_ofWire, fun did key value => ?_, ?_, ?_, ?_, ?_⟩
  · exact ⟨f.payload_le, f.id.encode_lt, f.length_buffer, fun b => eq_zero_of_mem_drop,
      f.overWire_eq⟩
  · exact ⟨overWire_keyValue key value rfl, overWire_keyValue key value rfl,
      overWire_readAttribute did key⟩
  · intro did queryType endpoint code argument
    rw [overWire_eq]
    exact congrArg Except.ok (error?_errorResponse did queryType endpoint code argument)
  · intro f error code short
    rw [overWire_eq]
    exact congrArg Except.ok (error?_of_short error code short)
  · intro m payloads s made
    have hrefill := m.refill_stored payloads
    rw [made] at hrefill
    cases hframe : m.frame with
    | error fault =>
      rw [hframe] at hrefill
      cases hrefill
    | ok f =>
      rw [hframe] at hrefill
      have hs : s.refill payloads = (f.refill payloads).stored := Except.ok.inj hrefill
      rw [hs]
      refine ⟨rfl, ?_, fun b => eq_zero_of_mem_stored, ofWire_stored _⟩
      rw [toNat_len_stored]
      exact (f.refill payloads).payload_le
  · intro s payload fault failed
    unfold StoredFrame.setPayload at failed ⊢
    split at failed
    next long => rw [if_pos long]
    next => cases failed

end Frame

end Fieldbus
