import Fieldbus.Proofs.Device.Sends

namespace Fieldbus

/-- The counters of a device; all of them wrap. -/
@[ext] structure Counters where
  receivedTotal : UInt32
  receivedReadAttribute : UInt32
  receivedWriteAttribute : UInt32
  receivedCommand : UInt32
  receivedRequestTelemetry : UInt32
  receivedIgnored : UInt32
  sentTotal : UInt32
  sentTelemetry : UInt32
deriving DecidableEq

def SystemStatus.counters (s : SystemStatus) : Counters where
  receivedTotal := s.receivedTotal
  receivedReadAttribute := s.receivedReadAttribute
  receivedWriteAttribute := s.receivedWriteAttribute
  receivedCommand := s.receivedCommand
  receivedRequestTelemetry := s.receivedRequestTelemetry
  receivedIgnored := s.receivedIgnored
  sentTotal := s.sentTotal
  sentTelemetry := s.sentTelemetry

/-- A query to the device at `did`, or to all devices. -/
def Frame.isFor (f : Frame) (did : Did) : Bool :=
  f.id.isQuery && (f.did = did || f.did = .broadcast)

theorem Frame.isFor_iff {f : Frame} {did : Did} :
    f.isFor did = true ↔ f.id.isQuery = true ∧ did.concerns f.did = true := by
  simp [isFor, Did.concerns, Did.isBroadcast]

/-- A query of one type to the device at `did`, or to all devices. -/
def Frame.isTypeFor (type : FrameType) (did : Did) (f : Frame) : Bool :=
  f.isFor did && f.id.frameType = type

def Frame.isTelemetry (f : Frame) : Bool := f.id.frameType = .telemetry

namespace Counters

instance : Add Counters where
  add a b :=
    { receivedTotal := a.receivedTotal + b.receivedTotal
      receivedReadAttribute := a.receivedReadAttribute + b.receivedReadAttribute
      receivedWriteAttribute := a.receivedWriteAttribute + b.receivedWriteAttribute
      receivedCommand := a.receivedCommand + b.receivedCommand
      receivedRequestTelemetry := a.receivedRequestTelemetry + b.receivedRequestTelemetry
      receivedIgnored := a.receivedIgnored + b.receivedIgnored
      sentTotal := a.sentTotal + b.sentTotal
      sentTelemetry := a.sentTelemetry + b.sentTelemetry }

/-- What the frames that a device received and sent come to. -/
def tally (did : Did) (received sent : List Frame) : Counters where
  receivedTotal := .ofNat (received.countP (·.isFor did))
  receivedReadAttribute := .ofNat (received.countP (Frame.isTypeFor .readAttribute did))
  receivedWriteAttribute := .ofNat (received.countP (Frame.isTypeFor .writeAttribute did))
  receivedCommand := .ofNat (received.countP (Frame.isTypeFor .command did))
  receivedRequestTelemetry := .ofNat (received.countP (Frame.isTypeFor .telemetry did))
  receivedIgnored := .ofNat (received.countP (!·.isFor did))
  sentTotal := .ofNat sent.length
  sentTelemetry := .ofNat (sent.countP Frame.isTelemetry)

theorem tally_append (did : Did) (received received' sent sent' : List Frame) :
    tally did (received ++ received') (sent ++ sent') =
      tally did received sent + tally did received' sent' := by
  simp only [tally, List.countP_append, List.length_append, UInt32.ofNat_add]
  rfl

theorem add_def (a b : Counters) :
    a + b =
      { receivedTotal := a.receivedTotal + b.receivedTotal
        receivedReadAttribute := a.receivedReadAttribute + b.receivedReadAttribute
        receivedWriteAttribute := a.receivedWriteAttribute + b.receivedWriteAttribute
        receivedCommand := a.receivedCommand + b.receivedCommand
        receivedRequestTelemetry := a.receivedRequestTelemetry + b.receivedRequestTelemetry
        receivedIgnored := a.receivedIgnored + b.receivedIgnored
        sentTotal := a.sentTotal + b.sentTotal
        sentTelemetry := a.sentTelemetry + b.sentTelemetry } := rfl

theorem add_tally_nil (k : Counters) (did : Did) : k + tally did [] [] = k := by
  apply Counters.ext <;> exact UInt32.add_zero _

theorem add_tally_add_tally (k : Counters) (did : Did)
    (received sent received' sent' : List Frame) :
    k + tally did received sent + tally did received' sent' =
      k + tally did (received ++ received') (sent ++ sent') := by
  rw [tally_append]
  apply Counters.ext <;> exact UInt32.add_assoc _ _ _

end Counters

/-- The frame that a platform hands over next. -/
def incoming? {π : Type} [Platform π] (p : π) : Option Frame :=
  match (Platform.receive p).1 with
  | .ok frame => frame
  | .error _ => none

theorem incoming?_eq_some {π : Type} [Platform π] {p : π} {f : Frame} :
    incoming? p = some f ↔ (Platform.receive p).1 = .ok (some f) := by
  unfold incoming?
  split <;> simp_all

theorem incoming?_of_received {π : Type} [Platform π] {p q : π} {f : Frame}
    (received : Platform.receive p = (.ok (some f), q)) : incoming? p = some f :=
  incoming?_eq_some.mpr (congrArg Prod.fst received)

theorem incoming?_of_silent {π : Type} [Platform π] {p : π}
    (silent : ∀ f, (Platform.receive p).1 ≠ .ok (some f)) : incoming? p = none :=
  Option.eq_none_iff_forall_ne_some.mpr fun f h => silent f (incoming?_eq_some.mp h)

/-- The frames that a request makes a device receive. -/
def DeviceRequest.received {α π : Type} [Platform π] : DeviceRequest α π → List Frame
  | .handle query => [query]
  | .poll p => (incoming? p).toList
  | _ => []

namespace Device

variable {α π : Type}

section Count

variable (d : Device α) {f : Frame}

theorem counters_countIgnored (other : f.isFor d.did = false) :
    d.countIgnored.system.counters = d.system.counters + .tally d.did [f] [] := by
  have hnone : ∀ type, Frame.isTypeFor type d.did f = false := fun type => by
    simp [Frame.isTypeFor, other]
  simp [Counters.add_def, SystemStatus.counters, countIgnored, Counters.tally, other, hnone]

theorem counters_countReceived (mine : f.isFor d.did = true) :
    (d.countReceived f.id.frameType).system.counters =
      d.system.counters + .tally d.did [f] [] := by
  have htype : ∀ type, Frame.isTypeFor type d.did f = decide (f.id.frameType = type) :=
    fun type => by simp [Frame.isTypeFor, mine]
  cases hf : f.id.frameType <;>
    simp [Counters.add_def, SystemStatus.counters, countReceived, Counters.tally, mine, htype, hf]

theorem counters_countSent (did : Did) :
    (d.countSent f).system.counters = d.system.counters + .tally did [] [f] := by
  by_cases hf : f.id.frameType = .telemetry <;>
    simp [Counters.add_def, SystemStatus.counters, countSent, Counters.tally, Frame.isTelemetry, hf]

end Count

section Keep

variable [Application α] (d : Device α)

theorem counters_readAttribute (key : Key) :
    (d.readAttribute key).device.system.counters = d.system.counters := by
  have h := retrieving d key
  generalize d.readAttribute key = out at h ⊢
  cases h <;> rfl

/-- No write reaches a counter, whatever its key. -/
theorem counters_writeAttribute (key : Key) (value : UInt32) :
    (d.writeAttribute key value).device.system.counters = d.system.counters := by
  have h := storing d key value
  generalize d.writeAttribute key value = out at h ⊢
  cases h <;> rfl

theorem counters_runCommand (endpoint : Endpoint) (payload : List UInt8) :
    (d.runCommand endpoint payload).device.system.counters = d.system.counters := by
  rw [runCommand_eq]
  rfl

theorem counters_buildTelemetry (endpoint : Endpoint) :
    (d.buildTelemetry endpoint).device.system.counters = d.system.counters := by
  have h := measuring d endpoint
  generalize d.buildTelemetry endpoint = out at h ⊢
  cases h <;> rfl

theorem counters_dispatch (query : Frame) :
    (d.dispatch query).device.system.counters = d.system.counters := by
  have h := dispatching d query
  generalize d.dispatch query = out at h ⊢
  cases h with
  | commandFailed fault e acts _ ran =>
    have hran := counters_runCommand d query.id.endpoint query.payload
    rwa [ran] at hran
  | command e acts _ ran =>
    have hran := counters_runCommand d query.id.endpoint query.payload
    rw [ran] at hran
    exact (counters_buildTelemetry e _).trans hran
  | telemetry => exact counters_buildTelemetry d _
  | malformed => rfl
  | read key => exact counters_readAttribute d key
  | writeFailed key value fault e acts _ _ _ wrote =>
    have hwrote := counters_writeAttribute d key value
    rwa [wrote] at hwrote
  | write key value e acts _ _ _ wrote =>
    have hwrote := counters_writeAttribute d key value
    rw [wrote] at hwrote
    exact (counters_readAttribute e key).trans hwrote

end Keep

section Handle

variable [Application α] (d : Device α)

theorem counters_dispatched {query : Frame} {result : Except Fault Frame} {e : Device α}
    {acts : List DeviceAct} (mine : query.isFor d.did = true)
    (done : (d.countReceived query.id.frameType).dispatch query = ⟨result, e, acts⟩) :
    e.system.counters = d.system.counters + .tally d.did [query] [] := by
  have hdone := counters_dispatch (d.countReceived query.id.frameType) query
  rw [done] at hdone
  exact hdone.trans (counters_countReceived d mine)

/-- Handling counts the query and, if there is one, the response. -/
theorem counters_handle (query : Frame) :
    (d.handle query).device.system.counters =
      d.system.counters + .tally d.did [query] (d.handle query).result.toList := by
  have h := handling d query
  generalize d.handle query = out at h ⊢
  cases h with
  | ignored other =>
    exact counters_countIgnored d (by rwa [← Frame.isFor_iff, Bool.not_eq_true] at other)
  | answered answer e acts concerned done =>
    have he := counters_dispatched d (Frame.isFor_iff.mpr concerned) done
    rw [counters_countSent e d.did, he, Counters.add_tally_add_tally]
    rfl
  | reported fault e acts concerned failed =>
    have he := counters_dispatched d (Frame.isFor_iff.mpr concerned) failed
    rw [counters_countSent e d.did, he, Counters.add_tally_add_tally]
    rfl
  | silenced fault e acts concerned failed =>
    exact counters_dispatched d (Frame.isFor_iff.mpr concerned) failed

end Handle

end Device

end Fieldbus
