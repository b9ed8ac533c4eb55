import Fieldbus.Proofs.Controller.Poll
import Fieldbus.Proofs.Device.Traffic
import Fieldbus.Thermostat

namespace Fieldbus

/-- The handlers of an application fail with codes that differ from success in their low half. -/
structure TellsFailures (α : Type) [Application α] : Prop where
  command {a : α} {endpoint : Endpoint} {payload : List UInt8} {fault : Fault}
    (failed : (Application.command a endpoint payload).1 = .error fault) :
    fault.code.toUInt16 ≠ 0
  telemetry {a : α} {endpoint : Endpoint} {fault : Fault}
    (failed : (Application.telemetry a endpoint).1 = .error fault) : fault.code.toUInt16 ≠ 0

/-- A register shows how something ended: zero is success, and a failure is shown by the low half
of its code. -/
structure Shows {β : Type} (register : UInt16) (result : Except Fault β) : Prop where
  zero_iff : register = 0 ↔ ∃ value, result = .ok value
  code (fault : Fault) (failed : result = .error fault) : register = fault.code.toUInt16

theorem shows_errorRegister {β : Type} {result : Except Fault β}
    (nonzero : ∀ fault, result = .error fault → fault.code.toUInt16 ≠ 0) :
    Shows (errorRegister result) result := by
  cases result with
  | ok value => exact ⟨by simp [errorRegister], fun fault failed => nomatch failed⟩
  | error fault =>
    refine ⟨by simp [errorRegister, nonzero fault rfl], fun other failed => ?_⟩
    cases Except.error.inj failed
    rfl

/-- An attempt to build telemetry of an endpoint, by a device as it stands. -/
structure Attempt (α : Type) where
  source : Device α
  endpoint : Endpoint

namespace Attempt

variable {α : Type} [Application α] (a : Attempt α)

def outcome : Outcome α (Except Fault Frame) := a.source.buildTelemetry a.endpoint

/-- The error register when the attempt is over. -/
def register : UInt16 := a.outcome.device.system.lastTelemetryError

/-- The handler claims to have filled in more bytes than there are. -/
def Oversized : Prop :=
  ∃ reading, (a.source.measured a.endpoint).1 = .ok reading ∧ 8 < reading.length

theorem register_eq : a.register = errorRegister (a.source.measured a.endpoint).1 := by
  have h := Device.measuring a.source a.endpoint
  unfold register outcome
  generalize a.source.buildTelemetry a.endpoint = out at h ⊢
  cases h <;> rfl

theorem shows_measured (failures : TellsFailures α) :
    Shows a.register (a.source.measured a.endpoint).1 := by
  rw [register_eq]
  refine shows_errorRegister fun fault failed => ?_
  unfold Device.measured at failed
  split at failed
  next => exact failures.telemetry failed
  next =>
    cases Except.error.inj failed
    decide

/-- An attempt ends as the handler does, unless the reading is too long for a frame. -/
theorem shows_register (failures : TellsFailures α) (sized : ¬ a.Oversized) :
    Shows a.register a.outcome.result := by
  have hshows := a.shows_measured failures
  have h := Device.measuring a.source a.endpoint
  unfold outcome
  generalize a.source.buildTelemetry a.endpoint = out at h ⊢
  cases h with
  | failed fault told =>
    rw [told] at hshows
    exact ⟨hshows.zero_iff.trans (by simp), fun other failed =>
      hshows.code other (by simpa using failed)⟩
  | oversized reading told long => exact absurd ⟨reading, told, long⟩ sized
  | built reading frame told =>
    rw [told] at hshows
    exact ⟨hshows.zero_iff.trans (by simp), fun other failed => nomatch failed⟩

/-- The register is written before the length is checked, so it misses this failure. -/
theorem of_oversized (long : a.Oversized) :
    a.outcome.result = .error .invalidArgument ∧ a.register = 0 := by
  obtain ⟨reading, told, long⟩ := long
  rw [register_eq, told]
  refine ⟨?_, rfl⟩
  have h := Device.measuring a.source a.endpoint
  unfold outcome
  generalize a.source.buildTelemetry a.endpoint = out at h ⊢
  cases h with
  | failed fault failed => simp [failed] at told
  | oversized => rfl
  | built other frame filled fits =>
    cases Except.ok.inj (filled.symm.trans told)
    omega

/-- How an attempt ended is seen from outside: its frame is answered or sent, its failure noted. -/
def ShownIn (answer : Option Frame) (acts : List DeviceAct) : Prop :=
  match a.outcome.result with
  | .ok frame => answer = some frame ∨ ∃ delay, .send frame delay ∈ acts
  | .error fault => .rejected fault ∈ acts ∨ .silenced fault ∈ acts ∨ .telemetryFailed fault ∈ acts

variable {a} {answer : Option Frame} {acts : List DeviceAct}

theorem ShownIn.mono {more : List DeviceAct} (h : a.ShownIn answer acts) (sub : acts ⊆ more) :
    a.ShownIn answer more := by
  unfold ShownIn at h ⊢
  split at h
  next => exact h.imp_right fun ⟨delay, sent⟩ => ⟨delay, sub sent⟩
  next => exact h.imp (@sub _) (Or.imp (@sub _) (@sub _))

/-- What was answered is sent. -/
theorem ShownIn.send {frame : Frame} (h : a.ShownIn (some frame) acts) (delay : Nat) :
    a.ShownIn none (acts ++ [.send frame delay]) := by
  unfold ShownIn at h ⊢
  split at h
  next built =>
    refine Or.inr (h.elim (fun same => ?_) fun ⟨delay, sent⟩ => ⟨delay, by simp [sent]⟩)
    cases Option.some.inj same
    exact ⟨delay, by simp⟩
  next => simpa using h

end Attempt

theorem elim_getLast?_append {β γ : Type} (f : β → γ) (initial : γ) (first second : List β) :
    second.getLast?.elim (first.getLast?.elim initial f) f =
      (first ++ second).getLast?.elim initial f := by
  rw [List.getLast?_append]
  cases second.getLast? <;> rfl

/-- The registers of a device that keep how its last command and its last telemetry ended. -/
@[ext] structure ErrorRegisters where
  command : UInt16
  telemetry : UInt16

def SystemStatus.errors (s : SystemStatus) : ErrorRegisters :=
  ⟨s.lastCommandError, s.lastTelemetryError⟩

namespace ErrorRegisters

variable {α : Type} [Application α]

/-- The registers after commands ended, and attempts: the last of each counts. -/
def note (e : ErrorRegisters) (commands : List (Except Fault Unit)) (attempts : List (Attempt α)) :
    ErrorRegisters where
  command := commands.getLast?.elim e.command errorRegister
  telemetry := attempts.getLast?.elim e.telemetry Attempt.register

@[simp] theorem note_nil (e : ErrorRegisters) : e.note [] ([] : List (Attempt α)) = e := rfl

theorem note_note (e : ErrorRegisters) (commands more : List (Except Fault Unit))
    (attempts again : List (Attempt α)) :
    (e.note commands attempts).note more again =
      e.note (commands ++ more) (attempts ++ again) :=
  ErrorRegisters.ext (elim_getLast?_append errorRegister e.command commands more)
    (elim_getLast?_append Attempt.register e.telemetry attempts again)

end ErrorRegisters

namespace Device

variable {α π : Type} [Application α]

section Handle

variable (d : Device α) (query : Frame)

/-- The attempt that dispatching a query makes: a command makes it once it has been carried out. -/
def asks : List (Attempt α) :=
  match query.id.frameType with
  | .telemetry => [⟨d, query.id.endpoint⟩]
  | .command =>
    match d.runCommand query.id.endpoint query.payload with
    | ⟨.ok (), ran, _⟩ => [⟨ran, query.id.endpoint⟩]
    | _ => []
  | _ => []

/-- How the command in a received frame ends, if it holds one for the device. -/
def ranBy : List (Except Fault Unit) :=
  if query.isTypeFor .command d.did then [(d.commanded query.id.endpoint query.payload).1] else []

/-- The attempt that handling a received frame makes. -/
def triedBy : List (Attempt α) :=
  if query.isFor d.did then (d.countReceived query.id.frameType).asks query else []

/-- A received frame holds one command for the device, or none. -/
theorem ranBy_cases :
    d.ranBy query = [] ∨ d.ranBy query = [(d.commanded query.id.endpoint query.payload).1] := by
  unfold ranBy
  split
  next => exact Or.inr rfl
  next => exact Or.inl rfl

theorem commanded_of_missing (missing : d.capabilities.command = false) (endpoint : Endpoint)
    (payload : List UInt8) : (d.commanded endpoint payload).1 = .error .handlerMissing := by
  simp [commanded, missing]

theorem shows_commanded (failures : TellsFailures α) (endpoint : Endpoint) (payload : List UInt8) :
    Shows (errorRegister (d.commanded endpoint payload).1) (d.commanded endpoint payload).1 := by
  refine shows_errorRegister fun fault failed => ?_
  unfold commanded at failed
  split at failed
  next => exact failures.command failed
  next =>
    cases Except.error.inj failed
    decide

theorem errors_readAttribute (key : Key) :
    (d.readAttribute key).device.system.errors = d.system.errors := by
  have h := retrieving d key
  generalize d.readAttribute key = out at h ⊢
  cases h <;> rfl

theorem errors_writeAttribute (key : Key) (value : UInt32) :
    (d.writeAttribute key value).device.system.errors = d.system.errors := by
  have h := storing d key value
  generalize d.writeAttribute key value = out at h ⊢
  cases h <;> rfl

theorem errors_runCommand (endpoint : Endpoint) (payload : List UInt8) :
    (d.runCommand endpoint payload).device.system.errors =
      d.system.errors.note [(d.commanded endpoint payload).1] ([] : List (Attempt α)) := by
  rw [runCommand_eq]
  rfl

theorem errors_buildTelemetry (endpoint : Endpoint) :
    (d.buildTelemetry endpoint).device.system.errors =
      d.system.errors.note [] [⟨d, endpoint⟩] := by
  refine ErrorRegisters.ext ?_ rfl
  have h := measuring d endpoint
  generalize d.buildTelemetry endpoint = out at h ⊢
  cases h <;> rfl

theorem errors_dispatch :
    (d.dispatch query).device.system.errors =
      d.system.errors.note
        (if query.id.frameType = .command then [(d.commanded query.id.endpoint query.payload).1]
        else []) (d.asks query) := by
  have h := dispatching d query
  have hran := errors_runCommand d query.id.endpoint query.payload
  generalize d.dispatch query = out at h ⊢
  cases h with
  | commandFailed fault e acts type ran =>
    rw [ran] at hran
    simpa [asks, type, ran] using hran
  | command e acts type ran =>
    rw [ran] at hran
    have hbuilt := errors_buildTelemetry e query.id.endpoint
    rw [hran, ErrorRegisters.note_note] at hbuilt
    simpa [asks, type, ran] using hbuilt
  | telemetry type => simpa [asks, type] using errors_buildTelemetry d query.id.endpoint
  | malformed type =>
    cases hf : query.id.frameType <;> simp [hf, FrameType.isAttribute] at type <;> simp [asks, hf]
  | read key type => simpa [asks, type] using errors_readAttribute d key
  | writeFailed key value fault e acts type _ _ wrote =>
    have hwrote := errors_writeAttribute d key value
    rw [wrote] at hwrote
    simpa [asks, type] using hwrote
  | write key value e acts type _ _ wrote =>
    have hwrote := errors_writeAttribute d key value
    rw [wrote] at hwrote
    simpa [asks, type] using (errors_readAttribute e key).trans hwrote

/-- A query that makes an attempt fares as the attempt does. -/
theorem result_dispatch_of_asks {a : Attempt α} (h : a ∈ d.asks query) :
    (d.dispatch query).result = a.outcome.result := by
  unfold asks at h
  split at h
  next type =>
    cases List.mem_singleton.mp h
    simp [dispatch, type, Attempt.outcome]
  next type =>
    split at h
    next ran acts done =>
      cases List.mem_singleton.mp h
      simp [dispatch, type, answerCommand, done, Attempt.outcome]
    next => simp at h
  next => simp at h

omit [Application α] in
theorem errors_countReceived (frameType : FrameType) :
    (d.countReceived frameType).system.errors = d.system.errors := by
  cases frameType <;> rfl

variable {d query} in
theorem errors_dispatched {result : Except Fault Frame} {e : Device α} {acts : List DeviceAct}
    (mine : query.isFor d.did = true)
    (done : (d.countReceived query.id.frameType).dispatch query = ⟨result, e, acts⟩) :
    e.system.errors = d.system.errors.note (d.ranBy query) (d.triedBy query) := by
  have hdone := errors_dispatch (d.countReceived query.id.frameType) query
  rw [done, errors_countReceived] at hdone
  rw [hdone, ranBy, triedBy, if_pos mine]
  simp only [Frame.isTypeFor, mine, Bool.true_and, decide_eq_true_eq]
  rfl

theorem errors_handle :
    (d.handle query).device.system.errors =
      d.system.errors.note (d.ranBy query) (d.triedBy query) := by
  have h := handling d query
  generalize d.handle query = out at h ⊢
  cases h with
  | ignored other =>
    have hother : query.isFor d.did = false := by
      rwa [← Frame.isFor_iff, Bool.not_eq_true] at other
    simp only [ranBy, triedBy, Frame.isTypeFor, hother, Bool.false_and, Bool.false_eq_true,
      if_false]
    rfl
  | answered answer e acts concerned done =>
    exact errors_dispatched (e := e) (Frame.isFor_iff.mpr concerned) done
  | reported fault e acts concerned failed =>
    exact errors_dispatched (e := e) (Frame.isFor_iff.mpr concerned) failed
  | silenced fault e acts concerned failed =>
    exact errors_dispatched (Frame.isFor_iff.mpr concerned) failed

theorem shown_handle {a : Attempt α} (h : a ∈ d.triedBy query) :
    a.ShownIn (d.handle query).result (d.handle query).acts := by
  unfold triedBy at h
  split at h
  next mine =>
    have hresult := result_dispatch_of_asks _ query h
    have hhandle := handling d query
    generalize d.handle query = out at hhandle ⊢
    unfold Attempt.ShownIn
    cases hhandle with
    | ignored other => exact absurd (Frame.isFor_iff.mp mine) other
    | answered answer e acts _ done =>
      rw [done] at hresult
      simp [← hresult]
    | reported fault e acts _ failed =>
      rw [failed] at hresult
      simp [← hresult]
    | silenced fault e acts _ failed =>
      rw [failed] at hresult
      simp [← hresult]
  next => simp at h

end Handle

section Poll

variable (d : Device α)

/-- The attempt that a device makes on its own: one that was triggered, or that is due. -/
def due : List (Attempt α) := d.dueTelemetry.toList.map fun endpoint => ⟨d.trying, endpoint⟩

variable {d} {out : Polled α π} {p : π}

theorem Reporting.errors (h : d.Reporting p out) :
    out.device.system.errors = d.system.errors.note [] d.due := by
  cases h with
  | idle none => simp [due, none]
  | failed endpoint fault e acts due built =>
    have hbuilt := errors_buildTelemetry d.trying endpoint
    rw [built] at hbuilt
    simp only [Device.due, due]
    exact hbuilt
  | sent endpoint frame e acts due built =>
    have hbuilt := errors_buildTelemetry d.trying endpoint
    rw [built] at hbuilt
    simp only [Device.due, due]
    exact hbuilt

theorem Reporting.shown (h : d.Reporting p out) {a : Attempt α} (tried : a ∈ d.due) :
    a.ShownIn none out.acts := by
  unfold Attempt.ShownIn Attempt.outcome
  cases h with
  | idle none => simp [due, none] at tried
  | failed endpoint fault e acts due built =>
    obtain rfl : a = ⟨d.trying, endpoint⟩ := by simpa [Device.due, due] using tried
    simp [built]
  | sent endpoint frame e acts due built =>
    obtain rfl : a = ⟨d.trying, endpoint⟩ := by simpa [Device.due, due] using tried
    simp [built]

variable {query : Frame} {a : Attempt α}

theorem Replying.shown (h : d.Replying p query out) (tried : a ∈ d.triedBy query) :
    a.ShownIn none out.acts := by
  have hshown := shown_handle d query tried
  cases h with
  | silent none => exact none ▸ hshown
  | said answer some sent delay =>
    rw [some] at hshown
    exact hshown.send delay

variable [Platform π]

omit [Application α] in
theorem Syncing.errors (h : d.Syncing p out) : out.device.system.errors = d.system.errors := by
  cases h <;> rfl

variable (d p) in
/-- How the command in the frame that a poll receives ends. -/
def ranInPoll : List (Except Fault Unit) := (incoming? p).toList.flatMap d.ranBy

variable (d p) in
/-- The attempt that a poll makes for the frame that it receives. -/
def triedInTake : List (Attempt α) :=
  (incoming? p).toList.flatMap (d.updateTime (Platform.now p)).triedBy

variable (d p) in
/-- The attempts that a poll makes: for the frame that it receives, and then on its own, unless
it broke off. -/
def triedInPoll : List (Attempt α) :=
  d.triedInTake p ++
    match (d.take p).result with
    | .ok () => (d.take p).device.due
    | .error _ => []

theorem Taking.errors (h : d.Taking p out) :
    out.device.system.errors = d.system.errors.note (d.ranInPoll p) (d.triedInTake p) := by
  have hreply (query : Frame) (q : π) (received : Platform.receive p = (.ok (some query), q)) :
      ((d.updateTime (Platform.now p)).reply q query).device.system.errors =
        d.system.errors.note (d.ranInPoll p) (d.triedInTake p) := by
    rw [device_reply, errors_handle, ranInPoll, triedInTake, incoming?_of_received received]
    simp only [Option.toList_some, List.flatMap_singleton]
    rfl
  cases h with
  | idle silent =>
    rw [ranInPoll, triedInTake, incoming?_of_silent silent]
    rfl
  | unsent query q received => exact hreply query q received
  | served query q received replied synced reply _ sync =>
    rw [← hreply query q received, reply]
    exact sync.errors

theorem Taking.shown (h : d.Taking p out) (tried : a ∈ d.triedInTake p) :
    a.ShownIn none out.acts := by
  have hquery (query : Frame) (q : π) (received : Platform.receive p = (.ok (some query), q)) :
      a ∈ (d.updateTime (Platform.now p)).triedBy query := by
    simpa [triedInTake, incoming?_of_received received] using tried
  cases h with
  | idle silent => simp [triedInTake, incoming?_of_silent silent] at tried
  | unsent query q received => exact (replying _ q query).shown (hquery query q received)
  | served query q received replied synced reply _ sync =>
    have hshown := (replying _ q query).shown (hquery query q received)
    rw [reply] at hshown
    exact hshown.mono (List.subset_append_left _ _)

variable (d p)

theorem errors_poll :
    (d.poll p).device.system.errors = d.system.errors.note (d.ranInPoll p) (d.triedInPoll p) := by
  have htake := (taking d p).errors
  rw [poll_eq, triedInPoll]
  split
  next failed => rw [failed, List.append_nil, htake]
  next done =>
    -- The attempt for the received frame comes first, so the device's own one decides.
    have hreport := (reporting (d.take p).device (d.take p).platform).errors
    rw [htake, ErrorRegisters.note_note, List.append_nil] at hreport
    rw [done]
    exact hreport

theorem shown_poll (tried : a ∈ d.triedInPoll p) : a.ShownIn none (d.poll p).acts := by
  have htake := fun tried => (taking d p).shown (a := a) tried
  rw [poll_eq]
  rw [triedInPoll] at tried
  split
  next failed =>
    rw [failed, List.append_nil] at tried
    exact htake tried
  next done =>
    rw [done] at tried
    rcases List.mem_append.mp tried with first | second
    · exact (htake first).mono (List.subset_append_left _ _)
    · have hreport := (reporting (d.take p).device (d.take p).platform).shown second
      exact hreport.mono (List.subset_append_right _ _)

end Poll

section Run

variable [Platform π]

/-- How the commands that a request brings end. -/
def commands (d : Device α) : DeviceRequest α π → List (Except Fault Unit)
  | .handle query => d.ranBy query
  | .poll p => d.ranInPoll p
  | _ => []

/-- The attempts to build telemetry that a request leads to. -/
def attempts (d : Device α) : DeviceRequest α π → List (Attempt α)
  | .handle query => d.triedBy query
  | .poll p => d.triedInPoll p
  | _ => []

theorem errors_perform (d : Device α) (r : DeviceRequest α π) (kept : r ≠ .resetCounters) :
    (d.perform r).device.system.errors = d.system.errors.note (d.commands r) (d.attempts r) := by
  cases r with
  | handle query => exact errors_handle d query
  | poll p => exact errors_poll d p
  | read key => exact errors_readAttribute d key
  | write key value => exact errors_writeAttribute d key value
  | resetCounters => exact absurd rfl kept
  | updateTime _ | trigger _ | setBattery _ | configure _ | adapt _ => rfl

theorem shown_perform (d : Device α) (r : DeviceRequest α π) {a : Attempt α}
    (tried : a ∈ d.attempts r) : a.ShownIn (d.perform r).result (d.perform r).acts := by
  cases r with
  | handle query => exact shown_handle d query tried
  | poll p => exact shown_poll d p tried
  | read _ | write _ _ | resetCounters | updateTime _ | trigger _ | setBattery _ | configure _
  | adapt _ => cases tried

/-- The attempts to build telemetry in a run. -/
def allAttempts (d : Device α) : List (DeviceRequest α π) → List (Attempt α)
  | [] => []
  | r :: rest => d.attempts r ++ (d.perform r).device.allAttempts rest

/-- A request brings one command, or none. -/
theorem commands_cases (d : Device α) (r : DeviceRequest α π) :
    d.commands r = [] ∨ ∃ endpoint payload, d.commands r = [(d.commanded endpoint payload).1] := by
  cases r with
  | handle query => exact (d.ranBy_cases query).imp_right fun h => ⟨_, _, h⟩
  | poll p =>
    cases hquery : incoming? p with
    | none => exact Or.inl (by simp [commands, ranInPoll, hquery])
    | some query =>
      have hran : d.commands (.poll p) = d.ranBy query := by simp [commands, ranInPoll, hquery]
      exact (d.ranBy_cases query).imp hran.trans fun h => ⟨_, _, hran.trans h⟩
  | read _ | write _ _ | resetCounters | updateTime _ | trigger _ | setBattery _ | configure _
  | adapt _ => exact Or.inl rfl

/-- The error registers tell the truth, but for telemetry that claims to be longer than a frame:
the attempt fails, and the register shows success. -/
theorem error_registers_tell (failures : TellsFailures α) (d : Device α)
    (r : DeviceRequest α π) :
    (∀ a ∈ d.attempts r, a.ShownIn (d.perform r).result (d.perform r).acts ∧
      (¬ a.Oversized → Shows a.register a.outcome.result) ∧
      (a.Oversized → a.outcome.result = .error .invalidArgument ∧ a.register = 0)) ∧
    (∀ a, (d.attempts r).getLast? = some a →
      (d.perform r).device.system.lastTelemetryError = a.register) ∧
    (∀ result ∈ d.commands r, Shows (d.perform r).device.system.lastCommandError result ∧
      (d.capabilities.command = false → result = .error .handlerMissing)) ∧
    (r ≠ .resetCounters →
      (d.attempts r = [] →
        (d.perform r).device.system.lastTelemetryError = d.system.lastTelemetryError) ∧
      (d.commands r = [] →
        (d.perform r).device.system.lastCommandError = d.system.lastCommandError)) := by
  have htelemetry (kept : r ≠ .resetCounters) :
      (d.perform r).device.system.lastTelemetryError =
        (d.attempts r).getLast?.elim d.system.lastTelemetryError Attempt.register :=
    congrArg ErrorRegisters.telemetry (errors_perform d r kept)
  have hcommand (kept : r ≠ .resetCounters) :
      (d.perform r).device.system.lastCommandError =
        (d.commands r).getLast?.elim d.system.lastCommandError errorRegister :=
    congrArg ErrorRegisters.command (errors_perform d r kept)
  refine ⟨fun a tried => ⟨shown_perform d r tried, a.shows_register failures, a.of_oversized⟩,
    fun a last => ?_, fun result ended => ?_, fun kept => ⟨fun none => ?_, fun none => ?_⟩⟩
  · have kept : r ≠ .resetCounters := by
      rintro rfl
      cases last
    rw [htelemetry kept, last]
    rfl
  · have kept : r ≠ .resetCounters := by
      rintro rfl
      cases ended
    rcases d.commands_cases r with hnone | ⟨endpoint, payload, hone⟩
    · simp [hnone] at ended
    · rw [hcommand kept, hone]
      obtain rfl : result = _ := List.mem_singleton.mp (hone ▸ ended)
      exact ⟨d.shows_commanded failures endpoint payload,
        fun missing => d.commanded_of_missing missing endpoint payload⟩
  · rw [htelemetry kept, none]
    rfl
  · rw [hcommand kept, none]
    rfl

end Run

end Device

namespace Thermostat

theorem tellsFailures : TellsFailures Thermostat where
  command {t endpoint payload fault} failed := by
    change (t.command endpoint payload).1 = .error fault at failed
    unfold Thermostat.command at failed
    split at failed <;> cases failed <;> decide
  telemetry {t endpoint fault} failed := by
    change (t.telemetry endpoint).map _ = .error fault at failed
    cases endpoint <;> cases failed <;> decide

/-- The register keeps why there is no telemetry of an endpoint. -/
theorem error_registers_tell_endpoint :
    let d : Device Thermostat := .build (.ofName (.ofRaw 1) 1 "d" 0) {} { temperature := 1900 }
    let asked : DeviceRequest Thermostat Mailbox := .handle (.telemetryQuery (.ofRaw 1) .ep2)
    (d.perform asked).device.system.lastTelemetryError = 0x3A07 := by
  intro d asked
  obtain ⟨hattempts, hlast, _⟩ := Device.error_registers_tell tellsFailures d asked
  have hattempt : d.attempts asked = [⟨d.countReceived .telemetry, .ep2⟩] := rfl
  obtain ⟨_, hshows, _⟩ := hattempts _ (hattempt ▸ List.mem_cons_self)
  rw [hlast _ (by rw [hattempt]; rfl)]
  exact (hshows fun ⟨reading, told, _⟩ => nomatch told).code .invalidEndpoint rfl

end Thermostat

/-- An application that claims nine bytes of telemetry. -/
inductive Overfull
  | overfull

instance : Application Overfull where
  capabilities _ := { telemetry := true }
  telemetry a _ := (.ok ⟨.replicate 8 0, 9⟩, a)

namespace Overfull

def device : Device Overfull := .build (.ofName (.ofRaw 1) 1 "d" 0) {} .overfull

def query : Frame := .telemetryQuery (.ofRaw 1) .app

theorem tellsFailures : TellsFailures Overfull where
  command failed := by
    cases failed
    decide
  telemetry failed := nomatch failed

/-- The telemetry is answered by an error, and the register shows success. -/
theorem failed_telemetry_unnoticed :
    TellsFailures Overfull ∧
      (device.handle query).result.bind Frame.error? = some (FaultKind.invalidArgument.code, 0) ∧
      (device.handle query).device.system.lastTelemetryError = 0 :=
  ⟨tellsFailures, by decide, by decide⟩

end Overfull

end Fieldbus
