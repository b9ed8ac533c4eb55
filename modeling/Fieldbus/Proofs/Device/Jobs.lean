import Fieldbus.Proofs.Attribute.Unresolved
import Fieldbus.Proofs.Device.Counters

namespace Fieldbus

/-- The window of the settings that a key names, if it names one. -/
def Key.settings? (k : Key) : Option Window :=
  match k.resolve with
  | .ok w => if w.target = .config then some w else none
  | .error _ => none

theorem Key.settings?_eq_some_iff {k : Key} {w : Window} :
    k.settings? = some w ↔ k.resolve = .ok w ∧ w.target = .config := by
  unfold settings?
  split
  next v resolves =>
    rw [Option.ite_none_right_eq_some, resolves]
    constructor
    · rintro ⟨target, same⟩
      cases Option.some.inj same
      exact ⟨rfl, target⟩
    · rintro ⟨same, target⟩
      cases Except.ok.inj same
      exact ⟨target, rfl⟩
  next fault resolves => simp [resolves]

theorem Key.settings?_of_foreign {k : Key} (foreign : 3 ≤ k.sectionCode) : k.settings? = none := by
  simp only [settings?, resolve_eq_unknownSection_iff.mpr foreign]

/-- The capability under which a handler is called. -/
def Capabilities.offers (c : Capabilities) : Call → Bool
  | .command .. => c.command
  | .telemetry _ => c.telemetry
  | .readCustom _ | .writeCustom .. => c.customAttributes
  | .configRead | .configWritten _ => c.configHooks

/-- The handlers that are called, in order. -/
def handlerCalls (acts : List DeviceAct) : List Call :=
  acts.filterMap fun
    | .call c => some c
    | _ => none

@[simp] theorem handlerCalls_nil : handlerCalls [] = [] := rfl

@[simp] theorem handlerCalls_append (a b : List DeviceAct) :
    handlerCalls (a ++ b) = handlerCalls a ++ handlerCalls b := List.filterMap_append

/-- What a device has to do that its application may have a handler for. -/
inductive Job (α : Type)
  | command (endpoint : Endpoint) (payload : List UInt8)
  | telemetry (endpoint : Endpoint)
  | read (source : Device α) (key : Key)
  | write (source : Device α) (key : Key) (value : UInt32)

namespace Job

variable {α : Type}

/-- The hook that belongs to an access to the settings: once written, they hold the new bytes. -/
def hook? : Job α → Option Call
  | .read _ key => key.settings?.map fun _ => .configRead
  | .write source key value =>
    key.settings?.map fun w => .configWritten (source.config.patch w value)
  | .command .. | .telemetry _ => none

/-- The handler that belongs to a job, if there is one. -/
def call? : Job α → Option Call
  | .command endpoint payload => some (.command endpoint payload)
  | .telemetry endpoint => some (.telemetry endpoint)
  | .read source key =>
    if 3 ≤ key.sectionCode then some (.readCustom key) else (read source key).hook?
  | .write source key value =>
    if 3 ≤ key.sectionCode then some (.writeCustom key value) else (write source key value).hook?

theorem call?_read (source : Device α) (key : Key) :
    (read source key).call? =
      if 3 ≤ key.sectionCode then some (.readCustom key)
      else key.settings?.map fun _ => .configRead := rfl

theorem call?_write (source : Device α) (key : Key) (value : UInt32) :
    (write source key value).call? =
      if 3 ≤ key.sectionCode then some (.writeCustom key value)
      else key.settings?.map fun w => .configWritten (source.config.patch w value) := rfl

/-- The handlers that are called for jobs under the capabilities of a device. -/
def calls (c : Capabilities) (jobs : List (Job α)) : List Call :=
  (jobs.filterMap call?).filter c.offers

variable (c : Capabilities)

@[simp] theorem calls_nil : calls c ([] : List (Job α)) = [] := rfl

@[simp] theorem calls_append (first second : List (Job α)) :
    calls c (first ++ second) = calls c first ++ calls c second := by
  simp only [calls, List.filterMap_append, List.filter_append]

theorem calls_cons (job : Job α) (rest : List (Job α)) :
    calls c (job :: rest) = calls c [job] ++ calls c rest := calls_append c [job] rest

theorem calls_of_call? (job : Job α) (call : Call) (h : job.call? = some call) :
    calls c [job] = if c.offers call then [call] else [] := by
  rw [calls, List.filterMap_cons_some h, List.filterMap_nil, List.filter_cons, List.filter_nil]

theorem calls_command (endpoint : Endpoint) (payload : List UInt8) :
    calls c [(command endpoint payload : Job α)] =
      if c.command then [.command endpoint payload] else [] :=
  calls_of_call? c (command endpoint payload) (.command endpoint payload) rfl

theorem calls_telemetry (endpoint : Endpoint) :
    calls c [(telemetry endpoint : Job α)] = if c.telemetry then [.telemetry endpoint] else [] :=
  calls_of_call? c (telemetry endpoint) (.telemetry endpoint) rfl

section Access

variable (source : Device α) {key : Key} (value : UInt32) {w : Window}

theorem calls_read_settings (resolves : key.resolve = .ok w) (target : w.target = .config) :
    calls c [read source key] = if c.configHooks then [.configRead] else [] := by
  have hstandard := Key.sectionCode_of_resolves resolves
  have hsettings := Key.settings?_eq_some_iff.mpr ⟨resolves, target⟩
  exact calls_of_call? c (read source key) .configRead (by simp [call?_read, hstandard, hsettings])

theorem calls_write_settings (resolves : key.resolve = .ok w) (target : w.target = .config) :
    calls c [write source key value] =
      if c.configHooks then [.configWritten (source.config.patch w value)] else [] := by
  have hstandard := Key.sectionCode_of_resolves resolves
  have hsettings := Key.settings?_eq_some_iff.mpr ⟨resolves, target⟩
  exact calls_of_call? c (write source key value) (.configWritten (source.config.patch w value))
    (by simp [call?_write, hstandard, hsettings])

theorem calls_read_custom (foreign : 3 ≤ key.sectionCode) :
    calls c [read source key] = if c.customAttributes then [.readCustom key] else [] :=
  calls_of_call? c (read source key) (.readCustom key) (if_pos foreign)

theorem calls_write_custom (foreign : 3 ≤ key.sectionCode) :
    calls c [write source key value] =
      if c.customAttributes then [.writeCustom key value] else [] :=
  calls_of_call? c (write source key value) (.writeCustom key value) (if_pos foreign)

/-- No handler belongs to the attributes that a device keeps without its application. -/
theorem calls_of_own (standard : key.sectionCode < 3) (own : key.settings? = none) :
    calls c [read source key] = [] ∧ calls c [write source key value] = [] := by
  simp [calls, call?_read, call?_write, standard, own]

end Access

end Job

namespace Device

variable {α : Type} [Application α]

section Access

variable (d : Device α) (key : Key) (value : UInt32)

theorem handlerCalls_readAttribute :
    handlerCalls (d.readAttribute key).acts = Job.calls d.capabilities [.read d key] := by
  have h := retrieving d key
  generalize d.readAttribute key = out at h ⊢
  cases h with
  | stored w resolves unhooked =>
    by_cases target : w.target = .config
    · rw [Job.calls_read_settings _ d resolves target, unhooked target]
      rfl
    · have own : key.settings? = none := by simp [Key.settings?, resolves, target]
      rw [(Job.calls_of_own _ d 0 (Key.sectionCode_of_resolves resolves) own).1]
      rfl
  | refreshed w config app resolves target hooked =>
    rw [Job.calls_read_settings _ d resolves target, hooked]
    rfl
  | stale w fault config app resolves target hooked =>
    rw [Job.calls_read_settings _ d resolves target, hooked]
    rfl
  | custom resolves offered =>
    rw [Job.calls_read_custom _ d (Key.resolve_eq_unknownSection_iff.mp resolves), offered]
    rfl
  | unresolved fault resolves uncustom =>
    rcases Nat.lt_or_ge key.sectionCode 3 with standard | foreign
    · have own : key.settings? = none := by simp [Key.settings?, resolves]
      rw [(Job.calls_of_own _ d 0 standard own).1]
      rfl
    · have is : fault = .unknownSection := by
        simpa [resolves] using Key.resolve_eq_unknownSection_iff.mpr foreign
      rw [Job.calls_read_custom _ d foreign, uncustom is]
      rfl

theorem handlerCalls_writeAttribute :
    handlerCalls (d.writeAttribute key value).acts =
      Job.calls d.capabilities [.write d key value] := by
  have h := storing d key value
  generalize d.writeAttribute key value = out at h ⊢
  cases h with
  | fixed w resolves fixed =>
    have htarget : w.target ≠ .config := fun target =>
      nomatch fixed.symm.trans (Key.readOnly_of_config resolves target)
    have own : key.settings? = none := by simp [Key.settings?, resolves, htarget]
    rw [(Job.calls_of_own _ d value (Key.sectionCode_of_resolves resolves) own).2]
    rfl
  | time is =>
    have own : key.settings? = none := by rw [is]; rfl
    rw [(Job.calls_of_own _ d value (is ▸ by decide) own).2]
    rfl
  | plain w resolves target unhooked =>
    rw [Job.calls_write_settings _ d value resolves target, unhooked]
    rfl
  | accepted w app resolves target hooked =>
    rw [Job.calls_write_settings _ d value resolves target, hooked]
    rfl
  | rejected w fault app resolves target hooked =>
    rw [Job.calls_write_settings _ d value resolves target, hooked]
    rfl
  | custom resolves offered =>
    rw [Job.calls_write_custom _ d value (Key.resolve_eq_unknownSection_iff.mp resolves), offered]
    rfl
  | unresolved fault resolves uncustom =>
    rcases Nat.lt_or_ge key.sectionCode 3 with standard | foreign
    · have own : key.settings? = none := by simp [Key.settings?, resolves]
      rw [(Job.calls_of_own _ d value standard own).2]
      rfl
    · have is : fault = .unknownSection := by
        simpa [resolves] using Key.resolve_eq_unknownSection_iff.mpr foreign
      rw [Job.calls_write_custom _ d value foreign, uncustom is]
      rfl

theorem handlerCalls_runCommand (endpoint : Endpoint) (payload : List UInt8) :
    handlerCalls (d.runCommand endpoint payload).acts =
      Job.calls d.capabilities [(.command endpoint payload : Job α)] := by
  rw [runCommand_eq, Job.calls_command]
  cases d.capabilities.command <;> rfl

theorem handlerCalls_buildTelemetry (endpoint : Endpoint) :
    handlerCalls (d.buildTelemetry endpoint).acts =
      Job.calls d.capabilities [(.telemetry endpoint : Job α)] := by
  have hcalls : handlerCalls (d.measuringCalls endpoint) =
      if d.capabilities.telemetry then [.telemetry endpoint] else [] := by
    unfold measuringCalls
    cases d.capabilities.telemetry <;> rfl
  rw [Job.calls_telemetry, ← hcalls]
  have h := measuring d endpoint
  generalize d.buildTelemetry endpoint = out at h ⊢
  cases h <;> rfl

end Access

section Handle

variable (d : Device α) (query : Frame)

/-- The jobs that a query brings: telemetry follows a command that was carried out, and a value
that was written is read back. -/
def jobsOf : List (Job α) :=
  match query.id.frameType with
  | .command =>
    .command query.id.endpoint query.payload ::
      match (d.runCommand query.id.endpoint query.payload).result with
      | .ok () => [.telemetry query.id.endpoint]
      | .error _ => []
  | .telemetry => [.telemetry query.id.endpoint]
  | .readAttribute => query.key?.toList.map (.read d)
  | .writeAttribute =>
    match query.key?, query.value? with
    | some key, some value =>
      .write d key value ::
        match (d.writeAttribute key value).result with
        | .ok () => [.read (d.writeAttribute key value).device key]
        | .error _ => []
    | _, _ => []

/-- The jobs that a received frame brings: none unless it is for the device. -/
def jobsFor : List (Job α) :=
  if query.isFor d.did then (d.countReceived query.id.frameType).jobsOf query else []

theorem handlerCalls_dispatch :
    handlerCalls (d.dispatch query).acts = Job.calls d.capabilities (d.jobsOf query) := by
  have hran := handlerCalls_runCommand d query.id.endpoint query.payload
  have hcapable := (works_runCommand d query.id.endpoint query.payload).steady.capabilities
  have h := dispatching d query
  generalize d.dispatch query = out at h ⊢
  cases h with
  | commandFailed fault e acts type ran =>
    rw [ran] at hran
    simp only [jobsOf, type, ran, hran]
  | command e acts type ran =>
    rw [ran] at hran hcapable
    have hbuilt := handlerCalls_buildTelemetry e query.id.endpoint
    rw [hcapable] at hbuilt
    rw [handlerCalls_append, hran, hbuilt, ← Job.calls_cons]
    simp only [jobsOf, type, ran]
  | telemetry type => simpa only [jobsOf, type] using handlerCalls_buildTelemetry d _
  | malformed type cut =>
    have hnone : d.jobsOf query = [] := by
      cases hf : query.id.frameType <;> simp [hf, FrameType.isAttribute] at type cut
      · rcases cut with hkey | hvalue
        · simp [jobsOf, hf, hkey]
        · cases hkey : query.key? <;> simp [jobsOf, hf, hkey, hvalue]
      · simp [jobsOf, hf, cut]
    rw [hnone]
    rfl
  | read key type asked =>
    simpa [jobsOf, type, asked] using handlerCalls_readAttribute d key
  | writeFailed key value fault e acts type asked given wrote =>
    have hwrote := handlerCalls_writeAttribute d key value
    rw [wrote] at hwrote
    simp only [jobsOf, type, asked, given, wrote, hwrote]
  | write key value e acts type asked given wrote =>
    have hwrote := handlerCalls_writeAttribute d key value
    have hsame := (steady_writeAttribute d key value).capabilities
    have hread := handlerCalls_readAttribute e key
    rw [wrote] at hwrote hsame
    rw [hsame] at hread
    rw [handlerCalls_append, hwrote, hread, ← Job.calls_cons]
    simp only [jobsOf, type, asked, given, wrote]

theorem handlerCalls_handle :
    handlerCalls (d.handle query).acts = Job.calls d.capabilities (d.jobsFor query) := by
  have hdone := handlerCalls_dispatch (d.countReceived query.id.frameType) query
  have h := handling d query
  generalize d.handle query = out at h ⊢
  have hmine : ∀ {result e acts}, query.isFor d.did = true →
      (d.countReceived query.id.frameType).dispatch query = ⟨result, e, acts⟩ →
      handlerCalls acts = Job.calls d.capabilities (d.jobsFor query) := by
    intro result e acts mine done
    rw [done] at hdone
    rw [jobsFor, if_pos mine]
    exact hdone
  cases h with
  | ignored other =>
    rw [jobsFor, if_neg (mt Frame.isFor_iff.mp other)]
    rfl
  | answered answer e acts concerned done =>
    have hacts := hmine (Frame.isFor_iff.mpr concerned) done
    simpa [handlerCalls] using hacts
  | reported fault e acts concerned failed =>
    have hacts := hmine (Frame.isFor_iff.mpr concerned) failed
    simpa [handlerCalls] using hacts
  | silenced fault e acts concerned failed =>
    have hacts := hmine (Frame.isFor_iff.mpr concerned) failed
    simpa [handlerCalls] using hacts

end Handle

end Device

end Fieldbus
