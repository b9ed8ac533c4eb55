import Fieldbus.Proofs.Device.Answer
import Fieldbus.Proofs.Device.AttributeStore
import Fieldbus.Proofs.Device.Jobs
import Fieldbus.Proofs.Device.Unsolicited

namespace Fieldbus

def Attempt.job {α : Type} (a : Attempt α) : Job α := .telemetry a.endpoint

namespace Call

def command? : Call → Option (Endpoint × List UInt8)
  | .command endpoint payload => some (endpoint, payload)
  | _ => none

def isHook : Call → Bool
  | .configRead | .configWritten _ => true
  | _ => false

end Call

namespace Job

variable {α : Type} {c : Capabilities} {jobs : List (Job α)}

def command? (job : Job α) : Option (Endpoint × List UInt8) := job.call?.bind Call.command?

theorem command?_command (endpoint : Endpoint) (payload : List UInt8) :
    (command endpoint payload : Job α).command? = some (endpoint, payload) := rfl

theorem command?_telemetry (endpoint : Endpoint) :
    (telemetry endpoint : Job α).command? = none := rfl

theorem command?_read (source : Device α) (key : Key) : (read source key).command? = none := by
  rw [command?, call?_read]
  split
  next => rfl
  next => cases key.settings? <;> rfl

theorem command?_write (source : Device α) (key : Key) (value : UInt32) :
    (write source key value).command? = none := by
  rw [command?, call?_write]
  split
  next => rfl
  next => cases key.settings? <;> rfl

theorem filterMap_command?_calls (c : Capabilities) (jobs : List (Job α)) :
    (calls c jobs).filterMap Call.command? = if c.command then jobs.filterMap command? else [] := by
  have hoffers : (fun call : Call => if c.offers call then call.command? else none) =
      fun call => if c.command then call.command? else none := by
    funext call
    cases call with
    | command => rfl
    | telemetry | readCustom | writeCustom | configRead | configWritten =>
      simp only [Call.command?, ite_self]
  rw [calls, List.filterMap_filter, hoffers]
  cases c.command with
  | true => exact List.filterMap_filterMap
  | false => simp

/-- The hook that belongs to a job is what it calls, unless that is no hook. -/
theorem filter_isHook_call? (job : Job α) : job.call?.filter Call.isHook = job.hook? := by
  cases job with
  | command | telemetry => rfl
  | read source key =>
    rw [call?_read, hook?]
    split
    next foreign => simp [Key.settings?_of_foreign foreign, Call.isHook]
    next => cases key.settings? <;> rfl
  | write source key value =>
    rw [call?_write, hook?]
    split
    next foreign => simp [Key.settings?_of_foreign foreign, Call.isHook]
    next => cases key.settings? <;> rfl

theorem filter_isHook_calls (hooked : c.configHooks = true) (jobs : List (Job α)) :
    (calls c jobs).filter Call.isHook = jobs.filterMap hook? := by
  have hoffers : (fun call : Call => call.isHook && c.offers call) = Call.isHook := by
    funext call
    cases call <;> simp [Call.isHook, Capabilities.offers, hooked]
  rw [calls, List.filter_filter, hoffers, List.filter_filterMap]
  exact congrArg (List.filterMap · jobs) (funext filter_isHook_call?)

theorem offers_of_mem_calls {call : Call} (h : call ∈ calls c jobs) : c.offers call = true :=
  (List.mem_filter.mp h).2

/-- Handlers for attributes of the application are called for its sections only. -/
theorem foreign_of_mem_calls {key : Key}
    (h : .readCustom key ∈ calls c jobs ∨ ∃ value, .writeCustom key value ∈ calls c jobs) :
    3 ≤ key.sectionCode := by
  obtain ⟨job, call⟩ : ∃ job : Job α, job.call? = some (.readCustom key) ∨
      ∃ value, job.call? = some (.writeCustom key value) := by
    rcases h with h | ⟨value, h⟩
    · obtain ⟨job, _, hcall⟩ := List.mem_filterMap.mp (List.mem_filter.mp h).1
      exact ⟨job, Or.inl hcall⟩
    · obtain ⟨job, _, hcall⟩ := List.mem_filterMap.mp (List.mem_filter.mp h).1
      exact ⟨job, Or.inr ⟨value, hcall⟩⟩
  cases job with
  | command | telemetry => simp [call?] at call
  | read source other =>
    rw [call?_read] at call
    split at call
    next foreign =>
      obtain rfl : other = key := by simpa using call
      exact foreign
    next => cases other.settings? <;> simp at call
  | write source other value =>
    rw [call?_write] at call
    split at call
    next foreign =>
      obtain rfl : other = key := by simpa using call
      exact foreign
    next => cases other.settings? <;> simp at call

end Job

namespace Device

variable {α π : Type} [Application α]

section Poll

variable {d : Device α} {p : π} {out : Polled α π}

theorem Reporting.called (h : d.Reporting p out) :
    handlerCalls out.acts = Job.calls d.capabilities (d.due.map Attempt.job) := by
  have hbuilt : ∀ {endpoint result e acts}, d.trying.buildTelemetry endpoint = ⟨result, e, acts⟩ →
      handlerCalls acts = Job.calls d.capabilities [(.telemetry endpoint : Job α)] := by
    intro endpoint result e acts built
    have hcalls := handlerCalls_buildTelemetry d.trying endpoint
    rwa [built] at hcalls
  cases h with
  | idle none => simp [due, none]
  | failed endpoint fault e acts due built =>
    rw [handlerCalls_append, Device.due, due]
    exact (List.append_nil _).trans (hbuilt built)
  | sent endpoint frame e acts due built =>
    rw [handlerCalls_append, Device.due, due]
    exact (List.append_nil _).trans (hbuilt built)

theorem Replying.called {query : Frame} (h : d.Replying p query out) :
    handlerCalls out.acts = Job.calls d.capabilities (d.jobsFor query) := by
  have hhandle := handlerCalls_handle d query
  cases h with
  | silent => exact hhandle
  | said answer => exact (handlerCalls_append _ _).trans ((List.append_nil _).trans hhandle)

variable [Platform π]

variable (d p) in
/-- The jobs that a poll brings: those of the frame that it receives, and then its own telemetry. -/
def jobsInPoll : List (Job α) :=
  (incoming? p).toList.flatMap (d.updateTime (Platform.now p)).jobsFor ++
    (d.unsolicited p).map Attempt.job

omit [Application α] in
theorem Syncing.called (h : d.Syncing p out) : handlerCalls out.acts = [] := by
  cases h <;> rfl

theorem Taking.called (h : d.Taking p out) :
    handlerCalls out.acts = Job.calls d.capabilities
      ((incoming? p).toList.flatMap (d.updateTime (Platform.now p)).jobsFor) := by
  have hreply (query : Frame) (q : π) :=
    (replying (d.updateTime (Platform.now p)) q query).called
  cases h with
  | idle silent => simp [incoming?_of_silent silent]
  | unsent query q received =>
    rw [incoming?_of_received received, Option.toList_some, List.flatMap_singleton]
    exact hreply query q
  | served query q received replied synced reply _ sync =>
    have hfirst := hreply query q
    rw [reply] at hfirst
    rw [incoming?_of_received received, Option.toList_some, List.flatMap_singleton,
      handlerCalls_append, hfirst, sync.called, List.append_nil]
    rfl

theorem handlerCalls_poll (d : Device α) (p : π) :
    handlerCalls (d.poll p).acts = Job.calls d.capabilities (d.jobsInPoll p) ∧
      (d.poll p).device.capabilities = d.capabilities := by
  have htake := (taking d p).called
  have hsame := (taking d p).steady.capabilities
  rw [poll_eq, jobsInPoll, unsolicited]
  split
  next failed => rw [failed, List.map_nil, List.append_nil]; exact ⟨htake, hsame⟩
  next done =>
    have hreporting := reporting (d.take p).device (d.take p).platform
    have hreport := hreporting.called
    rw [hsame] at hreport
    rw [done, handlerCalls_append, htake, hreport, ← Job.calls_append]
    exact ⟨rfl, hreporting.steady.capabilities.trans hsame⟩

end Poll

section Run

variable [Platform π]

/-- The jobs that a request brings. -/
def jobs (d : Device α) : DeviceRequest α π → List (Job α)
  | .handle query => d.jobsFor query
  | .poll p => d.jobsInPoll p
  | .read key => [.read d key]
  | .write key value => [.write d key value]
  | _ => []

theorem capabilities_perform (d : Device α) (r : DeviceRequest α π) :
    (d.perform r).device.capabilities = d.capabilities := by
  cases r with
  | handle query => exact (works_handle d query).steady.capabilities
  | poll p => exact (handlerCalls_poll d p).2
  | read key => exact (steady_readAttribute d key).capabilities
  | write key value => exact (steady_writeAttribute d key value).capabilities
  | updateTime _ | trigger _ | setBattery _ | resetCounters | configure _ | adapt _ => rfl

theorem handlerCalls_perform (d : Device α) (r : DeviceRequest α π) :
    handlerCalls (d.perform r).acts = Job.calls d.capabilities (d.jobs r) := by
  cases r with
  | handle query => exact handlerCalls_handle d query
  | poll p => exact (handlerCalls_poll d p).1
  | read key => exact handlerCalls_readAttribute d key
  | write key value => exact handlerCalls_writeAttribute d key value
  | updateTime _ | trigger _ | setBattery _ | resetCounters | configure _ | adapt _ => rfl

/-- The jobs of a run. -/
def allJobs (d : Device α) : List (DeviceRequest α π) → List (Job α)
  | [] => []
  | r :: rest => d.jobs r ++ (d.perform r).device.allJobs rest

/-- The handlers that are called in a run are those of its jobs that the device was built with. -/
theorem handlerCalls_run (d : Device α) (requests : List (DeviceRequest α π)) :
    handlerCalls (d.run requests).acts = Job.calls d.capabilities (d.allJobs requests) := by
  induction requests generalizing d with
  | nil => rfl
  | cons r rest ih =>
    rw [run_cons, handlerCalls_append, handlerCalls_perform, ih, capabilities_perform,
      ← Job.calls_append, allJobs]

end Run

section Commands

variable [Platform π] (d : Device α)

theorem commands_jobsOf (query : Frame) :
    (d.jobsOf query).filterMap Job.command? =
      if query.id.frameType = .command then [(query.id.endpoint, query.payload)] else [] := by
  cases type : query.id.frameType with
  | command =>
    cases ran : (d.runCommand query.id.endpoint query.payload).result <;>
      simp [jobsOf, type, ran, Job.command?_command, Job.command?_telemetry]
  | telemetry => simp [jobsOf, type, Job.command?_telemetry]
  | readAttribute => cases asked : query.key? <;> simp [jobsOf, type, asked, Job.command?_read]
  | writeAttribute =>
    cases asked : query.key? with
    | none => simp [jobsOf, type, asked]
    | some key =>
      cases given : query.value? with
      | none => simp [jobsOf, type, asked, given]
      | some value =>
        cases wrote : (d.writeAttribute key value).result <;>
          simp [jobsOf, type, asked, given, wrote, Job.command?_read, Job.command?_write]

theorem commands_jobsFor (query : Frame) :
    (d.jobsFor query).filterMap Job.command? =
      ([query].filter (Frame.isTypeFor .command d.did)).map
        fun f => (f.id.endpoint, f.payload) := by
  unfold jobsFor
  cases mine : query.isFor d.did with
  | false => simp [Frame.isTypeFor, mine]
  | true =>
    by_cases type : query.id.frameType = .command <;>
      simp [commands_jobsOf, Frame.isTypeFor, mine, type]

theorem commands_jobs (r : DeviceRequest α π) :
    (d.jobs r).filterMap Job.command? =
      (r.received.filter (Frame.isTypeFor .command d.did)).map
        fun f => (f.id.endpoint, f.payload) := by
  cases r with
  | handle query => exact d.commands_jobsFor query
  | poll p =>
    have hown : ((d.unsolicited p).map Attempt.job).filterMap Job.command? = [] := by
      simp [Attempt.job, Job.command?_telemetry]
    simp only [jobs, jobsInPoll, DeviceRequest.received, List.filterMap_append, hown]
    cases incoming? p with
    | none => rfl
    | some query =>
      have hquery := (d.updateTime (Platform.now p)).commands_jobsFor query
      rw [Option.toList_some, List.flatMap_singleton, hquery, List.append_nil]
      rfl
  | read key => simp [jobs, DeviceRequest.received, Job.command?_read]
  | write key value => simp [jobs, DeviceRequest.received, Job.command?_write]
  | updateTime _ | trigger _ | setBattery _ | resetCounters | configure _ | adapt _ => rfl

theorem commands_allJobs (requests : List (DeviceRequest α π)) :
    (d.allJobs requests).filterMap Job.command? =
      ((requests.flatMap (·.received)).filter (Frame.isTypeFor .command d.did)).map
        fun f => (f.id.endpoint, f.payload) := by
  induction requests generalizing d with
  | nil => rfl
  | cons r rest ih =>
    rw [allJobs, List.filterMap_append, commands_jobs, ih, did_perform, List.flatMap_cons,
      List.filter_append, List.map_append]

end Commands

section Values

variable {d : Device α} {query : Frame} {source : Device α} {key : Key} {fault : Fault}

/-- The value of a setting is read once the application has refreshed the settings. -/
theorem result_read_settings {w : Window} (settings : key.settings? = some w)
    (hooked : d.capabilities.configHooks = true) :
    (d.readAttribute key).result = (Application.configRead d.app d.config).1.map fun _ =>
      w.read (Application.configRead d.app d.config).2.1.toBytes := by
  obtain ⟨resolves, target⟩ := Key.settings?_eq_some_iff.mp settings
  simp only [readAttribute, resolves, target, refreshConfig, hooked, if_true]

/-- A query that a device reads an attribute for is answered by what it reads. -/
theorem asks_of_mem_jobsOf (job : .read source key ∈ d.jobsOf query) :
    d.AsksAttribute query key source := by
  cases type : query.id.frameType with
  | command =>
    cases ran : (d.runCommand query.id.endpoint query.payload).result <;>
      simp [jobsOf, type, ran] at job
  | telemetry => simp [jobsOf, type] at job
  | readAttribute =>
    obtain ⟨asked, rfl⟩ : query.key? = some key ∧ d = source := by
      simpa [jobsOf, type] using job
    exact .read key type asked
  | writeAttribute =>
    cases asked : query.key? with
    | none => simp [jobsOf, type, asked] at job
    | some other =>
      cases given : query.value? with
      | none => simp [jobsOf, type, asked, given] at job
      | some value =>
        cases wrote : (d.writeAttribute other value).result with
        | error fault => simp [jobsOf, type, asked, given, wrote] at job
        | ok _ =>
          obtain ⟨rfl, rfl⟩ : source = (d.writeAttribute other value).device ∧ key = other := by
            simpa [jobsOf, type, asked, given, wrote] using job
          exact .write key value type asked given wrote

theorem AsksAttribute.capabilities (h : d.AsksAttribute query key source) :
    source.capabilities = d.capabilities := by
  cases h with
  | read => rfl
  | write value => exact (steady_writeAttribute d key value).capabilities

theorem asks_of_mem_jobsFor (job : .read source key ∈ d.jobsFor query) :
    (d.countReceived query.id.frameType).AsksAttribute query key source := by
  unfold jobsFor at job
  split at job
  next => exact asks_of_mem_jobsOf job
  next => simp at job

/-- An attribute that cannot be read is no answer. -/
theorem type_of_unread {answer : Frame} (job : .read source key ∈ d.jobsFor query)
    (unread : (source.readAttribute key).result = .error fault)
    (h : (d.handle query).result = some answer) : answer.id.frameType ≠ .readAttribute := by
  have houtcome := (asks_of_mem_jobsFor job).dispatch.2
  rw [unread] at houtcome
  obtain ⟨_, _, hok | ⟨_, _, rfl⟩⟩ := handle_eq_some h
  · exact nomatch houtcome.symm.trans hok
  · change query.id.frameType.errorType ≠ .readAttribute
    cases query.id.frameType <;> decide

variable [Platform π]

theorem mem_jobsInPoll {p : π} (job : .read source key ∈ d.jobsInPoll p) :
    ∃ query, incoming? p = some query ∧
      .read source key ∈ (d.updateTime (Platform.now p)).jobsFor query := by
  simpa [jobsInPoll, Attempt.job] using job

theorem capabilities_of_mem_jobs {r : DeviceRequest α π} (job : .read source key ∈ d.jobs r) :
    source.capabilities = d.capabilities := by
  cases r with
  | handle query => exact (asks_of_mem_jobsFor job).capabilities
  | poll p =>
    obtain ⟨query, _, hquery⟩ := mem_jobsInPoll job
    exact (asks_of_mem_jobsFor hquery).capabilities
  | read other =>
    obtain ⟨rfl, _⟩ : source = d ∧ key = other := by simpa [jobs] using job
    rfl
  | write | updateTime | trigger | setBattery | resetCounters | configure | adapt =>
    simp [jobs] at job

/-- Whatever a device answers or sends when an attribute cannot be read, it is no value. -/
theorem type_of_unread_perform {r : DeviceRequest α π} {f : Frame}
    (job : .read source key ∈ d.jobs r)
    (unread : (source.readAttribute key).result = .error fault)
    (h : f ∈ (d.perform r).result.toList ++ sentFrames (d.perform r).acts) :
    f.id.frameType ≠ .readAttribute := by
  cases r with
  | handle query =>
    have hnone : sentFrames (d.handle query).acts = [] :=
      sentFrames_inner (works_handle d query).inner
    simp only [perform, hnone, List.append_nil, Option.mem_toList] at h
    exact type_of_unread job unread h
  | poll p =>
    obtain ⟨query, received, hquery⟩ := mem_jobsInPoll job
    simp only [perform, sentFrames_poll, answered, received, Option.bind_some, Option.toList_none,
      List.nil_append, List.mem_append, Option.mem_toList, List.mem_filterMap] at h
    rcases h with answer | ⟨a, _, built⟩
    · exact type_of_unread hquery unread answer
    · rw [id_of_buildTelemetry (a.frame?_eq_some_iff.mp built)]
      simp [Id.response]
  | read other =>
    have hnone : sentFrames (d.readAttribute other).acts = [] :=
      sentFrames_inner (works_readAttribute d other).inner
    simp [perform, hnone] at h
  | write | updateTime | trigger | setBattery | resetCounters | configure | adapt =>
    simp [jobs] at job

end Values

section Discipline

variable [Platform π]

/-- The handlers of an application are called as it offered them when the device was built,
whatever it offers later. The command handler is called once for each command to the device, the
handlers for attributes of the application for keys of its own sections, and the hooks once for
each access to the settings: before they are read, and after new bytes are written. Settings that
the application fails to refresh are not read. -/
theorem handlers_called_as_offered (identification : Identification) (config : Config) (app : α)
    (requests : List (DeviceRequest α π)) :
    let fresh := build identification config app
    let offered := Application.capabilities app
    let log := handlerCalls (fresh.run requests).acts
    (∀ call ∈ log, offered.offers call = true) ∧
    log.filterMap Call.command? =
      (if offered.command then
        ((requests.flatMap (·.received)).filter (Frame.isTypeFor .command identification.did)).map
          fun f => (f.id.endpoint, f.payload)
      else []) ∧
    (∀ key, (.readCustom key ∈ log ∨ ∃ value, .writeCustom key value ∈ log) →
      3 ≤ key.sectionCode ∧ key.sectionCode ≤ 15) ∧
    (offered.configHooks = true →
      log.filter Call.isHook = (fresh.allJobs requests).filterMap Job.hook?) ∧
    (∀ (c : Config) (key : Key) (w : Window) (value : UInt32), key.settings? = some w →
      (c.patch w value).toBytes = w.write c.toBytes value) ∧
    ∀ (d : Device α) (r : DeviceRequest α π) (source : Device α) (key : Key) (w : Window),
      d.capabilities.configHooks = true → .read source key ∈ d.jobs r → key.settings? = some w →
      let refreshed := Application.configRead source.app source.config
      (source.readAttribute key).result =
        (refreshed.1.map fun _ => w.read refreshed.2.1.toBytes) ∧
      (refreshed.1 ≠ .ok () →
        ∀ f ∈ (d.perform r).result.toList ++ sentFrames (d.perform r).acts,
          f.id.frameType ≠ .readAttribute) := by
  intro fresh offered log
  have hlog : log = Job.calls offered (fresh.allJobs requests) := handlerCalls_run fresh requests
  refine ⟨fun call h => Job.offers_of_mem_calls (hlog ▸ h), ?_, fun key h => ⟨?_, ?_⟩,
    fun hooked => ?_, fun c key w value settings => ?_,
    fun d r source key w hooked job settings => ?_⟩
  · rw [hlog, Job.filterMap_command?_calls, commands_allJobs]
    rfl
  · exact Job.foreign_of_mem_calls (hlog ▸ h)
  · have hraw := key.raw.toNat_lt
    unfold Key.sectionCode
    omega
  · rw [hlog, Job.filter_isHook_calls hooked]
  · obtain ⟨resolves, target⟩ := Key.settings?_eq_some_iff.mp settings
    exact Config.toBytes_patch (target ▸ Key.stop_le_size resolves) value
  · intro refreshed
    have hresult := result_read_settings (d := source) settings
      ((capabilities_of_mem_jobs job).symm ▸ hooked)
    refine ⟨hresult, fun failed f hf => ?_⟩
    cases told : refreshed.1 with
    | ok _ => exact absurd told failed
    | error fault =>
      exact type_of_unread_perform job (hresult.trans (congrArg (Except.map _) told)) hf

end Discipline

end Device

end Fieldbus
