import Fieldbus.Proofs.Device.Dispatch

namespace Fieldbus

namespace Device

variable {α : Type} [Application α] {d : Device α} {query : Frame} {key : Key} {value : UInt32}
  {fault : Fault}

/-- An application that leaves the settings as they are when it fails to refresh them. -/
def LeavesUntouched (α : Type) [Application α] : Prop :=
  ∀ (a : α) (c : Config) (fault : Fault),
    (Application.configRead a c).1 = .error fault → (Application.configRead a c).2.1 = c

/-- A write that the application accepts, but whose value it then fails to give back: the settings
stay written, and nobody has read them. -/
inductive LeavesUnread (d : Device α) (query : Frame) : Config → Prop
  | unread (key : Key) (value : UInt32) (w : Window) (app : α) (fault : Fault)
      (asked : query.key? = some key) (given : query.value? = some value)
      (resolves : key.resolve = .ok w) (target : w.target = .config)
      (hooked : d.capabilities.configHooks = true)
      (accepted : Application.configWritten d.app (d.config.patch w value) = (.ok (), app))
      (failed : (Application.configRead app (d.config.patch w value)).1 = .error fault) :
      LeavesUnread d query (d.config.patch w value)

/-- The attributes that can be written are as they were, and so is the time to set. -/
structure Unwritten (d e : Device α) : Prop where
  config : e.config = d.config
  system : e.system = d.system
  pendingSync : e.pendingSync = d.pendingSync

theorem Storing.unwritten {out : Outcome α (Except Fault Unit)} (h : d.Storing key value out)
    (failed : out.result = .error fault) : d.Unwritten out.device := by
  cases h with
  | fixed => exact ⟨rfl, rfl, rfl⟩
  | time => simp at failed
  | plain => simp at failed
  | accepted => simp at failed
  | rejected => exact ⟨rfl, rfl, rfl⟩
  | custom => exact ⟨rfl, rfl, rfl⟩
  | unresolved => exact ⟨rfl, rfl, rfl⟩

theorem Retrieving.unwritten (untouched : LeavesUntouched α)
    {out : Outcome α (Except Fault UInt32)} (h : d.Retrieving key out)
    (failed : out.result = .error fault) : d.Unwritten out.device := by
  cases h with
  | stored => simp at failed
  | refreshed => simp at failed
  | stale w fault config app resolves target hooked told =>
    have hkept := untouched d.app d.config fault (by rw [told])
    rw [told] at hkept
    exact ⟨hkept, rfl, rfl⟩
  | custom => exact ⟨rfl, rfl, rfl⟩
  | unresolved => exact ⟨rfl, rfl, rfl⟩

/-- Of the attributes that a device keeps itself, only settings that the application fails to
refresh cannot be read. -/
theorem Retrieving.hook_failed {w : Window} {out : Outcome α (Except Fault UInt32)}
    (h : d.Retrieving key out) (failed : out.result = .error fault)
    (resolves : key.resolve = .ok w) :
    w.target = .config ∧ d.capabilities.configHooks = true ∧
      (Application.configRead d.app d.config).1 = .error fault := by
  cases h with
  | stored => simp at failed
  | refreshed => simp at failed
  | stale v other config app hv target hooked told =>
    cases Except.ok.inj (hv.symm.trans resolves)
    cases Except.error.inj failed
    exact ⟨target, hooked, by rw [told]⟩
  | custom hv => simp [hv] at resolves
  | unresolved other hv => simp [hv] at resolves

/-- A value that was written and cannot be read back either was no attribute of the device itself,
or it stays in the settings. -/
theorem Storing.unread {out : Outcome α (Except Fault Unit)} (h : d.Storing key value out)
    (done : out.result = .ok ()) (asked : query.key? = some key)
    (given : query.value? = some value)
    (failed : (out.device.readAttribute key).result = .error fault) :
    out.device.system = d.system ∧ out.device.pendingSync = d.pendingSync ∧
      (out.device.config = d.config ∨ d.LeavesUnread query out.device.config) := by
  have hread := retrieving out.device key
  cases h with
  | fixed => simp at done
  | time is =>
    rw [is] at hread failed
    exact nomatch (hread.hook_failed failed Key.resolve_time).1
  | plain w resolves target unhooked =>
    have hooked := (hread.hook_failed failed resolves).2.1
    exact nomatch unhooked.symm.trans hooked
  | accepted w app resolves target hooked told =>
    have hfailed := (hread.hook_failed failed resolves).2.2
    exact ⟨rfl, rfl, Or.inr (.unread key value w app fault asked given resolves target hooked told
      hfailed)⟩
  | rejected => simp at done
  | custom => exact ⟨rfl, rfl, Or.inl rfl⟩
  | unresolved => simp at done

/-- A failed write query changes none of the attributes, unless the value stays in the settings. -/
theorem Dispatching.unwritten_or_unread (untouched : LeavesUntouched α)
    {out : Outcome α (Except Fault Frame)} (h : d.Dispatching query out)
    (type : query.id.frameType = .writeAttribute) (failed : out.result = .error fault) :
    out.device.system = d.system ∧ out.device.pendingSync = d.pendingSync ∧
      (out.device.config = d.config ∨ d.LeavesUnread query out.device.config) := by
  cases h with
  | commandFailed _ _ _ other => simp [type] at other
  | command _ _ other => simp [type] at other
  | telemetry other => simp [type] at other
  | malformed => exact ⟨rfl, rfl, Or.inl rfl⟩
  | read _ other => simp [type] at other
  | writeFailed key value fault e acts _ asked given wrote =>
    have hkept := (storing d key value).unwritten (by rw [wrote])
    rw [wrote] at hkept
    exact ⟨hkept.system, hkept.pendingSync, Or.inl hkept.config⟩
  | write key value e acts _ asked given wrote =>
    have hread : (e.readAttribute key).result = .error fault := by
      cases hresult : (e.readAttribute key).result with
      | error other => simpa [hresult, Except.map] using failed
      | ok _ => simp [hresult, Except.map] at failed
    have hkept := (retrieving e key).unwritten untouched hread
    obtain ⟨hsystem, hpending, hconfig⟩ :=
      (wrote ▸ storing d key value).unread rfl asked given hread
    refine ⟨hkept.system.trans hsystem, hkept.pendingSync.trans hpending, ?_⟩
    rw [hkept.config]
    exact hconfig

theorem LeavesUnread.config_dispatch (untouched : LeavesUntouched α) {stored : Config}
    (h : d.LeavesUnread query stored) (type : query.id.frameType = .writeAttribute) :
    (d.dispatch query).device.config = stored := by
  obtain ⟨key, value, w, app, fault, asked, given, resolves, target, hooked, accepted, failed⟩ := h
  have wrote : d.writeAttribute key value =
      ⟨.ok (), { d with config := d.config.patch w value, app },
        [.call (.configWritten (d.config.patch w value))]⟩ := by
    simp only [writeAttribute, resolves, Key.readOnly_of_config resolves target, target]
    change d.storeConfig (d.config.patch w value) = _
    simp [storeConfig, hooked, accepted]
  have hkept := untouched app (d.config.patch w value) fault failed
  simp [dispatch, type, answerWrite, asked, given, wrote, readAttribute, resolves, target,
    refreshConfig, hooked, hkept]

theorem leavesUnread_countReceived {stored : Config} {frameType : FrameType} :
    (d.countReceived frameType).LeavesUnread query stored ↔ d.LeavesUnread query stored := by
  constructor
  · rintro ⟨key, value, w, app, fault, asked, given, resolves, target, hooked, accepted, failed⟩
    exact .unread key value w app fault asked given resolves target hooked accepted failed
  · rintro ⟨key, value, w, app, fault, asked, given, resolves, target, hooked, accepted, failed⟩
    exact .unread key value w app fault asked given resolves target hooked accepted failed

/-- A query that concerns a device and is not answered well has failed. -/
theorem exists_fault_of_handle (isQuery : query.id.isQuery = true)
    (concerned : d.did.concerns query.did = true)
    (unanswered : ∀ answer, (d.handle query).result = some answer → answer.id.isError = true) :
    ∃ fault, ((d.countReceived query.id.frameType).dispatch query).result = .error fault := by
  have h := handling d query
  generalize d.handle query = out at h unanswered
  cases h with
  | ignored other => exact absurd ⟨isQuery, concerned⟩ other
  | answered answer e acts _ done =>
    have hgood : answer.id.isError = false := isError_of_dispatch (by rw [done])
    exact nomatch hgood.symm.trans (unanswered answer rfl)
  | reported fault e acts _ failed _ => exact ⟨fault, by rw [failed]⟩
  | silenced fault e acts _ failed _ => exact ⟨fault, by rw [failed]⟩

/-- A write query that ends in an error answer, or in silence, leaves the clock and the time to
set as they were. It leaves the settings so too, unless the application accepted the value and then
failed to give it back: that value stays. -/
theorem failed_write_effect (untouched : LeavesUntouched α) (d : Device α) (query : Frame)
    (type : query.id.frameType = .writeAttribute) (isQuery : query.id.isQuery = true)
    (concerned : query.did = d.did ∨ query.did = .broadcast)
    (unanswered : ∀ answer, (d.handle query).result = some answer → answer.id.isError = true) :
    let after := (d.handle query).device
    (after.system.time = d.system.time ∧ after.system.startTime = d.system.startTime ∧
      after.system.uptimeSynced = d.system.uptimeSynced ∧ after.pendingSync = d.pendingSync) ∧
    (∀ stored, d.LeavesUnread query stored → after.config = stored) ∧
    ((∀ stored, ¬d.LeavesUnread query stored) → after.config = d.config) := by
  have hconcerns : d.did.concerns query.did = true := by
    simpa [Did.concerns, Did.isBroadcast] using concerned
  obtain ⟨fault, failed⟩ := exists_fault_of_handle isQuery hconcerns unanswered
  have hcounted := (handling d query).counted isQuery hconcerns
  have hreceived := counted_countReceived d query.id.frameType
  obtain ⟨hsystem, hpending, hconfig⟩ :=
    (dispatching (d.countReceived query.id.frameType) query).unwritten_or_unread untouched type
      failed
  refine ⟨⟨?_, ?_, ?_, ?_⟩, fun stored unread => ?_, fun read => ?_⟩
  · rw [hcounted.time, hsystem, hreceived.time]
  · rw [hcounted.startTime, hsystem, hreceived.startTime]
  · rw [hcounted.uptimeSynced, hsystem, hreceived.uptimeSynced]
  · rw [hcounted.same]
    exact hpending
  · rw [hcounted.same]
    exact (leavesUnread_countReceived.mpr unread).config_dispatch untouched type
  · rw [hcounted.same]
    exact hconfig.resolve_right fun unread => read _ (leavesUnread_countReceived.mp unread)

end Device

/-- An application that takes every setting and gives none back. -/
inductive WriteOnly
  | writeOnly

instance : Application WriteOnly where
  capabilities _ := { configHooks := true }
  configRead a c := (.error .notSupported, c, a)

namespace WriteOnly

def device : Device WriteOnly := .build (.ofName (.ofRaw 1) 1 "d" 0) {} .writeOnly

/-- Sets the telemetry period to a quarter of a minute. -/
def write : Frame := .writeAttribute (.ofRaw 1) (.ofParts 2 0 0) 15000

theorem leavesUntouched : Device.LeavesUntouched WriteOnly := fun _ _ _ _ => rfl

theorem leavesUnread :
    device.LeavesUnread write (device.config.patch ⟨.config, 0, 4, false⟩ 15000) :=
  .unread (.ofParts 2 0 0) 15000 ⟨.config, 0, 4, false⟩ .writeOnly .notSupported (by decide)
    (by decide) rfl rfl rfl rfl rfl

/-- The setting stays written, although the write is answered by an error. -/
theorem failed_write_effect_writeOnly :
    let after := (device.handle write).device
    (after.system.time = device.system.time ∧ after.pendingSync = device.pendingSync) ∧
      after.config.telemetryPeriod = 15000 := by
  obtain ⟨⟨htime, _, _, hpending⟩, hstored, _⟩ :=
    Device.failed_write_effect leavesUntouched device write rfl rfl (Or.inl rfl) fun answer h => by
      have herror : (device.handle write).result.map (·.id.isError) = some true := by decide
      simpa [h] using herror
  refine ⟨⟨htime, hpending⟩, ?_⟩
  rw [hstored _ leavesUnread]
  decide

/-- A write that is answered by an error can change the settings. -/
theorem failed_write_stays :
    Device.LeavesUntouched WriteOnly ∧ write.key?.map Key.sectionCode = some Section.config.code ∧
      (device.handle write).result.map (·.id.isError) = some true ∧
      (device.handle write).device.config.toBytes ≠ device.config.toBytes :=
  ⟨leavesUntouched, by decide, by decide, by decide⟩

end WriteOnly

end Fieldbus
