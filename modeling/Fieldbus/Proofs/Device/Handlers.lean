import Fieldbus.Proofs.Device.Poll

namespace Fieldbus

/-- What calls of its handlers can make of an application. -/
inductive Application.Reaches {α : Type} [Application α] (a : α) : α → Prop
  | refl : Reaches a a
  | command {b : α} (h : Reaches a b) (endpoint : Endpoint) (payload : List UInt8) :
      Reaches a (Application.command b endpoint payload).2
  | telemetry {b : α} (h : Reaches a b) (endpoint : Endpoint) :
      Reaches a (Application.telemetry b endpoint).2
  | readCustom {b : α} (h : Reaches a b) (key : Key) : Reaches a (Application.readCustom b key).2
  | writeCustom {b : α} (h : Reaches a b) (key : Key) (value : UInt32) :
      Reaches a (Application.writeCustom b key value).2
  | configRead {b : α} (h : Reaches a b) (config : Config) :
      Reaches a (Application.configRead b config).2.2
  | configWritten {b : α} (h : Reaches a b) (config : Config) :
      Reaches a (Application.configWritten b config).2

theorem Application.Reaches.trans {α : Type} [Application α] {a b c : α} (h : Reaches a b)
    (h' : Reaches b c) : Reaches a c := by
  induction h' with
  | refl => exact h
  | command _ endpoint payload ih => exact ih.command endpoint payload
  | telemetry _ endpoint ih => exact ih.telemetry endpoint
  | readCustom _ key ih => exact ih.readCustom key
  | writeCustom _ key value ih => exact ih.writeCustom key value
  | configRead _ config ih => exact ih.configRead config
  | configWritten _ config ih => exact ih.configWritten config

namespace Device

open Application (Reaches)

variable {α π : Type} [Application α]

section Dispatch

variable (d : Device α)

theorem reaches_readAttribute (key : Key) : Reaches d.app (d.readAttribute key).device.app := by
  have hhook := Reaches.refl.configRead (a := d.app) d.config
  have h := retrieving d key
  generalize d.readAttribute key = out at h ⊢
  cases h with
  | stored | unresolved => exact .refl
  | refreshed w config app _ _ _ told | stale w fault config app _ _ _ told =>
    rwa [told] at hhook
  | custom => exact Reaches.refl.readCustom key

theorem reaches_writeAttribute (key : Key) (value : UInt32) :
    Reaches d.app (d.writeAttribute key value).device.app := by
  have hhook (w : Window) := Reaches.refl.configWritten (a := d.app) (d.config.patch w value)
  have h := storing d key value
  generalize d.writeAttribute key value = out at h ⊢
  cases h with
  | fixed | time | plain | unresolved => exact .refl
  | accepted w app _ _ _ told | rejected w fault app _ _ _ told =>
    have happ := hhook w
    rwa [told] at happ
  | custom => exact Reaches.refl.writeCustom key value

theorem reaches_runCommand (endpoint : Endpoint) (payload : List UInt8) :
    Reaches d.app (d.runCommand endpoint payload).device.app := by
  rw [runCommand_eq, commanded]
  split
  · exact Reaches.refl.command endpoint payload
  · exact .refl

theorem reaches_buildTelemetry (endpoint : Endpoint) :
    Reaches d.app (d.buildTelemetry endpoint).device.app := by
  have hmeasured : Reaches d.app (d.measured endpoint).2 := by
    unfold measured
    split
    · exact Reaches.refl.telemetry endpoint
    · exact .refl
  have h := measuring d endpoint
  generalize d.buildTelemetry endpoint = out at h ⊢
  cases h <;> exact hmeasured

theorem reaches_dispatch (query : Frame) : Reaches d.app (d.dispatch query).device.app := by
  have h := dispatching d query
  generalize d.dispatch query = out at h ⊢
  cases h with
  | commandFailed fault e acts _ ran =>
    have hran := reaches_runCommand d query.id.endpoint query.payload
    rwa [ran] at hran
  | command e acts _ ran =>
    have hran := reaches_runCommand d query.id.endpoint query.payload
    rw [ran] at hran
    exact hran.trans (reaches_buildTelemetry e _)
  | telemetry => exact reaches_buildTelemetry d _
  | malformed => exact .refl
  | read key => exact reaches_readAttribute d key
  | writeFailed key value fault e acts _ _ _ wrote =>
    have hwrote := reaches_writeAttribute d key value
    rwa [wrote] at hwrote
  | write key value e acts _ _ _ wrote =>
    have hwrote := reaches_writeAttribute d key value
    rw [wrote] at hwrote
    exact hwrote.trans (reaches_readAttribute e key)

theorem reaches_handle (query : Frame) : Reaches d.app (d.handle query).device.app := by
  have hdone := reaches_dispatch (d.countReceived query.id.frameType) query
  have h := handling d query
  generalize d.handle query = out at h ⊢
  cases h with
  | ignored => exact .refl
  | answered answer e acts _ done =>
    rwa [done] at hdone
  | reported fault e acts _ failed | silenced fault e acts _ failed =>
    rwa [failed] at hdone

end Dispatch

section Poll

variable {d : Device α} {p : π} {out : Polled α π}

theorem Reporting.reaches (h : d.Reporting p out) : Reaches d.app out.device.app := by
  have hbuilt := reaches_buildTelemetry d.trying
  cases h with
  | idle => exact .refl
  | failed endpoint fault e acts _ built | sent endpoint frame e acts _ built =>
    have he := hbuilt endpoint
    rwa [built] at he

variable [Platform π]

theorem Taking.reaches (h : d.Taking p out) : Reaches d.app out.device.app := by
  have hreply (q : π) (query : Frame) :
      Reaches d.app ((d.updateTime (Platform.now p)).reply q query).device.app := by
    rw [device_reply]
    exact reaches_handle (d.updateTime (Platform.now p)) query
  cases h with
  | idle => exact .refl
  | unsent query q => exact hreply q query
  | served query q _ replied synced reply _ sync =>
    have hreplied := hreply q query
    rw [reply] at hreplied
    cases sync <;> exact hreplied

/-- A poll leaves an application as its handlers do. -/
theorem reaches_poll (d : Device α) (p : π) : Reaches d.app (d.poll p).device.app := by
  have htake := (taking d p).reaches
  rw [poll_eq]
  split
  next => exact htake
  next => exact htake.trans (reporting (d.take p).device (d.take p).platform).reaches

end Poll

end Device

end Fieldbus
