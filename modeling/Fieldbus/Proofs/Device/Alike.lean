import Fieldbus.Proofs.Device.Poll
import Fieldbus.Proofs.Platform

namespace Fieldbus

/-- Two polls that come to the same, on related platforms. -/
structure Polled.Agree {α π ρ : Type} (R : π → ρ → Prop) (x : Polled α π) (y : Polled α ρ) :
    Prop where
  result : x.result = y.result
  device : x.device = y.device
  acts : x.acts = y.acts
  platform : R x.platform y.platform

namespace Platform.Alike

variable {α π ρ : Type} [Platform π] [Platform ρ] {R : π → ρ → Prop} {p : π} {q : ρ}

theorem responseDelay (alike : Alike R) (related : R p q) (d : Device α) (query : Frame) :
    Agree R (d.responseDelay p query) (d.responseDelay q query) := by
  unfold Device.responseDelay
  split
  next => exact alike.delayBetween related _ _
  next => exact ⟨rfl, related⟩

theorem telemetryDelay (alike : Alike R) (related : R p q) (d : Device α) :
    Agree R (d.telemetryDelay p) (d.telemetryDelay q) := by
  unfold Device.telemetryDelay
  split
  next => exact alike.delayBetween related _ _
  next => exact ⟨rfl, related⟩

theorem syncClock (alike : Alike R) (related : R p q) (d : Device α) :
    Polled.Agree R (d.syncClock p) (d.syncClock q) := by
  cases pending : d.pendingSync with
  | none =>
    simp only [Device.syncClock, pending]
    exact ⟨rfl, rfl, rfl, related⟩
  | some secs =>
    obtain ⟨hresult, hrest⟩ := alike.setClock related secs
    simp only [Device.syncClock, pending]
    rcases told : Platform.setClock p secs with ⟨result, p'⟩
    rcases told' : Platform.setClock q secs with ⟨result', q'⟩
    rw [told, told'] at hresult hrest
    cases hresult
    cases result with
    | error fault => exact ⟨rfl, rfl, rfl, hrest⟩
    | ok _ => exact ⟨rfl, by simp only [alike.now hrest], rfl, hrest⟩

variable [Application α]

theorem reply (alike : Alike R) (related : R p q) (d : Device α) (query : Frame) :
    Polled.Agree R (d.reply p query) (d.reply q query) := by
  cases result : (d.handle query).result with
  | none =>
    simp only [Device.reply, result]
    exact ⟨rfl, rfl, rfl, related⟩
  | some response =>
    obtain ⟨hdelay, hrest⟩ := alike.responseDelay related (d.handle query).device query
    simp only [Device.reply, result, hdelay]
    obtain ⟨hsent, hleft⟩ := alike.send hrest response
      ((d.handle query).device.responseDelay q query).1
    exact ⟨hsent, rfl, rfl, hleft⟩

theorem serve (alike : Alike R) (related : R p q) (d : Device α) (query : Frame) :
    Polled.Agree R (d.serve p query) (d.serve q query) := by
  have hreply := alike.reply related d query
  rw [Device.serve_eq, Device.serve_eq, hreply.result]
  split
  next => exact hreply
  next =>
    have hsync := alike.syncClock hreply.platform (d.reply p query).device
    rw [hreply.device] at hsync ⊢
    exact ⟨hsync.result, hsync.device, by simp only [hreply.acts, hsync.acts], hsync.platform⟩

theorem report (alike : Alike R) (related : R p q) (d : Device α) :
    Polled.Agree R (d.report p) (d.report q) := by
  cases due : d.dueTelemetry with
  | none =>
    simp only [Device.report, due]
    exact ⟨rfl, rfl, rfl, related⟩
  | some endpoint =>
    rcases built : d.trying.buildTelemetry endpoint with ⟨result, e, acts⟩
    unfold Device.trying at built
    cases result with
    | error fault =>
      simp only [Device.report, due, built]
      exact ⟨rfl, rfl, rfl, related⟩
    | ok frame =>
      obtain ⟨hdelay, hrest⟩ := alike.telemetryDelay related e
      simp only [Device.report, due, built, hdelay]
      obtain ⟨hsent, hleft⟩ := alike.send hrest frame (e.telemetryDelay q).1
      exact ⟨hsent, rfl, rfl, hleft⟩

theorem take (alike : Alike R) (related : R p q)
    (received : Agree R (Platform.receive p) (Platform.receive q)) (d : Device α) :
    Polled.Agree R (d.take p) (d.take q) := by
  obtain ⟨hreceived, hrest⟩ := received
  simp only [Device.take, alike.now related, hreceived]
  split
  next query _ => exact alike.serve hrest _ query
  next => exact ⟨rfl, rfl, rfl, hrest⟩

/-- A poll only depends on how its platform behaves. -/
theorem poll (alike : Alike R) (related : R p q)
    (received : Agree R (Platform.receive p) (Platform.receive q)) (d : Device α) :
    Polled.Agree R (d.poll p) (d.poll q) := by
  have htake := alike.take related received d
  rw [Device.poll_eq, Device.poll_eq, htake.result]
  split
  next => exact htake
  next =>
    have hreport := alike.report htake.platform (d.take p).device
    rw [htake.device] at hreport ⊢
    exact ⟨by simp only [hreport.result, received.1], hreport.device,
      by simp only [htake.acts, hreport.acts], hreport.platform⟩

end Platform.Alike

end Fieldbus
