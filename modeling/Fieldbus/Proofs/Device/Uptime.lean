import Fieldbus.Proofs.Bus.Connection
import Fieldbus.Proofs.Device.AttributeStore
import Fieldbus.Proofs.Device.ClockSync
import Fieldbus.Proofs.Device.Unsolicited

namespace Fieldbus

/-- What a device knows of the time, in seconds. -/
structure Times where
  time : UInt32
  startTime : UInt32
  uptime : UInt32
  uptimeSynced : UInt32

def SystemStatus.times (s : SystemStatus) : Times :=
  ⟨s.time, s.startTime, s.uptime, s.uptimeSynced⟩

namespace Times

variable (x : Times) {secs : UInt32}

/-- A clock is read. -/
def tick (secs : UInt32) : Times :=
  let start := if x.startTime = 0 then secs else x.startTime
  { x with
    time := secs
    startTime := start
    uptime := if start ≤ secs then secs - start else 0 }

/-- A new time is written: the start moves so that the uptime stays. -/
def rebase (secs : UInt32) : Times :=
  { x with
    time := secs
    startTime := .ofNat (secs.toNat - x.uptime.toNat)
    uptimeSynced := x.uptime }

theorem startTime_tick (started : x.startTime ≠ 0) (secs : UInt32) :
    (x.tick secs).startTime = x.startTime := if_neg started

theorem toNat_uptime_tick (started : x.startTime ≠ 0) (secs : UInt32) :
    (x.tick secs).uptime.toNat = secs.toNat - x.startTime.toNat := by
  simp only [tick, if_neg started]
  split
  next h => exact UInt32.toNat_sub_of_le secs _ h
  next h =>
    have hlt := UInt32.lt_iff_toNat_lt.mp (UInt32.not_le.mp h)
    exact (Nat.sub_eq_zero_of_le (Nat.le_of_lt hlt)).symm

end Times

namespace Device

variable {α : Type}

section Handling

variable [Application α] (d : Device α)

theorem system_readAttribute (key : Key) : (d.readAttribute key).device.system = d.system := by
  have h := retrieving d key
  generalize d.readAttribute key = out at h ⊢
  cases h <;> rfl

theorem times_writeAttribute (key : Key) (value : UInt32) :
    (d.writeAttribute key value).device.system.times =
      if key = .time then d.system.times.rebase value else d.system.times := by
  split
  next is =>
    rw [is, writeAttribute_time, system_timeWritten]
    rfl
  next other =>
    have h := storing d key value
    generalize d.writeAttribute key value = out at h ⊢
    cases h with
    | time is => exact absurd is other
    | fixed | plain | accepted | rejected | custom | unresolved => rfl

theorem times_runCommand (endpoint : Endpoint) (payload : List UInt8) :
    (d.runCommand endpoint payload).device.system.times = d.system.times := by
  rw [runCommand_eq]
  rfl

theorem times_buildTelemetry (endpoint : Endpoint) :
    (d.buildTelemetry endpoint).device.system.times = d.system.times := by
  have h := measuring d endpoint
  generalize d.buildTelemetry endpoint = out at h ⊢
  cases h <;> rfl

theorem times_dispatch (query : Frame) :
    (d.dispatch query).device.system.times =
      query.writtenTime?.elim d.system.times d.system.times.rebase := by
  unfold Frame.writtenTime?
  have h := dispatching d query
  generalize d.dispatch query = out at h ⊢
  cases h with
  | commandFailed fault e acts type ran =>
    have hran := times_runCommand d query.id.endpoint query.payload
    simpa [type, ran] using hran
  | command e acts type ran =>
    have hran := times_runCommand d query.id.endpoint query.payload
    rw [ran] at hran
    simpa [type, times_buildTelemetry] using hran
  | telemetry type => simp [type, times_buildTelemetry]
  | malformed _ cut =>
    rcases cut with hkey | ⟨_, hvalue⟩
    · simp [hkey]
    · simp [hvalue]
  | read key type => simp [type, system_readAttribute]
  | writeFailed key value fault e acts type asked given wrote =>
    have hwrote := times_writeAttribute d key value
    have other : key ≠ .time := fun is => by simp [is, writeAttribute_time] at wrote
    simpa [type, asked, other, wrote] using hwrote
  | write key value e acts type asked given wrote =>
    have hwrote := times_writeAttribute d key value
    rw [wrote] at hwrote
    by_cases is : key = .time
    · simpa [type, asked, given, is, system_readAttribute] using hwrote
    · simpa [type, asked, is, system_readAttribute] using hwrote

theorem times_handle (query : Frame) :
    (d.handle query).device.system.times =
      (query.newTime? d.did).elim d.system.times d.system.times.rebase := by
  by_cases concerned : query.id.isQuery = true ∧ d.did.concerns query.did = true
  · have hcount : (d.countReceived query.id.frameType).system.times = d.system.times := by
      cases query.id.frameType <;> rfl
    have hdispatch := times_dispatch (d.countReceived query.id.frameType) query
    rw [hcount] at hdispatch
    rw [Frame.newTime?, if_pos concerned, ← hdispatch]
    rcases (handling d query).device concerned with same | ⟨response, sent⟩
    · rw [same]
    · rw [sent]
      rfl
  · rw [Frame.newTime?, if_neg concerned, handle_of_other concerned]
    rfl

end Handling

section Polling

variable {π : Type} [Platform π] {d : Device α} {p : π} {out : Polled α π}

variable [Application α]

omit [Platform π] in
theorem Reporting.times (h : d.Reporting p out) : out.device.system.times = d.system.times := by
  have hbuild (endpoint : Endpoint) :
      (d.trying.buildTelemetry endpoint).device.system.times = d.system.times :=
    times_buildTelemetry d.trying endpoint
  cases h with
  | idle => rfl
  | failed endpoint fault e acts _ built => simpa [built] using hbuild endpoint
  | sent endpoint frame e acts _ built =>
    have he : e.system.times = d.system.times := by simpa [built] using hbuild endpoint
    exact he

theorem times_reply (d : Device α) (p : π) (query : Frame) :
    (d.reply p query).device.system.times =
      (query.newTime? d.did).elim d.system.times d.system.times.rebase := by
  rw [device_reply, times_handle]

/-- With no time written and none to set, a poll reads the clock once. -/
theorem Taking.times (h : d.Taking p out) (settled : d.pendingSync = none)
    (unwritten : incomingTime? p d.did = none) :
    out.device.system.times = d.system.times.tick (Platform.now p).secs := by
  have hreply : ∀ {q : π} {query}, Platform.receive p = (.ok (some query), q) →
      ((d.updateTime (Platform.now p)).reply q query).device.system.times =
          d.system.times.tick (Platform.now p).secs ∧
        ((d.updateTime (Platform.now p)).reply q query).device.pendingSync = none := by
    intro q query received
    rw [incomingTime?_of_received received] at unwritten
    have hnone : query.newTime? (d.updateTime (Platform.now p)).did = none := unwritten
    rw [times_reply, pendingSync_reply, hnone]
    exact ⟨rfl, settled⟩
  cases h with
  | idle => rfl
  | unsent query q received => exact (hreply received).1
  | served query q received replied synced reply _ sync =>
    obtain ⟨htimes, hsettled⟩ := hreply received
    rw [reply] at htimes hsettled
    cases sync.of_settled hsettled
    exact htimes

theorem times_poll (d : Device α) (p : π) :
    (d.poll p).device.system.times = (d.take p).device.system.times := by
  rw [poll_eq]
  split
  next => rfl
  next => exact (reporting (d.take p).device (d.take p).platform).times

/-- A device that counts its uptime from a start time, with no clock to set. -/
structure CountsFrom (d : Device α) (start : UInt32) : Prop where
  settled : d.pendingSync = none
  start : d.system.times.startTime = start

variable {start : UInt32}

namespace CountsFrom

omit [Application α] in
theorem updateTime (h : d.CountsFrom start) (started : start ≠ 0) (t : Timestamp) :
    (d.updateTime t).CountsFrom start ∧
      (d.updateTime t).system.uptime.toNat = t.secs.toNat - start.toNat := by
  have hne : d.system.times.startTime ≠ 0 := h.start.symm ▸ started
  refine ⟨⟨h.settled, (Times.startTime_tick _ hne t.secs).trans h.start⟩, ?_⟩
  rw [← h.start]
  exact Times.toNat_uptime_tick _ hne t.secs

theorem poll (h : d.CountsFrom start) (started : start ≠ 0)
    (unwritten : incomingTime? p d.did = none) :
    (d.poll p).device.CountsFrom start ∧
      (d.poll p).device.system.uptime.toNat = (Platform.now p).secs.toNat - start.toNat := by
  have htimes : (d.poll p).device.system.times =
      (d.updateTime (Platform.now p)).system.times :=
    (times_poll d p).trans ((taking d p).times h.settled unwritten)
  have hsettled : (d.poll p).device.pendingSync = none := by
    have hdue : (incomingTime? p d.did).or d.pendingSync = none := by rw [unwritten, h.settled]; rfl
    by_cases hands : d.HandsOver p
    · exact ((clock_poll d p).1 hands).2
    · exact ((clock_poll d p).2 hands).2.trans hdue
  obtain ⟨hcounts, huptime⟩ := h.updateTime started (Platform.now p)
  refine ⟨⟨hsettled, (congrArg Times.startTime htimes).trans hcounts.start⟩, ?_⟩
  rw [← huptime]
  exact congrArg (·.uptime.toNat) htimes

theorem perform {r : DeviceRequest α π} (h : d.CountsFrom start) (started : start ≠ 0)
    (unwritten : r.newTime? d.did = none) : (d.perform r).device.CountsFrom start := by
  cases r with
  | handle query =>
    have hnone : query.newTime? d.did = none := unwritten
    refine ⟨?_, ?_⟩
    · rw [Device.perform, pendingSync_handle, hnone]
      exact h.settled
    · rw [Device.perform, times_handle, hnone]
      exact h.start
  | poll p => exact (h.poll started unwritten).1
  | read key =>
    refine ⟨(pendingSync_readAttribute d key).trans h.settled, ?_⟩
    rw [Device.perform, system_readAttribute]
    exact h.start
  | write key value =>
    have other : key ≠ .time := fun is => by simp [DeviceRequest.newTime?, is] at unwritten
    refine ⟨?_, ?_⟩
    · rw [Device.perform, pendingSync_writeAttribute, if_neg other]
      exact h.settled
    · rw [Device.perform, times_writeAttribute, if_neg other]
      exact h.start
  | updateTime t => exact (h.updateTime started t).1
  | trigger _ | setBattery _ | resetCounters | configure _ | adapt _ => exact ⟨h.settled, h.start⟩

theorem run {requests : List (DeviceRequest α π)} (h : d.CountsFrom start) (started : start ≠ 0)
    (unwritten : ∀ r ∈ requests, r.newTime? d.did = none) :
    (d.run requests).device.CountsFrom start := by
  induction requests generalizing d with
  | nil => exact h
  | cons r rest ih =>
    rw [List.forall_mem_cons] at unwritten
    have hfirst := h.perform started unwritten.1
    rw [← did_perform d r] at unwritten
    exact ih hfirst unwritten.2

end CountsFrom

end Polling

end Device

namespace Connection

variable {α ρ : Type} [Application α] [Chance ρ] (d : Device α) {p : Connection ρ}

end Connection

namespace Thermostat

end Thermostat

end Fieldbus
