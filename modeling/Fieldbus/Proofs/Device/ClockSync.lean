import Fieldbus.Proofs.Controller.Poll
import Fieldbus.Proofs.Device.Run
import Fieldbus.Thermostat

namespace Fieldbus

/-- The time that a write query carries. -/
def Frame.writtenTime? (query : Frame) : Option UInt32 :=
  if query.id.frameType = .writeAttribute ∧ query.key? = some .time then query.value? else none

/-- The time that a received frame writes to a device. -/
def Frame.newTime? (query : Frame) (did : Did) : Option UInt32 :=
  if query.id.isQuery = true ∧ did.concerns query.did = true then query.writtenTime? else none

theorem Frame.newTime?_eq_some_iff {query : Frame} {did : Did} {secs : UInt32} :
    query.newTime? did = some secs ↔
      (query.id.isQuery = true ∧ did.concerns query.did = true) ∧
        (query.id.frameType = .writeAttribute ∧ query.key? = some .time) ∧
        query.value? = some secs := by
  simp [newTime?, writtenTime?, and_assoc]

/-- The time that the next frame on a platform writes to a device. -/
def incomingTime? {π : Type} [Platform π] (p : π) (did : Did) : Option UInt32 :=
  match (Platform.receive p).1 with
  | .ok (some query) => query.newTime? did
  | _ => none

theorem incomingTime?_of_received {π : Type} [Platform π] {p q : π} {query : Frame}
    (received : Platform.receive p = (.ok (some query), q)) (did : Did) :
    incomingTime? p did = query.newTime? did := by
  simp only [incomingTime?, received]

theorem incomingTime?_of_silent {π : Type} [Platform π] {p : π}
    (silent : ∀ query, (Platform.receive p).1 ≠ .ok (some query)) (did : Did) :
    incomingTime? p did = none := by
  unfold incomingTime?
  split
  next query received => exact absurd received (silent query)
  next => rfl

/-- The time that a request writes to a device. -/
def DeviceRequest.newTime? {α π : Type} [Platform π] (r : DeviceRequest α π) (did : Did) :
    Option UInt32 :=
  match r with
  | .handle query => query.newTime? did
  | .poll p => incomingTime? p did
  | .write key value => if key = .time then some value else none
  | _ => none

namespace Device

variable {α : Type}

/-- The times that a platform clock was set to. -/
def clockSets (acts : List DeviceAct) : List UInt32 :=
  acts.filterMap fun
    | .setClock secs => some secs
    | _ => none

@[simp] theorem clockSets_nil : clockSets [] = [] := rfl

@[simp] theorem clockSets_append (a b : List DeviceAct) :
    clockSets (a ++ b) = clockSets a ++ clockSets b := List.filterMap_append

theorem clockSets_inner {acts : List DeviceAct} (h : ∀ a ∈ acts, a.isInner = true) :
    clockSets acts = [] := by
  refine List.filterMap_eq_nil_iff.mpr fun a ha => ?_
  have hinner := h a ha
  cases a <;> simp_all [DeviceAct.isInner]

section Pending

variable [Application α] (d : Device α)

theorem pendingSync_readAttribute (key : Key) :
    (d.readAttribute key).device.pendingSync = d.pendingSync := by
  have h := retrieving d key
  generalize d.readAttribute key = out at h ⊢
  cases h <;> rfl

theorem pendingSync_writeAttribute (key : Key) (value : UInt32) :
    (d.writeAttribute key value).device.pendingSync =
      if key = .time then some value else d.pendingSync := by
  split
  next is =>
    rw [is, writeAttribute_time]
    rfl
  next other =>
    have h := storing d key value
    generalize d.writeAttribute key value = out at h ⊢
    cases h with
    | time is => exact absurd is other
    | fixed | plain | accepted | rejected | custom | unresolved => rfl

theorem pendingSync_buildTelemetry (endpoint : Endpoint) :
    (d.buildTelemetry endpoint).device.pendingSync = d.pendingSync := by
  have h := measuring d endpoint
  generalize d.buildTelemetry endpoint = out at h ⊢
  cases h <;> rfl

theorem pendingSync_runCommand (endpoint : Endpoint) (payload : List UInt8) :
    (d.runCommand endpoint payload).device.pendingSync = d.pendingSync := by
  rw [runCommand_eq]

theorem pendingSync_dispatch (query : Frame) :
    (d.dispatch query).device.pendingSync = query.writtenTime?.or d.pendingSync := by
  unfold Frame.writtenTime?
  have h := dispatching d query
  generalize d.dispatch query = out at h ⊢
  cases h with
  | commandFailed fault e acts type ran =>
    have hran := pendingSync_runCommand d query.id.endpoint query.payload
    simpa [type, ran] using hran
  | command e acts type ran =>
    have hran := pendingSync_runCommand d query.id.endpoint query.payload
    rw [ran] at hran
    simpa [type, pendingSync_buildTelemetry] using hran
  | telemetry type => simp [type, pendingSync_buildTelemetry]
  | malformed _ cut =>
    rcases cut with hkey | ⟨_, hvalue⟩
    · simp [hkey]
    · simp [hvalue]
  | read key type => simp [type, pendingSync_readAttribute]
  | writeFailed key value fault e acts type asked given wrote =>
    have hwrote := pendingSync_writeAttribute d key value
    have other : key ≠ .time := fun is => by simp [is, writeAttribute_time] at wrote
    simpa [type, asked, other, wrote] using hwrote
  | write key value e acts type asked given wrote =>
    have hwrote := pendingSync_writeAttribute d key value
    rw [wrote] at hwrote
    by_cases is : key = .time
    · simpa [type, asked, given, is, pendingSync_readAttribute] using hwrote
    · simpa [type, asked, is, pendingSync_readAttribute] using hwrote

theorem pendingSync_handle (query : Frame) :
    (d.handle query).device.pendingSync = (query.newTime? d.did).or d.pendingSync := by
  by_cases concerned : query.id.isQuery = true ∧ d.did.concerns query.did = true
  · rw [Frame.newTime?, if_pos concerned,
      ((handling d query).counted concerned.1 concerned.2).same]
    exact pendingSync_dispatch (d.countReceived query.id.frameType) query
  · rw [Frame.newTime?, if_neg concerned, handle_of_other concerned]
    rfl

end Pending

section Syncing

variable {π : Type} [Platform π] {d : Device α} {p : π} {out : Polled α π}

theorem Syncing.clock (h : d.Syncing p out) :
    clockSets out.acts = d.pendingSync.toList ∧ out.device.pendingSync = none := by
  cases h with
  | idle settled => exact ⟨by rw [settled]; rfl, settled⟩
  | refused secs fault q pending => exact ⟨by rw [pending]; rfl, rfl⟩
  | set secs q pending => exact ⟨by rw [pending]; rfl, rfl⟩

variable [Application α]

theorem pendingSync_reply (d : Device α) (p : π) (query : Frame) :
    (d.reply p query).device.pendingSync = (query.newTime? d.did).or d.pendingSync := by
  rw [device_reply, pendingSync_handle]

theorem clockSets_reply (d : Device α) (p : π) (query : Frame) :
    clockSets (d.reply p query).acts = [] := by
  have hhandle := clockSets_inner (works_handle d query).inner
  have h := replying d p query
  generalize d.reply p query = out at h ⊢
  cases h with
  | silent => exact hhandle
  | said answer =>
    rw [clockSets_append, hhandle]
    rfl

omit [Platform π] in
theorem Reporting.clock (h : d.Reporting p out) :
    clockSets out.acts = [] ∧ out.device.pendingSync = d.pendingSync := by
  have hbuilt : ∀ {endpoint result e acts}, d.trying.buildTelemetry endpoint = ⟨result, e, acts⟩ →
      clockSets acts = [] ∧ e.pendingSync = d.pendingSync := by
    intro endpoint result e acts built
    have hacts := clockSets_inner (works_buildTelemetry d.trying endpoint).inner
    have hpending := pendingSync_buildTelemetry d.trying endpoint
    rw [built] at hacts hpending
    exact ⟨hacts, hpending⟩
  cases h with
  | idle => exact ⟨rfl, rfl⟩
  | failed endpoint fault e acts _ built =>
    obtain ⟨hacts, hpending⟩ := hbuilt built
    exact ⟨by rw [clockSets_append, hacts]; rfl, hpending⟩
  | sent endpoint frame e acts _ built =>
    obtain ⟨hacts, hpending⟩ := hbuilt built
    exact ⟨by rw [clockSets_append, hacts]; rfl, hpending⟩

/-- A poll that receives a frame, and whose answer to it is sent if there is one. -/
def HandsOver (d : Device α) (p : π) : Prop :=
  ∃ query q, Platform.receive p = (.ok (some query), q) ∧
    ((d.updateTime (Platform.now p)).reply q query).result = .ok ()

theorem Taking.clock (h : d.Taking p out) :
    let due := (incomingTime? p d.did).or d.pendingSync
    (d.HandsOver p → clockSets out.acts = due.toList ∧ out.device.pendingSync = none) ∧
      (¬d.HandsOver p → clockSets out.acts = [] ∧ out.device.pendingSync = due) := by
  have hreply (q : π) (query : Frame) :
      ((d.updateTime (Platform.now p)).reply q query).device.pendingSync =
        (query.newTime? d.did).or d.pendingSync :=
    pendingSync_reply (d.updateTime (Platform.now p)) q query
  cases h with
  | idle silent =>
    refine ⟨fun ⟨query, q, received, _⟩ => absurd (by rw [received]) (silent query), fun _ => ?_⟩
    exact ⟨rfl, by rw [incomingTime?_of_silent silent]; rfl⟩
  | unsent query q received fault failed =>
    refine ⟨fun ⟨other, r, hr, sent⟩ => ?_, fun _ => ⟨clockSets_reply _ q query, ?_⟩⟩
    · cases received.symm.trans hr
      simp [failed] at sent
    · rw [incomingTime?_of_received received]
      exact hreply q query
  | served query q received replied synced reply sent sync =>
    refine ⟨fun _ => ?_, fun idle => absurd ⟨query, q, received, by rw [reply]; exact sent⟩ idle⟩
    -- What is pending when the clock is set includes a time that the frame itself wrote.
    have hsync := sync.clock
    have hacts := clockSets_reply (d.updateTime (Platform.now p)) q query
    have hpending := hreply q query
    rw [reply] at hacts hpending
    refine ⟨?_, hsync.2⟩
    rw [incomingTime?_of_received received, clockSets_append, hacts, hsync.1, hpending]
    rfl

/-- A poll that hands over sets the clock to the time that is pending in the end, and once; any
other poll leaves that time pending. -/
theorem clock_poll (d : Device α) (p : π) :
    let due := (incomingTime? p d.did).or d.pendingSync
    (d.HandsOver p →
        clockSets (d.poll p).acts = due.toList ∧ (d.poll p).device.pendingSync = none) ∧
      (¬d.HandsOver p →
        clockSets (d.poll p).acts = [] ∧ (d.poll p).device.pendingSync = due) := by
  have htake := (taking d p).clock
  rw [poll_eq]
  split
  next => exact htake
  next =>
    obtain ⟨hacts, hpending⟩ := (reporting (d.take p).device (d.take p).platform).clock
    simpa only [clockSets_append, hacts, hpending, List.append_nil] using htake

theorem clock_perform (d : Device α) (r : DeviceRequest α π)
    (unset : clockSets (d.perform r).acts = []) :
    (d.perform r).device.pendingSync = (r.newTime? d.did).or d.pendingSync := by
  cases r with
  | handle query => exact pendingSync_handle d query
  | poll p =>
    by_cases hands : d.HandsOver p
    · obtain ⟨hacts, hpending⟩ := (clock_poll d p).1 hands
      have hdue : (incomingTime? p d.did).or d.pendingSync = none := by
        simpa using hacts.symm.trans unset
      exact hpending.trans hdue.symm
    · exact ((clock_poll d p).2 hands).2
  | read key => exact pendingSync_readAttribute d key
  | write key value =>
    refine (pendingSync_writeAttribute d key value).trans ?_
    simp only [DeviceRequest.newTime?]
    split <;> rfl
  | updateTime _ | trigger _ | setBattery _ | resetCounters | configure _ | adapt _ => rfl

/-- The last time that requests write to a device. -/
def newestTime? (did : Did) (requests : List (DeviceRequest α π)) : Option UInt32 :=
  (requests.filterMap (·.newTime? did)).getLast?

omit [Application α] in
theorem newestTime?_cons (did : Did) (r : DeviceRequest α π) (rest : List (DeviceRequest α π)) :
    newestTime? did (r :: rest) = (newestTime? did rest).or (r.newTime? did) := by
  unfold newestTime?
  cases h : r.newTime? did with
  | none => simp [h]
  | some secs =>
    simp only [List.filterMap_cons, h, List.getLast?_cons]
    cases (rest.filterMap (·.newTime? did)).getLast? <;> rfl

theorem clock_run (d : Device α) (requests : List (DeviceRequest α π))
    (unset : clockSets (d.run requests).acts = []) :
    (d.run requests).device.pendingSync = (newestTime? d.did requests).or d.pendingSync := by
  induction requests generalizing d with
  | nil => rfl
  | cons r rest ih =>
    rw [run_cons, clockSets_append, List.append_eq_nil_iff] at unset
    have hrest := ih (d.perform r).device unset.2
    rw [did_perform, clock_perform d r unset.1] at hrest
    rw [run_cons, hrest, newestTime?_cons, Option.or_assoc]

theorem pending_of_written {d : Device α} {r : DeviceRequest α π} {secs : UInt32}
    (written : r.newTime? d.did = some secs) (unset : secs ∉ clockSets (d.perform r).acts) :
    (d.perform r).device.pendingSync = some secs := by
  have hnone : clockSets (d.perform r).acts = [] := by
    cases r with
    | handle query => exact clockSets_inner (works_handle d query).inner
    | write key value => exact clockSets_inner (works_writeAttribute d key value).inner
    | poll p =>
      by_cases hands : d.HandsOver p
      · have hacts := ((clock_poll d p).1 hands).1
        rw [show incomingTime? p d.did = some secs from written] at hacts
        exact absurd (by simp [perform, hacts]) unset
      · exact ((clock_poll d p).2 hands).1
    | read _ | updateTime _ | trigger _ | setBattery _ | resetCounters | configure _ | adapt _ =>
      simp [DeviceRequest.newTime?] at written
  rw [clock_perform d r hnone, written]
  rfl

theorem did_run (d : Device α) (requests : List (DeviceRequest α π)) :
    (d.run requests).device.did = d.did := by
  induction requests generalizing d with
  | nil => rfl
  | cons r rest ih => exact (ih _).trans (did_perform d r)

/-- A time that was written to a device, and that no poll has set the platform clock to, stays
pending until a newer one is written. The next poll that receives a frame, and sends its answer,
sets the clock to it once; any other poll leaves the clock alone and the time pending. -/
theorem written_time_reaches_clock (d : Device α) (r : DeviceRequest α π) (secs : UInt32)
    (later : List (DeviceRequest α π)) (p : π) (written : r.newTime? d.did = some secs)
    (unset : secs ∉ clockSets (d.perform r).acts)
    (waiting : clockSets ((d.perform r).device.run later).acts = []) :
    let waited := ((d.perform r).device.run later).device
    let newest := (newestTime? d.did later).getD secs
    let time := (incomingTime? p d.did).getD newest
    waited.pendingSync = some newest ∧
      (waited.HandsOver p → clockSets (waited.poll p).acts = [time]) ∧
      (¬waited.HandsOver p →
        clockSets (waited.poll p).acts = [] ∧ (waited.poll p).device.pendingSync = some time) := by
  intro waited newest time
  have hdid : waited.did = d.did := (did_run _ later).trans (did_perform d r)
  have hpending : waited.pendingSync = some newest := by
    rw [clock_run _ later waiting, did_perform, pending_of_written written unset, Option.or_some]
  have hdue : (incomingTime? p waited.did).or waited.pendingSync = some time := by
    rw [hdid, hpending, Option.or_some]
  obtain ⟨hhands, hidle⟩ := clock_poll waited p
  rw [hdue] at hhands hidle
  exact ⟨hpending, fun hands => (hhands hands).1, hidle⟩

end Syncing

end Device

namespace Thermostat

/-- A heater that reports its temperature at the given period. -/
def device (period : UInt32) : Device Thermostat :=
  .build (.ofName (.ofRaw 1) 1 "d" 0) { telemetryPeriod := period } { temperature := 1900 }

def setTime : DeviceRequest Thermostat Mailbox := .write .time 1700000000

/-- The time waits for a poll that receives a frame. -/
theorem written_time_reaches_clock_late :
    let waited := (((device 0).perform setTime).device.run [.poll (⟨10000, []⟩ : Mailbox)]).device
    waited.pendingSync = some 1700000000 ∧
      Device.clockSets (waited.poll (⟨11000, [Silence.question]⟩ : Mailbox)).acts =
        [1700000000] := by
  have waiting : Device.clockSets
      (((device 0).perform setTime).device.run [.poll (⟨10000, []⟩ : Mailbox)]).acts = [] := by
    decide
  obtain ⟨hpending, hhands, _⟩ := Device.written_time_reaches_clock (device 0) setTime 1700000000
    [.poll ⟨10000, []⟩] (⟨11000, [Silence.question]⟩ : Mailbox) (by decide) (by decide) waiting
  exact ⟨hpending, hhands ⟨Silence.question, ⟨11000, []⟩, rfl, by decide⟩⟩

/-- A written time does not reach the clock in a poll that receives nothing. -/
theorem written_time_misses_clock :
    ((device 0).writeAttribute .time 1700000000).result = .ok () ∧
      (((device 0).perform setTime).device.poll (⟨10000, []⟩ : Mailbox)).result = .ok () ∧
      Device.clockSets (((device 0).perform setTime).device.poll (⟨10000, []⟩ : Mailbox)).acts =
        [] :=
  ⟨by decide, by decide, by decide⟩

end Thermostat

end Fieldbus
