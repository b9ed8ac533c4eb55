import Fieldbus.Device.Poll
import Fieldbus.Proofs.Device.Dispatch

namespace Fieldbus

/-- Acts that stay within a device: nothing is sent, and no clock is set. -/
def DeviceAct.isInner : DeviceAct → Bool
  | .handling _ | .call _ | .rejected _ | .silenced _ => true
  | .send .. | .syncing _ | .setClock _ | .telemetryFailed _ => false

namespace Device

variable {α : Type}

/-- A device works on, and what it does stays within it. -/
structure Works (d : Device α) (acts : List DeviceAct) (e : Device α) : Prop where
  steady : d.Steady e
  inner : ∀ a ∈ acts, a.isInner = true

theorem Works.trans {d e f : Device α} {acts more : List DeviceAct} (h : d.Works acts e)
    (h' : e.Works more f) : d.Works (acts ++ more) f :=
  ⟨h.steady.trans h'.steady, fun a ha => (List.mem_append.mp ha).elim (h.inner a) (h'.inner a)⟩

section Works

variable [Application α] (d : Device α)

theorem works_readAttribute (key : Key) :
    d.Works (d.readAttribute key).acts (d.readAttribute key).device := by
  refine ⟨steady_readAttribute d key, ?_⟩
  have h := retrieving d key
  generalize d.readAttribute key = out at h ⊢
  cases h <;> simp [DeviceAct.isInner]

theorem works_writeAttribute (key : Key) (value : UInt32) :
    d.Works (d.writeAttribute key value).acts (d.writeAttribute key value).device := by
  refine ⟨steady_writeAttribute d key value, ?_⟩
  have h := storing d key value
  generalize d.writeAttribute key value = out at h ⊢
  cases h <;> simp [DeviceAct.isInner]

theorem works_runCommand (endpoint : Endpoint) (payload : List UInt8) :
    d.Works (d.runCommand endpoint payload).acts (d.runCommand endpoint payload).device := by
  rw [runCommand_eq]
  refine ⟨⟨rfl, rfl, rfl, rfl⟩, ?_⟩
  split <;> simp [DeviceAct.isInner]

theorem works_buildTelemetry (endpoint : Endpoint) :
    d.Works (d.buildTelemetry endpoint).acts (d.buildTelemetry endpoint).device := by
  have hcalls : ∀ a ∈ d.measuringCalls endpoint, a.isInner = true := by
    unfold measuringCalls
    split <;> simp [DeviceAct.isInner]
  have h := measuring d endpoint
  generalize d.buildTelemetry endpoint = out at h ⊢
  cases h <;> exact ⟨⟨rfl, rfl, rfl, rfl⟩, hcalls⟩

theorem works_dispatch (query : Frame) :
    d.Works (d.dispatch query).acts (d.dispatch query).device := by
  have h := dispatching d query
  generalize d.dispatch query = out at h ⊢
  cases h with
  | commandFailed fault e acts _ ran =>
    have hran := works_runCommand d query.id.endpoint query.payload
    rwa [ran] at hran
  | command e acts _ ran =>
    have hran := works_runCommand d query.id.endpoint query.payload
    rw [ran] at hran
    exact hran.trans (works_buildTelemetry e _)
  | telemetry => exact works_buildTelemetry d _
  | malformed => exact ⟨.refl d, by simp⟩
  | read key => exact works_readAttribute d key
  | writeFailed key value fault e acts _ _ _ wrote =>
    have hwrote := works_writeAttribute d key value
    rwa [wrote] at hwrote
  | write key value e acts _ _ _ wrote =>
    have hwrote := works_writeAttribute d key value
    rw [wrote] at hwrote
    exact hwrote.trans (works_readAttribute e key)

theorem works_handle (query : Frame) :
    d.Works (d.handle query).acts (d.handle query).device := by
  have hcount : d.Works [] (d.countReceived query.id.frameType) :=
    ⟨⟨rfl, rfl, rfl, rfl⟩, by simp⟩
  have hdone := hcount.trans (works_dispatch (d.countReceived query.id.frameType) query)
  have h := handling d query
  generalize d.handle query = out at h ⊢
  cases h with
  | ignored => exact ⟨⟨rfl, rfl, rfl, rfl⟩, by simp⟩
  | answered answer e acts _ done =>
    rw [done] at hdone
    exact ⟨hdone.steady.trans ⟨rfl, rfl, rfl, rfl⟩, by simpa [DeviceAct.isInner] using hdone.inner⟩
  | reported fault e acts _ failed =>
    rw [failed] at hdone
    refine ⟨hdone.steady.trans ⟨rfl, rfl, rfl, rfl⟩, ?_⟩
    simpa [DeviceAct.isInner, or_imp, forall_and] using hdone.inner
  | silenced fault e acts _ failed =>
    rw [failed] at hdone
    refine ⟨hdone.steady, ?_⟩
    simpa [DeviceAct.isInner, or_imp, forall_and] using hdone.inner

end Works

section Reporting

variable {π : Type}

/-- The device that is about to try to send telemetry. -/
def trying (d : Device α) : Device α := { d with requested := none, lastTelemetry := some d.now }

variable [Application α]

/-- What sending due telemetry comes to. -/
inductive Reporting (d : Device α) (p : π) : Polled α π → Prop
  | idle (none : d.dueTelemetry = none) : Reporting d p ⟨.ok (), d, p, []⟩
  | failed (endpoint : Endpoint) (fault : Fault) (e : Device α) (acts : List DeviceAct)
      (due : d.dueTelemetry = some endpoint)
      (built : d.trying.buildTelemetry endpoint = ⟨.error fault, e, acts⟩) :
      Reporting d p ⟨.ok (), e, p, acts ++ [.telemetryFailed fault]⟩
  | sent (endpoint : Endpoint) (frame : Frame) (e : Device α) (acts : List DeviceAct)
      (due : d.dueTelemetry = some endpoint)
      (built : d.trying.buildTelemetry endpoint = ⟨.ok frame, e, acts⟩)
      (result : Except Fault Unit) (delay : Nat) (q : π) :
      Reporting d p ⟨result, e.countSent frame, q, acts ++ [.send frame delay]⟩

/-- Of what no query changes, sending telemetry only changes what is asked for. -/
theorem Reporting.steady {d : Device α} {p : π} {out : Polled α π} (h : d.Reporting p out) :
    { d with requested := out.device.requested }.Steady out.device := by
  have hbuild := fun endpoint => (works_buildTelemetry d.trying endpoint).steady
  cases h with
  | idle => exact .refl d
  | failed endpoint fault e acts _ built =>
    have he := hbuild endpoint
    rw [built] at he
    exact ⟨he.identification, he.capabilities, he.now, rfl⟩
  | sent endpoint frame e acts _ built =>
    have he := hbuild endpoint
    rw [built] at he
    exact ⟨he.identification, he.capabilities, he.now, rfl⟩

end Reporting

section Polling

variable {π : Type} [Platform π] (d : Device α) (p : π)

/-- What setting the clock comes to. -/
inductive Syncing (d : Device α) (p : π) : Polled α π → Prop
  | idle (settled : d.pendingSync = none) : Syncing d p ⟨.ok (), d, p, []⟩
  | refused (secs : UInt32) (fault : Fault) (q : π) (pending : d.pendingSync = some secs)
      (told : Platform.setClock p secs = (.error fault, q)) :
      Syncing d p
        ⟨.error fault, { d with pendingSync := none }, q, [.syncing secs, .setClock secs]⟩
  | set (secs : UInt32) (q : π) (pending : d.pendingSync = some secs)
      (told : Platform.setClock p secs = (.ok (), q)) :
      Syncing d p
        ⟨.ok (), { d with pendingSync := none }.updateTime (Platform.now q), q,
          [.syncing secs, .setClock secs]⟩

theorem Syncing.steady {d : Device α} {p : π} {out : Polled α π} (h : d.Syncing p out) :
    { d with now := out.device.now }.Steady out.device := by
  cases h <;> exact ⟨rfl, rfl, rfl, rfl⟩

/-- There is nothing to do without a time to set. -/
theorem Syncing.of_settled {d : Device α} {p : π} {out : Polled α π} (h : d.Syncing p out)
    (settled : d.pendingSync = none) : out = ⟨.ok (), d, p, []⟩ := by
  cases h with
  | idle => rfl
  | refused secs fault q pending => simp [settled] at pending
  | set secs q pending => simp [settled] at pending

theorem syncing : Syncing d p (d.syncClock p) := by
  cases pending : d.pendingSync with
  | none =>
    simp only [syncClock, pending]
    exact .idle pending
  | some secs =>
    rcases told : Platform.setClock p secs with ⟨result, q⟩
    cases result with
    | error fault =>
      simp only [syncClock, pending, told]
      exact .refused secs fault q pending told
    | ok _ =>
      simp only [syncClock, pending, told]
      exact .set secs q pending told

variable [Application α]

/-- Answers a received frame, before the clock is set. -/
def reply (query : Frame) : Polled α π :=
  let handled := d.handle query
  match handled.result with
  | none => ⟨.ok (), handled.device, p, handled.acts⟩
  | some response =>
    let (delay, p) := handled.device.responseDelay p query
    let (sent, p) := Platform.send p response delay
    ⟨sent, handled.device, p, handled.acts ++ [.send response delay]⟩

/-- What answering a frame comes to. -/
inductive Replying (d : Device α) (p : π) (query : Frame) : Polled α π → Prop
  | silent (none : (d.handle query).result = none) :
      Replying d p query ⟨.ok (), (d.handle query).device, p, (d.handle query).acts⟩
  | said (answer : Frame) (some : (d.handle query).result = some answer)
      (sent : Except Fault Unit) (delay : Nat) (q : π) :
      Replying d p query
        ⟨sent, (d.handle query).device, q, (d.handle query).acts ++ [.send answer delay]⟩

theorem replying (query : Frame) : Replying d p query (d.reply p query) := by
  cases result : (d.handle query).result with
  | none =>
    simp only [reply, result]
    exact .silent result
  | some answer =>
    simp only [reply, result]
    exact .said answer result _ _ _

theorem device_reply (query : Frame) : (d.reply p query).device = (d.handle query).device := by
  have h := replying d p query
  generalize d.reply p query = out at h ⊢
  cases h <;> rfl

theorem steady_reply (query : Frame) : d.Steady (d.reply p query).device := by
  rw [device_reply]
  exact (works_handle d query).steady

theorem serve_eq (query : Frame) :
    d.serve p query =
      match (d.reply p query).result with
      | .error _ => d.reply p query
      | .ok () =>
        let synced := (d.reply p query).device.syncClock (d.reply p query).platform
        { synced with acts := (d.reply p query).acts ++ synced.acts } := by
  cases hresult : (d.handle query).result with
  | none => simp only [serve, reply, hresult]
  | some response =>
    rcases hdelay : (d.handle query).device.responseDelay p query with ⟨delay, q⟩
    rcases hsend : Platform.send q response delay with ⟨sent, r⟩
    cases sent <;> simp only [serve, reply, hresult, hdelay, hsend]

/-- What a poll does before it looks for telemetry to send. -/
def take : Polled α π :=
  let d := d.updateTime (Platform.now p)
  let (received, p) := Platform.receive p
  match received with
  | .ok (some query) => d.serve p query
  | _ => ⟨.ok (), d, p, []⟩

theorem poll_eq :
    d.poll p =
      match (d.take p).result with
      | .error _ => d.take p
      | .ok () =>
        let reported := (d.take p).device.report (d.take p).platform
        { reported with
          result := reported.result.bind fun _ => (Platform.receive p).1.map fun _ => ()
          acts := (d.take p).acts ++ reported.acts } := rfl

/-- What the first part of a poll comes to. -/
inductive Taking (d : Device α) (p : π) : Polled α π → Prop
  | idle (silent : ∀ query, (Platform.receive p).1 ≠ .ok (some query)) :
      Taking d p ⟨.ok (), d.updateTime (Platform.now p), (Platform.receive p).2, []⟩
  | unsent (query : Frame) (q : π) (received : Platform.receive p = (.ok (some query), q))
      (fault : Fault)
      (failed : ((d.updateTime (Platform.now p)).reply q query).result = .error fault) :
      Taking d p ((d.updateTime (Platform.now p)).reply q query)
  | served (query : Frame) (q : π) (received : Platform.receive p = (.ok (some query), q))
      (replied synced : Polled α π)
      (reply : (d.updateTime (Platform.now p)).reply q query = replied)
      (sent : replied.result = .ok ()) (sync : replied.device.Syncing replied.platform synced) :
      Taking d p { synced with acts := replied.acts ++ synced.acts }

theorem taking : Taking d p (d.take p) := by
  rcases received : Platform.receive p with ⟨result, q⟩
  rcases result with fault | _ | query
  · have h := Taking.idle (d := d) (p := p) (by simp [received])
    simpa only [take, received] using h
  · have h := Taking.idle (d := d) (p := p) (by simp [received])
    simpa only [take, received] using h
  · simp only [take, received, serve_eq]
    cases sent : ((d.updateTime (Platform.now p)).reply q query).result with
    | error fault => exact .unsent query q received fault sent
    | ok _ => exact .served query q received _ _ rfl sent (syncing _ _)

theorem reporting : Reporting d p (d.report p) := by
  cases due : d.dueTelemetry with
  | none =>
    simp only [report, due]
    exact .idle due
  | some endpoint =>
    rcases built : d.trying.buildTelemetry endpoint with ⟨result, e, acts⟩
    have hreport := built
    unfold trying at hreport
    cases result with
    | error fault =>
      simp only [report, due, hreport]
      exact .failed endpoint fault e acts due built
    | ok frame =>
      simp only [report, due, hreport]
      exact .sent endpoint frame e acts due built _ _ _

variable {d p} {out : Polled α π}

/-- Of what no query changes, a poll only changes the time before it sends telemetry. -/
theorem Taking.steady (h : d.Taking p out) :
    { d with now := out.device.now }.Steady out.device := by
  have hreply (q : π) (query : Frame) := steady_reply (d.updateTime (Platform.now p)) q query
  cases h with
  | idle => exact ⟨rfl, rfl, rfl, rfl⟩
  | unsent query q =>
    have hunsent := hreply q query
    exact ⟨hunsent.identification, hunsent.capabilities, rfl, hunsent.requested⟩
  | served query q _ replied synced reply _ sync =>
    have hreplied := hreply q query
    have hsynced := sync.steady
    rw [reply] at hreplied
    exact ⟨hsynced.identification.trans hreplied.identification,
      hsynced.capabilities.trans hreplied.capabilities, rfl,
      hsynced.requested.trans hreplied.requested⟩

theorem take_of_silent (silent : ∀ query, (Platform.receive p).1 ≠ .ok (some query)) :
    d.take p = ⟨.ok (), d.updateTime (Platform.now p), (Platform.receive p).2, []⟩ := by
  have h := taking d p
  generalize d.take p = out at h ⊢
  cases h with
  | idle => rfl
  | unsent query q received => exact absurd (by rw [received]) (silent query)
  | served query q received => exact absurd (by rw [received]) (silent query)

/-- Without a frame to answer, a poll only reports. -/
theorem poll_of_silent (silent : ∀ query, (Platform.receive p).1 ≠ .ok (some query)) :
    d.poll p =
      let reported := (d.updateTime (Platform.now p)).report (Platform.receive p).2
      { reported with
        result := reported.result.bind fun _ => (Platform.receive p).1.map fun _ => () } := by
  rw [poll_eq, take_of_silent silent]
  rfl

theorem did_poll : (d.poll p).device.did = d.did := by
  have htake := (taking d p).steady.did
  rw [poll_eq]
  split
  next => exact htake
  next => exact (reporting (d.take p).device (d.take p).platform).steady.did.trans htake

end Polling

end Device

end Fieldbus
