import Fieldbus.Proofs.Device.Counters

namespace Fieldbus

/-- The counters of a device tell what it received and sent. -/
structure SystemStatus.Accounts (s : SystemStatus) (did : Did) (received sent : List Frame) :
    Prop where
  received_total : s.receivedTotal = .ofNat (received.countP (·.isFor did))
  received_sum : s.receivedTotal =
    s.receivedReadAttribute + s.receivedWriteAttribute + s.receivedCommand +
      s.receivedRequestTelemetry
  read : s.receivedReadAttribute =
    .ofNat (received.countP fun f => f.isFor did && f.id.frameType = .readAttribute)
  write : s.receivedWriteAttribute =
    .ofNat (received.countP fun f => f.isFor did && f.id.frameType = .writeAttribute)
  command : s.receivedCommand =
    .ofNat (received.countP fun f => f.isFor did && f.id.frameType = .command)
  telemetry : s.receivedRequestTelemetry =
    .ofNat (received.countP fun f => f.isFor did && f.id.frameType = .telemetry)
  ignored : s.receivedIgnored = .ofNat (received.countP (!·.isFor did))
  sent_total : s.sentTotal = .ofNat sent.length
  sent_telemetry : s.sentTelemetry = .ofNat (sent.countP (·.id.frameType = .telemetry))

/-- Each query is of one type. -/
theorem countP_isFor (did : Did) (frames : List Frame) :
    frames.countP (·.isFor did) =
      frames.countP (Frame.isTypeFor .readAttribute did) +
        frames.countP (Frame.isTypeFor .writeAttribute did) +
        frames.countP (Frame.isTypeFor .command did) +
        frames.countP (Frame.isTypeFor .telemetry did) := by
  induction frames with
  | nil => rfl
  | cons f frames ih =>
    cases mine : f.isFor did with
    | false => simp [Frame.isTypeFor, mine, ih]
    | true =>
      cases type : f.id.frameType <;> simp [Frame.isTypeFor, mine, type, ih] <;> omega

theorem SystemStatus.accounts {s : SystemStatus} {did : Did} {received sent : List Frame}
    (h : s.counters = .tally did received sent) : s.Accounts did received sent where
  received_total := congrArg Counters.receivedTotal h
  received_sum := by
    have hsum := congrArg UInt32.ofNat (countP_isFor did received)
    simp only [UInt32.ofNat_add] at hsum
    have htotal : s.receivedTotal = _ := congrArg Counters.receivedTotal h
    have hread : s.receivedReadAttribute = _ := congrArg Counters.receivedReadAttribute h
    have hwrite : s.receivedWriteAttribute = _ := congrArg Counters.receivedWriteAttribute h
    have hcommand : s.receivedCommand = _ := congrArg Counters.receivedCommand h
    have htelemetry : s.receivedRequestTelemetry = _ :=
      congrArg Counters.receivedRequestTelemetry h
    rw [htotal, hread, hwrite, hcommand, htelemetry]
    exact hsum
  read := congrArg Counters.receivedReadAttribute h
  write := congrArg Counters.receivedWriteAttribute h
  command := congrArg Counters.receivedCommand h
  telemetry := congrArg Counters.receivedRequestTelemetry h
  ignored := congrArg Counters.receivedIgnored h
  sent_total := congrArg Counters.sentTotal h
  sent_telemetry := congrArg Counters.sentTelemetry h

namespace Device

variable {α π : Type}

section Poll

variable {d : Device α} {out : Polled α π}

theorem Syncing.counters {p : π} [Platform π] (h : d.Syncing p out) :
    out.device.system.counters = d.system.counters ∧ sentFrames out.acts = [] := by
  cases h <;> exact ⟨rfl, rfl⟩

variable [Application α]

theorem Reporting.counters {p : π} (h : d.Reporting p out) (did : Did) :
    out.device.system.counters = d.system.counters + .tally did [] (sentFrames out.acts) := by
  cases h with
  | idle => exact (Counters.add_tally_nil _ did).symm
  | failed endpoint fault e acts _ built =>
    have hinner := sentFrames_inner (works_buildTelemetry d.trying endpoint).inner
    have hkeep := counters_buildTelemetry d.trying endpoint
    rw [built] at hinner hkeep
    simp only [sentFrames_append, hinner]
    exact hkeep.trans (Counters.add_tally_nil _ did).symm
  | sent endpoint frame e acts _ built =>
    have hinner := sentFrames_inner (works_buildTelemetry d.trying endpoint).inner
    have hkeep := counters_buildTelemetry d.trying endpoint
    rw [built] at hinner hkeep
    simp only [sentFrames_append, hinner]
    rw [counters_countSent e did, hkeep]
    rfl

theorem Replying.counters {p : π} {query : Frame} (h : d.Replying p query out) :
    out.device.system.counters =
      d.system.counters + .tally d.did [query] (sentFrames out.acts) := by
  have hinner := sentFrames_inner (works_handle d query).inner
  have hhandle := counters_handle d query
  cases h with
  | silent none =>
    rw [none] at hhandle
    rw [hinner]
    exact hhandle
  | said answer some =>
    rw [some] at hhandle
    rw [sentFrames_append, hinner]
    exact hhandle

variable [Platform π] {p : π}

theorem Taking.counters (h : d.Taking p out) :
    out.device.system.counters =
      d.system.counters + .tally d.did (incoming? p).toList (sentFrames out.acts) := by
  cases h with
  | idle silent =>
    rw [incoming?_of_silent silent]
    exact (Counters.add_tally_nil _ d.did).symm
  | unsent query q received =>
    rw [incoming?_of_received received]
    exact (replying (d.updateTime (Platform.now p)) q query).counters
  | served query q received replied synced reply _ sync =>
    have hreply := (replying (d.updateTime (Platform.now p)) q query).counters
    obtain ⟨hsync, hnone⟩ := sync.counters
    rw [reply] at hreply
    rw [incoming?_of_received received, sentFrames_append, hnone, List.append_nil]
    exact hsync.trans hreply

variable (d p)

theorem counters_poll :
    (d.poll p).device.system.counters =
      d.system.counters + .tally d.did (incoming? p).toList (sentFrames (d.poll p).acts) := by
  have htake := (taking d p).counters
  rw [poll_eq]
  split
  next => exact htake
  next =>
    have hreport := (reporting (d.take p).device (d.take p).platform).counters d.did
    simp only [sentFrames_append]
    rw [hreport, htake, Counters.add_tally_add_tally, List.append_nil]

end Poll

end Device

section Run

variable {α π : Type} [Application α] [Platform π]

/-- The frames that a request makes a device send: those that it asks the platform to send, and the
response to a query that it was handed. -/
def DeviceRequest.sent (d : Device α) : DeviceRequest α π → List Frame
  | .handle query => (d.handle query).result.toList
  | .poll p => (d.poll ({ platform := p } : Recorder π)).platform.asked
  | _ => []

/-- The frames that a device received and sent since its counters were cleared. -/
structure Traffic where
  received : List Frame := []
  sent : List Frame := []

namespace Traffic

/-- The frames that a device has received and sent once it has done what is asked. -/
def next (t : Traffic) (d : Device α) : DeviceRequest α π → Traffic
  | .resetCounters => {}
  | r => { received := t.received ++ r.received, sent := t.sent ++ r.sent d }

/-- The frames that a device has received and sent once it has done all that is asked. -/
def after (t : Traffic) (d : Device α) : List (DeviceRequest α π) → Traffic
  | [] => t
  | r :: rest => (t.next d r).after (d.perform r).device rest

end Traffic

namespace Device

theorem sent_poll (d : Device α) (p : π) :
    (DeviceRequest.poll p : DeviceRequest α π).sent d = sentFrames (d.poll p).acts := by
  have hacts := congrArg Polled.acts (unrecorded_poll d { platform := p })
  have hasked := asked_poll d { platform := p }
  exact hasked.trans (congrArg sentFrames hacts)

theorem counters_perform {t : Traffic} {d : Device α}
    (h : d.system.counters = .tally d.did t.received t.sent) (r : DeviceRequest α π) :
    (d.perform r).device.system.counters =
      .tally d.did (t.next d r).received (t.next d r).sent := by
  have hkeep : d.system.counters = .tally d.did (t.received ++ []) (t.sent ++ []) := by
    simpa only [List.append_nil] using h
  cases r with
  | handle query =>
    simp only [Traffic.next, Counters.tally_append, ← h]
    exact counters_handle d query
  | poll p =>
    simp only [Traffic.next, Counters.tally_append, ← h, sent_poll]
    exact counters_poll d p
  | read key => exact (counters_readAttribute d key).trans hkeep
  | write key value => exact (counters_writeAttribute d key value).trans hkeep
  | resetCounters => rfl
  | updateTime _ | trigger _ | setBattery _ | configure _ | adapt _ => exact hkeep

theorem counters_run {t : Traffic} {d : Device α}
    (h : d.system.counters = .tally d.did t.received t.sent) (requests : List (DeviceRequest α π)) :
    (d.run requests).device.system.counters =
      .tally d.did (t.after d requests).received (t.after d requests).sent := by
  induction requests generalizing t d with
  | nil => exact h
  | cons r rest ih =>
    have hstep := counters_perform h r
    rw [← did_perform d r] at hstep ⊢
    exact ih hstep

/-- Whatever is asked of a device, its counters tell the frames that it received and sent since it
was built or its counters were cleared. A frame that is not for the device only counts as ignored,
and writing an attribute leaves all counters alone. -/
theorem counters_account (identification : Identification) (config : Config) (app : α)
    (requests : List (DeviceRequest α π)) :
    let fresh := build identification config app
    let traffic := Traffic.after {} fresh requests
    (fresh.run requests).device.system.Accounts identification.did traffic.received
        traffic.sent ∧
      (∀ (d : Device α) (frame : Frame), frame.isFor d.did = false →
        d.handle frame =
          ⟨none,
            { d with
              system := { d.system with receivedIgnored := d.system.receivedIgnored + 1 } },
            []⟩) ∧
      ∀ (d : Device α) (key : Key) (value : UInt32),
        (d.writeAttribute key value).device.system.counters = d.system.counters := by
  intro fresh traffic
  have hfresh : fresh.system.counters = .tally fresh.did [] [] := rfl
  refine ⟨SystemStatus.accounts (counters_run hfresh requests), fun d frame other => ?_,
    counters_writeAttribute⟩
  refine if_neg fun concerned => ?_
  rw [Bool.and_eq_true, ← Frame.isFor_iff, other] at concerned
  cases concerned

end Device

end Run

end Fieldbus
