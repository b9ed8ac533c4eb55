import Fieldbus.Proofs.Device.Pace

namespace Fieldbus

namespace Device

variable {α π : Type} {d : Device α} {query answer : Frame} {p : π} {out : Polled α π}

section Countdown

variable {t : Timestamp} {elapsed : Nat}

theorem untilTelemetry_of_untriggered (untriggered : d.requested = none)
    (periodic : d.config.telemetryPeriod ≠ 0) :
    d.untilTelemetry =
      d.lastTelemetry.elim 0 fun last => d.config.telemetryPeriod.toNat - (d.now - last) := by
  simp only [untilTelemetry, untriggered, periodic, sinceTelemetry]
  cases d.lastTelemetry <;> rfl

theorem dueTelemetry_updateTime_iff (behind : ∀ last ∈ d.lastTelemetry, last ≤ d.now)
    (on : t.toMillis = d.now + elapsed) :
    (d.updateTime t).dueTelemetry ≠ none ↔
      d.requested ≠ none ∨ d.config.telemetryPeriod ≠ 0 ∧ d.untilTelemetry ≤ elapsed := by
  cases triggered : d.requested with
  | some endpoint => simp [dueTelemetry, updateTime, triggered]
  | none =>
    by_cases never : d.config.telemetryPeriod = 0
    · simp [dueTelemetry, updateTime, triggered, never]
    · have hdue : (d.updateTime t).dueTelemetry ≠ none ↔ d.requested ≠ none ∨
          ∀ last ∈ d.lastTelemetry, last + d.config.telemetryPeriod.toNat ≤ t.toMillis :=
        dueTelemetry_ne_none_iff never
      rw [hdue, on, untilTelemetry_of_untriggered triggered never]
      cases hlast : d.lastTelemetry with
      | none => simp [never]
      | some last =>
        have hle := behind last hlast
        have hreach : last + d.config.telemetryPeriod.toNat ≤ d.now + elapsed ↔
            d.config.telemetryPeriod.toNat - (d.now - last) ≤ elapsed := by omega
        simp [triggered, never, hreach]

theorem untilTelemetry_updateTime (behind : ∀ last ∈ d.lastTelemetry, last ≤ d.now)
    (on : t.toMillis = d.now + elapsed) (waits : 0 < d.untilTelemetry) :
    (d.updateTime t).untilTelemetry =
      if d.config.telemetryPeriod = 0 then 0xFFFFFFFF else d.untilTelemetry - elapsed := by
  have untriggered : d.requested = none := by
    cases triggered : d.requested with
    | none => rfl
    | some endpoint => simp [untilTelemetry, triggered] at waits
  split
  next never => simp [untilTelemetry, updateTime, untriggered, never]
  next periodic =>
    have hafter : (d.updateTime t).untilTelemetry = d.lastTelemetry.elim 0 fun last =>
        d.config.telemetryPeriod.toNat - (t.toMillis - last) :=
      untilTelemetry_of_untriggered untriggered periodic
    rw [untilTelemetry_of_untriggered untriggered periodic] at waits ⊢
    rw [hafter, on]
    cases hlast : d.lastTelemetry with
    | none => simp
    | some last =>
      have hle := behind last hlast
      simp only [Option.elim_some]
      omega

end Countdown

theorem dueTelemetry_of_noted (untriggered : d.requested = none)
    (noted : d.lastTelemetry = some d.now) : d.dueTelemetry = none := by
  by_contra due
  have hperiodic := periodic_of_due untriggered due
  have hle := ((dueTelemetry_ne_none_iff hperiodic).mp due).resolve_left
    (not_not.mpr untriggered) d.now noted
  exact hperiodic (UInt32.toNat_inj.mp (Nat.le_zero.mp (by omega)))

variable [Application α]

/-- A command or a telemetry query that is carried out has telemetry built, as the last one. -/
theorem lastTelemetry_dispatch_of_ok (measures : query.id.frameType.isAttribute = false)
    (done : (d.dispatch query).result = .ok answer) :
    (d.dispatch query).device.lastTelemetry = some d.now := by
  have hbuild (e : Device α) (now : e.now = d.now)
      (built : (e.buildTelemetry query.id.endpoint).result = .ok answer) :
      (e.buildTelemetry query.id.endpoint).device.lastTelemetry = some d.now := by
    rw [lastTelemetry_buildTelemetry, built, now]
  have h := dispatching d query
  generalize d.dispatch query = out at h done ⊢
  cases h with
  | commandFailed => cases done
  | command e acts _ ran =>
    have hran := (works_runCommand d query.id.endpoint query.payload).steady.now
    rw [ran] at hran
    exact hbuild e hran done
  | telemetry => exact hbuild d rfl done
  | malformed => cases done
  | read key type => simp [type, FrameType.isAttribute] at measures
  | writeFailed => cases done
  | write key value e acts type => simp [type, FrameType.isAttribute] at measures

theorem lastTelemetry_handle_of_answered (measures : query.id.frameType.isAttribute = false)
    (answered : (d.handle query).result = some answer) (success : answer.id.isError = false) :
    (d.handle query).device.lastTelemetry = some d.now := by
  obtain ⟨isQuery, concerned, hok | ⟨fault, _, rfl⟩⟩ := handle_eq_some answered
  · have hdispatch := lastTelemetry_dispatch_of_ok measures hok
    rw [(counted_countReceived d query.id.frameType).same] at hdispatch
    rw [((handling d query).counted isQuery concerned).same,
      (counted_countReceived d query.id.frameType).same]
    exact hdispatch
  · rw [Frame.isError_errorResponse] at success
    cases success

section Polling

variable [Platform π]

theorem device_poll_of_quiet (quiet : ¬TriesTelemetry (d.poll p).acts) :
    (d.poll p).device = (d.take p).device := by
  cases done : (d.take p).result with
  | error fault => rw [poll_of_failed done]
  | ok _ =>
    have hidle := not_not.mp (not_or.mp ((tries_poll done).not.mp quiet)).2
    rw [poll_eq, done]
    simp only [report, hidle]

theorem tries_poll_of_silent (silent : ∀ query, (Platform.receive p).1 ≠ .ok (some query)) :
    TriesTelemetry (d.poll p).acts ↔
      (d.updateTime (Platform.now p)).dueTelemetry ≠ none := by
  have htake := take_of_silent (d := d) silent
  rw [tries_poll (by rw [htake]), htake]
  simp [TriesTelemetry]

/-- A poll that answers by telemetry, and has no clock to set, leaves none due. -/
theorem Taking.dueTelemetry_of_answered (h : d.Taking p out) (untriggered : d.requested = none)
    (settled : d.pendingSync = none) (received : incoming? p = some query)
    (measures : query.id.frameType.isAttribute = false) (told : d.answered p = some answer)
    (success : answer.id.isError = false) : out.device.dueTelemetry = none := by
  have hrequested := h.steady.requested.trans untriggered
  have hanswered : ((d.updateTime (Platform.now p)).handle query).result = some answer := by
    simpa only [answered, received, Option.bind_some] using told
  -- The frame that the poll took is the query, and writes no time.
  have hreply (other : Frame) (q : π) (hother : Platform.receive p = (.ok (some other), q)) :
      let replied := ((d.updateTime (Platform.now p)).reply q other).device
      replied.lastTelemetry = some replied.now ∧ replied.pendingSync = none := by
    cases Option.some.inj (received.symm.trans (incoming?_of_received hother))
    have hunwritten : query.newTime? d.did = none := by
      refine Option.eq_none_iff_forall_ne_some.mpr fun secs written => ?_
      simp [type_of_newTime? written, FrameType.isAttribute] at measures
    intro replied
    have hnow : replied.now = (d.updateTime (Platform.now p)).now := (steady_reply _ q query).now
    refine ⟨?_, ?_⟩
    · rw [hnow, ← lastTelemetry_handle_of_answered measures hanswered success]
      exact congrArg Device.lastTelemetry (device_reply _ q query)
    · have hpending : replied.pendingSync = (query.newTime? d.did).or d.pendingSync :=
        pendingSync_reply _ q query
      rw [hpending, hunwritten, settled]
      rfl
  cases h with
  | idle silent => simp [incoming?_of_silent silent] at received
  | unsent other q hother => exact dueTelemetry_of_noted hrequested (hreply other q hother).1
  | served other q hother replied synced reply _ sync =>
    obtain ⟨hnoted, hsettled⟩ := hreply other q hother
    rw [reply] at hnoted hsettled
    cases sync.of_settled hsettled
    exact dueTelemetry_of_noted hrequested hnoted

theorem unsolicited_of_answered (untriggered : d.requested = none)
    (settled : d.pendingSync = none) (received : incoming? p = some query)
    (measures : query.id.frameType.isAttribute = false) (told : d.answered p = some answer)
    (success : answer.id.isError = false) : d.unsolicited p = [] := by
  have hdue := (taking d p).dueTelemetry_of_answered untriggered settled received measures told
    success
  unfold unsolicited
  split
  next => simp [due, hdue]
  next => rfl

/-- The countdown to the telemetry that a device sends by itself agrees with its polls. While the
clock never goes back, telemetry that was not triggered keeps a period from whatever was built
before, so that a poll adds none to the telemetry that it answers by. -/
theorem telemetry_keeps_period (d : Device α) :
    ((∀ last ∈ d.lastTelemetry, last ≤ d.now) →
      (∀ (p : π) (elapsed : Nat), (∀ query, (Platform.receive p).1 ≠ .ok (some query)) →
        (Platform.now p).toMillis = d.now + elapsed →
        (TriesTelemetry (d.poll p).acts ↔
          d.requested ≠ none ∨ d.config.telemetryPeriod ≠ 0 ∧ d.untilTelemetry ≤ elapsed) ∧
        (0 < d.untilTelemetry → ¬TriesTelemetry (d.poll p).acts →
          (d.poll p).device.untilTelemetry =
            if d.config.telemetryPeriod = 0 then 0xFFFFFFFF else d.untilTelemetry - elapsed)) ∧
      ∀ (before : List (DeviceRequest α π)) (p : π), d.NeverSetBack (before ++ [.poll p]) →
        let waited := (d.run before).device
        waited.requested = none → ∀ a ∈ waited.unsolicited p,
          ∀ b ∈ d.allAttempts before ++ waited.triedInTake p, b.frame? ≠ none →
            b.source.now + a.source.config.telemetryPeriod.toNat ≤ a.source.now) ∧
    ∀ p : π,
      sentFrames (d.poll p).acts =
          (d.answered p).toList ++ (d.unsolicited p).filterMap Attempt.frame? ∧
        (d.requested = none → d.pendingSync = none →
          ∀ query answer, incoming? p = some query → query.id.frameType.isAttribute = false →
            d.answered p = some answer → answer.id.isError = false →
            d.unsolicited p = [] ∧ sentFrames (d.poll p).acts = [answer]) := by
  refine ⟨fun behind => ⟨fun p elapsed silent on => ⟨?_, fun waits quiet => ?_⟩, ?_⟩,
    fun p => ⟨sentFrames_poll d p, ?_⟩⟩
  · rw [tries_poll_of_silent silent, dueTelemetry_updateTime_iff behind on]
  · rw [device_poll_of_quiet quiet, take_of_silent silent]
    exact untilTelemetry_updateTime behind on waits
  · intro before p on waited untriggered a own b earlier built
    have hfresh : d.Paced [] := ⟨behind, fun b hb => nomatch hb⟩
    obtain ⟨hbefore, hlast, _⟩ := neverSetBack_append.mp on
    have hpaced : waited.Paced (d.allAttempts before) := by simpa using hfresh.run hbefore
    exact hpaced.unsolicited hlast untriggered own earlier built
  · intro untriggered settled query answer received measures told success
    have hnone := unsolicited_of_answered untriggered settled received measures told success
    refine ⟨hnone, ?_⟩
    rw [sentFrames_poll, hnone, told]
    rfl

end Polling

end Device

namespace Thermostat

/-- The heater has reported at 100 seconds. Asked at 130 seconds, it reports again by itself once
190 seconds have passed; asked at 160 seconds, it only answers. -/
theorem telemetry_keeps_period_heater :
    let asked : List (DeviceRequest Thermostat Mailbox) := [.poll ⟨130000, [Silence.question]⟩]
    TriesTelemetry (reported.poll (⟨160000, []⟩ : Mailbox)).acts ∧
      (reported.poll (⟨130000, []⟩ : Mailbox)).device.untilTelemetry = 30000 ∧
      (∀ a ∈ (reported.run asked).device.unsolicited (⟨190000, []⟩ : Mailbox),
        130000 + a.source.config.telemetryPeriod.toNat ≤ a.source.now) ∧
      (sentFrames (reported.poll (⟨160000, [Silence.question]⟩ : Mailbox)).acts).length = 1 := by
  intro asked
  have silent (clock : Nat) (query : Frame) :
      (Platform.receive (⟨clock, []⟩ : Mailbox)).1 ≠ .ok (some query) := nofun
  obtain ⟨hpace, hown⟩ := Device.telemetry_keeps_period (π := Mailbox) reported
  obtain ⟨hcountdown, hperiod⟩ := hpace (by decide)
  refine ⟨?_, ?_, fun a own => ?_, ?_⟩
  · have on : (Platform.now (⟨160000, []⟩ : Mailbox)).toMillis = reported.now + 60000 := by decide
    have hdue := (hcountdown ⟨160000, []⟩ 60000 (silent _) on).1
    exact hdue.mpr (Or.inr (by decide))
  · have hleft := (hcountdown ⟨130000, []⟩ 30000 (silent _) (by decide)).2 (by decide) (by decide)
    exact hleft.trans (by decide)
  · have hset : reported.NeverSetBack (asked ++ [.poll ⟨190000, []⟩]) :=
      ⟨⟨by decide, by decide⟩, ⟨by decide, by decide⟩, trivial⟩
    obtain ⟨b, earlier, hnow, built⟩ : ∃ b ∈ reported.allAttempts asked,
        b.source.now = 130000 ∧ b.frame? ≠ none := by decide
    rw [← hnow]
    exact hperiod asked ⟨190000, []⟩ hset (by decide) a own b (List.mem_append_left _ earlier) built
  · obtain ⟨answer, told, success⟩ :
        ∃ answer ∈ reported.answered (⟨160000, [Silence.question]⟩ : Mailbox),
          answer.id.isError = false := by decide
    obtain ⟨_, hsent⟩ := (hown ⟨160000, [Silence.question]⟩).2 (by decide) (by decide)
      Silence.question answer (by decide) (by decide) told success
    rw [hsent]
    rfl

end Thermostat

end Fieldbus
