import Fieldbus.Proofs.Device.Period
import Fieldbus.Proofs.Device.Unsolicited

namespace Fieldbus

namespace Device

variable {α π : Type} [Application α]

/-- A device that has made attempts: its clock is not behind the last telemetry, which is no older
than any that was built in them. -/
structure Paced (d : Device α) (made : List (Attempt α)) : Prop where
  behind : ∀ last ∈ d.lastTelemetry, last ≤ d.now
  noted : ∀ b ∈ made, b.frame? ≠ none → ∃ last ∈ d.lastTelemetry, b.source.now ≤ last

variable {d e : Device α} {made : List (Attempt α)} {query : Frame} {p : π} {out : Polled α π}

omit [Application α] in
theorem periodic_of_due (untriggered : d.requested = none) (due : d.dueTelemetry ≠ none) :
    d.config.telemetryPeriod ≠ 0 := by
  intro never
  simp [dueTelemetry, untriggered, never] at due

namespace Paced

theorem later (h : d.Paced made) (last : e.lastTelemetry = d.lastTelemetry)
    (now : d.now ≤ e.now) : e.Paced made := by
  refine ⟨fun l hl => ?_, fun b hb built => ?_⟩
  · rw [last] at hl
    exact (h.behind l hl).trans now
  · rw [last]
    exact h.noted b hb built

/-- What is built is noted at the time of its attempt, which is no earlier than any before. -/
theorem note {more : List (Attempt α)} (h : d.Paced made) (last : e.lastTelemetry = some d.now)
    (now : e.now = d.now) (at_now : ∀ b ∈ more, b.source.now = d.now) : e.Paced (made ++ more) := by
  refine ⟨fun l hl => ?_, fun b hb built => ⟨d.now, last, ?_⟩⟩
  · rw [last] at hl
    rw [now]
    exact (Option.mem_some.mp hl).ge
  · rcases List.mem_append.mp hb with before | new
    · obtain ⟨l, hl, hle⟩ := h.noted b before built
      exact hle.trans (h.behind l hl)
    · exact (at_now b new).le

theorem buildTelemetry (h : d.Paced made) (endpoint : Endpoint) :
    (d.buildTelemetry endpoint).device.Paced (made ++ [⟨d, endpoint⟩]) := by
  have hlast := lastTelemetry_buildTelemetry d endpoint
  have hnow := (works_buildTelemetry d endpoint).steady.now
  cases built : (d.buildTelemetry endpoint).result with
  | ok frame =>
    rw [built] at hlast
    exact h.note hlast hnow (by simp)
  | error fault =>
    rw [built] at hlast
    have hfailed : (⟨d, endpoint⟩ : Attempt α).frame? = none := by
      rw [Attempt.frame?, Attempt.outcome, built]
      rfl
    have hlater := h.later hlast hnow.ge
    refine ⟨hlater.behind, fun b hb hbuilt => ?_⟩
    rcases List.mem_append.mp hb with before | new
    · exact hlater.noted b before hbuilt
    · cases List.mem_singleton.mp new
      exact absurd hfailed hbuilt

theorem readAttribute (h : d.Paced made) (key : Key) : (d.readAttribute key).device.Paced made :=
  h.later (lastTelemetry_readAttribute d key) (steady_readAttribute d key).now.ge

theorem writeAttribute (h : d.Paced made) (key : Key) (value : UInt32) :
    (d.writeAttribute key value).device.Paced made :=
  h.later (lastTelemetry_writeAttribute d key value) (steady_writeAttribute d key value).now.ge

theorem dispatch (h : d.Paced made) (query : Frame) :
    (d.dispatch query).device.Paced (made ++ d.asks query) := by
  have hran : (d.runCommand query.id.endpoint query.payload).device.Paced made := by
    rw [runCommand_eq]
    exact h.later rfl le_rfl
  have hdispatch := dispatching d query
  generalize d.dispatch query = out at hdispatch ⊢
  cases hdispatch with
  | commandFailed fault e acts type ran =>
    rw [ran] at hran
    simpa [asks, type, ran] using hran
  | command e acts type ran =>
    rw [ran] at hran
    simpa [asks, type, ran] using hran.buildTelemetry query.id.endpoint
  | telemetry type => simpa [asks, type] using h.buildTelemetry query.id.endpoint
  | malformed type =>
    cases hf : query.id.frameType <;> simp [hf, FrameType.isAttribute] at type <;> simpa [asks, hf]
  | read key type => simpa [asks, type] using h.readAttribute key
  | writeFailed key value fault e acts type _ _ wrote =>
    have he := h.writeAttribute key value
    rw [wrote] at he
    simpa [asks, type] using he
  | write key value e acts type _ _ wrote =>
    have he := h.writeAttribute key value
    rw [wrote] at he
    simpa [asks, type] using he.readAttribute key

theorem handle (h : d.Paced made) (query : Frame) :
    (d.handle query).device.Paced (made ++ d.triedBy query) := by
  by_cases mine : query.isFor d.did = true
  · have hcount : (d.countReceived query.id.frameType).Paced made := by
      rw [(counted_countReceived d query.id.frameType).same]
      exact h.later rfl le_rfl
    obtain ⟨isQuery, concerned⟩ := Frame.isFor_iff.mp mine
    rw [triedBy, if_pos mine, ((handling d query).counted isQuery concerned).same]
    exact (hcount.dispatch query).later rfl le_rfl
  · rw [triedBy, if_neg mine, List.append_nil, handle_of_other (mt Frame.isFor_iff.mpr mine)]
    exact h.later rfl le_rfl

theorem report (h : d.Paced made) (reported : d.Reporting p out) :
    out.device.Paced (made ++ d.due) := by
  have htrying : d.trying.Paced made := by
    have hnoted : d.trying.Paced (made ++ []) := h.note rfl rfl (by simp)
    simpa using hnoted
  cases reported with
  | idle none => simpa [due, none] using h
  | failed endpoint fault e acts due built =>
    have he := htrying.buildTelemetry endpoint
    rw [built] at he
    simpa [Device.due, due] using he
  | sent endpoint frame e acts due built =>
    have he := htrying.buildTelemetry endpoint
    rw [built] at he
    have hsent : (e.countSent frame).Paced (made ++ [⟨d.trying, endpoint⟩]) :=
      he.later rfl le_rfl
    simpa [Device.due, due] using hsent

variable [Platform π]

theorem take (h : d.Paced made) (taken : d.Taking p out) (on : d.now ≤ (Platform.now p).toMillis)
    (kept : (Platform.now p).toMillis ≤ out.device.now) :
    out.device.Paced (made ++ d.triedInTake p) := by
  have hreply {query : Frame} {q : π} (received : Platform.receive p = (.ok (some query), q)) :
      ((d.updateTime (Platform.now p)).reply q query).device.Paced (made ++ d.triedInTake p) := by
    have hupdate : (d.updateTime (Platform.now p)).Paced made := h.later rfl on
    rw [device_reply]
    simpa [triedInTake, incoming?_of_received received] using hupdate.handle query
  cases taken with
  | idle silent =>
    simpa [triedInTake, incoming?_of_silent silent] using
      h.later (e := d.updateTime (Platform.now p)) rfl on
  | unsent query q received => exact hreply received
  | served query q received replied synced reply _ sync =>
    have hreplied := hreply received
    have hnow : replied.device.now = (Platform.now p).toMillis := by
      rw [← reply]
      exact (steady_reply _ q query).now
    rw [reply] at hreplied
    refine hreplied.later ?_ (hnow.trans_le kept)
    cases sync <;> rfl

end Paced

section Run

variable [Platform π]

theorem now_poll (d : Device α) (p : π) : (d.poll p).device.now = (d.take p).device.now := by
  rw [poll_eq]
  split
  next => rfl
  next => exact (reporting (d.take p).device (d.take p).platform).steady.now

/-- The clock does not go back in a request, nor since the one before. -/
def MovesOn (d : Device α) : DeviceRequest α π → Prop
  | .poll p =>
    d.now ≤ (Platform.now p).toMillis ∧ (Platform.now p).toMillis ≤ (d.poll p).device.now
  | .updateTime t => d.now ≤ t.toMillis
  | _ => True

/-- The clock does not go back in a run. -/
def NeverSetBack (d : Device α) : List (DeviceRequest α π) → Prop
  | [] => True
  | r :: rest => d.MovesOn r ∧ (d.perform r).device.NeverSetBack rest

theorem neverSetBack_append {before more : List (DeviceRequest α π)} :
    d.NeverSetBack (before ++ more) ↔
      d.NeverSetBack before ∧ (d.run before).device.NeverSetBack more := by
  induction before generalizing d with
  | nil => simp [NeverSetBack, run]
  | cons r rest ih =>
    simp only [List.cons_append, NeverSetBack, run_cons, ih, and_assoc]

namespace Paced

theorem poll (h : d.Paced made) (on : d.MovesOn (.poll p : DeviceRequest α π)) :
    (d.poll p).device.Paced (made ++ d.triedInPoll p) := by
  have htake : (d.take p).device.Paced (made ++ d.triedInTake p) :=
    h.take (taking d p) on.1 (on.2.trans_eq (now_poll d p))
  rw [poll_eq, triedInPoll_eq, unsolicited, ← List.append_assoc]
  split
  next failed => simpa [failed] using htake
  next done => simpa only [done] using htake.report (reporting _ _)

theorem perform {r : DeviceRequest α π} (h : d.Paced made) (on : d.MovesOn r) :
    (d.perform r).device.Paced (made ++ d.attempts r) := by
  have hnone {e : Device α} (he : e.Paced made) : e.Paced (made ++ []) := by
    rwa [List.append_nil]
  cases r with
  | handle query => exact h.handle query
  | poll p => exact h.poll on
  | read key => exact hnone (h.readAttribute key)
  | write key value => exact hnone (h.writeAttribute key value)
  | updateTime t => exact hnone (h.later rfl on)
  | trigger _ | setBattery _ | resetCounters | configure _ | adapt _ =>
    exact hnone (h.later rfl le_rfl)

theorem run {requests : List (DeviceRequest α π)} (h : d.Paced made)
    (on : d.NeverSetBack requests) :
    (d.run requests).device.Paced (made ++ d.allAttempts requests) := by
  induction requests generalizing d made with
  | nil => simpa [allAttempts, Device.run] using h
  | cons r rest ih =>
    rw [allAttempts, ← List.append_assoc]
    exact ih (h.perform on.1) on.2

/-- Without a trigger, an attempt that the device makes on its own comes a period after any that
built telemetry before. -/
theorem unsolicited (h : d.Paced made) (on : d.MovesOn (.poll p : DeviceRequest α π))
    (untriggered : d.requested = none) {a b : Attempt α} (own : a ∈ d.unsolicited p)
    (before : b ∈ made ++ d.triedInTake p) (built : b.frame? ≠ none) :
    b.source.now + a.source.config.telemetryPeriod.toNat ≤ a.source.now := by
  have htake : (d.take p).device.Paced (made ++ d.triedInTake p) :=
    h.take (taking d p) on.1 (on.2.trans_eq (now_poll d p))
  have hrequested := (taking d p).steady.requested.trans untriggered
  unfold Device.unsolicited at own
  split at own
  next =>
    obtain ⟨endpoint, hdue, rfl⟩ := List.mem_map.mp own
    have due : (d.take p).device.dueTelemetry ≠ none := by
      rw [Option.mem_toList.mp hdue]
      exact Option.some_ne_none endpoint
    obtain ⟨last, hlast, hle⟩ := htake.noted b before built
    have hperiod := (dueTelemetry_ne_none_iff (periodic_of_due hrequested due)).mp due
    exact (Nat.add_le_add_right hle _).trans
      (hperiod.resolve_left (not_not.mpr hrequested) last hlast)
  next => cases own

end Paced

end Run

end Device

end Fieldbus
