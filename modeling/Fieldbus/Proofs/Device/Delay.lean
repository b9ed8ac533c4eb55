import Fieldbus.Proofs.Device.Unsolicited
import Fieldbus.Proofs.Platform.Delay

namespace Fieldbus

/-- What comes to a journal: frames after allowed delays, each for some bytes of entropy. -/
structure Journal.Notes {π : Type} (j k : Journal π) (frames : List Frame) (allowed : Nat → Prop)
    (bytes : Nat) : Prop where
  sendings : ∃ sent, k.sendings = j.sendings ++ sent ∧ sent.map (·.frame) = frames ∧
    ∀ s ∈ sent, allowed s.delay
  drawn : k.drawn = j.drawn + bytes * frames.length

theorem Journal.Notes.nothing {π : Type} {j k : Journal π} {allowed : Nat → Prop} {bytes : Nat}
    (sendings : k.sendings = j.sendings) (drawn : k.drawn = j.drawn) :
    j.Notes k [] allowed bytes := ⟨⟨[], by simp [sendings]⟩, drawn⟩

theorem Journal.Notes.of_map {π : Type} {j k : Journal π} {frames : List Frame}
    {allowed : Nat → Prop} {bytes delay : Nat} {result : Except Fault Unit}
    (sendings : k.sendings = j.sendings ++ frames.map (⟨·, delay, result⟩))
    (delays : allowed delay) (drawn : k.drawn = j.drawn + bytes * frames.length) :
    j.Notes k frames allowed bytes := by
  refine ⟨⟨_, sendings, ?_, fun s hs => ?_⟩, drawn⟩
  · rw [List.map_map]
    exact List.map_id _
  · obtain ⟨_, _, rfl⟩ := List.mem_map.mp hs
    exact delays

namespace Config

/-- How long an answer waits, by whether its query went to all devices. -/
def AllowsAnswer (c : Config) (toAll : Bool) (delay : Nat) : Prop :=
  if toAll then c.Allows delay else delay = 0

/-- How long telemetry waits that the device sends on its own. -/
def AllowsReport (c : Config) (delay : Nat) : Prop :=
  if c.randomDelay then c.Allows delay else delay = c.telemetryDelay.toNat

end Config

namespace Device

variable {α π : Type} [Platform π] (d : Device α)

section Wait

variable (p : π) (j : Journal π) (query : Frame)

theorem allows_responseDelay :
    d.config.AllowsAnswer query.did.isBroadcast (d.responseDelay p query).1 := by
  unfold responseDelay Config.AllowsAnswer
  split
  next => exact d.config.allows_delayBetween p
  next => rfl

theorem allows_telemetryDelay : d.config.AllowsReport (d.telemetryDelay p).1 := by
  unfold telemetryDelay Config.AllowsReport
  split
  next => exact d.config.allows_delayBetween p
  next => rfl

theorem drawn_responseDelay :
    (d.responseDelay j query).2.drawn =
      j.drawn + if query.did.isBroadcast then d.config.entropyPerDelay else 0 := by
  unfold responseDelay
  split
  next => exact drawn_delayBetween j _ _
  next => rfl

theorem drawn_telemetryDelay :
    (d.telemetryDelay j).2.drawn =
      j.drawn + if d.config.randomDelay then d.config.entropyPerDelay else 0 := by
  unfold telemetryDelay
  split
  next => exact drawn_delayBetween j _ _
  next => rfl

end Wait

variable [Application α]

theorem notes_reply (j : Journal π) (query : Frame) :
    let settings := (d.handle query).device.config
    j.Notes (d.reply j query).platform (d.handle query).result.toList
      (settings.AllowsAnswer query.did.isBroadcast)
      (if query.did.isBroadcast then settings.entropyPerDelay else 0) := by
  intro settings
  have hsendings := sendings_reply d j query
  rw [(replying d j query).sent_eq] at hsendings
  have hdrawn := (posts_reply d j query).drawn (drawn_responseDelay _ j query)
  rw [(replying d j query).sent_eq] at hdrawn
  exact .of_map hsendings (allows_responseDelay _ j query) hdrawn

theorem notes_report (j : Journal π) :
    j.Notes (d.report j).platform (sentFrames (d.report j).acts) d.config.AllowsReport
      (if d.config.randomDelay then d.config.entropyPerDelay else 0) :=
  .of_map (sendings_report d j) (allows_telemetryDelay d j)
    ((posts_report d j).drawn (drawn_telemetryDelay d j))

section Poll

variable {d} {p : π} {j : Journal π} {out : Polled α π}

omit [Platform π] in
theorem Reporting.config (h : d.Reporting p out) : out.device.config = d.config := by
  have hbuild := fun endpoint => config_buildTelemetry d.trying endpoint
  cases h with
  | idle => rfl
  | failed endpoint fault e acts _ built =>
    have he := hbuild endpoint
    rwa [built] at he
  | sent endpoint frame e acts _ built =>
    have he := hbuild endpoint
    rwa [built] at he

/-- The settings once a poll has handled what it received. -/
def settledConfig (d : Device α) (p : π) : Config :=
  (incoming? p).elim d.config fun query =>
    ((d.updateTime (Platform.now p)).handle query).device.config

/-- Whether a poll receives a query that went to all devices. -/
def hearsBroadcast (p : π) : Bool := (incoming? p).any (·.did.isBroadcast)

theorem notes_take (d : Device α) (j : Journal π) :
    (d.take j).device.config = d.settledConfig j ∧
      j.Notes (d.take j).platform (d.answered j).toList
        ((d.settledConfig j).AllowsAnswer (hearsBroadcast j))
        (if hearsBroadcast j then (d.settledConfig j).entropyPerDelay else 0) := by
  rcases heard : incoming? j with _ | query
  · have silent : ∀ query, (Platform.receive j).1 ≠ .ok (some query) := fun query received => by
      simp [incoming?_eq_some.mpr received] at heard
    rw [take_of_silent silent, answered, settledConfig, heard]
    exact ⟨rfl, .nothing rfl rfl⟩
  · have received : Platform.receive j = (.ok (some query), (Platform.receive j).2) :=
      Prod.ext (incoming?_eq_some.mp heard) rfl
    obtain ⟨hsendings, hdrawn, _, hconfig⟩ := take_of_received d j received
    obtain ⟨hnoted, hcost⟩ :=
      notes_reply (d.updateTime (Platform.now j)) (Platform.receive j).2 query
    rw [hconfig, device_reply, answered, settledConfig, hearsBroadcast, heard]
    refine ⟨rfl, ⟨?_, ?_⟩⟩
    · rw [hsendings]
      exact hnoted
    · rw [hdrawn]
      exact hcost

theorem config_poll (d : Device α) (p : π) :
    (d.poll p).device.config = (d.take p).device.config := by
  rw [poll_eq]
  split
  next => rfl
  next => exact (reporting (d.take p).device (d.take p).platform).config

theorem notes_poll (d : Device α) (j : Journal π) :
    let settings := d.settledConfig j
    let toAll := hearsBroadcast j
    ∃ answers reports,
      (d.poll j).platform.sendings = j.sendings ++ (answers ++ reports) ∧
        answers.map (·.frame) = (d.answered j).toList ∧
        reports.map (·.frame) = (d.unsolicited j).filterMap Attempt.frame? ∧
        (∀ s ∈ answers, settings.AllowsAnswer toAll s.delay) ∧
        (∀ s ∈ reports, settings.AllowsReport s.delay) ∧
        (d.poll j).platform.drawn = j.drawn + settings.entropyPerDelay *
          ((if toAll then answers.length else 0) +
            if settings.randomDelay then reports.length else 0) := by
  intro settings toAll
  obtain ⟨hconfig, ⟨answers, hanswers, hframes, hallowed⟩, hdrawn⟩ := notes_take d j
  have hlength : answers.length = (d.answered j).toList.length := by
    rw [← hframes, List.length_map]
  have hcost_if (b : Bool) (cost n : Nat) :
      (if b then cost else 0) * n = cost * if b then n else 0 := by
    cases b <;> simp
  rw [← hlength, hcost_if] at hdrawn
  rw [poll_eq]
  split
  next failed =>
    refine ⟨answers, [], ?_, hframes, by rw [unsolicited, failed]; rfl, hallowed, nofun, ?_⟩
    · rw [hanswers, List.append_nil]
    · rw [hdrawn, List.length_nil, ite_self, Nat.add_zero]
  next done =>
    have hsent := (reporting (d.take j).device (d.take j).platform).sent_eq
    obtain ⟨⟨reports, hreports, htelemetry, hwaits⟩, hcost⟩ :=
      notes_report (d.take j).device (d.take j).platform
    rw [← htelemetry, List.length_map] at hcost
    rw [hconfig] at hwaits hcost
    rw [hcost_if] at hcost
    refine ⟨answers, reports, ?_, hframes, ?_, hallowed, hwaits, ?_⟩
    · rw [hreports, hanswers, List.append_assoc]
    · rw [htelemetry, hsent, unsolicited, done]
    · rw [hcost, hdrawn, Nat.mul_add, Nat.add_assoc]

theorem unsolicited_journal (d : Device α) (j : Journal π) :
    d.unsolicited j = d.unsolicited j.platform := by
  unfold unsolicited
  rw [(take_journal d j).result, (take_journal d j).device]

/-- What a poll hands over is its answer and then what it reports, each after an allowed delay, for
which entropy is drawn where it is random and there is a choice. Between two words a delay is worked
out without overflow, stays between them, and may come out as each value between them. -/
theorem delays_within_bounds (d : Device α) (p : π) :
    let settings := (d.poll p).device.config
    let toAll := hearsBroadcast p
    settings = d.settledConfig p ∧
      (∃ answers reports,
        d.sendings p = answers ++ reports ∧
          answers.map (·.frame) = (d.answered p).toList ∧
          reports.map (·.frame) = (d.unsolicited p).filterMap Attempt.frame? ∧
          (∀ s ∈ answers, settings.AllowsAnswer toAll s.delay) ∧
          (∀ s ∈ reports, settings.AllowsReport s.delay) ∧
          d.drawn p = settings.entropyPerDelay *
            ((if toAll then answers.length else 0) +
              if settings.randomDelay then reports.length else 0)) ∧
      (∀ low high : Nat, high ≤ low → delayBetween p low high = (low, p)) ∧
      ∀ low high : UInt32, low < high →
        (∀ bytes, ∃ w, delayWord? low high bytes = some w ∧ low ≤ w ∧ w ≤ high ∧
          ∀ q : π, (Platform.entropy q 4).1 = bytes →
            delayBetween q low.toNat high.toNat = (w.toNat, (Platform.entropy q 4).2)) ∧
        ∀ w, low ≤ w → w ≤ high → ∃ bytes, delayWord? low high bytes = some w := by
  intro settings toAll
  have htake : (d.take ({ platform := p } : Journal π)).device = (d.take p).device :=
    (take_journal d _).device
  have hsettings : settings = d.settledConfig p := by
    rw [show settings = _ from config_poll d p, ← htake]
    exact (notes_take d _).1
  refine ⟨hsettings, ?_, fun low high narrow => delayBetween_of_le narrow,
    fun low high wide => ⟨fun bytes => ?_, fun w => exists_bytes_of_mem wide⟩⟩
  · rw [hsettings, ← unsolicited_journal d ({ platform := p } : Journal π)]
    obtain ⟨answers, reports, hsendings, hanswers, hreports, hallowed, hwaits, hdrawn⟩ :=
      notes_poll d ({ platform := p } : Journal π)
    exact ⟨answers, reports, hsendings, hanswers, hreports, hallowed, hwaits,
      hdrawn.trans (Nat.zero_add _)⟩
  · obtain ⟨w, hw, _⟩ := exists_delayWord? wide bytes
    obtain ⟨above, below⟩ := mem_of_delayWord? wide hw
    refine ⟨w, hw, above, below, fun q drawn => ?_⟩
    have hvalue := delayBetween_toNat (p := q) (by rw [drawn]; exact hw)
    rw [delayBetween_of_lt (UInt32.lt_iff_toNat_lt.mp wide)] at hvalue ⊢
    exact Prod.ext hvalue rfl

/-- With the widest bounds the span takes 33 bits, and even the longest delay comes out. -/
theorem delays_within_bounds_widest :
    (0 : UInt32) < 0xFFFFFFFF ∧ ∃ bytes, delayWord? 0 0xFFFFFFFF bytes = some 0xFFFFFFFF := by
  have wide : (0 : UInt32) < 0xFFFFFFFF := by decide
  obtain ⟨_, _, _, words⟩ := delays_within_bounds Overfull.device (⟨0, []⟩ : Mailbox)
  exact ⟨wide, (words _ _ wide).2 _ (by decide) (by decide)⟩

end Poll

end Device

end Fieldbus
