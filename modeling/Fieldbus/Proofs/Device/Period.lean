import Fieldbus.Proofs.Device.ClockSync

namespace Fieldbus

/-- Telemetry is sent, or is due but cannot be built. -/
def DeviceAct.triesTelemetry : DeviceAct → Bool
  | .send frame _ => frame.id.frameType = .telemetry
  | .telemetryFailed _ => true
  | _ => false

/-- Whether telemetry is sent or tried. -/
def TriesTelemetry (acts : List DeviceAct) : Prop := ∃ a ∈ acts, a.triesTelemetry = true

instance (acts : List DeviceAct) : Decidable (TriesTelemetry acts) :=
  inferInstanceAs (Decidable (∃ a ∈ acts, a.triesTelemetry = true))

theorem triesTelemetry_append {a b : List DeviceAct} :
    TriesTelemetry (a ++ b) ↔ TriesTelemetry a ∨ TriesTelemetry b := by
  simp [TriesTelemetry, or_and_right, exists_or]

theorem not_triesTelemetry_inner {acts : List DeviceAct} (h : ∀ a ∈ acts, a.isInner = true) :
    ¬TriesTelemetry acts := by
  rintro ⟨a, ha, hold⟩
  have hinner := h a ha
  cases a <;> simp_all [DeviceAct.isInner, DeviceAct.triesTelemetry]

namespace Device

variable {α π : Type} {d : Device α} {query : Frame}

theorem dueTelemetry_ne_none_iff (periodic : d.config.telemetryPeriod ≠ 0) :
    d.dueTelemetry ≠ none ↔ d.requested ≠ none ∨
      ∀ last ∈ d.lastTelemetry, last + d.config.telemetryPeriod.toNat ≤ d.now := by
  have hpos : 0 < d.config.telemetryPeriod.toNat :=
    Nat.pos_of_ne_zero fun h => periodic (UInt32.toNat_inj.mp h)
  unfold dueTelemetry sinceTelemetry
  cases hr : d.requested with
  | some endpoint => simp
  | none =>
    cases hl : d.lastTelemetry with
    | none => simp [periodic]
    | some last =>
      have hle : d.config.telemetryPeriod.toNat ≤ d.now - last ↔
          last + d.config.telemetryPeriod.toNat ≤ d.now := by omega
      simp [periodic, hle]

variable [Application α]

theorem lastTelemetry_readAttribute (d : Device α) (key : Key) :
    (d.readAttribute key).device.lastTelemetry = d.lastTelemetry := by
  have h := retrieving d key
  generalize d.readAttribute key = out at h ⊢
  cases h <;> rfl

theorem lastTelemetry_writeAttribute (d : Device α) (key : Key) (value : UInt32) :
    (d.writeAttribute key value).device.lastTelemetry = d.lastTelemetry := by
  have h := storing d key value
  generalize d.writeAttribute key value = out at h ⊢
  cases h <;> rfl

/-- Telemetry that is built is noted as the last one; a failure leaves the note as it is. -/
theorem lastTelemetry_buildTelemetry (d : Device α) (endpoint : Endpoint) :
    (d.buildTelemetry endpoint).device.lastTelemetry =
      match (d.buildTelemetry endpoint).result with
      | .ok _ => some d.now
      | .error _ => d.lastTelemetry := by
  have h := measuring d endpoint
  generalize d.buildTelemetry endpoint = out at h ⊢
  cases h <;> rfl

theorem type_buildTelemetry {endpoint : Endpoint} {frame : Frame}
    (h : (d.buildTelemetry endpoint).result = .ok frame) : frame.id.frameType = .telemetry := by
  rw [id_of_buildTelemetry h]
  rfl

theorem lastTelemetry_dispatch (d : Device α) (query : Frame)
    (quiet : ∀ frame, (d.dispatch query).result = .ok frame → frame.id.frameType ≠ .telemetry) :
    (d.dispatch query).device.lastTelemetry = d.lastTelemetry := by
  have hbuild : ∀ (e : Device α) (endpoint : Endpoint),
      (∀ frame, (e.buildTelemetry endpoint).result = .ok frame →
        frame.id.frameType ≠ .telemetry) →
      (e.buildTelemetry endpoint).device.lastTelemetry = e.lastTelemetry := by
    intro e endpoint hquiet
    rw [lastTelemetry_buildTelemetry]
    split
    next frame built => exact absurd (type_buildTelemetry built) (hquiet frame built)
    next => rfl
  have hrun : (d.runCommand query.id.endpoint query.payload).device.lastTelemetry =
      d.lastTelemetry := by
    rw [runCommand_eq]
  have h := dispatching d query
  generalize d.dispatch query = out at h quiet ⊢
  cases h with
  | commandFailed fault e acts _ ran => simpa [ran] using hrun
  | command e acts _ ran =>
    rw [ran] at hrun
    exact (hbuild e _ quiet).trans hrun
  | telemetry => exact hbuild d _ quiet
  | malformed => rfl
  | read key => exact lastTelemetry_readAttribute d key
  | writeFailed key value fault e acts _ _ _ wrote =>
    simpa [wrote] using lastTelemetry_writeAttribute d key value
  | write key value e acts _ _ _ wrote =>
    have hwrote := lastTelemetry_writeAttribute d key value
    rw [wrote] at hwrote
    exact (lastTelemetry_readAttribute e key).trans hwrote

theorem lastTelemetry_handle
    (quiet : ∀ answer, (d.handle query).result = some answer → answer.id.frameType ≠ .telemetry) :
    (d.handle query).device.lastTelemetry = d.lastTelemetry := by
  have hdispatch := lastTelemetry_dispatch (d.countReceived query.id.frameType) query
  have h := handling d query
  generalize d.handle query = out at h quiet ⊢
  cases h with
  | ignored => rfl
  | answered answer e acts _ done =>
    rw [done] at hdispatch
    refine hdispatch fun frame hframe => ?_
    cases Except.ok.inj hframe
    exact quiet answer rfl
  | reported fault e acts _ failed =>
    rw [failed] at hdispatch
    exact hdispatch fun _ hframe => nomatch hframe
  | silenced fault e acts _ failed =>
    rw [failed] at hdispatch
    exact hdispatch fun _ hframe => nomatch hframe

/-- A query that writes an attribute is not answered by telemetry. -/
theorem type_of_handle_write {answer : Frame} (type : query.id.frameType = .writeAttribute)
    (h : (d.handle query).result = some answer) : answer.id.frameType ≠ .telemetry := by
  obtain ⟨_, _, hok | ⟨fault, _, rfl⟩⟩ := handle_eq_some h
  · rcases dispatch_eq_ok hok with ⟨other, _⟩ | ⟨key, value, _, _, rfl⟩
    · simp [type, FrameType.isAttribute] at other
    · simp [Frame.attributeResponse, Frame.keyValue, Id.response]
  · simp [Frame.errorResponse, Id.response, type, FrameType.errorType]

theorem type_of_newTime? {did : Did} {secs : UInt32} (h : query.newTime? did = some secs) :
    query.id.frameType = .writeAttribute :=
  (Frame.newTime?_eq_some_iff.mp h).2.1.1

variable {p : π} {out : Polled α π}

theorem Reporting.tries (h : d.Reporting p out) :
    TriesTelemetry out.acts ↔ d.dueTelemetry ≠ none := by
  cases h with
  | idle none => simp [none, TriesTelemetry]
  | failed endpoint fault e acts due => simp [due, TriesTelemetry, DeviceAct.triesTelemetry]
  | sent endpoint frame e acts due built =>
    have htype : frame.id.frameType = .telemetry := type_buildTelemetry (by rw [built])
    simp [due, TriesTelemetry, DeviceAct.triesTelemetry, htype]

theorem Reporting.lastTelemetry (h : d.Reporting p out) :
    out.device.lastTelemetry = if d.dueTelemetry = none then d.lastTelemetry else some d.now := by
  cases h with
  | idle none => rw [if_pos none]
  | failed endpoint fault e acts due built =>
    have hlast := lastTelemetry_buildTelemetry d.trying endpoint
    rw [built] at hlast
    rw [if_neg (by simp [due])]
    exact hlast
  | sent endpoint frame e acts due built =>
    have hlast := lastTelemetry_buildTelemetry d.trying endpoint
    rw [built] at hlast
    rw [if_neg (by simp [due])]
    exact hlast

variable [Platform π]

theorem lastTelemetry_reply (quiet : ¬TriesTelemetry (d.reply p query).acts) :
    (d.reply p query).device.lastTelemetry = d.lastTelemetry := by
  have h := replying d p query
  generalize d.reply p query = out at h quiet ⊢
  cases h with
  | silent hnone => exact lastTelemetry_handle fun answer h => nomatch hnone.symm.trans h
  | said answer hsome sent delay =>
    refine lastTelemetry_handle fun other h type => quiet ?_
    cases Option.some.inj (hsome.symm.trans h)
    exact ⟨.send answer delay, by simp, by simp [DeviceAct.triesTelemetry, type]⟩

theorem not_tries_reply (type : query.id.frameType = .writeAttribute) :
    ¬TriesTelemetry (d.reply p query).acts := by
  have hinner := not_triesTelemetry_inner (works_handle d query).inner
  have h := replying d p query
  generalize d.reply p query = out at h ⊢
  cases h with
  | silent => exact hinner
  | said answer hsome sent delay =>
    have htype : answer.id.frameType ≠ .telemetry := type_of_handle_write type hsome
    rw [triesTelemetry_append, not_or]
    exact ⟨hinner, by simp [TriesTelemetry, DeviceAct.triesTelemetry, htype]⟩

theorem Taking.lastTelemetry (h : d.Taking p out) (quiet : ¬TriesTelemetry out.acts) :
    out.device.lastTelemetry = d.lastTelemetry := by
  cases h with
  | idle => rfl
  | unsent query q received fault failed => exact lastTelemetry_reply quiet
  | served query q received replied synced reply sent sync =>
    rw [triesTelemetry_append, not_or, ← reply] at quiet
    have hreply := lastTelemetry_reply quiet.1
    rw [reply] at hreply
    have hsync : synced.device.lastTelemetry = replied.device.lastTelemetry := by
      cases sync <;> rfl
    exact hsync.trans hreply

/-- While no clock is set, a poll runs on the time that it reads first. -/
theorem Taking.now (h : d.Taking p out) (unset : clockSets out.acts = []) :
    out.device.now = (Platform.now p).toMillis := by
  have hreply (q : π) (query : Frame) :
      ((d.updateTime (Platform.now p)).reply q query).device.now = (Platform.now p).toMillis :=
    (steady_reply _ q query).now
  cases h with
  | idle => rfl
  | unsent query q => exact hreply q query
  | served query q received replied synced reply sent sync =>
    rw [clockSets_append, List.append_eq_nil_iff] at unset
    have hsync := sync.clock.1
    cases sync with
    | idle =>
      have hnow := hreply q query
      rwa [reply] at hnow
    | refused secs fault r pending => simp [pending, unset.2] at hsync
    | set secs r pending => simp [pending, unset.2] at hsync

/-- A poll that receives a new time builds no telemetry before it sets the clock. -/
theorem Taking.of_newTime {secs : UInt32} (h : d.Taking p out)
    (written : incomingTime? p d.did = some secs)
    (sets : ∀ a b : π, Platform.setClock a secs = (.ok (), b) → Platform.now b = ⟨secs, 0⟩) :
    ¬TriesTelemetry out.acts ∧ (out.result = .ok () → out.device.now = secs.toNat * 1000) := by
  cases h with
  | idle silent =>
    rw [incomingTime?_of_silent silent] at written
    cases written
  | unsent query q received fault failed =>
    rw [incomingTime?_of_received received] at written
    exact ⟨not_tries_reply (type_of_newTime? written), fun done => nomatch failed.symm.trans done⟩
  | served query q received replied synced reply sent sync =>
    rw [incomingTime?_of_received received] at written
    have hreply := not_tries_reply (d := d.updateTime (Platform.now p)) (p := q)
      (type_of_newTime? written)
    have hpending : replied.device.pendingSync = some secs := by
      rw [← reply, pendingSync_reply]
      exact congrArg (Option.or · _) written
    rw [reply] at hreply
    rw [triesTelemetry_append, not_or]
    cases sync with
    | idle settled => simp [settled] at hpending
    | refused other fault r pending =>
      exact ⟨⟨hreply, by simp [TriesTelemetry, DeviceAct.triesTelemetry]⟩, fun done => nomatch done⟩
    | set other r pending told =>
      cases Option.some.inj (pending.symm.trans hpending)
      refine ⟨⟨hreply, by simp [TriesTelemetry, DeviceAct.triesTelemetry]⟩, fun _ => ?_⟩
      have hnow := sets _ _ told
      simp [updateTime, hnow, Timestamp.toMillis]

theorem tries_poll (done : (d.take p).result = .ok ()) :
    TriesTelemetry (d.poll p).acts ↔
      TriesTelemetry (d.take p).acts ∨ (d.take p).device.dueTelemetry ≠ none := by
  have h := (reporting (d.take p).device (d.take p).platform).tries
  rw [poll_eq, done, ← h]
  exact triesTelemetry_append

theorem poll_of_failed {fault : Fault} (failed : (d.take p).result = .error fault) :
    d.poll p = d.take p := by
  rw [poll_eq, failed]

theorem lastTelemetry_poll (done : (d.take p).result = .ok ()) :
    (d.poll p).device.lastTelemetry =
      if (d.take p).device.dueTelemetry = none then (d.take p).device.lastTelemetry
      else some (d.take p).device.now := by
  have h := (reporting (d.take p).device (d.take p).platform).lastTelemetry
  rw [poll_eq, done]
  exact h

theorem lastTelemetry_poll_quiet (quiet : ¬TriesTelemetry (d.poll p).acts) :
    (d.poll p).device.lastTelemetry = d.lastTelemetry := by
  cases done : (d.take p).result with
  | error fault =>
    rw [poll_of_failed done] at quiet ⊢
    exact (taking d p).lastTelemetry quiet
  | ok _ =>
    rw [tries_poll done, not_or] at quiet
    rw [lastTelemetry_poll done, if_pos (not_not.mp quiet.2)]
    exact (taking d p).lastTelemetry quiet.1

/-- No telemetry is handed over, sent or tried. -/
structure Quiet (answers : List Frame) (acts : List DeviceAct) : Prop where
  answers : ∀ f ∈ answers, f.id.frameType ≠ .telemetry
  acts : ¬TriesTelemetry acts

theorem lastTelemetry_perform {r : DeviceRequest α π}
    (quiet : Quiet (d.perform r).result.toList (d.perform r).acts) :
    (d.perform r).device.lastTelemetry = d.lastTelemetry := by
  cases r with
  | handle query =>
    exact lastTelemetry_handle fun answer h => quiet.answers answer (by simp [perform, h])
  | poll p => exact lastTelemetry_poll_quiet quiet.acts
  | read key => exact lastTelemetry_readAttribute d key
  | write key value => exact lastTelemetry_writeAttribute d key value
  | updateTime _ | trigger _ | setBattery _ | resetCounters | configure _ | adapt _ => rfl

theorem lastTelemetry_run {requests : List (DeviceRequest α π)}
    (quiet : Quiet (d.run requests).result (d.run requests).acts) :
    (d.run requests).device.lastTelemetry = d.lastTelemetry := by
  induction requests generalizing d with
  | nil => rfl
  | cons r rest ih =>
    rw [run_cons] at quiet ⊢
    have hacts := quiet.acts
    rw [triesTelemetry_append, not_or] at hacts
    have hfirst : Quiet (d.perform r).result.toList (d.perform r).acts :=
      ⟨fun f hf => quiet.answers f (List.mem_append_left _ hf), hacts.1⟩
    have hrest := ih ⟨fun f hf => quiet.answers f (List.mem_append_right _ hf), hacts.2⟩
    exact hrest.trans (lastTelemetry_perform hfirst)

/-- The poll that sets the clock notes its own telemetry in the new time; without any, the note in
the old time stays. -/
theorem lastTelemetry_poll_of_newTime {secs : UInt32}
    (written : incomingTime? p d.did = some secs)
    (sets : ∀ a b : π, Platform.setClock a secs = (.ok (), b) → Platform.now b = ⟨secs, 0⟩) :
    (d.poll p).device.lastTelemetry =
      if TriesTelemetry (d.poll p).acts then some (secs.toNat * 1000) else d.lastTelemetry := by
  split
  next tries =>
    -- The frame that brings the time is no telemetry query, so the attempt comes after the clock.
    obtain ⟨hquiet, hnow⟩ := (taking d p).of_newTime written sets
    cases done : (d.take p).result with
    | error fault =>
      rw [poll_of_failed done] at tries
      exact absurd tries hquiet
    | ok _ =>
      have hdue := ((tries_poll done).mp tries).resolve_left hquiet
      rw [lastTelemetry_poll done, if_neg hdue, hnow done]
  next quiet => exact lastTelemetry_poll_quiet quiet

/-- After a poll has taken a new time, telemetry is tried once a period has passed since the last
time that any was noted. Until then that note stands in the old time, so that a clock that was set
back behind it has to make up for that first. -/
theorem telemetry_after_clock_set (d : Device α) (p : π) (secs : UInt32)
    (written : incomingTime? p d.did = some secs)
    (sets : ∀ a b : π, Platform.setClock a secs = (.ok (), b) → Platform.now b = ⟨secs, 0⟩)
    (periodic : d.config.telemetryPeriod ≠ 0) (later : List (DeviceRequest α π)) (q : π)
    (kept : (((d.poll p).device.run later).device.take q).device.config.telemetryPeriod =
      d.config.telemetryPeriod) :
    let period := d.config.telemetryPeriod.toNat
    let waited := (d.poll p).device.run later
    let noted := waited.device.lastTelemetry
    let taken := waited.device.take q
    let acts := (waited.device.poll q).acts
    (clockSets taken.acts = [] → taken.device.now = (Platform.now q).toMillis) ∧
    (Quiet waited.result waited.acts → noted =
      if TriesTelemetry (d.poll p).acts then some (secs.toNat * 1000) else d.lastTelemetry) ∧
    (taken.result = .ok () →
      (TriesTelemetry acts ↔ TriesTelemetry taken.acts ∨ taken.device.requested ≠ none ∨
        ∀ last ∈ noted, last + period ≤ taken.device.now) ∧
      (Quiet waited.result waited.acts → (∀ last ∈ d.lastTelemetry, last ≤ secs.toNat * 1000) →
        secs.toNat * 1000 + period ≤ taken.device.now → TriesTelemetry acts)) ∧
    (taken.result ≠ .ok () → acts = taken.acts) := by
  intro period waited noted taken acts
  have htaking := taking waited.device q
  have hnoted : Quiet waited.result waited.acts → noted =
      if TriesTelemetry (d.poll p).acts then some (secs.toNat * 1000) else d.lastTelemetry :=
    fun quiet => (lastTelemetry_run quiet).trans (lastTelemetry_poll_of_newTime written sets)
  have hexact : taken.result = .ok () →
      (TriesTelemetry acts ↔ TriesTelemetry taken.acts ∨ taken.device.requested ≠ none ∨
        ∀ last ∈ noted, last + period ≤ taken.device.now) := by
    intro done
    have htries : TriesTelemetry acts ↔
        TriesTelemetry taken.acts ∨ taken.device.dueTelemetry ≠ none := tries_poll done
    rw [htries, dueTelemetry_ne_none_iff (by rw [kept]; exact periodic), kept]
    by_cases tries : TriesTelemetry taken.acts
    · simp only [tries, true_or]
    · rw [htaking.lastTelemetry tries]
  refine ⟨htaking.now, hnoted, fun done => ⟨hexact done, fun quiet behind reached => ?_⟩,
    fun failed => ?_⟩
  · refine (hexact done).mpr (Or.inr (Or.inr fun last hlast => ?_))
    have hle : last ≤ secs.toNat * 1000 := by
      rw [hnoted quiet] at hlast
      split at hlast
      next => exact (Option.mem_some.mp hlast).ge
      next => exact behind last hlast
    omega
  · cases hresult : taken.result with
    | ok _ => exact absurd hresult failed
    | error fault => exact congrArg Polled.acts (poll_of_failed hresult)

end Device

namespace Thermostat

/-- The heater after it has reported at 100 seconds. -/
def reported : Device Thermostat := ((device 60000).poll (⟨100000, []⟩ : Mailbox)).device

/-- Tells the heater that it is 10 seconds past zero. -/
def setBack : Mailbox := ⟨100000, [.writeAttribute (.ofRaw 1) .time 10]⟩

theorem setClock_mailbox (a b : Mailbox) (h : Platform.setClock a 10 = (.ok (), b)) :
    Platform.now b = ⟨10, 0⟩ := by
  cases (Prod.mk.inj h).2
  change Timestamp.ofMillis (10 * 1000) = ⟨10, 0⟩
  decide

/-- The clock has to reach the old time again, and a period more, before the heater reports. -/
theorem telemetry_after_clock_set_back :
    let waited := ((reported.poll setBack).device.run [.poll (⟨70000, []⟩ : Mailbox)]).device
    waited.lastTelemetry = some 100000 ∧
      TriesTelemetry (waited.poll (⟨160000, []⟩ : Mailbox)).acts := by
  have quiet : Device.Quiet
      ((reported.poll setBack).device.run [.poll (⟨70000, []⟩ : Mailbox)]).result
      ((reported.poll setBack).device.run [.poll (⟨70000, []⟩ : Mailbox)]).acts :=
    ⟨by decide, by decide⟩
  obtain ⟨_, hnoted, htaken, _⟩ := Device.telemetry_after_clock_set reported setBack 10
    (by decide) setClock_mailbox (by decide) [.poll ⟨70000, []⟩] (⟨160000, []⟩ : Mailbox)
    (by decide)
  refine ⟨(hnoted quiet).trans (by decide), ?_⟩
  exact (htaken (by decide)).1.mpr (Or.inr (Or.inr (by decide)))

/-- The heater says nothing although its clock is a period past the time that it was set to. -/
theorem silenced_by_clock_set_back :
    let set := reported.poll setBack
    let out := set.device.poll (⟨70000, []⟩ : Mailbox)
    set.platform.clock = 10 * 1000 ∧ ¬TriesTelemetry set.acts ∧
      out.device.config.telemetryPeriod = 60000 ∧ out.device.now = 10 * 1000 + 60000 ∧
      ¬TriesTelemetry out.acts :=
  ⟨by decide, by decide, by decide, by decide, by decide⟩

end Thermostat

end Fieldbus
