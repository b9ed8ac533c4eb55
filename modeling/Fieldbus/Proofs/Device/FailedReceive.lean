import Fieldbus.Proofs.Device.ClockSync
import Fieldbus.Proofs.Device.Traffic
import Fieldbus.Proofs.Device.Unsolicited

namespace Fieldbus

namespace Device

variable {α π ρ : Type} {d : Device α} {p : π} {q : ρ} {fault : Fault}

variable [Application α] [Platform π] [Platform ρ]

section Silent

variable (silent : ∀ query, (Platform.receive p).1 ≠ .ok (some query)) (d : Device α)

include silent

/-- Without a frame to answer, a poll hands over one frame at most. It ends as that does or, if it
is taken, as the receiving did. -/
theorem end_of_silent :
    (d.sendings p).length ≤ 1 ∧
      (∀ s ∈ d.sendings p, ∀ refusal, s.result = .error refusal →
        (d.poll p).result = .error refusal) ∧
      ((∀ s ∈ d.sendings p, s.result = .ok ()) →
        (d.poll p).result = (Platform.receive p).1.map fun _ => ()) := by
  let reported := (d.updateTime (Platform.now p)).report
    ({ platform := (Platform.receive p).2 } : Journal π)
  have hpoll : d.poll ({ platform := p } : Journal π) =
      { reported with
        result := reported.result.bind fun _ => (Platform.receive p).1.map fun _ => () } :=
    poll_of_silent (p := ({ platform := p } : Journal π)) silent
  have hposts : reported.Posts _ _ := posts_report _ _
  obtain ⟨delay, hsendings⟩ :
      ∃ delay, d.sendings p = (sentFrames reported.acts).map (⟨·, delay, reported.result⟩) := by
    rw [sendings, hpoll]
    exact ⟨_, sendings_report _ _⟩
  have hend : (d.poll p).result =
      reported.result.bind fun _ => (Platform.receive p).1.map fun _ => () := by
    rw [← (poll_journal d ({ platform := p } : Journal π)).result, hpoll]
  rw [hsendings, hend]
  cases hposts with
  | nothing unsent fine =>
    rw [unsent, fine]
    exact ⟨Nat.zero_le 1, nofun, fun _ => rfl⟩
  | one frame sent =>
    rw [sent]
    refine ⟨Nat.le_refl 1, fun s hs refusal refused => ?_, fun taken => ?_⟩
    · cases List.mem_singleton.mp hs
      rw [show reported.result = .error refusal from refused]
      rfl
    · rw [show reported.result = .ok () from taken _ List.mem_cons_self]
      rfl

/-- Without a frame to answer, a poll counts nothing as received and leaves the pending time. -/
theorem kept_of_silent :
    let after := (d.poll p).device
    after.system.counters =
        { d.system.counters with
          sentTotal := after.system.sentTotal
          sentTelemetry := after.system.sentTelemetry } ∧
      after.pendingSync = d.pendingSync := by
  intro after
  have hcounters := counters_poll d p
  rw [incoming?_of_silent silent] at hcounters
  refine ⟨?_, ?_⟩
  · have hsent : after.system.sentTotal = _ := congrArg Counters.sentTotal hcounters
    have htelemetry : after.system.sentTelemetry = _ := congrArg Counters.sentTelemetry hcounters
    rw [hcounters, hsent, htelemetry]
    simp [Counters.add_def, Counters.tally]
  · have hidle : ¬d.HandsOver p := by
      rintro ⟨query, _, received, _⟩
      exact silent query (congrArg Prod.fst received)
    rw [((clock_poll d p).2 hidle).2, incomingTime?_of_silent silent]
    rfl

end Silent

/-- A poll that fails to receive goes on as if there was nothing to receive: it leaves the same
device, hands over the same telemetry, and tells of the failure unless the telemetry was not
taken. -/
theorem poll_through_failed_receive {R : π → ρ → Prop} (alike : Platform.Alike R) (d : Device α)
    (related : R p q) (failed : (Platform.receive p).1 = .error fault)
    (silent : (Platform.receive q).1 = .ok none)
    (still : R (Platform.receive p).2 (Platform.receive q).2) :
    let after := (d.poll p).device
    after = (d.poll q).device ∧
      (d.poll p).acts = (d.poll q).acts ∧
      d.sendings p = d.sendings q ∧
      d.drawn p = d.drawn q ∧
      R (d.poll p).platform (d.poll q).platform ∧
      (d.sendings p).length ≤ 1 ∧
      (∀ s ∈ d.sendings p, ∀ refusal, s.result = .error refusal →
        (d.poll p).result = .error refusal ∧ (d.poll q).result = .error refusal) ∧
      ((∀ s ∈ d.sendings p, s.result = .ok ()) →
        (d.poll p).result = .error fault ∧ (d.poll q).result = .ok ()) ∧
      after.system.counters =
        { d.system.counters with
          sentTotal := after.system.sentTotal
          sentTelemetry := after.system.sentTelemetry } ∧
      after.pendingSync = d.pendingSync := by
  have hmute : ∀ query, (Platform.receive p).1 ≠ .ok (some query) := by simp [failed]
  have hquiet : ∀ query, (Platform.receive q).1 ≠ .ok (some query) := by simp [silent]
  -- Both polls only report, from one device and on platforms that are still alike.
  have hreport : Polled.Agree (Journal.Like R)
      ((d.updateTime (Platform.now p)).report { platform := (Platform.receive p).2 })
      ((d.updateTime (Platform.now q)).report { platform := (Platform.receive q).2 }) := by
    rw [alike.now related]
    exact alike.journals.report ⟨still, rfl, rfl⟩ _
  have hpoll := poll_of_silent (p := ({ platform := p } : Journal π)) hmute (d := d)
  have hother := poll_of_silent (p := ({ platform := q } : Journal ρ)) hquiet (d := d)
  have hp := poll_journal d ({ platform := p } : Journal π)
  have hq := poll_journal d ({ platform := q } : Journal ρ)
  have hsendings : d.sendings p = d.sendings q := by
    rw [sendings, hpoll, sendings, hother]
    exact hreport.platform.sendings
  have hdrawn : d.drawn p = d.drawn q := by
    rw [drawn, hpoll, drawn, hother]
    exact hreport.platform.drawn
  obtain ⟨hone, hrefused, htaken⟩ := end_of_silent hmute d
  obtain ⟨_, hrefused', htaken'⟩ := end_of_silent hquiet d
  rw [failed] at htaken
  rw [← hsendings, silent] at htaken'
  rw [← hsendings] at hrefused'
  refine ⟨?_, ?_, hsendings, hdrawn, ?_, hone, fun s hs refusal refused => ?_, fun taken => ?_,
    kept_of_silent hmute d⟩
  · rw [← hp.device, hpoll, ← hq.device, hother]
    exact hreport.device
  · rw [← hp.acts, hpoll, ← hq.acts, hother]
    exact hreport.acts
  · rw [← hp.platform, hpoll, ← hq.platform, hother]
    exact hreport.platform.platform
  · exact ⟨hrefused s hs refusal refused, hrefused' s hs refusal refused⟩
  · exact ⟨htaken taken, htaken' taken⟩

end Device

/-- A platform that never hands over a frame; receiving and sending may fail. -/
structure Line where
  clock : Nat
  broken : Option Fault := none
  refusal : Option Fault := none

namespace Line

def outcome (fault : Option Fault) : Except Fault Unit := fault.elim (.ok ()) .error

instance : Platform Line where
  send l _ _ := (outcome l.refusal, l)
  receive l := ((outcome l.broken).map fun _ => none, l)
  now l := .ofMillis l.clock
  setClock l secs := (.ok (), { l with clock := secs.toNat * 1000 })
  entropy l n := (.replicate n 0, l)
  waiting _ := 0
  waiting_receive l l' f h := by
    have hnone : ∀ r : Except Fault Unit,
        (r.map fun _ => (none : Option Frame)) ≠ .ok (some f) := by
      rintro (fault | _) <;> simp [Except.map]
    exact absurd (congrArg Prod.fst h) (hnone _)

/-- Two lines that only differ in what receiving comes to. -/
def Beside (l m : Line) : Prop := m = { l with broken := m.broken }

theorem alike_beside : Platform.Alike Beside where
  now related := by rw [related]; rfl
  send related _ _ := by rw [related]; exact ⟨rfl, rfl⟩
  setClock related _ := by rw [related]; exact ⟨rfl, rfl⟩
  entropy related _ := by rw [related]; exact ⟨rfl, rfl⟩

end Line

namespace Thermostat

/-- A heater that cannot receive still reports when a minute has passed. -/
theorem poll_through_failed_receive_due :
    let broken : Line := { clock := 60000, broken := some (.driver (-5)) }
    let quiet : Line := { clock := 60000 }
    ((device 60000).poll broken).device = ((device 60000).poll quiet).device ∧
      ((device 60000).sendings broken).length = 1 ∧
      ((device 60000).poll broken).result = .error (.driver (-5)) := by
  intro broken quiet
  have failed : (Platform.receive broken).1 = .error (.driver (-5)) := rfl
  obtain ⟨hsame, _, _, _, _, _, _, htaken, _, _⟩ :=
    Device.poll_through_failed_receive Line.alike_beside (device 60000) (p := broken) (q := quiet)
      rfl failed rfl rfl
  refine ⟨hsame, by decide, (htaken ?_).1⟩
  decide

end Thermostat

end Fieldbus
