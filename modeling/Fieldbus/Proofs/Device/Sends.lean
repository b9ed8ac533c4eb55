import Fieldbus.Proofs.Device.Alike
import Fieldbus.Proofs.Device.Run

namespace Fieldbus

/-- The frames that are handed over to the platform. -/
def sentFrames (acts : List DeviceAct) : List Frame :=
  acts.filterMap fun
    | .send frame _ => some frame
    | _ => none

@[simp] theorem sentFrames_nil : sentFrames [] = [] := rfl

@[simp] theorem sentFrames_append (a b : List DeviceAct) :
    sentFrames (a ++ b) = sentFrames a ++ sentFrames b := List.filterMap_append

theorem sentFrames_inner {acts : List DeviceAct} (h : ∀ a ∈ acts, a.isInner = true) :
    sentFrames acts = [] := by
  refine List.filterMap_eq_nil_iff.mpr fun a ha => ?_
  have hinner := h a ha
  cases a <;> simp_all [DeviceAct.isInner]

/-- A platform together with the frames that it was asked to send, whether it did or not. -/
structure Recorder (π : Type) where
  platform : π
  asked : List Frame := []

instance [Platform π] : Platform (Recorder π) where
  send r f delay :=
    ((Platform.send r.platform f delay).1,
      ⟨(Platform.send r.platform f delay).2, r.asked ++ [f]⟩)
  receive r :=
    ((Platform.receive r.platform).1, { r with platform := (Platform.receive r.platform).2 })
  now r := Platform.now r.platform
  setClock r secs :=
    ((Platform.setClock r.platform secs).1,
      { r with platform := (Platform.setClock r.platform secs).2 })
  entropy r n :=
    ((Platform.entropy r.platform n).1, { r with platform := (Platform.entropy r.platform n).2 })
  waiting r := Platform.waiting r.platform
  waiting_receive r r' f h := by
    obtain ⟨hfirst, hsecond⟩ := Prod.mk.inj h
    rw [← hsecond]
    exact Platform.waiting_receive _ _ f (Prod.ext hfirst rfl)

/-- A recorder behaves like the platform that it is about. -/
theorem alike_recorder {π : Type} [Platform π] :
    Platform.Alike fun (r : Recorder π) (p : π) => r.platform = p where
  now related := congrArg Platform.now related
  send related _ _ := by cases related; exact ⟨rfl, rfl⟩
  setClock related _ := by cases related; exact ⟨rfl, rfl⟩
  entropy related _ := by cases related; exact ⟨rfl, rfl⟩

/-- A recorder has the frames of a journal about the same platform, after those in `before`. -/
structure Recorder.Follows {π : Type} (before : List Frame) (r : Recorder π) (j : Journal π) :
    Prop where
  platform : r.platform = j.platform
  asked : r.asked = before ++ j.sendings.map (·.frame)

theorem alike_follows {π : Type} [Platform π] (before : List Frame) :
    Platform.Alike (Recorder.Follows (π := π) before) where
  now related := congrArg Platform.now related.platform
  send related frame delay := by
    obtain ⟨hplatform, hasked⟩ := related
    refine ⟨by simp only [Platform.send, hplatform], by simp only [Platform.send, hplatform], ?_⟩
    simp only [Platform.send, hasked, List.map_append, List.append_assoc]
    rfl
  setClock related secs := by
    obtain ⟨hplatform, hasked⟩ := related
    simp only [Platform.setClock, hplatform]
    exact ⟨rfl, rfl, hasked⟩
  entropy related n := by
    obtain ⟨hplatform, hasked⟩ := related
    simp only [Platform.entropy, hplatform]
    exact ⟨rfl, rfl, hasked⟩

/-- What a part of a poll hands over to its platform: nothing, or one frame after the delay that it
waits, which leaves the platform behind. -/
inductive Polled.Posts {α π : Type} [Platform π] (wait : Nat × π) (p : π) (out : Polled α π) : Prop
  | nothing (silent : sentFrames out.acts = []) (fine : out.result = .ok ())
      (same : out.platform = p)
  | one (frame : Frame) (sent : sentFrames out.acts = [frame])
      (handed : Platform.send wait.2 frame wait.1 = (out.result, out.platform))

theorem Polled.Posts.sendings {α π : Type} [Platform π] {wait : Nat × Journal π} {j : Journal π}
    {out : Polled α (Journal π)} (h : out.Posts wait j) (kept : wait.2.sendings = j.sendings) :
    out.platform.sendings =
      j.sendings ++ (sentFrames out.acts).map (⟨·, wait.1, out.result⟩) := by
  cases h with
  | nothing silent _ same => rw [silent, same, List.map_nil, List.append_nil]
  | one frame sent handed =>
    obtain ⟨hresult, hplatform⟩ := Prod.mk.inj handed
    rw [sent, ← hplatform, ← hresult, ← kept]
    rfl

theorem Polled.Posts.drawn {α π : Type} [Platform π] {wait : Nat × Journal π} {j : Journal π}
    {out : Polled α (Journal π)} {bytes : Nat} (h : out.Posts wait j)
    (cost : wait.2.drawn = j.drawn + bytes) :
    out.platform.drawn = j.drawn + bytes * (sentFrames out.acts).length := by
  cases h with
  | nothing silent _ same => rw [silent, same, List.length_nil, Nat.mul_zero, Nat.add_zero]
  | one frame sent handed =>
    rw [sent, List.length_singleton, Nat.mul_one, ← cost]
    exact congrArg (·.2.drawn) handed.symm

namespace Device

variable {α π : Type} [Platform π] (d : Device α)

section Parts

variable [Application α] (p : π)

theorem posts_reply (query : Frame) :
    (d.reply p query).Posts ((d.handle query).device.responseDelay p query) p := by
  have hinner := sentFrames_inner (works_handle d query).inner
  cases result : (d.handle query).result with
  | none =>
    simp only [reply, result]
    exact .nothing hinner rfl rfl
  | some answer =>
    simp only [reply, result]
    exact .one answer (by rw [sentFrames_append, hinner]; rfl) rfl

theorem config_buildTelemetry (endpoint : Endpoint) :
    (d.buildTelemetry endpoint).device.config = d.config := by
  have h := measuring d endpoint
  generalize d.buildTelemetry endpoint = out at h ⊢
  cases h <;> rfl

theorem posts_report : (d.report p).Posts (d.telemetryDelay p) p := by
  cases due : d.dueTelemetry with
  | none =>
    simp only [report, due]
    exact .nothing rfl rfl rfl
  | some endpoint =>
    have hinner := sentFrames_inner (works_buildTelemetry d.trying endpoint).inner
    have hconfig := config_buildTelemetry d.trying endpoint
    rcases built : d.trying.buildTelemetry endpoint with ⟨result, e, acts⟩
    rw [built] at hinner hconfig
    have hdelay : d.telemetryDelay p = e.telemetryDelay p := by
      unfold telemetryDelay
      rw [show e.config = d.config from hconfig]
    rw [hdelay]
    unfold trying at built
    cases result with
    | error fault =>
      simp only [report, due, built]
      exact .nothing (by rw [sentFrames_append, hinner]; rfl) rfl rfl
    | ok frame =>
      simp only [report, due, built]
      exact .one frame (by rw [sentFrames_append, hinner]; rfl) rfl

end Parts

variable (j : Journal π)

theorem sendings_responseDelay (query : Frame) :
    (d.responseDelay j query).2.sendings = j.sendings := by
  unfold responseDelay
  split
  next => exact sendings_delayBetween j _ _
  next => rfl

theorem sendings_telemetryDelay : (d.telemetryDelay j).2.sendings = j.sendings := by
  unfold telemetryDelay
  split
  next => exact sendings_delayBetween j _ _
  next => rfl

theorem Syncing.journal {d : Device α} {j : Journal π} {out : Polled α (Journal π)}
    (h : d.Syncing j out) :
    out.platform.sendings = j.sendings ∧ out.platform.drawn = j.drawn ∧
      sentFrames out.acts = [] := by
  cases h with
  | idle => exact ⟨rfl, rfl, rfl⟩
  | refused secs fault q pending told =>
    exact ⟨congrArg (·.2.sendings) told.symm, congrArg (·.2.drawn) told.symm, rfl⟩
  | set secs q pending told =>
    exact ⟨congrArg (·.2.sendings) told.symm, congrArg (·.2.drawn) told.symm, rfl⟩

variable [Application α]

/-- An answer is handed over after the delay for its query. -/
theorem sendings_reply (query : Frame) :
    (d.reply j query).platform.sendings =
      j.sendings ++ (sentFrames (d.reply j query).acts).map
        (⟨·, ((d.handle query).device.responseDelay j query).1, (d.reply j query).result⟩) :=
  (posts_reply d j query).sendings (sendings_responseDelay _ j query)

/-- Telemetry is handed over after the delay that the settings ask for. -/
theorem sendings_report :
    (d.report j).platform.sendings =
      j.sendings ++ (sentFrames (d.report j).acts).map
        (⟨·, (d.telemetryDelay j).1, (d.report j).result⟩) :=
  (posts_report d j).sendings (sendings_telemetryDelay d j)

/-- Before it reports, a poll hands over what it answers. -/
theorem take_of_received {query : Frame} {k : Journal π}
    (received : Platform.receive j = (.ok (some query), k)) :
    let replied := (d.updateTime (Platform.now j)).reply k query
    (d.take j).platform.sendings = replied.platform.sendings ∧
      (d.take j).platform.drawn = replied.platform.drawn ∧
      sentFrames (d.take j).acts = sentFrames replied.acts ∧
      (d.take j).device.config = replied.device.config := by
  intro replied
  have h := taking d j
  generalize d.take j = out at h ⊢
  cases h with
  | idle silent => exact absurd (congrArg Prod.fst received) (silent query)
  | unsent other q hother fault failed =>
    cases received.symm.trans hother
    exact ⟨rfl, rfl, rfl, rfl⟩
  | served other q hother replied synced reply sent sync =>
    cases received.symm.trans hother
    obtain ⟨hsendings, hdrawn, hnone⟩ := sync.journal
    have hconfig : synced.device.config = replied.device.config := by cases sync <;> rfl
    subst reply
    exact ⟨hsendings, hdrawn, by rw [sentFrames_append, hnone, List.append_nil], hconfig⟩

theorem sendings_take :
    (d.take j).platform.sendings.map (·.frame) =
      j.sendings.map (·.frame) ++ sentFrames (d.take j).acts := by
  rcases received : Platform.receive j with ⟨result, k⟩
  have hkeep : k.sendings = j.sendings := congrArg (·.2.sendings) received.symm
  rcases result with fault | _ | query
  · simp [take, received, hkeep]
  · simp [take, received, hkeep]
  · obtain ⟨hsendings, _, hsent, _⟩ := take_of_received d j received
    rw [hsendings, hsent, sendings_reply, hkeep, List.map_append, List.map_map]
    exact congrArg (_ ++ ·) (List.map_id _)

/-- The frames that a poll is said to send are those that it hands over. -/
theorem sendings_poll :
    (d.poll j).platform.sendings.map (·.frame) =
      j.sendings.map (·.frame) ++ sentFrames (d.poll j).acts := by
  have htake := sendings_take d j
  rw [poll_eq]
  split
  next => exact htake
  next =>
    have hreport := sendings_report (d.take j).device (d.take j).platform
    simp only [hreport, List.map_append, htake, sentFrames_append, List.append_assoc, List.map_map]
    exact congrArg (_ ++ ·) (congrArg (_ ++ ·) (List.map_id _))

/-- A journal changes nothing about the first part of a poll. -/
theorem take_journal :
    Polled.Agree (fun (k : Journal π) q => k.platform = q) (d.take j) (d.take j.platform) :=
  alike_journal.take rfl ⟨rfl, rfl⟩ d

/-- A journal changes nothing about a poll. -/
theorem poll_journal :
    Polled.Agree (fun (k : Journal π) q => k.platform = q) (d.poll j) (d.poll j.platform) :=
  alike_journal.poll rfl ⟨rfl, rfl⟩ d

/-- What a poll hands over to a platform. -/
def sendings (p : π) : List Sending := (d.poll ({ platform := p } : Journal π)).platform.sendings

/-- The bytes of entropy that a poll draws from a platform. -/
def drawn (p : π) : Nat := (d.poll ({ platform := p } : Journal π)).platform.drawn

/-- The frames that a poll is said to send are those that the platform is asked to send. -/
theorem asked_poll (r : Recorder π) :
    (d.poll r).platform.asked = r.asked ++ sentFrames (d.poll r).acts := by
  have hstart : r.Follows r.asked { platform := r.platform } := ⟨rfl, (List.append_nil _).symm⟩
  have hreceive : Platform.Agree (Recorder.Follows r.asked) (Platform.receive r)
      (Platform.receive ({ platform := r.platform } : Journal π)) :=
    ⟨rfl, rfl, (List.append_nil _).symm⟩
  have h := (alike_follows r.asked).poll hstart hreceive d
  rw [h.platform.asked, sendings_poll, h.acts]
  rfl

/-- A poll without its record. -/
def unrecorded (out : Polled α (Recorder π)) : Polled α π :=
  ⟨out.result, out.device, out.platform.platform, out.acts⟩

/-- Recording changes nothing about a poll. -/
theorem unrecorded_poll (r : Recorder π) : unrecorded (d.poll r) = d.poll r.platform := by
  obtain ⟨hresult, hdevice, hacts, hplatform⟩ := alike_recorder.poll (p := r) rfl ⟨rfl, rfl⟩ d
  simp only [unrecorded, hresult, hdevice, hacts, hplatform]

end Device

end Fieldbus
