import Fieldbus.Proofs.Bus.Run

namespace Fieldbus

namespace Landing

theorem reaches_sender (l : Landing) : l.reaches l.shipment.sender = false := by
  simp [reaches, isFor]

/-- A frame that is not lost either reaches another node, or finds its queue full. -/
theorem reaches_or_misses {l : Landing} (kept : l.lost = false) {node : Nat}
    (attached : node < l.queues.length) (other : node ≠ l.shipment.sender)
    (depth : (l.queue node).length ≤ Bus.inboxDepth) :
    l.reaches node = decide ((l.queue node).length ≠ Bus.inboxDepth) ∧
      l.misses node = decide ((l.queue node).length = Bus.inboxDepth) := by
  have hfor : l.isFor node = true := by simp [isFor, kept, attached, other]
  rw [reaches, misses, hfor, Bool.true_and, Bool.true_and, decide_eq_decide, decide_eq_decide]
  omega

theorem sum_copies_add_sum_overruns {landings : List Landing}
    (attached : ∀ l ∈ landings, l.shipment.sender < l.queues.length) :
    (landings.map (·.copies)).sum + (landings.map (·.overruns)).sum =
      ((landings.filter (!·.lost)).map fun l => l.queues.length - 1).sum := by
  induction landings with
  | nil => rfl
  | cons l landings ih =>
    have hrest := ih fun m hm => attached m (List.mem_cons_of_mem l hm)
    simp only [List.map_cons, List.sum_cons]
    cases lost : l.lost with
    | true =>
      have hnone := copies_add_overruns_of_lost lost
      rw [List.filter_cons_of_neg (by simp [lost])]
      omega
    | false =>
      have hall := copies_add_overruns_of_kept lost (attached l List.mem_cons_self)
      rw [List.filter_cons_of_pos (by simp [lost]), List.map_cons, List.sum_cons]
      omega

end Landing

/-- What was sent is in flight, was lost or was kept. -/
theorem BusLog.Tracks.length_sent {ρ : Type} {g : BusLog} {b : Bus ρ} (h : g.Tracks b) :
    g.sent.length =
      b.inFlight.length + g.landings.countP (·.lost) + g.landings.countP (!·.lost) := by
  have hfates := h.fates.length_eq
  have hsplit := List.length_eq_countP_add_countP (l := g.landings) (·.lost)
  have hkept : g.landings.countP (fun l => !l.lost) =
      g.landings.countP fun l => decide ¬l.lost = true := by
    simp
  rw [List.length_append, List.length_map] at hfates
  rw [h.inFlight, List.length_map, hkept]
  omega

namespace Bus

variable {ρ : Type} [Chance ρ]

/-- Whatever is asked of a bus and of the connections to it, its frames are accounted for. Each
frame that was sent is in flight or was taken from flight, once and not before its delay was over.
What a node has received and still holds is what was taken from flight and reached it, by the time
of delivery and then in the order of sending. A frame does not reach its sender. It reaches each
other node, unless it is lost or the node holds 64 frames; no node ever holds more. The counts of
the bus agree with that, in words of 64 bits. -/
theorem frames_accounted (epoch : Nat) (chance : ρ) (requests : List BusRequest) :
    let b := ({ epoch, chance } : Bus ρ).run requests
    let g := ({} : BusLog).follow ({ epoch, chance } : Bus ρ) requests
    (b.inFlight = g.flight.map Shipment.inFlight ∧
      g.sent.map (·.serial) = List.range g.sent.length ∧
      (g.landings.map (·.shipment) ++ g.flight).Perm g.sent) ∧
    (∀ l ∈ g.landings, l.shipment.sentAt + l.shipment.delay ≤ l.time ∧
      l.reaches l.shipment.sender = false ∧
      (l.lost = false → ∀ node < l.queues.length, node ≠ l.shipment.sender →
        l.reaches node = decide ((l.queue node).length ≠ 64) ∧
          l.misses node = decide ((l.queue node).length = 64))) ∧
    (∀ node,
      g.takenBy node ++ b.inbox node =
          (g.landings.filter (·.reaches node)).map (·.shipment.frame) ∧
        ((g.landings.filter (·.reaches node)).map (·.shipment)).Pairwise Shipment.Before ∧
        (b.inbox node).length ≤ 64) ∧
    (g.sent.length =
        b.inFlight.length + g.landings.countP (·.lost) + g.landings.countP (!·.lost) ∧
      b.stats.sent = .ofNat g.sent.length ∧
      b.stats.dropped = .ofNat (g.landings.countP (·.lost)) ∧
      b.stats.sent =
        .ofNat b.inFlight.length + b.stats.dropped + .ofNat (g.landings.countP (!·.lost))) ∧
    (g.landings.map (·.copies)).sum + (g.landings.map (·.overruns)).sum =
        ((g.landings.filter (!·.lost)).map fun l => l.queues.length - 1).sum ∧
      b.stats.delivered = .ofNat (g.landings.map (·.copies)).sum ∧
      b.stats.overruns = .ofNat (g.landings.map (·.overruns)).sum ∧
      b.stats.delivered + b.stats.overruns =
        .ofNat ((g.landings.filter (!·.lost)).map fun l => l.queues.length - 1).sum := by
  intro b g
  have h : g.Tracks b := (BusLog.Tracks.start epoch chance).run requests
  have hsent := h.length_sent
  have hmeant := Landing.sum_copies_add_sum_overruns h.attached
  refine ⟨⟨h.inFlight, h.serials, h.fates⟩, fun l hl => ?_, fun node => ?_,
    ⟨hsent, h.sent, h.dropped, ?_⟩, hmeant, h.delivered, h.overruns, ?_⟩
  · exact ⟨(h.times l hl).1, l.reaches_sender, fun kept node attached other =>
      Landing.reaches_or_misses kept attached other (h.depths l hl node)⟩
  · exact ⟨h.inboxes node, h.order.sublist (List.filter_sublist.map _), h.depth node⟩
  · rw [h.sent, h.dropped, hsent, UInt64.ofNat_add, UInt64.ofNat_add]
  · rw [h.delivered, h.overruns, ← hmeant, UInt64.ofNat_add]

end Bus

end Fieldbus
