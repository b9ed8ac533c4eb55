import Fieldbus.Proofs.Bus.Order

namespace Fieldbus

/-- What can be asked of a bus and of the connections to it. -/
inductive BusRequest
  | wait (ms : Nat)
  | attach
  | send (node : Nat) (frame : Frame) (delay : Nat)
  | receive (node : Nat)
  | draw (node : Nat) (n : Nat)
  | deliver

namespace Bus

variable {ρ : Type}

def port (b : Bus ρ) (node : Nat) : Connection ρ := { bus := b, node }

theorem inbox_attach (b : Bus ρ) (node : Nat) : b.attach.inbox node = b.inbox node := by
  rcases Nat.lt_trichotomy node b.inboxes.length with inside | rfl | outside
  · simp [inbox, attach, List.getElem?_append_left inside]
  · simp [inbox, attach]
  · simp [inbox, attach, List.getElem?_append_right (Nat.le_of_lt outside),
      List.getElem?_eq_none (Nat.le_of_lt outside), Nat.sub_ne_zero_of_lt outside]

theorem take_of_nil {b : Bus ρ} {node : Nat} (h : b.inbox node = []) : b.take node = (none, b) := by
  simp only [take, h]

theorem take_of_cons {b : Bus ρ} {node : Nat} {f : Frame} {rest : List Frame}
    (h : b.inbox node = f :: rest) :
    b.take node = (some f, { b with inboxes := b.inboxes.set node rest }) := by
  simp only [take, h]

theorem inbox_set {b : Bus ρ} {node : Nat} {f : Frame} {rest : List Frame}
    (h : b.inbox node = f :: rest) (other : Nat) :
    { b with inboxes := b.inboxes.set node rest }.inbox other =
      if other = node then rest else b.inbox other := by
  have inside : node < b.inboxes.length := by
    refine Nat.lt_of_not_le fun outside => ?_
    simp [inbox, List.getElem?_eq_none outside] at h
  split
  next same => simp [inbox, same, inside]
  next different => simp [inbox, List.getElem?_set_ne (Ne.symm different)]

variable [Chance ρ]

/-- Does what is asked; only an attached node has a connection to send by. -/
def perform (b : Bus ρ) : BusRequest → Bus ρ
  | .wait ms => { b with elapsed := b.elapsed + ms }
  | .attach => b.attach
  | .send node frame delay =>
    if node < b.inboxes.length then (Platform.send (b.port node) frame delay).2.bus else b
  | .receive node => (Platform.receive (b.port node)).2.bus
  | .draw node n => (Platform.entropy (b.port node) n).2.bus
  | .deliver => b.deliver.1

/-- Does what is asked, one after the other. -/
def run (b : Bus ρ) : List BusRequest → Bus ρ
  | [] => b
  | r :: rest => (b.perform r).run rest

end Bus

/-- What has become of the frames on a bus: those that were sent, those that are still in flight,
those that were taken from flight, and those that a node has received. -/
structure BusLog where
  sent : List Shipment := []
  flight : List Shipment := []
  landings : List Landing := []
  taken : List (Nat × Frame) := []

namespace BusLog

/-- The frames that a node has received. -/
def takenBy (g : BusLog) (node : Nat) : List Frame :=
  (g.taken.filter (·.1 = node)).map Prod.snd

variable {ρ : Type}

section Record

variable [Chance ρ]

/-- Takes down what is about to be done. -/
def record (g : BusLog) (b : Bus ρ) : BusRequest → BusLog
  | .send node frame delay =>
    if node < b.inboxes.length then
      let x : Shipment := ⟨g.sent.length, b.elapsed, delay, node, frame⟩
      { g with sent := g.sent ++ [x], flight := g.flight ++ [x] }
    else g
  | .receive node =>
    match (Platform.receive (b.port node)).1 with
    | .ok (some f) => { g with taken := g.taken ++ [(node, f)] }
    | _ => g
  | .deliver =>
    { g with
      flight := Shipment.later g.flight b.elapsed
      landings := g.landings ++ b.landings (Shipment.due g.flight b.elapsed) }
  | .wait _ | .attach | .draw .. => g

/-- Takes down all that is done. -/
def follow (g : BusLog) (b : Bus ρ) : List BusRequest → BusLog
  | [] => g
  | r :: rest => (g.record b r).follow (b.perform r) rest

end Record

/-- A log tells what has become of the frames on a bus. -/
structure Tracks (g : BusLog) (b : Bus ρ) : Prop where
  inFlight : b.inFlight = g.flight.map Shipment.inFlight
  fates : (g.landings.map (·.shipment) ++ g.flight).Perm g.sent
  serials : g.sent.map (·.serial) = List.range g.sent.length
  ranked : g.flight.Pairwise (·.serial < ·.serial)
  senders : ∀ x ∈ g.flight, x.sender < b.inboxes.length
  times : ∀ l ∈ g.landings, l.shipment.deliverAt ≤ l.time ∧ l.time ≤ b.elapsed
  order : (g.landings.map (·.shipment)).Pairwise Shipment.Before
  ahead : ∀ l ∈ g.landings, ∀ x ∈ g.flight, l.shipment.Before x
  attached : ∀ l ∈ g.landings, l.shipment.sender < l.queues.length
  depths : ∀ l ∈ g.landings, ∀ node, (l.queue node).length ≤ Bus.inboxDepth
  inboxes : ∀ node, g.takenBy node ++ b.inbox node =
    (g.landings.filter (·.reaches node)).map (·.shipment.frame)
  depth : ∀ node, (b.inbox node).length ≤ Bus.inboxDepth
  sent : b.stats.sent = .ofNat g.sent.length
  dropped : b.stats.dropped = .ofNat (g.landings.countP (·.lost))
  delivered : b.stats.delivered = .ofNat (g.landings.map (·.copies)).sum
  overruns : b.stats.overruns = .ofNat (g.landings.map (·.overruns)).sum

namespace Tracks

theorem start (epoch : Nat) (chance : ρ) : ({} : BusLog).Tracks { epoch, chance } where
  inFlight := rfl
  fates := .refl _
  serials := rfl
  ranked := .nil
  senders := fun _ h => nomatch h
  times := fun _ h => nomatch h
  order := .nil
  ahead := fun _ h => nomatch h
  attached := fun _ h => nomatch h
  depths := fun _ h => nomatch h
  inboxes := fun _ => rfl
  depth := fun _ => Nat.zero_le _
  sent := rfl
  dropped := rfl
  delivered := rfl
  overruns := rfl

variable {g : BusLog} {b : Bus ρ} (h : g.Tracks b)

include h

theorem mem_sent_of_flight {x : Shipment} (hx : x ∈ g.flight) : x ∈ g.sent :=
  h.fates.mem_iff.mp (List.mem_append.mpr (Or.inr hx))

theorem mem_sent_of_landing {l : Landing} (hl : l ∈ g.landings) : l.shipment ∈ g.sent :=
  h.fates.mem_iff.mp (List.mem_append.mpr (Or.inl (List.mem_map_of_mem hl)))

theorem serial_lt {x : Shipment} (hx : x ∈ g.sent) : x.serial < g.sent.length := by
  have hserial : x.serial ∈ g.sent.map (·.serial) := List.mem_map_of_mem hx
  rwa [h.serials, List.mem_range] at hserial

theorem wait (ms : Nat) : g.Tracks { b with elapsed := b.elapsed + ms } :=
  { h with
    times := fun l hl => ⟨(h.times l hl).1, Nat.le_add_right_of_le (h.times l hl).2⟩ }

theorem attach : g.Tracks b.attach :=
  { h with
    senders := fun x hx => by
      simpa [Bus.attach] using Nat.lt_succ_of_lt (h.senders x hx)
    inboxes := fun node => by
      rw [Bus.inbox_attach]
      exact h.inboxes node
    depth := fun node => by
      rw [Bus.inbox_attach]
      exact h.depth node }

theorem draw (chance : ρ) : g.Tracks { b with chance } := { h with }

theorem send {node : Nat} (attached : node < b.inboxes.length) (frame : Frame) (delay : Nat) :
    let x : Shipment := ⟨g.sent.length, b.elapsed, delay, node, frame⟩
    { g with sent := g.sent ++ [x], flight := g.flight ++ [x] }.Tracks
      (b.send node frame delay) := by
  intro x
  have hearlier : ∀ y ∈ g.sent, y.serial < x.serial := fun y hy => h.serial_lt hy
  exact
    { h with
      inFlight := by
        rw [List.map_append, ← h.inFlight]
        rfl
      fates := by
        rw [← List.append_assoc]
        exact h.fates.append_right [x]
      serials := by
        rw [List.map_append, h.serials, List.length_append, List.length_singleton,
          List.range_succ]
        rfl
      ranked := List.pairwise_append.mpr ⟨h.ranked, List.pairwise_singleton _ _,
        fun y hy z hz => by
          rw [List.mem_singleton.mp hz]
          exact hearlier y (h.mem_sent_of_flight hy)⟩
      senders := fun y hy => by
        rcases List.mem_append.mp hy with hy | hy
        · exact h.senders y hy
        · rw [List.mem_singleton.mp hy]
          exact attached
      ahead := fun l hl y hy => by
        rcases List.mem_append.mp hy with hy | hy
        · exact h.ahead l hl y hy
        · -- Time does not go back: what has landed was due no later than the new frame is.
          have htimes := h.times l hl
          have hlate : l.shipment.deliverAt ≤ x.deliverAt :=
            Nat.le_trans (Nat.le_trans htimes.1 htimes.2) (Nat.le_add_right _ _)
          rw [List.mem_singleton.mp hy]
          exact (Nat.lt_or_eq_of_le hlate).imp_right fun heq =>
            ⟨heq, hearlier _ (h.mem_sent_of_landing hl)⟩
      sent := by
        rw [List.length_append, UInt64.ofNat_add, ← h.sent]
        rfl }

theorem take {node : Nat} {f : Frame} {rest : List Frame} (queue : b.inbox node = f :: rest) :
    { g with taken := g.taken ++ [(node, f)] }.Tracks
      { b with inboxes := b.inboxes.set node rest } :=
  { h with
    senders := fun x hx => by
      rw [List.length_set]
      exact h.senders x hx
    inboxes := fun other => by
      have hinboxes := h.inboxes other
      rw [Bus.inbox_set queue, takenBy, List.filter_append, List.map_append, ← hinboxes]
      split
      next same =>
        subst same
        simp [takenBy, queue]
      next different => simp [takenBy, Ne.symm different]
    depth := fun other => by
      have hdepth := h.depth other
      rw [Bus.inbox_set queue]
      split
      next same =>
        rw [same, queue, List.length_cons] at hdepth
        exact Nat.le_of_succ_le hdepth
      next => exact hdepth }

/-- Delivery settles the frames that are due and leaves the others in flight. -/
theorem land {e : Bus ρ} {landings : List Landing}
    (lands : { b with
      inFlight := (Shipment.later g.flight b.elapsed).map Shipment.inFlight }.Lands landings e)
    (settled : landings.map (·.shipment) = Shipment.due g.flight b.elapsed)
    (now : ∀ l ∈ landings, l.time = b.elapsed ∧ l.queues.length = b.inboxes.length)
    (depths : ∀ l ∈ landings, ∀ node, (l.queue node).length ≤ Bus.inboxDepth)
    (depth : ∀ node, (e.inbox node).length ≤ Bus.inboxDepth) :
    { g with
      flight := Shipment.later g.flight b.elapsed
      landings := g.landings ++ landings }.Tracks e := by
  have hdue : ∀ l ∈ landings, l.shipment ∈ g.flight ∧ l.shipment.deliverAt ≤ b.elapsed :=
    fun l hl => by
      rw [← Shipment.mem_due, ← settled]
      exact List.mem_map_of_mem hl
  exact
    { inFlight := lands.inFlight
      fates := by
        rw [List.map_append, settled, List.append_assoc]
        exact ((Shipment.due_append_later g.flight b.elapsed).append_left _).trans h.fates
      serials := h.serials
      ranked := h.ranked.sublist List.filter_sublist
      senders := fun x hx => by
        rw [lands.nodes]
        exact h.senders x (Shipment.mem_later.mp hx).1
      times := fun l hl => by
        rw [lands.elapsed]
        rcases List.mem_append.mp hl with hl | hl
        · exact h.times l hl
        · rw [(now l hl).1]
          exact ⟨(hdue l hl).2, Nat.le_refl _⟩
      order := by
        rw [List.map_append, settled]
        refine List.pairwise_append.mpr ⟨h.order, Shipment.pairwise_due h.ranked, ?_⟩
        intro y hy x hx
        obtain ⟨l, hl, rfl⟩ := List.mem_map.mp hy
        exact h.ahead l hl x (Shipment.mem_due.mp hx).1
      ahead := fun l hl x hx => by
        obtain ⟨hflight, hlate⟩ := Shipment.mem_later.mp hx
        rcases List.mem_append.mp hl with hl | hl
        · exact h.ahead l hl x hflight
        · exact Or.inl (Nat.lt_of_le_of_lt (hdue l hl).2 hlate)
      attached := fun l hl => by
        rcases List.mem_append.mp hl with hl | hl
        · exact h.attached l hl
        · rw [(now l hl).2]
          exact h.senders _ (hdue l hl).1
      depths := fun l hl => by
        rcases List.mem_append.mp hl with hl | hl
        · exact h.depths l hl
        · exact depths l hl
      inboxes := fun node => by
        rw [lands.inbox, ← List.append_assoc, List.filter_append, List.map_append, ← h.inboxes]
        rfl
      depth := depth
      sent := lands.sent.trans h.sent
      dropped := by
        rw [lands.dropped, List.countP_append, UInt64.ofNat_add, ← h.dropped]
      delivered := by
        rw [lands.delivered, List.map_append, List.sum_append, UInt64.ofNat_add, ← h.delivered]
      overruns := by
        rw [lands.overruns, List.map_append, List.sum_append, UInt64.ofNat_add, ← h.overruns] }

variable [Chance ρ]

theorem deliver : (g.record b .deliver).Tracks b.deliver.1 := by
  have hlands := Bus.lands_arriveAll
    { b with inFlight := (Shipment.later g.flight b.elapsed).map Shipment.inFlight }
    (Shipment.due g.flight b.elapsed)
  have hbounded := Bus.bounded_landings (b :=
    { b with inFlight := (Shipment.later g.flight b.elapsed).map Shipment.inFlight }) h.depth
    (Shipment.due g.flight b.elapsed)
  rw [← Bus.deliver_eq h.inFlight, Bus.landings_inFlight] at hlands hbounded
  exact h.land hlands (Bus.map_shipment_landings _ _) (fun _ => Bus.landings_now) hbounded.2
    hbounded.1

theorem receive (node : Nat) :
    (g.record b (.receive node)).Tracks (b.perform (.receive node)) := by
  cases queue : b.inbox node with
  | nil =>
    have htake : (Bus.take (b.port node).bus (b.port node).node) = (none, b) :=
      Bus.take_of_nil queue
    simp only [BusLog.record, Bus.perform, Platform.receive, Connection.receive, htake]
    exact h
  | cons f rest =>
    have htake : (Bus.take (b.port node).bus (b.port node).node) = _ := Bus.take_of_cons queue
    simp only [BusLog.record, Bus.perform, Platform.receive, Connection.receive, htake]
    exact h.take queue

theorem perform (r : BusRequest) : (g.record b r).Tracks (b.perform r) := by
  cases r with
  | wait ms => exact h.wait ms
  | attach => exact h.attach
  | send node frame delay =>
    simp only [BusLog.record, Bus.perform]
    split
    next attached => exact h.send attached frame delay
    next => exact h
  | receive node => exact h.receive node
  | draw node n => exact h.draw _
  | deliver => exact h.deliver

theorem run (requests : List BusRequest) : (g.follow b requests).Tracks (b.run requests) := by
  induction requests generalizing g b with
  | nil => exact h
  | cons r rest ih => exact ih (h.perform r)

end Tracks

end BusLog

end Fieldbus
