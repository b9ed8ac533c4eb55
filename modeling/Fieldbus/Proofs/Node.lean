import Fieldbus.Proofs.Bus.Connection
import Fieldbus.Proofs.Device.Handled
import Fieldbus.Proofs.Device.Traffic
import Fieldbus.Simulation

namespace Fieldbus

namespace Node

section Serves

variable {α π : Type} [Application α] [Platform π]

/-- The loop that polls a device until a poll fails or nothing waits any more, with what each of its
polls received. -/
inductive Serves : Device α → π → List (Option Frame) → Polled α π → Prop
  | failed {d : Device α} {p : π} (fault : Fault) (broken : (d.poll p).result = .error fault) :
      Serves d p [incoming? p] (d.poll p)
  | done {d : Device α} {p : π} (fine : (d.poll p).result = .ok ())
      (empty : Platform.waiting (d.poll p).platform = 0) :
      Serves d p [incoming? p] (d.poll p)
  | again {d : Device α} {p : π} {received : List (Option Frame)} {out : Polled α π}
      (fine : (d.poll p).result = .ok ()) (more : Platform.waiting (d.poll p).platform ≠ 0)
      (rest : Serves (d.poll p).device (d.poll p).platform received out) :
      Serves d p (incoming? p :: received) { out with acts := (d.poll p).acts ++ out.acts }

variable {d : Device α} {p : π} {received received' : List (Option Frame)} {out out' : Polled α π}

/-- There is one way for the loop to go. -/
theorem Serves.unique (h : Serves d p received out) (h' : Serves d p received' out') :
    received' = received ∧ out' = out := by
  induction h generalizing received' out' with
  | failed fault broken =>
    cases h' with
    | failed => exact ⟨rfl, rfl⟩
    | done fine => simp [broken] at fine
    | again fine => simp [broken] at fine
  | done fine empty =>
    cases h' with
    | failed fault broken => simp [fine] at broken
    | done => exact ⟨rfl, rfl⟩
    | again _ more => exact absurd empty more
  | again fine more _ ih =>
    cases h' with
    | failed fault broken => simp [fine] at broken
    | done _ empty => exact absurd empty more
    | again _ _ rest =>
      obtain ⟨rfl, rfl⟩ := ih rest
      exact ⟨rfl, rfl⟩

/-- The frames that the loop received are handled in order, each once, and all are counted. -/
theorem Serves.handles (h : Serves d p received out) :
    handledQueries out.acts = (received.filterMap id).filter (·.isFor d.did) ∧
      out.device.system.counters =
        d.system.counters + .tally d.did (received.filterMap id) (sentFrames out.acts) := by
  have hone (p : π) : [incoming? p].filterMap id = (incoming? p).toList := by
    cases incoming? p <;> rfl
  induction h with
  | @failed d p | @done d p =>
    rw [hone]
    exact ⟨Device.handledQueries_poll d p, Device.counters_poll d p⟩
  | @again d p received out _ _ _ ih =>
    obtain ⟨hqueries, hcounters⟩ := ih
    have hsplit : (incoming? p :: received).filterMap id =
        (incoming? p).toList ++ received.filterMap id := by
      rw [← hone, ← List.filterMap_append, List.singleton_append]
    rw [Device.did_poll] at hqueries hcounters
    rw [hsplit]
    constructor
    · rw [handledQueries_append, List.filter_append, hqueries, Device.handledQueries_poll]
    · rw [hcounters, Device.counters_poll, Counters.add_tally_add_tally, sentFrames_append]

end Serves

section Bus

variable {α ρ : Type} [Application α] [Chance ρ] {d : Device α} {p : Connection ρ}
  {received : List (Option Frame)} {out : Polled α (Connection ρ)}

/-- Every poll takes one frame from the queue, for as long as there is one. -/
theorem Serves.trades (h : Serves d p received out) :
    p.Trades received.length (sentFrames out.acts) out.platform := by
  induction h with
  | @failed d p | @done d p => exact (Device.trades_poll d p).1
  | @again d p received out _ _ _ ih =>
    have hall := (Device.trades_poll d p).1.trans ih
    rw [List.length_cons, sentFrames_append, Nat.add_comm]
    exact hall

theorem Serves.result (h : Serves d p received out) (early : p.bus.clock < 0x8000000000000000) :
    out.result = .ok () := by
  induction h with
  | @failed d p | @done d p => exact (Device.trades_poll d p).2 early
  | @again d p _ _ _ _ _ ih =>
    apply ih
    rwa [(Device.trades_poll d p).1.clock]

theorem inbox_poll (d : Device α) (p : Connection ρ) :
    (d.poll p).platform.bus.inbox (d.poll p).platform.node = (p.bus.inbox p.node).drop 1 :=
  (Device.trades_poll d p).1.inbox

/-- If no poll fails, then the polls receive what was in the queue, a frame each. -/
theorem Serves.drains (h : Serves d p received out) (fine : out.result = .ok ()) :
    received.length = max 1 (p.bus.inbox p.node).length ∧
      received.filterMap id = p.bus.inbox p.node := by
  induction h with
  | failed fault broken => simp [broken] at fine
  | @done d p _ empty =>
    have hlast : (p.bus.inbox p.node).drop 1 = [] := by
      rw [← inbox_poll d p]
      exact List.eq_nil_of_length_eq_zero empty
    rw [Connection.incoming?_eq]
    cases queue : p.bus.inbox p.node with
    | nil => exact ⟨rfl, rfl⟩
    | cons f rest =>
      have hrest : rest = [] := by rwa [queue] at hlast
      rw [hrest]
      exact ⟨rfl, rfl⟩
  | @again d p received out _ more _ ih =>
    obtain ⟨hlength, hframes⟩ := ih fine
    have hmore : ((p.bus.inbox p.node).drop 1).length ≠ 0 := by
      rw [← inbox_poll d p]
      exact more
    rw [inbox_poll d p] at hlength hframes
    rw [Connection.incoming?_eq]
    cases queue : p.bus.inbox p.node with
    | nil =>
      rw [queue] at hmore
      exact absurd rfl hmore
    | cons f rest =>
      rw [queue, List.drop_one, List.tail_cons] at hmore hlength hframes
      constructor
      · rw [List.length_cons, List.length_cons, hlength]
        omega
      · show f :: received.filterMap id = f :: rest
        rw [hframes]

/-- The bound on the polls is never reached before the queue is empty. -/
theorem serves_serveQueue {fuel : Nat} {d : Device α} {p : Connection ρ}
    (enough : (p.bus.inbox p.node).length ≤ fuel) :
    ∃ received, Serves d p received (serveQueue fuel d p) := by
  induction fuel generalizing d p with
  | zero =>
    have hnone : p.bus.inbox p.node = [] := List.eq_nil_of_length_eq_zero (Nat.le_zero.mp enough)
    have hempty : Platform.waiting (d.poll p).platform = 0 := by
      show List.length _ = 0
      rw [inbox_poll d p, hnone, List.drop_nil, List.length_nil]
    rw [serveQueue]
    cases result : (d.poll p).result with
    | error fault => exact ⟨_, .failed fault result⟩
    | ok _ => exact ⟨_, .done result hempty⟩
  | succ fuel ih =>
    rw [serveQueue]
    cases result : (d.poll p).result with
    | error fault => exact ⟨_, .failed fault result⟩
    | ok _ =>
      by_cases hempty : Platform.waiting (d.poll p).platform = 0
      · simp only [hempty, if_true]
        exact ⟨_, .done result hempty⟩
      · simp only [hempty, if_false]
        have hless : ((d.poll p).platform.bus.inbox (d.poll p).platform.node).length ≤ fuel := by
          rw [inbox_poll d p, List.length_drop]
          omega
        obtain ⟨received, hrest⟩ := ih hless
        exact ⟨_, .again result hempty hrest⟩

end Bus

/-- On a bus, a node polls its device as often as frames wait for it, or once when none do, and
then stops with its queue empty. It takes on the frames in order and each of them once, touches no
other queue, and what it sends is in flight from it. The polls can fail only once the time of the
bus does not fit in 63 bits. -/
theorem poll_drains_inbox {ρ : Type} [Chance ρ] (b : Bus ρ) (node : Nat) (offset : Int)
    (d : Device Thermostat) :
    let p : Connection ρ := ⟨b, node, offset⟩
    let stepped : Device Thermostat := { d with app := d.app.step }
    let out := Node.poll d p
    ∃ received,
      Serves stepped p received out ∧
      (∀ received' out', Serves stepped p received' out' → received' = received ∧ out' = out) ∧
      (out.result = .ok () →
        received.length = max 1 (b.inbox node).length ∧
        received.filterMap id = b.inbox node ∧
        handledQueries out.acts = (b.inbox node).filter (·.isFor d.did) ∧
        out.device.system.counters =
          d.system.counters + .tally d.did (b.inbox node) (sentFrames out.acts) ∧
        out.platform.bus.inboxes = b.inboxes.set node []) ∧
      (b.clock < 0x8000000000000000 → out.result = .ok ()) ∧
      out.platform.node = node ∧
      ∃ sent, out.platform.bus.inFlight = b.inFlight ++ sent ∧
        sent.map (·.frame) = sentFrames out.acts ∧ ∀ x ∈ sent, x.sender = node := by
  intro p stepped out
  obtain ⟨received, serves⟩ : ∃ received, Serves stepped p received out :=
    serves_serveQueue (Nat.le_refl _)
  obtain ⟨hqueries, hcounters⟩ := serves.handles
  have htrades := serves.trades
  refine ⟨received, serves, fun _ _ other => serves.unique other, fun fine => ?_, serves.result,
    htrades.node, htrades.inFlight⟩
  obtain ⟨hlength, hframes⟩ := serves.drains fine
  rw [hframes] at hqueries hcounters
  refine ⟨hlength, hframes, hqueries, hcounters, ?_⟩
  have hdropped : (b.inbox node).drop received.length = [] := by
    apply List.drop_of_length_le
    rw [hlength]
    exact Nat.le_max_right _ _
  rw [htrades.inboxes]
  exact congrArg (b.inboxes.set node) hdropped

end Node

end Fieldbus
