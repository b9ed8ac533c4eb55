import Fieldbus.Proofs.Controller.Answer
import Fieldbus.Proofs.Pool.View

namespace Fieldbus

/-- What is left of a search when time has passed. -/
def Sweep.wane (s : Sweep) (elapsed : Nat) : Option Sweep :=
  match s.remaining with
  | none => some s
  | some remaining =>
    if remaining ≤ elapsed then none
    else some { s with remaining := some (remaining - elapsed) }

theorem Sweep.wane_bind_wane (s : Sweep) (a b : Nat) :
    ((s.wane a).bind fun t => t.wane b) = s.wane (a + b) := by
  cases hr : s.remaining with
  | none => simp [wane, hr]
  | some remaining =>
    by_cases hfirst : remaining ≤ a
    · have hwhole : remaining ≤ a + b := by omega
      simp [wane, hr, hfirst, hwhole]
    · by_cases hwhole : remaining ≤ a + b
      · have hsecond : remaining - a ≤ b := by omega
        simp [wane, hr, hfirst, hwhole, hsecond]
      · have hsecond : ¬remaining - a ≤ b := by omega
        simp [wane, hr, hfirst, hwhole, hsecond, Nat.sub_sub]

namespace Controller

variable {σ π : Type} {N : Nat} {c : Controller σ N}

theorem advanceSweep_eq (c : Controller σ N) (elapsed : Nat) :
    (c.advanceSweep elapsed).1 = { c with sweep := c.sweep.bind (·.wane elapsed) } := by
  obtain ⟨pool, listener, sweep, lastPoll⟩ := c
  cases sweep with
  | none => rfl
  | some s =>
    cases hr : s.remaining with
    | none => simp [advanceSweep, Sweep.wane, hr]
    | some remaining =>
      by_cases hle : remaining ≤ elapsed <;> simp [advanceSweep, endSweep, Sweep.wane, hr, hle]

theorem aged_eq (c : Controller σ N) (elapsed : Nat) :
    c.aged elapsed =
      { c with sweep := c.sweep.bind (·.wane elapsed), pool := c.pool.elapse elapsed } := by
  rw [aged, advanceSweep_eq]

theorem aged_aged (hk : c.pool.WellKept) (a b : Nat) : (c.aged a).aged b = c.aged (a + b) := by
  have hwane : ((c.sweep.bind (·.wane a)).bind (·.wane b)) = c.sweep.bind (·.wane (a + b)) := by
    cases c.sweep with
    | none => rfl
    | some s => exact s.wane_bind_wane a b
  simp only [aged_eq, hk.elapse_elapse, hwane]

theorem queue_aged (hk : c.pool.WellKept) (elapsed : Nat) :
    (c.aged elapsed).pool.queue = c.pool.queue := by
  rw [pool_aged, hk.queues.elapse.queue_eq, Deadlines.keys_elapse, hk.queues.queue_eq]

variable [Listener σ]

/-- A query that is due already ends in the same way when more time has passed. -/
theorem expire_aged (hc : c.Sound) {i : Fin N} {entries : Deadlines (Fin N)} {q : PendingQuery}
    (first : c.pool.deadlines = (i, 0) :: entries) (found : c.pool.query? i = some q)
    (elapsed : Nat) :
    (c.aged elapsed).expire i = ((c.expire i).1.aged elapsed, (c.expire i).2) := by
  have hlater : (c.aged elapsed).pool.query? i = some q := by
    rw [pool_aged, (Pool.sameQueries_elapse c.pool elapsed).query?, found]
  have hown : (c.aged elapsed).sweepOwns q.handle = c.sweepOwns q.handle :=
    sweepOwns_advanceSweep hc.sweep elapsed q.handle
  have hfinish := hc.kept.finish_elapse first found elapsed
  cases own : c.sweepOwns q.handle with
  | true =>
    rw [expire_of_sweepOwns found own, expire_of_sweepOwns hlater (hown.trans own)]
    simp only [aged_eq, finish, hfinish, Option.bind_none]
  | false =>
    rw [expire_told found own, expire_told hlater (hown.trans own)]
    simp only [aged_eq, finish, notify, hfinish]

theorem expireDue_cons_of_isDue {i : Fin N} {rest : List (Fin N)} (due : c.pool.isDue i = true) :
    c.expireDue (i :: rest) =
      (((c.expire i).1.expireDue rest).1, (c.expire i).2 ++ ((c.expire i).1.expireDue rest).2) := by
  rw [expireDue, if_pos due]

/-- The queries that are due end before those that more time makes due, whether they end before
this time passes or after it. -/
theorem expireDue_aged (hc : c.Sound) (elapsed : Nat) :
    let first := c.expireDue c.pool.queue
    let later := first.1.aged elapsed
    let second := later.expireDue later.pool.queue
    (c.aged elapsed).expireDue (c.aged elapsed).pool.queue = (second.1, first.2 ++ second.2) := by
  rw [queue_aged hc.kept, hc.kept.queues.queue_eq]
  generalize hd : c.pool.deadlines = entries
  -- The queue of the controller that one expiry leaves behind is the rest of the queue.
  induction entries generalizing c with
  | nil =>
    have hempty : (c.aged elapsed).pool.queue = [] := by
      rw [queue_aged hc.kept, hc.kept.queues.queue_eq, hd]
      rfl
    simp only [Deadlines.keys_nil, expireDue, hempty, List.append_nil]
  | cons e entries ih =>
    obtain ⟨i, delay⟩ := e
    have hqueues := hc.kept.queues
    rw [hd] at hqueues
    by_cases hdelay : delay = 0
    · subst hdelay
      have hdue : c.pool.isDue i = true := by rw [hqueues.isDue_eq]; rfl
      have hlater : (c.aged elapsed).pool.isDue i = true := by
        have helapsed : (c.pool.elapse elapsed).Queues _ := hqueues.elapse
        rw [Deadlines.elapse, if_pos (Nat.zero_le elapsed)] at helapsed
        rw [pool_aged, helapsed.isDue_eq]
        rfl
      have hlink := (hqueues.mem_keys i).mp List.mem_cons_self
      cases found : c.pool.query? i with
      | none => simp [Pool.link?_eq_none found] at hlink
      | some q =>
        have hrest := ih (hc.expire i) (deadlines_expire hc.kept hd found)
        rw [Deadlines.keys_cons, expireDue_cons_of_isDue hdue, expireDue_cons_of_isDue hlater,
          expire_aged hc hd found]
        simp only [hrest, List.append_assoc]
    · have hnone : c.expireDue (Deadlines.keys ((i, delay) :: entries)) = (c, []) := by
        rw [Deadlines.keys_cons, expireDue, hqueues.isDue_eq, decide_eq_false hdelay]
        rfl
      have hqueue : (c.aged elapsed).pool.queue = Deadlines.keys ((i, delay) :: entries) := by
        rw [queue_aged hc.kept, hc.kept.queues.queue_eq, hd]
      simp only [hnone, hqueue, List.nil_append]

theorem advance_advance (hc : c.Sound) (a b : Nat) :
    let first := c.advance a
    let second := first.1.advance b
    (c.advance (a + b)).1 = second.1 ∧
      eventsOf (c.advance (a + b)).2 = eventsOf first.2 ++ eventsOf second.2 := by
  have hends := expireDue_aged (c := c.aged a) (hc.elapse a) b
  rw [aged_aged hc.kept] at hends
  have hstate := congrArg Prod.fst hends
  have hacts := congrArg (fun out => eventsOf out.2) hends
  refine ⟨hstate, ?_⟩
  rw [eventsOf_append] at hacts
  simpa only [advance_eq, eventsOf_append, eventsOf_advanceSweep, List.nil_append] using hacts

variable [Platform π]

/-- Time may pass at once or in two parts: the listener is told the same, the search is called for
the same responses, and the same controller is left, down to its links and delays. -/
theorem receive_in_two_parts (l : σ) (rs : List (Request π)) (frame : Option Frame) (a b : Nat) :
    let c : Controller σ N := ((new l).run rs).1
    let whole := c.receive (a + b) frame
    let first := c.receive a frame
    let second := first.1.receive b none
    whole.1 = second.1 ∧
      eventsOf whole.2 = eventsOf first.2 ++ eventsOf second.2 ∧
      relaysOf whole.2 = relaysOf first.2 ++ relaysOf second.2 := by
  intro c whole first second
  have hc : c.Sound := (sound_new l).run rs
  obtain ⟨hstate, hevents⟩ := advance_advance (hc.respond frame) a b
  refine ⟨hstate, ?_, ?_⟩
  · have hfirst : eventsOf first.2 =
        eventsOf (c.respond frame).2 ++ eventsOf ((c.respond frame).1.advance a).2 :=
      eventsOf_append _ _
    calc
      eventsOf whole.2 = eventsOf (c.respond frame).2 ++
          eventsOf ((c.respond frame).1.advance (a + b)).2 := eventsOf_append _ _
      _ = eventsOf first.2 ++ eventsOf (first.1.advance b).2 := by
        rw [hevents, ← List.append_assoc, ← hfirst]
        rfl
      _ = eventsOf first.2 ++ eventsOf second.2 := rfl
  · -- Only the frame can be relayed, and the second part of the time comes without one.
    rw [relaysOf_receive, relaysOf_receive, relaysOf_receive]
    exact (List.append_nil _).symm

end Controller

end Fieldbus
