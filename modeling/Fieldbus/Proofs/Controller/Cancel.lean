import Fieldbus.Proofs.Controller.Accept
import Fieldbus.Proofs.Controller.Agenda
import Fieldbus.Proofs.Pool.View

namespace Fieldbus

namespace Controller

variable {σ π : Type} {N : Nat} {c : Controller σ N} {i j : Fin N} {q : PendingQuery}

theorem sweepOwns_of_ne {h k : Handle} (own : c.sweepOwns h = true) (ne : k ≠ h) :
    c.sweepOwns k = false := by
  obtain ⟨s, hs, hh⟩ := sweepOwns_iff.mp own
  simp [sweepOwns, hs, hh, Ne.symm ne]

variable [Listener σ]

theorem cancel_eq_ok {c : Controller σ N} {h : Handle} {i : Fin N} {q : PendingQuery}
    (found : c.pool.lookup? h = some (i, q)) (suppress : Bool) :
    (c.cancel h suppress).1 = .ok () := by
  simp only [cancel, found]

variable [Platform π]

/-- Issuing a query and cancelling it at once leaves the controller as it was, down to its links
and delays. -/
theorem cancel_undoes_query (l : σ) (before : List (Request π)) (p : π) (did : Did)
    (frame : Frame) (timeout : Timeout) (tag : UInt32) (h : Handle) :
    let c : Controller σ N := ((new l).run before).1
    let asked := c.query p did frame timeout tag
    asked.result = .ok (some h) →
      asked.controller.cancel h true = (.ok (), c, [.cancelled did h]) := by
  intro c asked accepted
  have hc : c.Sound := (sound_new l).run before
  rcases query_cases c p did frame timeout tag with
    ⟨i, pool, k, _, halloc, idle, _, hr, hout, _⟩ | ⟨_, _, hr⟩
  case inr => exact absurd accepted (hr h)
  cases Option.some.inj (Except.ok.inj (accepted.symm.trans hr))
  obtain ⟨_, _, hfree, _⟩ := hc.kept.alloc halloc
  let q : PendingQuery := .ask ⟨i⟩ (frame.withDid did) k tag
  have hasked : asked.controller = { c with pool := pool.fill i q timeout } := hout
  have hfound : asked.controller.pool.lookup? ⟨i⟩ = some (i, q) := by
    rw [hasked]
    exact Pool.lookup?_of_query? ((Pool.query?_fill_alloc halloc).trans (if_pos rfl)) rfl
  have hown : asked.controller.sweepOwns ⟨i⟩ = false := by
    rw [hasked]
    exact hc.not_sweepOwns_of_free hfree
  have hback : (pool.fill i q timeout).finish i q = c.pool :=
    hc.kept.finish_fill halloc rfl idle
  refine Prod.ext (cancel_eq_ok hfound true) ?_
  rw [cancel_suppressed hfound hown, hasked, finish, hback]
  rfl

/-- A query that was put between two others, and gave part of a delay to the later one. -/
theorem cancel_undoes_query_between :
    let ask (d ms : Nat) : Request Silence :=
      .query .silence (.ofRaw d) Silence.question (.millis (.ofNat ms)) 7
    let c : Controller Silence 3 := ((new .silence).run [ask 1 200, ask 2 500]).1
    let asked := c.query Silence.silence (.ofRaw 3) Silence.question (.millis 300) 9
    c.pool.deadlines = [(0, 200), (1, 300)] ∧
      asked.controller.pool.deadlines = [(0, 200), (2, 100), (1, 200)] ∧
      asked.result = .ok (some ⟨2⟩) ∧
      asked.controller.cancel ⟨2⟩ true = (.ok (), c, [.cancelled (.ofRaw 3) ⟨2⟩]) := by
  intro ask c asked
  have accepted : asked.result = .ok (some ⟨2⟩) := by decide
  refine ⟨by decide, by decide, accepted, ?_⟩
  exact cancel_undoes_query Silence.silence [ask 1 200, ask 2 500] Silence.silence (.ofRaw 3)
    Silence.question (.millis 300) 9 ⟨2⟩ accepted

end Controller

end Fieldbus
