import Fieldbus.Proofs.Controller.Answer

namespace Fieldbus

namespace Controller

variable {σ π : Type} {N : Nat} {c : Controller σ N} {i : Fin N} {q : PendingQuery}
  [Listener σ] [Platform π]

/-- The last query that was accepted into a slot asked this question. -/
def Asks (l : σ) (rs : List (Request π)) (i : Fin N) (question : Frame) : Prop :=
  ∃ first r rest a, rs = first ++ r :: rest ∧
    ((new l : Controller σ N).run first).1.Accepts r question a ∧ a.handle = ⟨i⟩ ∧
    ⟨i⟩ ∉ (issuesOf ((((new l : Controller σ N).run first).1.serve r).1.run rest).2).map Prod.fst

/-- A pending query keeps what its question asks for. -/
theorem Asks.query {l : σ} {rs : List (Request π)} {question : Frame} (h : Asks l rs i question)
    (hq : ((new l : Controller σ N).run rs).1.pool.query? i = some q) :
    q.did = question.did ∧ q.frameType = question.id.frameType ∧
      Correlation.ofQuery? question = some q.correlation := by
  obtain ⟨first, r, rest, a, rfl, haccepts, hh, hunused⟩ := h
  have hc : ((new l : Controller σ N).run first).1.Sound := (sound_new l).run first
  obtain ⟨j, k, placed⟩ := haccepts.placed hc
  have hij : i = j := Fin.ext (Handle.mk.inj (hh.symm.trans placed.slot))
  subst hij
  rw [run_append, run_cons] at hq
  have hd := (hc.serve r).run rest
  have horigin : (PendingQuery.ask ⟨i⟩ question k a.tag).Stems (.ask ⟨i⟩ question k a.tag)
      fun _ => True :=
    ⟨rfl, by simp [PendingQuery.ask]⟩
  obtain ⟨p, hp, stems, _⟩ := run_stems (hc.serve r) rest (fun _ _ _ => trivial) hunused
    ((isPending_iff hd.kept).mpr ⟨i, q, rfl, hq⟩) placed.found horigin
  cases Option.some.inj (hq.symm.trans hp)
  rw [stems.same]
  exact ⟨rfl, rfl, placed.asks⟩

end Controller

/-- A response answers a question: it is sent by a device that was asked, and it carries the
endpoint or the key that was asked for; an error names the key in its argument. -/
def Frame.Answers (answer question : Frame) : Prop :=
  (question.did = .broadcast ∨ answer.did = question.did) ∧
  match question.id.frameType with
  | .command | .telemetry =>
    (answer.id.frameType = .telemetry ∨ answer.id.frameType = .command) ∧
      answer.id.endpoint = question.id.endpoint
  | .writeAttribute | .readAttribute =>
    ∃ key, question.key? = some key ∧
      (answer.id.frameType = .readAttribute ∧ answer.key? = some key ∨
        answer.id.frameType = .writeAttribute ∧
          ∃ code argument, answer.error? = some (code, argument) ∧ argument.toUInt16 = key.raw)

namespace Correlation

variable {answer question : Frame}

theorem accepts_key_iff {key : Key} :
    (Correlation.key key).accepts answer = true ↔
      answer.id.frameType = .readAttribute ∧ answer.key? = some key ∨
        answer.id.frameType = .writeAttribute ∧
          ∃ code argument, answer.error? = some (code, argument) ∧ argument.toUInt16 = key.raw := by
  cases ht : answer.id.frameType with
  | command => simp [accepts, ht]
  | telemetry => simp [accepts, ht]
  | writeAttribute => simp [accepts, ht, Option.any_eq_true]
  | readAttribute => simp [accepts, ht]

theorem accepts_endpoint_iff {endpoint : Endpoint} :
    (Correlation.endpoint endpoint).accepts answer = true ↔
      (answer.id.frameType = .telemetry ∨ answer.id.frameType = .command) ∧
        answer.id.endpoint = endpoint := by
  simp [accepts]

end Correlation

theorem PendingQuery.isAnsweredBy_iff {q : PendingQuery} {answer question : Frame}
    (hd : q.did = question.did) (asks : Correlation.ofQuery? question = some q.correlation) :
    q.isAnsweredBy answer = true ↔ answer.Answers question := by
  have hleft : (q.did.isBroadcast || answer.did = q.did) = true ↔
      question.did = .broadcast ∨ answer.did = question.did := by
    rw [hd, Bool.or_eq_true, Did.isBroadcast_iff, decide_eq_true_iff]
  rw [isAnsweredBy, Bool.and_eq_true, hleft, Frame.Answers]
  refine and_congr_right fun _ => ?_
  unfold Correlation.ofQuery? at asks
  cases ht : question.id.frameType with
  | command =>
    simp only [ht, FrameType.isAttribute, Bool.false_eq_true, ↓reduceIte, Option.some.injEq] at asks
    rw [← asks, Correlation.accepts_endpoint_iff]
  | telemetry =>
    simp only [ht, FrameType.isAttribute, Bool.false_eq_true, ↓reduceIte, Option.some.injEq] at asks
    rw [← asks, Correlation.accepts_endpoint_iff]
  | writeAttribute =>
    simp only [ht, FrameType.isAttribute, ↓reduceIte] at asks
    obtain ⟨key, hkey, hk⟩ := Option.map_eq_some_iff.mp asks
    rw [← hk, Correlation.accepts_key_iff]
    simp [hkey]
  | readAttribute =>
    simp only [ht, FrameType.isAttribute, ↓reduceIte] at asks
    obtain ⟨key, hkey, hk⟩ := Option.map_eq_some_iff.mp asks
    rw [← hk, Correlation.accepts_key_iff]
    simp [hkey]

end Fieldbus
