import Fieldbus.Proofs.Controller.Accept
import Mathlib.Data.Fintype.Option
import Mathlib.Data.Fintype.EquivFin

namespace Fieldbus

/-- The frames that were handed to the platform. -/
def sendsOf (acts : List ControllerAct) : List Frame :=
  acts.filterMap fun
    | .send f => some f
    | _ => none

@[simp] theorem sendsOf_nil : sendsOf [] = [] := rfl

theorem Correlation.ofQuery?_eq_none_iff {query : Frame} :
    ofQuery? query = none ↔ query.id.frameType.isAttribute = true ∧ query.payload.length < 2 := by
  unfold ofQuery?
  split
  next ha => simp [Frame.key?, ha]
  next ha => simp [ha]

namespace Pool

variable {N : Nat} {p : Pool N}

theorem WellKept.alloc?_eq_none_iff (h : p.WellKept) :
    p.alloc? = none ↔ p.pendingCount = N := by
  have hcount := h.freeCount_add_pendingCount
  have hroute := h.frees.route
  rw [alloc?, Option.map_eq_none_iff]
  cases hl : p.freeSlots with
  | nil =>
    rw [hl] at hroute
    rw [freeCount, hl, List.length_nil, Nat.zero_add] at hcount
    exact iff_of_true hroute hcount
  | cons i rest =>
    rw [hl] at hroute
    rw [freeCount, hl, List.length_cons] at hcount
    refine iff_of_false ?_ (by omega)
    rw [hroute.1]
    simp

/-- There are no more queries than addresses, so a full pool leaves none over if it is large. -/
theorem WellKept.lt_of_full (h : p.WellKept) (full : p.pendingCount = N) {d : Did}
    (free : ∀ i q, p.query? i = some q → q.did ≠ d) : N < 64 := by
  have hslots : p.freeSlots = [] := by
    have hcount := h.freeCount_add_pendingCount
    rw [freeCount] at hcount
    exact List.length_eq_zero_iff.mp (by omega)
  have hquery : ∀ i, ∃ q, p.query? i = some q := fun i =>
    Option.ne_none_iff_exists'.mp fun hn => by
      simpa [hslots] using (h.frees.mem i).mpr hn
  choose q hq using hquery
  -- Every slot has an address of its own, and `d` is one more.
  let address : Option (Fin N) → Fin 64 :=
    fun slot => slot.elim ⟨d.raw, d.raw_lt⟩ fun i => ⟨(q i).did.raw, (q i).did.raw_lt⟩
  have hinj : Function.Injective address := by
    intro s t hst
    have hraw := congrArg Fin.val hst
    cases s with
    | none =>
      cases t with
      | none => rfl
      | some j => exact absurd (Did.ext hraw).symm (free j _ (hq j))
    | some i =>
      cases t with
      | none => exact absurd (Did.ext hraw) (free i _ (hq i))
      | some j => rw [h.did_inj i j _ _ (hq i) (hq j) (Did.ext hraw)]
  have hcard := Fintype.card_le_of_injective address hinj
  rw [Fintype.card_option, Fintype.card_fin, Fintype.card_fin] at hcard
  omega

end Pool

/-- A call left nothing behind: the controller is as before, nobody was told anything and the
platform took no frame. -/
structure Exchange.Void {σ π β : Type} {N : Nat} [Platform π] (out : Exchange σ N π β)
    (c : Controller σ N) (p : π) : Prop where
  controller : out.controller = c
  events : eventsOf out.acts = []
  relays : relaysOf out.acts = []
  platform : sendsOf out.acts = [] ∧ out.platform = p ∨
    ∃ frame fault, sendsOf out.acts = [frame] ∧
      Platform.send p frame 0 = (.error fault, out.platform)

namespace Controller

variable {σ π : Type} {N : Nat} {c : Controller σ N} {p : π} {did : Did} {frame : Frame}
  {timeout : Timeout} {tag : UInt32}

/-- A query for the address is pending. -/
def HasQuery (c : Controller σ N) (did : Did) : Prop :=
  ∃ i q, c.pool.query? i = some q ∧ q.did = did

/-- The frame is no question, or it asks a free address for an attribute without a key. -/
def Unaskable (c : Controller σ N) (did : Did) (frame : Frame) : Prop :=
  frame.id.isQuery = false ∨
    ¬ c.HasQuery did ∧ frame.id.frameType.isAttribute = true ∧ frame.payload.length < 2

def Occupied (c : Controller σ N) (did : Did) (frame : Frame) : Prop :=
  frame.id.isQuery = true ∧ c.HasQuery did

def Exhausted (c : Controller σ N) (did : Did) (frame : Frame) : Prop :=
  ¬ c.Unaskable did frame ∧ ¬ c.Occupied did frame ∧ c.pendingCount = N

/-- Nothing but the platform can refuse the query. -/
def Ready (c : Controller σ N) (did : Did) (frame : Frame) : Prop :=
  ¬ c.Unaskable did frame ∧ ¬ c.Occupied did frame ∧ c.pendingCount ≠ N

theorem isDidPending_iff (hk : c.pool.WellKept) : c.isDidPending did = true ↔ c.HasQuery did :=
  hk.contains did

theorem Occupied.not_unaskable (h : c.Occupied did frame) : ¬ c.Unaskable did frame := by
  rintro (hn | ⟨hn, _⟩)
  · simp [h.1] at hn
  · exact hn h.2

variable [Platform π]

/-- What comes of a query that is to be followed. -/
inductive Attempt (c : Controller σ N) (p : π) (did : Did) (frame : Frame) :
    Exchange σ N π (Option Handle) → Prop
  | unaskable (reason : c.Unaskable did frame) :
      Attempt c p did frame ⟨.error .invalidArgument, c, p, []⟩
  | occupied (reason : c.Occupied did frame) : Attempt c p did frame ⟨.error .busy, c, p, []⟩
  | exhausted (reason : c.Exhausted did frame) :
      Attempt c p did frame ⟨.error .poolExhausted, c, p, []⟩
  | unsent (ready : c.Ready did frame) (i : Fin N) (fault : Fault) (p' : π)
      (failed : Platform.send p (frame.withDid did) 0 = (.error fault, p')) :
      Attempt c p did frame ⟨.error fault, c, p', [.slotTaken i, .send (frame.withDid did)]⟩
  | sent (ready : c.Ready did frame) (i : Fin N) (p' : π) (d : Controller σ N)
      (acts : List ControllerAct)
      (done : Platform.send p (frame.withDid did) 0 = (.ok (), p'))
      (fresh : c.isPending ⟨i⟩ = false) (pending : d.isPending ⟨i⟩ = true)
      (once : sendsOf acts = []) :
      Attempt c p did frame
        ⟨.ok (some ⟨i⟩), d, p', .slotTaken i :: .send (frame.withDid did) :: acts⟩

theorem sendsOf_install (c : Controller σ N) (i : Fin N) (query : Frame)
    (correlation : Correlation) (timeout : Timeout) (tag : UInt32) :
    sendsOf (c.install i query correlation timeout tag).2 = [] := by
  cases timeout <;> rfl

theorem query_attempt (hk : c.pool.WellKept) (tracked : timeout ≠ .untracked) :
    Attempt c p did frame (c.query p did frame timeout tag) := by
  by_cases hq : frame.id.isQuery = true
  case neg =>
    have hout : c.query p did frame timeout tag = ⟨.error .invalidArgument, c, p, []⟩ := by
      simp [query, hq]
    rw [hout]
    exact .unaskable (Or.inl (Bool.eq_false_of_not_eq_true hq))
  cases hb : c.isDidPending did with
  | true =>
    have hout : c.query p did frame timeout tag = ⟨.error .busy, c, p, []⟩ := by
      simp [query, hq, tracked, hb]
    rw [hout]
    exact .occupied ⟨hq, (isDidPending_iff hk).mp hb⟩
  | false =>
    have hidle : ¬ c.HasQuery did := by
      rw [← isDidPending_iff hk, hb]
      simp
    cases hc : Correlation.ofQuery? (frame.withDid did) with
    | none =>
      have hout : c.query p did frame timeout tag = ⟨.error .invalidArgument, c, p, []⟩ := by
        simp [query, hq, tracked, hb, hc]
      rw [hout]
      exact .unaskable (Or.inr ⟨hidle, Correlation.ofQuery?_eq_none_iff.mp hc⟩)
    | some correlation =>
      have hasks : ¬ c.Unaskable did frame := by
        rintro (hn | ⟨_, hn⟩)
        · simp [hq] at hn
        · have hnone : Correlation.ofQuery? (frame.withDid did) = none :=
            Correlation.ofQuery?_eq_none_iff.mpr hn
          simp [hc] at hnone
      have hfree : ¬ c.Occupied did frame := fun ho => hidle ho.2
      cases ha : c.pool.alloc? with
      | none =>
        have hout : c.query p did frame timeout tag = ⟨.error .poolExhausted, c, p, []⟩ := by
          simp [query, hq, tracked, hb, hc, ha]
        rw [hout]
        exact .exhausted ⟨hasks, hfree, hk.alloc?_eq_none_iff.mp ha⟩
      | some taken =>
        obtain ⟨i, pool⟩ := taken
        have hroom : c.pendingCount ≠ N := by
          intro hn
          simp [hk.alloc?_eq_none_iff.mpr hn] at ha
        rcases hs : Platform.send p (frame.withDid did) 0 with ⟨sent, p'⟩
        cases sent with
        | error fault =>
          -- The slot was taken before the frame was sent, and goes back to its place.
          have hout : c.query p did frame timeout tag =
              ⟨.error fault, c, p', [.slotTaken i, .send (frame.withDid did)]⟩ := by
            simp [query, hq, tracked, hb, hc, ha, hs, hk.release_alloc ha]
          rw [hout]
          exact .unsent ⟨hasks, hfree, hroom⟩ i fault p' hs
        | ok =>
          obtain ⟨_, _, hslot, _⟩ := hk.alloc ha
          have hout : c.query p did frame timeout tag =
              ⟨.ok (some ⟨i⟩),
                ({ c with pool }.install i (frame.withDid did) correlation timeout tag).1, p',
                .slotTaken i :: .send (frame.withDid did) ::
                  ({ c with pool }.install i (frame.withDid did) correlation timeout tag).2⟩ := by
            simp [query, hq, tracked, hb, hc, ha, hs]
          rw [hout]
          refine .sent ⟨hasks, hfree, hroom⟩ i p' _ _ hs ((isPending_eq_false_iff hk).mpr hslot) ?_
            (sendsOf_install _ i _ correlation timeout tag)
          have hfound : (pool.fill i (.ask ⟨i⟩ (frame.withDid did) correlation tag) timeout).query?
              i = some (.ask ⟨i⟩ (frame.withDid did) correlation tag) :=
            (Pool.query?_fill_alloc ha).trans (if_pos rfl)
          have hlookup := Pool.lookup?_of_query? hfound rfl
          simp [isPending, install, hlookup]

/-- A query fails for one of the stated reasons, and each of them makes it fail. -/
theorem Attempt.result_eq_error_iff {out : Exchange σ N π (Option Handle)}
    (h : Attempt c p did frame out) (fault : Fault) :
    out.result = .error fault ↔
      fault = .invalidArgument ∧ c.Unaskable did frame ∨ fault = .busy ∧ c.Occupied did frame ∨
      fault = .poolExhausted ∧ c.Exhausted did frame ∨
      (Platform.send p (frame.withDid did) 0).1 = .error fault ∧ c.Ready did frame := by
  cases h with
  | unaskable reason =>
    have hoccupied : ¬ c.Occupied did frame := fun ho => ho.not_unaskable reason
    have hexhausted : ¬ c.Exhausted did frame := fun he => he.1 reason
    have hready : ¬ c.Ready did frame := fun hr => hr.1 reason
    simp [reason, hoccupied, hexhausted, hready, eq_comm]
  | occupied reason =>
    have hexhausted : ¬ c.Exhausted did frame := fun he => he.2.1 reason
    have hready : ¬ c.Ready did frame := fun hr => hr.2.1 reason
    simp [reason, reason.not_unaskable, hexhausted, hready, eq_comm]
  | exhausted reason =>
    have hready : ¬ c.Ready did frame := fun hr => hr.2.2 reason.2.2
    simp [reason, reason.1, reason.2.1, hready, eq_comm]
  | unsent ready i fault' p' failed =>
    have hexhausted : ¬ c.Exhausted did frame := fun he => ready.2.2 he.2.2
    simp [ready, ready.1, ready.2.1, hexhausted, failed]
  | sent ready i p' d acts done =>
    have hexhausted : ¬ c.Exhausted did frame := fun he => ready.2.2 he.2.2
    simp [ready.1, ready.2.1, hexhausted, done]

theorem void_of_nil {β : Type} {out : Exchange σ N π β} (hc : out.controller = c)
    (hp : out.platform = p) (ha : out.acts = []) : out.Void c p :=
  ⟨hc, by rw [ha]; rfl, by rw [ha]; rfl, Or.inl ⟨by rw [ha]; rfl, hp⟩⟩

theorem Attempt.void {out : Exchange σ N π (Option Handle)} (h : Attempt c p did frame out)
    {fault : Fault} (failed : out.result = .error fault) : out.Void c p := by
  cases h with
  | unaskable => exact void_of_nil rfl rfl rfl
  | occupied => exact void_of_nil rfl rfl rfl
  | exhausted => exact void_of_nil rfl rfl rfl
  | unsent ready i fault' p' hsend => exact ⟨rfl, rfl, rfl, Or.inr ⟨_, fault', rfl, hsend⟩⟩
  | sent => simp at failed

theorem query_untracked (isQuery : frame.id.isQuery = true) :
    c.query p did frame .untracked tag =
      ⟨(Platform.send p (frame.withDid did) 0).1.map fun _ => none, c,
        (Platform.send p (frame.withDid did) 0).2, [.send (frame.withDid did)]⟩ := by
  simp [query, isQuery]

theorem query_void (hk : c.pool.WellKept) {fault : Fault}
    (failed : (c.query p did frame timeout tag).result = .error fault) :
    (c.query p did frame timeout tag).Void c p := by
  by_cases tracked : timeout = .untracked
  · subst tracked
    by_cases hq : frame.id.isQuery = true
    · rw [query_untracked hq] at failed ⊢
      rcases hs : Platform.send p (frame.withDid did) 0 with ⟨sent, p'⟩
      rw [hs] at failed
      cases sent with
      | error fault' => exact ⟨rfl, rfl, rfl, Or.inr ⟨_, fault', rfl, hs⟩⟩
      | ok => simp [Except.map] at failed
    · exact void_of_nil (by simp [query, hq]) (by simp [query, hq]) (by simp [query, hq])
  · exact (query_attempt hk tracked).void failed

/-- A search fails before its question is asked or because it cannot be asked. -/
theorem startSweep_eq_error {plan : SweepPlan} {goOn : List (Did × Frame) → Bool} {fault : Fault}
    (hk : c.pool.WellKept) (failed : (c.startSweep p plan goOn).result = .error fault) :
    (fault ≠ .poolExhausted ∧ (c.startSweep p plan goOn).Void c p) ∨
    ∃ question, sweepQuery? plan.target = some question ∧ plan.timeout ≠ .untracked ∧
      (c.query p .broadcast question plan.timeout 0).result = .error fault ∧
      (c.startSweep p plan goOn).Void c p := by
  unfold startSweep at failed ⊢
  split at failed
  next hs =>
    rw [if_pos hs]
    exact Or.inl ⟨by cases failed; simp, void_of_nil rfl rfl rfl⟩
  next hs =>
    rw [if_neg hs]
    split at failed
    next ht =>
      rw [if_pos ht]
      exact Or.inl ⟨by cases failed; simp, void_of_nil rfl rfl rfl⟩
    next ht =>
      rw [if_neg ht]
      split at failed
      next hm =>
        simp only [hm]
        split at failed
        next hg =>
          simp only [hg]
          exact Or.inl ⟨by cases failed; simp, void_of_nil rfl rfl rfl⟩
        next question hg =>
          have hasked : Attempt c p .broadcast question
              (c.query p .broadcast question plan.timeout 0) := query_attempt hk ht
          simp only [hg] at failed ⊢
          generalize hout : c.query p .broadcast question plan.timeout 0 = asked at hasked failed ⊢
          cases hr : asked.result with
          | error fault' =>
            have hvoid := hasked.void hr
            simp only [hr] at failed ⊢
            cases failed
            exact Or.inr ⟨question, rfl, ht, by rw [hout, hr],
              ⟨hvoid.controller, hvoid.events, hvoid.relays, hvoid.platform⟩⟩
          | ok handle =>
            cases handle with
            | some handle => simp [hr] at failed
            | none => cases hasked <;> simp at hr
      next hm =>
        simp only [hm]
        split at failed
        next key hg =>
          simp only [hg]
          exact Or.inl ⟨by cases failed; simp, void_of_nil rfl rfl rfl⟩
        next => simp at failed

theorem Sound.not_exhausted (hc : c.Sound) (large : 64 ≤ N) : ¬ c.Exhausted did frame := by
  rintro ⟨hasks, hfree, hfull⟩
  have hq : frame.id.isQuery = true := Bool.eq_true_of_not_eq_false fun hn => hasks (Or.inl hn)
  have hlt := hc.kept.lt_of_full hfull fun i q hi hd => hfree ⟨hq, i, q, hi, hd⟩
  omega

theorem query_eq_poolExhausted (hc : c.Sound) (large : 64 ≤ N)
    (failed : (c.query p did frame timeout tag).result = .error .poolExhausted) :
    (Platform.send p (frame.withDid did) 0).1 = .error .poolExhausted := by
  by_cases tracked : timeout = .untracked
  · subst tracked
    by_cases hq : frame.id.isQuery = true
    · rw [query_untracked hq] at failed
      cases hs : (Platform.send p (frame.withDid did) 0).1 with
      | error fault =>
        rw [hs] at failed
        cases failed
        rfl
      | ok =>
        rw [hs] at failed
        simp [Except.map] at failed
    · simp [query, hq] at failed
  · rcases ((query_attempt hc.kept tracked).result_eq_error_iff _).mp failed with
      ⟨hf, _⟩ | ⟨hf, _⟩ | ⟨_, he⟩ | ⟨hs, _⟩
    · cases hf
    · cases hf
    · exact absurd he (hc.not_exhausted large)
    · exact hs

/-- A tracked query fails for its reasons only, or one frame is sent and its handle is new. -/
structure AnswersQueries (c : Controller σ N) (p : π) (did : Did) (frame : Frame)
    (out : Exchange σ N π (Option Handle)) : Prop where
  fails : ∀ fault, out.result = .error fault ↔
    fault = .invalidArgument ∧ c.Unaskable did frame ∨ fault = .busy ∧ c.Occupied did frame ∨
    fault = .poolExhausted ∧ c.Exhausted did frame ∨
    (Platform.send p (frame.withDid did) 0).1 = .error fault ∧ c.Ready did frame
  sends : c.Ready did frame →
    sendsOf out.acts = [frame.withDid did] ∧ out.platform = (Platform.send p (frame.withDid did) 0).2
  refuses : ¬ c.Ready did frame → sendsOf out.acts = [] ∧ out.platform = p
  succeeds : c.Ready did frame → (Platform.send p (frame.withDid did) 0).1 = .ok () →
    ∃ h, out.result = .ok (some h) ∧ c.isPending h = false ∧ out.controller.isPending h = true

theorem Attempt.answersQueries {out : Exchange σ N π (Option Handle)}
    (h : Attempt c p did frame out) : c.AnswersQueries p did frame out := by
  refine ⟨h.result_eq_error_iff, fun ready => ?_, fun busy => ?_, fun ready done => ?_⟩
  · cases h with
    | unaskable reason => exact absurd reason ready.1
    | occupied reason => exact absurd reason ready.2.1
    | exhausted reason => exact absurd reason.2.2 ready.2.2
    | unsent _ i fault p' failed => exact ⟨rfl, by rw [failed]⟩
    | sent _ i p' d acts done _ _ once => exact ⟨congrArg (_ :: ·) once, by rw [done]⟩
  · cases h with
    | unaskable => exact ⟨rfl, rfl⟩
    | occupied => exact ⟨rfl, rfl⟩
    | exhausted => exact ⟨rfl, rfl⟩
    | unsent ready => exact absurd ready busy
    | sent ready => exact absurd ready busy
  · cases h with
    | unaskable reason => exact absurd reason ready.1
    | occupied reason => exact absurd reason ready.2.1
    | exhausted reason => exact absurd reason.2.2 ready.2.2
    | unsent _ i fault p' failed => simp [failed] at done
    | sent _ i p' d acts _ fresh pending => exact ⟨⟨i⟩, rfl, fresh, pending⟩

variable [Listener σ]

theorem cancel_eq_error {h : Handle} {suppress : Bool} {fault : Fault}
    (failed : (c.cancel h suppress).1 = .error fault) :
    c.pool.lookup? h = none ∧ (c.cancel h suppress).2 = (c, []) := by
  cases hl : c.pool.lookup? h with
  | none => exact ⟨rfl, by simp [cancel, hl]⟩
  | some found => simp [cancel, hl] at failed

/-- The query that a running sweep waits for is pending, so that it can be ended. -/
theorem Sound.stopSweep_eq_error (hc : c.Sound) {fault : Fault}
    (failed : c.stopSweep.1 = .error fault) : c.sweep = none ∧ c.stopSweep.2 = (c, []) := by
  cases hs : c.sweep with
  | none => exact ⟨rfl, by simp [stopSweep, hs]⟩
  | some s =>
    rcases hc.sweep s hs with ⟨hn, _⟩ | ⟨i, q, hh, _, _, hq, _⟩
    · simp [stopSweep, hs, hn] at failed
    · have hlookup := Pool.lookup?_of_query? hq (hc.kept.handle i q hq)
      simp only [stopSweep, hs, hh] at failed
      simp [(cancel_eq_error failed).1] at hlookup

/-- In every reachable state a tracked query fails exactly for the stated reasons, a call that fails
leaves nothing behind, only a sweep that does not run cannot be stopped, and a pool with a slot for
each address is never exhausted. -/
theorem failed_calls_leave_no_trace (l : σ) (before : List (Request π)) :
    let c : Controller σ N := ((new l).run before).1
    (∀ (p : π) did frame timeout tag, timeout ≠ .untracked →
      c.AnswersQueries p did frame (c.query p did frame timeout tag)) ∧
    (∀ (p : π) did frame timeout tag fault,
      (c.query p did frame timeout tag).result = .error fault →
        (c.query p did frame timeout tag).Void c p) ∧
    (∀ (p : π) did endpoint payload timeout fault,
      (c.queryCommand p did endpoint payload timeout).result = .error fault →
        (c.queryCommand p did endpoint payload timeout).Void c p) ∧
    (∀ (p : π) plan goOn fault, (c.startSweep p plan goOn).result = .error fault →
      (c.startSweep p plan goOn).Void c p) ∧
    (∀ h suppress fault, (c.cancel h suppress).1 = .error fault →
      (c.cancel h suppress).2 = (c, [])) ∧
    (∀ fault, c.stopSweep.1 = .error fault → c.isSweeping = false ∧ c.stopSweep.2 = (c, [])) ∧
    (64 ≤ N →
      (∀ did frame, ¬ c.Exhausted did frame) ∧
      (∀ (p : π) did frame timeout tag,
        (c.query p did frame timeout tag).result = .error .poolExhausted →
          (Platform.send p (frame.withDid did) 0).1 = .error .poolExhausted) ∧
      ∀ (p : π) plan goOn, (c.startSweep p plan goOn).result = .error .poolExhausted →
        ∃ question, sweepQuery? plan.target = some question ∧
          (Platform.send p question 0).1 = .error .poolExhausted) := by
  intro c
  have hc : c.Sound := (sound_new l).run before
  refine ⟨fun p did frame timeout tag tracked => (query_attempt hc.kept tracked).answersQueries,
    fun p did frame timeout tag fault => query_void hc.kept, ?_, ?_, ?_, ?_,
    fun large => ⟨?_, ?_, ?_⟩⟩
  · intro p did endpoint payload timeout fault failed
    unfold queryCommand at failed ⊢
    split at failed
    next => exact void_of_nil rfl rfl rfl
    next => exact query_void hc.kept failed
  · intro p plan goOn fault failed
    rcases startSweep_eq_error hc.kept failed with ⟨_, hvoid⟩ | ⟨_, _, _, _, hvoid⟩
    · exact hvoid
    · exact hvoid
  · intro h suppress fault failed
    exact (cancel_eq_error failed).2
  · intro fault failed
    obtain ⟨hs, hout⟩ := hc.stopSweep_eq_error failed
    exact ⟨by simp [isSweeping, hs], hout⟩
  · exact fun did frame => hc.not_exhausted large
  · exact fun p did frame timeout tag => query_eq_poolExhausted hc large
  · intro p plan goOn failed
    rcases startSweep_eq_error hc.kept failed with ⟨hne, _⟩ | ⟨question, hg, _, hasked, _⟩
    · exact absurd rfl hne
    · obtain ⟨hwith, _⟩ := withDid_sweepQuery hg
      have hsend := query_eq_poolExhausted hc large hasked
      rw [hwith] at hsend
      exact ⟨question, hg, hsend⟩

end Controller

end Fieldbus
