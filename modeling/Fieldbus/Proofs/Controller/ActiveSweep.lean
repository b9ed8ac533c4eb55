import Fieldbus.Proofs.Controller.Clock
import Fieldbus.Proofs.Controller.Search
import Fieldbus.Proofs.Controller.SweepTrace

namespace Fieldbus

/-- A search that asks: what it looks for, and the broadcast query that it waits for. -/
structure Search where
  plan : SweepPlan
  goOn : List (Did × Frame) → Bool
  question : Frame
  handle : Handle

namespace Search

/-- The running search after these calls. -/
def sweep (x : Search) (calls : List (Did × Frame)) : Sweep where
  plan := x.plan
  goOn := x.goOn
  handle := some x.handle
  remaining := none
  relayed := calls.reverse

def request {π : Type} (x : Search) (p : π) : Request π := .startSweep p x.plan x.goOn

/-- The calls that a search makes: one for each device, all with signs of what it looks for. -/
structure Relays (x : Search) (calls : List (Did × Frame)) : Prop where
  once : (calls.map Prod.fst).Nodup
  wanted : ∀ r ∈ calls, r.1 = r.2.did ∧ r.2.id.isResponse = true ∧ x.plan.Wants r.2

/-- What ends a search: an answer not to go on, no time left, or the end of its query. -/
def Ends (x : Search) (calls : List (Did × Frame)) (acts : List ControllerAct) : Prop :=
  ¬ GoesOn x.goOn calls ∨ x.handle ∈ expiriesOf acts ∨ x.handle ∈ cancelsOf acts

variable {x : Search} {calls : List (Did × Frame)}

theorem relays_nil (x : Search) : x.Relays [] := ⟨List.nodup_nil, by simp⟩

theorem Relays.concat (h : x.Relays calls) {f : Frame} (first : f.did ∉ calls.map Prod.fst)
    (response : f.id.isResponse = true) (wanted : x.plan.Wants f) :
    x.Relays (calls ++ [(f.did, f)]) := by
  constructor
  · rw [List.map_append, List.nodup_append]
    refine ⟨h.once, by simp, fun a ha b hb hab => ?_⟩
    rw [List.map_singleton, List.mem_singleton] at hb
    rw [hab, hb] at ha
    exact first ha
  · intro r hr
    rcases List.mem_append.mp hr with hr | hr
    · exact h.wanted r hr
    · rw [List.mem_singleton.mp hr]
      exact ⟨rfl, response, wanted⟩

section Ends

variable {a b : List ControllerAct}

theorem Ends.append_right (h : x.Ends calls a) (b : List ControllerAct) :
    x.Ends calls (a ++ b) := by
  rw [Ends, expiriesOf_append, cancelsOf_append, List.mem_append, List.mem_append]
  exact h.imp_right fun h => h.imp Or.inl Or.inl

theorem Ends.append_left (h : x.Ends calls b) (a : List ControllerAct) :
    x.Ends calls (a ++ b) := by
  rw [Ends, expiriesOf_append, cancelsOf_append, List.mem_append, List.mem_append]
  exact h.imp_right fun h => h.imp Or.inr Or.inr

theorem not_ends_append {more : List (Did × Frame)} (ha : ¬ x.Ends calls a)
    (hb : ¬ x.Ends more b) : ¬ x.Ends more (a ++ b) := by
  rw [Ends, expiriesOf_append, cancelsOf_append, List.mem_append, List.mem_append]
  rintro (hg | (he | he) | (hm | hm))
  · exact hb (Or.inl hg)
  · exact ha (Or.inr (Or.inl he))
  · exact hb (Or.inr (Or.inl he))
  · exact ha (Or.inr (Or.inr hm))
  · exact hb (Or.inr (Or.inr hm))

end Ends

end Search

/-- Whether a request ends the search that waits for this query, whatever has come of it. -/
def Request.drops {π : Type} (r : Request π) (h : Handle) : Prop :=
  match r with
  | .cancel g _ => g = h
  | .cancelAll _ => True
  | .stopSweep => True
  | _ => False

namespace Controller

variable {σ π : Type} {N : Nat} {c d : Controller σ N} {x : Search} {i : Fin N}
  {q : PendingQuery} {calls : List (Did × Frame)} {acts : List ControllerAct}

/-- A search goes on: its broadcast query is pending and it has made these calls. -/
structure Searching (c : Controller σ N) (x : Search) (i : Fin N) (q : PendingQuery)
    (calls : List (Did × Frame)) : Prop where
  slot : x.handle = ⟨i⟩
  sweep : c.sweep = some (x.sweep calls)
  found : c.pool.query? i = some q
  did : q.did = .broadcast
  question : sweepQuery? x.plan.target = some x.question
  asks : Correlation.ofQuery? x.question = some q.correlation
  noted : ∀ r ∈ calls, q.notified.contains r.1 = true
  relays : x.Relays calls
  goesOn : GoesOn x.goOn calls

/-- Nothing is left of a search and its query. -/
structure Released (d : Controller σ N) (i : Fin N) : Prop where
  sweep : d.sweep = none
  free : i ∈ d.pool.freeSlots
  unqueued : i ∉ d.pool.queue
  address : d.isDidPending .broadcast = false

/-- What has become of a search that has made these calls. -/
inductive Pursued (d : Controller σ N) (x : Search) (i : Fin N) (calls : List (Did × Frame))
    (acts : List ControllerAct) : Prop
  | lasts (q : PendingQuery) (on : ¬ x.Ends calls acts) (searching : d.Searching x i q calls)
  | ended (ends : x.Ends calls acts) (relays : x.Relays calls) (released : d.Released i)

theorem mem_queue_iff (hk : c.pool.WellKept) : i ∈ c.pool.queue ↔ (c.pool.link? i).isSome := by
  rw [hk.queues.queue_eq, hk.queues.mem_keys]

theorem released_of (hk : d.pool.WellKept) (sweep : d.sweep = none)
    (gone : d.pool.query? i = none) (address : d.isDidPending .broadcast = false) :
    d.Released i where
  sweep := sweep
  free := (hk.frees.mem i).mpr gone
  unqueued := by
    rw [mem_queue_iff hk, Pool.link?_eq_none gone]
    simp
  address := address

/-- When its broadcast query ends with a sweep, everything it held is free again. -/
theorem released_of_finish (hd : d.pool.WellKept) (did : q.did = .broadcast)
    (pool : d.pool = c.pool.finish i q) (sweep : d.sweep = none) : d.Released i := by
  refine released_of hd sweep ?_ ?_
  · rw [pool, Pool.query?_finish, if_pos rfl]
  · rw [isDidPending, pool, Pool.pending_finish, DidSet.contains_erase, did]
    simp

theorem Released.isPending (h : d.Released i) (hk : d.pool.WellKept) : d.isPending ⟨i⟩ = false :=
  (isPending_eq_false_iff hk).mpr ((hk.frees.mem i).mp h.free)

namespace Searching

theorem sweepOwns (h : c.Searching x i q calls) : c.sweepOwns ⟨i⟩ = true :=
  sweepOwns_iff.mpr ⟨_, h.sweep, by rw [← h.slot]; rfl⟩

theorem handle (h : c.Searching x i q calls) (hk : c.pool.WellKept) : q.handle = x.handle := by
  rw [hk.handle i q h.found, h.slot]

theorem isPending (h : c.Searching x i q calls) (hk : c.pool.WellKept) :
    c.isPending x.handle = true :=
  (isPending_iff hk).mpr ⟨i, q, h.slot, h.found⟩

/-- A sweep waits for one query only. -/
theorem eq_of_sweepOwns (h : c.Searching x i q calls) {j : Fin N}
    (own : c.sweepOwns ⟨j⟩ = true) : j = i := by
  obtain ⟨s, hs, hh⟩ := sweepOwns_iff.mp own
  cases Option.some.inj (h.sweep.symm.trans hs)
  have hslot : x.handle = ⟨j⟩ := Option.some.inj hh
  exact Fin.ext (Handle.mk.inj (hslot.symm.trans h.slot))

theorem not_mem_calls (h : c.Searching x i q calls) {d : Did}
    (first : q.notified.contains d = false) : d ∉ calls.map Prod.fst := by
  intro hm
  obtain ⟨r, hr, rfl⟩ := List.mem_map.mp hm
  exact Bool.false_ne_true (first.symm.trans (h.noted r hr))

theorem wants_iff (h : c.Searching x i q calls) {f : Frame} (response : f.id.isResponse = true) :
    x.plan.Wants f ↔ q.correlation.accepts f = true ∧ (x.sweep calls).admits f = true :=
  Sweep.wants_iff (s := x.sweep calls) h.question h.asks response

/-- What concerns other queries leaves a search as it is. -/
theorem lasts (h : c.Searching x i q calls) (sweep : d.sweep = c.sweep)
    (found : d.pool.query? i = some q) (relays : relaysOf acts = [])
    (expiries : x.handle ∉ expiriesOf acts) (cancels : x.handle ∉ cancelsOf acts) :
    d.Pursued x i (calls ++ relaysOf acts) acts := by
  rw [relays, List.append_nil]
  refine .lasts q ?_ ⟨h.slot, sweep.trans h.sweep, found, h.did, h.question, h.asks, h.noted,
    h.relays, h.goesOn⟩
  rintro (hg | he | hm)
  · exact hg h.goesOn
  · exact expiries he
  · exact cancels hm

section Step

variable [Listener σ] {f : Frame}

theorem cancel (h : c.Searching x i q calls) {g : Handle} {suppress : Bool}
    {j : Fin N} {r : PendingQuery} (found : c.pool.lookup? g = some (j, r))
    (hd : (c.cancel g suppress).2.1.Sound) :
    (c.cancel g suppress).2.1.Pursued x i (calls ++ relaysOf (c.cancel g suppress).2.2)
      (c.cancel g suppress).2.2 := by
  obtain ⟨rfl, hr, _⟩ := Pool.query?_of_lookup? found
  have hcase := cancelling found suppress
  generalize (c.cancel ⟨j⟩ suppress).2 = out at hcase hd ⊢
  by_cases hji : j = i
  · subst hji
    cases Option.some.inj (hr.symm.trans h.found)
    cases hcase with
    | swept own =>
      refine .ended (Or.inr (Or.inr ?_)) ?_ (released_of_finish hd.kept h.did rfl rfl)
      · rw [h.slot]
        exact List.mem_singleton_self _
      · rw [show relaysOf _ = [] from rfl, List.append_nil]
        exact h.relays
    | suppressed own => exact absurd (own.symm.trans h.sweepOwns) Bool.false_ne_true
    | told own => exact absurd (own.symm.trans h.sweepOwns) Bool.false_ne_true
  · have hkept : (c.finish j r).pool.query? i = some q := by
      change (c.pool.finish j r).query? i = some q
      rw [Pool.query?_finish, if_neg (Ne.symm hji), h.found]
    have hother : x.handle ∉ [(⟨j⟩ : Handle)] := by
      rw [h.slot, List.mem_singleton]
      exact fun hh => hji (Fin.ext (Handle.mk.inj hh)).symm
    cases hcase with
    | swept own => exact absurd (h.eq_of_sweepOwns own) hji
    | suppressed => exact h.lasts rfl hkept rfl List.not_mem_nil hother
    | told => exact h.lasts rfl hkept rfl List.not_mem_nil hother

theorem expire (h : c.Searching x i q calls) (hc : c.Sound) {j : Fin N} {r : PendingQuery}
    (found : c.pool.query? j = some r) (hd : (c.expire j).1.Sound) :
    (c.expire j).1.Pursued x i (calls ++ relaysOf (c.expire j).2) (c.expire j).2 := by
  have hhandle := hc.kept.handle j r found
  have hcase := expiring found
  generalize c.expire j = out at hcase hd ⊢
  by_cases hji : j = i
  · subst hji
    cases Option.some.inj (found.symm.trans h.found)
    cases hcase with
    | swept own =>
      refine .ended (Or.inr (Or.inl ?_)) ?_ (released_of_finish hd.kept h.did rfl rfl)
      · rw [← h.handle hc.kept]
        exact List.mem_singleton_self _
      · rw [show relaysOf _ = [] from rfl, List.append_nil]
        exact h.relays
    | told own =>
      rw [hhandle] at own
      exact absurd (own.symm.trans h.sweepOwns) Bool.false_ne_true
  · have hkept : (c.finish j r).pool.query? i = some q := by
      change (c.pool.finish j r).query? i = some q
      rw [Pool.query?_finish, if_neg (Ne.symm hji), h.found]
    have hother : x.handle ∉ [r.handle] := by
      rw [h.slot, hhandle, List.mem_singleton]
      exact fun hh => hji (Fin.ext (Handle.mk.inj hh)).symm
    cases hcase with
    | swept own =>
      rw [hhandle] at own
      exact absurd (h.eq_of_sweepOwns own) hji
    | told => exact h.lasts rfl hkept rfl hother List.not_mem_nil

/-- A sweep takes the first answer of a device to its query. -/
theorem spread (h : c.Searching x i q calls) (hc : c.Sound) {j : Fin N} {r : PendingQuery}
    (found : c.broadcastFor? f = some (j, r)) (first : r.notified.contains f.did = false)
    (response : f.id.isResponse = true) (hd : (c.spread j r f).1.Sound) :
    (c.spread j r f).1.Pursued x i (calls ++ relaysOf (c.spread j r f).2) (c.spread j r f).2 := by
  obtain ⟨hr, hdid, answer⟩ := query?_of_broadcastFor? found
  obtain rfl : j = i := hc.kept.did_inj j i r q hr h.found (hdid.trans h.did.symm)
  obtain rfl : r = q := Option.some.inj (hr.symm.trans h.found)
  have howns : c.sweepOwns r.handle = true := by
    rw [hc.kept.handle j r hr]
    exact h.sweepOwns
  have hnoted : (c.note j r f.did).pool.query? j = some (r.note f.did) := by
    change (c.pool.setQuery j (r.note f.did)).query? j = _
    rw [Pool.query?_setQuery hr, if_pos rfl]
  have hset : ∀ e ∈ calls, (r.note f.did).notified.contains e.1 = true := fun e he => by
    rw [PendingQuery.note, DidSet.contains_insert, h.noted e he, Bool.true_or]
  have hrelays : (x.sweep calls).admits f = true → x.Relays (calls ++ [(f.did, f)]) := by
    intro wanted
    rw [PendingQuery.isAnsweredBy, Bool.and_eq_true] at answer
    exact h.relays.concat (h.not_mem_calls first) response
      ((h.wants_iff response).mpr ⟨answer.2, wanted⟩)
  have hcase := spreading c j r f
  generalize c.spread j r f = out at hcase hd ⊢
  cases hcase with
  | kept own => exact absurd (own.symm.trans howns) Bool.false_ne_true
  | halted own => exact absurd (own.symm.trans howns) Bool.false_ne_true
  | unwanted s own sweep unwanted =>
    rw [show relaysOf [] = [] from rfl, List.append_nil]
    refine .lasts (r.note f.did) ?_ ⟨h.slot, h.sweep, hnoted, hdid, h.question, h.asks, hset,
      h.relays, h.goesOn⟩
    simp [Search.Ends, h.goesOn, cancelsOf]
  | relayed s own sweep wanted go =>
    cases Option.some.inj (h.sweep.symm.trans sweep)
    have hgo : GoesOn x.goOn (calls ++ [(f.did, f)]) := goesOn_concat.mpr ⟨h.goesOn, go⟩
    have hsweep : ((x.sweep calls).relay f).2 = x.sweep (calls ++ [(f.did, f)]) := by
      simp [Search.sweep, Sweep.relay]
    refine .lasts (r.note f.did) ?_ ⟨h.slot, congrArg some hsweep, hnoted, hdid, h.question,
      h.asks, ?_, hrelays wanted, hgo⟩
    · rintro (hn | he | hm)
      · exact hn hgo
      · simp [expiriesOf] at he
      · simp [cancelsOf] at hm
    · intro e he
      rcases List.mem_append.mp he with he | he
      · exact hset e he
      · rw [List.mem_singleton.mp he, PendingQuery.note, DidSet.contains_insert]
        simp
  | stopped s own sweep wanted stop =>
    cases Option.some.inj (h.sweep.symm.trans sweep)
    have hstop : ¬ GoesOn x.goOn (calls ++ [(f.did, f)]) := fun hg =>
      Bool.false_ne_true (stop.symm.trans (goesOn_concat.mp hg).2)
    have hfinish : (c.pool.setQuery j (r.note f.did)).finish j (r.note f.did) =
        c.pool.finish j r := c.pool.finish_setQuery j rfl
    exact .ended (Or.inl hstop) (hrelays wanted) (released_of_finish hd.kept hdid hfinish rfl)

end Step

end Searching

variable [Listener σ] [Platform π] {may : Licence}

theorem Step.searching (h : Step may c acts d) (hc : c.Sound)
    (hears : ∀ f, may.hear f → f.id.isResponse = true) (hx : c.Searching x i q calls) :
    d.Pursued x i (calls ++ relaysOf acts) acts := by
  have hd := h.sound hc
  cases h with
  | skip refused silent =>
    obtain rfl := refused.eq hc.kept
    exact hx.lasts rfl hx.found (relaysOf_silent silent) (by simp [expiriesOf_silent silent])
      (by simp [cancelsOf_silent silent])
  | clock now => exact hx.lasts rfl hx.found rfl List.not_mem_nil List.not_mem_nil
  | accept j pool query correlation timeout tag alloc =>
    obtain ⟨_, _, hfree, _⟩ := hc.kept.alloc alloc
    have hij : i ≠ j := by
      rintro rfl
      simp [hx.found] at hfree
    refine hx.lasts rfl ?_ (relaysOf_install ..) (by simp [expiriesOf_install])
      (by simp [cancelsOf_install])
    exact (Pool.query?_fill_alloc alloc).trans ((if_neg hij).trans hx.found)
  | search j pool query correlation plan goOn alloc idle asks resting =>
    simp [hx.sweep] at resting
  | watch plan goOn remaining resting => simp [hx.sweep] at resting
  | unwatch s watching passive =>
    cases Option.some.inj (hx.sweep.symm.trans watching)
    simp [Search.sweep] at passive
  | cancel g suppress j r found => exact hx.cancel found hd
  | observe f =>
    rw [observe_of_sweepOwns hc.sweep hx.sweepOwns]
    exact hx.lasts rfl hx.found rfl List.not_mem_nil List.not_mem_nil
  | conclude f j r found =>
    obtain ⟨unicast, hr, hdid, _⟩ := query?_of_unicastFor? found
    have hij : i ≠ j := by
      rintro rfl
      cases Option.some.inj (hr.symm.trans hx.found)
      exact unicast (hdid.symm.trans hx.did)
    refine hx.lasts rfl ?_ rfl List.not_mem_nil List.not_mem_nil
    exact (Pool.query?_finish ..).trans ((if_neg hij).trans hx.found)
  | spread f j r found first heard => exact hx.spread hc found first (hears f heard) hd
  | orphan f => exact hx.lasts rfl hx.found rfl List.not_mem_nil List.not_mem_nil
  | wane elapsed =>
    have hidle : c.advanceSweep elapsed = (c, []) := by
      simp [advanceSweep, hx.sweep, Search.sweep]
    rw [hidle]
    exact hx.lasts rfl hx.found rfl List.not_mem_nil List.not_mem_nil
  | elapse ms =>
    refine hx.lasts rfl ?_ rfl List.not_mem_nil List.not_mem_nil
    exact ((Pool.sameQueries_elapse c.pool ms).query? i).trans hx.found
  | expire j r found => exact hx.expire hc found hd

/-- After the end of a search nothing is relayed and all stays free, unless a query is accepted. -/
theorem Steps.released (h : Steps may c acts d) (hc : c.Sound)
    (keeps : ¬ may.accept ∨
      ⟨i⟩ ∉ (issuesOf acts).map Prod.fst ∧ d.sweepOwns ⟨i⟩ = true)
    (hr : c.Released i) : d.Released i ∧ relaysOf acts = [] := by
  have hd := h.sound hc
  rcases keeps with hn | ⟨unused, own⟩
  · refine ⟨?_, h.relaysOf_eq_nil hc hn hr.sweep⟩
    have hfree : ¬ d.HasQuery .broadcast := h.not_hasQuery hc hn fun hq => by
      rw [← isDidPending_iff hc.kept, hr.address] at hq
      exact Bool.false_ne_true hq
    have hgone := (h.vacant hc (hr.isPending hc.kept) (by simp [h.issuesOf_eq_nil hc hn])).1
    rw [← isDidPending_iff hd.kept, Bool.not_eq_true] at hfree
    exact released_of hd.kept ((h.continues hc hn).sweep_eq_none hr.sweep)
      ((isPending_eq_false_iff hd.kept).mp hgone) hfree
  · -- The sweep would wait for a query that is gone.
    have hgone := (h.vacant hc (hr.isPending hc.kept) unused).1
    rw [isPending_eq_false_iff hd.kept] at hgone
    exact absurd ((hd.not_sweepOwns_of_free hgone).symm.trans own) Bool.false_ne_true

/-- Step by step a search goes on until it ends; a request that may accept queries does not end it. -/
theorem Steps.searching (h : Steps may c acts d) (hc : c.Sound)
    (hears : ∀ f, may.hear f → f.id.isResponse = true) (hx : c.Searching x i q calls)
    (keeps : ¬ may.accept ∨ ⟨i⟩ ∉ (issuesOf acts).map Prod.fst ∧ d.sweepOwns ⟨i⟩ = true) :
    d.Pursued x i (calls ++ relaysOf acts) acts := by
  induction h generalizing q calls with
  | refl c => exact hx.lasts rfl hx.found rfl List.not_mem_nil List.not_mem_nil
  | cons first rest ih =>
    have hm := first.sound hc
    have hlater := keeps.imp_right fun k => And.intro (notMem_issuesOf_append.mp k.1).2 k.2
    rw [relaysOf_append, ← List.append_assoc]
    cases first.searching hc hears hx with
    | lasts r on searching =>
      cases ih hm searching hlater with
      | lasts r' on' searching' => exact .lasts r' (Search.not_ends_append on on') searching'
      | ended ends relays released => exact .ended (ends.append_left _) relays released
    | ended ends relays released =>
      obtain ⟨hd, quiet⟩ := rest.released hm hlater released
      rw [quiet, List.append_nil]
      exact .ended (ends.append_right _) relays hd

section Serve

/-- The handle of a pending query is not given away. -/
theorem not_isPending_of_mem_issuesOf (hc : c.Sound) {r : Request π} {h : Handle}
    (hm : h ∈ (issuesOf (c.serve r).2).map Prod.fst) : c.isPending h = false := by
  by_cases hn : (c.licence r).accept
  case neg => simp [(serve_steps c r).issuesOf_eq_nil hc hn] at hm
  cases r with
  | query p did frame timeout tag =>
    rcases query_cases c p did frame timeout tag with
      ⟨j, _, _, _, halloc, _, _, _, _, hacts⟩ | ⟨_, hacts, _⟩
    · obtain ⟨_, _, hfree, _⟩ := hc.kept.alloc halloc
      rw [serve, hacts, issuesOf_append, issuesOf_install] at hm
      obtain rfl : h = ⟨j⟩ := by simpa [issuesOf] using hm
      exact (isPending_eq_false_iff hc.kept).mpr hfree
    · simp [serve, issuesOf_silent hacts] at hm
  | startSweep p plan goOn =>
    rcases startSweep_cases c p plan goOn with
      ⟨_, j, _, _, _, _, _, _, halloc, _, _, _, _, hacts⟩ | ⟨_, _, _, _, hacts⟩ | ⟨_, hacts, _⟩
    · obtain ⟨_, _, hfree, _⟩ := hc.kept.alloc halloc
      rw [serve, hacts, issuesOf_append, issuesOf_append, issuesOf_install] at hm
      obtain rfl : h = ⟨j⟩ := by simpa [issuesOf] using hm
      exact (isPending_eq_false_iff hc.kept).mpr hfree
    · simp [serve, hacts, issuesOf] at hm
    · simp [serve, issuesOf_silent hacts] at hm
  | cancel => exact hn.elim
  | cancelAll => exact hn.elim
  | receive => exact hn.elim
  | poll => exact hn.elim
  | stopSweep => exact hn.elim

/-- The handle of a search that goes on is not given away. -/
theorem serve_unused (hc : c.Sound) (hx : c.Searching x i q calls) (r : Request π) :
    x.handle ∉ (issuesOf (c.serve r).2).map Prod.fst := fun hm =>
  Bool.false_ne_true ((not_isPending_of_mem_issuesOf hc hm).symm.trans (hx.isPending hc.kept))

/-- A request that may accept queries does not end a search. -/
theorem serve_keeps (hc : c.Sound) (hx : c.Searching x i q calls) (r : Request π) :
    ¬ (c.licence r).accept ∨ ⟨i⟩ ∉ (issuesOf (c.serve r).2).map Prod.fst ∧
      (c.serve r).1.sweepOwns ⟨i⟩ = true := by
  have hunused : ⟨i⟩ ∉ (issuesOf (c.serve r).2).map Prod.fst := hx.slot ▸ serve_unused hc hx r
  cases r with
  | query p did frame timeout tag =>
    exact Or.inr ⟨hunused, (sweepOwns_of_sweep (sweep_query ..) _).trans hx.sweepOwns⟩
  | startSweep p plan goOn =>
    refine Or.inr ⟨hunused, (sweepOwns_of_sweep ?_ _).trans hx.sweepOwns⟩
    simp [serve, startSweep, isSweeping, hx.sweep]
  | cancel => exact Or.inl id
  | cancelAll => exact Or.inl id
  | receive => exact Or.inl id
  | poll => exact Or.inl id
  | stopSweep => exact Or.inl id

/-- A request lets a search go on, or ends it and frees everything it held. -/
theorem serve_searching (hc : c.Sound) (hx : c.Searching x i q calls) (r : Request π) :
    (c.serve r).1.Pursued x i (calls ++ relaysOf (c.serve r).2) (c.serve r).2 :=
  (serve_steps c r).searching hc (fun _ hf => hf.2) hx (serve_keeps hc hx r)

/-- However a search is given up, it is over when the request is answered. -/
theorem serve_drops (hc : c.Sound) (hx : c.Searching x i q calls) {r : Request π}
    (drops : r.drops x.handle) : (c.serve r).1.Released i := by
  have hlookup := Pool.lookup?_of_query? hx.found (hc.kept.handle i q hx.found)
  have hcancel : ∀ suppress, (c.cancel x.handle suppress).2.1.pool.query? i = none := by
    intro suppress
    rw [hx.slot, pool_cancel hlookup, Pool.query?_finish, if_pos rfl]
  have hgone : (c.serve r).1.pool.query? i = none := by
    cases r with
    | cancel g suppress =>
      obtain rfl : g = x.handle := drops
      exact hcancel suppress
    | cancelAll suppress =>
      exact query?_cancelSlots hc.kept suppress _ i (Or.inl (List.mem_finRange i))
    | stopSweep =>
      simp only [serve, stopSweep, hx.sweep, Search.sweep]
      exact hcancel true
    | query => exact drops.elim
    | receive => exact drops.elim
    | poll => exact drops.elim
    | startSweep => exact drops.elim
  cases serve_searching hc hx r with
  | lasts r' on searching => simp [searching.found] at hgone
  | ended ends relays released => exact released

/-- No listener is told of the query of a search, while it goes on and afterwards. -/
theorem run_searching (hc : c.Sound) (hx : c.Searching x i q calls) (rs : List (Request π))
    (unused : x.handle ∉ (issuesOf (c.run rs).2).map Prod.fst) :
    ((∃ r, (c.run rs).1.Searching x i r (calls ++ relaysOf (c.run rs).2)) ∨
      (c.run rs).1.isPending x.handle = false) ∧
    ∀ e ∈ eventsOf (c.run rs).2, e.handle ≠ some x.handle := by
  induction rs generalizing c q calls with
  | nil => exact ⟨Or.inl ⟨q, by simpa [run, relaysOf] using hx⟩, by simp [run]⟩
  | cons r rest ih =>
    rw [run_cons, notMem_issuesOf_append] at unused
    have hfirst : ∀ e ∈ eventsOf (c.serve r).2, e.handle ≠ some x.handle := by
      intro e he hh
      rcases serve_genuine hc r he with ⟨g, _, hg, _, own⟩ | ⟨_, hnone, _⟩
      · cases Option.some.inj (hg.symm.trans hh)
        rw [hx.slot, hx.sweepOwns] at own
        exact Bool.false_ne_true own.symm
      · simp [hnone] at hh
    have hm := hc.serve r
    suffices hrest : ((∃ r', ((c.serve r).1.run rest).1.Searching x i r'
          (calls ++ relaysOf (c.serve r).2 ++ relaysOf ((c.serve r).1.run rest).2)) ∨
        ((c.serve r).1.run rest).1.isPending x.handle = false) ∧
        ∀ e ∈ eventsOf ((c.serve r).1.run rest).2, e.handle ≠ some x.handle by
      rw [run_cons, relaysOf_append, eventsOf_append, ← List.append_assoc]
      refine ⟨hrest.1, fun e he => ?_⟩
      rcases List.mem_append.mp he with he | he
      · exact hfirst e he
      · exact hrest.2 e he
    cases serve_searching hc hx r with
    | lasts r' on searching => exact ih hm searching unused.2
    | ended ends relays released =>
      rw [hx.slot] at unused ⊢
      obtain ⟨hd, hsilent⟩ := run_vacant hm (released.isPending hm.kept) rest unused.2
      exact ⟨Or.inr hd, hsilent⟩

end Serve

section Start

variable {p : π}

/-- A request starts a search, which then waits for its query. -/
structure Starts (c : Controller σ N) (p : π) (x : Search) : Prop where
  accepted : (c.startSweep p x.plan x.goOn).result = .ok ()
  question : sweepQuery? x.plan.target = some x.question
  owns : (c.startSweep p x.plan x.goOn).controller.sweepOwns x.handle = true

/-- A search that starts holds a slot with its question and has not heard of any device. -/
theorem Starts.searching (h : c.Starts p x) :
    (∃ i q, (c.serve (x.request p)).1.Searching x i q [] ∧ q.notified = .empty) ∧
      .issued .broadcast x.handle x.plan.timeout x.question ∈ (c.serve (x.request p)).2 ∧
      issuesOf (c.serve (x.request p)).2 = [(x.handle, x.plan.timeout)] := by
  rcases startSweep_cases c p x.plan x.goOn with
    ⟨question, i, pool, k, _, _, _, hg, halloc, _, hasks, _, hout, hacts⟩ | ⟨_, _, _, hout, _⟩ |
    ⟨_, _, hr⟩
  · cases Option.some.inj (h.question.symm.trans hg)
    have howns := h.owns
    rw [hout] at howns
    obtain ⟨s, hs, hh⟩ := sweepOwns_iff.mp howns
    cases Option.some.inj hs
    have hslot : x.handle = ⟨i⟩ := (Option.some.inj hh).symm
    have hdid := (withDid_sweepQuery h.question).2
    simp only [serve, Search.request, hout, hacts]
    refine ⟨⟨i, .ask ⟨i⟩ x.question k 0, ⟨hslot, ?_, ?_, hdid, h.question, hasks, by simp,
      x.relays_nil, goesOn_nil x.goOn⟩, rfl⟩, ?_, ?_⟩
    · rw [Search.sweep, hslot]
      rfl
    · exact (Pool.query?_fill_alloc halloc).trans (if_pos rfl)
    · rw [hslot, ← hdid]
      cases x.plan.timeout <;> simp [install]
    · rw [issuesOf_append, issuesOf_append, issuesOf_install, hslot]
      rfl
  · have howns := h.owns
    simp [hout, sweepOwns] at howns
  · exact absurd h.accepted hr

/-- A search was started in a run and has made these calls since. -/
def Begun (l : σ) (rs : List (Request π)) (x : Search) (calls : List (Did × Frame)) : Prop :=
  ∃ first p rest, rs = first ++ x.request p :: rest ∧
    ((new l : Controller σ N).run first).1.Starts p x ∧
    let later := (((new l : Controller σ N).run first).1.serve (x.request p)).1.run rest
    x.handle ∉ (issuesOf later.2).map Prod.fst ∧ calls = relaysOf later.2

omit [Listener σ] in
theorem exists_starts {plan : SweepPlan} {goOn : List (Did × Frame) → Bool} {s : Sweep}
    (resting : c.sweep = none) (running : (c.startSweep p plan goOn).controller.sweep = some s)
    (active : s.plan.mode = .active) : ∃ question h, c.Starts p ⟨plan, goOn, question, h⟩ := by
  rcases startSweep_cases c p plan goOn with
    ⟨question, i, pool, k, _, _, _, hg, _, _, _, hr, hout, _⟩ | ⟨_, hm, _, hout, _⟩ | ⟨hout, _⟩
  · refine ⟨question, ⟨i⟩, hr, hg, ?_⟩
    rw [hout]
    exact sweepOwns_iff.mpr ⟨_, rfl, rfl⟩
  · rw [hout] at running
    cases Option.some.inj running
    simp [hm] at active
  · rw [hout.sweep, resting] at running
    simp at running

/-- An active sweep that runs was started by some request and waits for the query asked then. -/
theorem exists_begun (l : σ) (rs : List (Request π)) {s : Sweep}
    (running : ((new l : Controller σ N).run rs).1.sweep = some s) (active : s.plan.mode = .active) :
    ∃ x calls i q, Begun (N := N) l rs x calls ∧
      ((new l : Controller σ N).run rs).1.Searching x i q calls := by
  induction rs using List.reverseRecOn generalizing s with
  | nil => simp [run, new] at running
  | append_singleton rs r ih =>
    have hc : ((new l : Controller σ N).run rs).1.Sound := (sound_new l).run rs
    rw [run_append, run_singleton] at running ⊢
    by_cases hcont : ((new l : Controller σ N).run rs).1.isSweeping = true ∨
        ∀ p plan goOn, r ≠ .startSweep p plan goOn
    · -- The sweep ran before the last request, which did not end it.
      obtain ⟨t, ht, hplan, _⟩ := serve_continues hc r hcont s running
      obtain ⟨x, calls, i, q, ⟨first, p, rest, rfl, starts, unused, rfl⟩, hx⟩ :=
        ih ht (hplan ▸ active)
      have hfresh : x.handle ∉ (issuesOf
          (((new l : Controller σ N).run (first ++ x.request p :: rest)).1.serve r).2).map Prod.fst :=
        serve_unused hc hx r
      cases serve_searching hc hx r with
      | ended ends relays released => simp [released.sweep] at running
      | lasts q' on searching =>
        refine ⟨x, _, i, q', ⟨first, p, rest ++ [r], by simp, starts, ?_, ?_⟩, searching⟩
        · rw [run_append, run_singleton, notMem_issuesOf_append]
          rw [run_append, run_cons] at hfresh
          exact ⟨unused, hfresh⟩
        · rw [run_append _ rest, run_singleton, relaysOf_append, run_append _ first, run_cons]
    · -- The last request started it.
      obtain ⟨hrest, hstart⟩ := not_or.mp hcont
      obtain ⟨p, plan, goOn, rfl⟩ : ∃ p plan goOn, r = .startSweep p plan goOn := by
        simpa using hstart
      have hnone : ((new l : Controller σ N).run rs).1.sweep = none := by
        simpa [isSweeping] using hrest
      obtain ⟨question, h, starts⟩ := exists_starts hnone running active
      obtain ⟨⟨i, q, hx, _⟩, _⟩ := starts.searching
      exact ⟨⟨plan, goOn, question, h⟩, [], i, q,
        ⟨rs, p, [], rfl, starts, by simp [run], by simp [run, relaysOf]⟩, hx⟩

end Start

/-- A search waits in the queue exactly if it was given a time. -/
theorem mem_queue_iff_of_starts (l : σ) {before later : List (Request π)} {p : π}
    (starts : ((new l : Controller σ N).run before).1.Starts p x)
    (unused : x.handle ∉ (issuesOf
      ((((new l : Controller σ N).run before).1.serve (x.request p)).1.run later).2).map Prod.fst)
    (hx : ((((new l : Controller σ N).run before).1.serve (x.request p)).1.run later).1.Searching
      x i q calls) :
    i ∈ ((((new l : Controller σ N).run before).1.serve (x.request p)).1.run later).1.pool.queue ↔
      ∃ ms, x.plan.timeout = .millis ms := by
  have hc : ((new l : Controller σ N).run before).1.Sound := (sound_new l).run before
  have htimed := timed_run (N := N) l (before ++ x.request p :: later)
  rw [run_append, run_cons] at htimed
  obtain ⟨_, _, hissues⟩ := starts.searching
  have hlast : lastTimeout? (issuesOf ((new l : Controller σ N).run before).2 ++
      ([(x.handle, x.plan.timeout)] ++ issuesOf
        ((((new l : Controller σ N).run before).1.serve (x.request p)).1.run later).2)) ⟨i⟩ =
      some x.plan.timeout := by
    rw [← List.append_assoc, ← hx.slot, lastTimeout?_append_of_notMem unused,
      lastTimeout?_concat_self]
  rw [mem_queue_iff (((hc.serve _).run later).kept), htimed i q hx.found, issuesOf_append,
    issuesOf_append, hissues, hlast]
  simp

/-- An active sweep runs exactly as long as the broadcast query that it asked is pending, no listener
is told of that query, and responses are relayed only while a sweep runs. It relays one sign of
each device that it searches for. Whatever ends it frees all that it held in the same request. -/
theorem active_sweep_lifecycle (l : σ) (before : List (Request π)) :
    let c : Controller σ N := ((new l).run before).1
    sweepingAfter false ((new l : Controller σ N).run before).2 = some c.isSweeping ∧
    (∀ s, c.sweep = some s → s.plan.mode = .active →
      ∃ x calls i q, Begun (N := N) l before x calls ∧ c.Searching x i q calls) ∧
    ∀ (p : π) (x : Search), c.Starts p x →
      let started := c.serve (x.request p)
      .issued .broadcast x.handle x.plan.timeout x.question ∈ started.2 ∧
      ∀ later : List (Request π), let out := started.1.run later
        x.handle ∉ (issuesOf out.2).map Prod.fst →
          eventsFor x.handle (started.2 ++ out.2) = [] ∧
          (out.1.isPending x.handle = true →
            ∃ i q, out.1.Searching x i q (relaysOf out.2) ∧
              (i ∈ out.1.pool.queue ↔ ∃ ms, x.plan.timeout = .millis ms) ∧
              ∀ r : Request π,
                (out.1.serve r).1.Pursued x i (relaysOf out.2 ++ relaysOf (out.1.serve r).2)
                  (out.1.serve r).2 ∧
                (r.drops x.handle → (out.1.serve r).1.Released i)) := by
  intro c
  have hc : c.Sound := (sound_new l).run before
  refine ⟨run_sweepingAfter (sound_new l) before, fun s => exists_begun l before,
    fun p x starts => ?_⟩
  intro started
  obtain ⟨⟨i, q, hx, _⟩, hissued, _⟩ := starts.searching
  have hstarted : started.1.Sound := hc.serve _
  refine ⟨hissued, ?_⟩
  intro later out unused
  have hd : out.1.Sound := hstarted.run later
  obtain ⟨hstands, hsilent⟩ := run_searching hstarted hx later unused
  refine ⟨?_, fun pending => ?_⟩
  · have hnone : eventsOf started.2 = [] := eventsOf_serve_of_accept c (r := x.request p) trivial
    rw [eventsFor_append, eventsFor_eq_nil hsilent, List.append_nil, eventsFor, hnone]
    rfl
  · obtain ⟨r, hr⟩ := hstands.resolve_right fun hn =>
      Bool.false_ne_true (hn.symm.trans pending)
    exact ⟨i, r, hr, mem_queue_iff_of_starts l starts unused hr,
      fun y => ⟨serve_searching hd hr y, serve_drops hd hr⟩⟩

/-- A search has found one device when its query is cancelled. -/
theorem active_sweep_lifecycle_cancelled :
    let x : Search := ⟨⟨.active, .telemetry .app, false, .millis 100⟩, fun _ => true,
      .telemetryQuery .broadcast .app, ⟨0⟩⟩
    let c : Controller Silence 1 := ((new .silence).run (π := Silence) [.receive 1 none]).1
    let started := c.serve (x.request Silence.silence)
    let out := started.1.run (π := Silence) [.receive 3 (some (Silence.sign 1))]
    c.Starts Silence.silence x ∧ x.handle ∉ (issuesOf out.2).map Prod.fst ∧
      out.1.isPending x.handle = true ∧ relaysOf out.2 = [(.ofRaw 1, Silence.sign 1)] ∧
      eventsFor x.handle (started.2 ++ out.2) = [] ∧
      (out.1.serve (π := Silence) (.cancel x.handle false)).1.Released 0 := by
  intro x c started out
  have starts : c.Starts Silence.silence x := ⟨by decide, rfl, by decide⟩
  have unused : x.handle ∉ (issuesOf out.2).map Prod.fst := by decide
  have pending : out.1.isPending x.handle = true := by decide
  obtain ⟨_, _, hsearch⟩ := active_sweep_lifecycle (π := Silence) (N := 1) Silence.silence
    [.receive 1 none]
  obtain ⟨_, hlater⟩ := hsearch Silence.silence x starts
  obtain ⟨hevents, hpending⟩ := hlater [.receive 3 (some (Silence.sign 1))] unused
  obtain ⟨i, _, _, _, hserve⟩ := hpending pending
  refine ⟨starts, unused, pending, by decide, hevents, ?_⟩
  rw [Subsingleton.elim 0 i]
  exact (hserve (.cancel x.handle false)).2 rfl

end Controller

end Fieldbus
