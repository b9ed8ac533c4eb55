import Fieldbus.Proofs.Controller.Agenda

namespace Fieldbus

/-- How long the answer to the last query with this handle is awaited. -/
def lastTimeout? (issues : List (Handle × Timeout)) (h : Handle) : Option Timeout :=
  (issues.filter fun e => e.1 = h).getLast?.map Prod.snd

/-- The last query with the first handle was issued before the last one with the second. -/
def IssuedBefore (issues : List (Handle × Timeout)) (h g : Handle) : Prop :=
  ∃ before timeout after, issues = before ++ (g, timeout) :: after ∧ h ∈ before.map Prod.fst ∧
    h ∉ after.map Prod.fst ∧ g ∉ after.map Prod.fst

section Issues

variable {issues : List (Handle × Timeout)} {h g : Handle} {timeout : Timeout}

theorem lastTimeout?_concat_self : lastTimeout? (issues ++ [(h, timeout)]) h = some timeout := by
  simp [lastTimeout?]

theorem lastTimeout?_append_of_notMem {more : List (Handle × Timeout)}
    (hn : h ∉ more.map Prod.fst) : lastTimeout? (issues ++ more) h = lastTimeout? issues h := by
  have hnone : (more.filter fun e => e.1 = h) = [] := by
    refine List.filter_eq_nil_iff.mpr fun e he => ?_
    have hne : e.1 ≠ h := fun heq => hn (heq ▸ List.mem_map_of_mem he)
    simpa using hne
  rw [lastTimeout?, lastTimeout?, List.filter_append, hnone, List.append_nil]

theorem mem_of_lastTimeout? (hl : lastTimeout? issues h = some timeout) :
    h ∈ issues.map Prod.fst := by
  obtain ⟨e, he, _⟩ := Option.map_eq_some_iff.mp hl
  obtain ⟨hm, hh⟩ := List.mem_filter.mp (List.mem_of_getLast? he)
  exact List.mem_map.mpr ⟨e, hm, by simpa using hh⟩

theorem issuedBefore_concat_self (hm : g ∈ issues.map Prod.fst) :
    IssuedBefore (issues ++ [(h, timeout)]) g h :=
  ⟨issues, timeout, [], rfl, hm, by simp, by simp⟩

theorem IssuedBefore.concat {k : Handle} (hb : IssuedBefore issues h g) (hh : h ≠ k)
    (hg : g ≠ k) : IssuedBefore (issues ++ [(k, timeout)]) h g := by
  obtain ⟨before, old, after, rfl, hm, hha, hga⟩ := hb
  refine ⟨before, old, after ++ [(k, timeout)], by simp, hm, ?_, ?_⟩
  · simpa [hh] using hha
  · simpa [hg] using hga

end Issues

namespace Agenda

variable {ι : Type} {a b c : Agenda ι}

/-- Time passed, and some entries are gone; none stayed for longer than it had to wait. -/
def Fades (a b : Agenda ι) : Prop :=
  ∃ ms, b.Sublist (a.aged ms) ∧ (ms = 0 ∨ ∀ e ∈ b, 0 < e.2)

theorem Fades.of_sublist (h : b.Sublist a) : a.Fades b := ⟨0, by rwa [aged_zero], Or.inl rfl⟩

theorem Fades.refl (a : Agenda ι) : a.Fades a := .of_sublist (List.Sublist.refl a)

theorem fades_erase [DecidableEq ι] (i : ι) (a : Agenda ι) : a.Fades (a.erase i) :=
  .of_sublist (List.filter_sublist)

theorem fades_after (ms : Nat) (a : Agenda ι) : a.Fades (a.after ms) := by
  refine ⟨ms, List.filter_sublist.map _, Or.inr fun e he => ?_⟩
  obtain ⟨f, hf, rfl⟩ := List.mem_map.mp he
  have hlt := (List.mem_filter.mp hf).2
  simp only [decide_eq_true_eq] at hlt
  exact Nat.sub_pos_of_lt hlt

theorem Fades.trans (h : a.Fades b) (h' : b.Fades c) : a.Fades c := by
  obtain ⟨ms, hs, hp⟩ := h
  obtain ⟨more, hs', hp'⟩ := h'
  refine ⟨ms + more, ?_, ?_⟩
  · have hsum : a.aged (ms + more) = (a.aged ms).aged more := by
      simp [aged, Function.comp_def, Nat.sub_sub]
    rw [hsum]
    exact hs'.trans (hs.map _)
  · -- Entries without any time left may stay only as long as no time passes at all.
    rcases hp' with rfl | hp'
    · rw [aged_zero] at hs'
      rcases hp with rfl | hp
      · exact Or.inl rfl
      · exact Or.inr fun e he => hp e (hs'.subset he)
    · exact Or.inr hp'

end Agenda

/-- Entries that expire at the same time are in order of issue. -/
def TiesInOrder (issues : List (Handle × Timeout)) (a : Agenda Handle) : Prop :=
  a.Pairwise fun e f => e.2 = f.2 → IssuedBefore issues e.1 f.1

namespace TiesInOrder

variable {issues : List (Handle × Timeout)} {a b : Agenda Handle}

theorem fades (h : TiesInOrder issues a) (hf : a.Fades b) : TiesInOrder issues b := by
  obtain ⟨ms, hs, hp⟩ := hf
  -- Times that differed may both be cut to zero; entries that still wait were not cut.
  have haged : (a.aged ms).Pairwise fun e f =>
      (ms = 0 ∨ 0 < e.2) → e.2 = f.2 → IssuedBefore issues e.1 f.1 := by
    refine List.pairwise_map.mpr (h.imp fun {e f} he hpos heq => he ?_)
    simp only at hpos heq
    omega
  refine (haged.sublist hs).imp_of_mem fun {e f} hm _ he heq => he ?_ heq
  exact hp.imp_right fun hp => hp e hm

/-- A query that is accepted is put behind those that expire at the same time. -/
theorem enlist {h : Handle} {timeout : Timeout} (ht : TiesInOrder issues a) (ho : a.InOrder)
    (known : ∀ e ∈ a, e.1 ∈ issues.map Prod.fst) (fresh : h ∉ a.map Prod.fst) :
    TiesInOrder (issues ++ [(h, timeout)]) (a.enlist h timeout) := by
  have hne : ∀ e ∈ a, e.1 ≠ h := fun e he hh => fresh (hh ▸ List.mem_map_of_mem he)
  have hold : TiesInOrder (issues ++ [(h, timeout)]) a :=
    List.Pairwise.imp_of_mem (fun he hf hb heq => (hb heq).concat (hne _ he) (hne _ hf)) ht
  cases timeout with
  | untracked => exact hold
  | forever => exact hold
  | millis ms =>
    have hsplit := List.takeWhile_append_dropWhile (p := fun e => e.2 ≤ ms.toNat) (l := a)
    rw [← hsplit] at hold
    obtain ⟨hbefore, hafter, hacross⟩ := List.pairwise_append.mp hold
    -- No entry behind the new one has as little time left, so it has no tie there.
    refine List.pairwise_append.mpr ⟨hbefore, List.pairwise_cons.mpr ⟨?_, hafter⟩, ?_⟩
    · intro f hf heq
      have hlt := ho.lt_of_mem_dropWhile hf
      simp only at heq
      omega
    · intro e he f hf heq
      rcases List.mem_cons.mp hf with rfl | hf
      · exact issuedBefore_concat_self (known e ((List.takeWhile_sublist _).subset he))
      · exact hacross e he f hf heq

end TiesInOrder

namespace Controller

variable {σ π : Type} {N : Nat} {c d : Controller σ N}

section Enlists

/-- One query is accepted, or deadlines only fade away. -/
def Enlists (c d : Controller σ N) (acts : List ControllerAct) : Prop :=
  (c.agenda.Fades d.agenda ∧ issuesOf acts = []) ∨
  ∃ h timeout, h ∉ c.agenda.map Prod.fst ∧ d.agenda = c.agenda.enlist h timeout ∧
    issuesOf acts = [(h, timeout)]

theorem notMem_agenda_of_alloc {i : Fin N} {pool : Pool N} (hk : c.pool.WellKept)
    (ha : c.pool.alloc? = some (i, pool)) : (⟨i⟩ : Handle) ∉ c.agenda.map Prod.fst := by
  obtain ⟨_, _, hi, _⟩ := hk.alloc ha
  rw [agenda, hk.mem_map_fst_agenda_iff, Pool.link?_eq_none hi]
  simp

theorem Refused.enlists {acts : List ControllerAct} (hd : c.Refused d) (hk : c.pool.WellKept)
    (silent : ∀ a ∈ acts, a.isSilent = true) : c.Enlists d acts := by
  obtain rfl := hd.eq hk
  exact Or.inl ⟨.refl _, issuesOf_silent silent⟩

variable [Platform π]

theorem enlists_query (hk : c.pool.WellKept) (p : π) (did : Did) (frame : Frame)
    (timeout : Timeout) (tag : UInt32) :
    c.Enlists (c.query p did frame timeout tag).controller
      (c.query p did frame timeout tag).acts := by
  rcases query_cases c p did frame timeout tag with
    ⟨i, pool, correlation, _, ha, _, _, _, hout, hacts⟩ | ⟨hout, hacts, _⟩
  · refine Or.inr ⟨⟨i⟩, timeout, notMem_agenda_of_alloc hk ha, ?_, ?_⟩
    · rw [hout]
      exact hk.agenda_fill ha
    · rw [hacts, issuesOf_append, issuesOf_install]
      rfl
  · exact hout.enlists hk hacts

theorem enlists_startSweep (hk : c.pool.WellKept) (p : π) (plan : SweepPlan)
    (goOn : List (Did × Frame) → Bool) :
    c.Enlists (c.startSweep p plan goOn).controller (c.startSweep p plan goOn).acts := by
  rcases startSweep_cases c p plan goOn with
    ⟨query, i, pool, correlation, _, _, _, _, ha, _, _, _, hout, hacts⟩ | ⟨_, _, _, hout, hacts⟩ |
    ⟨hout, hacts, _⟩
  · refine Or.inr ⟨⟨i⟩, plan.timeout, notMem_agenda_of_alloc hk ha, ?_, ?_⟩
    · rw [hout]
      exact hk.agenda_fill ha
    · rw [hacts, issuesOf_append, issuesOf_append, issuesOf_install]
      rfl
  · refine Or.inl ⟨?_, ?_⟩
    · rw [hout]
      exact .refl _
    · rw [hacts]
      rfl
  · exact hout.enlists hk hacts

end Enlists

/-- Exactly the queries that were issued with a finite time wait for a deadline. -/
def Timed (issues : List (Handle × Timeout)) (c : Controller σ N) : Prop :=
  ∀ i q, c.pool.query? i = some q →
    ((c.pool.link? i).isSome = true ↔ ∃ ms, lastTimeout? issues ⟨i⟩ = some (.millis ms))

theorem Timed.congr {old : List (Handle × Timeout)} (h : Timed old c)
    (hp : d.pool = c.pool) : Timed (old ++ []) d := by
  rw [List.append_nil]
  intro i q hq
  rw [hp] at hq ⊢
  exact h i q hq

variable [Listener σ] [Platform π] {may : Licence} {acts : List ControllerAct}
  {events : List Event} {issues old : List (Handle × Timeout)}

theorem Effect.timed (h : Effect may c events issues d) (hk : c.pool.WellKept)
    (ht : Timed old c) : Timed (old ++ issues) d := by
  cases h with
  | quiet pool => exact ht.congr pool
  | watched s pool => exact ht.congr pool
  | orphaned e pool => exact ht.congr pool
  | elapsed ms pool =>
    rw [List.append_nil]
    intro i q hq
    rw [pool, (Pool.sameQueries_elapse c.pool ms).query?] at hq
    rw [pool, ← hk.queues.elapse.mem_keys, Deadlines.keys_elapse, hk.queues.mem_keys]
    exact ht i q hq
  | taken i taken query correlation timeout tag alloc idle asks allowed pool =>
    intro j q hq
    obtain ⟨_, _, hfree, _⟩ := hk.alloc alloc
    have hi : i ∉ c.pool.deadlines.keys := by
      rw [hk.queues.mem_keys, Pool.link?_eq_none hfree]
      simp
    rw [pool, Pool.query?_fill_alloc alloc] at hq
    rw [pool, ← (hk.queues_fill alloc).mem_keys, Deadlines.mem_keys_enlist]
    by_cases hj : j = i
    · subst hj
      rw [lastTimeout?_concat_self]
      simpa [hi] using Timeout.isSome_span?_iff
    · have hne : (⟨j⟩ : Handle) ≠ ⟨i⟩ := fun hh => hj (Fin.ext (Handle.mk.inj hh))
      rw [if_neg hj] at hq
      rw [lastTimeout?_append_of_notMem (by simpa using hne), ← ht j q hq, hk.queues.mem_keys]
      simp [hj]
  | noted i q f found broadcast answer first heard goOn pool =>
    rw [List.append_nil]
    intro j r hr
    rw [pool, Pool.query?_setQuery found] at hr
    rw [pool, Pool.link?_setQuery]
    by_cases hj : j = i
    · exact hj ▸ ht i q found
    · rw [if_neg hj] at hr
      exact ht j r hr
  | ended i q found pool ending =>
    rw [List.append_nil]
    intro j r hr
    rw [pool, Pool.query?_finish] at hr
    split at hr
    next => simp at hr
    next hj =>
      rw [pool, ← hk.queues_finish.mem_keys, Deadlines.keys_remove,
        hk.queues.nodup.mem_erase_iff, hk.queues.mem_keys, ← ht j r hr]
      simp [hj]

theorem Steps.timed (h : Steps may c acts d) (hc : c.Sound) (ht : Timed old c) :
    Timed (old ++ issuesOf acts) d := by
  induction h generalizing old with
  | refl => simpa using ht
  | cons first _ ih =>
    rw [issuesOf_append, ← List.append_assoc]
    exact ih (first.sound hc) ((first.effect hc).timed hc.kept ht)

theorem fades_respond (hk : c.pool.WellKept) (frame : Option Frame) :
    c.agenda.Fades (c.respond frame).1.agenda := by
  cases frame with
  | none => exact .refl _
  | some f =>
    by_cases hr : f.id.isResponse = true
    · simp only [respond, hr, if_true]
      rw [agenda_handleResponse hk f]
      split
      next => exact Agenda.fades_erase _ _
      next =>
        split
        next => exact .refl _
        next => exact Agenda.fades_erase _ _
      next => exact .refl _
    · simp only [respond, hr]
      exact .refl _

theorem fades_receive (hc : c.Sound) (elapsed : Nat) (frame : Option Frame) :
    c.agenda.Fades (c.receive elapsed frame).1.agenda := by
  refine (fades_respond hc.kept frame).trans ?_
  change Agenda.Fades _ ((c.respond frame).1.advance elapsed).1.agenda
  rw [(advance_spec (hc.respond frame) elapsed).1]
  exact Agenda.fades_after _ _

theorem fades_feed (hc : c.Sound) (elapsed : Nat) (frames : List Frame) :
    c.agenda.Fades (c.feed elapsed frames).1.agenda := by
  induction frames generalizing c elapsed with
  | nil => exact fades_receive hc elapsed none
  | cons f rest ih => exact (fades_receive hc elapsed (some f)).trans (ih (hc.receive elapsed _) 0)

theorem enlists_serve (hc : c.Sound) (r : Request π) : c.Enlists (c.serve r).1 (c.serve r).2 := by
  have hk := hc.kept
  have hsilent : ¬ (c.licence r).accept → issuesOf (c.serve r).2 = [] :=
    fun hn => (serve_steps c r).issuesOf_eq_nil hc hn
  cases r with
  | query p did frame timeout tag => exact enlists_query hk p did frame timeout tag
  | startSweep p plan goOn => exact enlists_startSweep hk p plan goOn
  | cancel h suppress =>
    refine Or.inl ⟨?_, hsilent id⟩
    simp only [serve, agenda_cancel hk]
    exact Agenda.fades_erase _ _
  | cancelAll suppress =>
    refine Or.inl ⟨?_, hsilent id⟩
    simp only [serve, agenda_cancelAll hc]
    exact .of_sublist (List.nil_sublist _)
  | receive elapsed frame => exact Or.inl ⟨fades_receive hc elapsed frame, hsilent id⟩
  | poll p =>
    refine Or.inl ⟨?_, hsilent id⟩
    have hclock : ({ c with lastPoll := some (Platform.now p).toMillis } : Controller σ N).Sound :=
      ⟨hc.kept, hc.sweep⟩
    exact fades_feed hclock _ _
  | stopSweep =>
    refine Or.inl ⟨?_, hsilent id⟩
    simp only [serve, agenda_stopSweep hk]
    split
    next => exact Agenda.fades_erase _ _
    next => exact .refl _

/-- The queries that wait are those issued with a finite time, ties in order of issue. -/
theorem run_timed (hc : c.Sound) (ht : Timed old c) (ho : TiesInOrder old c.agenda)
    (rs : List (Request π)) :
    Timed (old ++ issuesOf (c.run rs).2) (c.run rs).1 ∧
      TiesInOrder (old ++ issuesOf (c.run rs).2) (c.run rs).1.agenda := by
  induction rs generalizing c old with
  | nil => exact ⟨by simpa [run] using ht, by simpa [run] using ho⟩
  | cons r rs ih =>
    rw [run_cons, issuesOf_append, ← List.append_assoc]
    refine ih (hc.serve r) ((serve_steps c r).timed hc ht) ?_
    rcases enlists_serve hc r with ⟨hf, hi⟩ | ⟨h, timeout, hfresh, ha, hi⟩
    · rw [hi, List.append_nil]
      exact ho.fades hf
    · rw [hi, ha]
      refine ho.enlist (Pool.agenda_inOrder c.pool) (fun e he => ?_) hfresh
      obtain ⟨i, left, _, rfl⟩ := Pool.mem_agenda_iff.mp he
      have hlink := hc.kept.mem_map_fst_agenda_iff.mp (List.mem_map_of_mem he)
      cases hq : c.pool.query? i with
      | none => simp [Pool.link?_eq_none hq] at hlink
      | some q =>
        obtain ⟨ms, hms⟩ := (ht i q hq).mp hlink
        exact mem_of_lastTimeout? hms

end Controller

end Fieldbus
