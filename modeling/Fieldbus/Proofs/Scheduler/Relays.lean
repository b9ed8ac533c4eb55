import Fieldbus.Proofs.Controller.Refusal
import Fieldbus.Proofs.Scheduler
import Mathlib.Algebra.Ring.Parity
import Mathlib.Data.Nat.Bitwise

namespace Fieldbus

namespace Scheduler

/-- The relays once relay 0 has changed. -/
def switched (relays : UInt8) : UInt8 := relays ^^^ 1

theorem switched_involutive : Function.Involutive switched := by
  intro relays
  rw [switched, switched, UInt8.xor_assoc, UInt8.xor_self, UInt8.xor_zero]

theorem relay_switched (relays : UInt8) : relays &&& 1 ≠ switched relays &&& 1 := by
  intro same
  have hbits : relays.toNat &&& 1 = (relays.toNat ^^^ 1) &&& 1 := congrArg UInt8.toNat same
  rw [Nat.and_one_is_mod, Nat.and_one_is_mod, Nat.xor_mod_two_eq] at hbits
  omega

/-- Relay 0 is another one after an odd number of changes. -/
theorem relay_iterate_iff (relays : UInt8) (n : Nat) :
    relays &&& 1 ≠ switched^[n] relays &&& 1 ↔ n % 2 = 1 := by
  rcases Nat.even_or_odd n with even | odd
  · rw [switched_involutive.iterate_even even]
    have hzero : n % 2 = 0 := Nat.even_iff.mp even
    exact ⟨fun other => absurd rfl other, fun one => by omega⟩
  · rw [switched_involutive.iterate_odd odd]
    exact ⟨fun _ => Nat.odd_iff.mp odd, fun _ => relay_switched relays⟩

theorem countP_blocks {p : Nat → Bool} {m c : Nat}
    (block : ∀ r, (List.range' r m).countP p = c) (r n : Nat) :
    (List.range' r (n * m)).countP p = n * c := by
  induction n with
  | zero => simp
  | succ n ih =>
    rw [Nat.succ_mul, ← List.range'_append_1, List.countP_append, ih, block, Nat.succ_mul]

section Block

variable {k : Nat}

theorem countP_product (positions : List Nat) (probe : Probe) :
    (positions ×ˢ Probe.all).countP (·.2 = probe) = positions.length := by
  have hone : Probe.all.countP (· = probe) = 1 := by cases probe <;> rfl
  induction positions with
  | nil => rfl
  | cons i rest ih =>
    rw [List.product_cons, List.countP_append, List.countP_map, ih, List.length_cons, Nat.add_comm]
    exact congrArg (rest.length + ·) hone

/-- Among six rounds for each device, a probe has one for each device. -/
theorem countP_probe (some_device : 0 < k) (probe : Probe) (r : Nat) :
    (List.range' r (k * 6)).countP (fun r => (placeOf k r).2 = probe) = k := by
  have hplaces := (places_perm some_device r).countP_eq fun place => place.2 = probe
  rw [List.countP_map, countP_product, List.length_range] at hplaces
  exact hplaces

/-- One of them is for a certain device. -/
theorem countP_place {i : Nat} (inside : i < k) (probe : Probe) (r : Nat) :
    (List.range' r (k * 6)).countP (placeOf k · = (i, probe)) = 1 := by
  have hcount := count_place inside probe r
  rw [List.count_eq_countP, List.countP_map] at hcount
  simpa only [beq_eq_decide, Function.comp_def] using hcount

end Block

section Commands

variable {known : List Did}

/-- The device and the probe of a round. -/
def askedIn (known : List Did) (round : Nat) : Option (Did × Probe) :=
  known[round % known.length]?.map fun did => (did, Probe.ofLap (round / known.length))

/-- If no device is listed twice, then a device and a probe have one place. -/
theorem askedIn_iff (distinct : known.Nodup) {i : Nat} {did : Did} (here : known[i]? = some did)
    (probe : Probe) (round : Nat) :
    askedIn known round = some (did, probe) ↔ placeOf known.length round = (i, probe) := by
  obtain ⟨inside, _⟩ := List.getElem?_eq_some_iff.mp here
  have hround : round % known.length < known.length := Nat.mod_lt _ (Nat.zero_lt_of_lt inside)
  constructor
  · intro asked
    obtain ⟨other, hother, hpair⟩ := Option.map_eq_some_iff.mp asked
    obtain ⟨rfl, rfl⟩ := Prod.mk.inj hpair
    have hsame : round % known.length = i :=
      (List.getElem?_inj hround distinct).mp (hother.trans here.symm)
    rw [placeOf, hsame]
  · intro place
    obtain ⟨rfl, rfl⟩ := Prod.mk.inj place
    rw [askedIn, here]
    rfl

/-- Among so many rounds, those in which relays are switched. -/
def toggles (k round n : Nat) : Nat :=
  (List.range' round n).countP fun r => (placeOf k r).2 = .toggleRelay

theorem toggles_succ (k round n : Nat) :
    toggles k round (n + 1) =
      toggles k (round + 1) n + if (placeOf k round).2 = .toggleRelay then 1 else 0 := by
  rw [toggles, List.range'_succ, List.countP_cons]
  simp only [decide_eq_true_eq, toggles]

theorem relays_follow (some_known : known ≠ []) (s : Scheduler) :
    (s.follow known).relays =
      if (placeOf known.length s.round.toNat).2 = .toggleRelay then switched s.relays
      else s.relays := by
  rw [follow_eq some_known]
  rfl

/-- All relays change at once, whichever device the command goes to. -/
theorem relays_iterate (some_known : known ≠ []) {n : Nat} {s : Scheduler}
    (room : s.round.toNat + n < UInt64.size) :
    ((follow known)^[n] s).relays = switched^[toggles known.length s.round.toNat n] s.relays := by
  induction n generalizing s with
  | zero => rfl
  | succ n ih =>
    have hround : (s.follow known).round.toNat = s.round.toNat + 1 :=
      round_iterate (n := 1) some_known (by omega)
    rw [Function.iterate_succ_apply, ih (by omega), hround, relays_follow some_known,
      toggles_succ]
    split
    next => rw [Function.iterate_succ_apply]
    next => rfl

variable {σ π : Type} {N : Nat} [Platform π]

theorem next?_iterate (some_known : known ≠ []) {s : Scheduler} {i : Nat}
    (room : s.round.toNat + i < UInt64.size) :
    ((follow known)^[i] s).next? known = askedIn known (s.round.toNat + i) := by
  rw [← round_iterate some_known room]
  rfl

theorem map_tried_attempts (some_known : known ≠ []) {s : Scheduler}
    {turns : List (Turn σ N π)} (room : s.round.toNat + turns.length < UInt64.size) :
    (s.attempts known turns).map (·.tried) =
      (List.range' s.round.toNat turns.length).map (askedIn known) := by
  have hfirst (s : Scheduler) (t : Turn σ N π) (rest : List (Turn σ N π)) :
      (s.attempts known (t :: rest)).map (·.tried) =
        s.next? known :: ((s.follow known).attempts known rest).map (·.tried) := by
    rw [attempts, List.map_cons, tried_attempt, scheduler_attempt]
  apply (eq_mapIdx_follow _ (fun s _ => s.next? known) (fun _ => rfl) hfirst s turns).trans
  apply mapIdx_eq_map_window
  intro i inside
  exact next?_iterate some_known (by omega)

/-- The tries of some consecutive calls are those of their rounds. -/
theorem countP_tried (some_known : known ≠ []) {s : Scheduler} {turns : List (Turn σ N π)}
    (room : s.round.toNat + turns.length < UInt64.size) {i j : Nat} (inside : j ≤ turns.length)
    (x : Option (Did × Probe)) :
    (((s.attempts known turns).take j).drop i).countP (·.tried = x) =
      (List.range' (s.round.toNat + i) (j - i)).countP (askedIn known · = x) := by
  have hmap : (((s.attempts known turns).take j).drop i).map (·.tried) =
      (List.range' (s.round.toNat + i) (j - i)).map (askedIn known) := by
    rw [List.map_drop, List.map_take, map_tried_attempts some_known room, ← List.map_take,
      ← List.map_drop, List.take_range'_of_length_ge inside, List.drop_range', Nat.mul_one]
  have hcount := congrArg (List.countP (· = x)) hmap
  rw [List.countP_map, List.countP_map] at hcount
  exact hcount

/-- A call in a run that came to a device. -/
theorem asks_of_tried {s : Scheduler} {turns : List (Turn σ N π)} {i : Nat} {t : Turn σ N π}
    {a : Attempt σ N π} {did : Did} {probe : Probe}
    (call : (turns.zip (s.attempts known turns))[i]? = some (t, a))
    (tried : a.tried = some (did, probe)) :
    known ≠ [] ∧ i < turns.length ∧ ((follow known)^[i] s).next? known = some (did, probe) ∧
      a.scheduler = (follow known)^[i + 1] s ∧ a.Asks t did probe := by
  obtain ⟨hturn, hattempt⟩ := List.getElem?_zip_eq_some.mp call
  rw [attempts_getElem?, hturn] at hattempt
  have hcall : ((follow known)^[i] s).attempt t.controller t.platform known t.timeout = a :=
    Option.some.inj hattempt
  subst hcall
  have hnext := (tried_attempt _ known t).symm.trans tried
  have hknown : known ≠ [] := by
    rintro rfl
    cases hnext
  refine ⟨hknown, (List.getElem?_eq_some_iff.mp hturn).1, hnext, ?_, asks_attempt _ known t hnext⟩
  rw [scheduler_attempt, Function.iterate_succ_apply']

/-- Two tries to switch the relay of one device lie `n` times six calls for each device apart, where
`n` counts such tries from the first on. Since a command to any device changes relay 0, the two
commands differ in it exactly if `n` times the number of devices is odd; with an even number of
devices a relay is always told the same. This holds as long as the count of the rounds has room in
its word. -/
theorem relays_of_commands (s : Scheduler) (distinct : known.Nodup) (turns : List (Turn σ N π))
    {i j : Nat} (earlier : i < j) {t u : Turn σ N π} {a b : Attempt σ N π} {did : Did}
    (first : (turns.zip (s.attempts known turns))[i]? = some (t, a))
    (second : (turns.zip (s.attempts known turns))[j]? = some (u, b))
    (toggle : a.tried = some (did, .toggleRelay)) (again : b.tried = some (did, .toggleRelay)) :
    a.exchange =
        t.controller.queryCommand t.platform did .app [a.scheduler.relays] t.timeout ∧
      b.exchange =
        u.controller.queryCommand u.platform did .app [b.scheduler.relays] u.timeout ∧
      (s.round.toNat + turns.length < UInt64.size →
        ∃ n, (((s.attempts known turns).take j).drop i).countP
            (·.tried = some (did, .toggleRelay)) = n ∧
          j = i + n * (6 * known.length) ∧
          (a.scheduler.relays &&& 1 ≠ b.scheduler.relays &&& 1 ↔ n * known.length % 2 = 1)) := by
  obtain ⟨hknown, hi, hnext, hafter, hasks⟩ := asks_of_tried first toggle
  obtain ⟨_, hj, hnext', hafter', hasks'⟩ := asks_of_tried second again
  refine ⟨hasks.puts, hasks'.puts, ?_⟩
  intro room
  have hfirst : askedIn known (s.round.toNat + i) = some (did, .toggleRelay) :=
    (next?_iterate hknown (by omega)).symm.trans hnext
  have hsecond : askedIn known (s.round.toNat + j) = some (did, .toggleRelay) :=
    (next?_iterate hknown (by omega)).symm.trans hnext'
  have hpos : 0 < known.length := List.length_pos_iff.mpr hknown
  obtain ⟨here, hhere⟩ : ∃ here, known[here]? = some did := by
    obtain ⟨_, hget, hpair⟩ := Option.map_eq_some_iff.mp hfirst
    exact ⟨_, hget.trans (congrArg some (Prod.mk.inj hpair).1)⟩
  have hplace := (askedIn_iff distinct hhere _ _).mp hfirst
  have hplace' := (askedIn_iff distinct hhere _ _).mp hsecond
  obtain ⟨n, hn⟩ : ∃ n, j - i = n * (known.length * 6) := by
    have hmod := Nat.sub_mod_eq_zero_of_mod_eq (placeOf_apart _ _ (hplace'.trans hplace.symm))
    obtain ⟨n, hn⟩ := Nat.dvd_of_mod_eq_zero hmod
    refine ⟨n, ?_⟩
    rw [Nat.mul_comm, ← hn]
    omega
  refine ⟨n, ?_, ?_, ?_⟩
  · rw [countP_tried hknown room (Nat.le_of_lt hj), hn]
    simp only [askedIn_iff distinct hhere]
    rw [countP_blocks (countP_place (List.getElem?_eq_some_iff.mp hhere).1 _), Nat.mul_one]
  · rw [Nat.mul_comm 6, ← hn]
    omega
  · have hbetween : b.scheduler = (follow known)^[n * (known.length * 6)] a.scheduler := by
      have hcalls : j + 1 = n * (known.length * 6) + (i + 1) := by
        rw [← hn]
        omega
      rw [hafter, hafter', hcalls, Function.iterate_add_apply]
    have hround : a.scheduler.round.toNat = s.round.toNat + (i + 1) := by
      rw [hafter]
      exact round_iterate hknown (by omega)
    rw [hbetween, relays_iterate hknown (by omega), toggles, countP_blocks (countP_probe hpos _)]
    exact relay_iterate_iff _ _

/-- With three devices, the first two commands to one of them differ. -/
theorem relays_of_commands_three :
    let known : List Did := [.ofRaw 0, .ofRaw 1, .ofRaw 2]
    let turns := List.replicate 25 Turn.idle
    let calls := turns.zip (({} : Scheduler).attempts known turns)
    known.Nodup ∧ ({} : Scheduler).round.toNat + turns.length < UInt64.size ∧ ∃ a b,
      calls[6]? = some (Turn.idle, a) ∧ a.tried = some (.ofRaw 0, .toggleRelay) ∧
      calls[24]? = some (Turn.idle, b) ∧ b.tried = some (.ofRaw 0, .toggleRelay) ∧
      a.scheduler.relays &&& 1 ≠ b.scheduler.relays &&& 1 := by
  intro known turns calls
  have hdistinct : known.Nodup := by decide
  have hcall {i : Nat} (hi : i < 25) : calls[i]? = some (Turn.idle,
      ((follow known)^[i] {}).attempt Turn.idle.controller Turn.idle.platform known
        Turn.idle.timeout) := by
    have hturn : turns[i]? = some Turn.idle := List.getElem?_replicate_of_lt hi
    refine List.getElem?_zip_eq_some.mpr ⟨hturn, ?_⟩
    rw [attempts_getElem?, hturn]
    rfl
  have hroom : ({} : Scheduler).round.toNat + turns.length < UInt64.size := by decide
  have htried {i : Nat} (hi : i < 25) :=
    (tried_attempt ((follow known)^[i] {}) known Turn.idle).trans
      (next?_iterate (List.cons_ne_nil _ _) (Nat.lt_trans (Nat.add_lt_add_left hi _) hroom))
  have hfirst := hcall (by decide : 6 < 25)
  have hsecond := hcall (by decide : 24 < 25)
  have htoggle := htried (by decide : 6 < 25)
  have hagain := htried (by decide : 24 < 25)
  obtain ⟨_, _, hcommands⟩ :=
    relays_of_commands {} hdistinct turns (by decide) hfirst hsecond htoggle hagain
  obtain ⟨n, _, hcalls, hrelays⟩ := hcommands hroom
  refine ⟨hdistinct, hroom, _, _, hfirst, htoggle, hsecond, hagain, hrelays.mpr ?_⟩
  have hlength : known.length = 3 := rfl
  rw [hlength] at hcalls ⊢
  omega

/-- Of two devices, one is told twice to close its relay and the other twice to open it. -/
theorem two_relays_stay :
    let known : List Did := [.ofRaw 0, .ofRaw 1]
    let attempts := ({} : Scheduler).attempts known (.replicate 18 Turn.idle)
    let sent := attempts.flatMap fun a => sendsOf a.exchange.acts
    let commands (did : Did) := sent.filter fun f => f.id.frameType = .command && f.did = did
    known.Nodup ∧ attempts.map (·.exchange.result.toOption) = .replicate 18 (some (some ⟨0⟩)) ∧
      (commands (.ofRaw 0)).map (·.payload) = [[1], [1]] ∧
      (commands (.ofRaw 1)).map (·.payload) = [[0], [0]] := by
  intro known attempts sent commands
  exact ⟨by decide, by decide, by decide, by decide⟩

end Commands

end Scheduler

end Fieldbus
