import Fieldbus.Proofs.Controller.Accept
import Fieldbus.Scheduler
import Mathlib.Data.List.Nodup
import Mathlib.Data.List.ProdSigma
import Mathlib.Logic.Function.Iterate

namespace Fieldbus

namespace Probe

/-- The lap on which a probe has its first turn. -/
def lap : Probe → Nat
  | telemetry => 0
  | uptime => 1
  | toggleRelay => 2
  | raiseSetpoint => 3
  | name => 4
  | badEndpoint => 5

theorem lap_ofLap (n : Nat) : (ofLap n).lap = n % 6 := by
  have hturn : n % 6 = 0 ∨ n % 6 = 1 ∨ n % 6 = 2 ∨ n % 6 = 3 ∨ n % 6 = 4 ∨ n % 6 = 5 := by omega
  rcases hturn with h | h | h | h | h | h <;> simp only [ofLap, h, lap]

def all : List Probe := [telemetry, uptime, toggleRelay, raiseSetpoint, name, badEndpoint]

theorem mem_all (probe : Probe) : probe ∈ all := by cases probe <;> decide

end Probe

/-- A function whose equal values lie a multiple of `m` apart takes no value twice among `m`
consecutive numbers. -/
theorem nodup_map_window {α : Type} {f : Nat → α} {m : Nat}
    (apart : ∀ a b, f a = f b → a % m = b % m) (r : Nat) : ((List.range' r m).map f).Nodup := by
  have hle (a b : Nat) (ha : a ∈ List.range' r m) (hb : b ∈ List.range' r m)
      (h : f a = f b) : a ≤ b := by
    have hmod : (a - b) % m = 0 := Nat.sub_mod_eq_zero_of_mod_eq (apart a b h)
    rw [List.mem_range'_1] at ha hb
    rw [Nat.mod_eq_of_lt (by omega)] at hmod
    exact Nat.le_of_sub_eq_zero hmod
  apply List.Nodup.map_on _ List.nodup_range'
  intro a ha b hb h
  exact Nat.le_antisymm (hle a b ha hb h) (hle b a hb ha h.symm)

/-- If it has no more than `m` values, then it takes each of them there. -/
theorem map_window_perm {α : Type} {f : Nat → α} {m : Nat} {values : List α}
    (apart : ∀ a b, f a = f b → a % m = b % m) (mem : ∀ a, f a ∈ values)
    (few : values.length ≤ m) (r : Nat) : ((List.range' r m).map f).Perm values := by
  have hsub : (List.range' r m).map f ⊆ values := by
    intro v hv
    obtain ⟨a, _, rfl⟩ := List.mem_map.mp hv
    exact mem a
  apply (List.subperm_of_subset (nodup_map_window apart r) hsub).perm_of_length_le
  rwa [List.length_map, List.length_range']

theorem mapIdx_eq_map_window {α β : Type} {xs : List α} {g : Nat → α → β} {f : Nat → β} {r : Nat}
    (same : ∀ j, ∀ inside : j < xs.length, g j xs[j] = f (r + j)) :
    xs.mapIdx g = (List.range' r xs.length).map f := by
  apply List.ext_getElem
  · rw [List.length_mapIdx, List.length_map, List.length_range']
  · intro j hj _
    rw [List.length_mapIdx] at hj
    rw [List.getElem_mapIdx, List.getElem_map, List.getElem_range', Nat.one_mul, same j hj]

namespace Scheduler

/-- The position in a list of `k` devices and the probe that a round stands for. -/
def placeOf (k round : Nat) : Nat × Probe := (round % k, Probe.ofLap (round / k))

section Window

variable {k : Nat}

theorem mod_placeOf (k round : Nat) :
    round % (k * 6) = (placeOf k round).1 + k * (placeOf k round).2.lap := by
  rw [Nat.mod_mul, placeOf, Probe.lap_ofLap]

theorem placeOf_apart (a b : Nat) (same : placeOf k a = placeOf k b) :
    a % (k * 6) = b % (k * 6) := by
  rw [mod_placeOf, mod_placeOf, same]

theorem positions_perm (some_device : 0 < k) (r : Nat) :
    (((List.range' r k).map (placeOf k)).map Prod.fst).Perm (List.range k) := by
  rw [List.map_map]
  apply map_window_perm (fun _ _ same => same)
  · intro a
    exact List.mem_range.mpr (Nat.mod_lt a some_device)
  · rw [List.length_range]

/-- As many rounds as there are devices go to each device once. -/
theorem count_position {i : Nat} (inside : i < k) (r : Nat) :
    (((List.range' r k).map (placeOf k)).map Prod.fst).count i = 1 := by
  rw [(positions_perm (Nat.zero_lt_of_lt inside) r).count_eq]
  exact List.count_eq_one_of_mem List.nodup_range (List.mem_range.mpr inside)

theorem places_perm (some_device : 0 < k) (r : Nat) :
    ((List.range' r (k * 6)).map (placeOf k)).Perm (List.range k ×ˢ Probe.all) := by
  apply map_window_perm placeOf_apart
  · intro a
    exact List.mem_product.mpr
      ⟨List.mem_range.mpr (Nat.mod_lt a some_device), Probe.mem_all _⟩
  · rw [List.length_product, List.length_range]
    rfl

/-- Six times as many rounds take each probe to each device once. -/
theorem count_place {i : Nat} (inside : i < k) (probe : Probe) (r : Nat) :
    ((List.range' r (k * 6)).map (placeOf k)).count (i, probe) = 1 := by
  rw [(places_perm (Nat.zero_lt_of_lt inside) r).count_eq]
  apply List.count_eq_one_of_mem (List.nodup_range.product (by decide))
  exact List.mem_product.mpr ⟨List.mem_range.mpr inside, Probe.mem_all probe⟩

end Window

variable {σ π : Type} {N : Nat}

/-- What a call finds: the controller with its platform, and the timeout to use. -/
structure Turn (σ : Type) (N : Nat) (π : Type) where
  controller : Controller σ N
  platform : π
  timeout : Timeout

/-- No query is pending, and nothing stands in the way of the next one. -/
def Turn.idle : Turn Silence 2 Silence := ⟨.new .silence, .silence, .millis 200⟩

/-- The position of the device and the probe that are next. -/
def place (s : Scheduler) (known : List Did) : Nat × Probe :=
  placeOf known.length s.round.toNat

variable [Platform π]

/-- Calls one after the other with the same devices known, whatever happens in between. -/
def attempts (s : Scheduler) (known : List Did) : List (Turn σ N π) → List (Attempt σ N π)
  | [] => []
  | t :: rest =>
    let attempt := s.attempt t.controller t.platform known t.timeout
    attempt :: attempt.scheduler.attempts known rest

/-- The places that these calls come to. -/
def places (s : Scheduler) (known : List Did) : List (Turn σ N π) → List (Nat × Probe)
  | [] => []
  | t :: rest =>
    s.place known :: (s.attempt t.controller t.platform known t.timeout).scheduler.places known rest

/-- The scheduler after a call. -/
def follow (known : List Did) (s : Scheduler) : Scheduler :=
  match s.next? known with
  | none => s
  | some (_, probe) => s.advance probe

/-- What a call for a device asks of the controller. -/
def Attempt.Puts (a : Attempt σ N π) (t : Turn σ N π) (did : Did) : Probe → Prop
  | .telemetry => a.exchange = t.controller.queryTelemetry t.platform did .app t.timeout
  | .uptime => a.exchange = t.controller.queryRead t.platform did .uptime t.timeout
  | .toggleRelay =>
    a.exchange = t.controller.queryCommand t.platform did .app [a.scheduler.relays] t.timeout
  | .raiseSetpoint =>
    a.exchange = t.controller.queryWrite t.platform did .setpoint a.scheduler.setpoint t.timeout
  | .name => a.exchange = t.controller.queryRead t.platform did .name t.timeout
  | .badEndpoint => a.exchange = t.controller.queryTelemetry t.platform did .ep2 t.timeout

/-- A call puts a probe to a device. -/
structure Attempt.Asks (a : Attempt σ N π) (t : Turn σ N π) (did : Did) (probe : Probe) :
    Prop where
  tried : a.tried = some (did, probe)
  puts : a.Puts t did probe

section Step

variable (s : Scheduler) (known : List Did) (t : Turn σ N π)

theorem tried_attempt :
    (s.attempt t.controller t.platform known t.timeout).tried = s.next? known := by
  unfold attempt
  cases s.next? known <;> rfl

/-- The answer of the controller has no effect on the scheduler. -/
theorem scheduler_attempt :
    (s.attempt t.controller t.platform known t.timeout).scheduler = s.follow known := by
  unfold attempt follow
  cases s.next? known <;> rfl

theorem asks_attempt {did : Did} {probe : Probe} (next : s.next? known = some (did, probe)) :
    (s.attempt t.controller t.platform known t.timeout).Asks t did probe := by
  unfold attempt
  rw [next]
  refine ⟨rfl, ?_⟩
  cases probe <;> rfl

end Step

section Run

variable {known : List Did}

theorem next?_eq_some (some_known : known ≠ []) (s : Scheduler) :
    ∃ did, known[(s.place known).1]? = some did ∧ s.next? known = some (did, (s.place known).2) := by
  have hinside : (s.place known).1 < known.length :=
    Nat.mod_lt _ (List.length_pos_iff.mpr some_known)
  have hget : known[(s.place known).1]? = some known[(s.place known).1] :=
    List.getElem?_eq_getElem hinside
  refine ⟨_, hget, ?_⟩
  exact congrArg (Option.map fun did => (did, (s.place known).2)) hget

theorem follow_eq (some_known : known ≠ []) (s : Scheduler) :
    s.follow known = s.advance (s.place known).2 := by
  obtain ⟨did, _, hnext⟩ := next?_eq_some some_known s
  rw [follow, hnext]

theorem round_follow (some_known : known ≠ []) (s : Scheduler) :
    (s.follow known).round = s.round + 1 := by
  rw [follow_eq some_known]
  rfl

/-- The count of the calls as long as its word has room for it. -/
theorem round_iterate (some_known : known ≠ []) {n : Nat} {s : Scheduler}
    (room : s.round.toNat + n < UInt64.size) :
    ((follow known)^[n] s).round.toNat = s.round.toNat + n := by
  induction n with
  | zero => rfl
  | succ n ih =>
    have hround := ih (by omega)
    rw [Function.iterate_succ_apply', round_follow some_known, UInt64.toNat_add, hround]
    exact Nat.mod_eq_of_lt room

omit [Platform π] in
/-- What each call of a run adds to a list comes from the scheduler that the calls before have led
to. -/
theorem eq_mapIdx_follow {β : Type} (list : Scheduler → List (Turn σ N π) → List β)
    (add : Scheduler → Turn σ N π → β) (nil : ∀ s, list s [] = [])
    (cons : ∀ s t rest, list s (t :: rest) = add s t :: list (s.follow known) rest)
    (s : Scheduler) (turns : List (Turn σ N π)) :
    list s turns = turns.mapIdx fun j t => add ((follow known)^[j] s) t := by
  induction turns generalizing s with
  | nil => exact nil s
  | cons t rest ih =>
    rw [cons, ih, List.mapIdx_cons]
    rfl

theorem attempts_eq (s : Scheduler) (known : List Did) (turns : List (Turn σ N π)) :
    s.attempts known turns = turns.mapIdx fun j t =>
      ((follow known)^[j] s).attempt t.controller t.platform known t.timeout := by
  apply eq_mapIdx_follow (fun s => s.attempts known)
    (fun s t => s.attempt t.controller t.platform known t.timeout) fun _ => rfl
  intro s t rest
  rw [attempts, scheduler_attempt]

theorem places_eq (s : Scheduler) (known : List Did) (turns : List (Turn σ N π)) :
    s.places known turns = turns.mapIdx fun j _ => ((follow known)^[j] s).place known := by
  apply eq_mapIdx_follow (fun s => s.places known) (fun s _ => s.place known) fun _ => rfl
  intro s t rest
  rw [places, scheduler_attempt]

theorem attempts_getElem? (s : Scheduler) (known : List Did) (turns : List (Turn σ N π)) (j : Nat) :
    (s.attempts known turns)[j]? =
      turns[j]?.map fun t =>
        ((follow known)^[j] s).attempt t.controller t.platform known t.timeout := by
  rw [attempts_eq, List.getElem?_mapIdx]

theorem places_getElem? (s : Scheduler) (known : List Did) (turns : List (Turn σ N π)) (j : Nat) :
    (s.places known turns)[j]? = turns[j]?.map fun _ => ((follow known)^[j] s).place known := by
  rw [places_eq, List.getElem?_mapIdx]

/-- The places of a run are those of consecutive rounds. -/
theorem places_eq_of_room (some_known : known ≠ []) {s : Scheduler} {turns : List (Turn σ N π)}
    (room : s.round.toNat + turns.length < UInt64.size) :
    s.places known turns =
      (List.range' s.round.toNat turns.length).map (placeOf known.length) := by
  rw [places_eq]
  apply mapIdx_eq_map_window
  intro j inside
  exact congrArg (placeOf known.length) (round_iterate some_known (by omega))

/-- Whatever the controller answers, the calls for a list of devices put the probe of their place
to the device there. As many calls as there are devices come to every device once, and six times
as many put every probe to every device once, from any round on that leaves room for them in the
word that counts the rounds. -/
theorem attempts_cover (s : Scheduler) {known : List Did} (some_known : known ≠ [])
    (turns : List (Turn σ N π)) :
    (s.attempts known turns).length = turns.length ∧
      (s.places known turns).length = turns.length ∧
      (∀ (j : Nat) (a : Attempt σ N π) (t : Turn σ N π) (place : Nat × Probe),
        (s.attempts known turns)[j]? = some a → turns[j]? = some t →
        (s.places known turns)[j]? = some place →
        ∃ did, known[place.1]? = some did ∧ a.Asks t did place.2) ∧
      (s.round.toNat + turns.length < UInt64.size →
        (turns.length = known.length → ∀ i < known.length,
          ((s.places known turns).map Prod.fst).count i = 1) ∧
        (turns.length = 6 * known.length → ∀ i < known.length, ∀ probe,
          (s.places known turns).count (i, probe) = 1)) := by
  refine ⟨?_, ?_, ?_, ?_⟩
  · rw [attempts_eq, List.length_mapIdx]
  · rw [places_eq, List.length_mapIdx]
  · intro j a t place hattempt hturn hplace
    rw [attempts_getElem?, hturn] at hattempt
    rw [places_getElem?, hturn] at hplace
    cases hattempt
    cases hplace
    obtain ⟨did, hdid, hnext⟩ := next?_eq_some some_known ((follow known)^[j] s)
    exact ⟨did, hdid, asks_attempt _ known t hnext⟩
  · intro room
    have hplaces := places_eq_of_room some_known room
    constructor
    · intro hcalls i inside
      rw [hplaces, hcalls]
      exact count_position inside _
    · intro hcalls i inside probe
      rw [hplaces, hcalls, Nat.mul_comm]
      exact count_place inside probe _

/-- Twelve calls for two devices, from the middle of a sweep on. -/
theorem attempts_cover_two :
    let known : List Did := [.ofRaw 0, .ofRaw 1]
    let turns := List.replicate 12 Turn.idle
    known ≠ [] ∧ (5 : UInt64).toNat + turns.length < UInt64.size ∧
      turns.length = 6 * known.length ∧
      ∀ i < 2, ∀ probe, (({ round := 5 } : Scheduler).places known turns).count (i, probe) = 1 := by
  intro known turns
  have hknown : known ≠ [] := List.cons_ne_nil _ _
  have hroom : (5 : UInt64).toNat + turns.length < UInt64.size := by decide
  obtain ⟨_, _, _, hcover⟩ := attempts_cover { round := 5 } hknown turns
  exact ⟨hknown, hroom, rfl, (hcover hroom).2 rfl⟩

-- Where the word runs over, one device is asked by one probe twice and by another not at all.
example :
    let s : Scheduler := { round := 0xFFFFFFFFFFFFFFFF }
    let places := s.places [.ofRaw 0] (List.replicate 6 Turn.idle)
    places.count (0, .raiseSetpoint) = 2 ∧ places.count (0, .badEndpoint) = 0 := by
  decide

end Run

end Scheduler

end Fieldbus
