import Fieldbus.Attribute.Records
import Fieldbus.Proofs.Platform

namespace Fieldbus

theorem mod_span_le (n width : Nat) : n % (width + 1) ≤ width :=
  Nat.lt_succ_iff.mp (Nat.mod_lt n width.succ_pos)

section Words

variable {a b : UInt32}

/-- The sum of two words, if it is one. -/
def sumWord? (a b : UInt32) : Option UInt32 :=
  if a.toNat + b.toNat < UInt32.size then some (a + b) else none

/-- The difference of two words, if it is one. -/
def differenceWord? (a b : UInt32) : Option UInt32 := if b ≤ a then some (a - b) else none

theorem sumWord?_of_le {c : UInt32} (fits : a.toNat + b.toNat ≤ c.toNat) :
    ∃ s, sumWord? a b = some s ∧ s.toNat = a.toNat + b.toNat := by
  have hlt : a.toNat + b.toNat < UInt32.size := Nat.lt_of_le_of_lt fits c.toNat_lt
  exact ⟨a + b, if_pos hlt, by rw [UInt32.toNat_add, Nat.mod_eq_of_lt hlt]⟩

theorem differenceWord?_of_le (le : b ≤ a) :
    ∃ s, differenceWord? a b = some s ∧ s.toNat = a.toNat - b.toNat :=
  ⟨a - b, if_pos le, UInt32.toNat_sub_of_le a b le⟩

end Words

/-- The remainder of a draw by a span that may take one bit more than a word. -/
def offsetWord (draw width : UInt32) : UInt32 :=
  (draw.toUInt64 % (width.toUInt64 + 1)).toUInt32

theorem toNat_offsetWord (draw width : UInt32) :
    (offsetWord draw width).toNat = draw.toNat % (width.toNat + 1) := by
  have hdraw := draw.toNat_lt
  have hwidth := width.toNat_lt
  have hspan : (width.toUInt64 + 1).toNat = width.toNat + 1 := by
    rw [UInt64.toNat_add, UInt32.toNat_toUInt64, show (1 : UInt64).toNat = 1 from rfl]
    exact Nat.mod_eq_of_lt (by omega)
  have hle := Nat.mod_le draw.toNat (width.toNat + 1)
  rw [offsetWord, UInt64.toNat_toUInt32, UInt64.toNat_mod, hspan, UInt32.toNat_toUInt64]
  exact Nat.mod_eq_of_lt (by omega)

/-- A delay worked out in words, unless a step leaves its width. -/
def delayWord? (low high : UInt32) (bytes : Vector UInt8 4) : Option UInt32 :=
  if high ≤ low then some low
  else do
    let width ← differenceWord? high low
    sumWord? low (offsetWord (word32 0 bytes.toList) width)

section Delay

variable {low high : UInt32}

theorem toNat_word32_bytes (bytes : Vector UInt8 4) :
    (word32 0 bytes.toList).toNat = ofLeBytes bytes.toList := by
  have hbound := ofLeBytes_lt bytes.toList
  have hall : window 0 4 bytes.toList = bytes.toList := by
    rw [window, List.drop_zero, List.take_of_length_le (by simp)]
  rw [Vector.length_toList] at hbound
  rw [word32, hall, UInt32.toNat_ofNat']
  exact Nat.mod_eq_of_lt hbound

/-- No step of a delay leaves its width. -/
theorem exists_delayWord? (wide : low < high) (bytes : Vector UInt8 4) :
    ∃ w, delayWord? low high bytes = some w ∧
      w.toNat = low.toNat + ofLeBytes bytes.toList % (high.toNat - low.toNat + 1) := by
  have hlt := UInt32.lt_iff_toNat_lt.mp wide
  obtain ⟨width, hwidth, hsize⟩ := differenceWord?_of_le (Nat.le_of_lt wide)
  have hoffset := toNat_offsetWord (word32 0 bytes.toList) width
  rw [toNat_word32_bytes, hsize] at hoffset
  have hmod := mod_span_le (ofLeBytes bytes.toList) (high.toNat - low.toNat)
  obtain ⟨w, hsum, hw⟩ := sumWord?_of_le (a := low) (c := high)
    (b := offsetWord (word32 0 bytes.toList) width) (by omega)
  refine ⟨w, ?_, by rw [hw, hoffset]⟩
  rw [delayWord?, if_neg (UInt32.not_le.mpr wide), hwidth]
  exact hsum

theorem mem_of_delayWord? {bytes : Vector UInt8 4} {w : UInt32} (wide : low < high)
    (drawn : delayWord? low high bytes = some w) : low ≤ w ∧ w ≤ high := by
  have hlt := UInt32.lt_iff_toNat_lt.mp wide
  obtain ⟨v, hv, hvalue⟩ := exists_delayWord? wide bytes
  cases Option.some.inj (hv.symm.trans drawn)
  have hmod := mod_span_le (ofLeBytes bytes.toList) (high.toNat - low.toNat)
  rw [UInt32.le_iff_toNat_le, UInt32.le_iff_toNat_le]
  omega

/-- Each delay between the bounds is drawn by some bytes, such as those of its distance to the
lower bound. -/
theorem exists_bytes_of_mem {w : UInt32} (wide : low < high) (above : low ≤ w) (below : w ≤ high) :
    ∃ bytes, delayWord? low high bytes = some w := by
  have hw := w.toNat_lt
  have habove := UInt32.le_iff_toNat_le.mp above
  have hbelow := UInt32.le_iff_toNat_le.mp below
  have hbytes : ofLeBytes (leBytes 4 (w.toNat - low.toNat)) = w.toNat - low.toNat := by
    rw [ofLeBytes_leBytes]
    exact Nat.mod_eq_of_lt (by simp only [byteSpan]; omega)
  let bytes : Vector UInt8 4 := ⟨(leBytes 4 (w.toNat - low.toNat)).toArray, by simp⟩
  obtain ⟨v, hv, hvalue⟩ := exists_delayWord? wide bytes
  rw [show bytes.toList = leBytes 4 (w.toNat - low.toNat) from rfl, hbytes,
    Nat.mod_eq_of_lt (by omega)] at hvalue
  refine ⟨bytes, hv.trans (congrArg some (UInt32.toNat_inj.mp ?_))⟩
  omega

variable {π : Type} [Platform π] {p : π}

theorem delayBetween_of_le {low high : Nat} (narrow : high ≤ low) :
    delayBetween p low high = (low, p) := if_pos narrow

theorem delayBetween_of_lt {low high : Nat} (wide : low < high) :
    delayBetween p low high =
      (low + ofLeBytes (Platform.entropy p 4).1.toList % (high - low + 1),
        (Platform.entropy p 4).2) := if_neg (Nat.not_le.mpr wide)

/-- A delay in words is the delay that a platform with these bytes gives. -/
theorem delayBetween_toNat {w : UInt32}
    (drawn : delayWord? low high (Platform.entropy p 4).1 = some w) :
    (delayBetween p low.toNat high.toNat).1 = w.toNat := by
  rcases Nat.lt_or_ge low.toNat high.toNat with wide | narrow
  · obtain ⟨v, hv, hvalue⟩ := exists_delayWord? (UInt32.lt_iff_toNat_lt.mpr wide) _
    rw [delayBetween_of_lt wide, ← Option.some.inj (hv.symm.trans drawn), hvalue]
  · rw [delayWord?, if_pos (UInt32.le_iff_toNat_le.mpr narrow)] at drawn
    rw [delayBetween_of_le narrow, Option.some.inj drawn]

end Delay

/-- What a random delay may be: between the bounds, or the lower one if they leave no choice. -/
def Config.Allows (c : Config) (delay : Nat) : Prop :=
  if c.telemetryDelayMax ≤ c.telemetryDelayMin then delay = c.telemetryDelayMin.toNat
  else c.telemetryDelayMin.toNat ≤ delay ∧ delay ≤ c.telemetryDelayMax.toNat

/-- The bytes of entropy that a random delay takes. -/
def Config.entropyPerDelay (c : Config) : Nat :=
  if c.telemetryDelayMin < c.telemetryDelayMax then 4 else 0

theorem Config.allows_delayBetween {π : Type} [Platform π] (c : Config) (p : π) :
    c.Allows (delayBetween p c.telemetryDelayMin.toNat c.telemetryDelayMax.toNat).1 := by
  unfold Config.Allows
  split
  next narrow => rw [delayBetween_of_le (UInt16.le_iff_toNat_le.mp narrow)]
  next wide =>
    have hlt := UInt16.lt_iff_toNat_lt.mp (UInt16.not_le.mp wide)
    rw [delayBetween_of_lt hlt]
    have hmod := mod_span_le (ofLeBytes (Platform.entropy p 4).1.toList)
      (c.telemetryDelayMax.toNat - c.telemetryDelayMin.toNat)
    omega

end Fieldbus
