import Fieldbus.Proofs.Attribute.Window
import Fieldbus.Proofs.Device.Attributes
import Fieldbus.Thermostat

namespace Fieldbus

namespace Config

variable {c : Config} {w : Window}

theorem toBytes_patch (inside : w.stop ≤ Section.config.size) (value : UInt32) :
    (c.patch w value).toBytes = w.write c.toBytes value := by
  have hlength := c.length_toBytes
  exact toBytes_ofBytes ((Window.length_write (hlength ▸ inside) value).trans hlength)

theorem patch_patch (inside : w.stop ≤ Section.config.size) (value later : UInt32) :
    (c.patch w value).patch w later = c.patch w later := by
  have hlength := c.length_toBytes
  rw [patch, toBytes_patch inside, Window.write_write (hlength ▸ inside), ← patch]

end Config

namespace SystemStatus

/-- The time, the start time and the uptime of the synchronisation take four bytes each. -/
theorem getElem?_clock (s : SystemStatus) {uptimeSynced time startTime : UInt32} {i : Nat}
    (hsynced : i < 0 ∨ 4 ≤ i) (htime : i < 4 ∨ 8 ≤ i) (hstart : i < 12 ∨ 16 ≤ i) :
    ({ s with time, startTime, uptimeSynced } : SystemStatus).toBytes[i]? = s.toBytes[i]? := by
  have hlength (t : SystemStatus) : t.toBytes.length = 57 := t.length_toBytes
  calc ({ s with time, startTime, uptimeSynced } : SystemStatus).toBytes[i]?
      = ({ s with time, uptimeSynced } : SystemStatus).toBytes[i]? := by
        rw [toBytes_startTime { s with time, uptimeSynced }]
        exact getElem?_overwrite (by simpa using hstart) (by simp [hlength])
    _ = ({ s with uptimeSynced } : SystemStatus).toBytes[i]? := by
        rw [toBytes_time { s with uptimeSynced }]
        exact getElem?_overwrite (by simpa using htime) (by simp [hlength])
    _ = s.toBytes[i]? := by
        rw [toBytes_uptimeSynced]
        exact getElem?_overwrite (by simpa using hsynced) (by simp [hlength])

end SystemStatus

namespace Key

def uptimeSynced : Key := ofParts 1 0 0

def startTime : Key := ofParts 1 3 0

/-- The attributes that change when one is written: the time brings the start time along, and the
uptime of the synchronisation. -/
def touched (k : Key) : List Key := if k = time then [time, startTime, uptimeSynced] else [k]

theorem resolve_uptimeSynced : uptimeSynced.resolve = .ok ⟨.system, 0, 4, true⟩ := rfl

theorem resolve_startTime : startTime.resolve = .ok ⟨.system, 12, 4, true⟩ := rfl

end Key

namespace Device

variable {α : Type} {d e : Device α} {key : Key} {value : UInt32} {w : Window}

theorem length_sectionBytes (d : Device α) (s : Section) : (d.sectionBytes s).length = s.size := by
  cases s with
  | identification => exact d.identification.length_toBytes
  | system => exact d.system.length_toBytes
  | config => exact d.config.length_toBytes

variable [Application α]

/-- A device after a value was written to an attribute. -/
structure Wrote (d e : Device α) (key : Key) (w : Window) (value : UInt32) : Prop where
  read : e.readAttribute key = ⟨.ok (.ofNat (value.toNat % 2 ^ (8 * w.size))), e, []⟩
  /-- A later write leaves nothing of this one. -/
  overridden (later : UInt32) : e.writeAttribute key later = d.writeAttribute key later
  frame (s : Section) (i : Nat)
    (outside : ∀ j ∈ key.touched, ∀ v : Window, j.resolve = .ok v → ¬ v.Covers s i) :
    (e.sectionBytes s)[i]? = (d.sectionBytes s)[i]?
  clock : key = .time → e.system = { d.system with
    time := value
    startTime := .ofNat (value.toNat - d.system.uptime.toNat)
    uptimeSynced := d.system.uptime }

theorem writeAttribute_config (d : Device α) (resolves : key.resolve = .ok w)
    (target : w.target = .config) (unhooked : d.capabilities.configHooks = false)
    (value : UInt32) :
    d.writeAttribute key value = ⟨.ok (), { d with config := d.config.patch w value }, []⟩ := by
  simp only [writeAttribute, resolves, Key.readOnly_of_config resolves target, target]
  change d.storeConfig (d.config.patch w value) = _
  simp [storeConfig, unhooked]

theorem readAttribute_config (d : Device α) (resolves : key.resolve = .ok w)
    (target : w.target = .config) (unhooked : d.capabilities.configHooks = false) :
    d.readAttribute key = ⟨.ok (w.read d.config.toBytes), d, []⟩ := by
  simp [readAttribute, resolves, target, refreshConfig, unhooked, Except.map]

theorem readAttribute_time (d : Device α) :
    d.readAttribute .time = ⟨.ok d.system.time, d, []⟩ := by
  have hread : (⟨.system, 4, 4, false⟩ : Window).read d.system.toBytes = d.system.time :=
    calc word32 4 d.system.toBytes = (SystemStatus.ofBytes d.system.toBytes).time := rfl
      _ = d.system.time := by rw [SystemStatus.ofBytes_toBytes]
  simp only [readAttribute, Key.resolve_time, hread]

theorem wrote_config (resolves : key.resolve = .ok w) (target : w.target = .config)
    (unhooked : d.capabilities.configHooks = false) (value : UInt32) :
    d.Wrote { d with config := d.config.patch w value } key w value := by
  have hinside : w.stop ≤ Section.config.size := target ▸ Key.stop_le_size resolves
  have hstop : w.stop ≤ d.config.toBytes.length := by rwa [Config.length_toBytes]
  have hne : key ≠ .time := by
    rintro rfl
    cases Except.ok.inj (Key.resolve_time.symm.trans resolves)
    cases target
  let e := { d with config := d.config.patch w value }
  refine ⟨?_, fun later => ?_, fun s i outside => ?_, fun is => absurd is hne⟩
  · rw [readAttribute_config e resolves target unhooked, Config.toBytes_patch hinside,
      Window.read_write hstop]
  · rw [writeAttribute_config e resolves target unhooked,
      writeAttribute_config d resolves target unhooked, Config.patch_patch hinside]
  · cases s with
    | identification => rfl
    | system => rfl
    | config =>
      have hbyte := Window.outside_of_not_covers
        (outside key (by simp [Key.touched, hne]) w resolves) target
      change (d.config.patch w value).toBytes[i]? = d.config.toBytes[i]?
      rw [Config.toBytes_patch hinside, Window.getElem?_write hstop hbyte]

omit [Application α] in
/-- The start time is the time less the uptime, and zero when the uptime is longer. -/
theorem system_timeWritten (d : Device α) (value : UInt32) :
    ({ d with system := { d.system with time := value } }.timeWritten value).system =
      { d.system with
        time := value
        startTime := .ofNat (value.toNat - d.system.uptime.toNat)
        uptimeSynced := d.system.uptime } := by
  have hstart : (if d.system.uptime ≤ value then value - d.system.uptime else 0) =
      UInt32.ofNat (value.toNat - d.system.uptime.toNat) := by
    split
    next h =>
      rw [← UInt32.toNat_sub_of_le value _ h, UInt32.ofNat_toNat]
    next h =>
      have hlt : value.toNat < d.system.uptime.toNat :=
        UInt32.lt_iff_toNat_lt.mp (UInt32.not_le.mp h)
      rw [Nat.sub_eq_zero_of_le (Nat.le_of_lt hlt)]
      rfl
  simp only [timeWritten, hstart]

theorem wrote_time (d : Device α) (value : UInt32) :
    d.Wrote (d.writeAttribute .time value).device .time ⟨.system, 4, 4, false⟩ value := by
  rw [writeAttribute_time]
  refine ⟨?_, fun later => ?_, fun s i outside => ?_, fun _ => system_timeWritten d value⟩
  · rw [readAttribute_time, system_timeWritten]
    have hvalue : UInt32.ofNat (value.toNat % 2 ^ (8 * 4)) = value := by
      rw [Nat.mod_eq_of_lt value.toNat_lt, UInt32.ofNat_toNat]
    rw [hvalue]
  · rw [writeAttribute_time, writeAttribute_time]
    simp only [timeWritten]
  · cases s with
    | identification => rfl
    | config => rfl
    | system =>
      have htime := Window.outside_of_not_covers (outside .time (by decide) _ Key.resolve_time) rfl
      have hstart := Window.outside_of_not_covers
        (outside .startTime (by decide) _ Key.resolve_startTime) rfl
      have hsynced := Window.outside_of_not_covers
        (outside .uptimeSynced (by decide) _ Key.resolve_uptimeSynced) rfl
      change (SystemStatus.toBytes _)[i]? = d.system.toBytes[i]?
      rw [system_timeWritten]
      exact d.system.getElem?_clock hsynced htime hstart

/-- Of the attributes that a device keeps itself, the time and the settings can be written. -/
theorem writeAttribute_eq_ok_iff (unhooked : d.capabilities.configHooks = false)
    (standard : key.isStandard = true) (value : UInt32) :
    (d.writeAttribute key value).result = .ok () ↔
      ∃ w, key.resolve = .ok w ∧ (key = .time ∨ w.target = .config) := by
  constructor
  · have h := storing d key value
    generalize d.writeAttribute key value = out at h ⊢
    intro done
    cases h with
    | fixed => simp at done
    | time is => exact ⟨_, is ▸ Key.resolve_time, Or.inl is⟩
    | plain w resolves target => exact ⟨w, resolves, Or.inr target⟩
    | accepted w _ resolves target => exact ⟨w, resolves, Or.inr target⟩
    | rejected => simp at done
    | custom resolves => exact absurd resolves (Key.resolve_ne_unknownSection standard)
    | unresolved => simp at done
  · rintro ⟨w, resolves, rfl | target⟩
    · rw [writeAttribute_time]
    · rw [writeAttribute_config d resolves target unhooked]

/-- The attributes of a device without settings hooks are a store: their windows cut the sections
into pieces of up to four bytes, and what is written to an attribute is read from it, replaced by
the next write, and leaves the bytes of the other attributes alone. -/
theorem attribute_store_laws (d : Device α) (unhooked : d.capabilities.configHooks = false)
    (key : Key) (standard : key.isStandard = true) (value : UInt32) :
    (∀ s : Section, s.Tiled ∧ (d.sectionBytes s).length = s.size) ∧
      ((d.writeAttribute key value).result = .ok () ↔
        ∃ w, key.resolve = .ok w ∧ (key = .time ∨ w.target = .config)) ∧
      ((d.writeAttribute key value).result = .ok () → ∀ w, key.resolve = .ok w →
        d.Wrote (d.writeAttribute key value).device key w value) := by
  have hdone := writeAttribute_eq_ok_iff unhooked standard value
  refine ⟨fun s => ⟨s.tiled, d.length_sectionBytes s⟩, hdone, fun done w resolves => ?_⟩
  obtain ⟨v, hv, rfl | target⟩ := hdone.mp done
  · cases Except.ok.inj (Key.resolve_time.symm.trans resolves)
    exact d.wrote_time value
  · cases Except.ok.inj (hv.symm.trans resolves)
    rw [writeAttribute_config d resolves target unhooked]
    exact wrote_config resolves target unhooked value

end Device

namespace Thermostat

/-- The flags take one byte, and of a longer value they keep the low one. -/
theorem attribute_store_laws_flags :
    let d : Device Thermostat := .build (.ofName (.ofRaw 1) 1 "d" 0) {} { temperature := 1900 }
    ((d.writeAttribute (.ofParts 2 4 0) 767).device.readAttribute (.ofParts 2 4 0)).result =
      .ok 255 := by
  intro d
  have flags : (Key.ofParts 2 4 0).resolve = .ok ⟨.config, 10, 1, false⟩ := rfl
  obtain ⟨_, hdone, hwrote⟩ := Device.attribute_store_laws d rfl (.ofParts 2 4 0) rfl 767
  have done := hdone.mpr ⟨_, flags, Or.inr rfl⟩
  rw [(hwrote done _ flags).read]
  rfl

end Thermostat

end Fieldbus
