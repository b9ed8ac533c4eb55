import Fieldbus.Device.Attributes
import Fieldbus.Proofs.Attribute

namespace Fieldbus

/-- The settings with an attribute written over. -/
def Config.patch (c : Config) (w : Window) (value : UInt32) : Config :=
  .ofBytes (w.write c.toBytes value)

namespace Device

variable {α : Type} {d : Device α} {key : Key} {value : UInt32}

/-- Two devices of one identity, at one time and with the same telemetry asked for: no query
changes any of this. -/
structure Steady (d e : Device α) : Prop where
  identification : e.identification = d.identification
  capabilities : e.capabilities = d.capabilities
  now : e.now = d.now
  requested : e.requested = d.requested

theorem Steady.refl (d : Device α) : d.Steady d := ⟨rfl, rfl, rfl, rfl⟩

theorem Steady.trans {d e f : Device α} (h : d.Steady e) (h' : e.Steady f) : d.Steady f :=
  ⟨h'.identification.trans h.identification, h'.capabilities.trans h.capabilities,
    h'.now.trans h.now, h'.requested.trans h.requested⟩

theorem Steady.did {d e : Device α} (h : d.Steady e) : e.did = d.did :=
  congrArg Identification.did h.identification

/-- The bytes of a section as they stand. -/
def sectionBytes (d : Device α) : Section → List UInt8
  | .identification => d.identification.toBytes
  | .system => d.system.toBytes
  | .config => d.config.toBytes

variable [Application α]

/-- What reading an attribute comes to. -/
inductive Retrieving (d : Device α) (key : Key) : Outcome α (Except Fault UInt32) → Prop
  | stored (w : Window) (resolves : key.resolve = .ok w)
      (unhooked : w.target = .config → d.capabilities.configHooks = false) :
      Retrieving d key ⟨.ok (w.read (d.sectionBytes w.target)), d, []⟩
  | refreshed (w : Window) (config : Config) (app : α) (resolves : key.resolve = .ok w)
      (target : w.target = .config) (hooked : d.capabilities.configHooks = true)
      (told : Application.configRead d.app d.config = (.ok (), config, app)) :
      Retrieving d key ⟨.ok (w.read config.toBytes), { d with config, app }, [.call .configRead]⟩
  | stale (w : Window) (fault : Fault) (config : Config) (app : α) (resolves : key.resolve = .ok w)
      (target : w.target = .config) (hooked : d.capabilities.configHooks = true)
      (told : Application.configRead d.app d.config = (.error fault, config, app)) :
      Retrieving d key ⟨.error fault, { d with config, app }, [.call .configRead]⟩
  | custom (resolves : key.resolve = .error .unknownSection)
      (offered : d.capabilities.customAttributes = true) :
      Retrieving d key ⟨(Application.readCustom d.app key).1,
        { d with app := (Application.readCustom d.app key).2 }, [.call (.readCustom key)]⟩
  | unresolved (fault : Fault) (resolves : key.resolve = .error fault)
      (uncustom : fault = .unknownSection → d.capabilities.customAttributes = false) :
      Retrieving d key ⟨.error fault, d, []⟩

theorem retrieving (d : Device α) (key : Key) : Retrieving d key (d.readAttribute key) := by
  unfold readAttribute
  split
  next w resolves =>
    split
    next target =>
      have h := Retrieving.stored (d := d) w resolves (by simp [target])
      rwa [target] at h
    next target =>
      have h := Retrieving.stored (d := d) w resolves (by simp [target])
      rwa [target] at h
    next target =>
      cases hooked : d.capabilities.configHooks with
      | false =>
        have h := Retrieving.stored (d := d) w resolves fun _ => hooked
        rw [target] at h
        simpa [refreshConfig, hooked, Except.map, sectionBytes] using h
      | true =>
        rcases told : Application.configRead d.app d.config with ⟨result, config, app⟩
        cases result with
        | ok _ =>
          simpa [refreshConfig, hooked, told, Except.map] using
            Retrieving.refreshed w config app resolves target hooked told
        | error fault =>
          simpa [refreshConfig, hooked, told, Except.map] using
            Retrieving.stale w fault config app resolves target hooked told
  next fault resolves =>
    split
    next h =>
      obtain ⟨rfl, offered⟩ := h
      exact .custom resolves offered
    next h => exact .unresolved fault resolves fun hf => by simpa [hf] using h

theorem steady_readAttribute (d : Device α) (key : Key) :
    d.Steady (d.readAttribute key).device := by
  have h := retrieving d key
  generalize d.readAttribute key = out at h ⊢
  cases h <;> exact ⟨rfl, rfl, rfl, rfl⟩

/-- What writing an attribute comes to. -/
inductive Storing (d : Device α) (key : Key) (value : UInt32) :
    Outcome α (Except Fault Unit) → Prop
  | fixed (w : Window) (resolves : key.resolve = .ok w) (fixed : w.readOnly = true) :
      Storing d key value ⟨.error .readOnly, d, []⟩
  | time (is : key = .time) :
      Storing d key value ⟨.ok (),
        { d with system := { d.system with time := value } }.timeWritten value, []⟩
  | plain (w : Window) (resolves : key.resolve = .ok w) (target : w.target = .config)
      (unhooked : d.capabilities.configHooks = false) :
      Storing d key value ⟨.ok (), { d with config := d.config.patch w value }, []⟩
  | accepted (w : Window) (app : α) (resolves : key.resolve = .ok w) (target : w.target = .config)
      (hooked : d.capabilities.configHooks = true)
      (told : Application.configWritten d.app (d.config.patch w value) = (.ok (), app)) :
      Storing d key value ⟨.ok (), { d with config := d.config.patch w value, app },
        [.call (.configWritten (d.config.patch w value))]⟩
  | rejected (w : Window) (fault : Fault) (app : α) (resolves : key.resolve = .ok w)
      (target : w.target = .config) (hooked : d.capabilities.configHooks = true)
      (told : Application.configWritten d.app (d.config.patch w value) = (.error fault, app)) :
      Storing d key value ⟨.error fault, { d with app },
        [.call (.configWritten (d.config.patch w value))]⟩
  | custom (resolves : key.resolve = .error .unknownSection)
      (offered : d.capabilities.customAttributes = true) :
      Storing d key value ⟨(Application.writeCustom d.app key value).1,
        { d with app := (Application.writeCustom d.app key value).2 },
        [.call (.writeCustom key value)]⟩
  | unresolved (fault : Fault) (resolves : key.resolve = .error fault)
      (uncustom : fault = .unknownSection → d.capabilities.customAttributes = false) :
      Storing d key value ⟨.error fault, d, []⟩

theorem writeAttribute_time (d : Device α) (value : UInt32) :
    d.writeAttribute .time value =
      ⟨.ok (), { d with system := { d.system with time := value } }.timeWritten value, []⟩ := by
  simp [writeAttribute, Key.resolve_time, Window.write, SystemStatus.ofBytes_overwrite_time]

theorem storing (d : Device α) (key : Key) (value : UInt32) :
    Storing d key value (d.writeAttribute key value) := by
  by_cases is : key = .time
  · rw [is, writeAttribute_time]
    exact .time rfl
  · unfold writeAttribute
    split
    next w resolves =>
      split
      next fixed => exact .fixed w resolves fixed
      next writable =>
        have hw : w.readOnly = false := by simpa using writable
        split
        next target =>
          rw [Key.readOnly_of_identification resolves target] at hw
          cases hw
        next target => exact absurd (Key.eq_time resolves target hw) is
        next target =>
          change Storing d key value (d.storeConfig (d.config.patch w value))
          cases hooked : d.capabilities.configHooks with
          | false => simpa [storeConfig, hooked] using Storing.plain w resolves target hooked
          | true =>
            rcases told : Application.configWritten d.app (d.config.patch w value) with
              ⟨result, app⟩
            cases result with
            | ok _ =>
              simpa [storeConfig, hooked, told] using
                Storing.accepted w app resolves target hooked told
            | error fault =>
              simpa [storeConfig, hooked, told] using
                Storing.rejected w fault app resolves target hooked told
    next fault resolves =>
      split
      next h =>
        obtain ⟨rfl, offered⟩ := h
        exact .custom resolves offered
      next h => exact .unresolved fault resolves fun hf => by simpa [hf] using h

theorem steady_writeAttribute (d : Device α) (key : Key) (value : UInt32) :
    d.Steady (d.writeAttribute key value).device := by
  have h := storing d key value
  generalize d.writeAttribute key value = out at h ⊢
  cases h <;> exact ⟨rfl, rfl, rfl, rfl⟩

end Device

end Fieldbus
