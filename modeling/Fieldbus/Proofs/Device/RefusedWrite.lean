import Fieldbus.Proofs.Attribute.Unresolved
import Fieldbus.Proofs.Device.Attributes

namespace Fieldbus

namespace Device

variable {α : Type} [Application α] {d : Device α} {key : Key} {value : UInt32} {fault : Fault}

/-- Why a device does not write a value to an attribute. -/
inductive Refuses (d : Device α) (key : Key) (value : UInt32) : Fault → Prop
  | fixed (w : Window) (resolves : key.resolve = .ok w) (fixed : w.readOnly = true) :
      Refuses d key value .readOnly
  | rejected (w : Window) (fault : Fault) (resolves : key.resolve = .ok w)
      (target : w.target = .config) (hooked : d.capabilities.configHooks = true)
      (told : (Application.configWritten d.app (d.config.patch w value)).1 = .error fault) :
      Refuses d key value fault
  | custom (fault : Fault) (foreign : 3 ≤ key.sectionCode)
      (offered : d.capabilities.customAttributes = true)
      (told : (Application.writeCustom d.app key value).1 = .error fault) :
      Refuses d key value fault
  | unresolved (fault : Fault) (unresolved : key.Unresolved fault)
      (uncustom : fault = .unknownSection → d.capabilities.customAttributes = false) :
      Refuses d key value fault

theorem Storing.refuses {out : Outcome α (Except Fault Unit)} (h : d.Storing key value out)
    (failed : out.result = .error fault) : d.Refuses key value fault := by
  cases h with
  | fixed w resolves fixed =>
    cases Except.error.inj failed
    exact .fixed w resolves fixed
  | time => cases failed
  | plain => cases failed
  | accepted => cases failed
  | rejected w other app resolves target hooked told =>
    cases Except.error.inj failed
    exact .rejected w _ resolves target hooked (by rw [told])
  | custom resolves offered =>
    exact .custom fault (Key.resolve_eq_unknownSection_iff.mp resolves) offered failed
  | unresolved other resolves uncustom =>
    cases Except.error.inj failed
    exact .unresolved _ (Key.resolve_eq_error_iff.mp resolves) uncustom

theorem Refuses.result (h : d.Refuses key value fault) :
    (d.writeAttribute key value).result = .error fault := by
  cases h with
  | fixed w resolves fixed => simp [writeAttribute, resolves, fixed]
  | rejected w _ resolves target hooked told =>
    simp only [writeAttribute, resolves, Key.readOnly_of_config resolves target, target]
    change (d.storeConfig (d.config.patch w value)).result = .error fault
    simpa [storeConfig, hooked] using told
  | custom _ foreign offered told =>
    simpa [writeAttribute, Key.resolve_eq_unknownSection_iff.mpr foreign, offered] using told
  | unresolved _ unresolved uncustom =>
    have hcustom : ¬(fault = .unknownSection ∧ d.capabilities.customAttributes = true) := by
      rintro ⟨is, offered⟩
      cases (uncustom is).symm.trans offered
    simp [writeAttribute, unresolved.resolve, hcustom]

/-- Only the application may change when a write fails: settings that it rejects are taken back as
a whole. -/
theorem Storing.only_app {out : Outcome α (Except Fault Unit)} (h : d.Storing key value out)
    (failed : out.result = .error fault) : out.device = { d with app := out.device.app } := by
  cases h with
  | fixed => rfl
  | time => cases failed
  | plain => cases failed
  | accepted => cases failed
  | rejected => rfl
  | custom => rfl
  | unresolved => rfl

/-- A write of an attribute fails for one of four reasons, and tells which: the attribute is
read-only, the application rejects the settings or the value of an attribute of its own, or there
is no such attribute. It leaves every section as it was, and the time to set, and all else but the
application. -/
theorem refused_write_changes_nothing (d : Device α) (key : Key) (value : UInt32) :
    let out := d.writeAttribute key value
    (∀ fault, out.result = .error fault ↔ d.Refuses key value fault) ∧
      (out.result ≠ .ok () →
        (∀ s, out.device.sectionBytes s = d.sectionBytes s) ∧
          out.device.pendingSync = d.pendingSync ∧
          out.device = { d with app := out.device.app }) := by
  intro out
  have hstoring : d.Storing key value out := storing d key value
  refine ⟨fun fault => ⟨hstoring.refuses, Refuses.result⟩, fun unwritten => ?_⟩
  cases failed : out.result with
  | ok _ => exact absurd failed unwritten
  | error fault =>
    have happ := hstoring.only_app failed
    refine ⟨fun s => ?_, ?_, happ⟩
    · rw [happ]
      cases s <;> rfl
    · rw [happ]

end Device

end Fieldbus
