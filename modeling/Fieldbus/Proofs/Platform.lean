import Fieldbus.Platform

namespace Fieldbus

namespace Platform

variable {π ρ : Type} {β : Type}

/-- The same answer from two platforms, which are related as before. -/
def Agree (R : π → ρ → Prop) (x : β × π) (y : β × ρ) : Prop := x.1 = y.1 ∧ R x.2 y.2

/-- Related platforms behave alike and stay related, but for what they receive. -/
structure Alike [Platform π] [Platform ρ] (R : π → ρ → Prop) : Prop where
  now {p : π} {q : ρ} (related : R p q) : Platform.now p = Platform.now q
  send {p : π} {q : ρ} (related : R p q) (frame : Frame) (delay : Nat) :
    Agree R (Platform.send p frame delay) (Platform.send q frame delay)
  setClock {p : π} {q : ρ} (related : R p q) (secs : UInt32) :
    Agree R (Platform.setClock p secs) (Platform.setClock q secs)
  entropy {p : π} {q : ρ} (related : R p q) (n : Nat) :
    Agree R (Platform.entropy p n) (Platform.entropy q n)

variable [Platform π] [Platform ρ]

theorem Alike.delayBetween {R : π → ρ → Prop} {p : π} {q : ρ} (alike : Alike R)
    (related : R p q) (low high : Nat) :
    Agree R (delayBetween p low high) (delayBetween q low high) := by
  unfold Fieldbus.delayBetween
  split
  next => exact ⟨rfl, related⟩
  next =>
    obtain ⟨hbytes, hrest⟩ := alike.entropy related 4
    exact ⟨by simp only [hbytes], hrest⟩

end Platform

/-- A frame that was handed over with a delay, and whether the platform took it. -/
structure Sending where
  frame : Frame
  delay : Nat
  result : Except Fault Unit

/-- A platform together with what was handed over to it and the bytes of entropy it gave. -/
structure Journal (π : Type) where
  platform : π
  sendings : List Sending := []
  drawn : Nat := 0

section Journal

variable {π : Type} [Platform π]

instance : Platform (Journal π) where
  send j frame delay :=
    let (result, platform) := Platform.send j.platform frame delay
    (result, { j with platform, sendings := j.sendings ++ [⟨frame, delay, result⟩] })
  receive j :=
    ((Platform.receive j.platform).1, { j with platform := (Platform.receive j.platform).2 })
  now j := Platform.now j.platform
  setClock j secs :=
    ((Platform.setClock j.platform secs).1,
      { j with platform := (Platform.setClock j.platform secs).2 })
  entropy j n :=
    ((Platform.entropy j.platform n).1,
      { j with platform := (Platform.entropy j.platform n).2, drawn := j.drawn + n })
  waiting j := Platform.waiting j.platform
  waiting_receive j j' f h := by
    obtain ⟨hfirst, hsecond⟩ := Prod.mk.inj h
    rw [← hsecond]
    exact Platform.waiting_receive _ _ f (Prod.ext hfirst rfl)

/-- Two journals with the same entries, kept about related platforms. -/
structure Journal.Like {ρ : Type} (R : π → ρ → Prop) (j : Journal π) (k : Journal ρ) : Prop where
  platform : R j.platform k.platform
  sendings : j.sendings = k.sendings
  drawn : j.drawn = k.drawn

theorem Platform.Alike.journals {ρ : Type} [Platform ρ] {R : π → ρ → Prop} (alike : Alike R) :
    Alike (Journal.Like R) where
  now related := alike.now related.platform
  send related frame delay := by
    obtain ⟨hresult, hrest⟩ := alike.send related.platform frame delay
    refine ⟨hresult, hrest, ?_, related.drawn⟩
    simp only [Platform.send, related.sendings, hresult]
  setClock related secs := by
    obtain ⟨hresult, hrest⟩ := alike.setClock related.platform secs
    exact ⟨hresult, hrest, related.sendings, related.drawn⟩
  entropy related n := by
    obtain ⟨hbytes, hrest⟩ := alike.entropy related.platform n
    exact ⟨hbytes, hrest, related.sendings, congrArg (· + n) related.drawn⟩

/-- A journal behaves like the platform that it is about. -/
theorem alike_journal : Platform.Alike fun (j : Journal π) (p : π) => j.platform = p where
  now related := congrArg Platform.now related
  send related _ _ := by cases related; exact ⟨rfl, rfl⟩
  setClock related _ := by cases related; exact ⟨rfl, rfl⟩
  entropy related _ := by cases related; exact ⟨rfl, rfl⟩

variable (j : Journal π) (low high : Nat)

theorem sendings_delayBetween : (delayBetween j low high).2.sendings = j.sendings := by
  unfold delayBetween
  split <;> rfl

/-- Four bytes are drawn exactly if there is a choice. -/
theorem drawn_delayBetween :
    (delayBetween j low high).2.drawn = j.drawn + if low < high then 4 else 0 := by
  unfold delayBetween
  split
  next narrow => rw [if_neg (Nat.not_lt.mpr narrow)]; rfl
  next wide => rw [if_pos (Nat.not_le.mp wide)]; rfl

end Journal

end Fieldbus
