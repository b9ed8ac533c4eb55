import Fieldbus.Frame

namespace Fieldbus

theorem exists_of_map_eq_ok {ε β γ : Type} {g : β → γ} {x : Except ε β} {c : γ}
    (h : x.map g = .ok c) : ∃ b, x = .ok b ∧ c = g b := by
  cases x with
  | error e => simp [Except.map] at h
  | ok b => exact ⟨b, rfl, (Except.ok.inj h).symm⟩

theorem exists_of_bind_eq_ok {ε β γ : Type} {g : β → Except ε γ} {x : Except ε β} {c : γ}
    (h : x >>= g = .ok c) : ∃ b, x = .ok b ∧ g b = .ok c := by
  cases x with
  | error e => simp [bind, Except.bind] at h
  | ok b => exact ⟨b, rfl, h⟩

theorem window_append (before bytes after : List UInt8) :
    window before.length bytes.length (before ++ bytes ++ after) = bytes := by
  rw [window, List.append_assoc, List.drop_left, List.take_left]

theorem word16_of_window {offset : Nat} {bytes : List UInt8} {n : UInt16}
    (h : window offset 2 bytes = leBytes 2 n.toNat) : word16 offset bytes = n := by
  have hn := n.toNat_lt
  have hspan : n.toNat % byteSpan 2 = n.toNat := Nat.mod_eq_of_lt (by simpa [byteSpan] using hn)
  rw [word16, h, ofLeBytes_leBytes, hspan, UInt16.ofNat_toNat]

theorem word32_of_window {offset : Nat} {bytes : List UInt8} {n : UInt32}
    (h : window offset 4 bytes = leBytes 4 n.toNat) : word32 offset bytes = n := by
  have hn := n.toNat_lt
  have hspan : n.toNat % byteSpan 4 = n.toNat := Nat.mod_eq_of_lt (by simpa [byteSpan] using hn)
  rw [word32, h, ofLeBytes_leBytes, hspan, UInt32.ofNat_toNat]

namespace Frame

theorem key?_keyValue {id : Id} (key : Key) (value : UInt32)
    (h : id.frameType.isAttribute = true) : (keyValue id key value).key? = some key := by
  have hwindow := window_append [] (leBytes 2 key.raw.toNat) (leBytes 4 value.toNat)
  rw [length_leBytes] at hwindow
  have hword : word16 0 (keyValue id key value).payload = key.raw := word16_of_window hwindow
  rw [key?, hword, if_pos ⟨h, by simp [keyValue]⟩]

theorem value?_keyValue {id : Id} (key : Key) (value : UInt32)
    (h : id.frameType.isAttribute = true) : (keyValue id key value).value? = some value := by
  have hwindow := window_append (leBytes 2 key.raw.toNat) (leBytes 4 value.toNat) []
  rw [length_leBytes, length_leBytes, List.append_nil] at hwindow
  have hword : word32 2 (keyValue id key value).payload = value := word32_of_window hwindow
  rw [value?, hword, if_pos ⟨h, by simp [keyValue]⟩]

theorem key?_readAttribute (did : Did) (key : Key) : (readAttribute did key).key? = some key := by
  have hwindow := window_append [] (leBytes 2 key.raw.toNat) []
  rw [length_leBytes, List.append_nil] at hwindow
  have hword : word16 0 (readAttribute did key).payload = key.raw := word16_of_window hwindow
  rw [key?, hword, if_pos ⟨rfl, by simp [readAttribute]⟩]

theorem isError_errorResponse (did : Did) (queryType : FrameType) (endpoint : Endpoint)
    (code argument : UInt32) :
    (errorResponse did queryType endpoint code argument).id.isError = true := by
  cases queryType <;> rfl

theorem error?_errorResponse (did : Did) (queryType : FrameType) (endpoint : Endpoint)
    (code argument : UInt32) :
    (errorResponse did queryType endpoint code argument).error? = some (code, argument) := by
  have hfirst := window_append [] (leBytes 4 code.toNat) (leBytes 4 argument.toNat)
  have hsecond := window_append (leBytes 4 code.toNat) (leBytes 4 argument.toNat) []
  rw [length_leBytes] at hfirst hsecond
  rw [length_leBytes, List.append_nil] at hsecond
  have hcode : word32 0 (errorResponse did queryType endpoint code argument).payload = code :=
    word32_of_window hfirst
  have hargument :
      word32 4 (errorResponse did queryType endpoint code argument).payload = argument :=
    word32_of_window hsecond
  have herror := isError_errorResponse did queryType endpoint code argument
  rw [error?, hcode, hargument, if_pos ⟨herror, by simp [errorResponse]⟩,
    if_pos (by simp [errorResponse])]

end Frame

end Fieldbus
