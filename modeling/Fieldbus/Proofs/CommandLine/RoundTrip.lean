import Fieldbus.Proofs.CommandLine.Encode
import Fieldbus.Proofs.Text.Numeral
import Mathlib.Data.List.Basic

namespace Fieldbus

namespace Hex

theorem hash_notMem {cs : List Char} (digits : ∀ c ∈ cs, IsDigit c) : '#' ∉ cs :=
  fun hash => absurd (digits _ hash) (by decide)

end Hex

theorem readIdentifier_encode (id : Id) :
    readIdentifier (String.ofList ((Hex.fixed 3 id.encode).map Char.toUpper)) = .ok id.encode := by
  have hlt := id.encode_lt
  have hread : readNumber 0x100000000
      (String.ofList ((Hex.fixed 3 id.encode).map Char.toUpper)) = .ok id.encode :=
    readNumber_fixed Hex.keepsDigits_toUpper (by decide) (Nat.lt_trans hlt (by decide))
      (Nat.lt_trans hlt (by decide))
  rw [readIdentifier, hread]
  exact if_neg (Nat.not_lt.mpr (Nat.le_of_lt_succ hlt))

theorem encode_decode_of_read {text : String} {raw : Nat} (read : readIdentifier text = .ok raw) :
    (Id.decode raw).encode = raw := by
  obtain ⟨n, _, rest⟩ := exists_of_bind_eq_ok read
  split at rest
  next => cases rest
  next small =>
    cases rest
    have hsmall : raw ≤ 2047 := Nat.not_lt.mp small
    rw [Id.encode_decode, Nat.mod_eq_of_lt (Nat.lt_succ_of_le hsmall)]

namespace Frame

variable {f : Frame} {ident data : String}

/-- A dump line has only one number sign, which is behind the identifier. -/
theorem dumpLine_eq_iff :
    f.dumpLine = ident ++ "#" ++ data ↔
      ident = String.ofList ((Hex.fixed 3 f.id.encode).map Char.toUpper) ∧
        data = Hex.upperText f.payload := by
  constructor
  · intro split
    have hident := Hex.hash_notMem (Hex.isDigit_fixed Hex.keepsDigits_toUpper 3 f.id.encode)
    have hdata := Hex.hash_notMem (Hex.isDigit_ofBytes Hex.keepsDigits_toUpper f.payload)
    have hlist := congrArg String.toList split
    simp only [dumpLine, Hex.upperText, String.toList_append, String.toList_ofList,
      show "#".toList = ['#'] from rfl, List.append_assoc, List.singleton_append] at hlist
    obtain ⟨front, _, back⟩ := (List.append_cons_inj_of_notMem hident hdata).mp hlist
    rw [front, Hex.upperText, back, String.ofList_toList, String.ofList_toList]
    exact ⟨rfl, rfl⟩
  · rintro ⟨rfl, rfl⟩
    rfl

theorem decode_dumped (dumped : f.dumpLine = ident ++ "#" ++ data) :
    DecodeRequest.frame ⟨ident, data⟩ = .ok f := by
  obtain ⟨rfl, rfl⟩ := dumpLine_eq_iff.mp dumped
  simp only [DecodeRequest.frame, readIdentifier_encode, readBytes_upperText, bind, Except.bind,
    Id.decode_encode]
  exact framed_eq_ok_iff.mpr ⟨rfl, rfl⟩

/-- The request for a frame, whose payload is typed as `data`. -/
def request (f : Frame) (data : String) : EncodeRequest where
  frameType := f.id.frameType
  response := f.id.isResponse
  deviceClass := f.id.did.deviceClass
  subId := f.id.did.subId
  endpoint := f.id.endpoint.code
  data

theorem admissible_request (f : Frame) (data : String) : (f.request data).Admissible :=
  ⟨nofun, nofun⟩

theorem asks_request (f : Frame) (data : String) : (f.request data).Asks f.id where
  frameType := rfl
  direction := by
    rw [request, Id.isResponse]
    cases f.id.direction <;> rfl
  did := ⟨rfl, rfl⟩
  endpoint := rfl

theorem frame_request (read : readBytes data = .ok f.payload) :
    (f.request data).frame = .ok f := by
  have hasks := f.asks_request data
  obtain ⟨address, endpoint⟩ := hasks.inRange
  have h := EncodeRequest.encoding (f.request data)
  generalize (f.request data).frame = out at h ⊢
  cases h with
  | deviceClass single wide => exact absurd ⟨single, .inl wide⟩ address
  | subId single _ wide => exact absurd ⟨single, .inr wide⟩ address
  | endpoint wide => exact absurd wide endpoint
  | unreadKey text _ keyed => exact nomatch keyed.1
  | unreadData e _ unread => cases read.symm.trans unread
  | long payload _ other long =>
    cases read.symm.trans other
    exact absurd f.payload_le (Nat.not_le.mpr long)
  | keyed _ text _ _ keyed => exact nomatch keyed.1
  | plain g asks _ other =>
    exact congrArg Except.ok (Frame.ext (asks.unique hasks) (Except.ok.inj (other.symm.trans read)))

end Frame

/-- What is decoded keeps the identifier and the bytes that were typed. -/
theorem DecodeRequest.read_of_frame {s : DecodeRequest} {f : Frame} (decoded : s.frame = .ok f) :
    readIdentifier s.identifier = .ok f.id.encode ∧ readBytes s.payload = .ok f.payload := by
  obtain ⟨raw, ident, rest⟩ := exists_of_bind_eq_ok decoded
  obtain ⟨payload, read, made⟩ := exists_of_bind_eq_ok rest
  obtain ⟨hid, hpayload⟩ := framed_eq_ok_iff.mp made
  rw [hid, hpayload, encode_decode_of_read ident]
  exact ⟨ident, read⟩

/-- What the command line asks for comes out as it was asked for, and its dump line is decoded to
the same frame; what is decoded and asked for again is dumped with the identifier and the bytes that
were typed. A request is refused exactly if one of its numbers is out of range, its key or its data
cannot be read, or its data is too long. -/
theorem encode_decode_inverse :
    (∀ args g, CommandSpec.encode.read args = .ok g → g.encodeRequest.Admissible) ∧
    (∀ (r : EncodeRequest) f, r.Admissible → r.frame = .ok f →
      r.Asks f.id ∧ Command.encodeLines false r = .ok (f.dumpLine :: f.lines) ∧
        (∃ ident data, f.dumpLine = ident ++ "#" ++ data ∧ ident.length = 3) ∧
        ∀ ident data, f.dumpLine = ident ++ "#" ++ data →
          DecodeRequest.frame ⟨ident, data⟩ = .ok f ∧
            Command.decodeLines true ⟨ident, data⟩ = Command.encodeLines true r) ∧
    (∀ (s : DecodeRequest) f, s.frame = .ok f →
      readBytes (Hex.text f.payload) = .ok f.payload ∧
        ∀ data, readBytes data = .ok f.payload →
          (f.request data).Admissible ∧ (f.request data).Asks f.id ∧
            Command.encodeLines false (f.request data) = .ok (f.dumpLine :: f.lines) ∧
            ∀ ident digits, f.dumpLine = ident ++ "#" ++ digits →
              readIdentifier ident = .ok f.id.encode ∧
                readIdentifier s.identifier = .ok f.id.encode ∧
                readBytes digits = .ok f.payload ∧ readBytes s.payload = .ok f.payload) ∧
    ∀ (r : EncodeRequest) json, r.Admissible →
      ((∃ e, Command.encodeLines json r = .error e) ↔ r.Refused) := by
  refine ⟨fun args g => CommandSpec.admissible_read, fun r f admissible built => ?_,
    fun s f decoded => ⟨readBytes_text f.payload, fun data read => ?_⟩,
    fun r json admissible => ?_⟩
  · have asks := (built ▸ EncodeRequest.encoding r).asks
    refine ⟨asks, by rw [Command.encodeLines, built]; rfl,
      ⟨_, _, f.dumpLine_eq_iff.mpr ⟨rfl, rfl⟩, ?_⟩, fun ident data dumped => ?_⟩
    · rw [String.length_ofList, List.length_map, Hex.length_fixed]
    · have decoded := Frame.decode_dumped dumped
      refine ⟨decoded, ?_⟩
      rw [Command.decodeLines, Command.encodeLines, decoded, built]
      rfl
  · obtain ⟨typedIdent, typedData⟩ := DecodeRequest.read_of_frame decoded
    refine ⟨f.admissible_request data, f.asks_request data, ?_, fun ident digits dumped => ?_⟩
    · rw [Command.encodeLines, Frame.frame_request read]
      rfl
    · have again := DecodeRequest.read_of_frame (Frame.decode_dumped dumped)
      exact ⟨again.1, typedIdent, again.2, typedData⟩
  · rw [← EncodeRequest.refused_iff admissible, Command.encodeLines]
    cases r.frame <;> simp [Except.map]

/-- Telemetry of a device whose bytes are typed in two cases. -/
theorem encode_decode_inverse_telemetry :
    let r : EncodeRequest :=
      { frameType := .telemetry, response := true, deviceClass := 3, subId := 5, endpoint := 2,
        data := "0a:FF" }
    let f : Frame := ⟨.response .telemetry (.ofParts 3 5) .ep2, [0x0A, 0xFF], by decide⟩
    r.Admissible ∧ r.frame = .ok f ∧ DecodeRequest.frame ⟨"55D", "0AFF"⟩ = .ok f := by
  intro r f
  have admissible : r.Admissible := ⟨nofun, nofun⟩
  have built : r.frame = .ok f := by decide
  obtain ⟨_, there, _, _⟩ := encode_decode_inverse
  obtain ⟨_, _, _, back⟩ := there r f admissible built
  exact ⟨admissible, built, (back "55D" "0AFF" (by decide)).1⟩

end Fieldbus
