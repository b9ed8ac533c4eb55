import Fieldbus.CommandLine.Commands
import Fieldbus.Proofs.Frame.Wire

namespace Fieldbus

section Framed

variable {id : Id} {payload : List UInt8}

theorem framed_eq :
    framed id payload = if fits : payload.length ≤ 8 then .ok ⟨id, payload, fits⟩
      else .error (.payloadTooLong payload.length) := by
  unfold framed Frame.ofPayload
  by_cases fits : payload.length ≤ 8 <;> simp [fits]

theorem framed_eq_ok_iff {f : Frame} :
    framed id payload = .ok f ↔ f.id = id ∧ f.payload = payload := by
  rw [framed_eq]
  constructor
  · intro made
    split at made
    next => cases made; exact ⟨rfl, rfl⟩
    next => cases made
  · rintro ⟨rfl, rfl⟩
    exact dif_pos f.payload_le

end Framed

namespace EncodeRequest

/-- What the command line lets through: one device is addressed or all are, with data or a key. -/
structure Admissible (r : EncodeRequest) : Prop where
  address : r.broadcast → r.deviceClass = 0 ∧ r.subId = 0
  content : r.key.isSome → r.data = ""

/-- The identifier is the one that is asked for. -/
structure Asks (r : EncodeRequest) (id : Id) : Prop where
  frameType : id.frameType = r.frameType
  direction : id.direction = if r.response then .response else .query
  did : if r.broadcast then id.did = .broadcast
    else id.did.deviceClass = r.deviceClass ∧ id.did.subId = r.subId
  endpoint : id.endpoint.code = r.endpoint

/-- The frame is to carry the key with this text. -/
def Keyed (r : EncodeRequest) (text : String) : Prop :=
  r.key = some text ∧ r.frameType.isAttribute

/-- What comes of a request. -/
inductive Encoding (r : EncodeRequest) : Except InputError Frame → Prop
  | deviceClass (single : r.broadcast = false) (wide : 7 < r.deviceClass) :
      Encoding r (.error (.outOfRange "class" r.deviceClass 7))
  | subId (single : r.broadcast = false) (fits : r.deviceClass ≤ 7) (wide : 7 < r.subId) :
      Encoding r (.error (.outOfRange "sub-id" r.subId 7))
  | endpoint (wide : 3 < r.endpoint) : Encoding r (.error (.outOfRange "endpoint" r.endpoint 3))
  | unreadKey (text : String) (e : InputError) (keyed : r.Keyed text)
      (unread : readKey text = .error e) : Encoding r (.error e)
  | unreadData (e : InputError) (plain : ∀ text, ¬r.Keyed text)
      (unread : readBytes r.data = .error e) : Encoding r (.error e)
  | long (payload : List UInt8) (plain : ∀ text, ¬r.Keyed text)
      (read : readBytes r.data = .ok payload) (long : 8 < payload.length) :
      Encoding r (.error (.payloadTooLong payload.length))
  | keyed (id : Id) (text : String) (key : Key) (asks : r.Asks id) (keyed : r.Keyed text)
      (read : readKey text = .ok key) : Encoding r (.ok (keyPayload id key (r.value.getD 0)))
  | plain (f : Frame) (asks : r.Asks f.id) (plain : ∀ text, ¬r.Keyed text)
      (read : readBytes r.data = .ok f.payload) : Encoding r (.ok f)

section Range

variable {field : String} {value max : Nat}

theorem checkRange_of_lt (wide : max < value) :
    checkRange field value max = .error (.outOfRange field value max) := if_pos wide

theorem checkRange_of_le (fits : value ≤ max) : checkRange field value max = .ok value :=
  if_neg (Nat.not_lt.mpr fits)

end Range

section Encoding

variable {r : EncodeRequest} {id : Id}

theorem encoding_plain (asks : r.Asks id) (plain : ∀ text, ¬r.Keyed text) :
    r.Encoding (readBytes r.data >>= framed id) := by
  cases read : readBytes r.data with
  | error e => exact .unreadData e plain read
  | ok payload =>
    change r.Encoding (framed id payload)
    rw [framed_eq]
    split
    next => exact .plain _ asks plain read
    next long => exact .long payload plain read (Nat.lt_of_not_le long)

theorem encoding_did {did : Did} (addressed : r.did = .ok did)
    (asked : if r.broadcast then did = .broadcast
      else did.deviceClass = r.deviceClass ∧ did.subId = r.subId) : r.Encoding r.frame := by
  have hframe : r.frame = checkRange "endpoint" r.endpoint 3 >>= fun endpoint =>
      let id : Id := ⟨r.frameType, r.direction, did, .ofCode endpoint⟩
      r.key.elim (readBytes r.data >>= framed id) fun text =>
        if r.frameType.isAttribute then
          (readKey text).map fun key => keyPayload id key (r.value.getD 0)
        else readBytes r.data >>= framed id := by
    unfold frame
    rw [addressed]
    cases r.key <;> rfl
  rw [hframe]
  rcases Nat.lt_or_ge 3 r.endpoint with wide | fits
  · rw [checkRange_of_lt wide]
    exact .endpoint wide
  · rw [checkRange_of_le fits]
    have asks : r.Asks ⟨r.frameType, r.direction, did, .ofCode r.endpoint⟩ :=
      ⟨rfl, rfl, asked, Endpoint.code_ofCode _ (Nat.lt_succ_of_le fits)⟩
    cases given : r.key with
    | none =>
      exact encoding_plain asks fun text keyed => by cases given.symm.trans keyed.1
    | some text =>
      cases typed : r.frameType.isAttribute with
      | false => exact encoding_plain asks fun text keyed => by cases typed.symm.trans keyed.2
      | true =>
        change r.Encoding ((readKey text).map fun key => keyPayload _ key (r.value.getD 0))
        cases read : readKey text with
        | error e => exact .unreadKey text e ⟨given, typed⟩ read
        | ok key => exact .keyed _ text key asks ⟨given, typed⟩ read

end Encoding

theorem encoding (r : EncodeRequest) : r.Encoding r.frame := by
  cases single : r.broadcast with
  | true =>
    have hdid : r.did = .ok .broadcast := by rw [did, single]; rfl
    exact encoding_did hdid (by rw [single]; rfl)
  | false =>
    have hdid : r.did = checkRange "class" r.deviceClass 7 >>= fun deviceClass =>
        (checkRange "sub-id" r.subId 7).map (.ofParts deviceClass) := by rw [did, single]; rfl
    rcases Nat.lt_or_ge 7 r.deviceClass with wideClass | fitsClass
    · rw [checkRange_of_lt wideClass] at hdid
      rw [frame, hdid]
      exact .deviceClass single wideClass
    · rw [checkRange_of_le fitsClass] at hdid
      rcases Nat.lt_or_ge 7 r.subId with wideSub | fitsSub
      · rw [checkRange_of_lt wideSub] at hdid
        rw [frame, hdid]
        exact .subId single fitsClass wideSub
      · rw [checkRange_of_le fitsSub] at hdid
        refine encoding_did hdid ?_
        rw [single]
        exact ⟨Did.deviceClass_ofParts fitsClass, Did.subId_ofParts fitsSub⟩

/-- What is wrong with a request that is refused. -/
def Refused (r : EncodeRequest) : Prop :=
  (r.broadcast = false ∧ (7 < r.deviceClass ∨ 7 < r.subId)) ∨ 3 < r.endpoint ∨
    (∃ text e, r.Keyed text ∧ readKey text = .error e) ∨ (∃ e, readBytes r.data = .error e) ∨
    ∃ payload, readBytes r.data = .ok payload ∧ 8 < payload.length

theorem Asks.unique {r : EncodeRequest} {i j : Id} (hi : r.Asks i) (hj : r.Asks j) : i = j := by
  have hdid : i.did = j.did := by
    have hone := hi.did
    have htwo := hj.did
    cases single : r.broadcast with
    | true =>
      rw [single] at hone htwo
      exact hone.trans htwo.symm
    | false =>
      rw [single] at hone htwo
      rw [← i.did.ofParts_deviceClass_subId, ← j.did.ofParts_deviceClass_subId, hone.1, hone.2,
        htwo.1, htwo.2]
  have hendpoint : i.endpoint = j.endpoint := by
    rw [← i.endpoint.ofCode_code, ← j.endpoint.ofCode_code, hi.endpoint, hj.endpoint]
  have htype := hi.frameType.trans hj.frameType.symm
  have hdirection := hi.direction.trans hj.direction.symm
  cases i
  cases j
  simp only at htype hdirection hdid hendpoint
  rw [htype, hdirection, hdid, hendpoint]

theorem Asks.inRange {r : EncodeRequest} {id : Id} (asks : r.Asks id) :
    ¬(r.broadcast = false ∧ (7 < r.deviceClass ∨ 7 < r.subId)) ∧ ¬3 < r.endpoint := by
  have hendpoint := asks.endpoint ▸ id.endpoint.code_lt
  refine ⟨fun ⟨single, wide⟩ => ?_, by omega⟩
  have hdid := asks.did
  rw [single] at hdid
  have hclass := hdid.1 ▸ id.did.deviceClass_lt
  have hsub := hdid.2 ▸ id.did.subId_lt
  omega

section Built

variable {r : EncodeRequest} {f : Frame}

@[simp] theorem id_keyPayload (id : Id) (key : Key) (value : UInt32) :
    (keyPayload id key value).id = id := by
  unfold keyPayload
  split <;> rfl

theorem Encoding.asks (h : r.Encoding (.ok f)) : r.Asks f.id := by
  cases h with
  | keyed id text key asks => rwa [id_keyPayload]
  | plain _ asks => exact asks

/-- The data is read even if a key is given, since there is none then. -/
theorem Encoding.data (h : r.Encoding (.ok f)) (admissible : r.Admissible) :
    ∃ payload, readBytes r.data = .ok payload ∧ payload.length ≤ 8 := by
  cases h with
  | keyed id text key asks keyed =>
    rw [admissible.content (by rw [keyed.1]; rfl)]
    exact ⟨[], rfl, by decide⟩
  | plain _ _ _ read => exact ⟨f.payload, read, f.payload_le⟩

theorem Encoding.key (h : r.Encoding (.ok f)) {text : String} (keyed : r.Keyed text) :
    ∃ key, readKey text = .ok key := by
  cases h with
  | keyed id other key asks same read =>
    cases same.1.symm.trans keyed.1
    exact ⟨key, read⟩
  | plain _ _ plain => exact absurd keyed (plain text)

theorem Encoding.not_refused (h : r.Encoding (.ok f)) (admissible : r.Admissible) :
    ¬r.Refused := by
  obtain ⟨address, endpoint⟩ := h.asks.inRange
  obtain ⟨payload, read, short⟩ := h.data admissible
  rintro (wide | wide | ⟨text, e, keyed, unread⟩ | ⟨e, unread⟩ | ⟨other, same, long⟩)
  · exact address wide
  · exact endpoint wide
  · obtain ⟨key, hkey⟩ := h.key keyed
    cases hkey.symm.trans unread
  · cases read.symm.trans unread
  · cases read.symm.trans same
    omega

theorem refused_iff (admissible : r.Admissible) : (∃ e, r.frame = .error e) ↔ r.Refused := by
  have h := encoding r
  constructor
  · rintro ⟨e, he⟩
    rw [he] at h
    cases h with
    | deviceClass single wide => exact .inl ⟨single, .inl wide⟩
    | subId single _ wide => exact .inl ⟨single, .inr wide⟩
    | endpoint wide => exact .inr (.inl wide)
    | unreadKey text _ keyed unread => exact .inr (.inr (.inl ⟨text, e, keyed, unread⟩))
    | unreadData _ _ unread => exact .inr (.inr (.inr (.inl ⟨e, unread⟩)))
    | long payload _ read long => exact .inr (.inr (.inr (.inr ⟨payload, read, long⟩)))
  · intro refused
    cases built : r.frame with
    | error e => exact ⟨e, rfl⟩
    | ok f => exact absurd refused ((built ▸ h).not_refused admissible)

end Built

end EncodeRequest

section Arguments

variable {spec : CommandSpec} {g : Given} {a b : Arg}

theorem CommandSpec.check_of_read {args : List String} (read : spec.read args = .ok g) :
    spec.check g = .ok () := by
  obtain ⟨s, _, rest⟩ := exists_of_bind_eq_ok read
  obtain ⟨_, checked, done⟩ := exists_of_bind_eq_ok rest
  cases done
  exact checked

theorem CommandSpec.not_both (checked : spec.check g = .ok ()) (conflict : (a, b) ∈ spec.conflicts)
    (given : g.has a) : g.has b = false := by
  unfold CommandSpec.check at checked
  split at checked
  next => cases checked
  next apart =>
    refine Bool.eq_false_iff.mpr fun both => apart (List.any_eq_true.mpr ⟨_, conflict, ?_⟩)
    rw [given, both]
    rfl

theorem Given.value?_of_not_has (missing : g.has a = false) : g.value? a = none := by
  rw [Given.has, Bool.or_eq_false_iff, Bool.or_eq_false_iff] at missing
  exact Option.not_isSome_iff_eq_none.mp (Bool.eq_false_iff.mp missing.1.1)

end Arguments

/-- The command line only lets admissible requests through. -/
theorem CommandSpec.admissible_read {args : List String} {g : Given}
    (read : CommandSpec.encode.read args = .ok g) : g.encodeRequest.Admissible := by
  have checked := CommandSpec.check_of_read read
  have absent {a b : Arg} (conflict : (a, b) ∈ CommandSpec.encode.conflicts) (given : g.has a) :
      g.value? b = none :=
    Given.value?_of_not_has (CommandSpec.not_both checked conflict given)
  constructor
  · intro broadcast
    have given : g.has .broadcast := by
      rw [Given.has, show g.flag .broadcast = true from broadcast]
      simp
    have hclass := absent (b := .deviceClass) (by decide) given
    have hsub := absent (b := .subId) (by decide) given
    simp [Given.encodeRequest, Given.number?, hclass, hsub]
  · intro keyed
    cases given : g.has .data with
    | true =>
      have hkey := absent (b := .key) (by decide) given
      simp [Given.encodeRequest, Given.text?, hkey] at keyed
    | false =>
      have hdata := Given.value?_of_not_has given
      simp [Given.encodeRequest, Given.text?, hdata]

end Fieldbus
