import Fieldbus.Proofs.Frame

namespace Fieldbus

/-- A frame as it is kept in memory: the first `len` bytes of the buffer are its payload. -/
structure StoredFrame where
  id : Id
  buf : Vector UInt8 8
  len : UInt8
deriving DecidableEq

/-- The bytes copied over the start of a buffer. -/
def copyBytes (buf : Vector UInt8 8) (bytes : List UInt8) : Vector UInt8 8 :=
  Vector.ofFn fun i => bytes.getD i buf[i]

theorem copyBytes_zero (bytes : List UInt8) :
    copyBytes (Vector.replicate 8 0) bytes = fitBytes 8 bytes := by
  simp [copyBytes, fitBytes]

theorem toList_fitBytes {bytes : List UInt8} {n : Nat} (fits : bytes.length ≤ n) :
    (fitBytes n bytes).toList = bytes ++ List.replicate (n - bytes.length) 0 := by
  apply List.ext_getElem
  · simp only [Vector.length_toList, List.length_append, List.length_replicate]
    omega
  · intro i hi hi'
    rcases Nat.lt_or_ge i bytes.length with inside | outside
    · simp [fitBytes, List.getElem_append_left inside, inside]
    · simp [fitBytes, List.getElem_append_right outside, outside]

namespace StoredFrame

def empty (id : Id) : StoredFrame := ⟨id, Vector.replicate 8 0, 0⟩

/-- Takes over a payload in place; one that is too long leaves the frame as it was. -/
def setPayload (f : StoredFrame) (payload : List UInt8) : Except Fault Unit × StoredFrame :=
  if 8 < payload.length then (.error .invalidArgument, f)
  else
    (.ok (),
      { f with
        buf := copyBytes (Vector.replicate 8 0) payload
        len := .ofNat payload.length })

def ofPayload (id : Id) (payload : List UInt8) : Except Fault StoredFrame :=
  match (empty id).setPayload payload with
  | (.ok _, f) => .ok f
  | (.error fault, _) => .error fault

/-- A frame whose buffer is written without a check. -/
def ofBytes (id : Id) (bytes : List UInt8) : StoredFrame :=
  { empty id with buf := copyBytes (empty id).buf bytes, len := .ofNat bytes.length }

def payload (f : StoredFrame) : List UInt8 := f.buf.toList.take f.len.toNat

def ofWire (rawId : Nat) (payload : List UInt8) : Except Fault StoredFrame :=
  ofPayload (.decode rawId) payload

/-- Takes over payloads, one after the other. -/
def refill (f : StoredFrame) (payloads : List (List UInt8)) : StoredFrame :=
  payloads.foldl (fun f payload => (f.setPayload payload).2) f

end StoredFrame

namespace Frame

variable {f : Frame}

/-- How a frame is kept in memory. -/
def stored (f : Frame) : StoredFrame := ⟨f.id, fitBytes 8 f.payload, .ofNat f.payload.length⟩

theorem toNat_len_stored (f : Frame) : f.stored.len.toNat = f.payload.length := by
  have h := f.payload_le
  simp only [stored, UInt8.toNat_ofNat']
  omega

theorem toList_buf_stored (f : Frame) : f.stored.buf.toList = f.buffer :=
  toList_fitBytes f.payload_le

theorem payload_stored (f : Frame) : f.stored.payload = f.payload := by
  rw [StoredFrame.payload, toList_buf_stored, toNat_len_stored, buffer, List.take_left]

theorem eq_zero_of_mem_drop {b : UInt8} (h : b ∈ f.buffer.drop f.payload.length) : b = 0 := by
  rw [buffer, List.drop_left] at h
  exact List.eq_of_mem_replicate h

/-- The buffer is zero beyond the payload. -/
theorem eq_zero_of_mem_stored {b : UInt8}
    (h : b ∈ f.stored.buf.toList.drop f.stored.len.toNat) : b = 0 := by
  rw [toList_buf_stored, toNat_len_stored] at h
  exact eq_zero_of_mem_drop h

/-- Takes over payloads, one after the other; those that are too long are passed over. -/
def refill (f : Frame) (payloads : List (List UInt8)) : Frame :=
  payloads.foldl (fun f payload => (f.setPayload payload).toOption.getD f) f

theorem setPayload_stored (f : Frame) (payload : List UInt8) :
    f.stored.setPayload payload =
      match f.setPayload payload with
      | .ok g => (.ok (), g.stored)
      | .error fault => (.error fault, f.stored) := by
  rcases Nat.lt_or_ge 8 payload.length with long | fits
  · have hfault : f.setPayload payload = .error .invalidArgument := dif_neg (by omega)
    rw [hfault, StoredFrame.setPayload, if_pos long]
  · have hok : f.setPayload payload = .ok ⟨f.id, payload, fits⟩ := dif_pos fits
    rw [hok, StoredFrame.setPayload, if_neg (by omega), copyBytes_zero]
    rfl

theorem refill_stored (f : Frame) (payloads : List (List UInt8)) :
    f.stored.refill payloads = (f.refill payloads).stored := by
  induction payloads generalizing f with
  | nil => rfl
  | cons payload payloads ih =>
    have hset : (f.stored.setPayload payload).2 =
        ((f.setPayload payload).toOption.getD f).stored := by
      rw [setPayload_stored]
      cases f.setPayload payload <;> rfl
    rw [StoredFrame.refill, List.foldl_cons, hset]
    exact ih _

theorem empty_stored (id : Id) : StoredFrame.empty id = (empty id).stored := by
  have hbuf : fitBytes 8 [] = Vector.replicate 8 0 :=
    Vector.ext fun i hi => by simp [fitBytes]
  rw [stored, empty, hbuf]
  rfl

theorem ofPayload_stored (id : Id) (payload : List UInt8) :
    StoredFrame.ofPayload id payload = (ofPayload id payload).map stored := by
  have hset : ofPayload id payload = (empty id).setPayload payload := rfl
  rw [StoredFrame.ofPayload, empty_stored, setPayload_stored, hset]
  cases (empty id).setPayload payload <;> rfl

theorem ofWire_stored (f : Frame) :
    StoredFrame.ofWire f.stored.id.encode f.stored.payload = .ok f.stored := by
  have hid : Id.decode f.stored.id.encode = f.id := Id.decode_encode f.id
  have hframe : ofPayload f.id f.payload = .ok f := dif_pos f.payload_le
  rw [StoredFrame.ofWire, hid, payload_stored, ofPayload_stored, hframe]
  rfl

theorem ofBytes_stored (f : Frame) : StoredFrame.ofBytes f.id f.payload = f.stored := by
  rw [StoredFrame.ofBytes, StoredFrame.empty, copyBytes_zero]
  rfl

end Frame

end Fieldbus
