import DarkbioWire.Framing
import DarkbioWire.Lib.Stuffing

/-!
# A codec to run the framer with

Consistent overhead byte stuffing in the interface of `darkbio_cobs`, and that it keeps what the framer relies on.
-/

namespace DarkbioWire

/-- The stuffing codec, checking the room of the buffer it writes into. -/
def Cobs.stuffing : Cobs where
  encodeBuffer size := size + (size + 253) / 254 + 1
  encode packet room :=
    if (Stuffing.encode packet).length ≤ room then .ok (Stuffing.encode packet) else .error "buffer too small"
  decodeNonzero frame room :=
    if frame = [] then .error .emptyInput
    else
      match Stuffing.decode frame with
      | none => .error (.invalid "truncated block")
      | some packet => if packet.length ≤ room then .ok packet else .error (.invalid "buffer too small")
  encode_room := by
    intro packet room frame h
    split at h
    · obtain rfl := Except.ok.inj h
      assumption
    · cases h
  decode_room := by
    intro frame room packet h
    split at h
    · cases h
    split at h
    · cases h
    split at h
    · obtain rfl := Except.ok.inj h
      assumption
    · cases h

theorem Cobs.stuffing_encode {packet frame : List UInt8} {room : Nat} (h : stuffing.encode packet room = .ok frame) :
    frame = Stuffing.encode packet := by
  change (if _ then _ else _) = _ at h
  split at h
  · exact (Except.ok.inj h).symm
  · cases h

theorem Cobs.stuffing_encode_length {packet : List UInt8} :
    (Stuffing.encode packet).length ≤ stuffing.encodeBuffer packet.length := by
  have hmost := (Stuffing.length_encode packet).2
  change _ ≤ packet.length + (packet.length + 253) / 254 + 1
  omega

theorem Cobs.stuffing_neverLengthens : stuffing.NeverLengthens := by
  intro frame room packet _ h
  change (if _ then _ else _) = _ at h
  split at h
  · cases h
  split at h
  · cases h
  · rename_i packet' hdecode
    split at h
    · rw [← Except.ok.inj h]
      exact Stuffing.length_decode hdecode
    · cases h

theorem Cobs.stuffing_lawful : stuffing.Lawful where
  encode_fits := by
    intro packet room h
    exact ⟨_, if_pos (le_trans stuffing_encode_length h)⟩
  encode_ne_nil := by
    intro packet room frame h
    rw [stuffing_encode h]
    exact Stuffing.encode_ne_nil packet
  encode_nonzero := by
    intro packet room frame h
    rw [stuffing_encode h]
    exact Stuffing.zero_not_mem_encode packet
  encode_length := by
    intro packet room frame h
    rw [stuffing_encode h]
    exact stuffing_encode_length
  decode_encode := by
    intro packet room frame room' h hroom
    rw [stuffing_encode h] at hroom ⊢
    have hlength := (Stuffing.length_encode packet).1
    change (if _ then _ else _) = _
    rw [if_neg (Stuffing.encode_ne_nil packet), Stuffing.decode_encode]
    exact if_pos (by omega)

end DarkbioWire
