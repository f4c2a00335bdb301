import DarkbioWire.Interrupted
import DarkbioWire.Lossless
import Mathlib.Order.Bounds.Defs

/-!
# Where the limits meet

A message is bounded before it is sealed, its packet before it is framed, and its frame before it is received. The search
loop of `MAX_MESSAGE_SIZE` makes the first of these bounds the exact image of the others.
-/

namespace DarkbioWire

open Delimited Framing

/-- What the limits rest on: the buffer announced for a packet grows with the packet, is no smaller than the packet, and
holds what it is encoded into. -/
structure Cobs.Bounding (cobs : Cobs) : Prop where
  mono : ∀ {m n}, m ≤ n → cobs.encodeBuffer m ≤ cobs.encodeBuffer n
  le_encodeBuffer : ∀ n, n ≤ cobs.encodeBuffer n
  encode_length : ∀ {packet room frame},
    cobs.encode packet room = .ok frame → frame.length ≤ cobs.encodeBuffer packet.length

theorem Cobs.stuffing_bounding : stuffing.Bounding where
  mono := by
    intro m n h
    change m + (m + 253) / 254 + 1 ≤ n + (n + 253) / 254 + 1
    omega
  le_encodeBuffer := by
    intro n
    change n ≤ n + (n + 253) / 254 + 1
    omega
  encode_length := stuffing_lawful.encode_length

variable {cobs : Cobs} {maxFrameSize : Nat}

/-- The search loop of `MAX_MESSAGE_SIZE` from a size down, on integers without a sign: `none` is where `size -= 1`
underflows. -/
def messageSizeSearch (cobs : Cobs) (maxFrameSize : Nat) : Nat → Option Nat
  | 0 => if cobs.encodeBuffer (0 + SEAL_OVERHEAD) > maxFrameSize then none else some 0
  | size + 1 =>
      if cobs.encodeBuffer (size + 1 + SEAL_OVERHEAD) > maxFrameSize then messageSizeSearch cobs maxFrameSize size
      else some (size + 1)

/-- With room for the seal alone the search does not underflow. -/
theorem messageSizeSearch_eq (hfits : cobs.encodeBuffer SEAL_OVERHEAD ≤ maxFrameSize) (size : Nat) :
    messageSizeSearch cobs maxFrameSize size = some (messageSizeLoop cobs maxFrameSize size) := by
  induction size with
  | zero =>
      rw [messageSizeSearch, Nat.zero_add, if_neg (Nat.not_lt_of_le hfits)]
      rfl
  | succ size ih =>
      rw [messageSizeSearch, messageSizeLoop]
      split
      · exact ih
      · rfl

theorem le_messageSizeLoop {size n : Nat} (hle : n ≤ size) (hn : cobs.encodeBuffer (n + SEAL_OVERHEAD) ≤ maxFrameSize) :
    n ≤ messageSizeLoop cobs maxFrameSize size := by
  induction size with
  | zero =>
      rw [messageSizeLoop]
      exact hle
  | succ size ih =>
      rw [messageSizeLoop]
      by_cases hlarge : cobs.encodeBuffer (size + 1 + SEAL_OVERHEAD) > maxFrameSize
      · rw [if_pos hlarge]
        apply ih
        by_contra hlast
        obtain rfl : n = size + 1 := by omega
        exact absurd hn (Nat.not_le_of_lt hlarge)
      · rw [if_neg hlarge]
        exact hle

theorem maxMessageSize_isGreatest (hcobs : cobs.Bounding) (hfits : cobs.encodeBuffer SEAL_OVERHEAD ≤ maxFrameSize) :
    IsGreatest {n | cobs.encodeBuffer (n + SEAL_OVERHEAD) ≤ maxFrameSize} (maxMessageSize cobs maxFrameSize) := by
  refine ⟨messageSizeLoop_fits hfits maxFrameSize, fun n hn => le_messageSizeLoop ?_ hn⟩
  have hle := hcobs.le_encodeBuffer (n + SEAL_OVERHEAD)
  exact le_trans (by omega) (le_trans hle hn)

theorem le_maxMessageSize_iff (hcobs : cobs.Bounding) (hfits : cobs.encodeBuffer SEAL_OVERHEAD ≤ maxFrameSize) {n : Nat} :
    n ≤ maxMessageSize cobs maxFrameSize ↔ cobs.encodeBuffer (n + SEAL_OVERHEAD) ≤ maxFrameSize := by
  obtain ⟨hmem, hgreatest⟩ := maxMessageSize_isGreatest hcobs hfits
  constructor
  · intro hle
    exact le_trans (hcobs.mono (Nat.add_le_add_right hle _)) hmem
  · intro hn
    exact hgreatest hn

/-- Only the size of a packet decides whether `send_packet` finds it too large. -/
theorem sendPacket_tooLarge (f : Framing cobs maxFrameSize) (packet : List UInt8) :
    (∃ size, (f.sendPacket packet).1 = .error (.frameTooLarge size)) ↔ maxFrameSize < cobs.encodeBuffer packet.length := by
  rw [sendPacket]
  by_cases hlarge : cobs.encodeBuffer packet.length > maxFrameSize
  · rw [if_pos hlarge]
    exact ⟨fun _ => hlarge, fun _ => ⟨_, rfl⟩⟩
  · rw [if_neg hlarge]
    refine ⟨fun hrefused => ?_, fun h => absurd h hlarge⟩
    obtain ⟨size, hrefused⟩ := hrefused
    split at hrefused
    · cases hrefused
    · rename_i frame _
      rw [sendFrame] at hrefused
      dsimp only at hrefused
      rcases Writer.send_cases f.writer (slice ((overwrite f.encobsBuffer 0 frame).set frame.length 0) 0 (frame.length + 1))
        with ⟨hok, _⟩ | ⟨cause, _, hfailed, _⟩
      · rw [hok] at hrefused
        cases hrefused
      · rw [hfailed] at hrefused
        cases hrefused

/-- A packet goes out in a frame that leaves room for its delimiter, and no piece of it is too long for who receives it.
-/
structure Fits (cobs : Cobs) (maxFrameSize : Nat) (packet : List UInt8) : Prop where
  taken : ∀ (f : Framing cobs maxFrameSize) size, (f.sendPacket packet).1 ≠ .error (.frameTooLarge size)
  delimited : ∀ (f : Framing cobs maxFrameSize) frame, f.Wf → cobs.encode packet f.encobsBuffer.length = .ok frame →
    frame.length < f.encobsBuffer.length
  received : ∀ {before frame after : List UInt8} {reads : List (List UInt8)} (sink : Writer),
    frameOf cobs maxFrameSize packet = .ok frame → AtBoundary before → (∀ read ∈ reads, read ≠ []) →
    reads.flatten = before ++ (frame ++ [0]) ++ after → ReadsFrames (new (streamOf reads) sink : Framing cobs maxFrameSize)
      (accepted 0 maxFrameSize before ++ (frame.splitOn 0 ++ accepted 0 maxFrameSize after)) .terminated

theorem fits_of_le (hcobs : cobs.Bounding) {packet : List UInt8} (hroom : cobs.encodeBuffer packet.length ≤ maxFrameSize) :
    Fits cobs maxFrameSize packet where
  taken := by
    intro f size hrefused
    exact absurd ((sendPacket_tooLarge f packet).mp ⟨size, hrefused⟩) (Nat.not_lt_of_le hroom)
  delimited := by
    intro f frame hf hencode
    have hlength := hcobs.encode_length hencode
    rw [hf.encobs_length]
    omega
  received := by
    intro before frame after reads sink hframe hboundary hreads hstream
    have hlength : frame.length ≤ maxFrameSize := by
      rw [frameOf, if_neg (Nat.not_lt_of_le hroom)] at hframe
      split at hframe
      · cases hframe
      · rename_i encoded hencode
        obtain rfl := Except.ok.inj hframe
        exact le_trans (hcobs.encode_length hencode) hroom
    obtain ⟨hbytes, hstop⟩ := streamOf_bytes hreads
    have hunread : (new (streamOf reads) sink : Framing cobs maxFrameSize).unread = reads.flatten := by
      rw [unread, new_pending, List.nil_append]
      exact hbytes
    have hframes : accepted 0 maxFrameSize (before ++ (frame ++ [0]) ++ after) =
        accepted 0 maxFrameSize before ++ (frame.splitOn 0 ++ accepted 0 maxFrameSize after) := by
      rw [accepted_eq_kept, accepted_eq_kept, accepted_eq_kept, List.append_assoc, kept_append, hboundary.residue,
        List.nil_append, List.append_assoc, List.singleton_append, kept_append_within hlength]
    rw [← hframes, ← hstream, ← hunread]
    exact (new_wf (streamOf reads) sink).readsFrames hstop

/-- The search loop ends at the largest size whose sealed packet fits a frame: the seal is refused exactly where its packet
would be, and what is sealed fits all the way to the peer. -/
theorem message_limit (hcobs : cobs.Bounding) (hfits : cobs.encodeBuffer SEAL_OVERHEAD ≤ maxFrameSize)
    {c : Crypto (List UInt8)} (hseal : ∀ {sender payload packet sender'}, c.senderSeal sender payload = (.ok packet, sender') →
      packet.length = payload.length + SEAL_OVERHEAD) {M : Type} {codec : Codec (List UInt8) M} (hsized : codec.Sized) :
    messageSizeSearch cobs maxFrameSize maxFrameSize = some (maxMessageSize cobs maxFrameSize) ∧
      IsGreatest {n | cobs.encodeBuffer (n + SEAL_OVERHEAD) ≤ maxFrameSize} (maxMessageSize cobs maxFrameSize) ∧
      ∀ (session : Session c) (msg : M),
        (∀ payload packet sender', codec.encode msg = .ok payload →
          c.senderSeal session.sender payload = (.ok packet, sender') → ∀ f : Framing cobs maxFrameSize,
          ((session.seal (maxMessageSize cobs maxFrameSize) codec msg).1 = .error (.packetTooLarge (codec.encodedLen msg)) ↔
            ∃ size, (f.sendPacket packet).1 = .error (.frameTooLarge size))) ∧
        ∀ packet, (session.seal (maxMessageSize cobs maxFrameSize) codec msg).1 = .ok packet →
          Fits cobs maxFrameSize packet := by
  refine ⟨messageSizeSearch_eq hfits maxFrameSize, maxMessageSize_isGreatest hcobs hfits, fun session msg => ⟨?_, ?_⟩⟩
  · intro payload packet sender' hencode hsealed f
    have hlength := hseal hsealed
    rw [hsized hencode] at hlength
    rw [sendPacket_tooLarge, hlength, Session.seal]
    by_cases hlarge : codec.encodedLen msg > maxMessageSize cobs maxFrameSize
    · rw [if_pos hlarge]
      have hrefused := (le_maxMessageSize_iff hcobs hfits).not.mp (Nat.not_le_of_lt hlarge)
      exact ⟨fun _ => Nat.lt_of_not_le hrefused, fun _ => rfl⟩
    · rw [if_neg hlarge, hencode]
      dsimp only
      rw [hsealed]
      have htaken := (le_maxMessageSize_iff hcobs hfits).mp (Nat.le_of_not_lt hlarge)
      refine ⟨fun hrefused => ?_, fun hrefused => absurd htaken (Nat.not_le_of_lt hrefused)⟩
      cases hrefused
  · intro packet hsealed
    apply fits_of_le hcobs
    rw [Session.seal] at hsealed
    by_cases hlarge : codec.encodedLen msg > maxMessageSize cobs maxFrameSize
    · rw [if_pos hlarge] at hsealed
      cases hsealed
    rw [if_neg hlarge] at hsealed
    rcases hencode : codec.encode msg with err | payload
    · rw [hencode] at hsealed
      cases hsealed
    rw [hencode] at hsealed
    dsimp only at hsealed
    rcases hout : c.senderSeal session.sender payload with ⟨err | blob, sender'⟩
    · rw [hout] at hsealed
      cases hsealed
    · rw [hout] at hsealed
      obtain rfl := Except.ok.inj hsealed
      rw [hseal hout, hsized hencode]
      exact (le_maxMessageSize_iff hcobs hfits).mp (Nat.le_of_not_lt hlarge)

namespace Reference

/-- A session to seal messages with. -/
def sealing : Session crypto where
  sender := ⟨3, number 4, CRYPTO_DOMAIN_WIRE_HOST_TO_ARK, 0⟩
  receiver := ⟨5, number 6, CRYPTO_DOMAIN_WIRE_ARK_TO_HOST, 0⟩

end Reference

open Reference in
/-- The limit of the wire, a message at the limit, which goes out, and one above it, which is refused as its packet would
be. -/
theorem message_limit_reference :
    messageSizeSearch Cobs.stuffing MAX_FRAME_SIZE MAX_FRAME_SIZE = some 2088910 ∧
      IsGreatest {n | Cobs.stuffing.encodeBuffer (n + SEAL_OVERHEAD) ≤ MAX_FRAME_SIZE} 2088910 ∧
      (∃ packet, (sealing.seal 2088910 codec (List.replicate 2088910 7)).1 = .ok packet ∧
        Fits Cobs.stuffing MAX_FRAME_SIZE packet) ∧
      (sealing.seal 2088910 codec (List.replicate 2088911 7)).1 = .error (.packetTooLarge 2088911) ∧
      ∃ size, ((new [] ⟨[], []⟩ : Framing Cobs.stuffing MAX_FRAME_SIZE).sendPacket
        (sealing.sender.tag ++ List.replicate 2088911 7)).1 = .error (.frameTooLarge size) := by
  have hlength : ∀ {sender payload packet sender'}, crypto.senderSeal sender payload = (.ok packet, sender') →
      packet.length = payload.length + SEAL_OVERHEAD := by
    intro sender payload packet sender' hsealed
    obtain ⟨hpacket, _⟩ := Prod.mk.inj hsealed
    rw [← Except.ok.inj hpacket]
    exact Context.length_sealed sender payload
  have hsized : (codec : Codec (List UInt8) (List UInt8)).Sized := by
    intro msg payload hencode
    rw [Except.ok.inj hencode]
    rfl
  obtain ⟨hsearch, hgreatest, hmessages⟩ := message_limit Cobs.stuffing_bounding
    (show Cobs.stuffing.encodeBuffer SEAL_OVERHEAD ≤ MAX_FRAME_SIZE by decide) hlength hsized
  have hlimit : maxMessageSize Cobs.stuffing MAX_FRAME_SIZE = 2088910 := by
    have hfits : ∀ n, Cobs.stuffing.encodeBuffer (n + SEAL_OVERHEAD) ≤ MAX_FRAME_SIZE ↔
        n + 16 + (n + 16 + 253) / 254 + 1 ≤ 2097152 := fun _ => Iff.rfl
    have hleast := hgreatest.2 ((hfits 2088910).mpr (by decide))
    have hmost := (hfits _).mp hgreatest.1
    omega
  rw [hlimit] at hsearch hgreatest hmessages
  have hwithin : (sealing.seal 2088910 codec (List.replicate 2088910 7)).1 =
      .ok (sealing.sender.tag ++ List.replicate 2088910 7) := by
    rw [Session.seal, if_neg (by rw [show codec.encodedLen = List.length from rfl, List.length_replicate]; decide)]
    rfl
  have habove : (sealing.seal 2088910 codec (List.replicate 2088911 7)).1 = .error (.packetTooLarge 2088911) := by
    rw [Session.seal, if_pos (by rw [show codec.encodedLen = List.length from rfl, List.length_replicate]; decide)]
    change Except.error (Error.packetTooLarge (List.replicate 2088911 (7 : UInt8)).length) = _
    rw [List.length_replicate]
  refine ⟨hsearch, hgreatest, ⟨_, hwithin, (hmessages sealing _).2 _ hwithin⟩, habove, ?_⟩
  refine ((hmessages sealing (List.replicate 2088911 7)).1 _ _ sealing.sender.next rfl rfl _).mp ?_
  rw [habove, show codec.encodedLen = List.length from rfl, List.length_replicate]

end DarkbioWire
