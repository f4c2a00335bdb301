import DarkbioWire.Handshake
import DarkbioWire.Framing

/-!
# Established sessions

`src/session.rs`: the two HPKE contexts and the sealing of protobuf messages through them, with the size bound that is
checked before anything is sealed.
-/

namespace DarkbioWire

variable {Blob : Type} {c : Crypto Blob}

/-- Bytes the session's AEAD adds to a sealed message. -/
def SEAL_OVERHEAD : Nat := 16

/-- The search loop of `MAX_MESSAGE_SIZE`, counting down from a size. The loop of the source has no lower end. -/
def messageSizeLoop (cobs : Cobs) (maxFrameSize : Nat) : Nat → Nat
  | 0 => 0
  | size + 1 =>
      if cobs.encodeBuffer (size + 1 + SEAL_OVERHEAD) > maxFrameSize then messageSizeLoop cobs maxFrameSize size
      else size + 1

/-- Largest protobuf message the wire carries, being what still fits a frame after the session's sealing and the COBS
framing overheads are added. -/
def maxMessageSize (cobs : Cobs) (maxFrameSize : Nat) : Nat := messageSizeLoop cobs maxFrameSize maxFrameSize

/-- Established session, holding the HPKE contexts of the two directions. -/
structure Session (c : Crypto Blob) where
  /-- Outbound context, sealing messages to the peer. -/
  sender : c.Sender
  /-- Inbound context, opening messages from the peer. -/
  receiver : c.Receiver

variable {M : Type}

/-- Protobuf encodes a message and seals it for the peer. Messages above the limit are rejected before sealing, leaving
the HPKE sequence untouched; a failure of the sealing itself leaves the context unusable. -/
def Session.seal (limit : Nat) (codec : Codec Blob M) (session : Session c) (msg : M) : Except Error Blob × Session c :=
  let len := codec.encodedLen msg
  if len > limit then (.error (.packetTooLarge len), session)
  else
    match codec.encode msg with
    | .error err => (.error (.packetEncodingFailed err), session)
    | .ok scratch =>
        match c.senderSeal session.sender scratch with
        | (.error err, sender) => (.error (.encryptionFailed err), { session with sender })
        | (.ok blob, sender) => (.ok blob, { session with sender })

/-- Opens a sealed packet from the peer and protobuf decodes it. A failure to decrypt means the HPKE sequence can no
longer be followed, whereas a packet that decrypts but does not decode leaves the session intact. -/
def Session.open (codec : Codec Blob M) (session : Session c) (packet : Blob) : Except Error M × Session c :=
  match c.receiverOpen session.receiver packet with
  | (.error err, receiver) => (.error (.encryptionFailed err), { session with receiver })
  | (.ok blob, receiver) =>
      match codec.decode blob with
      | .error err => (.error (.packetDecodingFailed err), { session with receiver })
      | .ok msg => (.ok msg, { session with receiver })

/-- `send_message`, which is the same code on both sides: encode and seal the message, oversized messages being rejected
before the HPKE sequence advances, and send it. Only a failed seal or a failed send drops the session. -/
def sendThrough {T : Type} [Transport T Blob] (codec : Codec Blob M) (framing : T) (session : Option (Session c))
    (msg : M) : Except Error Unit × T × Option (Session c) :=
  match session with
  | none => (.error (.encryptionFailed "no active session"), framing, none)
  | some session =>
    match session.seal (Transport.maxMessageSize T) codec msg with
    | (.error (.encryptionFailed err), _) => (.error (.encryptionFailed err), framing, none)
    | (.error err, session) => (.error err, framing, some session)
    | (.ok blob, session) =>
      -- Send the sealed message, tearing down the session if the transport fails to deliver it
      match Transport.sendPacket framing blob with
      | (.error err, framing) => (.error err, framing, none)
      | (.ok (), framing) => (.ok (), framing, some session)

/-- The framer is a transport, its limit the one the search loop finds for its frames. -/
instance {cobs : Cobs} {maxFrameSize : Nat} : Transport (Framing cobs maxFrameSize) (List UInt8) where
  sendReset := Framing.sendReset
  sendPacket := Framing.sendPacket
  maxMessageSize := maxMessageSize cobs maxFrameSize

/-- What a call that reads packets does with one: it goes on to read another, where its locals are then waiting, or it
returns. -/
inductive Flow (Point α : Type)
  | wait (point : Point)
  | done (result : Except Error α)

end DarkbioWire
