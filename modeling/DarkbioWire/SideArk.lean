import DarkbioWire.Session

/-!
# The Ark side

`src/side_ark.rs`. A call of `next_message` is written as what it does with the result of each `next_packet` it makes.
Between two of them it waits at a point of its code, with the locals that are alive there: in its own loop, or inside the
`handshake` it runs inline for the HostHello or for the HostAck. Each message of a handshake draws its own coins.
-/

namespace DarkbioWire

/-- Ark side of the wire, an encrypted transport for serving requests from a connected host. -/
structure ArkSide {Blob : Type} (c : Crypto Blob) (A T : Type) where
  /-- Framed transport for ingress and egress data. -/
  framing : T
  /-- Ark's identity key, signing the ArkHello. -/
  signer : c.XdsaSecretKey
  /-- Source of the device attestation for handshakes. -/
  attester : A
  /-- Active encrypted session, if a handshake completed. -/
  session : Option (Session c)
  /-- How many times coins were drawn. -/
  draws : Nat

variable {Blob : Type} {c : Crypto Blob} {A T : Type}

/-- The locals of `handshake` while it waits for the HostAck. -/
structure AckWait (c : Crypto Blob) where
  hostHello : HostHello c
  arkCryptoKey : c.XhpkeSecretKey
  sender : c.Sender

/-- The calls of `next_packet` inside `handshake`. -/
inductive HandshakePoint (c : Crypto Blob)
  | hello
  | ack (wait : AckWait c)

/-- The calls of `next_packet` inside `next_message`. -/
inductive MessagePoint (c : Crypto Blob)
  | packet
  | handshake (point : HandshakePoint c)

/-- The authenticated data a HostAck has to carry for an Ark with this signer in this iteration. -/
def AckWait.auth (wait : AckWait c) (signer : c.XdsaSecretKey) : HostAckAuth c where
  arkSigner := c.xdsaPublicKey signer
  arkCrypto := c.xhpkePublicKey wait.arkCryptoKey

namespace ArkSide

/-- Creates a new Ark side around a framed transport. -/
def new (framing : T) (signer : c.XdsaSecretKey) (attester : A) : ArkSide c A T where
  framing := framing
  signer := signer
  attester := attester
  session := none
  draws := 0

variable [Transport T Blob] [Attester c A]

/-- Protobuf encodes an ark-to-host message, seals it with the session and sends it. -/
def sendMessage (proto : Protocol Blob) (side : ArkSide c A T) (res : proto.ArkToHost) :
    Except Error Unit × ArkSide c A T :=
  let (result, framing, session) := sendThrough proto.arkToHost side.framing side.session res
  (result, { side with framing, session })

/-- Messages 1 and 2 of `handshake`: reads the HostHello, sets up the sender of the session and sends the ArkHello. -/
def answerHello (coins : Coins c) (side : ArkSide c A T) (packet : Blob) :
    Except Error (AckWait c) × ArkSide c A T :=
  let side := { side with draws := side.draws + 1 }
  match HostHello.decode c packet with
  | .error err => (.error (.handshakeFailed ("invalid host hello: " ++ err)), side)
  | .ok hostHello =>
    -- Generate an ephemeral Ark xHPKE keypair and set up the Ark->Host sender
    let arkCryptoKey := c.xhpkeGenerate coins.first
    let arkCryptoPub := c.xhpkePublicKey arkCryptoKey
    match c.newSender hostHello.hostCrypto CRYPTO_DOMAIN_WIRE_ARK_TO_HOST coins.second with
    | .error err => (.error (.handshakeFailed ("ark sender setup failed: " ++ err)), side)
    | .ok (sender, a2hEncap) =>
      let (attestation, attester) : Attestation c × A := Attester.attest side.attester
      let side := { side with attester }
      -- Message 2: Seal and send the ArkHello
      let arkHello : ArkHello c := { arkAttest := attestation.cwt, arkCrypto := arkCryptoPub, a2hEncap }
      match c.coseSeal arkHello.toCbor hostHello.auth.toCbor side.signer hostHello.hostCrypto CRYPTO_DOMAIN_WIRE
          coins.third with
      | .error err => (.error (.handshakeFailed ("failed to seal ark hello: " ++ err)), side)
      | .ok packet =>
        match Transport.sendPacket side.framing packet with
        | (.error err, framing) => (.error err, { side with framing })
        | (.ok (), framing) => (.ok { hostHello, arkCryptoKey, sender }, { side with framing })

/-- Message 3 of `handshake`: opens the HostAck and sets up the receiver of the session. -/
def acceptAck (side : ArkSide c A T) (wait : AckWait c) (packet : Blob) : Except Error (Session c) :=
  match c.coseOpen packet (wait.auth side.signer).toCbor wait.arkCryptoKey wait.hostHello.hostSigner
      CRYPTO_DOMAIN_WIRE >>= HostAck.ofCbor with
  | .error err => .error (.handshakeFailed ("invalid host ack: " ++ err))
  | .ok hostAck =>
    if c.isEncapKey hostAck.h2aEncap then
      match c.newReceiver wait.arkCryptoKey hostAck.h2aEncap CRYPTO_DOMAIN_WIRE_HOST_TO_ARK with
      | .error err => .error (.handshakeFailed ("ark receiver setup failed: " ++ err))
      | .ok receiver => .ok { sender := wait.sender, receiver }
    else .error (.handshakeFailed "invalid h2a_encap size")

/-- Responds to the handshake after a session reset, establishing the HPKE contexts of both directions. -/
def handshakeStep (coins : Coins c) (side : ArkSide c A T) (point : HandshakePoint c)
    (packet : Except Error (Option Blob)) : Flow (HandshakePoint c) (Session c) × ArkSide c A T :=
  match point, packet with
  | _, .error err => (.done (.error err), side)
  -- Skip any trailing empty reset frames
  | .hello, .ok none => (.wait .hello, side)
  | .hello, .ok (some packet) =>
    match side.answerHello coins packet with
    | (.error err, side) => (.done (.error err), side)
    | (.ok wait, side) => (.wait (.ack wait), side)
  -- An empty frame probably means the host is restarting the session, start over
  | .ack _, .ok none => (.wait .hello, side)
  | .ack wait, .ok (some packet) => (.done (side.acceptAck wait packet), side)

/-- Serves the next host-to-ark message, decrypting and protobuf decoding it. Empty frames are session resets and run the
handshake inline; junk outside a session, undecryptable packets and failed handshakes are skipped. -/
def nextMessageStep (proto : Protocol Blob) (coins : Coins c) (side : ArkSide c A T) (point : MessagePoint c)
    (packet : Except Error (Option Blob)) : Flow (MessagePoint c) proto.HostToArk × ArkSide c A T :=
  match point with
  | .packet =>
    match packet with
    -- Transport errors propagate immediately
    | .error .terminated => (.done (.error .terminated), side)
    | .error (.recvFailed err) => (.done (.error (.recvFailed err)), side)
    -- Decode errors may be due to session resets, the session cannot continue either way
    | .error _ => (.wait .packet, { side with session := none })
    -- Empty frame signals a session reset from the host
    | .ok none => (.wait (.handshake .hello), { side with session := none })
    | .ok (some packet) =>
      match side.session with
      -- Non-empty packet without a session is considered junk
      | none => (.wait .packet, side)
      | some session =>
        match session.open proto.hostToArk packet with
        -- If decryption fails, the HPKE context is most probably broken
        | (.error (.encryptionFailed _), _) => (.wait .packet, { side with session := none })
        | (.error err, session) => (.done (.error err), { side with session := some session })
        | (.ok req, session) => (.done (.ok req), { side with session := some session })
  | .handshake point =>
    match side.handshakeStep coins point packet with
    | (.wait point, side) => (.wait (.handshake point), side)
    -- Transport errors propagate immediately
    | (.done (.error .terminated), side) => (.done (.error .terminated), side)
    | (.done (.error (.recvFailed err)), side) => (.done (.error (.recvFailed err)), side)
    -- Decode or protocol errors are logged and ignored
    | (.done (.error _), side) => (.wait .packet, side)
    -- Handshake successful
    | (.done (.ok session), side) => (.wait .packet, { side with session := some session })

end ArkSide

end DarkbioWire
