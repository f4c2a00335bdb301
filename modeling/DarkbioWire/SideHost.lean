import DarkbioWire.Session

/-!
# The host side

`src/side_host.rs`. A call of `handshake` sends the reset and the HostHello and then waits, with its ephemeral keys, for
the ArkHello; a call of `next_message` reads one packet.
-/

namespace DarkbioWire

/-- Maximum number of queued frames skipped while waiting for the ArkHello of a handshake, before giving up on the Ark. -/
def MAX_STALE_FRAMES : Nat := 32

/-- Host side of the wire, an encrypted transport for issuing requests to a connected Ark. -/
structure HostSide {Blob : Type} (c : Crypto Blob) (T : Type) where
  /-- Framed transport for ingress and egress data. -/
  framing : T
  /-- Active encrypted session, if a handshake completed. -/
  session : Option (Session c)
  /-- How many times coins were drawn. -/
  draws : Nat

variable {Blob : Type} {c : Crypto Blob} {Info T : Type}

/-- The locals of `handshake` while it waits for the ArkHello. -/
structure HelloWait (c : Crypto Blob) (Info : Type) where
  verifier : Verifier c Info
  hostXdsaSk : c.XdsaSecretKey
  hostXhpkeSk : c.XhpkeSecretKey
  stale : Nat

/-- An ArkHello whose signature was checked with the identity the verifier returned. -/
structure Verified (c : Crypto Blob) (Info : Type) where
  arkIdentity : c.XdsaPublicKey
  info : Info
  arkHello : ArkHello c

namespace HelloWait

/-- The HostHello of the handshake. -/
def hostHello (wait : HelloWait c Info) : HostHello c where
  hostSigner := c.xdsaPublicKey wait.hostXdsaSk
  hostCrypto := c.xhpkePublicKey wait.hostXhpkeSk

/-- Step 2 of `handshake`: decrypts the ArkHello, has the verifier look at the attestation in its unverified payload and
checks its signature with the identity that returns. -/
def openHello (wait : HelloWait c Info) (packet : Blob) : Except Error (Verified c Info) :=
  let auth := wait.hostHello.auth
  match c.coseDecrypt packet auth.toCbor wait.hostXhpkeSk CRYPTO_DOMAIN_WIRE with
  | .error err => .error (.handshakeFailed ("failed to decrypt ark hello: " ++ err))
  | .ok sign1 =>
    match c.cosePeek sign1 >>= ArkHello.ofCbor c with
    | .error err => .error (.handshakeFailed ("invalid ark hello payload: " ++ err))
    | .ok unverified =>
      match Attestation.new c unverified.arkAttest with
      | .error err => .error err
      | .ok attestation =>
        match wait.verifier attestation with
        | .error err => .error (.handshakeFailed err)
        | .ok (arkIdentity, info) =>
          match c.coseVerify sign1 auth.toCbor arkIdentity CRYPTO_DOMAIN_WIRE >>= ArkHello.ofCbor c with
          | .error err => .error (.handshakeFailed ("ark hello signature invalid: " ++ err))
          | .ok arkHello => .ok { arkIdentity, info, arkHello }

/-- Sets up the contexts of the session: the receiver from the Ark's encapsulated key, the sender towards the Ark's
ephemeral key with an encapsulated key of its own. -/
def contexts (coins : Coins c) (wait : HelloWait c Info) (arkHello : ArkHello c) : Except Error (Session c × Blob) :=
  if c.isEncapKey arkHello.a2hEncap then
    match c.newReceiver wait.hostXhpkeSk arkHello.a2hEncap CRYPTO_DOMAIN_WIRE_ARK_TO_HOST with
    | .error err => .error (.handshakeFailed ("host receiver setup failed: " ++ err))
    | .ok receiver =>
      match c.newSender arkHello.arkCrypto CRYPTO_DOMAIN_WIRE_HOST_TO_ARK coins.first with
      | .error err => .error (.handshakeFailed ("host sender setup failed: " ++ err))
      | .ok (sender, encH2a) => .ok ({ sender, receiver }, encH2a)
  else .error (.handshakeFailed "invalid a2h_encap size")

/-- Message 3: seals the HostAck. -/
def sealAck (coins : Coins c) (wait : HelloWait c Info) (verified : Verified c Info) (encH2a : Blob) :
    Except Error Blob :=
  let ack : HostAck Blob := { h2aEncap := encH2a }
  let auth : HostAckAuth c := { arkSigner := verified.arkIdentity, arkCrypto := verified.arkHello.arkCrypto }
  match c.coseSeal ack.toCbor auth.toCbor wait.hostXdsaSk verified.arkHello.arkCrypto CRYPTO_DOMAIN_WIRE
      coins.second with
  | .error err => .error (.handshakeFailed ("failed to seal host ack: " ++ err))
  | .ok packet => .ok packet

/-- What the host makes of an ArkHello before it sends anything: the session to be, and the HostAck. -/
def answer (coins : Coins c) (wait : HelloWait c Info) (packet : Blob) :
    Except Error (Verified c Info × Session c × Blob) :=
  match wait.openHello packet with
  | .error err => .error err
  | .ok verified =>
    match wait.contexts coins verified.arkHello with
    | .error err => .error err
    | .ok (session, encH2a) =>
      match wait.sealAck coins verified encH2a with
      | .error err => .error err
      | .ok ack => .ok (verified, session, ack)

end HelloWait

namespace HostSide

/-- Creates a new host side around a framed transport. -/
def new (framing : T) : HostSide c T where
  framing := framing
  session := none
  draws := 0

variable [Transport T Blob]

/-- Protobuf encodes a host-to-ark message, seals it with the session and sends it. -/
def sendMessage (proto : Protocol Blob) (side : HostSide c T) (req : proto.HostToArk) :
    Except Error Unit × HostSide c T :=
  let (result, framing, session) := sendThrough proto.hostToArk side.framing side.session req
  (result, { side with framing, session })

/-- `handshake` up to the ArkHello: drops the session, sends the reset, generates the ephemeral keys and sends the
HostHello. -/
def handshakeStart (coins : Coins c) (side : HostSide c T) (verifier : Verifier c Info) :
    Except Error (HelloWait c Info) × HostSide c T :=
  let side := { side with session := none }
  -- Send two zero bytes: first terminates any interrupted message, second signals a fresh session
  match Transport.sendReset side.framing with
  | (.error err, framing) => (.error err, { side with framing })
  | (.ok (), framing) =>
    let side := { side with framing, draws := side.draws + 1 }
    -- Generate ephemeral host keys for this session
    let wait : HelloWait c Info :=
      { verifier, hostXdsaSk := c.xdsaGenerate coins.first, hostXhpkeSk := c.xhpkeGenerate coins.second, stale := 0 }
    -- Message 1: Send HostHello (plain CBOR)
    match c.cborEncode wait.hostHello.toCbor with
    | .error err => (.error (.handshakeFailed ("failed to encode host hello: " ++ err)), side)
    | .ok hello =>
      match Transport.sendPacket side.framing hello with
      | (.error err, framing) => (.error err, { side with framing })
      | (.ok (), framing) => (.ok wait, { side with framing })

/-- `handshake` from the ArkHello on: answers it and sends the HostAck. -/
def handshakeFinish (coins : Coins c) (side : HostSide c T) (wait : HelloWait c Info) (packet : Blob) :
    Except Error Info × HostSide c T :=
  let side := { side with draws := side.draws + 1 }
  match wait.answer coins packet with
  | .error err => (.error err, side)
  | .ok (verified, session, ack) =>
    match Transport.sendPacket side.framing ack with
    | (.error err, framing) => (.error err, { side with framing })
    | (.ok (), framing) => (.ok verified.info, { side with framing, session := some session })

/-- Message 2 of `handshake`: reads the ArkHello. Frames the Ark emitted before processing the reset may still be queued,
so skip everything not sealed to the fresh host key. -/
def handshakeStep (coins : Coins c) (side : HostSide c T) (wait : HelloWait c Info)
    (packet : Except Error (Option Blob)) : Flow (HelloWait c Info) Info × HostSide c T :=
  match packet with
  | .error err => (.done (.error err), side)
  | .ok packet =>
    -- Empty frames are never sent by the Ark, they are stale junk too
    let packet := packet.getD c.empty
    match c.coseRecipient packet with
    | .error _ => skip
    | .ok recipient =>
      if recipient = c.fingerprint wait.hostHello.hostCrypto then
        let (result, side) := side.handshakeFinish coins wait packet
        (.done result, side)
      else skip
where
  /-- Counts a stale frame and reads on, up to the limit. -/
  skip : Flow (HelloWait c Info) Info × HostSide c T :=
    let stale := wait.stale + 1
    if stale > MAX_STALE_FRAMES then
      (.done (.error (.handshakeFailed "too many stale frames before ark hello")), side)
    else (.wait { wait with stale }, side)

/-- Reads the next ark-to-host message, decrypting and protobuf decoding it. A frame that cannot be decoded or a packet
that cannot be decrypted drops the session. -/
def nextMessageStep (proto : Protocol Blob) (side : HostSide c T) (packet : Except Error (Option Blob)) :
    Except Error proto.ArkToHost × HostSide c T :=
  match packet with
  | .error err => (.error err, { side with session := none })
  -- Empty frames are never sent by the Ark, so surface them as the decode failures they would have been
  | .ok none => (.error (.frameDecodingFailed .emptyInput), side)
  | .ok (some packet) =>
    match side.session with
    | none => (.error (.encryptionFailed "no active session"), side)
    | some session =>
      match session.open proto.arkToHost packet with
      | (.error (.encryptionFailed err), _) => (.error (.encryptionFailed err), { side with session := none })
      | (.error err, session) => (.error err, { side with session := some session })
      | (.ok res, session) => (.ok res, { side with session := some session })

end HostSide

end DarkbioWire
