import DarkbioWire.Crypto

/-!
# Messages of the session handshake

`src/handshake.rs`: the structs are CBOR arrays, so their field order is part of the protocol. `toCbor` lists the items of
the array and `ofCbor` reads them back, rejecting every other arity.
-/

namespace DarkbioWire

variable {Blob : Type} {c : Crypto Blob}

/-- Session initiation message from the host, containing its ephemeral keys. -/
structure HostHello (c : Crypto Blob) where
  hostSigner : c.XdsaPublicKey
  hostCrypto : c.XhpkePublicKey

/-- Session initiation acknowledgement from the Ark, containing its ephemeral encryption key, the encapsulated key for
the ark-to-host context and the Ark's genuinity attestation. -/
structure ArkHello (c : Crypto Blob) where
  arkAttest : Blob
  arkCrypto : c.XhpkePublicKey
  a2hEncap : Blob

/-- Authenticated data sealed with ArkHello, binding the Ark's response to the host's ephemeral keys. -/
structure ArkHelloAuth (c : Crypto Blob) where
  hostSigner : c.XdsaPublicKey
  hostCrypto : c.XhpkePublicKey

/-- Session acknowledgement from the host, containing the encapsulated key for the host-to-ark context. -/
structure HostAck (Blob : Type) where
  h2aEncap : Blob

/-- Authenticated data sealed with HostAck, binding the host's ack to the Ark's identity and ephemeral key. -/
structure HostAckAuth (c : Crypto Blob) where
  arkSigner : c.XdsaPublicKey
  arkCrypto : c.XhpkePublicKey

namespace HostHello

def toCbor (hello : HostHello c) : List Blob := [c.xdsaItem hello.hostSigner, c.xhpkeItem hello.hostCrypto]

def ofCbor (c : Crypto Blob) : List Blob → Except String (HostHello c)
  | [signer, crypto] =>
      match c.xdsaOfItem signer, c.xhpkeOfItem crypto with
      | .ok hostSigner, .ok hostCrypto => .ok { hostSigner, hostCrypto }
      | .error err, _ => .error err
      | _, .error err => .error err
  | _ => .error "unexpected array length"

/-- `cbor::decode::<HostHello>`. -/
def decode (c : Crypto Blob) (packet : Blob) : Except String (HostHello c) := c.cborDecode packet >>= ofCbor c

/-- The authenticated data of the ArkHello that answers this hello. -/
def auth (hello : HostHello c) : ArkHelloAuth c := { hostSigner := hello.hostSigner, hostCrypto := hello.hostCrypto }

end HostHello

namespace ArkHello

def toCbor (hello : ArkHello c) : List Blob := [hello.arkAttest, c.xhpkeItem hello.arkCrypto, hello.a2hEncap]

def ofCbor (c : Crypto Blob) : List Blob → Except String (ArkHello c)
  | [arkAttest, crypto, a2hEncap] =>
      match c.xhpkeOfItem crypto with
      | .ok arkCrypto => .ok { arkAttest, arkCrypto, a2hEncap }
      | .error err => .error err
  | _ => .error "unexpected array length"

end ArkHello

def ArkHelloAuth.toCbor (auth : ArkHelloAuth c) : List Blob := [c.xdsaItem auth.hostSigner, c.xhpkeItem auth.hostCrypto]

namespace HostAck

def toCbor (ack : HostAck Blob) : List Blob := [ack.h2aEncap]

def ofCbor : List Blob → Except String (HostAck Blob)
  | [h2aEncap] => .ok { h2aEncap }
  | _ => .error "unexpected array length"

end HostAck

def HostAckAuth.toCbor (auth : HostAckAuth c) : List Blob := [c.xdsaItem auth.arkSigner, c.xhpkeItem auth.arkCrypto]

/-! ### Attestations -/

/-- Device attestation an Ark presents in the handshake, a CWT in one of the shapes of a device attestation. Only the
shape is checked; whether it is accepted is the host's decision. -/
structure Attestation (c : Crypto Blob) where
  cwt : Blob
  shape : c.peekHardware cwt = true ∨ c.peekEmulator cwt = true

/-- Wraps a CWT after checking that it decodes as a device attestation. -/
def Attestation.new (c : Crypto Blob) (cwt : Blob) : Except Error (Attestation c) :=
  if h : c.peekHardware cwt = true ∨ c.peekEmulator cwt = true then .ok ⟨cwt, h⟩ else .error .invalidAttestation

theorem Attestation.eq_of_new {cwt : Blob} {attestation : Attestation c} (h : Attestation.new c cwt = .ok attestation) :
    attestation.cwt = cwt := by
  rw [Attestation.new] at h
  split at h
  · injection h with h
    rw [← h]
  · cases h

/-- Source of the device attestation the Ark presents in the handshake; queried on every handshake. -/
class Attester {Blob : Type} (c : Crypto Blob) (A : Type) where
  attest : A → Attestation c × A

/-- A fixed attestation, presented as is on every handshake. -/
instance : Attester c (Attestation c) where
  attest attestation := (attestation, attestation)

/-- Trust policy for the device attestation an Ark presents: the Ark's identity key and any info extracted from the
attestation, or a rejection. -/
abbrev Verifier (c : Crypto Blob) (Info : Type) := Attestation c → Except String (c.XdsaPublicKey × Info)

/-- A pinned identity, accepting any attestation and handing it back as presented. -/
def Verifier.pinned (key : c.XdsaPublicKey) : Verifier c (Attestation c) := fun attestation => .ok (key, attestation)

end DarkbioWire
