import DarkbioWire.Transport

/-!
# What the wire calls and does not own

The cryptography, the CBOR codec, the attestation peeks and the protobuf codec are not part of the repository: they are
parameters here, over an arbitrary type of blobs. The framer instantiates blobs with bytes, the network model with terms.
Randomness is an argument: every call that draws some takes the seed it draws.
-/

namespace DarkbioWire

/-- The bytes of an ASCII string. -/
def ascii (text : String) : List UInt8 := text.toList.map fun char => UInt8.ofNat char.toNat

/-- Domain separator for the COSE envelopes of the handshake, sealing the Ark's hello and the host's ack. -/
def CRYPTO_DOMAIN_WIRE : List UInt8 := ascii "wire-v1"

/-- HPKE info string for the ark-to-host encryption context of an established session. -/
def CRYPTO_DOMAIN_WIRE_ARK_TO_HOST : List UInt8 := ascii "wire-v1:ark-to-host"

/-- HPKE info string for the host-to-ark encryption context of an established session. -/
def CRYPTO_DOMAIN_WIRE_HOST_TO_ARK : List UInt8 := ascii "wire-v1:host-to-ark"

/-- The calls into `darkbio_crypto`. A CBOR array is the list of its items, so its arity is the length of the list. -/
structure Crypto (Blob : Type) where
  /-- What one call draws from the system's randomness. -/
  Seed : Type
  XdsaSecretKey : Type
  XdsaPublicKey : Type
  XhpkeSecretKey : Type
  XhpkePublicKey : Type
  Fingerprint : Type
  Sender : Type
  Receiver : Type
  fingerprintEq : DecidableEq Fingerprint
  /-- The slice of no bytes. -/
  empty : Blob
  xdsaGenerate : Seed → XdsaSecretKey
  xdsaPublicKey : XdsaSecretKey → XdsaPublicKey
  xdsaItem : XdsaPublicKey → Blob
  xdsaOfItem : Blob → Except String XdsaPublicKey
  xhpkeGenerate : Seed → XhpkeSecretKey
  xhpkePublicKey : XhpkeSecretKey → XhpkePublicKey
  xhpkeItem : XhpkePublicKey → Blob
  xhpkeOfItem : Blob → Except String XhpkePublicKey
  fingerprint : XhpkePublicKey → Fingerprint
  /-- `PublicKey::new_sender`: a sending context and the encapsulated key. -/
  newSender : XhpkePublicKey → List UInt8 → Seed → Except String (Sender × Blob)
  /-- Whether bytes convert into an `[u8; ENCAP_KEY_SIZE]`. -/
  isEncapKey : Blob → Bool
  newReceiver : XhpkeSecretKey → Blob → List UInt8 → Except String Receiver
  /-- `Sender::seal` without additional data. -/
  senderSeal : Sender → Blob → Except String Blob × Sender
  /-- `Receiver::open` without additional data. -/
  receiverOpen : Receiver → Blob → Except String Blob × Receiver
  cborEncode : List Blob → Except String Blob
  cborDecode : Blob → Except String (List Blob)
  /-- `cose::seal` of a payload under authenticated data, signed, to a recipient, in a domain. -/
  coseSeal : List Blob → List Blob → XdsaSecretKey → XhpkePublicKey → List UInt8 → Seed → Except String Blob
  coseRecipient : Blob → Except String Fingerprint
  coseDecrypt : Blob → List Blob → XhpkeSecretKey → List UInt8 → Except String Blob
  cosePeek : Blob → Except String (List Blob)
  coseVerify : Blob → List Blob → XdsaPublicKey → List UInt8 → Except String (List Blob)
  coseOpen : Blob → List Blob → XhpkeSecretKey → XdsaPublicKey → List UInt8 → Except String (List Blob)
  /-- Whether `cwt::peek` reads the claims of a hardware or of an emulated Ark. -/
  peekHardware : Blob → Bool
  peekEmulator : Blob → Bool

instance {Blob : Type} (c : Crypto Blob) : DecidableEq c.Fingerprint := c.fingerprintEq

/-- What the handshake relies on when nobody interferes: what was encoded decodes, an envelope opens for its recipient
under the same authenticated data and domain, shows and verifies its payload for the key that signed it and no other, and
an encapsulated key sets up the receiver. -/
structure Crypto.Correct {Blob : Type} (c : Crypto Blob) : Prop where
  xdsaOfItem_item : ∀ key, c.xdsaOfItem (c.xdsaItem key) = .ok key
  xhpkeOfItem_item : ∀ key, c.xhpkeOfItem (c.xhpkeItem key) = .ok key
  cborDecode_encode : ∀ {items packet}, c.cborEncode items = .ok packet → c.cborDecode packet = .ok items
  coseRecipient_seal : ∀ {payload aad signer key domain seed packet},
    c.coseSeal payload aad signer key domain seed = .ok packet → c.coseRecipient packet = .ok (c.fingerprint key)
  coseDecrypt_seal : ∀ {payload aad signer key domain seed packet sign1},
    c.coseSeal payload aad signer (c.xhpkePublicKey key) domain seed = .ok packet →
    c.coseDecrypt packet aad key domain = .ok sign1 → c.cosePeek sign1 = .ok payload ∧
      ∀ {identity result}, c.coseVerify sign1 aad identity domain = .ok result →
        result = payload ∧ identity = c.xdsaPublicKey signer
  coseOpen_seal : ∀ {payload aad signer key domain seed packet},
    c.coseSeal payload aad signer (c.xhpkePublicKey key) domain seed = .ok packet →
    c.coseOpen packet aad key (c.xdsaPublicKey signer) domain = .ok payload
  newReceiver_newSender : ∀ {key info seed sender encap},
    c.newSender (c.xhpkePublicKey key) info seed = .ok (sender, encap) →
    c.isEncapKey encap = true ∧ ∃ receiver, c.newReceiver key encap info = .ok receiver

/-- The seeds drawn for one message of a handshake, of which it uses at most three. -/
structure Coins {Blob : Type} (c : Crypto Blob) where
  first : c.Seed
  second : c.Seed
  third : c.Seed

/-- What `prost` does with a message type. -/
structure Codec (Blob M : Type) where
  encodedLen : M → Nat
  encode : M → Except String Blob
  decode : Blob → Except String M

/-- The message types of `wire.proto` and their codecs. -/
structure Protocol (Blob : Type) where
  HostToArk : Type
  ArkToHost : Type
  hostToArk : Codec Blob HostToArk
  arkToHost : Codec Blob ArkToHost

/-- The sending half of a framed transport, and the largest message it takes. -/
class Transport (T : Type) (Blob : outParam Type) where
  sendReset : T → Except Error Unit × T
  sendPacket : T → Blob → Except Error Unit × T
  maxMessageSize (T) : Nat

end DarkbioWire
