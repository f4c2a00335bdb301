import DarkbioWire.Endpoint.Ark
import DarkbioWire.Endpoint.Host
import DarkbioWire.Reference.Codec

/-!
# Cryptography to run the sides with

A cryptography over bytes that keeps nothing secret and computes what the wire relies on: keys are numbers, an envelope
carries its payload with all it is checked against, and a sealed message is its payload behind a tag of its channel and its
sequence number. Runs are evaluated with it.
-/

namespace DarkbioWire.Reference

/-! ### Arrays of byte strings -/

/-- An array of byte strings, each item's bytes marked and its end too. -/
def pack : List (List UInt8) → List UInt8
  | [] => []
  | item :: items => item.flatMap (fun byte => [1, byte]) ++ 0 :: pack items

/-- Reads an array back, with the beginning of its first item. -/
def unpackFrom (item : List UInt8) : List UInt8 → Except String (List (List UInt8))
  | [] => if item = [] then .ok [] else .error "truncated item"
  | 0 :: rest => (unpackFrom [] rest).map (item :: ·)
  | 1 :: byte :: rest => unpackFrom (item ++ [byte]) rest
  | _ => .error "unmarked byte"

def unpack (bytes : List UInt8) : Except String (List (List UInt8)) := unpackFrom [] bytes

theorem unpackFrom_item (start item rest : List UInt8) :
    unpackFrom start (item.flatMap (fun byte => [1, byte]) ++ 0 :: rest) =
      (unpackFrom [] rest).map ((start ++ item) :: ·) := by
  induction item generalizing start with
  | nil => simp [unpackFrom]
  | cons byte item ih =>
      rw [List.flatMap_cons, List.append_assoc, List.cons_append, List.cons_append, List.nil_append, unpackFrom, ih]
      simp

theorem unpack_pack (items : List (List UInt8)) : unpack (pack items) = .ok items := by
  induction items with
  | nil => rfl
  | cons item items ih =>
      rw [pack, unpack, unpackFrom_item]
      change (unpack (pack items)).map _ = _
      rw [ih]
      rfl

/-! ### Keys -/

/-- A number as a byte string. -/
def number (n : Nat) : List UInt8 := List.replicate n 1

def ofNumber (bytes : List UInt8) : Except String Nat :=
  if bytes = number bytes.length then .ok bytes.length else .error "not a key"

theorem ofNumber_number (n : Nat) : ofNumber (number n) = .ok n := by
  rw [ofNumber, number, List.length_replicate]
  exact if_pos rfl

theorem number_length (n : Nat) : (number n == number (number n).length) = true := by
  rw [number, List.length_replicate]
  exact beq_self_eq_true _

theorem number_inj {m n : Nat} (h : number m = number n) : m = n := by
  simpa [number] using congrArg List.length h

/-! ### Envelopes -/

/-- What an envelope carries: the key it is sealed to and the key it was signed with, and what it authenticates. -/
structure Envelope where
  recipient : Nat
  payload : List (List UInt8)
  aad : List (List UInt8)
  signer : Nat
  domain : List UInt8
  deriving DecidableEq

namespace Envelope

def toBytes (envelope : Envelope) : List UInt8 :=
  2 :: pack [number envelope.recipient, pack envelope.payload, pack envelope.aad, number envelope.signer, envelope.domain]

def ofBytes : List UInt8 → Except String Envelope
  | 2 :: bytes =>
      match unpack bytes with
      | .ok [recipient, payload, aad, signer, domain] => do
          return {
            recipient := ← ofNumber recipient
            payload := ← unpack payload
            aad := ← unpack aad
            signer := ← ofNumber signer
            domain }
      | _ => .error "not an envelope"
  | _ => .error "not an envelope"

theorem ofBytes_toBytes (envelope : Envelope) : ofBytes envelope.toBytes = .ok envelope := by
  rw [toBytes, ofBytes, unpack_pack]
  dsimp only
  rw [ofNumber_number, unpack_pack, unpack_pack, ofNumber_number]
  rfl

end Envelope

/-! ### Contexts -/

/-- One end of an encryption context. -/
structure Context where
  key : Nat
  encap : List UInt8
  info : List UInt8
  seq : Nat
  deriving DecidableEq

namespace Context

/-- The bytes that authenticate a sealed message. -/
def tag (context : Context) : List UInt8 :=
  [3, UInt8.ofNat context.key, UInt8.ofNat context.encap.length, UInt8.ofNat context.seq, context.info.getLastD 0] ++
    List.replicate 11 0

theorem length_tag (context : Context) : context.tag.length = SEAL_OVERHEAD := rfl

theorem length_sealed (context : Context) (payload : List UInt8) :
    (context.tag ++ payload).length = payload.length + SEAL_OVERHEAD := by
  rw [List.length_append, length_tag, Nat.add_comm]

def next (context : Context) : Context := { context with seq := context.seq + 1 }

def «seal» (context : Context) (payload : List UInt8) : Except String (List UInt8) × Context :=
  (.ok (context.tag ++ payload), context.next)

def «open» (context : Context) (packet : List UInt8) : Except String (List UInt8) × Context :=
  if packet.take SEAL_OVERHEAD = context.tag then (.ok (packet.drop SEAL_OVERHEAD), context.next)
  else (.error "wrong tag", context)

theorem open_ok {context context' : Context} {packet payload : List UInt8}
    (h : context.open packet = (.ok payload, context')) : context' = context.next := by
  rw [Context.open] at h
  split at h
  · exact (Prod.mk.inj h).2.symm
  · cases h

theorem open_seal (context : Context) (payload : List UInt8) :
    context.open (context.tag ++ payload) = (.ok payload, context.next) := by
  rw [Context.open, List.take_left' context.length_tag, if_pos rfl, List.drop_left' context.length_tag]

end Context

/-! ### The calls -/

/-- The envelope that is opened with a key, under this authenticated data and in this domain. -/
def decrypt (packet : List UInt8) (aad : List (List UInt8)) (key : Nat) (domain : List UInt8) : Except String Envelope :=
  match Envelope.ofBytes packet with
  | .error err => .error err
  | .ok envelope =>
      if envelope.recipient = key ∧ envelope.aad = aad ∧ envelope.domain = domain then .ok envelope
      else .error "decryption failed"

/-- The payload of an envelope that this key signed, with this authenticated data and in this domain. -/
def verify (packet : List UInt8) (aad : List (List UInt8)) (identity : Nat) (domain : List UInt8) :
    Except String (List (List UInt8)) :=
  match Envelope.ofBytes packet with
  | .error err => .error err
  | .ok envelope =>
      if envelope.signer = identity ∧ envelope.aad = aad ∧ envelope.domain = domain then .ok envelope.payload
      else .error "signature invalid"

theorem decrypt_toBytes (envelope : Envelope) (aad : List (List UInt8)) (key : Nat) (domain : List UInt8) :
    decrypt envelope.toBytes aad key domain =
      if envelope.recipient = key ∧ envelope.aad = aad ∧ envelope.domain = domain then .ok envelope
      else .error "decryption failed" := by
  rw [decrypt, Envelope.ofBytes_toBytes]

theorem verify_toBytes (envelope : Envelope) (aad : List (List UInt8)) (identity : Nat) (domain : List UInt8) :
    verify envelope.toBytes aad identity domain =
      if envelope.signer = identity ∧ envelope.aad = aad ∧ envelope.domain = domain then .ok envelope.payload
      else .error "signature invalid" := by
  rw [verify, Envelope.ofBytes_toBytes]

/-- The cryptography. -/
def crypto : Crypto (List UInt8) where
  Seed := Nat
  XdsaSecretKey := Nat
  XdsaPublicKey := Nat
  XhpkeSecretKey := Nat
  XhpkePublicKey := Nat
  Fingerprint := Nat
  Sender := Context
  Receiver := Context
  fingerprintEq := inferInstance
  empty := []
  xdsaGenerate := id
  xdsaPublicKey := id
  xdsaItem := number
  xdsaOfItem := ofNumber
  xhpkeGenerate := id
  xhpkePublicKey := id
  xhpkeItem := number
  xhpkeOfItem := ofNumber
  fingerprint := id
  newSender key info seed := .ok ({ key, encap := number seed, info, seq := 0 }, number seed)
  isEncapKey encap := encap == number encap.length
  newReceiver key encap info := .ok { key, encap, info, seq := 0 }
  senderSeal := Context.seal
  receiverOpen := Context.open
  cborEncode items := .ok (1 :: pack items)
  cborDecode
    | 1 :: bytes => unpack bytes
    | _ => .error "not an array"
  coseSeal payload aad signer recipient domain _ := .ok { recipient, payload, aad, signer, domain : Envelope }.toBytes
  coseRecipient packet := (Envelope.ofBytes packet).map (·.recipient)
  coseDecrypt packet aad key domain := (decrypt packet aad key domain).map fun _ => packet
  cosePeek packet := (Envelope.ofBytes packet).map (·.payload)
  coseVerify := verify
  coseOpen packet aad key identity domain := do
    discard (decrypt packet aad key domain)
    verify packet aad identity domain
  peekHardware cwt := cwt == [1]
  peekEmulator cwt := cwt == [2]

theorem crypto_correct : crypto.Correct where
  xdsaOfItem_item := ofNumber_number
  xhpkeOfItem_item := ofNumber_number
  cborDecode_encode := by
    intro items packet h
    obtain rfl := Except.ok.inj h
    exact unpack_pack items
  coseRecipient_seal := by
    intro payload aad signer key domain seed packet h
    obtain rfl := Except.ok.inj h
    exact congrArg (Except.map _) (Envelope.ofBytes_toBytes _)
  coseDecrypt_seal := by
    intro payload aad signer key domain seed packet sign1 h hdecrypt
    obtain rfl := Except.ok.inj h
    replace hdecrypt := (congrArg (Except.map fun _ => _) (decrypt_toBytes _ aad key domain)).symm.trans hdecrypt
    split at hdecrypt
    · obtain rfl := Except.ok.inj hdecrypt
      refine ⟨congrArg (Except.map _) (Envelope.ofBytes_toBytes _), fun {identity result} hverify => ?_⟩
      replace hverify := (verify_toBytes _ aad identity domain).symm.trans hverify
      split at hverify
      · rename_i hsigner
        exact ⟨(Except.ok.inj hverify).symm, hsigner.1.symm⟩
      · cases hverify
    · cases hdecrypt
  coseOpen_seal := by
    intro payload aad signer key domain seed packet h
    obtain rfl := Except.ok.inj h
    have hdecrypt := (decrypt_toBytes ⟨key, payload, aad, signer, domain⟩ aad key domain).trans (if_pos ⟨rfl, rfl, rfl⟩)
    have hverify := (verify_toBytes ⟨key, payload, aad, signer, domain⟩ aad signer domain).trans (if_pos ⟨rfl, rfl, rfl⟩)
    exact (congrArg (fun opened => discard opened >>= fun _ => _) hdecrypt).trans hverify
  newReceiver_newSender := by
    intro key info seed sender encap h
    obtain ⟨_, rfl⟩ := Prod.mk.inj (Except.ok.inj h)
    exact ⟨number_length _, _, rfl⟩

/-- Its contexts, each with its channel and its sequence number. -/
def contexts : Contexts crypto where
  sendChannel context := (context.key, context.encap, context.info)
  sendSeq := Context.seq
  recvChannel context := (context.key, context.encap, context.info)
  recvSeq := Context.seq
  newSender_spec := by
    intro key info seed sender encap h
    obtain ⟨rfl, rfl⟩ := Prod.mk.inj (Except.ok.inj h)
    exact ⟨rfl, rfl⟩
  newReceiver_spec := by
    intro key encap info receiver h
    obtain rfl := Except.ok.inj h
    exact ⟨rfl, rfl⟩
  senderSeal_spec := by
    intro sender payload packet sender' h
    obtain ⟨_, rfl⟩ := Prod.mk.inj h
    exact ⟨rfl, rfl⟩
  receiverOpen_spec := by
    intro receiver packet payload receiver' h
    obtain rfl := Context.open_ok h
    exact ⟨rfl, rfl⟩

/-- Coins that differ from draw to draw, and for each use. -/
def coins (n : Nat) : Coins crypto := ⟨(3 * n : Nat), (3 * n + 1 : Nat), (3 * n + 2 : Nat)⟩

theorem arkRole_fresh (draws : Nat) : (arkRole coins).Fresh draws where
  key_inj := by
    intro m n _ _ h
    have h' : 3 * m = 3 * n := h
    omega
  encap_inj := by
    intro m n key key' sender sender' encap _ _ h h'
    obtain ⟨_, rfl⟩ := Prod.mk.inj (Except.ok.inj h)
    obtain ⟨_, hseed⟩ := Prod.mk.inj (Except.ok.inj h')
    have heq : 3 * n + 1 = 3 * m + 1 := number_inj hseed
    omega

theorem hostRole_fresh (draws : Nat) : (hostRole coins).Fresh draws where
  key_inj := by
    intro m n _ _ h
    have h' : 3 * m + 1 = 3 * n + 1 := h
    omega
  encap_inj := by
    intro m n key key' sender sender' encap _ _ h h'
    obtain ⟨_, rfl⟩ := Prod.mk.inj (Except.ok.inj h)
    obtain ⟨_, hseed⟩ := Prod.mk.inj (Except.ok.inj h')
    have heq : 3 * n = 3 * m := number_inj hseed
    omega

/-- An attestation of a hardware Ark. -/
def attestation : Attestation crypto := ⟨[1], Or.inl rfl⟩

/-- Byte strings as messages, of which those that begin with `0xff` do not decode. -/
def codec : Codec (List UInt8) (List UInt8) where
  encodedLen := List.length
  encode msg := .ok msg
  decode payload := if payload.head? = some 0xff then .error "invalid tag" else .ok payload

def protocol : Protocol (List UInt8) where
  HostToArk := List UInt8
  ArkToHost := List UInt8
  hostToArk := codec
  arkToHost := codec

instance : DecidableEq protocol.HostToArk := inferInstanceAs (DecidableEq (List UInt8))

/-! ### Two sides -/

/-- An Ark just created, with a writer that gives these answers. -/
def ark (answers : List WriteEvent) : ArkProc crypto protocol (Attestation crypto) Cobs.stuffing 512 :=
  .new [] ⟨[], answers⟩ (7 : Nat) attestation

def host : HostProc crypto protocol (Attestation crypto) Cobs.stuffing 512 := .new [] ⟨[], []⟩

def hostGreets : List (HostAction crypto protocol (Attestation crypto)) := [.handshake (Verifier.pinned (7 : Nat))]

def arkAnswers : List (ArkAction protocol) :=
  [.arrive (Reader.chunk (host.run coins hostGreets).side.framing.writer.wire), .nextMessage, .poll, .poll, .poll]

/-- The host comes into the session and sends two messages, of which the second does not decode. -/
def hostSends : List (HostAction crypto protocol (Attestation crypto)) :=
  hostGreets ++ [.arrive (Reader.chunk ((ark []).run coins arkAnswers).side.framing.writer.wire), .poll, .sendMessage [5],
    .sendMessage [255]]

def arkReceives : List (ArkAction protocol) :=
  let greeted := (host.run coins hostGreets).side.framing.writer.wire.length
  arkAnswers ++ [.arrive (Reader.chunk ((host.run coins hostSends).side.framing.writer.wire.drop greeted)), .poll, .poll,
    .nextMessage, .poll]

end DarkbioWire.Reference
