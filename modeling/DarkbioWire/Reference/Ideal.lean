import DarkbioWire.Network

/-!
# Cryptography on terms

The cryptography that computes with the messages themselves. An envelope has the coin it was sealed with in it, beside the
signature, and reads as if it had not. A network of its parties: the `n`-th Ark holds the `n`-th identity key, and messages
are numbered secrets.
-/

namespace DarkbioWire.Ideal

open Symbolic

/-- One end of an encryption context. -/
structure Context where
  key : Name
  encap : Term Name
  info : List UInt8
  seq : Nat

namespace Context

def next (context : Context) : Context := { context with seq := context.seq + 1 }

def «seal» (context : Context) (payload : Term Name) : Except String (Term Name) × Context :=
  (.ok (.sealed context.key context.encap context.info context.seq payload), context.next)

def «open» (context : Context) : Term Name → Except String (Term Name) × Context
  | .sealed key encap info seq payload =>
      if key = context.key ∧ encap = context.encap ∧ info = context.info ∧ seq = context.seq then
        (.ok payload, context.next)
      else (.error "wrong tag", context)
  | _ => (.error "not sealed", context)

theorem open_ok {context context' : Context} {packet payload : Term Name}
    (h : context.open packet = (.ok payload, context')) : context' = context.next := by
  cases packet with
  | «sealed» key encap info seq inner =>
      rw [Context.open] at h
      split at h
      · exact (Prod.mk.inj h).2.symm
      · cases h
  | _ => cases h

end Context

/-- The items of an array. -/
def items (t : Term Name) : Except String (List (Term Name)) :=
  match t.toList? with
  | some items => .ok items
  | none => .error "not an array"

theorem items_ok {t : Term Name} {list : List (Term Name)} (h : items t = .ok list) : t = .ofList list := by
  rw [items] at h
  split at h
  · rename_i hlist
    obtain rfl := Except.ok.inj h
    exact Term.ofList_of_toList? hlist
  · cases h

def decrypt (aad : List (Term Name)) (key : Name) (domain : List UInt8) : Term Name → Except String (Term Name)
  | .envelope n aad' domain' (.cons (.atom _) sign1) =>
      if n = key ∧ aad' = .ofList aad ∧ domain' = domain then .ok sign1 else .error "decryption failed"
  | _ => .error "not an envelope"

def verify (aad : List (Term Name)) (identity : Name) (domain : List UInt8) : Term Name → Except String (List (Term Name))
  | .signed n payload aad' domain' =>
      if n = identity ∧ aad' = .ofList aad ∧ domain' = domain then items payload else .error "signature invalid"
  | _ => .error "not signed"

theorem decrypt_ok {packet sign1 : Term Name} {aad : List (Term Name)} {key : Name} {domain : List UInt8}
    (h : decrypt aad key domain packet = .ok sign1) :
    ∃ coin, packet = .envelope key (.ofList aad) domain (.cons (.atom coin) sign1) := by
  rw [decrypt.eq_def] at h
  split at h
  · rename_i coin _
    split at h
    · rename_i hsame
      obtain ⟨rfl, rfl, rfl⟩ := hsame
      rw [Except.ok.inj h]
      exact ⟨coin, rfl⟩
    · cases h
  · cases h

theorem verify_ok {sign1 : Term Name} {aad payload : List (Term Name)} {identity : Name} {domain : List UInt8}
    (h : verify aad identity domain sign1 = .ok payload) :
    sign1 = .signed identity (.ofList payload) (.ofList aad) domain := by
  cases sign1 with
  | signed n payload' aad' domain' =>
      rw [verify] at h
      split at h
      · rename_i hsame
        obtain ⟨rfl, rfl, rfl⟩ := hsame
        rw [items_ok h]
      · cases h
  | _ => cases h

def peek : Term Name → Except String (List (Term Name))
  | .signed _ payload _ _ => items payload
  | _ => .error "not signed"

/-! ### What a packet reads as -/

/-- What is in an envelope without the coin. -/
def uncoined : Term Name → Term Name
  | .cons (.atom _) sign1 => sign1
  | body => body

/-- A packet without the coins its envelopes were sealed with. -/
def seen : Term Name → Term Name
  | .cons head tail => .cons (seen head) (seen tail)
  | .signed n payload aad domain => .signed n (seen payload) (seen aad) domain
  | .envelope n aad domain body => .envelope n (seen aad) domain (uncoined (seen body))
  | .sealed n encap info seq payload => .sealed n (seen encap) info seq (seen payload)
  | t => t

theorem seen_ofList (list : List (Term Name)) : seen (.ofList list) = .ofList (list.map seen) := by
  induction list with
  | nil => rfl
  | cons item list ih => exact congrArg (Term.cons (seen item)) ih

theorem seen_of_bare {t : Term Name} (h : (seen t).Bare) : seen t = t := by
  cases t with
  | cons _ _ | signed _ _ _ _ | envelope _ _ _ _ | «sealed» _ _ _ _ _ => exact h.elim
  | _ => rfl

theorem seen_inj {t t' : Term Name} (hbare : (seen t').Bare) (h : seen t = seen t') : t = t' := by
  have hbare' : (seen t).Bare := by
    rw [h]
    exact hbare
  rw [← seen_of_bare hbare', h, seen_of_bare hbare]

theorem seen_signed {signer : Name} {payload aad : List (Term Name)} {domain : List UInt8} :
    seen (.signed signer (.ofList payload) (.ofList aad) domain) =
      .signed signer (.ofList (payload.map seen)) (.ofList (aad.map seen)) domain := by
  rw [seen, seen_ofList, seen_ofList]

theorem seen_envelope {key coin : Name} {aad : List (Term Name)} {domain : List UInt8} {sign1 : Term Name} :
    seen (.envelope key (.ofList aad) domain (.cons (.atom coin) sign1)) =
      .envelope key (.ofList (aad.map seen)) domain (seen sign1) := by
  rw [seen, seen_ofList]
  rfl

theorem seen_sealed {key coin signer : Name} {payload aad : List (Term Name)} {domain : List UInt8} :
    seen (.envelope key (.ofList aad) domain (.cons (.atom coin) (.signed signer (.ofList payload) (.ofList aad) domain))) =
      .envelope key (.ofList (aad.map seen)) domain
        (.signed signer (.ofList (payload.map seen)) (.ofList (aad.map seen)) domain) := by
  rw [seen_envelope, seen_signed]

/-- The cryptography. -/
def crypto : Crypto (Term Name) where
  Seed := Name
  XdsaSecretKey := Name
  XdsaPublicKey := Name
  XhpkeSecretKey := Name
  XhpkePublicKey := Name
  Fingerprint := Name
  Sender := Context
  Receiver := Context
  fingerprintEq := inferInstance
  empty := .bytes []
  xdsaGenerate := id
  xdsaPublicKey := id
  xdsaItem := .verifyKey
  xdsaOfItem
    | .verifyKey n => .ok n
    | _ => .error "not a key"
  xhpkeGenerate := id
  xhpkePublicKey := id
  xhpkeItem := .publicKey
  xhpkeOfItem
    | .publicKey n => .ok n
    | _ => .error "not a key"
  fingerprint := id
  newSender key info seed := .ok (⟨key, .encap key seed, info, 0⟩, .encap key seed)
  isEncapKey
    | .encap _ _ => true
    | _ => false
  newReceiver key encap info := .ok ⟨key, encap, info, 0⟩
  senderSeal := Context.seal
  receiverOpen := Context.open
  cborEncode list := .ok (.ofList list)
  cborDecode := items
  coseSeal payload aad signer key domain coin :=
    let sign1 : Term Name := .signed signer (.ofList payload) (.ofList aad) domain
    .ok (.envelope key (.ofList aad) domain (.cons (.atom coin) sign1))
  coseRecipient
    | .envelope n _ _ _ => .ok n
    | _ => .error "not an envelope"
  coseDecrypt packet aad key domain := decrypt aad key domain packet
  cosePeek := peek
  coseVerify sign1 aad identity domain := verify aad identity domain sign1
  coseOpen packet aad key identity domain := decrypt aad key domain packet >>= verify aad identity domain
  peekHardware cwt := decide (cwt = .bytes [1])
  peekEmulator cwt := decide (cwt = .bytes [2])

def contexts : Contexts crypto where
  sendChannel context := (context.key, context.encap, context.info)
  sendSeq := Context.seq
  recvChannel context := (context.key, context.encap, context.info)
  recvSeq := Context.seq
  newSender_spec := by
    intro key info seed sender encap h
    obtain ⟨rfl, rfl⟩ := Prod.mk.inj (Except.ok.inj h)
    exact ⟨rfl, rfl⟩
  newReceiver_spec := by
    intro key encap info receiver h
    obtain rfl := Except.ok.inj h
    exact ⟨rfl, rfl⟩
  senderSeal_spec := by
    intro sender payload packet sender' h
    obtain ⟨_, rfl⟩ := Prod.mk.inj h
    exact ⟨rfl, rfl⟩
  receiverOpen_spec := by
    intro receiver packet payload receiver' h
    obtain rfl := Context.open_ok h
    exact ⟨rfl, rfl⟩

/-- Every packet reads as what is seen of it. -/
def reading : Reading contexts where
  term := seen
  seed := id
  signKey := id
  verifyKey := id
  secretKey := id
  publicKey := id
  term_inj := seen_inj
  verifyKey_inj h := h
  publicKey_inj h := h
  signKey_generate _ := rfl
  secretKey_generate _ := rfl
  verifyKey_public _ := rfl
  publicKey_public _ := rfl
  term_empty := rfl
  term_xdsaItem _ := rfl
  term_xhpkeItem _ := rfl
  xhpkeOfItem_spec := by
    intro item key h
    cases item with
    | publicKey n =>
        obtain rfl := Except.ok.inj h
        rfl
    | _ => cases h
  attestation_spec := by
    rintro cwt (hshape | hshape)
    · exact ⟨[1], congrArg seen (of_decide_eq_true hshape)⟩
    · exact ⟨[2], congrArg seen (of_decide_eq_true hshape)⟩
  cborEncode_spec := by
    intro list packet h
    obtain rfl := Except.ok.inj h
    exact seen_ofList list
  newSender_spec := by
    intro key info seed sender encap h
    obtain ⟨_, rfl⟩ := Prod.mk.inj (Except.ok.inj h)
    rfl
  senderSeal_spec := by
    intro sender payload packet sender' key encap info hchannel h
    obtain rfl := Except.ok.inj (Prod.mk.inj h).1
    obtain ⟨rfl, hrest⟩ := Prod.mk.inj hchannel
    obtain ⟨rfl, rfl⟩ := Prod.mk.inj hrest
    rfl
  coseSeal_spec := by
    intro payload aad signer key domain seed packet h
    obtain rfl := Except.ok.inj h
    exact seen_sealed
  coseDecrypt_spec := by
    intro packet aad key domain sign1 h
    obtain ⟨coin, rfl⟩ := decrypt_ok h
    exact seen_envelope
  cosePeek_spec := by
    intro sign1 aad identity domain shown payload hpeek hverify
    obtain rfl := verify_ok hverify
    have hshown := items_ok hpeek
    exact (Term.ofList_inj hshown).symm
  coseVerify_spec := by
    intro sign1 aad identity domain payload h
    obtain rfl := verify_ok h
    exact seen_signed
  coseOpen_spec := by
    intro packet aad key identity domain payload h
    rcases hdecrypt : decrypt aad key domain packet with err | sign1
    · rw [show crypto.coseOpen packet aad key identity domain =
        (decrypt aad key domain packet >>= verify aad identity domain) from rfl, hdecrypt] at h
      cases h
    · rw [show crypto.coseOpen packet aad key identity domain =
        (decrypt aad key domain packet >>= verify aad identity domain) from rfl, hdecrypt] at h
      obtain ⟨coin, rfl⟩ := decrypt_ok hdecrypt
      obtain rfl := verify_ok h
      exact seen_sealed

/-! ### Parties -/

def coinsOf (name : Nat → Use → Name) (n : Nat) : Coins crypto := ⟨name n .first, name n .second, name n .third⟩

/-- The `n`-th Ark holds the `n`-th identity key. -/
def numbered (leaked : Set Nat) : Parties crypto where
  signers := .signer
  identity := id
  leaked := leaked
  arkCoins a := coinsOf (.ark a)
  hostCoins h := coinsOf (.host h)

/-- Numbers as messages, each a secret. -/
def codec : Codec (Term Name) Nat where
  encodedLen _ := 0
  encode d := .ok (.atom (.message d))
  decode
    | .atom (.message d) => .ok d
    | _ => .error "not a message"

def protocol : Protocol (Term Name) where
  HostToArk := Nat
  ArkToHost := Nat
  hostToArk := codec
  arkToHost := codec

theorem codec_plain : reading.Plain codec := by
  intro d payload h
  obtain rfl := Except.ok.inj h
  exact Or.inr ⟨d, rfl⟩

def attestation : Attestation crypto := ⟨.bytes [1], Or.inl rfl⟩

/-- Arks and hosts that pin the identity of the first Ark. -/
abbrev Worlds := World crypto (Attestation crypto) (Attestation crypto) 0

theorem numbered_named (leaked : Set Nat) (w : Worlds) : (numbered leaked).Named reading w :=
  ⟨fun _ _ => rfl, fun _ _ => rfl, fun _ _ _ => rfl, fun _ _ _ => rfl, fun _ _ _ => rfl, fun _ _ _ => rfl⟩

def start (leaked : Set Nat) : Worlds := .start (numbered leaked) fun _ => attestation

/-- The HostHello of the first host with a key to encrypt to. -/
def hello (hostCrypto : Name) : Term Name := .ofList [.verifyKey (.host 0 0 .first), .publicKey hostCrypto]

/-- The answer of the first Ark to a HostHello with this key, from these names and with this coin. -/
def answer (hostCrypto seed coin : Name) : Term Name :=
  let aad : Term Name := hello hostCrypto
  let sign1 : Term Name := .signed (.signer 0) (.ofList [.bytes [1], .publicKey (.ark 0 0 .first), .encap hostCrypto seed]) aad
    CRYPTO_DOMAIN_WIRE
  .envelope hostCrypto aad CRYPTO_DOMAIN_WIRE (.cons (.atom coin) sign1)

/-- The HostAck of the first host. -/
def ack : Term Name :=
  let aad : Term Name := .ofList [.verifyKey (.signer 0), .publicKey (.ark 0 0 .first)]
  let sign1 : Term Name := .signed (.host 0 0 .first) (.ofList [.encap (.ark 0 0 .first) (.host 0 1 .first)]) aad
    CRYPTO_DOMAIN_WIRE
  .envelope (.ark 0 0 .first) aad CRYPTO_DOMAIN_WIRE (.cons (.atom (.host 0 1 .second)) sign1)

abbrev Step := Action crypto protocol (Attestation crypto)

/-- The host greets and the Ark comes to read this hello. -/
def greeting (hostCrypto : Name) : List Step :=
  [.host 0 (.handshake (Verifier.pinned (Name.signer 0))), .ark 0 .nextMessage, .ark 0 (.deliver (.ok none)),
    .ark 0 (.deliver (.ok (some (hello hostCrypto))))]

def after (leaked : Set Nat) (steps : List Step) : Worlds := steps.foldl (World.step (numbered leaked)) (start leaked)

def traced (leaked : Set Nat) : List Step → List (Worlds × Step)
  | [] => []
  | step :: steps => (after leaked steps.reverse, step) :: traced leaked steps

end DarkbioWire.Ideal
