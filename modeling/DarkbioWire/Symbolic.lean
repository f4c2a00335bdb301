import DarkbioWire.Endpoint
import DarkbioWire.Lib.Symbolic

/-!
# Packets as the attacker reads them

The symbolic view of the cryptography. `Name` names every key and seed by who draws it and when, so that what one draw
makes is fresh. `Reading` is what is assumed of the cryptography: every packet reads as a message over these names, what
is sealed and signed reads as an envelope and a signature, and what decrypts or verifies is such a message, made with
the key that belongs to it over the same payload, authenticated data and domain. Many envelopes and signatures read
alike, since sealing and signing draw coins of their own.
-/

namespace DarkbioWire

open Symbolic

/-- Which of the coins of a draw. -/
inductive Use
  | first
  | second
  | third
  deriving DecidableEq

/-- Whose key or seed: the `n`-th identity key, what an Ark or a host draws in its `n`-th draw, and the attacker's own.
The secrets that messages are about have names too. -/
inductive Name
  | signer (n : Nat)
  | ark (a n : Nat) (use : Use)
  | host (h n : Nat) (use : Use)
  | message (d : Nat)
  | adversary (n : Nat)
  deriving DecidableEq

/-- The names whose secrets the attacker drew itself. -/
def Name.own : Set Name := {name | ∃ n, name = .adversary n}

@[simp] theorem Name.signer_not_own (n : Nat) : Name.signer n ∉ Name.own := fun ⟨_, h⟩ => nomatch h
@[simp] theorem Name.ark_not_own (a n : Nat) (use : Use) : Name.ark a n use ∉ Name.own := fun ⟨_, h⟩ => nomatch h
@[simp] theorem Name.host_not_own (h n : Nat) (use : Use) : Name.host h n use ∉ Name.own := fun ⟨_, h⟩ => nomatch h
@[simp] theorem Name.message_not_own (d : Nat) : Name.message d ∉ Name.own := fun ⟨_, h⟩ => nomatch h

variable {Blob : Type} {c : Crypto Blob} {hpke : Contexts c}

/-- A reading of packets as messages. A key pair is generated from a seed and has its name. -/
structure Reading {Blob : Type} {c : Crypto Blob} (hpke : Contexts c) where
  term : Blob → Term Name
  seed : c.Seed → Name
  signKey : c.XdsaSecretKey → Name
  verifyKey : c.XdsaPublicKey → Name
  secretKey : c.XhpkeSecretKey → Name
  publicKey : c.XhpkePublicKey → Name
  /-- Of envelopes, signatures and what is made of them nothing is asked. -/
  term_inj : ∀ {packet packet'}, (term packet').Bare → term packet = term packet' → packet = packet'
  verifyKey_inj : ∀ {key key'}, verifyKey key = verifyKey key' → key = key'
  publicKey_inj : ∀ {key key'}, publicKey key = publicKey key' → key = key'
  signKey_generate : ∀ coin, signKey (c.xdsaGenerate coin) = seed coin
  secretKey_generate : ∀ coin, secretKey (c.xhpkeGenerate coin) = seed coin
  verifyKey_public : ∀ key, verifyKey (c.xdsaPublicKey key) = signKey key
  publicKey_public : ∀ key, publicKey (c.xhpkePublicKey key) = secretKey key
  term_empty : term c.empty = .bytes []
  term_xdsaItem : ∀ key, term (c.xdsaItem key) = .verifyKey (verifyKey key)
  term_xhpkeItem : ∀ key, term (c.xhpkeItem key) = .publicKey (publicKey key)
  xhpkeOfItem_spec : ∀ {item key}, c.xhpkeOfItem item = .ok key → term item = .publicKey (publicKey key)
  /-- An attestation is a token of claims about a device, none of which is a secret of the wire. -/
  attestation_spec : ∀ {cwt}, c.peekHardware cwt = true ∨ c.peekEmulator cwt = true → ∃ data, term cwt = .bytes data
  cborEncode_spec : ∀ {items packet}, c.cborEncode items = .ok packet → term packet = .ofList (items.map term)
  newSender_spec : ∀ {key info coin sender encap}, c.newSender key info coin = .ok (sender, encap) →
    term encap = .encap (publicKey key) (seed coin)
  senderSeal_spec : ∀ {sender payload packet sender' key encap info}, hpke.sendChannel sender = (key, encap, info) →
    c.senderSeal sender payload = (.ok packet, sender') →
    term packet = .sealed (publicKey key) (term encap) info (hpke.sendSeq sender) (term payload)
  coseSeal_spec : ∀ {payload aad signer key domain coin packet},
    c.coseSeal payload aad signer key domain coin = .ok packet →
    term packet = .envelope (publicKey key) (.ofList (aad.map term)) domain
      (.signed (signKey signer) (.ofList (payload.map term)) (.ofList (aad.map term)) domain)
  coseDecrypt_spec : ∀ {packet aad key domain sign1}, c.coseDecrypt packet aad key domain = .ok sign1 →
    term packet = .envelope (secretKey key) (.ofList (aad.map term)) domain (term sign1)
  /-- What `cose::peek` shows is what `cose::verify` checks. -/
  cosePeek_spec : ∀ {sign1 aad identity domain shown payload}, c.cosePeek sign1 = .ok shown →
    c.coseVerify sign1 aad identity domain = .ok payload → shown = payload
  coseVerify_spec : ∀ {sign1 aad identity domain payload}, c.coseVerify sign1 aad identity domain = .ok payload →
    term sign1 = .signed (verifyKey identity) (.ofList (payload.map term)) (.ofList (aad.map term)) domain
  coseOpen_spec : ∀ {packet aad key identity domain payload},
    c.coseOpen packet aad key identity domain = .ok payload →
    term packet = .envelope (secretKey key) (.ofList (aad.map term)) domain
      (.signed (verifyKey identity) (.ofList (payload.map term)) (.ofList (aad.map term)) domain)

/-- A codec whose messages are the caller's own: each is data anyone can guess, or a secret nobody can. -/
def Reading.Plain (reading : Reading hpke) {M : Type} (codec : Codec Blob M) : Prop :=
  ∀ {msg payload}, codec.encode msg = .ok payload →
    (∃ data, reading.term payload = .bytes data) ∨ ∃ d, reading.term payload = .atom (.message d)

namespace Reading

theorem map_inj (reading : Reading hpke) {items items' : List Blob}
    (hbare : ∀ item ∈ items', (reading.term item).Bare)
    (h : Term.ofList (items.map reading.term) = Term.ofList (items'.map reading.term)) : items = items' := by
  have hmap := Term.ofList_inj h
  clear h
  induction items' generalizing items with
  | nil => exact List.map_eq_nil_iff.mp hmap
  | cons item' items' ih =>
      obtain ⟨item, rest, rfl, hitem, hrest⟩ := List.map_eq_cons_iff.mp hmap
      rw [reading.term_inj (hbare item' List.mem_cons_self) hitem,
        ih (fun other hmem => hbare other (List.mem_cons_of_mem _ hmem)) hrest]

theorem Plain.bare {reading : Reading hpke} {M : Type} {codec : Codec Blob M} (h : reading.Plain codec) {msg : M}
    {payload : Blob} (hencode : codec.encode msg = .ok payload) : (reading.term payload).Bare := by
  rcases h hencode with ⟨data, hterm⟩ | ⟨d, hterm⟩
  · rw [hterm]
    trivial
  · rw [hterm]
    trivial

theorem xdsaItem_inj (reading : Reading hpke) {key key' : c.XdsaPublicKey}
    (h : reading.term (c.xdsaItem key) = reading.term (c.xdsaItem key')) : key = key' := by
  rw [reading.term_xdsaItem, reading.term_xdsaItem] at h
  exact reading.verifyKey_inj (Term.verifyKey.inj h)

theorem xhpkeItem_inj (reading : Reading hpke) {key key' : c.XhpkePublicKey}
    (h : reading.term (c.xhpkeItem key) = reading.term (c.xhpkeItem key')) : key = key' := by
  rw [reading.term_xhpkeItem, reading.term_xhpkeItem] at h
  exact reading.publicKey_inj (Term.publicKey.inj h)

/-- Data that authenticates two hellos alike authenticates one hello. -/
theorem hostHello_inj (reading : Reading hpke) {hello hello' : HostHello c}
    (h : Term.ofList (hello.auth.toCbor.map reading.term) = Term.ofList (hello'.auth.toCbor.map reading.term)) :
    hello = hello' := by
  obtain ⟨signer, crypto⟩ := hello
  obtain ⟨signer', crypto'⟩ := hello'
  obtain ⟨hsigner, hrest⟩ := Term.cons.inj h
  obtain rfl := reading.xdsaItem_inj hsigner
  obtain rfl := reading.xhpkeItem_inj (Term.cons.inj hrest).1
  rfl

theorem hostAckAuth_inj (reading : Reading hpke) {auth auth' : HostAckAuth c}
    (h : Term.ofList (auth.toCbor.map reading.term) = Term.ofList (auth'.toCbor.map reading.term)) : auth = auth' := by
  obtain ⟨signer, crypto⟩ := auth
  obtain ⟨signer', crypto'⟩ := auth'
  obtain ⟨hsigner, hrest⟩ := Term.cons.inj h
  obtain rfl := reading.xdsaItem_inj hsigner
  obtain rfl := reading.xhpkeItem_inj (Term.cons.inj hrest).1
  rfl

theorem arkHello_of_toCbor (reading : Reading hpke) {hello hello' : ArkHello c}
    (h : ArkHello.ofCbor c hello.toCbor = .ok hello') : hello' = hello := by
  obtain ⟨attest, crypto, encap⟩ := hello
  rw [ArkHello.toCbor, ArkHello.ofCbor] at h
  split at h
  · rename_i crypto' hcrypto
    have hterm := reading.xhpkeOfItem_spec hcrypto
    rw [reading.term_xhpkeItem] at hterm
    obtain rfl := reading.publicKey_inj (Term.publicKey.inj hterm)
    exact (Except.ok.inj h).symm
  · cases h

end Reading

end DarkbioWire
