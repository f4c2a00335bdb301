import DarkbioWire.Reference.Codec
import DarkbioWire.Reference.Ideal

/-!
# Cryptography on the bytes of terms

The cryptography of terms over byte strings, each of which stands for the term whose bytes it is, or for data of its own.
What no byte string stands for is refused, so everything that is made stands for what it was made as. A network over byte
streams is evaluated with it.
-/

namespace DarkbioWire.Coded

open Symbolic

/-! ### The bytes of a term -/

/-- A number, and where it ends. -/
def number (n : Nat) : List UInt8 := List.replicate n 1 ++ [0]

def string (data : List UInt8) : List UInt8 := number data.length ++ data

def use : Use → UInt8
  | .first => 1
  | .second => 2
  | .third => 3

def name : Name → List UInt8
  | .signer n => 1 :: number n
  | .ark a n which => 2 :: (number a ++ number n ++ [use which])
  | .host h n which => 3 :: (number h ++ number n ++ [use which])
  | .message d => 4 :: number d
  | .adversary n => 5 :: number n

def write : Term Name → List UInt8
  | .bytes data => 1 :: string data
  | .atom n => 2 :: name n
  | .verifyKey n => 3 :: name n
  | .signKey n => 4 :: name n
  | .publicKey n => 5 :: name n
  | .secretKey n => 6 :: name n
  | .nil => [7]
  | .cons head tail => 8 :: (write head ++ write tail)
  | .signed n payload aad domain => 9 :: (name n ++ write payload ++ write aad ++ string domain)
  | .envelope n aad domain body => 10 :: (name n ++ write aad ++ string domain ++ write body)
  | .encap n seed => 11 :: (name n ++ name seed)
  | .sealed n encap info seq payload => 12 :: (name n ++ write encap ++ string info ++ number seq ++ write payload)

/-- The bytes of a term. Those of the empty string are none. -/
def blob : Term Name → List UInt8
  | .bytes [] => []
  | t => write t

/-! ### The term of some bytes -/

/-- Reads a number, and gives back what is behind it. -/
def number? : List UInt8 → Option (Nat × List UInt8)
  | [] => none
  | mark :: rest => if mark = 0 then some (0, rest) else (number? rest).map fun found => (found.1 + 1, found.2)

def string? (bytes : List UInt8) : Option (List UInt8 × List UInt8) :=
  (number? bytes).map fun found => (found.2.take found.1, found.2.drop found.1)

def use? : List UInt8 → Option (Use × List UInt8)
  | 1 :: rest => some (.first, rest)
  | 2 :: rest => some (.second, rest)
  | 3 :: rest => some (.third, rest)
  | _ => none

def name? : List UInt8 → Option (Name × List UInt8)
  | 1 :: rest => (number? rest).map fun found => (.signer found.1, found.2)
  | 2 :: rest => do
    let (a, rest) ← number? rest
    let (n, rest) ← number? rest
    let (which, rest) ← use? rest
    return (.ark a n which, rest)
  | 3 :: rest => do
    let (h, rest) ← number? rest
    let (n, rest) ← number? rest
    let (which, rest) ← use? rest
    return (.host h n which, rest)
  | 4 :: rest => (number? rest).map fun found => (.message found.1, found.2)
  | 5 :: rest => (number? rest).map fun found => (.adversary found.1, found.2)
  | _ => none

/-- Reads a term, to a depth. -/
def term? : Nat → List UInt8 → Option (Term Name × List UInt8)
  | depth + 1, tag :: rest =>
    match tag with
    | 1 => (string? rest).map fun found => (.bytes found.1, found.2)
    | 2 => (name? rest).map fun found => (.atom found.1, found.2)
    | 3 => (name? rest).map fun found => (.verifyKey found.1, found.2)
    | 4 => (name? rest).map fun found => (.signKey found.1, found.2)
    | 5 => (name? rest).map fun found => (.publicKey found.1, found.2)
    | 6 => (name? rest).map fun found => (.secretKey found.1, found.2)
    | 7 => some (.nil, rest)
    | 8 => do
      let (head, rest) ← term? depth rest
      let (tail, rest) ← term? depth rest
      return (.cons head tail, rest)
    | 9 => do
      let (n, rest) ← name? rest
      let (payload, rest) ← term? depth rest
      let (aad, rest) ← term? depth rest
      let (domain, rest) ← string? rest
      return (.signed n payload aad domain, rest)
    | 10 => do
      let (n, rest) ← name? rest
      let (aad, rest) ← term? depth rest
      let (domain, rest) ← string? rest
      let (body, rest) ← term? depth rest
      return (.envelope n aad domain body, rest)
    | 11 => do
      let (n, rest) ← name? rest
      let (seed, rest) ← name? rest
      return (.encap n seed, rest)
    | 12 => do
      let (n, rest) ← name? rest
      let (encap, rest) ← term? depth rest
      let (info, rest) ← string? rest
      let (seq, rest) ← number? rest
      let (payload, rest) ← term? depth rest
      return (.sealed n encap info seq payload, rest)
    | _ => none
  | _, _ => none

def read : List UInt8 → Option (Term Name)
  | [] => some (.bytes [])
  | bytes => (term? bytes.length bytes).map Prod.fst

/-- Data that stands for bytes which are no term's. -/
def stray : Term Name → Bool
  | .bytes (0 :: _) => true
  | _ => false

/-- What bytes stand for. -/
def term (bytes : List UInt8) : Term Name :=
  match read bytes with
  | some t => if blob t = bytes ∧ stray t = false then t else .bytes (0 :: bytes)
  | none => .bytes (0 :: bytes)

theorem term_cases (bytes : List UInt8) :
    blob (term bytes) = bytes ∧ stray (term bytes) = false ∨ term bytes = .bytes (0 :: bytes) := by
  rw [term]
  split
  · split
    · rename_i hterm
      exact Or.inl hterm
    · exact Or.inr rfl
  · exact Or.inr rfl

theorem term_inj {bytes bytes' : List UInt8} (h : term bytes = term bytes') : bytes = bytes' := by
  rcases term_cases bytes with ⟨hblob, hstray⟩ | hdata <;> rcases term_cases bytes' with ⟨hblob', hstray'⟩ | hdata'
  · rw [← hblob, h, hblob']
  · rw [h, hdata'] at hstray
    cases hstray
  · rw [← h, hdata] at hstray'
    cases hstray'
  · rw [hdata, hdata'] at h
    exact (List.cons.inj (Term.bytes.inj h)).2

theorem number?_number (n : Nat) (rest : List UInt8) : number? (number n ++ rest) = some (n, rest) := by
  induction n with
  | zero => rfl
  | succ n ih =>
      rw [number, List.replicate_succ, List.cons_append, List.cons_append, number?, if_neg (by decide)]
      rw [number] at ih
      rw [ih]
      rfl

theorem use?_use (which : Use) (rest : List UInt8) : use? (use which :: rest) = some (which, rest) := by
  cases which <;> rfl

theorem name?_name (n : Name) (rest : List UInt8) : name? (name n ++ rest) = some (n, rest) := by
  cases n with
  | signer n | message n | adversary n =>
      rw [name, List.cons_append, name?, number?_number]
      rfl
  | ark a n which | host a n which =>
      simp only [name, name?, List.cons_append, List.append_assoc, List.nil_append, number?_number, use?_use,
        Option.bind_eq_bind, Option.bind_some]
      rfl

theorem term_blob_empty : term (blob (.bytes [])) = .bytes [] := by
  decide

theorem term_verifyKey (n : Name) : term (blob (.verifyKey n)) = .verifyKey n := by
  have hname : name? (name n) = some (n, []) := by
    simpa using name?_name n []
  have hread : read (blob (.verifyKey n)) = some (.verifyKey n) := by
    change (term? ((name n).length + 1) (3 :: name n)).map Prod.fst = _
    rw [term?, hname]
    rfl
  rw [term, hread]
  exact if_pos ⟨rfl, rfl⟩

theorem term_publicKey (n : Name) : term (blob (.publicKey n)) = .publicKey n := by
  have hname : name? (name n) = some (n, []) := by
    simpa using name?_name n []
  have hread : read (blob (.publicKey n)) = some (.publicKey n) := by
    change (term? ((name n).length + 1) (5 :: name n)).map Prod.fst = _
    rw [term?, hname]
    rfl
  rw [term, hread]
  exact if_pos ⟨rfl, rfl⟩

/-! ### Making bytes -/

/-- The bytes of a term that they read as. -/
def emit (t : Term Name) : Except String (List UInt8) :=
  if term (blob t) = t then .ok (blob t) else .error "no bytes read as this"

theorem emit_ok {t : Term Name} {bytes : List UInt8} (h : emit t = .ok bytes) : term bytes = t := by
  rw [emit] at h
  split at h
  · rename_i hread
    rw [← Except.ok.inj h]
    exact hread
  · cases h

def emitAll : List (Term Name) → Except String (List (List UInt8))
  | [] => .ok []
  | t :: ts =>
    match emit t, emitAll ts with
    | .ok bytes, .ok rest => .ok (bytes :: rest)
    | .error err, _ => .error err
    | _, .error err => .error err

theorem emitAll_ok {ts : List (Term Name)} {packets : List (List UInt8)} (h : emitAll ts = .ok packets) :
    packets.map term = ts := by
  induction ts generalizing packets with
  | nil =>
      obtain rfl := Except.ok.inj h
      rfl
  | cons t ts ih =>
      rw [emitAll] at h
      rcases hemit : emit t with err | bytes
      · rw [hemit] at h
        cases h
      rcases hrest : emitAll ts with err | rest
      · rw [hemit, hrest] at h
        cases h
      rw [hemit, hrest] at h
      obtain rfl := Except.ok.inj h
      rw [List.map_cons, emit_ok hemit, ih hrest]

/-- One end of an encryption context. -/
structure Context where
  key : Name
  encap : List UInt8
  info : List UInt8
  seq : Nat

namespace Context

def next (context : Context) : Context := { context with seq := context.seq + 1 }

def «seal» (context : Context) (payload : List UInt8) : Except String (List UInt8) × Context :=
  match emit (.sealed context.key (term context.encap) context.info context.seq (term payload)) with
  | .ok packet => (.ok packet, context.next)
  | .error err => (.error err, context)

def «open» (context : Context) (packet : List UInt8) : Except String (List UInt8) × Context :=
  match term packet with
  | .sealed key encap info seq payload =>
      if key = context.key ∧ encap = term context.encap ∧ info = context.info ∧ seq = context.seq then
        match emit payload with
        | .ok payload => (.ok payload, context.next)
        | .error err => (.error err, context)
      else (.error "wrong tag", context)
  | _ => (.error "not sealed", context)

theorem seal_ok {context context' : Context} {packet payload : List UInt8}
    (h : context.seal payload = (.ok packet, context')) :
    term packet = .sealed context.key (term context.encap) context.info context.seq (term payload) ∧
      context' = context.next := by
  rw [Context.seal] at h
  split at h
  · rename_i hemit
    obtain ⟨hpacket, rfl⟩ := Prod.mk.inj h
    obtain rfl := Except.ok.inj hpacket
    exact ⟨emit_ok hemit, rfl⟩
  · cases h

theorem open_ok {context context' : Context} {packet payload : List UInt8}
    (h : context.open packet = (.ok payload, context')) :
    term packet = .sealed context.key (term context.encap) context.info context.seq (term payload) ∧
      context' = context.next := by
  rw [Context.open] at h
  split at h
  · rename_i hterm
    split at h
    · rename_i hsame
      obtain ⟨rfl, rfl, rfl, rfl⟩ := hsame
      split at h
      · rename_i hemit
        obtain ⟨hpayload, rfl⟩ := Prod.mk.inj h
        obtain rfl := Except.ok.inj hpayload
        rw [emit_ok hemit]
        exact ⟨hterm, rfl⟩
      · cases h
    · cases h
  · cases h

end Context

/-- The cryptography. -/
def crypto : Crypto (List UInt8) where
  Seed := Name
  XdsaSecretKey := Name
  XdsaPublicKey := Name
  XhpkeSecretKey := Name
  XhpkePublicKey := Name
  Fingerprint := Name
  Sender := Context
  Receiver := Context
  fingerprintEq := inferInstance
  empty := []
  xdsaGenerate := id
  xdsaPublicKey := id
  xdsaItem key := blob (.verifyKey key)
  xdsaOfItem item := Ideal.crypto.xdsaOfItem (term item)
  xhpkeGenerate := id
  xhpkePublicKey := id
  xhpkeItem key := blob (.publicKey key)
  xhpkeOfItem item := Ideal.crypto.xhpkeOfItem (term item)
  fingerprint := id
  newSender key info seed := (emit (.encap key seed)).map fun encap => (⟨key, encap, info, 0⟩, encap)
  isEncapKey encap := Ideal.crypto.isEncapKey (term encap)
  newReceiver key encap info := .ok ⟨key, encap, info, 0⟩
  senderSeal := Context.seal
  receiverOpen := Context.open
  cborEncode list := emit (.ofList (list.map term))
  cborDecode packet := Ideal.items (term packet) >>= emitAll
  coseSeal payload aad signer key domain coin :=
    let aad : Term Name := .ofList (aad.map term)
    emit (.envelope key aad domain (.cons (.atom coin) (.signed signer (.ofList (payload.map term)) aad domain)))
  coseRecipient packet := Ideal.crypto.coseRecipient (term packet)
  coseDecrypt packet aad key domain := Ideal.decrypt (aad.map term) key domain (term packet) >>= emit
  cosePeek sign1 := Ideal.peek (term sign1) >>= emitAll
  coseVerify sign1 aad identity domain := Ideal.verify (aad.map term) identity domain (term sign1) >>= emitAll
  coseOpen packet aad key identity domain :=
    Ideal.decrypt (aad.map term) key domain (term packet) >>= Ideal.verify (aad.map term) identity domain >>= emitAll
  peekHardware cwt := decide (term cwt = .bytes [1])
  peekEmulator cwt := decide (term cwt = .bytes [2])

theorem newSender_ok {key seed : Name} {info : List UInt8} {sender : Context} {encap : List UInt8}
    (h : crypto.newSender key info seed = .ok (sender, encap)) : sender = ⟨key, encap, info, 0⟩ ∧
      term encap = .encap key seed := by
  change (emit (.encap key seed)).map _ = _ at h
  rcases hemit : emit (.encap key seed) with err | bytes
  · rw [hemit] at h
    cases h
  · rw [hemit] at h
    obtain ⟨rfl, rfl⟩ := Prod.mk.inj (Except.ok.inj h)
    exact ⟨rfl, emit_ok hemit⟩

theorem bind_ok {α β : Type} {first : Except String α} {rest : α → Except String β} {result : β}
    (h : (first >>= rest) = .ok result) : ∃ value, first = .ok value ∧ rest value = .ok result := by
  cases first with
  | error err => cases h
  | ok value => exact ⟨value, rfl, h⟩

def contexts : Contexts crypto where
  sendChannel context := (context.key, context.encap, context.info)
  sendSeq := Context.seq
  recvChannel context := (context.key, context.encap, context.info)
  recvSeq := Context.seq
  newSender_spec := by
    intro key info seed sender encap h
    obtain ⟨rfl, _⟩ := newSender_ok h
    exact ⟨rfl, rfl⟩
  newReceiver_spec := by
    intro key encap info receiver h
    obtain rfl := Except.ok.inj h
    exact ⟨rfl, rfl⟩
  senderSeal_spec := by
    intro sender payload packet sender' h
    obtain ⟨_, rfl⟩ := Context.seal_ok h
    exact ⟨rfl, rfl⟩
  receiverOpen_spec := by
    intro receiver packet payload receiver' h
    obtain ⟨_, rfl⟩ := Context.open_ok h
    exact ⟨rfl, rfl⟩

/-- What is seen of the term of some bytes. -/
def seen (bytes : List UInt8) : Term Name := Ideal.seen (term bytes)

theorem seen_list (items : List (List UInt8)) : Ideal.seen (.ofList (items.map term)) = .ofList (items.map seen) := by
  rw [Ideal.seen_ofList, List.map_map]
  rfl

theorem seen_signed {bytes : List UInt8} {signer : Name} {payload aad : List (List UInt8)} {domain : List UInt8}
    (h : term bytes = .signed signer (.ofList (payload.map term)) (.ofList (aad.map term)) domain) :
    seen bytes = .signed signer (.ofList (payload.map seen)) (.ofList (aad.map seen)) domain := by
  rw [seen, h, Ideal.seen, seen_list, seen_list]

theorem seen_envelope {bytes : List UInt8} {key coin : Name} {aad : List (List UInt8)} {domain : List UInt8}
    {sign1 : Term Name} (h : term bytes = .envelope key (.ofList (aad.map term)) domain (.cons (.atom coin) sign1)) :
    seen bytes = .envelope key (.ofList (aad.map seen)) domain (Ideal.seen sign1) := by
  rw [seen, h, Ideal.seen_envelope, ← Ideal.seen_ofList, seen_list]

theorem seen_sealed {bytes : List UInt8} {key coin signer : Name} {payload aad : List (List UInt8)} {domain : List UInt8}
    (h : term bytes = .envelope key (.ofList (aad.map term)) domain
      (.cons (.atom coin) (.signed signer (.ofList (payload.map term)) (.ofList (aad.map term)) domain))) :
    seen bytes = .envelope key (.ofList (aad.map seen)) domain
      (.signed signer (.ofList (payload.map seen)) (.ofList (aad.map seen)) domain) := by
  rw [seen_envelope h, Ideal.seen, seen_list, seen_list]

/-- Bytes read as what is seen of their term. -/
def reading : Reading contexts where
  term := seen
  seed := id
  signKey := id
  verifyKey := id
  secretKey := id
  publicKey := id
  term_inj hbare h := term_inj (Ideal.seen_inj hbare h)
  verifyKey_inj h := h
  publicKey_inj h := h
  signKey_generate _ := rfl
  secretKey_generate _ := rfl
  verifyKey_public _ := rfl
  publicKey_public _ := rfl
  term_empty := congrArg Ideal.seen term_blob_empty
  term_xdsaItem key := congrArg Ideal.seen (term_verifyKey key)
  term_xhpkeItem key := congrArg Ideal.seen (term_publicKey key)
  xhpkeOfItem_spec := Ideal.reading.xhpkeOfItem_spec
  attestation_spec := by
    rintro cwt (hshape | hshape)
    · exact ⟨[1], congrArg Ideal.seen (of_decide_eq_true hshape)⟩
    · exact ⟨[2], congrArg Ideal.seen (of_decide_eq_true hshape)⟩
  cborEncode_spec := by
    intro items packet h
    exact (congrArg Ideal.seen (emit_ok h)).trans (seen_list items)
  newSender_spec h := congrArg Ideal.seen (newSender_ok h).2
  senderSeal_spec := by
    intro sender payload packet sender' key encap info hchannel h
    obtain ⟨hterm, _⟩ := Context.seal_ok h
    obtain ⟨rfl, hrest⟩ := Prod.mk.inj hchannel
    obtain ⟨rfl, rfl⟩ := Prod.mk.inj hrest
    exact congrArg Ideal.seen hterm
  coseSeal_spec := by
    intro payload aad signer key domain coin packet h
    exact seen_sealed (emit_ok h)
  coseDecrypt_spec := by
    intro packet aad key domain sign1 h
    obtain ⟨body, hbody, hemit⟩ := bind_ok h
    obtain ⟨coin, hpacket⟩ := Ideal.decrypt_ok hbody
    rw [← emit_ok hemit] at hpacket
    exact seen_envelope hpacket
  cosePeek_spec := by
    intro sign1 aad identity domain shown payload hpeek hverify
    obtain ⟨list, hlist, hshown⟩ := bind_ok hpeek
    obtain ⟨list', hlist', hpayload⟩ := bind_ok hverify
    have hsigned := Ideal.verify_ok hlist'
    rw [hsigned] at hlist
    obtain rfl := Term.ofList_inj (Ideal.items_ok hlist)
    exact Except.ok.inj (hshown.symm.trans hpayload)
  coseVerify_spec := by
    intro sign1 aad identity domain payload h
    obtain ⟨list, hlist, hpayload⟩ := bind_ok h
    have hsigned := Ideal.verify_ok hlist
    rw [← emitAll_ok hpayload] at hsigned
    exact seen_signed hsigned
  coseOpen_spec := by
    intro packet aad key identity domain payload h
    obtain ⟨list, hopened, hpayload⟩ := bind_ok h
    obtain ⟨sign1, hdecrypt, hverify⟩ := bind_ok hopened
    obtain ⟨coin, hpacket⟩ := Ideal.decrypt_ok hdecrypt
    rw [Ideal.verify_ok hverify, ← emitAll_ok hpayload] at hpacket
    exact seen_sealed hpacket

/-! ### Parties -/

def coinsOf (owner : Nat → Use → Name) (n : Nat) : Coins crypto := ⟨owner n .first, owner n .second, owner n .third⟩

/-- The `n`-th Ark holds the `n`-th identity key. -/
def parties : Parties crypto where
  signers := .signer
  identity := id
  leaked := ∅
  arkCoins a := coinsOf (.ark a)
  hostCoins h := coinsOf (.host h)

theorem parties_named {A Info : Type} {limit : Nat} (w : World crypto A Info limit) : parties.Named reading w :=
  ⟨fun _ _ => rfl, fun _ _ => rfl, fun _ _ _ => rfl, fun _ _ _ => rfl, fun _ _ _ => rfl, fun _ _ _ => rfl⟩

/-- Numbers as messages, each a secret. -/
def codec : Codec (List UInt8) Nat where
  encodedLen d := (blob (.atom (.message d))).length
  encode d := emit (.atom (.message d))
  decode payload := Ideal.codec.decode (term payload)

def protocol : Protocol (List UInt8) where
  HostToArk := Nat
  ArkToHost := Nat
  hostToArk := codec
  arkToHost := codec

theorem codec_plain : reading.Plain codec := by
  intro d payload h
  exact Or.inr ⟨d, congrArg Ideal.seen (emit_ok h)⟩

def attestation : Attestation crypto := ⟨blob (.bytes [1]), Or.inl (by decide)⟩

end DarkbioWire.Coded
