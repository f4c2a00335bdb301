import Mathlib.Data.Set.Basic
import Mathlib.Tactic.Common

/-!
# Symbolic messages

The algebra of messages of a symbolic model of cryptography: key pairs of names for signing and for encryption, signatures
and envelopes that bind authenticated data and a domain, encapsulated keys and messages sealed under them in sequence.
`Derives` is everything an attacker can build from what it knows. `Public` is a bound on it, computed from which names are
compromised and which signatures others made, and `Derives.public` says that the attacker never leaves it.
-/

namespace Symbolic

variable {N : Type}

/-- A message over names, from which keys, seeds and atoms are made. -/
inductive Term (N : Type)
  | bytes (data : List UInt8)
  | atom (n : N)
  | verifyKey (n : N)
  | signKey (n : N)
  | publicKey (n : N)
  | secretKey (n : N)
  | nil
  | cons (head tail : Term N)
  /-- A payload with a signature over it, the authenticated data and the domain. -/
  | signed (n : N) (payload aad : Term N) (domain : List UInt8)
  /-- A body encrypted to a key, under authenticated data in a domain. -/
  | envelope (n : N) (aad : Term N) (domain : List UInt8) (body : Term N)
  /-- A key encapsulated to a key, with the randomness of a seed. -/
  | encap (n seed : N)
  /-- A payload sealed in the context of an encapsulated key, under a sequence number. -/
  | sealed (n : N) (encap : Term N) (info : List UInt8) (seq : Nat) (payload : Term N)
  deriving DecidableEq

namespace Term

/-- A list of messages as a message. -/
def ofList : List (Term N) → Term N
  | [] => nil
  | item :: items => cons item (ofList items)

/-- The list a message is. -/
def toList? : Term N → Option (List (Term N))
  | nil => some []
  | cons item items => items.toList?.map (item :: ·)
  | _ => none

@[simp] theorem toList?_ofList (items : List (Term N)) : (ofList items).toList? = some items := by
  induction items with
  | nil => rfl
  | cons item items ih => rw [ofList, toList?, ih, Option.map_some]

theorem ofList_of_toList? {t : Term N} {items : List (Term N)} (h : t.toList? = some items) : t = ofList items := by
  induction t generalizing items with
  | nil =>
      obtain rfl := Option.some.inj h
      rfl
  | cons head tail _ ih =>
      obtain ⟨rest, hrest, rfl⟩ := Option.map_eq_some_iff.mp h
      rw [ofList, ← ih hrest]
  | _ => cases h

theorem ofList_inj {items items' : List (Term N)} (h : ofList items = ofList items') : items = items' := by
  have hlist := congrArg toList? h
  rw [toList?_ofList, toList?_ofList] at hlist
  exact Option.some.inj hlist

/-- A message that a packet spells out: data, an atom, a public key or an encapsulated key. -/
def Bare : Term N → Prop
  | bytes _ | atom _ | verifyKey _ | publicKey _ | encap _ _ => True
  | _ => False

end Term

open Term

/-- What an attacker can build that knows these messages and the secrets of these names. -/
inductive Derives (known : Set (Term N)) (own : Set N) : Term N → Prop
  | known {t} : t ∈ known → Derives known own t
  | bytes (data) : Derives known own (bytes data)
  | atom {n} : n ∈ own → Derives known own (atom n)
  | signKey {n} : n ∈ own → Derives known own (signKey n)
  | secretKey {n} : n ∈ own → Derives known own (secretKey n)
  | verifyKey {n} : Derives known own (signKey n) → Derives known own (verifyKey n)
  | publicKey {n} : Derives known own (secretKey n) → Derives known own (publicKey n)
  | nil : Derives known own nil
  | cons {head tail} : Derives known own head → Derives known own tail → Derives known own (cons head tail)
  | head {head tail} : Derives known own (Term.cons head tail) → Derives known own head
  | tail {head tail} : Derives known own (Term.cons head tail) → Derives known own tail
  | sign {n payload aad} (domain) : Derives known own (Term.signKey n) → Derives known own payload → Derives known own aad →
      Derives known own (signed n payload aad domain)
  | peek {n payload aad domain} : Derives known own (signed n payload aad domain) → Derives known own payload
  | encrypt {n aad body} (domain) : Derives known own (Term.publicKey n) → Derives known own aad → Derives known own body →
      Derives known own (envelope n aad domain body)
  | decrypt {n aad domain body} : Derives known own (envelope n aad domain body) → Derives known own (Term.secretKey n) →
      Derives known own body
  | encapsulate {n seed} : seed ∈ own → Derives known own (Term.publicKey n) → Derives known own (encap n seed)
  | sealWithKey {n key payload} (info seq) : Derives known own (Term.secretKey n) → Derives known own key →
      Derives known own payload → Derives known own (sealed n key info seq payload)
  | sealWithSeed {n seed payload} (info seq) : seed ∈ own → Derives known own (Term.publicKey n) →
      Derives known own payload → Derives known own (sealed n (encap n seed) info seq payload)
  | openWithKey {n key info seq payload} : Derives known own (sealed n key info seq payload) →
      Derives known own (Term.secretKey n) → Derives known own payload
  | openWithSeed {n seed info seq payload} : Derives known own (sealed n (encap n seed) info seq payload) → seed ∈ own →
      Derives known own payload

theorem Derives.mono {known known' : Set (Term N)} (hsub : known ⊆ known') {own : Set N} {t : Term N}
    (h : Derives known own t) : Derives known' own t := by
  induction h with
  | known hmem => exact .known (hsub hmem)
  | bytes data => exact .bytes data
  | atom hown => exact .atom hown
  | signKey hown => exact .signKey hown
  | secretKey hown => exact .secretKey hown
  | verifyKey _ ih => exact .verifyKey ih
  | publicKey _ ih => exact .publicKey ih
  | nil => exact .nil
  | cons _ _ ih ih' => exact .cons ih ih'
  | head _ ih => exact .head ih
  | tail _ ih => exact .tail ih
  | sign domain _ _ _ ih ih' ih'' => exact .sign domain ih ih' ih''
  | peek _ ih => exact .peek ih
  | encrypt domain _ _ _ ih ih' ih'' => exact .encrypt domain ih ih' ih''
  | decrypt _ _ ih ih' => exact .decrypt ih ih'
  | encapsulate hown _ ih => exact .encapsulate hown ih
  | sealWithKey info seq _ _ _ ih ih' ih'' => exact .sealWithKey info seq ih ih' ih''
  | sealWithSeed info seq hown _ _ ih ih' => exact .sealWithSeed info seq hown ih ih'
  | openWithKey _ _ ih ih' => exact .openWithKey ih ih'
  | openWithSeed _ hown ih => exact .openWithSeed ih hown

/-! ### A bound on the attacker -/

/-- What an attacker may know: the names whose secrets are its own, more signing keys and atoms, and the signatures that
others made. -/
structure Leaks (N : Type) where
  own : Set N
  signers : Set N
  atoms : Set N
  made : N → Term N → Term N → List UInt8 → Prop

namespace Leaks

/-- An attacker may know this message. What is in an envelope counts as known, what is sealed under a key that neither end
of which is the attacker's does not. -/
def Public (leaks : Leaks N) : Term N → Prop
  | bytes _ | verifyKey _ | publicKey _ | nil | encap _ _ => True
  | atom n => n ∈ leaks.own ∨ n ∈ leaks.atoms
  | signKey n => n ∈ leaks.own ∨ n ∈ leaks.signers
  | secretKey n => n ∈ leaks.own
  | cons head tail => leaks.Public head ∧ leaks.Public tail
  | signed n payload aad domain =>
    leaks.Public payload ∧ ((n ∈ leaks.own ∨ n ∈ leaks.signers) ∨ leaks.made n payload aad domain)
  | envelope _ _ _ body => leaks.Public body
  | sealed n key _ _ payload => leaks.Public payload ∨ n ∉ leaks.own ∧ ∀ seed, key = encap n seed → seed ∉ leaks.own

/-- There is more to know. -/
structure Le (leaks leaks' : Leaks N) : Prop where
  own : leaks.own = leaks'.own
  signers : leaks.signers ⊆ leaks'.signers
  atoms : leaks.atoms ⊆ leaks'.atoms
  made : ∀ {n payload aad domain}, leaks.made n payload aad domain → leaks'.made n payload aad domain

theorem Public.mono {leaks leaks' : Leaks N} (hle : leaks.Le leaks') {t : Term N} (h : leaks.Public t) :
    leaks'.Public t := by
  obtain ⟨own, signers, atoms, made⟩ := leaks
  obtain ⟨rfl, hsigners, hatoms, hmade⟩ := hle
  induction t with
  | bytes _ | verifyKey _ | publicKey _ | nil | encap _ _ => exact trivial
  | atom n => exact h.imp_right fun hatom => hatoms hatom
  | signKey n => exact h.imp_right fun hsigner => hsigners hsigner
  | secretKey n => exact h
  | cons head tail ih ih' => exact ⟨ih h.1, ih' h.2⟩
  | signed n payload aad domain ih _ =>
      exact ⟨ih h.1, h.2.imp (fun hkey => hkey.imp_right fun hsigner => hsigners hsigner) hmade⟩
  | envelope n aad domain body _ ih => exact ih h
  | «sealed» n key info seq payload _ ih => exact h.imp_left ih

theorem Public.ofList {leaks : Leaks N} {items : List (Term N)} (h : ∀ item ∈ items, leaks.Public item) :
    leaks.Public (ofList items) := by
  induction items with
  | nil => exact trivial
  | cons item items ih =>
      exact ⟨h item List.mem_cons_self, ih fun other hmem => h other (List.mem_cons_of_mem _ hmem)⟩

end Leaks

/-- An attacker derives nothing but what it may know. -/
theorem Derives.public {leaks : Leaks N} {known : Set (Term N)} (hknown : ∀ t ∈ known, leaks.Public t) {t : Term N}
    (h : Derives known leaks.own t) : leaks.Public t := by
  induction h with
  | known hmem => exact hknown _ hmem
  | bytes _ | verifyKey _ _ | publicKey _ _ | nil | encapsulate _ _ _ => exact trivial
  | atom hown => exact Or.inl hown
  | signKey hown => exact Or.inl hown
  | secretKey hown => exact hown
  | cons _ _ ih ih' => exact ⟨ih, ih'⟩
  | head _ ih => exact ih.1
  | tail _ ih => exact ih.2
  | sign _ _ _ _ hkey hpayload _ => exact ⟨hpayload, Or.inl hkey⟩
  | peek _ ih => exact ih.1
  | encrypt _ _ _ _ _ _ hbody => exact hbody
  | decrypt _ _ ih _ => exact ih
  | sealWithKey _ _ _ _ _ _ _ hpayload => exact Or.inl hpayload
  | sealWithSeed _ _ _ _ _ _ hpayload => exact Or.inl hpayload
  | openWithKey _ _ ih hkey =>
      rcases ih with hpayload | ⟨hsafe, _⟩
      · exact hpayload
      · exact absurd hkey hsafe
  | openWithSeed _ hown ih =>
      rcases ih with hpayload | ⟨_, hsafe⟩
      · exact hpayload
      · exact absurd hown (hsafe _ rfl)

/-! ### Who sealed what -/

/-- The names whose secrets are the attacker's own, and what others sealed: under which key, in the context of which
encapsulated key, with which number. -/
structure Seals (N : Type) where
  own : Set N
  made : N → Term N → List UInt8 → Nat → Term N → Prop

namespace Seals

/-- All that is sealed in this message others sealed, or one end of its context is the attacker's. What is in an envelope
counts too, and there is no secret key but the attacker's. -/
def Genuine (seals : Seals N) : Term N → Prop
  | bytes _ | atom _ | verifyKey _ | signKey _ | publicKey _ | nil | encap _ _ => True
  | secretKey n => n ∈ seals.own
  | cons head tail => seals.Genuine head ∧ seals.Genuine tail
  | signed _ payload _ _ => seals.Genuine payload
  | envelope _ _ _ body => seals.Genuine body
  | sealed n key info seq payload => seals.Genuine payload ∧
    ((n ∈ seals.own ∨ ∃ seed ∈ seals.own, key = encap n seed) ∨ seals.made n key info seq payload)

theorem Genuine.of_bare {seals : Seals N} {t : Term N} (h : t.Bare) : seals.Genuine t := by
  cases t with
  | bytes _ | atom _ | verifyKey _ | publicKey _ | encap _ _ => exact trivial
  | _ => exact h.elim

end Seals

/-- An attacker forges nothing that is sealed: what it derives from genuine messages is genuine. -/
theorem Derives.genuine {seals : Seals N} {known : Set (Term N)} (hknown : ∀ t ∈ known, seals.Genuine t) {t : Term N}
    (h : Derives known seals.own t) : seals.Genuine t := by
  induction h with
  | known hmem => exact hknown _ hmem
  | bytes _ | atom _ | signKey _ | verifyKey _ _ | publicKey _ _ | nil | encapsulate _ _ _ => exact trivial
  | secretKey hown => exact hown
  | cons _ _ ih ih' => exact ⟨ih, ih'⟩
  | head _ ih => exact ih.1
  | tail _ ih => exact ih.2
  | sign _ _ _ _ _ hpayload _ => exact hpayload
  | peek _ ih => exact ih
  | encrypt _ _ _ _ _ _ hbody => exact hbody
  | decrypt _ _ ih _ => exact ih
  | sealWithKey _ _ _ _ _ hkey _ hpayload => exact ⟨hpayload, Or.inl (Or.inl hkey)⟩
  | sealWithSeed _ _ hown _ _ _ hpayload => exact ⟨hpayload, Or.inl (Or.inr ⟨_, hown, rfl⟩)⟩
  | openWithKey _ _ ih _ => exact ih.1
  | openWithSeed _ _ ih => exact ih.1

end Symbolic
