import DarkbioWire.Integrity

/-!
# Which Arks a host trusts

`Roots` of `src/side_host.rs`, the verifier that accepts the Arks attested under its roots at the current time, and what a host
gains by it. It is handed the attestation before any signature was checked, and what it returns is the key the ArkHello has to
be signed with; so where the roots attest only keys of honest Arks, all that a host opens comes from an Ark that presented an
attestation the roots stand for (`roots_hear_attested`).
-/

namespace DarkbioWire

open Symbolic Era

/-- What the wire uses of `darkbio_trust::device`: the check of an attestation against the roots for hardware and for emulators,
and the identity key of the device it is for. -/
structure Trust {Blob : Type} (c : Crypto Blob) where
  Device : Type
  signer : Device → c.XdsaPublicKey
  verify : Blob → List c.XdsaPublicKey → List c.XdsaPublicKey → Option Nat → Except String Device

/-- Roots of trust, accepting the Arks attested under them: hardware Arks by the hardware roots and emulated Arks by the
emulator roots. -/
structure Roots {Blob : Type} (c : Crypto Blob) where
  hardware : List c.XdsaPublicKey
  emulator : List c.XdsaPublicKey

/-- The clock in whole seconds since the epoch, of what it reads in nanoseconds. It fails on a time before the epoch. -/
def secondsSinceEpoch (now : Int) : Except String Nat :=
  if 0 ≤ now then .ok (now.toNat / 1000000000) else .error "second time provided was later than self"

/-- The verifier of these roots, when the clock reads this as it checks the attestation. -/
def Roots.verify {Blob : Type} {c : Crypto Blob} (trust : Trust c) (roots : Roots c) (now : Int) : Verifier c trust.Device :=
  fun attestation =>
    match secondsSinceEpoch now with
    | .error err => .error err
    | .ok now =>
      match trust.verify attestation.cwt roots.hardware roots.emulator (some now) with
      | .error err => .error err
      | .ok device => .ok (trust.signer device, device)

variable {Blob : Type} {c : Crypto Blob} {trust : Trust c} {roots : Roots c}

/-- The device is attested under the roots at this time, by this CWT. -/
def Roots.Attests (trust : Trust c) (roots : Roots c) (cwt : Blob) (now : Nat) (device : trust.Device) : Prop :=
  trust.verify cwt roots.hardware roots.emulator (some now) = .ok device

theorem Roots.verify_ok_iff {now : Int} {attestation : Attestation c} {identity : c.XdsaPublicKey} {device : trust.Device} :
    Roots.verify trust roots now attestation = .ok (identity, device) ↔
      0 ≤ now ∧ roots.Attests trust attestation.cwt (now.toNat / 1000000000) device ∧ identity = trust.signer device := by
  rw [Roots.verify, secondsSinceEpoch, Roots.Attests]
  by_cases hepoch : 0 ≤ now
  · rw [if_pos hepoch]
    dsimp only
    rcases trust.verify attestation.cwt roots.hardware roots.emulator (some (now.toNat / 1000000000)) with err | found
    · constructor
      · intro herr
        cases herr
      · rintro ⟨_, herr, _⟩
        cases herr
    · constructor
      · intro hok
        obtain ⟨rfl, rfl⟩ := Prod.mk.inj (Except.ok.inj hok)
        exact ⟨hepoch, rfl, rfl⟩
      · rintro ⟨_, hok, rfl⟩
        rw [Except.ok.inj hok]
  · rw [if_neg hepoch]
    constructor
    · intro herr
      cases herr
    · exact fun hok => absurd hok.1 hepoch

section Network

variable {hpke : Contexts c} {proto : Protocol Blob} {A Info : Type} [Attester c A] {limit : Nat} {reading : Reading hpke}
  {parties : Parties c} {h : Nat}

theorem HostNode.step_verifier {coins : Nat → Coins c} {node : HostNode c Info limit} {input : HostInput c proto Info}
    {wait : HelloWait c Info} (hcall : (node.step coins input).call = some wait) :
    (∃ before, node.call = some before ∧ before.verifier = wait.verifier) ∨ input = .handshake wait.verifier := by
  have hkept : node.call = some wait → ∃ before, node.call = some before ∧ before.verifier = wait.verifier :=
    fun hsame => ⟨wait, hsame, rfl⟩
  cases input with
  | handshake verifier =>
      rw [step] at hcall
      split at hcall
      · have hstep := HostSide.handshakeStart_step (coins node.side.draws) node.side verifier
        generalize node.side.handshakeStart (coins node.side.draws) verifier = started at hstep hcall
        obtain ⟨result, side⟩ := started
        cases hstep with
        | started hwait =>
            obtain rfl := Option.some.inj hcall
            rw [hwait]
            exact Or.inr rfl
        | _ => cases hcall
      · exact Or.inl (hkept hcall)
  | deliver packet =>
      rw [step] at hcall
      split at hcall
      · exact Or.inl (hkept hcall)
      · rename_i before hbefore
        have hstep := HostSide.handshakeStep_step (coins node.side.draws) node.side before packet
        generalize node.side.handshakeStep (coins node.side.draws) before packet = went at hstep hcall
        obtain ⟨flow, side⟩ := went
        cases hstep with
        | skipped =>
            obtain rfl := Option.some.inj hcall
            exact Or.inl ⟨before, hbefore, rfl⟩
        | _ => cases hcall
  | nextMessage packet =>
      rw [step] at hcall
      split at hcall <;> exact Or.inl (hkept hcall)
  | sendMessage req =>
      rw [step] at hcall
      split at hcall <;> exact Or.inl (hkept hcall)
  | answers answers => exact Or.inl (hkept hcall)

theorem Run.called {trace : Trace c proto A Info limit} {w : World c A Info limit} (hrun : Run reading parties trace w)
    {wait : HelloWait c Info} (hcall : (w.host h).call = some wait) :
    ∃ past ∈ trace, past.2 = .host h (.handshake wait.verifier) := by
  induction hrun generalizing wait with
  | start attesters => cases hcall
  | @step trace w action _ _ ih =>
      by_cases hmine : ∃ input, action = .host h input
      · obtain ⟨input, rfl⟩ := hmine
        rw [World.step_host_self] at hcall
        rcases HostNode.step_verifier hcall with ⟨before, hbefore, hsame⟩ | rfl
        · obtain ⟨past, hmem, haction⟩ := ih hbefore
          exact ⟨past, List.mem_cons_of_mem _ hmem, hsame ▸ haction⟩
        · exact ⟨_, List.mem_cons_self, rfl⟩
      · rw [World.step_host_other parties w fun input hinput => hmine ⟨input, hinput⟩] at hcall
        obtain ⟨past, hmem, haction⟩ := ih hcall
        exact ⟨past, List.mem_cons_of_mem _ hmem, haction⟩

/-- A host that calls `handshake` with these roots only, where they attest only keys that honest Arks alone hold, has all that
it opens in a session from one Ark, which sealed it in this order, from the first payload on, in the session paired with it.
This Ark presented an attestation that the roots stood for at the time of the host's clock. -/
theorem roots_hear_attested (trust : Trust c) (roots : Roots c) {trace : Trace c proto A trust.Device limit}
    {w : World c A trust.Device limit} (hnamed : parties.Named reading w) (hplain : PlainMessages reading proto)
    (hopens : reading.Opens) (hrun : Run reading parties trace w)
    (hroots : ∀ past ∈ trace, ∀ verifier, past.2 = .host h (.handshake verifier) → ∃ now, verifier = Roots.verify trust roots now)
    (hissued : ∀ cwt now device, roots.Attests trust cwt now device →
      ∃ s ∉ parties.leaked, trust.signer device = c.xdsaPublicKey (parties.signers s))
    {era : Era c} (hera : era ∈ hostEras parties h trace) (hopened : era.opened ≠ []) :
    ∃ now, (∃ called ∈ trace, called.2 = .host h (.handshake (Roots.verify trust roots now))) ∧ 0 ≤ now ∧
      ∃ cwt device a, roots.Attests trust cwt (now.toNat / 1000000000) device ∧ era.peer = some (trust.signer device) ∧
        parties.identity a ∉ parties.leaked ∧ trust.signer device = c.xdsaPublicKey (parties.signers (parties.identity a)) ∧
        (∃ answered ∈ trace, ∃ taken wait arkHello answer, AnswersAt parties a answered taken wait arkHello answer ∧
          arkHello.arkAttest = cwt) ∧
        ∃ sender ∈ arkEras a trace, Joined hpke era.session sender.session ∧ era.opened <+: sender.sealed := by
  obtain ⟨past, hmem, reply, hostWait, verified, ack, hacks, hpeer⟩ := hrun.hostOrigins h _ (mem_origins hera)
  obtain ⟨earlier, hearlier, hsub, _⟩ := hrun.before hmem
  -- the verifier that looked at the ArkHello is that of the call, which is one of these roots
  obtain ⟨called, hcalled, haction⟩ := hearlier.called hacks.acks.call
  obtain ⟨now, hverifier⟩ := hroots called (hsub hcalled) _ haction
  obtain ⟨_, hopen, _, _⟩ := HelloWait.answer_ok hacks.acks.answer
  obtain ⟨_, attestation, _, hattest, haccepts, _⟩ := opened_signed reading hopen
  rw [hverifier] at haccepts
  obtain ⟨hepoch, hattested, hidentity⟩ := Roots.verify_ok_iff.mp haccepts
  obtain ⟨s, hunleaked, hsigner⟩ := hissued _ _ _ hattested
  obtain ⟨a, rfl, ⟨answered, hanswered, taken, wait, answer, hanswers, _⟩, sender, hsender, hjoined, _, hprefix⟩ :=
    hrun.host_hears hnamed hplain hopens hunleaked hera hmem hacks (hidentity.trans hsigner) hopened
  exact ⟨now, ⟨called, hsub hcalled, by rw [haction, hverifier]⟩, hepoch, attestation.cwt, verified.info, a, hattested,
    hpeer.trans (congrArg some hidentity), hunleaked, hsigner,
    ⟨answered, hanswered, taken, wait, _, answer, hanswers, hattest.symm⟩, sender, hsender, hjoined, hprefix⟩

end Network

/-! ### An Ark under a root -/

namespace Ideal

def listed (keys : List Name) (root : Nat) : Bool := keys.contains (.signer root)

/-- The attestations of the first Ark, as a hardware Ark and as an emulated one, each under a root of its own. -/
def authority : Trust crypto where
  Device := Attestation crypto
  signer _ := Name.signer 0
  verify cwt hardware emulator _ :=
    if hattested : crypto.peekHardware cwt = true ∧ listed hardware 1 = true ∨
        crypto.peekEmulator cwt = true ∧ listed emulator 2 = true then
      .ok ⟨cwt, hattested.imp And.left And.left⟩
    else .error "no root attests this device"

def anchors : Roots crypto := ⟨[Name.signer 1], [Name.signer 2]⟩

/-- As the roots attest no other Ark, they agree with its key pinned. -/
theorem anchors_pin : Verifier.pinned (Name.signer 0) = Roots.verify authority anchors 0 := by
  funext attestation
  have hattests : anchors.Attests authority attestation.cwt ((0 : Int).toNat / 1000000000) attestation :=
    dif_pos (attestation.shape.imp (fun hshape => ⟨hshape, rfl⟩) fun hshape => ⟨hshape, rfl⟩)
  exact (Roots.verify_ok_iff.mpr ⟨Int.le_refl 0, hattests, rfl⟩).symm

theorem traced_actions (leaked : Set Nat) (steps : List Step) : (traced leaked steps).map Prod.snd = steps := by
  induction steps with
  | nil => rfl
  | cons step steps ih => rw [traced, List.map_cons, ih]

/-- The verifier a host greets with. -/
def greetsWith : Step → Option (Verifier crypto (Attestation crypto))
  | .host _ (.handshake verifier) => some verifier
  | _ => none

theorem heard_greets : ∀ past ∈ traced ∅ heard.reverse, ∀ verifier, past.2 = .host 0 (.handshake verifier) →
    ∃ now, verifier = Roots.verify authority anchors now := by
  intro past hmem verifier haction
  have hstep : past.2 ∈ heard := by
    rw [← List.mem_reverse, ← traced_actions ∅ heard.reverse]
    exact List.mem_map_of_mem hmem
  have hverifier : verifier ∈ heard.filterMap greetsWith :=
    List.mem_filterMap.mpr ⟨_, hstep, by rw [haction]; rfl⟩
  have hone : heard.filterMap greetsWith = [Verifier.pinned (Name.signer 0)] := rfl
  rw [hone] at hverifier
  exact ⟨0, (List.mem_singleton.mp hverifier).trans anchors_pin⟩

end Ideal

open DarkbioWire.Ideal in
/-- The host that hears the echo greeted with these roots. -/
theorem roots_hear_attested_reference : ∃ era ∈ hostEras (numbered ∅) 0 (traced ∅ heard.reverse),
    era.opened = [.atom (.message 5)] ∧ ∃ now, (∃ called ∈ traced ∅ heard.reverse,
        called.2 = .host 0 (.handshake (Roots.verify authority anchors now))) ∧ 0 ≤ now ∧
      ∃ cwt device a, anchors.Attests authority cwt (now.toNat / 1000000000) device ∧
        era.peer = some (authority.signer device) ∧ a ∉ (∅ : Set Nat) ∧ authority.signer device = Name.signer a ∧
        (∃ answered ∈ traced ∅ heard.reverse, ∃ taken wait arkHello answer,
          AnswersAt (numbered ∅) a answered taken wait arkHello answer ∧ arkHello.arkAttest = cwt) ∧
        ∃ sender ∈ arkEras a (traced ∅ heard.reverse), Joined contexts era.session sender.session ∧
          era.opened <+: sender.sealed :=
  ⟨_, List.mem_cons_self, rfl, roots_hear_attested authority anchors (numbered_named ∅ _) ⟨codec_plain, codec_plain⟩ opens
    heard_run heard_greets (fun _ _ _ _ => ⟨0, Set.notMem_empty 0, rfl⟩) List.mem_cons_self nofun⟩

end DarkbioWire
