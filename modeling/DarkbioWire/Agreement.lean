import DarkbioWire.Reference.Ideal
import DarkbioWire.Rounds

/-!
# Agreement

What a side may conclude from a handshake that succeeded, against the attacker of the network. All that the attacker can
build is bounded by what the parties signed and sealed so far, so a signature that verifies with a key the attacker does
not hold is an answer or an ack of the run. A host finds behind the ArkHello it accepted the iteration that answered its
HostHello; an Ark finds behind the HostAck it accepted the host that answered it, and this is the only session that
HostAck ever makes.
-/

namespace DarkbioWire

open Symbolic

section Agreement

variable {Blob : Type} {c : Crypto Blob} {hpke : Contexts c} {proto : Protocol Blob} {A Info : Type} [Attester c A]
  {limit : Nat} {reading : Reading hpke} {parties : Parties c} {atoms : Set Name}
  {trace trace' : Trace c proto A Info limit} {w : World c A Info limit} {a h : Nat}

/-! ### What the parties sign and seal -/

/-- What the parties signed in a run: the Arks their answers, the hosts their acks. -/
inductive Made (reading : Reading hpke) (parties : Parties c) (trace : Trace c proto A Info limit) :
    Name → Term Name → Term Name → Prop
  | answer {past a packet wait arkHello answer} : past ∈ trace →
      AnswersAt parties a past packet wait arkHello answer →
      Made reading parties trace (reading.signKey (parties.signers (parties.identity a)))
        (.ofList (arkHello.toCbor.map reading.term)) (.ofList (wait.hostHello.auth.toCbor.map reading.term))
  | ack {past h packet wait verified session ack encap} {auth : HostAckAuth c} : past ∈ trace →
      AcksAt parties h past packet wait verified session ack →
      wait.contexts (parties.hostCoins h (past.1.host h).side.draws) verified.arkHello = .ok (session, encap) →
      auth = { arkSigner := verified.arkIdentity, arkCrypto := verified.arkHello.arkCrypto } →
      Made reading parties trace (reading.signKey wait.hostXdsaSk) (.ofList [reading.term encap])
        (.ofList (auth.toCbor.map reading.term))

/-- What the attacker may know after a run, when of the messages' secrets it may know these. -/
def leaks (reading : Reading hpke) (parties : Parties c) (trace : Trace c proto A Info limit) (atoms : Set Name) :
    Leaks Name where
  own := Name.own
  signers := {name | ∃ n ∈ parties.leaked, name = .signer n}
  atoms := atoms
  made n payload aad _ := Made reading parties trace n payload aad

theorem Made.mono (hsub : trace ⊆ trace') {n : Name} {payload aad : Term Name}
    (h : Made reading parties trace n payload aad) : Made reading parties trace' n payload aad := by
  cases h with
  | answer hmem hanswers => exact .answer (hsub hmem) hanswers
  | ack hmem hacks hcontexts hauth => exact .ack (hsub hmem) hacks hcontexts hauth

theorem leaks_le (hsub : trace ⊆ trace') :
    (leaks reading parties trace atoms).Le (leaks reading parties trace' atoms) :=
  ⟨rfl, fun _ h => h, fun _ h => h, fun h => h.mono hsub⟩

/-- A payload may be sealed in this context: it may be known, or neither end of the context is the attacker's. -/
def Safe (reading : Reading hpke) (atoms : Set Name) (sender : c.Sender) (payload : Blob) : Prop :=
  ((∃ data, reading.term payload = .bytes data) ∨ ∃ n ∈ atoms, reading.term payload = .atom n) ∨
    reading.publicKey (hpke.sendChannel sender).1 ∉ Name.own ∧
      ∀ seed, reading.term (hpke.sendChannel sender).2.1 = .encap (reading.publicKey (hpke.sendChannel sender).1) seed →
        seed ∉ Name.own

/-- Every payload sealed in this step was safe to seal. -/
structure SealsSafely (reading : Reading hpke) (atoms : Set Name) (past : World c A Info limit × Action c proto Info) :
    Prop where
  ark : ∀ {a input session payload packet}, past.2 = .ark a input →
    (past.1.ark a).Seals input session payload packet → Safe reading atoms session.sender payload
  host : ∀ {h input session payload packet}, past.2 = .host h input →
    (past.1.host h).Seals input session payload packet → Safe reading atoms session.sender payload

theorem Safe.public {sender sender' : c.Sender} {payload packet : Blob} (h : Safe reading atoms sender payload)
    (hseal : c.senderSeal sender payload = (.ok packet, sender')) :
    (leaks reading parties trace atoms).Public (reading.term packet) := by
  rcases hchannel : hpke.sendChannel sender with ⟨key, encap, info⟩
  rw [Safe, hchannel] at h
  rw [reading.senderSeal_spec hchannel hseal]
  rcases h with (⟨data, hterm⟩ | ⟨n, hatom, hterm⟩) | hsafe
  · left
    rw [hterm]
    trivial
  · left
    rw [hterm]
    exact Or.inr hatom
  · exact Or.inr hsafe

theorem ArkSide.Answers.items {coins : Coins c} {T : Type} {side : ArkSide c A T} {packet answer : Blob} {wait : AckWait c}
    {arkHello : ArkHello c} (reading : Reading hpke) (h : ArkSide.Answers coins side packet wait arkHello answer) {item : Blob}
    (hmem : item ∈ arkHello.toCbor) : (∃ data, reading.term item = .bytes data) ∨
      (∃ n, reading.term item = .publicKey n) ∨ ∃ n seed, reading.term item = .encap n seed := by
  have hitem : item = arkHello.arkAttest ∨ item = c.xhpkeItem arkHello.arkCrypto ∨ item = arkHello.a2hEncap := by
    simpa [ArkHello.toCbor] using hmem
  rcases hitem with rfl | rfl | rfl
  · obtain ⟨data, hdata⟩ := reading.attestation_spec (Attester.attest side.attester : Attestation c × A).1.shape
    rw [← h.attest] at hdata
    exact Or.inl ⟨data, hdata⟩
  · exact Or.inr (Or.inl ⟨_, reading.term_xhpkeItem _⟩)
  · exact Or.inr (Or.inr ⟨_, _, reading.newSender_spec h.sender⟩)

theorem ArkSide.Answers.bare {coins : Coins c} {T : Type} {side : ArkSide c A T} {packet answer : Blob} {wait : AckWait c}
    {arkHello : ArkHello c} (reading : Reading hpke) (h : ArkSide.Answers coins side packet wait arkHello answer) :
    ∀ item ∈ arkHello.toCbor, (reading.term item).Bare := by
  intro item hmem
  rcases h.items reading hmem with ⟨_, hterm⟩ | ⟨_, hterm⟩ | ⟨_, _, hterm⟩ <;> rw [hterm] <;> trivial

theorem AnswersAt.public {past : World c A Info limit × Action c proto Info} {packet answer : Blob} {wait : AckWait c}
    {arkHello : ArkHello c} (hmem : past ∈ trace)
    (hsigner : (past.1.ark a).side.signer = parties.signers (parties.identity a))
    (h : AnswersAt parties a past packet wait arkHello answer) :
    (leaks reading parties trace atoms).Public (reading.term answer) := by
  rw [reading.coseSeal_spec h.answers.answers.sealed, hsigner]
  refine ⟨Leaks.Public.ofList fun term hterm => ?_, Or.inr (.answer hmem h)⟩
  obtain ⟨item, hitem, rfl⟩ := List.mem_map.mp hterm
  rcases h.answers.answers.items reading hitem with ⟨_, hterm⟩ | ⟨_, hterm⟩ | ⟨_, _, hterm⟩ <;> rw [hterm] <;> trivial

theorem AcksAt.public {past : World c A Info limit × Action c proto Info} {packet : Option Blob}
    {wait : HelloWait c Info} {verified : Verified c Info} {session : Session c} {ack : Blob} (hmem : past ∈ trace)
    (h : AcksAt parties h past packet wait verified session ack) :
    (leaks reading parties trace atoms).Public (reading.term ack) := by
  obtain ⟨encap, _, hcontexts, hseal⟩ := HelloWait.answer_ok h.acks.answer
  obtain ⟨_, _, hsender⟩ := HelloWait.contexts_ok hcontexts
  rw [reading.coseSeal_spec (HelloWait.sealAck_ok hseal)]
  refine ⟨⟨?_, trivial⟩, Or.inr (.ack hmem h hcontexts rfl)⟩
  change (leaks reading parties trace atoms).Public (reading.term encap)
  rw [reading.newSender_spec hsender]
  trivial

theorem hello_public {hello : HostHello c} {packet : Blob} (hencode : c.cborEncode hello.toCbor = .ok packet) :
    (leaks reading parties trace atoms).Public (reading.term packet) := by
  rw [reading.cborEncode_spec hencode, HostHello.toCbor]
  refine ⟨?_, ?_, trivial⟩
  · rw [reading.term_xdsaItem]
    trivial
  · rw [reading.term_xhpkeItem]
    trivial

/-! ### What the attacker knows -/

/-- As long as payloads are sealed safely, the attacker sees nothing but what it may know. -/
theorem Run.known_public (hrun : Run reading parties trace w)
    (hsafe : ∀ past ∈ trace, SealsSafely reading atoms past) :
    ∀ t ∈ w.known reading parties, (leaks reading parties trace atoms).Public t := by
  induction hrun with
  | start attesters =>
      rintro t (⟨n, rfl⟩ | ⟨n, hleaked, rfl⟩ | ⟨packet, ⟨a, hsent⟩ | ⟨h, hsent⟩, _⟩)
      · trivial
      · exact Or.inr ⟨n, hleaked, rfl⟩
      · cases hsent
      · cases hsent
  | @step trace w action hrun hbuilds ih =>
      have hseals := hsafe _ List.mem_cons_self
      have hle : (leaks reading parties trace atoms).Le (leaks reading parties ((w, action) :: trace) atoms) :=
        leaks_le (List.subset_cons_self _ _)
      have hold : ∀ {packet}, w.Sent packet →
          (leaks reading parties ((w, action) :: trace) atoms).Public (reading.term packet) := fun hsent =>
        (ih (fun past hmem => hsafe past (List.mem_cons_of_mem _ hmem)) _ (Or.inr (Or.inr ⟨_, hsent, rfl⟩))).mono hle
      rintro t (⟨n, rfl⟩ | ⟨n, hleaked, rfl⟩ | ⟨packet, ⟨a, hsent⟩ | ⟨h, hsent⟩, rfl⟩)
      · trivial
      · exact Or.inr ⟨n, hleaked, rfl⟩
      · by_cases hmine : ∃ input, action = .ark a input
        · obtain ⟨input, rfl⟩ := hmine
          rw [World.step_ark_self] at hsent
          rcases (ArkNode.step_step hpke _ _ input).sends hsent with hsent | ⟨taken, wait, arkHello, hanswers⟩ |
            ⟨session, payload, hpayload⟩
          · exact hold (Or.inl ⟨a, hsent⟩)
          · obtain rfl := hanswers.input
            exact AnswersAt.public List.mem_cons_self (hrun.arkInv a).signer ⟨rfl, hanswers⟩
          · obtain ⟨sender, hseal⟩ := hpayload.sealed
            exact (hseals.ark rfl hpayload).public hseal
        · rw [World.step_ark_other parties w fun input h => hmine ⟨input, h⟩] at hsent
          exact hold (Or.inl ⟨a, hsent⟩)
      · by_cases hmine : ∃ input, action = .host h input
        · obtain ⟨input, rfl⟩ := hmine
          rw [World.step_host_self] at hsent
          rcases (HostNode.step_step hpke _ _ input).sends hsent with hsent | ⟨wait, hencode⟩ |
            ⟨taken, wait, verified, session, hacks⟩ | ⟨session, payload, hpayload⟩
          · exact hold (Or.inr ⟨h, hsent⟩)
          · exact hello_public hencode
          · obtain rfl := hacks.input
            exact AcksAt.public List.mem_cons_self ⟨rfl, hacks⟩
          · obtain ⟨sender, hseal⟩ := hpayload.sealed
            exact (hseals.host rfl hpayload).public hseal
        · rw [World.step_host_other parties w fun input h => hmine ⟨input, h⟩] at hsent
          exact hold (Or.inr ⟨h, hsent⟩)

/-- The messages the callers send are their own. -/
structure PlainMessages (reading : Reading hpke) (proto : Protocol Blob) : Prop where
  hostToArk : reading.Plain proto.hostToArk
  arkToHost : reading.Plain proto.arkToHost

/-- The names of all messages' secrets. -/
def messages : Set Name := {name | ∃ d, name = .message d}

theorem Run.all_public (hplain : PlainMessages reading proto) (hrun : Run reading parties trace w) :
    ∀ t ∈ w.known reading parties, (leaks reading parties trace messages).Public t := by
  have hsafe : ∀ {M : Type} {codec : Codec Blob M} {msg : M} {payload : Blob} {sender : c.Sender}, reading.Plain codec →
      codec.encode msg = .ok payload → Safe reading messages sender payload := by
    intro M codec msg payload sender hcodec hencode
    rcases hcodec hencode with hdata | ⟨d, hterm⟩
    · exact Or.inl (Or.inl hdata)
    · exact Or.inl (Or.inr ⟨_, ⟨d, rfl⟩, hterm⟩)
  refine hrun.known_public fun past _ => ⟨fun {a input session payload packet} _ hseals => ?_,
    fun {h input session payload packet} _ hseals => ?_⟩
  · obtain ⟨res, _, hencode⟩ := hseals.input
    exact hsafe hplain.arkToHost hencode
  · obtain ⟨req, _, hencode⟩ := hseals.input
    exact hsafe hplain.hostToArk hencode

theorem Run.builds_public (hplain : PlainMessages reading proto) (hrun : Run reading parties trace w) {packet : Blob}
    (hbuilds : w.Builds reading parties packet) : (leaks reading parties trace messages).Public (reading.term packet) :=
  Derives.public (hrun.all_public hplain) hbuilds

theorem Run.received_public (hplain : PlainMessages reading proto) (hrun : Run reading parties trace w) :
    ∀ past ∈ trace, ∀ taken, past.2.received = some taken →
      (leaks reading parties trace messages).Public (reading.term taken) := by
  intro past hmem taken hreceived
  obtain ⟨earlier, hearlier, hsub, hbuilds⟩ := hrun.before hmem
  exact (hearlier.builds_public hplain (hbuilds taken hreceived)).mono (leaks_le hsub)

/-! ### The names of the keys -/

theorem AnswersAt.key (hnamed : parties.Named reading w) (hrun : Run reading parties trace w)
    {past : World c A Info limit × Action c proto Info} (hmem : past ∈ trace) {packet answer : Blob} {wait : AckWait c}
    {arkHello : ArkHello c} (h : AnswersAt parties a past packet wait arkHello answer) :
    reading.publicKey (c.xhpkePublicKey wait.arkCryptoKey) = .ark a (past.1.ark a).side.draws .first := by
  rw [reading.publicKey_public, h.answers.answers.key, reading.secretKey_generate,
    hnamed.arkFirst a _ ((hrun.arkInv a).answered past hmem h).1]

theorem Run.hostKeys (hnamed : parties.Named reading w) (hrun : Run reading parties trace w) {wait : HelloWait c Info}
    (hcall : (w.host h).call = some wait) : ∃ n, n + 1 = (w.host h).side.draws ∧
      reading.signKey wait.hostXdsaSk = .host h n .first ∧ reading.secretKey wait.hostXhpkeSk = .host h n .second := by
  obtain ⟨n, hn, hxdsa, hxhpke⟩ := (hrun.hostInv h).waits wait hcall
  refine ⟨n, hn, ?_, ?_⟩
  · rw [hxdsa, reading.signKey_generate, hnamed.hostFirst h n (by omega)]
  · rw [hxhpke, reading.secretKey_generate, hnamed.hostSecond h n (by omega)]

/-! ### The host's view -/

/-- A signature in what the attacker can build, with a key it does not hold, was made in the run. -/
theorem made_of_public {n : Name} {payload aad : Term Name} {domain : List UInt8}
    (h : (leaks reading parties trace atoms).Public (.signed n payload aad domain)) (hown : n ∉ Name.own)
    (hsigner : ∀ s ∈ parties.leaked, n ≠ .signer s) : Made reading parties trace n payload aad := by
  rcases h.2 with (hkey | ⟨s, hleaked, rfl⟩) | hmade
  · exact absurd hkey hown
  · exact absurd rfl (hsigner s hleaked)
  · exact hmade

/-- An ArkHello that was opened is signed with the identity the verifier returned for the attestation in it. -/
theorem opened_signed (reading : Reading hpke) {wait : HelloWait c Info} {packet : Blob} {verified : Verified c Info}
    (hopen : wait.openHello packet = .ok verified) :
    ∃ payload attestation, ArkHello.ofCbor c payload = .ok verified.arkHello ∧
      attestation.cwt = verified.arkHello.arkAttest ∧
      wait.verifier attestation = .ok (verified.arkIdentity, verified.info) ∧
      reading.term packet = .envelope (reading.secretKey wait.hostXhpkeSk)
        (.ofList (wait.hostHello.auth.toCbor.map reading.term)) CRYPTO_DOMAIN_WIRE
        (.signed (reading.verifyKey verified.arkIdentity) (.ofList (payload.map reading.term))
          (.ofList (wait.hostHello.auth.toCbor.map reading.term)) CRYPTO_DOMAIN_WIRE) := by
  obtain ⟨sign1, unverified, attestation, hdecrypt, hpeek, hattestation, hverifier, hverify⟩ :=
    HelloWait.openHello_ok hopen
  rcases hshown : c.cosePeek sign1 with err | shown
  · rw [hshown] at hpeek
    cases hpeek
  rcases hsigned : c.coseVerify sign1 wait.hostHello.auth.toCbor verified.arkIdentity CRYPTO_DOMAIN_WIRE with err | payload
  · rw [hsigned] at hverify
    cases hverify
  -- what was looked at before the signature is what the signature is over
  obtain rfl := reading.cosePeek_spec hshown hsigned
  rw [hshown] at hpeek
  rw [hsigned] at hverify
  obtain rfl : unverified = verified.arkHello := Except.ok.inj (hpeek.symm.trans hverify)
  refine ⟨shown, attestation, hverify, Attestation.eq_of_new hattestation, hverifier, ?_⟩
  rw [reading.coseDecrypt_spec hdecrypt, reading.coseVerify_spec hsigned]

/-- The ArkHello a host opened with an identity the attacker does not hold is the answer of an Ark with that identity to
the host's HostHello. -/
theorem Run.opened (hnamed : parties.Named reading w) (hrun : Run reading parties trace w) {packet : Blob}
    (hpublic : (leaks reading parties trace atoms).Public (reading.term packet)) {wait : HelloWait c Info}
    {verified : Verified c Info} (hopen : wait.openHello packet = .ok verified) {s : Nat}
    (hidentity : reading.verifyKey verified.arkIdentity = .signer s) (hunleaked : s ∉ parties.leaked) :
    ∃ past ∈ trace, ∃ a taken arkWait answer, AnswersAt parties a past taken arkWait verified.arkHello answer ∧
      parties.identity a = s ∧ arkWait.hostHello = wait.hostHello := by
  obtain ⟨payload, _, hdecode, _, _, hterm⟩ := opened_signed reading hopen
  rw [hterm, hidentity] at hpublic
  have hmade := made_of_public hpublic (Name.signer_not_own s) fun n hleaked hname => by
    injection hname with hname
    exact hunleaked (hname ▸ hleaked)
  generalize hn : Name.signer s = n at hmade
  generalize hp : Term.ofList (payload.map reading.term) = p at hmade
  generalize hd : Term.ofList (wait.hostHello.auth.toCbor.map reading.term) = d at hmade
  cases hmade with
  | @answer past a taken arkWait arkHello answer hmem hanswers =>
      have hdrew := (Nat.zero_le _).trans_lt ((hrun.arkInv a).answered past hmem hanswers).1
      rw [hnamed.identity a hdrew] at hn
      injection hn with hs
      obtain rfl := reading.map_inj (hanswers.answers.answers.bare reading) hp
      obtain rfl := reading.arkHello_of_toCbor hdecode
      exact ⟨past, hmem, a, taken, arkWait, answer, hanswers, hs.symm, (reading.hostHello_inj hd).symm⟩
  | @ack past h _ hostWait _ _ _ _ _ hmem hacks _ _ =>
      -- a host never signs with an identity key
      obtain ⟨earlier, hearlier, _, _⟩ := hrun.before hmem
      obtain ⟨_, _, hkey, _⟩ := hearlier.hostKeys (hnamed.before hrun hmem) hacks.acks.call
      exact nomatch hn.trans hkey

omit [Attester c A] in
theorem HostNode.handshake_ok (coins : Nat → Coins c) (node : HostNode c Info limit) {wait : HelloWait c Info}
    (hcall : node.call = some wait) {packet : Option Blob} {info : Info}
    (hok : (node.side.handshakeStep (coins node.side.draws) wait (.ok packet)).1 = .done (.ok info)) :
    ∃ verified session ack, node.Acks coins (.deliver (.ok packet) : HostInput c proto Info) packet wait verified session ack ∧
      verified.info = info ∧
      (node.step coins (.deliver (.ok packet) : HostInput c proto Info)).side.session = some session := by
  have hstep := HostSide.handshakeStep_step (coins node.side.draws) node.side wait (.ok packet)
  have hside : (node.step coins (.deliver (.ok packet) : HostInput c proto Info)).side =
      (node.side.handshakeStep (coins node.side.draws) wait (.ok packet)).2 := by
    rw [HostNode.step, hcall]
  rw [hside]
  generalize node.side.handshakeStep (coins node.side.draws) wait (.ok packet) = r at hstep hok
  obtain ⟨flow, side⟩ := r
  obtain rfl : flow = .done (.ok info) := hok
  cases hstep with
  | answered hours hanswer _ => exact ⟨_, _, _, ⟨rfl, hcall, hours, hanswer⟩, rfl, rfl⟩

/-- What a host may rely on whose handshake opened this packet and returned this info: it holds a session, the verifier
looked at the attestation of the ArkHello, and if the identity is one that only honest Arks hold, an Ark with that
identity answered this HostHello with this ArkHello, on the channel the host receives on. -/
def HostAgrees (hpke : Contexts c) (parties : Parties c) (trace : Trace c proto A Info limit) (w : World c A Info limit)
    (h : Nat) (wait : HelloWait c Info) (packet : Option Blob) (info : Info) : Prop :=
  ∃ verified session, wait.openHello (packet.getD c.empty) = .ok verified ∧ verified.info = info ∧
    ((w.step parties (.host h (.deliver (.ok packet)) : Action c proto Info)).host h).side.session = some session ∧
    (∃ attestation, attestation.cwt = verified.arkHello.arkAttest ∧
      wait.verifier attestation = .ok (verified.arkIdentity, info)) ∧
    ∀ s ∉ parties.leaked, verified.arkIdentity = c.xdsaPublicKey (parties.signers s) →
      ∃ past ∈ trace, ∃ a taken arkWait answer, parties.identity a = s ∧
        AnswersAt parties a past taken arkWait verified.arkHello answer ∧ arkWait.hostHello = wait.hostHello ∧
        answer ∈ (w.ark a).side.framing.sent ∧ hpke.recvChannel session.receiver = hpke.sendChannel arkWait.sender

/-- Agreement for the host, whenever its handshake returns `Ok`. -/
theorem host_agrees (hnamed : parties.Named reading w) (hplain : PlainMessages reading proto)
    (hrun : Run reading parties trace w) {wait : HelloWait c Info} (hcall : (w.host h).call = some wait)
    {packet : Option Blob} (hbuilds : ∀ taken, packet = some taken → w.Builds reading parties taken) {info : Info}
    (hok : ((w.host h).side.handshakeStep (parties.hostCoins h (w.host h).side.draws) wait (.ok packet)).1 =
      .done (.ok info)) : HostAgrees hpke parties trace w h wait packet info := by
  obtain ⟨verified, session, ack, hacks, hinfo, hsession⟩ :=
    (w.host h).handshake_ok (parties.hostCoins h) hcall hok
  obtain ⟨encap, hopen, hcontexts, _⟩ := HelloWait.answer_ok hacks.answer
  obtain ⟨_, hreceiver, _⟩ := HelloWait.contexts_ok hcontexts
  have hpublic : (leaks reading parties trace messages).Public (reading.term (packet.getD c.empty)) := by
    cases packet with
    | none =>
        rw [Option.getD_none, reading.term_empty]
        trivial
    | some taken => exact hrun.builds_public hplain (hbuilds taken rfl)
  refine ⟨verified, session, hopen, hinfo, by rw [World.step_host_self]; exact hsession, ?_, fun s hunleaked hidentity => ?_⟩
  · obtain ⟨_, attestation, _, hattest, hverifier, _⟩ := opened_signed reading hopen
    exact ⟨attestation, hattest, hinfo ▸ hverifier⟩
  · have hname : reading.verifyKey verified.arkIdentity = .signer s := by
      rw [hidentity, reading.verifyKey_public, hnamed.unleaked s hunleaked]
    obtain ⟨past, hmem, a, taken, arkWait, answer, hanswers, hs, hhello⟩ :=
      hrun.opened hnamed hpublic hopen hname hunleaked
    refine ⟨past, hmem, a, taken, arkWait, answer, hs, hanswers, hhello, ((hrun.arkInv a).answered past hmem hanswers).2, ?_⟩
    rw [(hpke.newReceiver_spec hreceiver).1, (hpke.newSender_spec hanswers.answers.answers.sender).1, hhello]
    rfl

/-! ### The Ark's view -/

/-- A HostAck that opens with the key of a host is the ack of that host to this iteration. -/
theorem Run.acked (hnamed : parties.Named reading w) (hrun : Run reading parties trace w) {packet : Blob}
    (hpublic : (leaks reading parties trace atoms).Public (reading.term packet)) {wait : AckWait c}
    {signer : c.XdsaSecretKey} {payload : List Blob}
    (hopen : c.coseOpen packet (wait.auth signer).toCbor wait.arkCryptoKey wait.hostHello.hostSigner CRYPTO_DOMAIN_WIRE =
      .ok payload) {n : Nat} (hhost : reading.verifyKey wait.hostHello.hostSigner = .host h n .first) :
    ∃ past ∈ trace, ∃ taken hostWait verified session ack encap,
      AcksAt parties h past taken hostWait verified session ack ∧ (past.1.host h).side.draws = n + 1 ∧
      hostWait.contexts (parties.hostCoins h (past.1.host h).side.draws) verified.arkHello = .ok (session, encap) ∧
      payload = [encap] ∧ verified.arkIdentity = c.xdsaPublicKey signer ∧
      verified.arkHello.arkCrypto = c.xhpkePublicKey wait.arkCryptoKey := by
  rw [reading.coseOpen_spec hopen, hhost] at hpublic
  have hmade := made_of_public hpublic (Name.host_not_own h n .first) fun _ _ hname => nomatch hname
  generalize hk : Name.host h n .first = k at hmade
  generalize hp : Term.ofList (payload.map reading.term) = p at hmade
  generalize hd : Term.ofList ((wait.auth signer).toCbor.map reading.term) = d at hmade
  cases hmade with
  | @answer past a _ _ _ _ hmem hanswers =>
      have hdrew := (Nat.zero_le _).trans_lt ((hrun.arkInv a).answered past hmem hanswers).1
      rw [hnamed.identity a hdrew] at hk
      cases hk
  | @ack past h' taken hostWait verified session ack encap auth hmem hacks hcontexts hauth =>
      obtain ⟨earlier, hearlier, _, _⟩ := hrun.before hmem
      obtain ⟨n', hn', hkey, _⟩ := hearlier.hostKeys (hnamed.before hrun hmem) hacks.acks.call
      obtain ⟨rfl, rfl, _⟩ := Name.host.inj (hk.trans hkey)
      have hsame := reading.hostAckAuth_inj hd
      rw [hauth] at hsame
      obtain ⟨hsigner, hcrypto⟩ := HostAckAuth.mk.inj hsame
      have hpayload : Term.ofList (payload.map reading.term) = Term.ofList ([encap].map reading.term) := hp
      have hbare : ∀ item ∈ [encap], (reading.term item).Bare := by
        intro item hitem
        obtain ⟨_, _, hsender⟩ := HelloWait.contexts_ok hcontexts
        rw [List.mem_singleton.mp hitem, reading.newSender_spec hsender]
        trivial
      exact ⟨past, hmem, taken, hostWait, verified, session, ack, encap, hacks, hn'.symm, hcontexts,
        reading.map_inj hbare hpayload, hsigner.symm, hcrypto.symm⟩

omit [Attester c A] in
theorem ArkSide.acceptAck_opens {T : Type} {side : ArkSide c A T} {wait : AckWait c} {packet : Blob} {session : Session c}
    (haccept : side.acceptAck wait packet = .ok session) :
    ∃ encap receiver, c.coseOpen packet (wait.auth side.signer).toCbor wait.arkCryptoKey wait.hostHello.hostSigner
        CRYPTO_DOMAIN_WIRE = .ok [encap] ∧
      c.newReceiver wait.arkCryptoKey encap CRYPTO_DOMAIN_WIRE_HOST_TO_ARK = .ok receiver ∧
      session = { sender := wait.sender, receiver } := by
  obtain ⟨hostAck, receiver, hopen, _, hreceiver, hsession⟩ := acceptAck_ok haccept
  rcases hresult : c.coseOpen packet (wait.auth side.signer).toCbor wait.arkCryptoKey wait.hostHello.hostSigner
    CRYPTO_DOMAIN_WIRE with err | payload
  · rw [hresult] at hopen
    cases hopen
  rw [hresult] at hopen
  match payload, hopen with
  | [encap], hopen =>
      obtain rfl := Except.ok.inj hopen
      exact ⟨encap, receiver, rfl, hreceiver, hsession⟩

omit [Attester c A] in
theorem AcksAt.unique {past : World c A Info limit × Action c proto Info} {packet packet' : Option Blob}
    {wait wait' : HelloWait c Info} {verified verified' : Verified c Info} {session session' : Session c} {ack ack' : Blob}
    (hacks : AcksAt parties h past packet wait verified session ack)
    (hacks' : AcksAt parties h past packet' wait' verified' session' ack') : verified = verified' := by
  have hinput := hacks.action.symm.trans hacks'.action
  injection hinput with _ hinput
  injection hinput with hinput
  obtain rfl := Except.ok.inj hinput
  obtain rfl := Option.some.inj (hacks.acks.call.symm.trans hacks'.acks.call)
  exact (Prod.mk.inj (Except.ok.inj (hacks.acks.answer.symm.trans hacks'.acks.answer))).1

theorem Run.arkKey (hnamed : parties.Named reading w) (hrun : Run reading parties trace w) {wait : AckWait c}
    (hcall : (w.ark a).call = some (.handshake (.ack wait))) :
    ∃ n, n + 1 = (w.ark a).side.draws ∧ reading.publicKey (c.xhpkePublicKey wait.arkCryptoKey) = .ark a n .first := by
  obtain ⟨past, hmem, _, _, _, hanswers, hdraws⟩ := (hrun.arkInv a).waits wait hcall
  exact ⟨_, hdraws, hanswers.key hnamed hrun hmem⟩

theorem Run.key_once (hnamed : parties.Named reading w) (hrun : Run reading parties trace w) {wait wait' : AckWait c}
    (hcall : (w.ark a).call = some (.handshake (.ack wait))) {past : World c A Info limit × Action c proto Info}
    (hmem : past ∈ trace) {a' : Nat} {packet : Blob} {session : Session c} (haccepts : AcceptsAt a' past packet wait' session)
    (hkey : reading.publicKey (c.xhpkePublicKey wait.arkCryptoKey) =
      reading.publicKey (c.xhpkePublicKey wait'.arkCryptoKey)) : False := by
  obtain ⟨earlier, hearlier, _, _⟩ := hrun.before hmem
  obtain ⟨n, hn, hname⟩ := hrun.arkKey hnamed hcall
  obtain ⟨n', hn', hname'⟩ := hearlier.arkKey (hnamed.before hrun hmem) haccepts.accepts.call
  obtain ⟨rfl, rfl, _⟩ := Name.ark.inj (hname.symm.trans (hkey.trans hname'))
  have hlt := (hrun.arkInv a).accepted past hmem haccepts wait hcall
  omega

/-- The host's `n`-th draw made the peer of the iteration that waits: the host opened the answer of exactly this iteration
to its own HostHello, its verifier returned this Ark's identity for the attestation in it, and the two sessions are each
other's. -/
def PeerOf (hpke : Contexts c) (parties : Parties c) (trace : Trace c proto A Info limit) (w : World c A Info limit)
    (a : Nat) (wait : AckWait c) (session : Session c) (h n : Nat) : Prop :=
  ∃ answered ∈ trace, ∃ request arkHello answer, AnswersAt parties a answered request wait arkHello answer ∧
    (answered.1.ark a).side.draws + 1 = (w.ark a).side.draws ∧
    ∃ acked ∈ trace, ∃ reply hostWait verified hostSession ack,
      AcksAt parties h acked reply hostWait verified hostSession ack ∧ (acked.1.host h).side.draws = n + 1 ∧
      hostWait.hostHello = wait.hostHello ∧ verified.arkHello = arkHello ∧
      verified.arkIdentity = c.xdsaPublicKey (w.ark a).side.signer ∧
      (∃ attestation, attestation.cwt = arkHello.arkAttest ∧
        hostWait.verifier attestation = .ok (verified.arkIdentity, verified.info)) ∧
      hpke.sendChannel session.sender = hpke.recvChannel hostSession.receiver ∧
      hpke.sendChannel hostSession.sender = hpke.recvChannel session.receiver

/-- The session of a HostAck signed by a host is the host's, when the attacker does not hold the Ark's identity. -/
theorem Run.peer (hnamed : parties.Named reading w) (hrun : Run reading parties trace w) {wait : AckWait c}
    (hcall : (w.ark a).call = some (.handshake (.ack wait))) (hunleaked : parties.identity a ∉ parties.leaked)
    {packet : Blob} (hpublic : (leaks reading parties trace atoms).Public (reading.term packet)) {session : Session c}
    (haccept : (w.ark a).side.acceptAck wait packet = .ok session) {n : Nat}
    (hhost : reading.verifyKey wait.hostHello.hostSigner = .host h n .first)
    (hbuilt : ∀ past ∈ trace, ∀ taken, past.2.received = some taken →
      (leaks reading parties trace atoms).Public (reading.term taken)) :
    PeerOf hpke parties trace w a wait session h n := by
  obtain ⟨encap, receiver, hopen, hreceiver, rfl⟩ := ArkSide.acceptAck_opens haccept
  obtain ⟨acked, hacked, reply, hostWait, verified, hostSession, ack, encap', hacks, hn, hcontexts, hpayload, hidentity,
    hcrypto⟩ := hrun.acked hnamed hpublic hopen hhost
  obtain rfl := (List.cons.inj hpayload).1
  -- behind the ArkHello the host opened is an answer of an Ark with this identity
  have hreply : (leaks reading parties trace atoms).Public (reading.term (reply.getD c.empty)) := by
    cases reply with
    | none =>
        rw [Option.getD_none, reading.term_empty]
        trivial
    | some taken => exact hbuilt acked hacked taken (by rw [hacks.action]; rfl)
  obtain ⟨encap', hopened, hcontexts', _⟩ := HelloWait.answer_ok hacks.acks.answer
  have hname : reading.verifyKey verified.arkIdentity = .signer (parties.identity a) := by
    rw [hidentity, reading.verifyKey_public, (hrun.arkInv a).signer, hnamed.unleaked _ hunleaked]
  obtain ⟨past, hmem, b, taken, arkWait, answer, hanswers, _, hhello⟩ :=
    hrun.opened hnamed hreply hopened hname hunleaked
  -- and it is the answer of this iteration, whose key is its own
  obtain ⟨answered, hanswered, request, arkHello, answer', hanswers', hdraws⟩ := (hrun.arkInv a).waits wait hcall
  have hkey := hanswers.key hnamed hrun hmem
  rw [← hanswers.answers.answers.crypto, hcrypto, hanswers'.key hnamed hrun hanswered] at hkey
  obtain ⟨rfl, hsame, _⟩ := Name.ark.inj hkey
  obtain rfl := (hrun.arkInv a).once answered hanswered past hmem hanswers' hanswers hsame
  have hinput := hanswers.action.symm.trans hanswers'.action
  injection hinput with _ hinput
  injection hinput with hinput
  obtain rfl := Option.some.inj (Except.ok.inj hinput)
  obtain ⟨rfl, rfl, rfl⟩ := hanswers.answers.answers.unique hanswers'.answers.answers
  obtain ⟨_, attestation, _, hattest, hverifier, _⟩ := opened_signed reading hopened
  obtain ⟨_, hostReceiver, hostSender⟩ := HelloWait.contexts_ok hcontexts
  refine ⟨answered, hanswered, taken, _, answer, hanswers, hdraws, acked, hacked, reply, hostWait, verified, hostSession,
    ack, hacks, hn, hhello.symm, rfl, hidentity, ⟨attestation, hattest, hverifier⟩, ?_, ?_⟩
  · rw [(hpke.newReceiver_spec hostReceiver).1, (hpke.newSender_spec hanswers.answers.answers.sender).1, hhello]
    rfl
  · rw [(hpke.newReceiver_spec hreceiver).1, (hpke.newSender_spec hostSender).1, hcrypto]

theorem Run.signer_once (hnamed : parties.Named reading w) (hrun : Run reading parties trace w) {wait wait' : AckWait c}
    (hcall : (w.ark a).call = some (.handshake (.ack wait))) {packet : Blob}
    (hpublic : (leaks reading parties trace atoms).Public (reading.term packet)) {session session' : Session c}
    (haccept : (w.ark a).side.acceptAck wait packet = .ok session)
    {past : World c A Info limit × Action c proto Info} (hmem : past ∈ trace) {a' : Nat} {packet' : Blob}
    (haccepts : AcceptsAt a' past packet' wait' session')
    (hpublic' : (leaks reading parties trace atoms).Public (reading.term packet')) {n : Nat}
    (hhost : reading.verifyKey wait.hostHello.hostSigner = .host h n .first)
    (hsame : wait'.hostHello.hostSigner = wait.hostHello.hostSigner) : False := by
  obtain ⟨_, _, hopen, _, _⟩ := ArkSide.acceptAck_opens haccept
  obtain ⟨_, _, hopen', _, _⟩ := ArkSide.acceptAck_opens haccepts.accepts.accepts
  obtain ⟨acked, hacked, _, _, _, _, _, _, hacks, hn, _, _, _, hcrypto⟩ := hrun.acked hnamed hpublic hopen hhost
  obtain ⟨acked', hacked', _, _, _, _, _, _, hacks', hn', _, _, _, hcrypto'⟩ :=
    hrun.acked hnamed hpublic' hopen' (hsame ▸ hhost)
  obtain rfl := (hrun.hostInv h).once acked hacked acked' hacked' hacks hacks' (hn.trans hn'.symm)
  obtain rfl := hacks.unique hacks'
  exact hrun.key_once hnamed hcall hmem haccepts (by rw [← hcrypto, hcrypto'])

theorem ArkSide.handshake_ok {T : Type} [Transport T Blob] {coins : Coins c} {side : ArkSide c A T}
    {point : HandshakePoint c} {packet : Except Error (Option Blob)} {session : Session c}
    (hok : (side.handshakeStep coins point packet).1 = .done (.ok session)) :
    ∃ wait taken, point = .ack wait ∧ packet = .ok (some taken) ∧ side.acceptAck wait taken = .ok session := by
  rcases packet with err | _ | taken
  · cases point <;> cases hok
  · cases point <;> cases hok
  · cases point with
    | hello =>
        rw [handshakeStep] at hok
        split at hok <;> cases hok
    | ack wait =>
        injection hok with hok
        exact ⟨wait, taken, rfl, rfl, hok⟩

/-- What an Ark may rely on whose handshake returned this session: it accepted a HostAck, and if only honest Arks hold its
identity and a handshake of a host generated the host key of the HostHello, that host is the peer. No session was ever
established from this HostAck before, nor from another of that host's. -/
def ArkAgrees (hpke : Contexts c) (parties : Parties c) (trace : Trace c proto A Info limit) (w : World c A Info limit)
    (a : Nat) (point : HandshakePoint c) (packet : Except Error (Option Blob)) (session : Session c) : Prop :=
  ∃ wait taken, point = .ack wait ∧ packet = .ok (some taken) ∧
    (∀ h n, parties.identity a ∉ parties.leaked → w.Generated parties h n wait.hostHello.hostSigner →
      PeerOf hpke parties trace w a wait session h n) ∧
    ∀ past ∈ trace, ∀ a' taken' wait' session', AcceptsAt a' past taken' wait' session' → taken' ≠ taken ∧
      ∀ h n, w.Generated parties h n wait.hostHello.hostSigner →
        wait'.hostHello.hostSigner ≠ wait.hostHello.hostSigner

/-- Agreement for the Ark, whenever its handshake returns a session. -/
theorem ark_agrees (hnamed : parties.Named reading w) (hplain : PlainMessages reading proto)
    (hrun : Run reading parties trace w) {point : HandshakePoint c} (hcall : (w.ark a).call = some (.handshake point))
    {packet : Except Error (Option Blob)}
    (hbuilds : ∀ taken, packet = .ok (some taken) → w.Builds reading parties taken) {session : Session c}
    (hok : ((w.ark a).side.handshakeStep (parties.arkCoins a (w.ark a).side.draws) point packet).1 =
      .done (.ok session)) : ArkAgrees hpke parties trace w a point packet session := by
  obtain ⟨wait, taken, rfl, rfl, haccept⟩ := ArkSide.handshake_ok hok
  have hpublic := hrun.builds_public hplain (hbuilds taken rfl)
  have hreceived := hrun.received_public hplain
  refine ⟨wait, taken, rfl, rfl, fun h n hunleaked hhost => ?_, fun past hmem a' taken' wait' session' haccepts => ?_⟩
  · exact hrun.peer hnamed hcall hunleaked hpublic haccept (hhost.name hnamed) hreceived
  · refine ⟨fun hsame => ?_, fun h n hhost hsame => ?_⟩
    · -- an envelope is sealed to one key
      obtain ⟨_, _, hopen, _, _⟩ := ArkSide.acceptAck_opens haccept
      obtain ⟨_, _, hopen', _, _⟩ := ArkSide.acceptAck_opens haccepts.accepts.accepts
      have hterm := (reading.coseOpen_spec hopen).symm.trans (hsame ▸ reading.coseOpen_spec hopen')
      refine hrun.key_once hnamed hcall hmem haccepts ?_
      rw [reading.publicKey_public, reading.publicKey_public]
      exact (Term.envelope.inj hterm).1
    · exact hrun.signer_once hnamed hcall hpublic haccept hmem haccepts
        (hreceived past hmem taken' (by rw [haccepts.action]; rfl)) (hhost.name hnamed) hsame

end Agreement

/-! ### A run without interference -/

namespace Ideal

/-- The first host and the first Ark greet each other. -/
def greeted : List Step := greeting (.host 0 0 .second)

def hostAnswer : Term Name := answer (.host 0 0 .second) (.ark 0 0 .second) (.ark 0 0 .third)

/-- The host has its answer. -/
def acked : List Step := greeted ++ [.host 0 (.deliver (.ok (some hostAnswer)))]

theorem greeted_run : Run reading (numbered ∅) (traced ∅ greeted.reverse) (after ∅ greeted) := by
  refine .step (.step (.step (.step (.start _) ?_) ?_) ?_) ?_
  · exact nofun
  · exact nofun
  · exact nofun
  · rintro packet ⟨⟩
    exact World.builds_of_sent (Or.inr ⟨0, List.mem_cons_self⟩)

theorem answer_builds : (after ∅ greeted).Builds reading (numbered ∅) hostAnswer :=
  World.builds_of_sent (Or.inl ⟨0, List.mem_cons_self⟩)

theorem acked_run : Run reading (numbered ∅) (traced ∅ acked.reverse) (after ∅ acked) := by
  refine .step greeted_run fun packet hreceived => ?_
  obtain rfl := Option.some.inj hreceived
  exact answer_builds

theorem ack_builds : (after ∅ acked).Builds reading (numbered ∅) ack :=
  World.builds_of_sent (Or.inr ⟨0, List.mem_cons_self⟩)

end Ideal

open DarkbioWire.Ideal in
theorem host_agrees_reference :
    HostAgrees contexts (numbered ∅) (traced ∅ greeted.reverse) (after ∅ greeted) 0
      ⟨Verifier.pinned (Name.signer 0), Name.host 0 0 .first, Name.host 0 0 .second, 0⟩ (some hostAnswer) attestation :=
  host_agrees (numbered_named ∅ _) ⟨codec_plain, codec_plain⟩ greeted_run rfl
    (fun _ htaken => Option.some.inj htaken ▸ answer_builds) rfl

open DarkbioWire.Ideal in
theorem ark_agrees_reference : ∃ wait session,
    ArkAgrees contexts (numbered ∅) (traced ∅ acked.reverse) (after ∅ acked) 0 (.ack wait) (.ok (some ack)) session :=
  ⟨_, _, ark_agrees (numbered_named ∅ _) ⟨codec_plain, codec_plain⟩ acked_run rfl
    (fun _ htaken => Option.some.inj (Except.ok.inj htaken) ▸ ack_builds) rfl⟩

end DarkbioWire
