import DarkbioWire.SideArk
import DarkbioWire.SideHost

/-!
# What each step can do

One inversion for each step of the two sides: every way the code can take, with the calls it made on that way and the
state it leaves. What holds over runs is derived from these and from nothing else of the code.
-/

namespace DarkbioWire

variable {Blob : Type} {c : Crypto Blob} {M T : Type}

/-- What a call that opened a packet returns: the message, or that it does not decode. -/
def Codec.deliver (codec : Codec Blob M) (payload : Blob) : Except Error M :=
  match codec.decode payload with
  | .error err => .error (.packetDecodingFailed err)
  | .ok msg => .ok msg

theorem Session.open_eq (codec : Codec Blob M) (session : Session c) (packet : Blob) :
    session.open codec packet =
      match c.receiverOpen session.receiver packet with
      | (.error err, receiver) => (.error (.encryptionFailed err), { session with receiver })
      | (.ok payload, receiver) => (codec.deliver payload, { session with receiver }) := by
  rw [Session.open]
  rcases c.receiverOpen session.receiver packet with ⟨err | payload, receiver⟩
  · rfl
  · dsimp only
    rw [Codec.deliver]
    rcases codec.decode payload <;> rfl

theorem Session.seal_eq {limit : Nat} {codec : Codec Blob M} (session : Session c) {msg : M} {payload : Blob}
    (hfits : codec.encodedLen msg ≤ limit) (hencode : codec.encode msg = .ok payload) :
    session.seal limit codec msg =
      ((c.senderSeal session.sender payload).1.mapError .encryptionFailed,
        { session with sender := (c.senderSeal session.sender payload).2 }) := by
  rw [Session.seal, if_neg (Nat.not_lt_of_le hfits), hencode]
  dsimp only
  rcases c.senderSeal session.sender payload with ⟨err | packet, sender⟩ <;> rfl

theorem Codec.deliver_ne (codec : Codec Blob M) (payload : Blob) {err : Error} (h : codec.deliver payload = .error err) :
    ∃ message, err = .packetDecodingFailed message := by
  rw [Codec.deliver] at h
  split at h
  · injection h with h
    exact ⟨_, h.symm⟩
  · cases h

/-! ### Sending a message -/

/-- What `send_message` can do to the session and to the transport. -/
inductive SendStep [Transport T Blob] (codec : Codec Blob M) (framing : T) (msg : M) :
    Option (Session c) → Except Error Unit → T → Option (Session c) → Prop
  | inactive : SendStep codec framing msg none (.error (.encryptionFailed "no active session")) framing none
  | tooLarge {session : Session c} : codec.encodedLen msg > Transport.maxMessageSize T →
      SendStep codec framing msg (some session) (.error (.packetTooLarge (codec.encodedLen msg))) framing (some session)
  | unencodable {session : Session c} {err} : codec.encode msg = .error err →
      SendStep codec framing msg (some session) (.error (.packetEncodingFailed err)) framing (some session)
  | unsealed {session : Session c} {payload err sender} : codec.encodedLen msg ≤ Transport.maxMessageSize T →
      codec.encode msg = .ok payload → c.senderSeal session.sender payload = (.error err, sender) →
      SendStep codec framing msg (some session) (.error (.encryptionFailed err)) framing none
  | lost {session : Session c} {payload packet sender err framing'} :
      codec.encodedLen msg ≤ Transport.maxMessageSize T → codec.encode msg = .ok payload →
      c.senderSeal session.sender payload = (.ok packet, sender) →
      Transport.sendPacket framing packet = (.error err, framing') →
      SendStep codec framing msg (some session) (.error err) framing' none
  | sent {session : Session c} {payload packet sender framing'} :
      codec.encodedLen msg ≤ Transport.maxMessageSize T → codec.encode msg = .ok payload →
      c.senderSeal session.sender payload = (.ok packet, sender) →
      Transport.sendPacket framing packet = (.ok (), framing') →
      SendStep codec framing msg (some session) (.ok ()) framing' (some { session with sender })

theorem sendThrough_step [Transport T Blob] (codec : Codec Blob M) (framing : T) (session : Option (Session c)) (msg : M) :
    SendStep codec framing msg session (sendThrough codec framing session msg).1
      (sendThrough codec framing session msg).2.1 (sendThrough codec framing session msg).2.2 := by
  rcases session with _ | session
  · exact .inactive
  rw [sendThrough, Session.seal]
  by_cases hlarge : codec.encodedLen msg > Transport.maxMessageSize T
  · rw [if_pos hlarge]
    exact .tooLarge hlarge
  rw [if_neg hlarge]
  have hfits := Nat.le_of_not_lt hlarge
  rcases hencode : codec.encode msg with err | payload
  · exact .unencodable hencode
  dsimp only
  rcases hseal : c.senderSeal session.sender payload with ⟨err | packet, sender⟩
  · exact .unsealed hfits hencode hseal
  dsimp only
  rcases hsend : Transport.sendPacket framing packet with ⟨err | _, framing'⟩
  · exact .lost hfits hencode hseal hsend
  · exact .sent hfits hencode hseal hsend

/-! ### The Ark -/

namespace ArkSide

variable {A : Type}

/-- An Ark answers a packet, read as a HostHello, with this ArkHello, sealed to this packet. -/
structure Answers [Attester c A] (coins : Coins c) (side : ArkSide c A T) (packet : Blob) (wait : AckWait c) (arkHello : ArkHello c)
    (answer : Blob) : Prop where
  decode : HostHello.decode c packet = .ok wait.hostHello
  key : wait.arkCryptoKey = c.xhpkeGenerate coins.first
  crypto : arkHello.arkCrypto = c.xhpkePublicKey wait.arkCryptoKey
  attest : arkHello.arkAttest = (Attester.attest side.attester : Attestation c × A).1.cwt
  sender : c.newSender wait.hostHello.hostCrypto CRYPTO_DOMAIN_WIRE_ARK_TO_HOST coins.second =
    .ok (wait.sender, arkHello.a2hEncap)
  sealed : c.coseSeal arkHello.toCbor wait.hostHello.auth.toCbor side.signer wait.hostHello.hostCrypto
    CRYPTO_DOMAIN_WIRE coins.third = .ok answer

theorem Answers.congr [Attester c A] {coins : Coins c} {side side' : ArkSide c A T} {packet : Blob} {wait : AckWait c}
    {arkHello : ArkHello c} {answer : Blob} (h : Answers coins side packet wait arkHello answer)
    (hsigner : side'.signer = side.signer) (hattester : side'.attester = side.attester) :
    Answers coins side' packet wait arkHello answer :=
  ⟨h.decode, h.key, h.crypto, hattester ▸ h.attest, h.sender, hsigner ▸ h.sealed⟩

/-- There is one answer to a packet at most. -/
theorem Answers.unique [Attester c A] {coins : Coins c} {side : ArkSide c A T} {packet answer answer' : Blob}
    {wait wait' : AckWait c} {arkHello arkHello' : ArkHello c} (h : Answers coins side packet wait arkHello answer)
    (h' : Answers coins side packet wait' arkHello' answer') : wait = wait' ∧ arkHello = arkHello' ∧ answer = answer' := by
  obtain ⟨hostHello, key, sender⟩ := wait
  obtain ⟨hostHello', key', sender'⟩ := wait'
  obtain ⟨attest, crypto, encap⟩ := arkHello
  obtain ⟨attest', crypto', encap'⟩ := arkHello'
  obtain ⟨hdecode, hkey, hcrypto, hattest, hsender, hsealed⟩ := h
  obtain ⟨hdecode', hkey', hcrypto', hattest', hsender', hsealed'⟩ := h'
  dsimp only at *
  obtain rfl := Except.ok.inj (hdecode.symm.trans hdecode')
  obtain rfl := hkey.trans hkey'.symm
  obtain ⟨rfl, rfl⟩ := Prod.mk.inj (Except.ok.inj (hsender.symm.trans hsender'))
  obtain rfl := hcrypto.trans hcrypto'.symm
  obtain rfl := hattest.trans hattest'.symm
  exact ⟨rfl, rfl, Except.ok.inj (hsealed.symm.trans hsealed')⟩

theorem acceptAck_ok {side : ArkSide c A T} {wait : AckWait c} {packet : Blob} {session : Session c}
    (h : side.acceptAck wait packet = .ok session) :
    ∃ hostAck receiver, c.coseOpen packet (wait.auth side.signer).toCbor wait.arkCryptoKey wait.hostHello.hostSigner
        CRYPTO_DOMAIN_WIRE >>= HostAck.ofCbor = .ok hostAck ∧ c.isEncapKey hostAck.h2aEncap = true ∧
      c.newReceiver wait.arkCryptoKey hostAck.h2aEncap CRYPTO_DOMAIN_WIRE_HOST_TO_ARK = .ok receiver ∧
      session = { sender := wait.sender, receiver } := by
  rw [acceptAck] at h
  split at h
  · cases h
  rename_i hostAck hopen
  split at h
  swap
  · cases h
  rename_i hsize
  split at h
  · cases h
  rename_i receiver hreceiver
  injection h with h
  exact ⟨hostAck, receiver, hopen, hsize, hreceiver, h.symm⟩

theorem acceptAck_eq {side : ArkSide c A T} {wait : AckWait c} {packet encap : Blob} {receiver : c.Receiver}
    (hopen : c.coseOpen packet (wait.auth side.signer).toCbor wait.arkCryptoKey wait.hostHello.hostSigner
      CRYPTO_DOMAIN_WIRE = .ok [encap]) (hsize : c.isEncapKey encap = true)
    (hreceiver : c.newReceiver wait.arkCryptoKey encap CRYPTO_DOMAIN_WIRE_HOST_TO_ARK = .ok receiver) :
    side.acceptAck wait packet = .ok { sender := wait.sender, receiver } := by
  have hack : (c.coseOpen packet (wait.auth side.signer).toCbor wait.arkCryptoKey wait.hostHello.hostSigner
      CRYPTO_DOMAIN_WIRE >>= HostAck.ofCbor) = .ok { h2aEncap := encap } := by
    rw [hopen]
    rfl
  rw [acceptAck, hack]
  dsimp only
  rw [if_pos hsize, hreceiver]

theorem acceptAck_error {side : ArkSide c A T} {wait : AckWait c} {packet : Blob} {err : Error}
    (h : side.acceptAck wait packet = .error err) : ∃ message, err = .handshakeFailed message := by
  rw [acceptAck] at h
  split at h
  · injection h with h
    exact ⟨_, h.symm⟩
  split at h
  · split at h
    · injection h with h
      exact ⟨_, h.symm⟩
    · cases h
  · injection h with h
    exact ⟨_, h.symm⟩

theorem acceptAck_congr {side side' : ArkSide c A T} (hsigner : side'.signer = side.signer) (wait : AckWait c)
    (packet : Blob) : side'.acceptAck wait packet = side.acceptAck wait packet := by
  rw [acceptAck, acceptAck, hsigner]

/-- What `answerHello` leaves alone. -/
structure SameArk (side side' : ArkSide c A T) : Prop where
  signer : side'.signer = side.signer
  session : side'.session = side.session
  draws : side'.draws = side.draws + 1

variable [Transport T Blob] [Attester c A]

theorem answerHello_eq {coins : Coins c} {side : ArkSide c A T} {packet : Blob} {wait : AckWait c} {arkHello : ArkHello c}
    {answer : Blob} (h : Answers coins side packet wait arkHello answer) :
    side.answerHello coins packet =
      ((Transport.sendPacket side.framing answer).1.map (fun _ => wait),
        { side with
          framing := (Transport.sendPacket side.framing answer).2
          attester := (Attester.attest side.attester : Attestation c × A).2
          draws := side.draws + 1 }) := by
  obtain ⟨hostHello, key, sender⟩ := wait
  obtain ⟨attest, crypto, encap⟩ := arkHello
  obtain ⟨hdecode, rfl, rfl, rfl, hsender, hsealed⟩ := h
  rw [answerHello, hdecode]
  dsimp only at hsender hsealed ⊢
  rw [hsender]
  dsimp only
  rw [hsealed]
  dsimp only
  rcases Transport.sendPacket side.framing answer with ⟨_ | _, framing⟩ <;> rfl

theorem answerHello_cases (coins : Coins c) (side : ArkSide c A T) (packet : Blob) :
    SameArk side (side.answerHello coins packet).2 ∧
      ((∃ message, (side.answerHello coins packet).1 = .error (.handshakeFailed message) ∧
          (side.answerHello coins packet).2.framing = side.framing ∧
          ∀ wait arkHello answer, ¬ Answers coins side packet wait arkHello answer) ∨
        ∃ wait arkHello answer, Answers coins side packet wait arkHello answer ∧
          (side.answerHello coins packet).1 = (Transport.sendPacket side.framing answer).1.map (fun _ => wait) ∧
          (side.answerHello coins packet).2.framing = (Transport.sendPacket side.framing answer).2) := by
  rw [answerHello]
  rcases hdecode : HostHello.decode c packet with err | hostHello
  · refine ⟨⟨rfl, rfl, rfl⟩, Or.inl ⟨_, rfl, rfl, fun wait arkHello answer hanswers => ?_⟩⟩
    have := hdecode.symm.trans hanswers.decode
    cases this
  dsimp only
  have hsame : ∀ {wait arkHello answer}, Answers coins side packet wait arkHello answer →
      wait.hostHello = hostHello := by
    intro wait arkHello answer hanswers
    have := hanswers.decode.symm.trans hdecode
    injection this
  rcases hsender : c.newSender hostHello.hostCrypto CRYPTO_DOMAIN_WIRE_ARK_TO_HOST coins.second with
    err | ⟨sender, a2hEncap⟩
  · refine ⟨⟨rfl, rfl, rfl⟩, Or.inl ⟨_, rfl, rfl, fun wait arkHello answer hanswers => ?_⟩⟩
    have := hanswers.sender
    rw [hsame hanswers, hsender] at this
    cases this
  dsimp only
  let arkHello : ArkHello c :=
    { arkAttest := (Attester.attest side.attester : Attestation c × A).1.cwt
      arkCrypto := c.xhpkePublicKey (c.xhpkeGenerate coins.first)
      a2hEncap }
  rcases hseal : c.coseSeal arkHello.toCbor hostHello.auth.toCbor side.signer hostHello.hostCrypto CRYPTO_DOMAIN_WIRE
    coins.third with err | answer
  · refine ⟨⟨rfl, rfl, rfl⟩, Or.inl ⟨_, rfl, rfl, fun wait arkHello' answer hanswers => ?_⟩⟩
    have hsender' := hanswers.sender
    rw [hsame hanswers, hsender] at hsender'
    injection hsender' with hsender'
    obtain ⟨_, hencap⟩ := Prod.mk.inj hsender'
    have hhello : arkHello' = arkHello := by
      obtain ⟨attest, crypto, encap⟩ := arkHello'
      obtain rfl : encap = a2hEncap := hencap.symm
      obtain rfl : attest = arkHello.arkAttest := hanswers.attest
      obtain rfl : crypto = arkHello.arkCrypto := hanswers.crypto.trans (by rw [hanswers.key])
      rfl
    have := hanswers.sealed
    rw [hsame hanswers, hhello, hseal] at this
    cases this
  dsimp only
  let wait : AckWait c := { hostHello, arkCryptoKey := c.xhpkeGenerate coins.first, sender }
  have hanswers : Answers coins side packet wait arkHello answer := ⟨hdecode, rfl, rfl, rfl, hsender, hseal⟩
  rcases hsend : Transport.sendPacket side.framing answer with ⟨err | _, framing⟩
  · exact ⟨⟨rfl, rfl, rfl⟩, Or.inr ⟨_, _, answer, hanswers, by rw [hsend]; rfl, by rw [hsend]⟩⟩
  · exact ⟨⟨rfl, rfl, rfl⟩, Or.inr ⟨_, _, answer, hanswers, by rw [hsend]; rfl, by rw [hsend]⟩⟩

/-- Where `next_message` goes on after its handshake failed. -/
def abort {proto : Protocol Blob} : Error → Flow (MessagePoint c) proto.HostToArk
  | .terminated => .done (.error .terminated)
  | .recvFailed err => .done (.error (.recvFailed err))
  | _ => .wait .packet

/-- What `next_message` can do with the result of a `next_packet`, by the point at which it waited for it. -/
inductive Step (proto : Protocol Blob) (coins : Coins c) (side : ArkSide c A T) :
    MessagePoint c → Except Error (Option Blob) → Flow (MessagePoint c) proto.HostToArk → ArkSide c A T → Prop
  | terminated : Step proto coins side .packet (.error .terminated) (.done (.error .terminated)) side
  | recvFailed {err} :
      Step proto coins side .packet (.error (.recvFailed err)) (.done (.error (.recvFailed err))) side
  | undecodable {err} : err ≠ .terminated → (∀ cause, err ≠ .recvFailed cause) →
      Step proto coins side .packet (.error err) (.wait .packet) { side with session := none }
  | reset : Step proto coins side .packet (.ok none) (.wait (.handshake .hello)) { side with session := none }
  | junk {packet} : side.session = none → Step proto coins side .packet (.ok (some packet)) (.wait .packet) side
  | broken {packet session err receiver} : side.session = some session →
      c.receiverOpen session.receiver packet = (.error err, receiver) →
      Step proto coins side .packet (.ok (some packet)) (.wait .packet) { side with session := none }
  | opened {packet session payload receiver} : side.session = some session →
      c.receiverOpen session.receiver packet = (.ok payload, receiver) →
      Step proto coins side .packet (.ok (some packet)) (.done (proto.hostToArk.deliver payload))
        { side with session := some { session with receiver } }
  | aborted {point err} :
      Step proto coins side (.handshake point) (.error err) (abort err) side
  | restarted {point} :
      Step proto coins side (.handshake point) (.ok none) (.wait (.handshake .hello)) side
  | refused {packet side'} : SameArk side side' → side'.framing = side.framing →
      (∀ wait arkHello answer, ¬ Answers coins side packet wait arkHello answer) →
      Step proto coins side (.handshake .hello) (.ok (some packet)) (.wait .packet) side'
  | answered {packet side' wait arkHello answer} : SameArk side side' →
      Answers coins side packet wait arkHello answer →
      Transport.sendPacket side.framing answer = (.ok (), side'.framing) →
      Step proto coins side (.handshake .hello) (.ok (some packet)) (.wait (.handshake (.ack wait))) side'
  | unanswered {packet side' wait arkHello answer err} : SameArk side side' →
      Answers coins side packet wait arkHello answer →
      Transport.sendPacket side.framing answer = (.error err, side'.framing) →
      Step proto coins side (.handshake .hello) (.ok (some packet)) (abort err) side'
  | accepted {packet wait session} : side.acceptAck wait packet = .ok session →
      Step proto coins side (.handshake (.ack wait)) (.ok (some packet)) (.wait .packet)
        { side with session := some session }
  | rejected {packet wait err} : side.acceptAck wait packet = .error err →
      Step proto coins side (.handshake (.ack wait)) (.ok (some packet)) (.wait .packet) side

theorem nextMessageStep_aborted {proto : Protocol Blob} {coins : Coins c} {side side' : ArkSide c A T}
    {point : HandshakePoint c} {packet : Except Error (Option Blob)} {err : Error}
    (h : side.handshakeStep coins point packet = (.done (.error err), side')) :
    side.nextMessageStep proto coins (.handshake point) packet = (abort err, side') := by
  rw [nextMessageStep, h]
  cases err <;> rfl

theorem nextMessageStep_step (proto : Protocol Blob) (coins : Coins c) (side : ArkSide c A T) (point : MessagePoint c)
    (packet : Except Error (Option Blob)) :
    Step proto coins side point packet (side.nextMessageStep proto coins point packet).1
      (side.nextMessageStep proto coins point packet).2 := by
  rcases point with _ | point
  · rcases packet with err | _ | packet
    · cases err with
      | terminated => exact .terminated
      | recvFailed err => exact .recvFailed
      | _ => exact .undecodable (by simp) (by simp)
    · exact .reset
    · rw [nextMessageStep]
      rcases hsession : side.session with _ | session
      · exact .junk hsession
      dsimp only
      rw [Session.open_eq]
      rcases hopen : c.receiverOpen session.receiver packet with ⟨err | payload, receiver⟩
      · exact .broken hsession hopen
      have hstep : Step proto coins side .packet (.ok (some packet)) _ _ := .opened hsession hopen
      dsimp only
      rcases hdeliver : proto.hostToArk.deliver payload with err | msg
      · obtain ⟨message, rfl⟩ := Codec.deliver_ne _ _ hdeliver
        rw [hdeliver] at hstep
        exact hstep
      · rw [hdeliver] at hstep
        exact hstep
  · rcases packet with err | _ | packet
    · have haborted : side.handshakeStep coins point (.error err) = (.done (.error err), side) := by
        cases point <;> rfl
      rw [nextMessageStep_aborted haborted]
      exact .aborted
    · cases point with
      | hello => exact .restarted
      | ack wait => exact .restarted
    · cases point with
      | hello =>
          obtain ⟨hsame, ⟨message, herr, hframing, hnone⟩ | ⟨wait, arkHello, answer, hanswers, hresult, hframing⟩⟩ :=
            answerHello_cases coins side packet
          · rcases hanswer : side.answerHello coins packet with ⟨result, side'⟩
            rw [hanswer] at hsame herr hframing
            dsimp only at hsame herr hframing
            subst herr
            have haborted : side.handshakeStep coins .hello (.ok (some packet)) =
                (.done (.error (.handshakeFailed message)), side') := by rw [handshakeStep, hanswer]
            rw [nextMessageStep_aborted haborted]
            exact .refused hsame hframing hnone
          · rcases hanswer : side.answerHello coins packet with ⟨result, side'⟩
            rw [hanswer] at hsame hresult hframing
            dsimp only at hsame hresult hframing
            rcases hsend : Transport.sendPacket side.framing answer with ⟨err | _, framing⟩
            · rw [hsend] at hresult hframing
              obtain rfl : result = .error err := hresult
              have haborted : side.handshakeStep coins .hello (.ok (some packet)) = (.done (.error err), side') := by
                rw [handshakeStep, hanswer]
              rw [nextMessageStep_aborted haborted]
              exact .unanswered hsame hanswers (hframing ▸ hsend)
            · rw [hsend] at hresult hframing
              obtain rfl : result = .ok wait := hresult
              have hflow : side.nextMessageStep proto coins (.handshake .hello) (.ok (some packet)) =
                  (.wait (.handshake (.ack wait)), side') := by
                rw [nextMessageStep, handshakeStep, hanswer]
              rw [hflow]
              exact .answered hsame hanswers (hframing ▸ hsend)
      | ack wait =>
          rcases haccept : side.acceptAck wait packet with err | session
          · obtain ⟨message, rfl⟩ := acceptAck_error haccept
            have haborted : side.handshakeStep coins (.ack wait) (.ok (some packet)) =
                (.done (.error (.handshakeFailed message)), side) := by rw [handshakeStep, haccept]
            rw [nextMessageStep_aborted haborted]
            exact .rejected haccept
          · have hflow : side.nextMessageStep proto coins (.handshake (.ack wait)) (.ok (some packet)) =
                (.wait .packet, { side with session := some session }) := by
              rw [nextMessageStep, handshakeStep, haccept]
            rw [hflow]
            exact .accepted haccept

theorem Step.signer {proto : Protocol Blob} {coins : Coins c} {side side' : ArkSide c A T} {point : MessagePoint c}
    {packet : Except Error (Option Blob)} {flow : Flow (MessagePoint c) proto.HostToArk}
    (hstep : Step proto coins side point packet flow side') : side'.signer = side.signer := by
  cases hstep with
  | refused hsame => exact hsame.signer
  | answered hsame => exact hsame.signer
  | unanswered hsame => exact hsame.signer
  | _ => rfl

end ArkSide

/-! ### The host -/

variable {Info : Type}

namespace HelloWait

theorem openHello_ok {wait : HelloWait c Info} {packet : Blob} {verified : Verified c Info}
    (h : wait.openHello packet = .ok verified) :
    ∃ sign1 unverified attestation,
      c.coseDecrypt packet wait.hostHello.auth.toCbor wait.hostXhpkeSk CRYPTO_DOMAIN_WIRE = .ok sign1 ∧
      c.cosePeek sign1 >>= ArkHello.ofCbor c = .ok unverified ∧
      Attestation.new c unverified.arkAttest = .ok attestation ∧
      wait.verifier attestation = .ok (verified.arkIdentity, verified.info) ∧
      c.coseVerify sign1 wait.hostHello.auth.toCbor verified.arkIdentity CRYPTO_DOMAIN_WIRE >>= ArkHello.ofCbor c =
        .ok verified.arkHello := by
  rw [openHello] at h
  split at h
  · cases h
  rename_i sign1 hdecrypt
  split at h
  · cases h
  rename_i unverified hpeek
  split at h
  · cases h
  rename_i attestation hattestation
  split at h
  · cases h
  rename_i arkIdentity info hverifier
  split at h
  · cases h
  rename_i arkHello hverify
  injection h with h
  subst h
  exact ⟨sign1, unverified, attestation, hdecrypt, hpeek, hattestation, hverifier, hverify⟩

theorem contexts_ok {coins : Coins c} {wait : HelloWait c Info} {arkHello : ArkHello c} {session : Session c}
    {encH2a : Blob} (h : wait.contexts coins arkHello = .ok (session, encH2a)) :
    c.isEncapKey arkHello.a2hEncap = true ∧
      c.newReceiver wait.hostXhpkeSk arkHello.a2hEncap CRYPTO_DOMAIN_WIRE_ARK_TO_HOST = .ok session.receiver ∧
      c.newSender arkHello.arkCrypto CRYPTO_DOMAIN_WIRE_HOST_TO_ARK coins.first = .ok (session.sender, encH2a) := by
  rw [contexts] at h
  split at h
  swap
  · cases h
  rename_i hsize
  split at h
  · cases h
  rename_i receiver hreceiver
  split at h
  · cases h
  rename_i sender encap hsender
  injection h with h
  obtain ⟨rfl, rfl⟩ := Prod.mk.inj h
  exact ⟨hsize, hreceiver, hsender⟩

theorem sealAck_ok {coins : Coins c} {wait : HelloWait c Info} {verified : Verified c Info} {encH2a packet : Blob}
    (h : wait.sealAck coins verified encH2a = .ok packet) :
    c.coseSeal (HostAck.toCbor { h2aEncap := encH2a })
      (HostAckAuth.toCbor (c := c) { arkSigner := verified.arkIdentity, arkCrypto := verified.arkHello.arkCrypto })
      wait.hostXdsaSk verified.arkHello.arkCrypto CRYPTO_DOMAIN_WIRE coins.second = .ok packet := by
  rw [sealAck] at h
  split at h
  · cases h
  rename_i ack hseal
  injection h with h
  rw [hseal, h]

theorem answer_ok {coins : Coins c} {wait : HelloWait c Info} {packet ack : Blob} {verified : Verified c Info}
    {session : Session c} (h : wait.answer coins packet = .ok (verified, session, ack)) :
    ∃ encH2a, wait.openHello packet = .ok verified ∧ wait.contexts coins verified.arkHello = .ok (session, encH2a) ∧
      wait.sealAck coins verified encH2a = .ok ack := by
  rw [answer] at h
  split at h
  · cases h
  rename_i opened hopen
  split at h
  · cases h
  rename_i made encH2a hcontexts
  split at h
  · cases h
  rename_i sealed hseal
  injection h with h
  obtain ⟨rfl, hrest⟩ := Prod.mk.inj h
  obtain ⟨rfl, rfl⟩ := Prod.mk.inj hrest
  exact ⟨encH2a, hopen, hcontexts, hseal⟩

/-- A packet is sealed to the host key of this handshake. -/
def Ours (wait : HelloWait c Info) (packet : Option Blob) : Prop :=
  c.coseRecipient (packet.getD c.empty) = .ok (c.fingerprint wait.hostHello.hostCrypto)

end HelloWait

namespace HostSide

variable [Transport T Blob]

/-- What `handshake` can do before it waits for the ArkHello. -/
inductive StartStep (coins : Coins c) (side : HostSide c T) (verifier : Verifier c Info) :
    Except Error (HelloWait c Info) → HostSide c T → Prop
  | unreset {err framing} : Transport.sendReset side.framing = (.error err, framing) →
      StartStep coins side verifier (.error err) { side with session := none, framing }
  | unencodable {message framing} : Transport.sendReset side.framing = (.ok (), framing) →
      StartStep coins side verifier (.error (.handshakeFailed message))
        { side with session := none, framing, draws := side.draws + 1 }
  | unsent {wait hello framing err framing'} : wait = HelloWait.mk verifier (c.xdsaGenerate coins.first)
        (c.xhpkeGenerate coins.second) 0 →
      Transport.sendReset side.framing = (.ok (), framing) → c.cborEncode wait.hostHello.toCbor = .ok hello →
      Transport.sendPacket framing hello = (.error err, framing') →
      StartStep coins side verifier (.error err) { framing := framing', session := none, draws := side.draws + 1 }
  | started {wait hello framing framing'} : wait = HelloWait.mk verifier (c.xdsaGenerate coins.first)
        (c.xhpkeGenerate coins.second) 0 →
      Transport.sendReset side.framing = (.ok (), framing) → c.cborEncode wait.hostHello.toCbor = .ok hello →
      Transport.sendPacket framing hello = (.ok (), framing') →
      StartStep coins side verifier (.ok wait) { framing := framing', session := none, draws := side.draws + 1 }

theorem handshakeStart_step (coins : Coins c) (side : HostSide c T) (verifier : Verifier c Info) :
    StartStep coins side verifier (side.handshakeStart coins verifier).1 (side.handshakeStart coins verifier).2 := by
  rw [handshakeStart]
  dsimp only
  rcases hreset : Transport.sendReset side.framing with ⟨err | _, framing⟩
  · exact .unreset hreset
  dsimp only
  let wait : HelloWait c Info := ⟨verifier, c.xdsaGenerate coins.first, c.xhpkeGenerate coins.second, 0⟩
  rcases hencode : c.cborEncode wait.hostHello.toCbor with err | hello
  · exact .unencodable hreset
  dsimp only
  rcases hsend : Transport.sendPacket framing hello with ⟨err | _, framing'⟩
  · exact .unsent rfl hreset hencode hsend
  · exact .started rfl hreset hencode hsend

/-- What `handshake` can do with the result of a `next_packet` while it waits for the ArkHello. -/
inductive HandshakeStep (coins : Coins c) (side : HostSide c T) (wait : HelloWait c Info) :
    Except Error (Option Blob) → Flow (HelloWait c Info) Info → HostSide c T → Prop
  | failed {err} : HandshakeStep coins side wait (.error err) (.done (.error err)) side
  | skipped {packet} : ¬ wait.Ours packet → wait.stale + 1 ≤ MAX_STALE_FRAMES →
      HandshakeStep coins side wait (.ok packet) (.wait { wait with stale := wait.stale + 1 }) side
  | gaveUp {packet} : ¬ wait.Ours packet → MAX_STALE_FRAMES < wait.stale + 1 →
      HandshakeStep coins side wait (.ok packet)
        (.done (.error (.handshakeFailed "too many stale frames before ark hello"))) side
  | rejected {packet err} : wait.Ours packet → wait.answer coins (packet.getD c.empty) = .error err →
      HandshakeStep coins side wait (.ok packet) (.done (.error err)) { side with draws := side.draws + 1 }
  | unanswered {packet verified session ack err framing} : wait.Ours packet →
      wait.answer coins (packet.getD c.empty) = .ok (verified, session, ack) →
      Transport.sendPacket side.framing ack = (.error err, framing) →
      HandshakeStep coins side wait (.ok packet) (.done (.error err))
        { framing, session := side.session, draws := side.draws + 1 }
  | answered {packet verified session ack framing} : wait.Ours packet →
      wait.answer coins (packet.getD c.empty) = .ok (verified, session, ack) →
      Transport.sendPacket side.framing ack = (.ok (), framing) →
      HandshakeStep coins side wait (.ok packet) (.done (.ok verified.info))
        { framing, session := some session, draws := side.draws + 1 }

theorem handshakeStep_step (coins : Coins c) (side : HostSide c T) (wait : HelloWait c Info)
    (packet : Except Error (Option Blob)) :
    HandshakeStep coins side wait packet (side.handshakeStep coins wait packet).1
      (side.handshakeStep coins wait packet).2 := by
  rcases packet with err | packet
  · exact .failed
  have hskip : ¬ wait.Ours packet → HandshakeStep coins side wait (.ok packet) (handshakeStep.skip side wait).1
      (handshakeStep.skip side wait).2 := by
    intro hother
    rw [handshakeStep.skip]
    by_cases hstale : wait.stale + 1 > MAX_STALE_FRAMES
    · rw [if_pos hstale]
      exact .gaveUp hother hstale
    · rw [if_neg hstale]
      exact .skipped hother (Nat.le_of_not_lt hstale)
  rw [handshakeStep]
  dsimp only
  rcases hrecipient : c.coseRecipient (packet.getD c.empty) with err | recipient
  · refine hskip fun hours => ?_
    rw [HelloWait.Ours, hrecipient] at hours
    cases hours
  dsimp only
  by_cases hours : recipient = c.fingerprint wait.hostHello.hostCrypto
  · subst hours
    rw [if_pos rfl, handshakeFinish]
    rcases hanswer : wait.answer coins (packet.getD c.empty) with err | ⟨verified, session, ack⟩
    · exact .rejected hrecipient hanswer
    dsimp only
    rcases hsend : Transport.sendPacket side.framing ack with ⟨err | _, framing⟩
    · exact .unanswered hrecipient hanswer hsend
    · exact .answered hrecipient hanswer hsend
  · rw [if_neg hours]
    refine hskip fun h => hours ?_
    rw [HelloWait.Ours, hrecipient] at h
    injection h

/-- What `next_message` can do with the result of its `next_packet`. -/
inductive MessageStep (proto : Protocol Blob) (side : HostSide c T) :
    Except Error (Option Blob) → Except Error proto.ArkToHost → HostSide c T → Prop
  | failed {err} : MessageStep proto side (.error err) (.error err) { side with session := none }
  | empty : MessageStep proto side (.ok none) (.error (.frameDecodingFailed .emptyInput)) side
  | inactive {packet} : side.session = none →
      MessageStep proto side (.ok (some packet)) (.error (.encryptionFailed "no active session")) side
  | broken {packet session err receiver} : side.session = some session →
      c.receiverOpen session.receiver packet = (.error err, receiver) →
      MessageStep proto side (.ok (some packet)) (.error (.encryptionFailed err)) { side with session := none }
  | opened {packet session payload receiver} : side.session = some session →
      c.receiverOpen session.receiver packet = (.ok payload, receiver) →
      MessageStep proto side (.ok (some packet)) (proto.arkToHost.deliver payload)
        { side with session := some { session with receiver } }

omit [Transport T Blob] in
theorem nextMessageStep_step (proto : Protocol Blob) (side : HostSide c T) (packet : Except Error (Option Blob)) :
    MessageStep proto side packet (side.nextMessageStep proto packet).1 (side.nextMessageStep proto packet).2 := by
  rcases packet with err | _ | packet
  · exact .failed
  · exact .empty
  rw [nextMessageStep]
  rcases hsession : side.session with _ | session
  · exact .inactive hsession
  dsimp only
  rw [Session.open_eq]
  rcases hopen : c.receiverOpen session.receiver packet with ⟨err | payload, receiver⟩
  · exact .broken hsession hopen
  have hstep : MessageStep proto side (.ok (some packet)) _ _ := .opened hsession hopen
  dsimp only
  rcases hdeliver : proto.arkToHost.deliver payload with err | msg
  · obtain ⟨message, rfl⟩ := Codec.deliver_ne _ _ hdeliver
    rw [hdeliver] at hstep
    exact hstep
  · rw [hdeliver] at hstep
    exact hstep

end HostSide

end DarkbioWire
