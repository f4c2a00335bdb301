import DarkbioWire.ExactlyOnce
import DarkbioWire.Serving
import DarkbioWire.Stale

/-!
# Draining a backlog

A `handshake` of the host skips at most `MAX_STALE_FRAMES` frames in front of its ArkHello and fails with the next one, so
behind a long backlog it has to be called again. Every failed attempt takes one frame more than it skips, and leaves one
more behind: its own ArkHello, which the Ark sends or sent anyway. What the host has in front of it together with what
the Ark still owes it (`Owes`) therefore shrinks by `MAX_STALE_FRAMES` with every attempt, however the calls, the polls and
the bytes on their way interleave.
-/

namespace DarkbioWire

open Delimited Framing

variable {c : Crypto (List UInt8)} {proto : Protocol (List UInt8)} {A Info : Type} [Attester c A] {cobs : Cobs}
  {maxFrameSize : Nat}

/-! ### Handshakes that can succeed -/

/-- The HostHello with the keys the host draws n-th. -/
def hostHelloOf (hostCoins : Nat → Coins c) (n : Nat) : HostHello c where
  hostSigner := c.xdsaPublicKey (c.xdsaGenerate (hostCoins n).first)
  hostCrypto := c.xhpkePublicKey (c.xhpkeGenerate (hostCoins n).second)

/-- The key the Ark draws n-th. -/
def arkKey (arkCoins : Nat → Coins c) (n : Nat) : c.XhpkeSecretKey := c.xhpkeGenerate (arkCoins n).first

/-- Nothing the two sides call in a handshake fails and every packet of it fits a frame, for so many draws of each. -/
structure Able (cobs : Cobs) (maxFrameSize : Nat) (arkCoins hostCoins : Nat → Coins c) (signer : c.XdsaSecretKey)
    (A : Type) [Attester c A] (arkDraws hostDraws : Nat) : Prop where
  hello : ∀ n < hostDraws, ∃ packet frame, c.cborEncode (hostHelloOf hostCoins n).toCbor = .ok packet ∧
    frameOf cobs maxFrameSize packet = .ok frame
  answer : ∀ m < arkDraws, ∀ n < hostDraws, ∀ side : ArkSide c A (Framing cobs maxFrameSize), side.signer = signer →
    side.CanAnswer cobs maxFrameSize (arkCoins m) (hostHelloOf hostCoins n)
  opened : ∀ {payload aad key domain seed packet},
    c.coseSeal payload aad signer (c.xhpkePublicKey key) domain seed = .ok packet →
    ∃ sign1, c.coseDecrypt packet aad key domain = .ok sign1 ∧
      c.coseVerify sign1 aad (c.xdsaPublicKey signer) domain = .ok payload
  ack : ∀ m < arkDraws, ∀ n < hostDraws, ∀ k < hostDraws, ∃ sender encap packet frame,
    c.newSender (c.xhpkePublicKey (arkKey arkCoins m)) CRYPTO_DOMAIN_WIRE_HOST_TO_ARK (hostCoins k).first =
      .ok (sender, encap) ∧
    c.coseSeal (HostAck.toCbor { h2aEncap := encap })
      (HostAckAuth.toCbor (c := c)
        { arkSigner := c.xdsaPublicKey signer, arkCrypto := c.xhpkePublicKey (arkKey arkCoins m) })
      (c.xdsaGenerate (hostCoins n).first) (c.xhpkePublicKey (arkKey arkCoins m)) CRYPTO_DOMAIN_WIRE
      (hostCoins k).second = .ok packet ∧
    frameOf cobs maxFrameSize packet = .ok frame

/-- A verifier accepts whatever an Ark with this identity presents. -/
def Accepts (signer : c.XdsaSecretKey) (A : Type) [Attester c A] (verifier : Verifier c Info) : Prop :=
  ∀ attester : A, ∃ info, verifier (Attester.attest attester : Attestation c × A).1 = .ok (c.xdsaPublicKey signer, info)

/-- The locals of a `handshake` with the keys the host draws n-th, so many stale frames in. -/
def helloWaitOf (hostCoins : Nat → Coins c) (verifier : Verifier c Info) (n stale : Nat) : HelloWait c Info where
  verifier := verifier
  hostXdsaSk := c.xdsaGenerate (hostCoins n).first
  hostXhpkeSk := c.xhpkeGenerate (hostCoins n).second
  stale := stale

omit [Attester c A] in
@[simp] theorem helloWaitOf_hostHello (hostCoins : Nat → Coins c) (verifier : Verifier c Info) (n stale : Nat) :
    (helloWaitOf hostCoins verifier n stale).hostHello = hostHelloOf hostCoins n := rfl

theorem Attestation.new_cwt (attestation : Attestation c) : Attestation.new c attestation.cwt = .ok attestation := by
  rw [Attestation.new, dif_pos attestation.shape]

variable {arkCoins hostCoins : Nat → Coins c} {signer : c.XdsaSecretKey} {arkDraws hostDraws : Nat}

theorem Able.accepts (hable : Able cobs maxFrameSize arkCoins hostCoins signer A arkDraws hostDraws) (hc : c.Correct)
    {m n k : Nat} (stale : Nat) (hm : m < arkDraws) (hn : n < hostDraws) (hk : k < hostDraws)
    {side : ArkSide c A (Framing cobs maxFrameSize)} (hsigner : side.signer = signer) {packet answer : List UInt8}
    {wait : AckWait c} {arkHello : ArkHello c} (hanswers : ArkSide.Answers (arkCoins m) side packet wait arkHello answer)
    (hhello : wait.hostHello = hostHelloOf hostCoins n) {verifier : Verifier c Info}
    (haccepts : Accepts signer A verifier) :
    ∃ verified session ack frame,
      (helloWaitOf hostCoins verifier n stale).answer (hostCoins k) answer = .ok (verified, session, ack) ∧
        frameOf cobs maxFrameSize ack = .ok frame := by
  obtain ⟨info, hinfo⟩ := haccepts side.attester
  obtain ⟨hostSender, encap, ack, frame, hhostSender, hack, hframe⟩ := hable.ack m hm n hn k hk
  have hsealed := hanswers.sealed
  have hsender := hanswers.sender
  rw [hhello] at hsender
  rw [hhello, hsigner] at hsealed
  obtain ⟨sign1, hdecrypt, hverify⟩ := hable.opened hsealed
  obtain ⟨hpeek, _⟩ := hc.coseDecrypt_seal hsealed hdecrypt
  obtain ⟨hsize, receiver, hreceiver⟩ := hc.newReceiver_newSender hsender
  have hcrypto : arkHello.arkCrypto = c.xhpkePublicKey (arkKey arkCoins m) := by
    rw [hanswers.crypto, hanswers.key]
    rfl
  have hattest : Attestation.new c arkHello.arkAttest =
      .ok (Attester.attest side.attester : Attestation c × A).1 := by
    rw [hanswers.attest, Attestation.new_cwt]
  have hread : (Except.ok arkHello.toCbor >>= ArkHello.ofCbor c) = .ok arkHello := ArkHello.ofCbor_toCbor hc arkHello
  have hopen : (helloWaitOf hostCoins verifier n stale).openHello answer =
      .ok { arkIdentity := c.xdsaPublicKey signer, info, arkHello } := by
    rw [HelloWait.openHello]
    dsimp only [helloWaitOf_hostHello]
    rw [show c.coseDecrypt answer _ (helloWaitOf hostCoins verifier n stale).hostXhpkeSk _ = _ from hdecrypt]
    dsimp only
    rw [hpeek, hread]
    dsimp only
    rw [hattest]
    dsimp only
    rw [show (helloWaitOf hostCoins verifier n stale).verifier _ = _ from hinfo]
    dsimp only
    rw [hverify, hread]
  have hcontexts : (helloWaitOf hostCoins verifier n stale).contexts (hostCoins k) arkHello =
      .ok ({ sender := hostSender, receiver }, encap) := by
    rw [HelloWait.contexts, if_pos hsize,
      show c.newReceiver (helloWaitOf hostCoins verifier n stale).hostXhpkeSk _ _ = _ from hreceiver]
    dsimp only
    rw [hcrypto, hhostSender]
  have hsealAck : (helloWaitOf hostCoins verifier n stale).sealAck (hostCoins k)
      { arkIdentity := c.xdsaPublicKey signer, info, arkHello } encap = .ok ack := by
    rw [HelloWait.sealAck]
    dsimp only
    rw [hcrypto, show c.coseSeal _ _ (helloWaitOf hostCoins verifier n stale).hostXdsaSk _ _ _ = _ from hack]
  refine ⟨{ arkIdentity := c.xdsaPublicKey signer, info, arkHello }, { sender := hostSender, receiver }, ack, frame, ?_,
    hframe⟩
  rw [HelloWait.answer, hopen]
  dsimp only
  rw [hcontexts]
  dsimp only
  rw [hsealAck]

/-! ### What an Ark owes -/

/-- Whether an Ark takes the next packet for a HostHello. -/
def atHello : Option (MessagePoint c) → Bool
  | some (.handshake .hello) => true
  | _ => false

/-- How many of the packets in front of an Ark it answers: those that come right behind an empty frame, each of them a
HostHello with keys the host drew below the bound. -/
inductive Owes (hostCoins : Nat → Coins c) (bound : Nat) : Bool → List (Option (List UInt8)) → Nat → Prop
  | nil {hello} : Owes hostCoins bound hello [] 0
  | reset {hello queue count} : Owes hostCoins bound true queue count → Owes hostCoins bound hello (none :: queue) count
  | other {packet queue count} : Owes hostCoins bound false queue count →
      Owes hostCoins bound false (some packet :: queue) count
  | hello {packet n queue count} : n < bound → HostHello.decode c packet = .ok (hostHelloOf hostCoins n) →
      Owes hostCoins bound false queue count → Owes hostCoins bound true (some packet :: queue) (count + 1)

/-- How often an Ark draws for a packet it takes. -/
def drawn (point : MessagePoint c) : Option (List UInt8) → Nat
  | none => 0
  | some _ => (atHello (some point)).toNat

namespace Owes

variable {bound bound' count : Nat} {hello : Bool} {queue : List (Option (List UInt8))} {packet : List UInt8} {n : Nat}

theorem mono (h : Owes hostCoins bound hello queue count) (hle : bound ≤ bound') :
    Owes hostCoins bound' hello queue count := by
  induction h with
  | nil => exact .nil
  | reset _ ih => exact .reset ih
  | other _ ih => exact .other ih
  | hello hn hdecode _ ih => exact .hello (lt_of_lt_of_le hn hle) hdecode ih

theorem greet (h : Owes hostCoins bound hello queue count) (hn : n < bound)
    (hdecode : HostHello.decode c packet = .ok (hostHelloOf hostCoins n)) :
    Owes hostCoins bound hello (queue ++ [none, none, some packet]) (count + 1) := by
  induction h with
  | nil => exact .reset (.reset (.hello hn hdecode .nil))
  | reset _ ih => exact .reset ih
  | other _ ih => exact .other ih
  | hello hn' hdecode' _ ih => exact .hello hn' hdecode' ih

theorem pos_of_greeted {before : List (Option (List UInt8))}
    (h : Owes hostCoins bound hello (before ++ [none, some packet]) count) : 0 < count := by
  generalize hqueue : before ++ [none, some packet] = queue at h
  induction h generalizing before with
  | nil => simp at hqueue
  | hello => exact Nat.succ_pos _
  | reset hrest ih =>
      rcases before with _ | ⟨head, before⟩
      · obtain ⟨_, rfl⟩ := List.cons.inj hqueue
        cases hrest
        exact Nat.succ_pos _
      · obtain ⟨_, hqueue⟩ := List.cons.inj hqueue
        exact ih hqueue
  | other _ ih =>
      rcases before with _ | ⟨head, before⟩
      · cases hqueue
      · obtain ⟨_, hqueue⟩ := List.cons.inj hqueue
        exact ih hqueue

theorem behind_reset (h : Owes hostCoins bound hello (none :: queue) count) : Owes hostCoins bound true queue count := by
  cases h with
  | reset hrest => exact hrest

theorem behind_other (h : Owes hostCoins bound false (some packet :: queue) count) :
    Owes hostCoins bound false queue count := by
  cases h with
  | other hrest => exact hrest

theorem behind_hello (h : Owes hostCoins bound true (some packet :: queue) count) :
    (∃ n, n < bound ∧ HostHello.decode c packet = .ok (hostHelloOf hostCoins n)) ∧
      ∃ count', count' + 1 = count ∧ Owes hostCoins bound false queue count' := by
  cases h with
  | hello hn hdecode hrest => exact ⟨⟨_, hn, hdecode⟩, _, rfl, hrest⟩

/-- What an Ark takes is paid for with what it sends, if it answers the HostHellos. -/
theorem taken {p p' : ArkProc c proto A cobs maxFrameSize} {point : MessagePoint c} {packet : Option (List UInt8)}
    {sent : List (Option (List UInt8))} (h : Owes hostCoins bound (atHello (some point)) (packet :: queue) count)
    (hpolled : p.Polled arkCoins p' point packet sent)
    (hanswers : point = .handshake .hello → packet ≠ none → p'.call.map Prod.fst ≠ some .packet) :
    ∃ count', Owes hostCoins bound (atHello (p'.call.map Prod.fst)) queue count' ∧ count' + sent.length = count ∧
      sent.length = drawn point packet := by
  cases hpolled with
  | toHello hleft =>
      rw [hleft.point]
      exact ⟨count, h.behind_reset, rfl, rfl⟩
  | opened _ _ hleft =>
      rw [hleft.point]
      exact ⟨count, behind_other h, rfl, rfl⟩
  | accepted _ _ hleft =>
      rw [hleft.point]
      exact ⟨count, behind_other h, rfl, rfl⟩
  | answered _ hleft =>
      obtain ⟨_, count', hcount, hrest⟩ := behind_hello h
      rw [hleft.point]
      exact ⟨count', hrest, hcount, rfl⟩
  | dropped hdrops hleft =>
      rw [hleft.point]
      cases hdrops with
      | refused => exact absurd hleft.point (hanswers rfl (by simp))
      | junk => exact ⟨count, behind_other h, rfl, rfl⟩
      | broken => exact ⟨count, behind_other h, rfl, rfl⟩
      | rejected => exact ⟨count, behind_other h, rfl, rfl⟩

end Owes

/-! ### The Ark's polls -/

theorem ArkSide.Step.draws {T : Type} [Transport T (List UInt8)] {coins : Coins c} {side side' : ArkSide c A T}
    {point : MessagePoint c} {packet : Option (List UInt8)} {flow : Flow (MessagePoint c) proto.HostToArk}
    (hstep : ArkSide.Step proto coins side point (.ok packet) flow side') :
    side'.draws = side.draws + drawn point packet := by
  cases hstep with
  | refused hsame => exact hsame.draws
  | answered hsame => exact hsame.draws
  | unanswered hsame => exact hsame.draws
  | _ => rfl

namespace ArkProc

variable {coins : Nat → Coins c} {p : ArkProc c proto A cobs maxFrameSize} {discard : Nat}

theorem poll_answers (hcobs : cobs.Lawful) (hcall : p.call = some (.handshake .hello, discard)) {packet : List UInt8}
    (hready : packetOf (p.side.framing.nextPacketLoop discard) = .ready (.ok (some packet)))
    (hwf : (p.side.framing.nextPacketLoop discard).2.Wf)
    (hplan : (p.side.framing.nextPacketLoop discard).2.writer.plan = []) {hello : HostHello c}
    (hdecode : HostHello.decode c packet = .ok hello)
    (hanswer : p.side.CanAnswer cobs maxFrameSize (coins p.side.draws) hello) :
    (p.step coins .poll).call.map Prod.fst ≠ some .packet := by
  obtain ⟨wait, arkHello, answer, frame, hanswers, _, hframe⟩ := hanswer.answers hdecode
  obtain ⟨flow, side, hstep, hsettle⟩ := poll_ready coins p (.handshake .hello) hready
  rw [step_poll hcall, hsettle]
  cases hstep with
  | refused _ _ hnone => exact (hnone wait arkHello answer (hanswers.congr rfl rfl)).elim
  | unanswered _ hother hsend =>
      obtain ⟨_, _, rfl⟩ := hother.unique (hanswers.congr rfl rfl)
      have hsent := (sendPacket_healthy hcobs hwf hplan hframe).1
      have hfailed : Framing.sendPacket _ _ = _ := hsend
      rw [hfailed] at hsent
      cases hsent
  | answered => simp [settle]

end ArkProc

namespace Link

variable {hpke : Contexts c} {l l' : Link c proto A Info cobs maxFrameSize}
  {arkQueue hostQueue : List (Option (List UInt8))}

theorem Holds.arkPolled (hcobs : cobs.Lawful) (h : Holds hpke arkCoins hostCoins l arkQueue hostQueue)
    {point : MessagePoint c} {discard : Nat} (hcall : l.ark.call = some (point, discard)) :
    let l' := l.step arkCoins hostCoins .arkPoll
    ((∃ discard', packetOf (l.ark.side.framing.nextPacketLoop discard) = .pending discard') ∧
        l.ark.Left l'.ark l.ark.side.session (some point) l.ark.history ∧ l'.ark.side.draws = l.ark.side.draws ∧
        Holds hpke arkCoins hostCoins l' arkQueue hostQueue) ∨
      ∃ packet rest sent, arkQueue = packet :: rest ∧ l.ark.Polled arkCoins l'.ark point packet sent ∧
        l'.ark.side.draws = l.ark.side.draws + drawn point packet ∧
        (∀ taken hello, point = .handshake .hello → packet = some taken → HostHello.decode c taken = .ok hello →
          l.ark.side.CanAnswer cobs maxFrameSize (arkCoins l.ark.side.draws) hello →
          l'.ark.call.map Prod.fst ≠ some .packet) ∧
        Holds hpke arkCoins hostCoins l' rest (hostQueue ++ sent) := by
  intro l'
  have hnext := h.ark_step hcobs .poll
  obtain ⟨e, _, habstracts⟩ := h.ark
  have hqueue := h.arkQueue
  rw [ArkProc.discard, hcall] at hqueue
  obtain ⟨hwriter, ⟨discard', hpending, hafter⟩ | ⟨packet, rest, hready, rfl, hafter⟩⟩ := hqueue.poll
  · have hstay : l.ark.step arkCoins .poll = { l.ark with
        side := { l.ark.side with framing := (l.ark.side.framing.nextPacketLoop discard).2 }
        call := some (point, discard') } := by
      rw [ArkProc.step_poll hcall, ArkProc.poll_pending arkCoins l.ark point hpending]
    refine Or.inl ⟨⟨discard', hpending⟩, ?_, ?_, ?_⟩
    · change l.ark.Left (l.ark.step arkCoins .poll) _ _ _
      rw [hstay]
      exact ⟨rfl, rfl, rfl, rfl⟩
    · change (l.ark.step arkCoins .poll).side.draws = _
      rw [hstay]
    · rw [← List.append_nil hostQueue]
      refine h.ark_moved hnext ?_ ?_
      · rw [hstay]
        exact hafter
      · rw [hstay]
        exact .nothing hwriter h.arkPlan
  · obtain ⟨sent, hpolled, hdiscard, hwf, hsame, hwrote⟩ :=
      ArkProc.poll_taken hcobs habstracts h.arkPlan hcall hready hwriter hafter.wf.toWf
    have hqueue' := hafter.sameReceiver hsame hwf
    rw [← hdiscard] at hqueue'
    refine Or.inr ⟨packet, rest, sent, rfl, hpolled, ?_, ?_, h.ark_moved hnext hqueue' hwrote⟩
    · obtain ⟨_, side, hstep, hsettle⟩ := ArkProc.poll_ready arkCoins l.ark point hready
      change (l.ark.step arkCoins .poll).side.draws = _
      rw [ArkProc.step_poll hcall, hsettle, ArkProc.settle_side]
      exact hstep.draws
    · rintro taken hello rfl rfl hdecode hanswer
      exact ArkProc.poll_answers hcobs hcall hready hafter.wf.toWf (by rw [hwriter, h.arkPlan]) hdecode hanswer

end Link

/-! ### The host's polls -/

namespace HostProc

variable {coins : Nat → Coins c} {p : HostProc c proto Info cobs maxFrameSize} {wait : HelloWait c Info} {discard : Nat}
  {packet : Option (List UInt8)}

/-- The packet a poll takes off the stream, if it takes one. -/
def takes (p : HostProc c proto Info cobs maxFrameSize) : List (Option (List UInt8)) :=
  match p.call with
  | none => []
  | some (_, discard) =>
    match packetOf (p.side.framing.nextPacketLoop discard) with
    | .ready (.ok packet) => [packet]
    | _ => []

omit [Attester c A] in
theorem takes_ready {call : HostCall c Info} (hcall : p.call = some (call, discard))
    (hready : packetOf (p.side.framing.nextPacketLoop discard) = .ready (.ok packet)) : p.takes = [packet] := by
  rw [takes, hcall]
  dsimp only
  rw [hready]

omit [Attester c A] in
theorem takes_pending {call : HostCall c Info} (hcall : p.call = some (call, discard)) {discard' : Nat}
    (hpending : packetOf (p.side.framing.nextPacketLoop discard) = .pending discard') : p.takes = [] := by
  rw [takes, hcall]
  dsimp only
  rw [hpending]

omit [Attester c A] in
theorem poll_finds (coins : Nat → Coins c) (hcobs : cobs.Lawful) (hcall : p.call = some (.handshake wait, discard))
    (hready : packetOf (p.side.framing.nextPacketLoop discard) = .ready (.ok packet)) (hours : wait.Ours packet)
    (hwf : (p.side.framing.nextPacketLoop discard).2.Wf)
    (hplan : (p.side.framing.nextPacketLoop discard).2.writer.plan = []) {verified : Verified c Info} {session : Session c}
    {ack frame : List UInt8}
    (hanswer : wait.answer (coins p.side.draws) (packet.getD c.empty) = .ok (verified, session, ack))
    (hframe : frameOf cobs maxFrameSize ack = .ok frame) :
    ∃ framing, Transport.sendPacket (p.side.framing.nextPacketLoop discard).2 ack = (.ok (), framing) ∧
      (p.step coins .poll).side = { framing, session := some session, draws := p.side.draws + 1 } ∧
      (p.step coins .poll).call = none ∧ p.outcome coins .poll = some (.handshake (.ok verified.info)) := by
  obtain ⟨flow, side, hstep, hafter, houtcome⟩ := poll_settles coins hcall hready
  rw [hafter, houtcome]
  cases hstep with
  | skipped hother => exact absurd hours hother
  | gaveUp hother => exact absurd hours hother
  | rejected _ hrejected =>
      rw [hrejected] at hanswer
      cases hanswer
  | unanswered _ hanswered hsend =>
      have hsame := hanswered.symm.trans hanswer
      obtain ⟨rfl, hrest⟩ := Prod.mk.inj (Except.ok.inj hsame)
      obtain ⟨rfl, rfl⟩ := Prod.mk.inj hrest
      have hsent := (sendPacket_healthy hcobs hwf hplan hframe).1
      cases (congrArg Prod.fst hsend).symm.trans hsent
  | answered _ hanswered hsend =>
      have hsame := hanswered.symm.trans hanswer
      obtain ⟨rfl, hrest⟩ := Prod.mk.inj (Except.ok.inj hsame)
      obtain ⟨rfl, rfl⟩ := Prod.mk.inj hrest
      exact ⟨_, hsend, rfl, rfl, rfl⟩

end HostProc

/-! ### Attempts -/

/-- What is noted of an attempt: which of the host's draws gave its keys, and the packets taken in it. -/
structure Try where
  draw : Nat
  taken : List (Option (List UInt8))

/-- An attempt that came to its end, and the link it left. -/
structure Attempt (c : Crypto (List UInt8)) (proto : Protocol (List UInt8)) (A Info : Type) (cobs : Cobs)
    (maxFrameSize : Nat) extends Try where
  result : Except Error Info
  left : Link c proto A Info cobs maxFrameSize

/-- The actions of a host that only calls `handshake`, with verifiers that accept the Ark, and of an Ark that sends no
messages. -/
def LinkAction.Retries (signer : c.XdsaSecretKey) (A : Type) [Attester c A] : LinkAction c proto Info → Prop
  | .hostHandshake verifier => Accepts signer A verifier
  | .arkSendMessage _ => False
  | .hostNextMessage => False
  | .hostSendMessage _ => False
  | _ => True

namespace Link

variable {hpke : Contexts c} {l l' : Link c proto A Info cobs maxFrameSize}
  {arkQueue hostQueue : List (Option (List UInt8))}

/-- What an action adds to the notes of the attempt under way. -/
def follow (l : Link c proto A Info cobs maxFrameSize) (attempt : Try) : LinkAction c proto Info → Try
  | .hostHandshake _ =>
    match l.host.call with
    | none => { draw := l.host.side.draws, taken := [] }
    | some _ => attempt
  | .hostPoll => { attempt with taken := attempt.taken ++ l.host.takes }
  | _ => attempt

/-- What the host's `handshake` returns to its caller at an action. -/
def shaken (hostCoins : Nat → Coins c) (l : Link c proto A Info cobs maxFrameSize) :
    LinkAction c proto Info → Option (Except Error Info)
  | .hostHandshake verifier =>
    match l.host.outcome hostCoins (.handshake verifier) with
    | some (.handshake result) => some result
    | _ => none
  | .hostPoll =>
    match l.host.outcome hostCoins .poll with
    | some (.handshake result) => some result
    | _ => none
  | _ => none

/-- The attempts that come to their end in a run, in order. -/
def attempts (arkCoins hostCoins : Nat → Coins c) (l : Link c proto A Info cobs maxFrameSize) (attempt : Try) :
    List (LinkAction c proto Info) → List (Attempt c proto A Info cobs maxFrameSize)
  | [] => []
  | action :: actions =>
    let rest := (l.step arkCoins hostCoins action).attempts arkCoins hostCoins (l.follow attempt action) actions
    match l.shaken hostCoins action with
    | none => rest
    | some result => { l.follow attempt action with result, left := l.step arkCoins hostCoins action } :: rest

/-! ### Between the attempts and in them -/

/-- How many attempts a backlog takes: as many as its frames fill, of which each skips so many, and one at least. -/
def attemptsFor (size : Nat) : Nat := max 1 ((size + (MAX_STALE_FRAMES - 1)) / MAX_STALE_FRAMES)

theorem lt_attemptsFor {size tries : Nat} (h : MAX_STALE_FRAMES * tries + (MAX_STALE_FRAMES + 1) ≤ size) :
    tries + 1 < attemptsFor size := by
  rw [attemptsFor]
  simp only [MAX_STALE_FRAMES] at h ⊢
  omega

theorem attemptsFor_le {size tries : Nat} (h : size ≤ MAX_STALE_FRAMES * tries + MAX_STALE_FRAMES) :
    attemptsFor size ≤ tries + 1 := by
  rw [attemptsFor]
  simp only [MAX_STALE_FRAMES] at h ⊢
  omega

/-- What holds all along a run of attempts: nothing on its way concerns keys the host draws later, of so many draws, and the
Ark owes so many answers. The Ark drew no more often than the host, but for what either drew before. -/
structure Draining (hostCoins : Nat → Coins c) (hostDraws : Nat) (signer : c.XdsaSecretKey) (first spare : Nat)
    (l : Link c proto A Info cobs maxFrameSize) (arkQueue hostQueue : List (Option (List UInt8))) (count : Nat) : Prop where
  signer : l.ark.side.signer = signer
  begun : first ≤ l.host.side.draws
  names : ∀ entry ∈ hostQueue, ∀ n, l.host.side.draws ≤ n → n < hostDraws → ¬ Names hostCoins n (entry.getD c.empty)
  greets : ∀ packet, some packet ∈ arkQueue → ∀ n, l.host.side.draws ≤ n → n < hostDraws → ¬ Greets hostCoins n packet
  empties : none ∈ hostQueue → ∀ n, first ≤ n → ¬ Names hostCoins n c.empty
  owes : Owes hostCoins l.host.side.draws (atHello (l.ark.call.map Prod.fst)) arkQueue count
  draws : l.ark.side.draws + count ≤ spare + l.host.side.draws

/-- The host is in an attempt that began with this backlog: its HostHello is on its way or its ArkHello is. -/
structure Trying (arkCoins hostCoins : Nat → Coins c) (signer : c.XdsaSecretKey) (first : Nat)
    (l : Link c proto A Info cobs maxFrameSize) (arkQueue hostQueue : List (Option (List UInt8))) (count left : Nat)
    (attempt : Try) : Prop where
  call : ∃ verifier, Accepts signer A verifier ∧ l.host.call.map Prod.fst =
    some (.handshake (helloWaitOf hostCoins verifier attempt.draw attempt.taken.length))
  session : l.host.side.session = none
  fresh : first ≤ attempt.draw
  draw : attempt.draw < l.host.side.draws
  limit : attempt.taken.length ≤ MAX_STALE_FRAMES
  stale : ∀ entry ∈ attempt.taken, ¬ Names hostCoins attempt.draw (entry.getD c.empty)
  awaiting : ∃ hello, HostHello.decode c hello = .ok (hostHelloOf hostCoins attempt.draw) ∧
    Awaiting hostCoins attempt.draw (hostHelloOf hostCoins attempt.draw) hello l.ark arkQueue hostQueue
  asked : arkQueue ≠ [] ∨ ∃ m side packet wait arkHello answer, m < l.ark.side.draws ∧
    ArkSide.Answers (T := Framing cobs maxFrameSize) (A := A) (arkCoins m) side packet wait arkHello answer ∧
    side.signer = signer ∧ wait.hostHello = hostHelloOf hostCoins attempt.draw ∧ some answer ∈ hostQueue
  backlog : hostQueue.length + count + attempt.taken.length = left + 1

/-- The k-th attempt behind a backlog, as it ends: it gives up on the Ark with the first frame beyond the limit, or it
skips what is in front of its own ArkHello, the Ark's answer to its HostHello, and accepts that. -/
inductive Ends (arkCoins hostCoins : Nat → Coins c) (size k : Nat) (attempt : Attempt c proto A Info cobs maxFrameSize) : Prop
  | gaveUp : k + 1 < attemptsFor size →
      attempt.result = .error (.handshakeFailed "too many stale frames before ark hello") →
      attempt.taken.length = MAX_STALE_FRAMES + 1 →
      (∀ entry ∈ attempt.taken, ¬ Names hostCoins attempt.draw (entry.getD c.empty)) →
      attempt.left.host.side.session = none → attempt.left.host.call = none → Ends arkCoins hostCoins size k attempt
  | found {info stale arkHelloPacket m side packet wait arkHello} : attemptsFor size ≤ k + 1 → attempt.result = .ok info →
      attempt.taken = stale ++ [some arkHelloPacket] → stale.length ≤ MAX_STALE_FRAMES →
      (∀ entry ∈ stale, ¬ Names hostCoins attempt.draw (entry.getD c.empty)) →
      Names hostCoins attempt.draw arkHelloPacket →
      ArkSide.Answers (T := Framing cobs maxFrameSize) (A := A) (arkCoins m) side packet wait arkHello arkHelloPacket →
      wait.hostHello = hostHelloOf hostCoins attempt.draw → attempt.left.host.side.session ≠ none →
      attempt.left.host.call = none → Ends arkCoins hostCoins size k attempt

/-! ### The Ark goes on -/

variable {first spare count left : Nat} {attempt : Try} {p p' : ArkProc c proto A cobs maxFrameSize}
  {point : MessagePoint c} {packet : Option (List UInt8)} {sent : List (Option (List UInt8))}

theorem polled_signer (h : p.Polled arkCoins p' point packet sent) : p'.side.signer = p.side.signer := by
  cases h with
  | opened _ _ hleft => exact hleft.signer
  | toHello hleft => exact hleft.signer
  | dropped _ hleft => exact hleft.signer
  | answered _ hleft => exact hleft.signer
  | accepted _ _ hleft => exact hleft.signer

/-- The last packet in front of an Ark while the host waits is its HostHello, and the Ark answers it. -/
theorem Awaiting.answers_last {n : Nat} {hostHello : HostHello c} {hello : List UInt8}
    (h : Awaiting hostCoins n hostHello hello p [packet] hostQueue) (hdecode : HostHello.decode c hello = .ok hostHello)
    (hpoint : p.call.map Prod.fst = some point) (hpolled : p.Polled arkCoins p' point packet sent)
    (hserved : point = .handshake .hello → packet ≠ none → p'.call.map Prod.fst ≠ some .packet) :
    drawn point packet = 1 ∧ ∃ wait arkHello answer,
      ArkSide.Answers (arkCoins p.side.draws) p.side hello wait arkHello answer ∧ wait.hostHello = hostHello ∧
        sent = [some answer] := by
  generalize hqueue : [packet] = queue at h
  cases h with
  | behind =>
      have hlength := congrArg List.length hqueue
      simp at hlength
  | reset => cases hqueue
  | next hwait =>
      obtain ⟨rfl, _⟩ := List.cons.inj hqueue
      obtain rfl := Option.some.inj (hwait.symm.trans hpoint)
      cases hpolled with
      | dropped _ hleft => exact absurd hleft.point (hserved rfl (by simp))
      | answered hanswers => exact ⟨rfl, _, _, _, hanswers, Except.ok.inj (hanswers.decode.symm.trans hdecode), rfl⟩
  | answered => cases hqueue
  | refused => cases hqueue

theorem Draining.takes (hc : c.Correct) (h : Draining hostCoins hostDraws signer first spare l (packet :: arkQueue) hostQueue count)
    (hpoint : l.ark.call.map Prod.fst = some point) (hpolled : l.ark.Polled arkCoins l'.ark point packet sent)
    (hhost : l'.host = l.host)
    (hdraws : l'.ark.side.draws = l.ark.side.draws + drawn point packet)
    (hserved : point = .handshake .hello → packet ≠ none → l'.ark.call.map Prod.fst ≠ some .packet) :
    ∃ count', Draining hostCoins hostDraws signer first spare l' arkQueue (hostQueue ++ sent) count' ∧
      count' + sent.length = count := by
  have howes := h.owes
  rw [hpoint] at howes
  obtain ⟨count', hrest, hcount, hpaid⟩ := howes.taken hpolled hserved
  have hnames := polled_names hostCoins hc hpolled
  have hsent : ∀ entry ∈ sent, ∃ answer, entry = some answer ∧
      ∀ n, l.host.side.draws ≤ n → n < hostDraws → ¬ Names hostCoins n answer := by
    intro entry hmem
    obtain ⟨answer, rfl, hgreets⟩ := hnames entry hmem
    refine ⟨answer, rfl, fun n hn hbound hnamed => ?_⟩
    obtain ⟨taken, rfl, htaken⟩ := hgreets n hnamed
    exact h.greets taken List.mem_cons_self n hn hbound htaken
  refine ⟨count', ⟨(polled_signer hpolled).trans h.signer, ?_, ?_, ?_, ?_, ?_, ?_⟩, hcount⟩
  · rw [hhost]
    exact h.begun
  · intro entry hmem n hn
    rw [hhost] at hn
    rcases List.mem_append.mp hmem with hmem | hmem
    · exact h.names entry hmem n hn
    · obtain ⟨answer, rfl, hanswer⟩ := hsent entry hmem
      exact hanswer n hn
  · intro taken hmem n hn
    rw [hhost] at hn
    exact h.greets taken (List.mem_cons_of_mem _ hmem) n hn
  · intro hnone
    apply h.empties
    rcases List.mem_append.mp hnone with hmem | hmem
    · exact hmem
    · obtain ⟨_, hsome, _⟩ := hsent none hmem
      cases hsome
  · rw [hhost]
    exact hrest
  · have hbefore := h.draws
    rw [hhost]
    omega

/-- An Ark that may draw as often as the host still can answers every HostHello it takes. -/
theorem Draining.canAnswer (hable : Able cobs maxFrameSize arkCoins hostCoins signer A arkDraws hostDraws)
    (h : Draining hostCoins hostDraws signer first spare l (packet :: arkQueue) hostQueue count)
    (hhostDraws : l.host.side.draws ≤ hostDraws) (harkDraws : spare + l.host.side.draws ≤ arkDraws)
    (hpoint : l.ark.call.map Prod.fst = some (.handshake .hello)) {taken : List UInt8} (hpacket : packet = some taken) :
    ∃ hello, HostHello.decode c taken = .ok hello ∧
      l.ark.side.CanAnswer cobs maxFrameSize (arkCoins l.ark.side.draws) hello := by
  subst hpacket
  have howes := h.owes
  rw [hpoint] at howes
  obtain ⟨⟨n, hn, hdecode⟩, count', hcount, _⟩ := Owes.behind_hello howes
  have hdraws := h.draws
  exact ⟨_, hdecode, hable.answer _ (by omega) n (by omega) _ h.signer⟩

theorem Trying.ark_takes (h : Trying arkCoins hostCoins signer first l (packet :: arkQueue) hostQueue count left attempt)
    (hc : c.Correct) (hsigner : l.ark.side.signer = signer) (hpoint : l.ark.call.map Prod.fst = some point)
    (hpolled : l.ark.Polled arkCoins l'.ark point packet sent) (hhost : l'.host = l.host)
    (hdraws : l'.ark.side.draws = l.ark.side.draws + drawn point packet)
    (hserved : point = .handshake .hello → packet ≠ none → l'.ark.call.map Prod.fst ≠ some .packet)
    {count' : Nat} (hcount : count' + sent.length = count) :
    Trying arkCoins hostCoins signer first l' arkQueue (hostQueue ++ sent) count' left attempt := by
  obtain ⟨hello, hdecode, hawaiting⟩ := h.awaiting
  refine ⟨by rw [hhost]; exact h.call, by rw [hhost]; exact h.session, h.fresh, by rw [hhost]; exact h.draw, h.limit,
    h.stale, ⟨hello, hdecode, hawaiting.takes hc hdecode hpoint hpolled⟩, ?_, ?_⟩
  · by_cases hlast : arkQueue = []
    · subst hlast
      obtain ⟨hdrew, wait, arkHello, answer, hanswers, hhello, rfl⟩ := hawaiting.answers_last hdecode hpoint hpolled hserved
      exact Or.inr ⟨_, _, _, wait, arkHello, answer, by omega, hanswers, hsigner, hhello, by simp⟩
    · exact Or.inl hlast
  · have hbacklog := h.backlog
    rw [List.length_append]
    omega

/-! ### One action -/

/-- What an action leaves alone that takes nothing and writes nothing. -/
structure Stays (l l' : Link c proto A Info cobs maxFrameSize) : Prop where
  hostCall : l'.host.call.map Prod.fst = l.host.call.map Prod.fst
  hostSession : l'.host.side.session = l.host.side.session
  hostDraws : l'.host.side.draws = l.host.side.draws
  arkCall : l.ark.call.map Prod.fst = l'.ark.call.map Prod.fst ∨ l.ark.call = none ∧ l'.ark.call.map Prod.fst = some .packet
  arkDraws : l'.ark.side.draws = l.ark.side.draws
  ark : l.ark.Left l'.ark l.ark.side.session (l'.ark.call.map Prod.fst) l.ark.history

omit [Attester c A] in
theorem Draining.stays (h : Draining hostCoins hostDraws signer first spare l arkQueue hostQueue count) (hstays : Stays l l') :
    Draining hostCoins hostDraws signer first spare l' arkQueue hostQueue count := by
  have hplace : atHello (l'.ark.call.map Prod.fst) = atHello (l.ark.call.map Prod.fst) := by
    rcases hstays.arkCall with hsame | ⟨hnone, hpacket⟩
    · rw [hsame]
    · rw [hpacket, hnone]
      rfl
  refine ⟨hstays.ark.signer.trans h.signer, ?_, ?_, ?_, h.empties, ?_, ?_⟩
  · rw [hstays.hostDraws]
    exact h.begun
  · rw [hstays.hostDraws]
    exact h.names
  · rw [hstays.hostDraws]
    exact h.greets
  · rw [hplace, hstays.hostDraws]
    exact h.owes
  · rw [hstays.arkDraws, hstays.hostDraws]
    exact h.draws

theorem Trying.stays (h : Trying arkCoins hostCoins signer first l arkQueue hostQueue count left attempt)
    (hstays : Stays l l') : Trying arkCoins hostCoins signer first l' arkQueue hostQueue count left attempt := by
  obtain ⟨hello, hdecode, hawaiting⟩ := h.awaiting
  refine ⟨?_, hstays.hostSession.trans h.session, h.fresh, ?_, h.limit, h.stale, ⟨hello, hdecode, ?_⟩, ?_, h.backlog⟩
  · rw [hstays.hostCall]
    exact h.call
  · rw [hstays.hostDraws]
    exact h.draw
  · exact hawaiting.stays hstays.arkCall hstays.ark
  · rw [hstays.arkDraws]
    exact h.asked

/-- Where a run of attempts is, with so many of them over and these notes of the one under way: between two attempts, or
in one. The backlog shrank by `MAX_STALE_FRAMES` with each attempt. -/
inductive Stands (hpke : Contexts c) (arkCoins hostCoins : Nat → Coins c) (hostDraws : Nat) (signer : c.XdsaSecretKey)
    (first spare size tries : Nat) (attempt : Try) (l : Link c proto A Info cobs maxFrameSize)
    (arkQueue hostQueue : List (Option (List UInt8))) (count : Nat) : Prop
  | rests : Holds hpke arkCoins hostCoins l arkQueue hostQueue →
      Draining hostCoins hostDraws signer first spare l arkQueue hostQueue count → l.host.call = none →
      hostQueue.length + count = size - MAX_STALE_FRAMES * tries →
      Stands hpke arkCoins hostCoins hostDraws signer first spare size tries attempt l arkQueue hostQueue count
  | tries : Holds hpke arkCoins hostCoins l arkQueue hostQueue →
      Draining hostCoins hostDraws signer first spare l arkQueue hostQueue count →
      Trying arkCoins hostCoins signer first l arkQueue hostQueue count (size - MAX_STALE_FRAMES * tries) attempt →
      Stands hpke arkCoins hostCoins hostDraws signer first spare size tries attempt l arkQueue hostQueue count

variable {size tries : Nat}

theorem Stands.holds (h : Stands hpke arkCoins hostCoins hostDraws signer first spare size tries attempt l arkQueue hostQueue count) :
    Holds hpke arkCoins hostCoins l arkQueue hostQueue := by
  cases h with
  | rests hholds => exact hholds
  | tries hholds => exact hholds

theorem Stands.draining
    (h : Stands hpke arkCoins hostCoins hostDraws signer first spare size tries attempt l arkQueue hostQueue count) :
    Draining hostCoins hostDraws signer first spare l arkQueue hostQueue count := by
  cases h with
  | rests _ hdraining => exact hdraining
  | tries _ hdraining => exact hdraining

theorem Stands.stays
    (h : Stands hpke arkCoins hostCoins hostDraws signer first spare size tries attempt l arkQueue hostQueue count)
    (hstays : Stays l l') (hholds : Holds hpke arkCoins hostCoins l' arkQueue hostQueue) :
    Stands hpke arkCoins hostCoins hostDraws signer first spare size tries attempt l' arkQueue hostQueue count := by
  cases h with
  | rests _ hdraining hcall hbacklog =>
      refine .rests hholds (hdraining.stays hstays) ?_ hbacklog
      have hsame := hstays.hostCall
      rw [hcall] at hsame
      exact Option.map_eq_none_iff.mp hsame
  | tries _ hdraining htrying => exact .tries hholds (hdraining.stays hstays) (htrying.stays hstays)

theorem Stands.ark_takes (hc : c.Correct)
    (hable : Able cobs maxFrameSize arkCoins hostCoins signer A arkDraws hostDraws)
    (h : Stands hpke arkCoins hostCoins hostDraws signer first spare size tries attempt l (packet :: arkQueue) hostQueue count)
    (hhostDraws : l.host.side.draws ≤ hostDraws) (harkDraws : spare + l.host.side.draws ≤ arkDraws)
    (hpoint : l.ark.call.map Prod.fst = some point) (hpolled : l.ark.Polled arkCoins l'.ark point packet sent)
    (hhost : l'.host = l.host) (hdraws : l'.ark.side.draws = l.ark.side.draws + drawn point packet)
    (hanswers : ∀ taken hello, point = .handshake .hello → packet = some taken → HostHello.decode c taken = .ok hello →
      l.ark.side.CanAnswer cobs maxFrameSize (arkCoins l.ark.side.draws) hello → l'.ark.call.map Prod.fst ≠ some .packet)
    (hholds : Holds hpke arkCoins hostCoins l' arkQueue (hostQueue ++ sent)) :
    ∃ count', Stands hpke arkCoins hostCoins hostDraws signer first spare size tries attempt l' arkQueue (hostQueue ++ sent)
      count' := by
  have hserved : point = .handshake .hello → packet ≠ none → l'.ark.call.map Prod.fst ≠ some .packet := by
    rintro rfl hsome
    obtain ⟨taken, rfl⟩ := Option.ne_none_iff_exists'.mp hsome
    obtain ⟨hello, hdecode, hanswer⟩ := h.draining.canAnswer hable hhostDraws harkDraws hpoint rfl
    exact hanswers taken hello rfl rfl hdecode hanswer
  obtain ⟨count', hdraining, hcount⟩ := h.draining.takes hc hpoint hpolled hhost hdraws hserved
  refine ⟨count', ?_⟩
  cases h with
  | rests _ _ hcall hbacklog =>
      refine .rests hholds hdraining (hhost ▸ hcall) ?_
      rw [List.length_append]
      omega
  | tries _ hbefore htrying =>
      exact .tries hholds hdraining
        (htrying.ark_takes hc hbefore.signer hpoint hpolled hhost hdraws hserved hcount)

/-! ### The host goes on -/

theorem Holds.hostStarts (hcobs : cobs.Lawful) (h : Holds hpke arkCoins hostCoins l arkQueue hostQueue)
    (hcall : l.host.call = none) (verifier : Verifier c Info) {hello frame : List UInt8}
    (hencode : c.cborEncode (hostHelloOf hostCoins l.host.side.draws).toCbor = .ok hello)
    (hframe : frameOf cobs maxFrameSize hello = .ok frame) :
    let l' := l.step arkCoins hostCoins (.hostHandshake verifier)
    l'.host.call = some (.handshake (helloWaitOf hostCoins verifier l.host.side.draws 0), 0) ∧
      l'.host.side.session = none ∧ l'.host.side.draws = l.host.side.draws + 1 ∧ l'.ark = l.ark ∧
      l.host.outcome hostCoins (.handshake verifier) = none ∧
      Holds hpke arkCoins hostCoins l' (arkQueue ++ [none, none, some hello]) hostQueue := by
  intro l'
  have hnext := h.host_step hcobs (.handshake verifier)
  have hqueue := h.hostQueue
  rw [HostProc.discard, hcall] at hqueue
  have hf := hqueue.wf.toWf
  rcases hreset : l.host.side.framing.sendReset with ⟨result, framing⟩
  obtain ⟨_, hwf, hsame⟩ := sendReset_wire hf hreset
  obtain ⟨rfl, hwrote⟩ := Wrote.reset hf h.hostPlan hreset
  rcases hsend : framing.sendPacket hello with ⟨result, framing'⟩
  have hsent := (sendPacket_healthy hcobs hwf hwrote.plan hframe).1
  rw [hsend] at hsent
  obtain rfl : result = .ok () := hsent
  obtain ⟨_, hwf', hsame'⟩ := sendPacket_wire hcobs hwf hsend
  have hstart : l.host.side.handshakeStart (hostCoins l.host.side.draws) verifier =
      (.ok (helloWaitOf hostCoins verifier l.host.side.draws 0),
        { framing := framing', session := none, draws := l.host.side.draws + 1 }) := by
    rw [HostSide.handshakeStart]
    dsimp only
    rw [show Transport.sendReset l.host.side.framing = _ from hreset]
    dsimp only
    rw [show c.cborEncode (HelloWait.hostHello ⟨verifier, c.xdsaGenerate (hostCoins l.host.side.draws).first,
      c.xhpkeGenerate (hostCoins l.host.side.draws).second, 0⟩).toCbor = _ from hencode]
    dsimp only
    rw [show Transport.sendPacket framing hello = _ from hsend]
    rfl
  have hstep : l.host.step hostCoins (.handshake verifier) =
      { l.host with
        side := { framing := framing', session := none, draws := l.host.side.draws + 1 }
        call := some (.handshake (helloWaitOf hostCoins verifier l.host.side.draws 0), 0) } := by
    rw [HostProc.step, hcall]
    dsimp only
    rw [hstart]
  have hlink : l' = { l with host := _ } := congrArg (Link.mk _ · _ _) hstep
  rw [hstep] at hnext
  rw [hlink]
  refine ⟨rfl, rfl, rfl, rfl, ?_, h.host_moved hnext ?_ ?_⟩
  · rw [HostProc.outcome, hcall]
    dsimp only
    rw [hstart]
  · exact (hqueue.sameReceiver hsame hwf).sameReceiver hsame' hwf'
  · exact hwrote.trans (.packet hcobs hwf hwrote.plan hsend)

theorem Stands.starts (hcobs : cobs.Lawful) (hc : c.Correct) (htelling : Telling hostCoins hostDraws)
    (hable : Able cobs maxFrameSize arkCoins hostCoins signer A arkDraws hostDraws)
    (h : Stands hpke arkCoins hostCoins hostDraws signer first spare size tries attempt l arkQueue hostQueue count)
    (hhostDraws : l.host.side.draws < hostDraws) (hcall : l.host.call = none) {verifier : Verifier c Info}
    (haccepts : Accepts signer A verifier) :
    let l' := l.step arkCoins hostCoins (.hostHandshake verifier)
    l.shaken hostCoins (.hostHandshake verifier) = none ∧ ∃ hello,
      Stands hpke arkCoins hostCoins hostDraws signer first spare size tries (l.follow attempt (.hostHandshake verifier)) l'
        (arkQueue ++ [none, none, some hello]) hostQueue (count + 1) := by
  intro l'
  cases h with
  | tries _ _ htrying =>
      obtain ⟨_, _, hwaits⟩ := htrying.call
      rw [hcall] at hwaits
      cases hwaits
  | rests hholds hdraining _ hbacklog =>
      obtain ⟨hello, frame, hencode, hframe⟩ := hable.hello _ hhostDraws
      obtain ⟨hwaits, hnone, hdraws, hark, houtcome, hholds'⟩ := hholds.hostStarts hcobs hcall verifier hencode hframe
      have hdecode := HostHello.decode_encode hc hencode
      refine ⟨by rw [shaken, houtcome], hello, .tries hholds' ⟨?_, ?_, ?_, ?_, hdraining.empties, ?_, ?_⟩ ?_⟩
      · rw [hark]
        exact hdraining.signer
      · rw [hdraws]
        exact Nat.le_succ_of_le hdraining.begun
      · intro entry hmem n hn
        rw [hdraws] at hn
        exact hdraining.names entry hmem n (Nat.le_of_succ_le hn)
      · intro packet hmem n hn hbound
        rw [hdraws] at hn
        rcases List.mem_append.mp hmem with hmem | hmem
        · exact hdraining.greets packet hmem n (Nat.le_of_succ_le hn) hbound
        · obtain rfl : packet = hello := by simpa using hmem
          rintro ⟨other, hother, hprint⟩
          rw [hdecode] at hother
          rw [← Except.ok.inj hother] at hprint
          have := htelling.print_inj hhostDraws hbound hprint
          omega
      · rw [hark, hdraws]
        exact (hdraining.owes.mono (Nat.le_succ _)).greet (Nat.lt_succ_self _) hdecode
      · have := hdraining.draws
        rw [hark, hdraws]
        omega
      · rw [follow, hcall]
        refine ⟨⟨verifier, haccepts, by rw [hwaits]; rfl⟩, hnone, hdraining.begun, ?_, Nat.zero_le _, by simp,
          ⟨hello, hdecode, .behind ?_ ?_⟩, Or.inl (by simp), ?_⟩
        · rw [hdraws]
          exact Nat.lt_succ_self _
        · exact fun packet hmem => hdraining.greets packet hmem _ (le_refl _) hhostDraws
        · exact fun packet hmem => hdraining.names (some packet) hmem _ (le_refl _) hhostDraws
        · change hostQueue.length + (count + 1) + 0 = _
          omega

theorem Awaiting.owed {n bound : Nat} {hostHello : HostHello c} {hello : List UInt8}
    (h : Awaiting hostCoins n hostHello hello p arkQueue hostQueue) (hahead : arkQueue ≠ [])
    (howes : Owes hostCoins bound (atHello (p.call.map Prod.fst)) arkQueue count) : 0 < count := by
  cases h with
  | @behind earlier =>
      have hqueue : earlier ++ [none, none, some hello] = (earlier ++ [none]) ++ [none, some hello] := by simp
      rw [hqueue] at howes
      exact howes.pos_of_greeted
  | reset => exact @Owes.pos_of_greeted _ _ _ _ _ _ [] howes
  | next hwait =>
      rw [hwait] at howes
      obtain ⟨_, _, hcount, _⟩ := Owes.behind_hello howes
      omega
  | answered => exact absurd rfl hahead
  | refused => exact absurd rfl hahead

theorem Awaiting.behind_empty {n : Nat} {hostHello : HostHello c} {hello : List UInt8}
    (h : Awaiting hostCoins n hostHello hello p arkQueue (none :: hostQueue)) :
    Awaiting hostCoins n hostHello hello p arkQueue hostQueue := by
  generalize hqueue : none :: hostQueue = queue at h
  cases h with
  | behind hearlier hstale =>
      subst hqueue
      exact .behind hearlier hstale.tail
  | reset hwait hstale =>
      subst hqueue
      exact .reset hwait hstale.tail
  | next hwait hstale =>
      subst hqueue
      exact .next hwait hstale.tail
  | refused hnone hstale =>
      subst hqueue
      exact .refused hnone hstale.tail
  | @answered _ _ _ _ _ _ stale hwait hanswers hsigner hhello hstale =>
      rcases stale with _ | ⟨head, stale⟩
      · cases hqueue
      · obtain ⟨rfl, rfl⟩ := List.cons.inj hqueue
        exact .answered hwait hanswers hsigner hhello hstale.tail

theorem Trying.behind (hc : c.Correct)
    (h : Trying arkCoins hostCoins signer first l arkQueue (packet :: hostQueue) count left attempt)
    (hother : ¬ Names hostCoins attempt.draw (packet.getD c.empty)) :
    (∃ hello, HostHello.decode c hello = .ok (hostHelloOf hostCoins attempt.draw) ∧
      Awaiting hostCoins attempt.draw (hostHelloOf hostCoins attempt.draw) hello l.ark arkQueue hostQueue) ∧
    (arkQueue ≠ [] ∨ ∃ m side packet wait arkHello answer, m < l.ark.side.draws ∧
      ArkSide.Answers (T := Framing cobs maxFrameSize) (A := A) (arkCoins m) side packet wait arkHello answer ∧
      side.signer = signer ∧ wait.hostHello = hostHelloOf hostCoins attempt.draw ∧ some answer ∈ hostQueue) := by
  obtain ⟨hello, hdecode, hawaiting⟩ := h.awaiting
  constructor
  · refine ⟨hello, hdecode, ?_⟩
    cases packet with
    | none => exact hawaiting.behind_empty
    | some packet =>
        rcases hawaiting.head with ⟨_, hrest⟩ | ⟨_, _, _, _, _, wait, _, _, hanswers, _, hhello⟩
        · exact hrest
        · refine absurd ?_ hother
          rw [Option.getD_some, Names, hc.coseRecipient_seal hanswers.sealed, hhello]
          rfl
  · refine h.asked.imp_right ?_
    rintro ⟨m, side, greeted, wait, arkHello, answer, hm, hanswers, hsigner, hhello, hmem⟩
    refine ⟨m, side, greeted, wait, arkHello, answer, hm, hanswers, hsigner, hhello, ?_⟩
    rcases List.mem_cons.mp hmem with rfl | hmem
    · refine absurd ?_ hother
      rw [Option.getD_some, Names, hc.coseRecipient_seal hanswers.sealed, hhello]
      rfl
    · exact hmem

theorem Trying.remains (hc : c.Correct)
    (h : Trying arkCoins hostCoins signer first l arkQueue (packet :: hostQueue) count left attempt)
    (hother : ¬ Names hostCoins attempt.draw (packet.getD c.empty)) {bound : Nat}
    (howes : Owes hostCoins bound (atHello (l.ark.call.map Prod.fst)) arkQueue count) : 0 < hostQueue.length + count := by
  obtain ⟨⟨hello, _, hawaiting⟩, hahead | ⟨_, _, _, _, _, answer, _, _, _, _, hmem⟩⟩ := h.behind hc hother
  · exact Nat.lt_of_lt_of_le (hawaiting.owed hahead howes) (Nat.le_add_left _ _)
  · exact Nat.lt_of_lt_of_le (List.length_pos_of_mem hmem) (Nat.le_add_right _ _)

omit [Attester c A] in
theorem Draining.drops (h : Draining hostCoins hostDraws signer first spare l arkQueue (packet :: hostQueue) count)
    (hark : l'.ark = l.ark) (hdraws : l'.host.side.draws = l.host.side.draws) :
    Draining hostCoins hostDraws signer first spare l' arkQueue hostQueue count := by
  refine ⟨by rw [hark]; exact h.signer, ?_, ?_, ?_, ?_, ?_, ?_⟩
  · rw [hdraws]
    exact h.begun
  · rw [hdraws]
    exact fun entry hmem => h.names entry (List.mem_cons_of_mem _ hmem)
  · rw [hdraws]
    exact h.greets
  · exact fun hmem => h.empties (List.mem_cons_of_mem _ hmem)
  · rw [hark, hdraws]
    exact h.owes
  · rw [hark, hdraws]
    exact h.draws

/-- The host has a packet at hand while it waits for its ArkHello. -/
structure AtHand (hpke : Contexts c) (arkCoins hostCoins : Nat → Coins c) (l : Link c proto A Info cobs maxFrameSize)
    (arkQueue hostQueue : List (Option (List UInt8))) (packet : Option (List UInt8)) (wait : HelloWait c Info)
    (discard : Nat) : Prop where
  holds : Holds hpke arkCoins hostCoins l arkQueue (packet :: hostQueue)
  call : l.host.call = some (.handshake wait, discard)
  ready : packetOf (l.host.side.framing.nextPacketLoop discard) = .ready (.ok packet)
  writer : (l.host.side.framing.nextPacketLoop discard).2.writer = l.host.side.framing.writer
  queue : (l.host.side.framing.nextPacketLoop discard).2.Queue 0 l.comingToHost hostQueue

variable {wait : HelloWait c Info} {discard : Nat}

theorem AtHand.read (hcobs : cobs.Lawful) (h : AtHand hpke arkCoins hostCoins l arkQueue hostQueue packet wait discard)
    {call : Option (HostCall c Info × Nat)}
    (hstep : l.host.step hostCoins .poll = { l.host.framed (l.host.side.framing.nextPacketLoop discard).2 with call })
    (hdiscard : ∀ place discard, call = some (place, discard) → discard = 0) :
    Holds hpke arkCoins hostCoins (l.step arkCoins hostCoins .hostPoll) arkQueue hostQueue := by
  have hnext := h.holds.host_step hcobs .poll
  rw [step, ← List.append_nil arkQueue]
  refine h.holds.host_moved hnext ?_ ?_
  · have hzero : (l.host.step hostCoins .poll).discard = 0 := by
      rw [hstep, HostProc.discard]
      rcases call with _ | ⟨place, discard'⟩
      · rfl
      · exact hdiscard place discard' rfl
    rw [hzero, hstep]
    exact h.queue
  · rw [hstep]
    exact .nothing h.writer h.holds.hostPlan

omit [Attester c A] in
theorem AtHand.follow (h : AtHand hpke arkCoins hostCoins l arkQueue hostQueue packet wait discard) (attempt : Try) :
    l.follow attempt .hostPoll = { attempt with taken := attempt.taken ++ [packet] } := by
  rw [Link.follow, HostProc.takes_ready h.call h.ready]

variable {verifier : Verifier c Info}

theorem Trying.skips (hcobs : cobs.Lawful) (hc : c.Correct)
    (h : Trying arkCoins hostCoins signer first l arkQueue (packet :: hostQueue) count left attempt)
    (hdraining : Draining hostCoins hostDraws signer first spare l arkQueue (packet :: hostQueue) count)
    (haccepts : Accepts signer A verifier) (hhand : AtHand hpke arkCoins hostCoins l arkQueue hostQueue packet
      (helloWaitOf hostCoins verifier attempt.draw attempt.taken.length) discard)
    (hother : ¬ Names hostCoins attempt.draw (packet.getD c.empty)) (hlimit : attempt.taken.length < MAX_STALE_FRAMES) :
    let l' := l.step arkCoins hostCoins .hostPoll
    l.shaken hostCoins .hostPoll = none ∧ l'.host.side.draws = l.host.side.draws ∧
      Holds hpke arkCoins hostCoins l' arkQueue hostQueue ∧
      Draining hostCoins hostDraws signer first spare l' arkQueue hostQueue count ∧
      Trying arkCoins hostCoins signer first l' arkQueue hostQueue count left (l.follow attempt .hostPoll) := by
  intro l'
  obtain ⟨hstep, houtcome⟩ := HostProc.poll_skips hostCoins hhand.call hhand.ready hother hlimit
  have hhost : l'.host = _ := hstep
  obtain ⟨hawaiting, hasked⟩ := h.behind hc hother
  have hdraws : l'.host.side.draws = l.host.side.draws := by
    rw [hhost]
    rfl
  refine ⟨by rw [shaken, houtcome], hdraws, hhand.read hcobs hstep (by simp), hdraining.drops rfl hdraws, ?_⟩
  rw [hhand.follow]
  refine ⟨⟨verifier, haccepts, ?_⟩, ?_, h.fresh, ?_, ?_, ?_, hawaiting, hasked, ?_⟩
  · rw [hhost, List.length_append]
    rfl
  · rw [hhost]
    exact h.session
  · rw [hhost]
    exact h.draw
  · rw [List.length_append]
    exact hlimit
  · intro entry hmem
    rcases List.mem_append.mp hmem with hmem | hmem
    · exact h.stale entry hmem
    · rw [List.mem_singleton.mp hmem]
      exact hother
  · have hbacklog := h.backlog
    rw [List.length_cons] at hbacklog
    rw [List.length_append, List.length_singleton]
    omega

/-- The first packet beyond the limit that is not ours ends the attempt. -/
theorem Trying.gives_up (hcobs : cobs.Lawful) (hc : c.Correct)
    (h : Trying arkCoins hostCoins signer first l arkQueue (packet :: hostQueue) count
      (size - MAX_STALE_FRAMES * tries) attempt)
    (hdraining : Draining hostCoins hostDraws signer first spare l arkQueue (packet :: hostQueue) count)
    (hhand : AtHand hpke arkCoins hostCoins l arkQueue hostQueue packet
      (helloWaitOf hostCoins verifier attempt.draw attempt.taken.length) discard)
    (hother : ¬ Names hostCoins attempt.draw (packet.getD c.empty)) (hlimit : attempt.taken.length = MAX_STALE_FRAMES) :
    let l' := l.step arkCoins hostCoins .hostPoll
    ∃ result, l.shaken hostCoins .hostPoll = some result ∧
      Stands hpke arkCoins hostCoins hostDraws signer first spare size (tries + 1) (l.follow attempt .hostPoll) l' arkQueue
        hostQueue count ∧
      Ends arkCoins hostCoins size tries { l.follow attempt .hostPoll with result, left := l' } := by
  intro l'
  obtain ⟨hstep, houtcome⟩ :=
    HostProc.poll_gives_up hostCoins hhand.call hhand.ready hother hlimit
  have hhost : l'.host = _ := hstep
  have hremains := h.remains hc hother hdraining.owes
  have hbacklog := h.backlog
  rw [List.length_cons] at hbacklog
  refine ⟨_, by rw [shaken, houtcome], .rests (hhand.read hcobs hstep (by simp)) (hdraining.drops rfl (by rw [hhost]; rfl))
    (by rw [hhost]) ?_, .gaveUp ?_ rfl ?_ ?_ ?_ ?_⟩
  · rw [Nat.mul_succ]
    omega
  · exact lt_attemptsFor (by omega)
  · rw [hhand.follow, List.length_append, hlimit]
    rfl
  · rw [hhand.follow]
    intro entry hmem
    rcases List.mem_append.mp hmem with hmem | hmem
    · exact h.stale entry hmem
    · rw [List.mem_singleton.mp hmem]
      exact hother
  · change l'.host.side.session = none
    rw [hhost]
    exact h.session
  · change l'.host.call = none
    rw [hhost]

theorem Trying.finds (hcobs : cobs.Lawful) (hc : c.Correct) (htelling : Telling hostCoins hostDraws)
    (hable : Able cobs maxFrameSize arkCoins hostCoins signer A arkDraws hostDraws)
    (h : Trying arkCoins hostCoins signer first l arkQueue (packet :: hostQueue) count
      (size - MAX_STALE_FRAMES * tries) attempt)
    (hdraining : Draining hostCoins hostDraws signer first spare l arkQueue (packet :: hostQueue) count)
    (hhostDraws : l.host.side.draws < hostDraws) (harkDraws : spare + l.host.side.draws ≤ arkDraws)
    (haccepts : Accepts signer A verifier) (hhand : AtHand hpke arkCoins hostCoins l arkQueue hostQueue packet
      (helloWaitOf hostCoins verifier attempt.draw attempt.taken.length) discard)
    (hours : Names hostCoins attempt.draw (packet.getD c.empty)) :
    let l' := l.step arkCoins hostCoins .hostPoll
    ∃ result, l.shaken hostCoins .hostPoll = some result ∧ (∃ arkQueue' hostQueue' count',
      Stands hpke arkCoins hostCoins hostDraws signer first spare size (tries + 1) (l.follow attempt .hostPoll) l' arkQueue'
        hostQueue' count') ∧
      Ends arkCoins hostCoins size tries { l.follow attempt .hostPoll with result, left := l' } := by
  intro l'
  rcases packet with _ | answer
  · exact absurd hours (hdraining.empties List.mem_cons_self _ h.fresh)
  obtain ⟨_, _, hawaiting⟩ := h.awaiting
  rcases hawaiting.head with ⟨hother, _⟩ | ⟨rfl, rfl, _, _, _, place, _, hplace, _⟩
  · exact absurd hours hother
  obtain ⟨m, side, greeted, arkWait, arkHello, answer', hm, hanswers, hsigner, hhello, hmem⟩ :=
    h.asked.resolve_left (by simp)
  obtain rfl : answer' = answer := Option.some.inj (List.mem_singleton.mp hmem)
  have hdraws := hdraining.draws
  obtain ⟨verified, session, ack, frame, hanswer, hframe⟩ := hable.accepts hc attempt.taken.length
    (Nat.lt_of_lt_of_le hm (by omega)) (Nat.lt_trans h.draw hhostDraws) hhostDraws hsigner hanswers hhello haccepts
  obtain ⟨framing, hsend, hside, hcall, houtcome⟩ := HostProc.poll_finds hostCoins hcobs hhand.call
    hhand.ready hours hhand.queue.wf.toWf (by rw [hhand.writer, hhand.holds.hostPlan]) hanswer hframe
  have hnone : count = 0 := by
    have howes := hdraining.owes
    generalize atHello (l.ark.call.map Prod.fst) = hello at howes
    cases howes
    rfl
  have hbacklog := h.backlog
  rw [List.length_singleton] at hbacklog
  have hlimit := h.limit
  obtain ⟨_, hwf, hsame⟩ := sendPacket_wire hcobs hhand.queue.wf.toWf hsend
  have hholds : Holds hpke arkCoins hostCoins l' ([] ++ [some ack]) [] := by
    refine hhand.holds.host_moved (hhand.holds.host_step hcobs .poll) ?_ ?_
    · have hzero : (l.host.step hostCoins .poll).discard = 0 := by rw [HostProc.discard, hcall]
      rw [hzero, hside]
      exact hhand.queue.sameReceiver hsame hwf
    · rw [hside]
      have hquiet : Wrote l.host.side.framing (l.host.side.framing.nextPacketLoop discard).2 [] :=
        .nothing hhand.writer hhand.holds.hostPlan
      exact hquiet.trans (.packet hcobs hhand.queue.wf.toWf hquiet.plan hsend)
  have hhostDraws' : l'.host.side.draws = l.host.side.draws + 1 := by
    change (l.host.step hostCoins .poll).side.draws = _
    rw [hside]
  refine ⟨_, by rw [shaken, houtcome], ⟨_, _, 0, .rests hholds ⟨hdraining.signer, ?_, by simp, ?_, by simp, ?_, ?_⟩ hcall ?_⟩,
    .found (m := m) ?_ rfl ?_ hlimit h.stale hours hanswers hhello ?_ hcall⟩
  · rw [hhostDraws']
    exact Nat.le_succ_of_le hdraining.begun
  · intro other hmem n _ _
    obtain rfl : other = ack := by simpa using hmem
    obtain ⟨_, _, _, hseal⟩ := HelloWait.answer_ok hanswer
    exact htelling.envelope_greets (HelloWait.sealAck_ok hseal)
  · change Owes hostCoins _ (atHello (l.ark.call.map Prod.fst)) _ _
    rw [hplace]
    exact .other .nil
  · rw [hhostDraws']
    change l.ark.side.draws + 0 ≤ _
    omega
  · rw [Nat.mul_succ, List.length_nil]
    omega
  · exact attemptsFor_le (by omega)
  · exact congrArg Try.taken (hhand.follow attempt)
  · change (l.host.step hostCoins .poll).side.session ≠ none
    rw [hside]
    simp

/-! ### Runs of attempts -/

/-- After an action the attempt under way is still under way, or it came to its end the way it had to. -/
def Continues (hpke : Contexts c) (arkCoins hostCoins : Nat → Coins c) (hostDraws : Nat) (signer : c.XdsaSecretKey)
    (first spare size tries : Nat) (attempt : Try) (l : Link c proto A Info cobs maxFrameSize)
    (action : LinkAction c proto Info) : Prop :=
  (l.shaken hostCoins action = none ∧ ∃ arkQueue hostQueue count,
      Stands hpke arkCoins hostCoins hostDraws signer first spare size tries (l.follow attempt action)
        (l.step arkCoins hostCoins action) arkQueue hostQueue count) ∨
    ∃ result, l.shaken hostCoins action = some result ∧
      (∃ arkQueue hostQueue count, Stands hpke arkCoins hostCoins hostDraws signer first spare size (tries + 1)
        (l.follow attempt action) (l.step arkCoins hostCoins action) arkQueue hostQueue count) ∧
      Ends arkCoins hostCoins size tries
        { l.follow attempt action with result, left := l.step arkCoins hostCoins action }

theorem Stands.arkPoll (hcobs : cobs.Lawful) (hc : c.Correct)
    (hable : Able cobs maxFrameSize arkCoins hostCoins signer A arkDraws hostDraws)
    (h : Stands hpke arkCoins hostCoins hostDraws signer first spare size tries attempt l arkQueue hostQueue count)
    (hhostDraws : l.host.side.draws ≤ hostDraws) (harkDraws : spare + l.host.side.draws ≤ arkDraws) :
    Continues hpke arkCoins hostCoins hostDraws signer first spare size tries attempt l .arkPoll := by
  refine Or.inl ⟨rfl, ?_⟩
  rcases hcall : l.ark.call with _ | ⟨point, discard⟩
  · have hsame : l.step arkCoins hostCoins .arkPoll = l := by rw [step, ArkProc.step, hcall]
    rw [hsame]
    exact ⟨arkQueue, hostQueue, count, h⟩
  have hpoint : l.ark.call.map Prod.fst = some point := by rw [hcall]; rfl
  rcases h.holds.arkPolled hcobs hcall with
    ⟨_, hleft, hdraws, hholds⟩ | ⟨packet, rest, sent, rfl, hpolled, hdraws, hanswers, hholds⟩
  · refine ⟨arkQueue, hostQueue, count, h.stays ⟨rfl, rfl, rfl, ?_, hdraws, ?_⟩ hholds⟩
    · exact Or.inl (hpoint.trans hleft.point.symm)
    · rw [hleft.point]
      exact hleft
  · exact ⟨rest, hostQueue ++ sent,
      h.ark_takes hc hable hhostDraws harkDraws hpoint hpolled rfl hdraws hanswers hholds⟩

theorem Stands.arkNextMessage (hcobs : cobs.Lawful)
    (h : Stands hpke arkCoins hostCoins hostDraws signer first spare size tries attempt l arkQueue hostQueue count) :
    Stands hpke arkCoins hostCoins hostDraws signer first spare size tries attempt (l.step arkCoins hostCoins .arkNextMessage)
      arkQueue hostQueue count := by
  by_cases hcall : l.ark.call = none
  · obtain ⟨hlink, hholds⟩ := h.holds.arkCalled hcobs hcall
    refine h.stays ?_ hholds
    rw [hlink]
    exact ⟨rfl, rfl, rfl, Or.inr ⟨hcall, rfl⟩, rfl, ⟨rfl, rfl, rfl, rfl⟩⟩
  · obtain ⟨call, hcall⟩ := Option.ne_none_iff_exists'.mp hcall
    have hsame : l.step arkCoins hostCoins .arkNextMessage = l := by rw [step, ArkProc.step, hcall]
    rw [hsame]
    exact h

theorem Stands.carryToArk (hcobs : cobs.Lawful)
    (h : Stands hpke arkCoins hostCoins hostDraws signer first spare size tries attempt l arkQueue hostQueue count) (bytes : Nat) :
    Stands hpke arkCoins hostCoins hostDraws signer first spare size tries attempt (l.step arkCoins hostCoins (.carryToArk bytes))
      arkQueue hostQueue count :=
  h.stays ⟨rfl, rfl, rfl, Or.inl rfl, rfl, ⟨rfl, rfl, rfl, rfl⟩⟩ (h.holds.carriedToArk hcobs bytes)

theorem carriedToHost_stays (bytes : Nat) : Stays l (l.step arkCoins hostCoins (.carryToHost bytes)) :=
  ⟨rfl, rfl, rfl, Or.inl rfl, rfl, ⟨rfl, rfl, rfl, rfl⟩⟩

theorem Stands.carryToHost (hcobs : cobs.Lawful)
    (h : Stands hpke arkCoins hostCoins hostDraws signer first spare size tries attempt l arkQueue hostQueue count) (bytes : Nat) :
    Stands hpke arkCoins hostCoins hostDraws signer first spare size tries attempt (l.step arkCoins hostCoins (.carryToHost bytes))
      arkQueue hostQueue count :=
  h.stays (carriedToHost_stays bytes) (h.holds.carriedToHost hcobs bytes)

theorem Holds.hostWaits (hcobs : cobs.Lawful) (h : Holds hpke arkCoins hostCoins l arkQueue hostQueue)
    {call : HostCall c Info} (hcall : l.host.call = some (call, discard)) {discard' : Nat}
    (hpending : packetOf (l.host.side.framing.nextPacketLoop discard) = .pending discard')
    (hwriter : (l.host.side.framing.nextPacketLoop discard).2.writer = l.host.side.framing.writer)
    (hafter : (l.host.side.framing.nextPacketLoop discard).2.Queue discard' l.comingToHost hostQueue) :
    let l' := l.step arkCoins hostCoins .hostPoll
    Stays l l' ∧ Holds hpke arkCoins hostCoins l' arkQueue hostQueue ∧ l.host.outcome hostCoins .poll = none ∧
      l.host.takes = [] := by
  intro l'
  have hpoll : l.host.poll hostCoins call discard =
      (none, { l.host.framed (l.host.side.framing.nextPacketLoop discard).2 with call := some (call, discard') }) :=
    HostProc.poll_pending hostCoins l.host call hpending
  have hstep : l.host.step hostCoins .poll =
      { l.host.framed (l.host.side.framing.nextPacketLoop discard).2 with call := some (call, discard') } := by
    rw [HostProc.step_poll hcall, hpoll]
  have hhost : l'.host = _ := hstep
  refine ⟨⟨?_, ?_, ?_, Or.inl rfl, rfl, ⟨rfl, rfl, rfl, rfl⟩⟩, ?_, ?_, HostProc.takes_pending hcall hpending⟩
  · rw [hhost, hcall]
    rfl
  · rw [hhost]
    rfl
  · rw [hhost]
    rfl
  · rw [← List.append_nil arkQueue]
    refine h.host_moved (h.host_step hcobs .poll) ?_ ?_
    · rw [hstep]
      exact hafter
    · rw [hstep]
      exact .nothing hwriter h.hostPlan
  · rw [HostProc.poll_outcome hcall, hpoll]
    rfl

theorem Trying.host_takes (hcobs : cobs.Lawful) (hc : c.Correct) (htelling : Telling hostCoins hostDraws)
    (hable : Able cobs maxFrameSize arkCoins hostCoins signer A arkDraws hostDraws)
    (hdraining : Draining hostCoins hostDraws signer first spare l arkQueue (packet :: hostQueue) count)
    (htrying : Trying arkCoins hostCoins signer first l arkQueue (packet :: hostQueue) count
      (size - MAX_STALE_FRAMES * tries) attempt)
    (hhostDraws : l.host.side.draws < hostDraws) (harkDraws : spare + l.host.side.draws ≤ arkDraws)
    (haccepts : Accepts signer A verifier) (hhand : AtHand hpke arkCoins hostCoins l arkQueue hostQueue packet
      (helloWaitOf hostCoins verifier attempt.draw attempt.taken.length) discard) :
    let l' := l.step arkCoins hostCoins .hostPoll
    (l.shaken hostCoins .hostPoll = none ∧ l'.host.side.draws = l.host.side.draws ∧
        Holds hpke arkCoins hostCoins l' arkQueue hostQueue ∧
        Draining hostCoins hostDraws signer first spare l' arkQueue hostQueue count ∧
        Trying arkCoins hostCoins signer first l' arkQueue hostQueue count (size - MAX_STALE_FRAMES * tries)
          (l.follow attempt .hostPoll)) ∨
      ∃ result, l.shaken hostCoins .hostPoll = some result ∧
        (∃ arkQueue hostQueue count, Stands hpke arkCoins hostCoins hostDraws signer first spare size (tries + 1)
          (l.follow attempt .hostPoll) l' arkQueue hostQueue count) ∧
        Ends arkCoins hostCoins size tries { l.follow attempt .hostPoll with result, left := l' } := by
  intro l'
  by_cases hours : Names hostCoins attempt.draw (packet.getD c.empty)
  · exact Or.inr (htrying.finds hcobs hc htelling hable hdraining hhostDraws harkDraws haccepts hhand hours)
  · rcases Nat.lt_or_eq_of_le htrying.limit with hbelow | hlimit
    · exact Or.inl (htrying.skips hcobs hc hdraining haccepts hhand hours hbelow)
    · obtain ⟨result, hshaken, hstands, hends⟩ := htrying.gives_up hcobs hc hdraining hhand hours hlimit
      exact Or.inr ⟨result, hshaken, ⟨_, _, _, hstands⟩, hends⟩

theorem Stands.hostPoll (hcobs : cobs.Lawful) (hc : c.Correct) (htelling : Telling hostCoins hostDraws)
    (hable : Able cobs maxFrameSize arkCoins hostCoins signer A arkDraws hostDraws)
    (h : Stands hpke arkCoins hostCoins hostDraws signer first spare size tries attempt l arkQueue hostQueue count)
    (hhostDraws : l.host.side.draws < hostDraws) (harkDraws : spare + l.host.side.draws ≤ arkDraws) :
    Continues hpke arkCoins hostCoins hostDraws signer first spare size tries attempt l .hostPoll := by
  cases h with
  | rests hholds hdraining hcall hbacklog =>
      have hsame : l.step arkCoins hostCoins .hostPoll = l := by rw [step, HostProc.step, hcall]
      have houtcome : l.host.outcome hostCoins .poll = none := by rw [HostProc.outcome, hcall]
      refine Or.inl ⟨by rw [shaken, houtcome], arkQueue, hostQueue, count, ?_⟩
      rw [hsame]
      exact .rests hholds hdraining hcall hbacklog
  | tries hholds hdraining htrying =>
      obtain ⟨verifier, haccepts, hplace⟩ := htrying.call
      obtain ⟨⟨_, discard⟩, hcall, rfl⟩ := Option.map_eq_some_iff.mp hplace
      have hqueue := hholds.hostQueue
      rw [HostProc.discard, hcall] at hqueue
      obtain ⟨hwriter, ⟨discard', hpending, hafter⟩ | ⟨packet, rest, hready, rfl, hafter⟩⟩ := hqueue.poll
      · obtain ⟨hstays, hholds', houtcome, htakes⟩ := hholds.hostWaits hcobs hcall hpending hwriter hafter
        refine Or.inl ⟨by rw [shaken, houtcome], arkQueue, hostQueue, count, ?_⟩
        have hsame : l.follow attempt .hostPoll = attempt := by
          rw [follow, htakes, List.append_nil]
        rw [hsame]
        exact .tries hholds' (hdraining.stays hstays) (htrying.stays hstays)
      · rcases htrying.host_takes hcobs hc htelling hable hdraining hhostDraws harkDraws haccepts
          ⟨hholds, hcall, hready, hwriter, hafter⟩ with ⟨hshaken, _, hholds', hdraining', htrying'⟩ | hended
        · exact Or.inl ⟨hshaken, arkQueue, rest, count, .tries hholds' hdraining' htrying'⟩
        · exact Or.inr hended

theorem Stands.step (hcobs : cobs.Lawful) (hc : c.Correct) (htelling : Telling hostCoins hostDraws)
    (hable : Able cobs maxFrameSize arkCoins hostCoins signer A arkDraws hostDraws)
    (h : Stands hpke arkCoins hostCoins hostDraws signer first spare size tries attempt l arkQueue hostQueue count)
    (hhostDraws : l.host.side.draws < hostDraws) (harkDraws : spare + l.host.side.draws ≤ arkDraws)
    {action : LinkAction c proto Info} (haction : action.Retries signer A) :
    Continues hpke arkCoins hostCoins hostDraws signer first spare size tries attempt l action := by
  cases action with
  | arkNextMessage => exact Or.inl ⟨rfl, _, _, _, h.arkNextMessage hcobs⟩
  | arkPoll => exact h.arkPoll hcobs hc hable (le_of_lt hhostDraws) harkDraws
  | arkSendMessage res => exact haction.elim
  | hostNextMessage => exact haction.elim
  | hostSendMessage req => exact haction.elim
  | hostPoll => exact h.hostPoll hcobs hc htelling hable hhostDraws harkDraws
  | carryToArk bytes => exact Or.inl ⟨rfl, _, _, _, h.carryToArk hcobs bytes⟩
  | carryToHost bytes => exact Or.inl ⟨rfl, _, _, _, h.carryToHost hcobs bytes⟩
  | hostHandshake verifier =>
      by_cases hcall : l.host.call = none
      · obtain ⟨hshaken, hello, hstands⟩ := h.starts hcobs hc htelling hable hhostDraws hcall haction
        exact Or.inl ⟨hshaken, _, _, _, hstands⟩
      · obtain ⟨call, hcall⟩ := Option.ne_none_iff_exists'.mp hcall
        have hsame : l.step arkCoins hostCoins (.hostHandshake verifier) = l := by rw [Link.step, HostProc.step, hcall]
        have houtcome : l.host.outcome hostCoins (.handshake verifier) = none := by rw [HostProc.outcome, hcall]
        refine Or.inl ⟨by rw [shaken, houtcome], arkQueue, hostQueue, count, ?_⟩
        rw [hsame, follow, hcall]
        exact h

/-- The attempts of a run come to their ends one after the other, each the way it had to. -/
theorem Stands.run (hcobs : cobs.Lawful) (hc : c.Correct) (htelling : Telling hostCoins hostDraws)
    (hable : Able cobs maxFrameSize arkCoins hostCoins signer A arkDraws hostDraws)
    (h : Stands hpke arkCoins hostCoins hostDraws signer first spare size tries attempt l arkQueue hostQueue count)
    {actions : List (LinkAction c proto Info)} (hactions : ∀ action ∈ actions, action.Retries signer A)
    (hhostDraws : (l.run arkCoins hostCoins actions).host.side.draws < hostDraws)
    (harkDraws : spare + (l.run arkCoins hostCoins actions).host.side.draws ≤ arkDraws) :
    (∃ tries' attempt' arkQueue' hostQueue' count', Stands hpke arkCoins hostCoins hostDraws signer first spare size tries' attempt'
        (l.run arkCoins hostCoins actions) arkQueue' hostQueue' count') ∧
      ∀ k ended, (l.attempts arkCoins hostCoins attempt actions)[k]? = some ended →
        Ends arkCoins hostCoins size (tries + k) ended := by
  induction actions generalizing l arkQueue hostQueue count tries attempt with
  | nil => exact ⟨⟨_, _, _, _, _, h⟩, by simp [attempts]⟩
  | cons action actions ih =>
      obtain ⟨haction, hactions⟩ := List.forall_mem_cons.mp hactions
      have hdraws := le_trans (l.step_draws arkCoins hostCoins action)
        (run_draws arkCoins hostCoins (l.step arkCoins hostCoins action) actions)
      change (((l.step arkCoins hostCoins action).run arkCoins hostCoins actions).host.side.draws < hostDraws) at hhostDraws
      change spare + ((l.step arkCoins hostCoins action).run arkCoins hostCoins actions).host.side.draws ≤ arkDraws
        at harkDraws
      rw [attempts]
      dsimp only
      rcases h.step hcobs hc htelling hable (by omega) (by omega) haction with
        ⟨hshaken, _, _, _, hstands⟩ | ⟨result, hshaken, ⟨_, _, _, hstands⟩, hends⟩
      · rw [hshaken]
        exact ih hstands hactions hhostDraws harkDraws
      · rw [hshaken]
        obtain ⟨hafter, hrest⟩ := ih hstands hactions hhostDraws harkDraws
        refine ⟨hafter, fun k ended hk => ?_⟩
        cases k with
        | zero =>
            obtain rfl := Option.some.inj hk
            exact hends
        | succ k =>
            have := hrest k ended hk
            rwa [Nat.add_right_comm, Nat.add_assoc] at this

/-! ### Every attempt can be brought to its end -/

/-- The actions of an Ark that serves, and the bytes on their way to it. -/
def Serving : LinkAction c proto Info → Prop
  | .arkNextMessage => True
  | .arkPoll => True
  | .carryToArk _ => True
  | _ => False

/-- The polls of the host, and the bytes on their way to it. -/
def Reading : LinkAction c proto Info → Prop
  | .hostPoll => True
  | .carryToHost _ => True
  | _ => False

theorem serving_run (arkCoins hostCoins : Nat → Coins c) (l : Link c proto A Info cobs maxFrameSize) (attempt : Try)
    {actions : List (LinkAction c proto Info)} (h : ∀ action ∈ actions, Serving action) :
    (l.run arkCoins hostCoins actions).host = l.host ∧
      ∀ later, l.attempts arkCoins hostCoins attempt (actions ++ later) =
        (l.run arkCoins hostCoins actions).attempts arkCoins hostCoins attempt later := by
  induction actions generalizing l with
  | nil => exact ⟨rfl, fun _ => rfl⟩
  | cons action actions ih =>
      obtain ⟨haction, hactions⟩ := List.forall_mem_cons.mp h
      obtain ⟨hhost, hattempts⟩ := ih (l.step arkCoins hostCoins action) hactions
      have hquiet : (l.step arkCoins hostCoins action).host = l.host ∧ l.shaken hostCoins action = none ∧
          l.follow attempt action = attempt := by
        cases action with
        | arkNextMessage => exact ⟨rfl, rfl, rfl⟩
        | arkPoll => exact ⟨rfl, rfl, rfl⟩
        | carryToArk bytes => exact ⟨rfl, rfl, rfl⟩
        | _ => exact haction.elim
      refine ⟨hhost.trans hquiet.1, fun later => ?_⟩
      rw [List.cons_append, attempts, hquiet.2.1, hquiet.2.2]
      exact hattempts later

theorem carried_to_ark : (l.step arkCoins hostCoins (.carryToArk l.comingToArk.length)).comingToArk = [] := by
  change l.host.side.framing.writer.wire.drop (l.toArk + (l.comingToArk.take l.comingToArk.length).length) = []
  rw [List.take_length, ← List.drop_drop]
  exact List.drop_length

theorem Stands.turn (hcobs : cobs.Lawful) (hc : c.Correct)
    (hable : Able cobs maxFrameSize arkCoins hostCoins signer A arkDraws hostDraws)
    (h : Stands hpke arkCoins hostCoins hostDraws signer first spare size tries attempt l (packet :: arkQueue) hostQueue count)
    (hhostDraws : l.host.side.draws ≤ hostDraws) (harkDraws : spare + l.host.side.draws ≤ arkDraws) :
    ∃ served : List (LinkAction c proto Info), (∀ action ∈ served, Serving action) ∧ ∃ hostQueue' count',
      Stands hpke arkCoins hostCoins hostDraws signer first spare size tries attempt (l.run arkCoins hostCoins served) arkQueue
        hostQueue' count' := by
  let called := l.step arkCoins hostCoins .arkNextMessage
  let arrived := called.step arkCoins hostCoins (.carryToArk called.comingToArk.length)
  have hcalled := h.arkNextMessage hcobs
  have harrived := hcalled.carryToArk hcobs called.comingToArk.length
  have hcall : ∃ point discard, arrived.ark.call = some (point, discard) := by
    change ∃ point discard, (l.ark.step arkCoins .nextMessage).call = some (point, discard)
    rw [ArkProc.step]
    rcases hcall : l.ark.call with _ | ⟨point, discard⟩
    · exact ⟨.packet, 0, rfl⟩
    · exact ⟨point, discard, hcall⟩
  obtain ⟨point, discard, hcall⟩ := hcall
  have hqueue := harrived.holds.arkQueue
  rw [ArkProc.discard, hcall, carried_to_ark] at hqueue
  refine ⟨[.arkNextMessage, .carryToArk called.comingToArk.length, .arkPoll], by simp [Serving], ?_⟩
  rcases harrived.holds.arkPolled hcobs hcall with
    ⟨⟨discard', hpending⟩, _⟩ | ⟨head, rest, sent, hhead, hpolled, hdraws, hanswers, hholds⟩
  · exact absurd (hpending.symm.trans hqueue.head) (by simp)
  · obtain ⟨rfl, rfl⟩ := List.cons.inj hhead
    obtain ⟨count', hstands⟩ := harrived.ark_takes hc hable hhostDraws harkDraws (by rw [hcall]; rfl) hpolled rfl hdraws
      hanswers hholds
    exact ⟨_, count', hstands⟩

/-- An Ark that goes on serving takes everything in front of it. -/
theorem Stands.served (hcobs : cobs.Lawful) (hc : c.Correct)
    (hable : Able cobs maxFrameSize arkCoins hostCoins signer A arkDraws hostDraws)
    (h : Stands hpke arkCoins hostCoins hostDraws signer first spare size tries attempt l arkQueue hostQueue count)
    (hhostDraws : l.host.side.draws ≤ hostDraws) (harkDraws : spare + l.host.side.draws ≤ arkDraws) :
    ∃ served : List (LinkAction c proto Info), (∀ action ∈ served, Serving action) ∧ ∃ hostQueue' count',
      Stands hpke arkCoins hostCoins hostDraws signer first spare size tries attempt (l.run arkCoins hostCoins served) [] hostQueue'
        count' := by
  induction arkQueue generalizing l hostQueue count with
  | nil => exact ⟨[], by simp, hostQueue, count, h⟩
  | cons packet arkQueue ih =>
      obtain ⟨served, hserved, hostQueue', count', hstands⟩ := h.turn hcobs hc hable hhostDraws harkDraws
      have hhost := (serving_run arkCoins hostCoins l attempt hserved).1
      rw [← hhost] at hhostDraws harkDraws
      obtain ⟨served', hserved', hostQueue'', count'', hstands'⟩ := ih hstands hhostDraws harkDraws
      refine ⟨served ++ served', ?_, hostQueue'', count'', ?_⟩
      · exact fun action hmem => (List.mem_append.mp hmem).elim (hserved action) (hserved' action)
      · rw [run_append]
        exact hstands'

theorem carried_to_host : (l.step arkCoins hostCoins (.carryToHost l.comingToHost.length)).comingToHost = [] := by
  change l.ark.side.framing.writer.wire.drop (l.toHost + (l.comingToHost.take l.comingToHost.length).length) = []
  rw [List.take_length, ← List.drop_drop]
  exact List.drop_length

theorem Trying.answered (h : Trying arkCoins hostCoins signer first l [] hostQueue count left attempt) (hc : c.Correct) :
    ∃ wait : AckWait c, l.ark.call.map Prod.fst = some (.handshake (.ack wait)) ∧
      wait.hostHello = hostHelloOf hostCoins attempt.draw := by
  obtain ⟨hello, _, hawaiting⟩ := h.awaiting
  obtain ⟨_, _, _, wait, _, answer, _, hanswers, _, hhello, hmem⟩ := h.asked.resolve_left (by simp)
  have hnames : Names hostCoins attempt.draw answer := by
    rw [Names, hc.coseRecipient_seal hanswers.sealed, hhello]
    rfl
  generalize hqueue : ([] : List (Option (List UInt8))) = queue at hawaiting
  cases hawaiting with
  | behind => simp at hqueue
  | reset => cases hqueue
  | next => cases hqueue
  | answered hplace _ _ hsame _ => exact ⟨_, hplace, hsame⟩
  | refused _ hstale => exact absurd hnames (hstale answer hmem)

/-- A host that goes on reading, with everything there, comes to the end of its attempt. -/
theorem Trying.completes (hcobs : cobs.Lawful) (hc : c.Correct) (htelling : Telling hostCoins hostDraws)
    (hable : Able cobs maxFrameSize arkCoins hostCoins signer A arkDraws hostDraws)
    (hholds : Holds hpke arkCoins hostCoins l [] hostQueue)
    (hdraining : Draining hostCoins hostDraws signer first spare l [] hostQueue count)
    (h : Trying arkCoins hostCoins signer first l [] hostQueue count (size - MAX_STALE_FRAMES * tries) attempt)
    (hhostDraws : l.host.side.draws < hostDraws) (harkDraws : spare + l.host.side.draws ≤ arkDraws)
    (hcoming : l.comingToHost = []) :
    ∃ polls ended, l.attempts arkCoins hostCoins attempt (List.replicate polls .hostPoll) = [ended] := by
  induction hostQueue generalizing l attempt with
  | nil =>
      obtain ⟨_, _, _, _, _, _, _, _, _, _, hmem⟩ := h.asked.resolve_left (by simp)
      cases hmem
  | cons packet hostQueue ih =>
      obtain ⟨verifier, haccepts, hplace⟩ := h.call
      obtain ⟨⟨_, discard⟩, hcall, rfl⟩ := Option.map_eq_some_iff.mp hplace
      have hqueue := hholds.hostQueue
      rw [HostProc.discard, hcall] at hqueue
      obtain ⟨hwriter, ⟨discard', hpending, _⟩ | ⟨head, rest, hready, hhead, hafter⟩⟩ := hqueue.poll
      · rw [hcoming] at hqueue
        exact absurd (hpending.symm.trans hqueue.head) (by simp)
      · obtain ⟨rfl, rfl⟩ := List.cons.inj hhead
        rcases h.host_takes hcobs hc htelling hable hdraining hhostDraws harkDraws haccepts
          ⟨hholds, hcall, hready, hwriter, hafter⟩ with
          ⟨hshaken, hdraws, hholds', hdraining', htrying'⟩ | ⟨result, hshaken, _⟩
        · obtain ⟨polls, ended, hended⟩ := ih hholds' hdraining' htrying' (by omega) (by omega) hcoming
          refine ⟨polls + 1, ended, ?_⟩
          rw [List.replicate_succ, attempts, hshaken]
          exact hended
        · refine ⟨1, { l.follow attempt .hostPoll with result, left := l.step arkCoins hostCoins .hostPoll }, ?_⟩
          rw [List.replicate_one, attempts, hshaken]
          rfl

/-! ### Behind a backlog -/

/-- Two sides just created, with these frames on their way to the host. -/
def queued (signer : c.XdsaSecretKey) (attester : A) (frames : List (List UInt8)) : Link c proto A Info cobs maxFrameSize where
  ark := .new [] ⟨delimited frames, []⟩ signer attester
  host := .new [] ⟨[], []⟩
  toArk := 0
  toHost := 0

/-- A frame on its way to the host that decodes, and is not sealed to the keys of an attempt that begins from this draw
on. -/
structure Old (cobs : Cobs) (maxFrameSize : Nat) (hostCoins : Nat → Coins c) (first : Nat) (frame : List UInt8) : Prop where
  clean : 0 ∉ frame
  fits : frame.length ≤ maxFrameSize
  decodes : ∃ entry, decodeFrame cobs maxFrameSize frame = .ok entry ∧
    ∀ n, first ≤ n → ¬ Names hostCoins n (entry.getD c.empty)

omit [Attester c A] in
theorem kept_delimited {frames : List (List UInt8)} (hframes : ∀ frame ∈ frames, 0 ∉ frame ∧ frame.length ≤ maxFrameSize) :
    kept 0 maxFrameSize false (delimited frames) = frames ∧ residue 0 maxFrameSize false (delimited frames) = (false, []) := by
  induction frames with
  | nil => exact ⟨kept_nil, residue_nil⟩
  | cons frame frames ih =>
      obtain ⟨⟨hclean, hfits⟩, hframes⟩ := List.forall_mem_cons.mp hframes
      obtain ⟨hkept, hresidue⟩ := ih hframes
      have hdelimited : delimited (frame :: frames) = (frame ++ [0]) ++ delimited frames := rfl
      constructor
      · rw [← List.append_nil (delimited (frame :: frames)), delimited_cons, List.append_nil, kept_append_sep hclean,
          if_neg (by simpa using hfits), hkept]
      · rw [hdelimited, residue_append, residue_concat_sep]
        exact hresidue

omit [Attester c A] in
theorem queued_holds (arkCoins hostCoins : Nat → Coins c) (signer : c.XdsaSecretKey) (attester : A) {frames : List (List UInt8)}
    (hframes : ∀ frame ∈ frames, 0 ∉ frame ∧ frame.length ≤ maxFrameSize)
    {queue : List (Option (List UInt8))} (hqueue : frames.map (decodeFrame cobs maxFrameSize) = queue.map .ok) :
    Holds hpke arkCoins hostCoins (queued signer attester frames : Link c proto A Info cobs maxFrameSize) [] queue where
  ark := ⟨_, Endpoint.Inv.init _, ArkProc.new_abstracts arkCoins [] ⟨delimited frames, []⟩ signer attester⟩
  host := ⟨_, Endpoint.Inv.init [], HostProc.new_abstracts hostCoins [] ⟨[], []⟩⟩
  arkPlan := rfl
  hostPlan := rfl
  toArk := le_refl 0
  toHost := Nat.zero_le _
  arkQueue := .new _
  hostQueue := by
    obtain ⟨hkept, hresidue⟩ := kept_delimited hframes
    refine ⟨(new_wf [] _).wfAt, rfl, ?_, ?_⟩
    · change (kept 0 maxFrameSize false (Framing.unread (.new [] ⟨[], []⟩ : Framing cobs maxFrameSize) ++
        delimited frames)).map _ = _
      rw [unread, new_pending]
      exact (congrArg (List.map _) hkept).trans hqueue
    · change residue 0 maxFrameSize false (Framing.unread (.new [] ⟨[], []⟩ : Framing cobs maxFrameSize) ++
        delimited frames) = _
      rw [unread, new_pending]
      exact hresidue

theorem exists_queue {frames : List (List UInt8)}
    (hframes : ∀ frame ∈ frames, ∃ entry, decodeFrame cobs maxFrameSize frame = .ok entry) :
    ∃ queue : List (Option (List UInt8)), frames.map (decodeFrame cobs maxFrameSize) = queue.map .ok := by
  induction frames with
  | nil => exact ⟨[], rfl⟩
  | cons frame frames ih =>
      obtain ⟨⟨entry, hentry⟩, hframes⟩ := List.forall_mem_cons.mp hframes
      obtain ⟨queue, hqueue⟩ := ih hframes
      exact ⟨entry :: queue, by rw [List.map_cons, hentry, hqueue, List.map_cons]⟩

theorem Goes.same_signer {action : LinkAction c proto Info} (h : Goes hpke arkCoins hostCoins l arkQueue hostQueue action) :
    (l.step arkCoins hostCoins action).ark.side.signer = l.ark.side.signer := by
  obtain ⟨_, _, hmoved | ⟨_, _, hstarted⟩, _⟩ := h
  · cases hmoved with
    | ark _ hleft => exact hleft.signer
    | arkPolled _ hpolled => exact polled_signer hpolled
    | arkSent _ _ _ hleft => exact hleft.signer
    | host _ _ _ hark => rw [hark]
    | hostPolled _ _ hark => rw [hark]
    | hostSent _ _ _ _ _ hark => rw [hark]
  · cases hstarted with
    | greeted _ _ _ _ hark => rw [hark]
    | failed _ _ hark => rw [hark]

theorem Holds.run (hlink : Assumed hpke proto cobs maxFrameSize hostCoins hostDraws)
    (h : Holds hpke arkCoins hostCoins l arkQueue hostQueue) (actions : List (LinkAction c proto Info)) :
    (l.run arkCoins hostCoins actions).ark.side.signer = l.ark.side.signer ∧ ∃ arkQueue hostQueue,
      Holds hpke arkCoins hostCoins (l.run arkCoins hostCoins actions) arkQueue hostQueue := by
  induction actions generalizing l arkQueue hostQueue with
  | nil => exact ⟨rfl, _, _, h⟩
  | cons action actions ih =>
      have hsame := (hlink.goes h action).same_signer
      obtain ⟨_, _, _, h'⟩ := hlink.goes h action
      obtain ⟨hsigner, hholds⟩ := ih h'
      exact ⟨hsigner.trans hsame, hholds⟩

/-- A `handshake` called now is served: the Ark, polled with what the host wrote there, comes to wait for the HostAck of
the handshake, and the host, polled with what the Ark wrote there, comes to its end. -/
def Serves (arkCoins hostCoins : Nat → Coins c) (signer : c.XdsaSecretKey) (l : Link c proto A Info cobs maxFrameSize) :
    Prop :=
  ∀ verifier : Verifier c Info, Accepts signer A verifier → ∃ served completed : List (LinkAction c proto Info),
    (∀ action ∈ served, Serving action) ∧ (∀ action ∈ completed, Reading action) ∧
    (∃ wait : AckWait c, wait.hostHello = hostHelloOf hostCoins l.host.side.draws ∧
      ((l.step arkCoins hostCoins (.hostHandshake verifier)).run arkCoins hostCoins served).ark.call.map Prod.fst =
        some (.handshake (.ack wait))) ∧
    ∀ attempt, ∃ ended,
      l.attempts arkCoins hostCoins attempt (.hostHandshake verifier :: (served ++ completed)) = [ended]

theorem Stands.next_served (hcobs : cobs.Lawful) (hc : c.Correct) (htelling : Telling hostCoins hostDraws)
    (hable : Able cobs maxFrameSize arkCoins hostCoins signer A arkDraws hostDraws)
    (h : Stands hpke arkCoins hostCoins hostDraws signer first spare size tries attempt l arkQueue hostQueue count)
    (hhostDraws : l.host.side.draws + 1 < hostDraws) (harkDraws : spare + l.host.side.draws + 1 ≤ arkDraws)
    (hcall : l.host.call = none) : l.Serves arkCoins hostCoins signer := by
  intro verifier haccepts
  obtain ⟨hshaken, hello, hbegun⟩ := h.starts hcobs hc htelling hable (by omega) hcall haccepts
  have hdraws : (l.step arkCoins hostCoins (.hostHandshake verifier)).host.side.draws = l.host.side.draws + 1 := by
    obtain ⟨_, _, hencode, hframe⟩ := hable.hello l.host.side.draws (by omega)
    exact (h.holds.hostStarts hcobs hcall verifier hencode hframe).2.2.1
  obtain ⟨served, hserved, hostQueue', count', hstands⟩ := hbegun.served hcobs hc hable (by omega) (by omega)
  obtain ⟨hhost, hattempts⟩ := serving_run arkCoins hostCoins (l.step arkCoins hostCoins (.hostHandshake verifier))
    (l.follow attempt (.hostHandshake verifier)) hserved
  generalize hafter : (l.step arkCoins hostCoins (.hostHandshake verifier)).run arkCoins hostCoins served = after
    at hhost hattempts hstands
  have hfollow : ∀ other, l.follow other (.hostHandshake verifier) = l.follow attempt (.hostHandshake verifier) := by
    intro other
    rw [follow, follow, hcall]
  have hwaits : after.host.call ≠ none := by
    obtain ⟨_, _, hencode, hframe⟩ := hable.hello l.host.side.draws (by omega)
    rw [hhost, (h.holds.hostStarts hcobs hcall verifier hencode hframe).1]
    simp
  cases hstands with
  | rests _ _ hnone => exact absurd hnone hwaits
  | tries hholds hdraining htrying =>
      obtain ⟨wait, hplace, hhello⟩ := htrying.answered hc
      let arrived := after.step arkCoins hostCoins (.carryToHost after.comingToHost.length)
      have hstays : Stays after arrived := carriedToHost_stays _
      have hsame : arrived.host.side.draws = l.host.side.draws + 1 := by rw [hstays.hostDraws, hhost, hdraws]
      obtain ⟨polls, ended, hended⟩ := (htrying.stays hstays).completes hcobs hc htelling hable
        (hholds.carriedToHost hcobs _) (hdraining.stays hstays) (show arrived.host.side.draws < hostDraws by omega)
        (show spare + arrived.host.side.draws ≤ arkDraws by omega) carried_to_host
      refine ⟨served, .carryToHost after.comingToHost.length :: List.replicate polls .hostPoll, hserved, ?_,
        ⟨wait, ?_, ?_⟩, fun other => ⟨ended, ?_⟩⟩
      · intro action hmem
        rcases List.mem_cons.mp hmem with rfl | hmem
        · trivial
        · rw [List.eq_of_mem_replicate hmem]
          trivial
      · rw [hhello, follow, hcall]
      · rw [hafter]
        exact hplace
      · rw [attempts, hshaken, hfollow]
        exact (hattempts _).trans hended

/-- Behind a backlog of frames that are not sealed to a key of the attempts to come, every attempt but those before the
one the backlog takes finds its own ArkHello, and each of those before fails having taken one frame more than it may skip;
between two attempts the host has no call under way, and the next attempt is served. -/
theorem drains (hlink : Assumed hpke proto cobs maxFrameSize hostCoins hostDraws)
    (hable : Able cobs maxFrameSize arkCoins hostCoins signer A arkDraws hostDraws) (attester : A)
    {before : List (List UInt8)} (hbefore : ∀ frame ∈ before, 0 ∉ frame ∧ frame.length ≤ maxFrameSize ∧
      ∃ entry, decodeFrame cobs maxFrameSize frame = .ok entry)
    (earlier : List (LinkAction c proto Info)) {l : Link c proto A Info cobs maxFrameSize}
    (hl : l = (queued signer attester before).run arkCoins hostCoins earlier) (hcall : l.host.call = none)
    (hquiet : l.ark.side.framing.unread ++ l.comingToArk = []) {frames : List (List UInt8)}
    (hfront : l.host.side.framing.unread ++ l.comingToHost = delimited frames)
    (hframes : ∀ frame ∈ frames, Old cobs maxFrameSize hostCoins l.host.side.draws frame) {attempt : Try}
    {actions : List (LinkAction c proto Info)} (hactions : ∀ action ∈ actions, action.Retries signer A)
    {l' : Link c proto A Info cobs maxFrameSize} (hl' : l' = l.run arkCoins hostCoins actions)
    (hhostDraws : l'.host.side.draws + 1 < hostDraws)
    (harkDraws : l.ark.side.draws + l'.host.side.draws + 1 ≤ arkDraws) :
    (∀ k ended, (l.attempts arkCoins hostCoins attempt actions)[k]? = some ended →
        Ends arkCoins hostCoins frames.length k ended) ∧
      (l'.host.call = none → l'.Serves arkCoins hostCoins signer) := by
  obtain ⟨queue, hqueue⟩ := exists_queue fun frame hmem => (hbefore frame hmem).2.2
  obtain ⟨hsigner, arkQueue, hostQueue, hholds⟩ := Holds.run hlink (queued_holds arkCoins hostCoins signer attester
    (fun frame hmem => ⟨(hbefore frame hmem).1, (hbefore frame hmem).2.1⟩) hqueue) earlier
  rw [← hl] at hsigner hholds
  have hark := hholds.arkQueue.frames
  rw [hquiet, kept_nil, List.map_nil] at hark
  obtain rfl := List.map_eq_nil_iff.mp hark.symm
  have hentries : frames.map (decodeFrame cobs maxFrameSize) = hostQueue.map .ok := by
    have hhost := hholds.hostQueue.frames
    rw [hfront, HostProc.discard, hcall] at hhost
    rw [← hhost, show decide (0 < 0) = false from rfl,
      (kept_delimited fun frame hmem => ⟨(hframes frame hmem).clean, (hframes frame hmem).fits⟩).1]
  have hold : ∀ entry ∈ hostQueue, ∀ n, l.host.side.draws ≤ n → ¬ Names hostCoins n (entry.getD c.empty) := by
    intro entry hmem
    have hmapped : (Except.ok entry : Except Error _) ∈ frames.map (decodeFrame cobs maxFrameSize) :=
      hentries ▸ List.mem_map_of_mem hmem
    obtain ⟨frame, hframe, hdecode⟩ := List.mem_map.mp hmapped
    obtain ⟨entry', hdecode', hother⟩ := (hframes frame hframe).decodes
    obtain rfl := Except.ok.inj (hdecode.symm.trans hdecode')
    exact hother
  have hlength : hostQueue.length = frames.length := by simpa using (congrArg List.length hentries).symm
  have hstands : Stands hpke arkCoins hostCoins hostDraws signer l.host.side.draws l.ark.side.draws frames.length 0 attempt l []
      hostQueue 0 :=
    .rests hholds ⟨hsigner, le_refl _, fun entry hmem n hn _ => hold entry hmem n hn, by simp, fun hmem => hold none hmem,
      .nil, Nat.le_add_right _ _⟩ hcall (by omega)
  subst hl'
  obtain ⟨⟨_, _, _, _, _, hafter⟩, hends⟩ := hstands.run hlink.lawful hlink.correct hlink.telling hable hactions
    (by omega) (by omega)
  refine ⟨fun k ended hk => ?_, hafter.next_served hlink.lawful hlink.correct hlink.telling hable hhostDraws harkDraws⟩
  have := hends k ended hk
  rwa [Nat.zero_add] at this

/-! ### A backlog that is drained -/

open Reference

theorem reference_fits {packet : List UInt8} (h : Cobs.stuffing.encodeBuffer packet.length ≤ 512) :
    ∃ frame, frameOf Cobs.stuffing 512 packet = .ok frame := by
  rcases @frameOf_cases _ 512 Cobs.stuffing_lawful packet with ⟨hlarge, _⟩ | ⟨_, frame, hframe, _⟩
  · exact absurd hlarge (Nat.not_lt_of_le h)
  · exact ⟨frame, hframe⟩

theorem reference_able : Able Cobs.stuffing 512 coins coins (7 : Nat) (Attestation crypto) 6 6 where
  hello := by
    have hsize : ∀ n < 6, Cobs.stuffing.encodeBuffer (1 :: pack [number (3 * n), number (3 * n + 1)]).length ≤ 512 := by
      decide +kernel
    intro n hn
    obtain ⟨frame, hframe⟩ := reference_fits (hsize n hn)
    exact ⟨_, frame, rfl, hframe⟩
  answer := by
    have hsize : ∀ cwt ∈ [[1], [2]], ∀ m < 6, ∀ n < 6, Cobs.stuffing.encodeBuffer (Envelope.toBytes
        { recipient := 3 * n + 1
          payload := [cwt, number (3 * m), number (3 * m + 1)]
          aad := [number (3 * n), number (3 * n + 1)]
          signer := 7
          domain := CRYPTO_DOMAIN_WIRE }).length ≤ 512 := by
      decide +kernel
    rintro m hm n hn ⟨_, _, ⟨cwt, hshape⟩, _, _⟩ rfl
    have hcwt : cwt ∈ [[1], [2]] := by
      simpa [crypto] using hshape
    obtain ⟨frame, hframe⟩ := reference_fits (hsize cwt hcwt m hm n hn)
    exact ⟨_, _, _, frame, rfl, rfl, hframe⟩
  opened := by
    intro payload aad key domain seed packet h
    obtain rfl := Except.ok.inj h
    have hdecrypt := (decrypt_toBytes ⟨key, payload, aad, 7, domain⟩ aad key domain).trans (if_pos ⟨rfl, rfl, rfl⟩)
    have hverify := (verify_toBytes ⟨key, payload, aad, 7, domain⟩ aad 7 domain).trans (if_pos ⟨rfl, rfl, rfl⟩)
    exact ⟨_, congrArg (Except.map fun _ => Envelope.toBytes ⟨key, payload, aad, 7, domain⟩) hdecrypt, hverify⟩
  ack := by
    have hsize : ∀ m < 6, ∀ n < 6, ∀ k < 6, Cobs.stuffing.encodeBuffer (Envelope.toBytes
        { recipient := 3 * m
          payload := [number (3 * k)]
          aad := [number 7, number (3 * m)]
          signer := 3 * n
          domain := CRYPTO_DOMAIN_WIRE }).length ≤ 512 := by
      decide +kernel
    intro m hm n hn k hk
    obtain ⟨frame, hframe⟩ := reference_fits (hsize m hm n hn k hk)
    exact ⟨_, _, _, frame, rfl, rfl, hframe⟩

/-- A new host with so many frames of nobody's in front of it. -/
def backlogged (size : Nat) : Link crypto protocol (Attestation crypto) (Attestation crypto) Cobs.stuffing 512 :=
  queued (7 : Nat) attestation (List.replicate size [2, 1])

/-- Two attempts, the Ark serving in the second only. -/
def backlogActions : List (LinkAction crypto protocol (Attestation crypto)) :=
  [.hostHandshake (Verifier.pinned (7 : Nat)), .carryToHost 99] ++ List.replicate 33 .hostPoll ++
    [.hostHandshake (Verifier.pinned (7 : Nat)), .carryToArk 199, .arkNextMessage] ++ List.replicate 6 .arkPoll ++
    [.carryToHost 999, .hostPoll, .hostPoll]

theorem drains_reference :
    (∀ k ended, ((backlogged 33).attempts coins coins ⟨0, []⟩ backlogActions)[k]? = some ended →
        Ends coins coins 33 k ended) ∧
      (((backlogged 33).run coins coins backlogActions).host.call = none →
        ((backlogged 33).run coins coins backlogActions).Serves coins coins (7 : Nat)) ∧
      ((backlogged 33).attempts coins coins ⟨0, []⟩ backlogActions).map (fun ended => (ended.taken.length, ended.result.isOk)) =
        [(33, false), (2, true)] := by
  have hdecode : decodeFrame Cobs.stuffing 512 [2, 1] = .ok (some [1]) := by decide +kernel
  have hold : ∀ frame ∈ List.replicate 33 [2, 1], Old Cobs.stuffing 512 coins (backlogged 33).host.side.draws frame := by
    intro frame hmem
    rw [List.eq_of_mem_replicate hmem]
    exact ⟨by decide, by decide, some [1], hdecode, fun n _ hnames => by cases hnames⟩
  have hbefore : ∀ frame ∈ List.replicate 33 [2, 1], 0 ∉ frame ∧ frame.length ≤ 512 ∧
      ∃ entry, decodeFrame Cobs.stuffing 512 frame = .ok entry := by
    intro frame hmem
    exact ⟨(hold frame hmem).clean, (hold frame hmem).fits, (hold frame hmem).decodes.imp fun _ => And.left⟩
  have hactions : ∀ action ∈ backlogActions, action.Retries (7 : Nat) (Attestation crypto) := by
    have haccepts : Accepts (7 : Nat) (Attestation crypto) (Verifier.pinned (7 : Nat) : Verifier crypto _) :=
      fun attester => ⟨_, rfl⟩
    simp [backlogActions, LinkAction.Retries, haccepts]
  have hl : backlogged 33 = (queued (7 : Nat) attestation (List.replicate 33 [2, 1])).run coins coins [] := rfl
  have hhostDraws : ((backlogged 33).run coins coins backlogActions).host.side.draws + 1 < 6 := by decide +kernel
  have harkDraws : (backlogged 33).ark.side.draws + ((backlogged 33).run coins coins backlogActions).host.side.draws + 1 ≤ 6 := by
    decide +kernel
  have hdrained := @drains _ _ _ _ _ _ _ coins coins (7 : Nat) 6 6 contexts (reference_assumed _) reference_able attestation _
    hbefore [] (backlogged 33) hl rfl rfl _ (by decide +kernel) hold ⟨0, []⟩ _ hactions _ rfl hhostDraws harkDraws
  rw [List.length_replicate] at hdrained
  exact ⟨hdrained.1, hdrained.2, by decide +kernel⟩

end Link

end DarkbioWire
