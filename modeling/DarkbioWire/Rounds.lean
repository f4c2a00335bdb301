import DarkbioWire.Network

/-!
# The rounds of a run

Where a run of the network answers a HostHello, acknowledges an ArkHello and accepts a HostAck, and how these hang
together: what a side waits with is what it answered in its last draw, no draw answers twice, a session is the one its
last round set up. All of it is derived from one inversion of a step for each kind of side.
-/

namespace DarkbioWire

open Symbolic

variable {Blob : Type} {c : Crypto Blob} {hpke : Contexts c} {proto : Protocol Blob} {A Info : Type} [Attester c A]
  {limit : Nat}

omit [Attester c A] in
theorem SendStep.seals {M : Type} {codec : Codec Blob M} {framing framing' : Net Blob limit} {msg : M}
    {session session' : Option (Session c)} {result : Except Error Unit} (hpke : Contexts c)
    (h : SendStep codec framing msg session result framing' session') :
    (framing' = framing ∧ (session' = none ∨ session' = session)) ∨
      ∃ old payload packet sender, session = some old ∧ codec.encode msg = .ok payload ∧
        c.senderSeal old.sender payload = (.ok packet, sender) ∧ framing'.sent = packet :: framing.sent ∧
        ∀ kept, session' = some kept → hpke.sendChannel kept.sender = hpke.sendChannel old.sender := by
  cases h with
  | inactive => exact Or.inl ⟨rfl, Or.inl rfl⟩
  | tooLarge _ => exact Or.inl ⟨rfl, Or.inr rfl⟩
  | unencodable _ => exact Or.inl ⟨rfl, Or.inr rfl⟩
  | unsealed _ _ _ => exact Or.inl ⟨rfl, Or.inl rfl⟩
  | lost _ hencode hseal hsend =>
      exact Or.inr ⟨_, _, _, _, rfl, hencode, hseal, Net.sent_of_sendPacket hsend, fun _ h => nomatch h⟩
  | sent _ hencode hseal hsend =>
      refine Or.inr ⟨_, _, _, _, rfl, hencode, hseal, Net.sent_of_sendPacket hsend, fun kept h => ?_⟩
      obtain rfl := Option.some.inj h
      exact (hpke.senderSeal_spec hseal).1

/-! ### An Ark -/

namespace ArkNode

/-- With this input an iteration of the handshake answers a packet. -/
structure Answers (coins : Nat → Coins c) (node : ArkNode c A limit) (input : ArkInput proto) (packet : Blob)
    (wait : AckWait c) (arkHello : ArkHello c) (answer : Blob) : Prop where
  input : input = .deliver (.ok (some packet))
  call : node.call = some (.handshake .hello)
  answers : ArkSide.Answers (coins node.side.draws) node.side packet wait arkHello answer

omit [Attester c A] in
/-- With this input the iteration that waits accepts a packet and establishes a session. -/
structure Accepts (node : ArkNode c A limit) (input : ArkInput proto) (packet : Blob) (wait : AckWait c)
    (session : Session c) : Prop where
  input : input = .deliver (.ok (some packet))
  call : node.call = some (.handshake (.ack wait))
  accepts : node.side.acceptAck wait packet = .ok session

omit [Attester c A] in
/-- With this input a payload is sealed in the session. -/
structure Seals (node : ArkNode c A limit) (input : ArkInput proto) (session : Session c) (payload packet : Blob) :
    Prop where
  input : ∃ res, input = .sendMessage res ∧ proto.arkToHost.encode res = .ok payload
  active : node.side.session = some session
  sealed : ∃ sender, c.senderSeal session.sender payload = (.ok packet, sender)

/-- The session goes on, or there is none afterwards. -/
def Keeps (hpke : Contexts c) (node node' : ArkNode c A limit) : Prop :=
  ∀ session', node'.side.session = some session' → ∃ session, node.side.session = some session ∧
    hpke.sendChannel session'.sender = hpke.sendChannel session.sender ∧ node'.hostSigner = node.hostSigner

/-- Nothing is sent or set up. -/
structure Quiet (hpke : Contexts c) (node node' : ArkNode c A limit) : Prop where
  signer : node'.side.signer = node.side.signer
  sent : node'.side.framing.sent = node.side.framing.sent
  draws : node.side.draws ≤ node'.side.draws
  keeps : node.Keeps hpke node'
  call : ∀ wait, node'.call = some (.handshake (.ack wait)) → node'.call = node.call ∧ node'.side.draws = node.side.draws

/-- What a step of an Ark can be. -/
inductive Step (hpke : Contexts c) (coins : Nat → Coins c) (node : ArkNode c A limit) (input : ArkInput proto)
    (node' : ArkNode c A limit) : Prop
  | quiet : node.Quiet hpke node' → (∀ packet wait arkHello answer, ¬ node.Answers coins input packet wait arkHello answer) →
      (∀ packet wait session, ¬ node.Accepts input packet wait session) → Step hpke coins node input node'
  | answers {packet wait arkHello answer} : node.Answers coins input packet wait arkHello answer →
      node'.side.signer = node.side.signer → node'.side.framing.sent = answer :: node.side.framing.sent →
      node'.side.draws = node.side.draws + 1 → node.Keeps hpke node' →
      (∀ wait', node'.call = some (.handshake (.ack wait')) → wait' = wait) → Step hpke coins node input node'
  | accepts {packet wait session} : node.Accepts input packet wait session →
      node' = { side := { node.side with session := some session }, call := some .packet,
                hostSigner := some wait.hostHello.hostSigner } → Step hpke coins node input node'
  | seals {session payload packet} : node.Seals input session payload packet →
      node'.side.signer = node.side.signer → node'.side.framing.sent = packet :: node.side.framing.sent →
      node'.side.draws = node.side.draws → node.Keeps hpke node' → node.call = none → node'.call = none →
      Step hpke coins node input node'

variable {coins : Nat → Coins c} {node node' : ArkNode c A limit}

omit [Attester c A] in
theorem Keeps.of_eq (hsession : node'.side.session = node.side.session) (hsigner : node'.hostSigner = node.hostSigner) :
    node.Keeps hpke node' :=
  fun session' h => ⟨session', hsession ▸ h, rfl, hsigner⟩

omit [Attester c A] in
theorem Keeps.of_none (hsession : node'.side.session = none) : node.Keeps hpke node' :=
  fun _ h => nomatch hsession.symm.trans h

theorem step_sendMessage (hpke : Contexts c) (coins : Nat → Coins c) (node : ArkNode c A limit) (res : proto.ArkToHost)
    (hcall : node.call = none) :
    node.Step hpke coins (.sendMessage res) { node with side := (node.side.sendMessage proto res).2 } := by
  rcases (sendThrough_step proto.arkToHost node.side.framing node.side.session res).seals hpke with
    ⟨hframing, hsession⟩ | ⟨session, payload, packet, sender, hsession, hencode, hseal, hsent, hkeeps⟩
  · refine .quiet ⟨rfl, congrArg Net.sent hframing, le_rfl, ?_, fun _ _ => ⟨rfl, rfl⟩⟩ (fun _ _ _ _ h => nomatch h.input)
      fun _ _ _ h => nomatch h.input
    exact hsession.elim (fun hnone => .of_none hnone) fun hsession => .of_eq hsession rfl
  · refine .seals ⟨⟨res, rfl, hencode⟩, hsession, sender, hseal⟩ rfl hsent rfl (fun session' h => ?_) hcall hcall
    exact ⟨session, hsession, hkeeps session' h, rfl⟩

omit [Attester c A] in
theorem next_abort (err : Error) (wait : AckWait c) :
    next (ArkSide.abort err : Flow (MessagePoint c) proto.HostToArk) ≠ some (.handshake (.ack wait)) := by
  intro h
  cases err <;> cases h

theorem Quiet.step {point : MessagePoint c} {packet : Except Error (Option Blob)} (hquiet : node.Quiet hpke node')
    (hcall : node.call = some point)
    (hanswers : ∀ packet', packet = .ok (some packet') → point = .handshake .hello → ∀ wait arkHello answer,
      ¬ ArkSide.Answers (coins node.side.draws) node.side packet' wait arkHello answer)
    (haccepts : ∀ packet' wait, packet = .ok (some packet') → point = .handshake (.ack wait) → ∀ session,
      ¬ node.side.acceptAck wait packet' = .ok session) :
    node.Step hpke coins (.deliver packet : ArkInput proto) node' := by
  refine .quiet hquiet (fun packet' wait arkHello answer h => ?_) fun packet' wait session h => ?_
  · injection h.input with hpacket
    exact hanswers packet' hpacket (Option.some.inj (hcall.symm.trans h.call)) _ _ _ h.answers
  · injection h.input with hpacket
    exact haccepts packet' wait hpacket (Option.some.inj (hcall.symm.trans h.call)) session h.accepts

theorem step_deliver (hpke : Contexts c) (coins : Nat → Coins c) (node : ArkNode c A limit) {point : MessagePoint c}
    (hcall : node.call = some point) (packet : Except Error (Option Blob)) :
    node.Step hpke coins (.deliver packet : ArkInput proto)
      { side := (node.side.nextMessageStep proto (coins node.side.draws) point packet).2
        call := next (node.side.nextMessageStep proto (coins node.side.draws) point packet).1
        hostSigner := node.signerAfter point packet } := by
  have hstep := ArkSide.nextMessageStep_step proto (coins node.side.draws) node.side point packet
  generalize node.side.nextMessageStep proto (coins node.side.draws) point packet = r at hstep
  obtain ⟨flow, side⟩ := r
  cases hstep with
  | terminated | recvFailed | junk _ =>
      exact Quiet.step ⟨rfl, rfl, le_rfl, .of_eq rfl rfl, fun _ h => nomatch h⟩ hcall
        (fun _ _ h => nomatch h) fun _ _ _ h => nomatch h
  | undecodable _ _ | reset | broken _ _ =>
      exact Quiet.step ⟨rfl, rfl, le_rfl, .of_none rfl, fun _ h => nomatch h⟩ hcall
        (fun _ _ h => nomatch h) fun _ _ _ h => nomatch h
  | opened hsession hopen =>
      refine Quiet.step ⟨rfl, rfl, le_rfl, fun session' h => ?_, fun _ h => nomatch h⟩ hcall
        (fun _ _ h => nomatch h) fun _ _ _ h => nomatch h
      obtain rfl := Option.some.inj h
      exact ⟨_, hsession, rfl, rfl⟩
  | @aborted point err =>
      have hsigner : node.signerAfter (.handshake point) (.error err) = node.hostSigner := by
        cases point <;> rfl
      exact Quiet.step ⟨rfl, rfl, le_rfl, .of_eq rfl hsigner, fun wait h => absurd h (next_abort err wait)⟩ hcall
        (fun _ h => nomatch h) fun _ _ h => nomatch h
  | @restarted point =>
      have hsigner : node.signerAfter (.handshake point) (.ok none) = node.hostSigner := by
        cases point <;> rfl
      exact Quiet.step ⟨rfl, rfl, le_rfl, .of_eq rfl hsigner, fun _ h => nomatch h⟩ hcall
        (fun _ h => nomatch h) fun _ _ h => nomatch h
  | refused hsame hframing hnone =>
      refine Quiet.step ⟨hsame.signer, congrArg Net.sent hframing, hsame.draws ▸ Nat.le_succ _,
        .of_eq hsame.session rfl, fun _ h => nomatch h⟩ hcall (fun packet' hpacket _ => ?_) fun _ _ _ h => nomatch h
      obtain rfl := Option.some.inj (Except.ok.inj hpacket)
      exact hnone
  | answered hsame hanswers hsend =>
      refine .answers ⟨rfl, hcall, hanswers⟩ hsame.signer (Net.sent_of_sendPacket hsend) hsame.draws
        (.of_eq hsame.session rfl) fun wait' h => ?_
      cases h
      rfl
  | @unanswered _ _ _ _ _ err hsame hanswers hsend =>
      exact .answers ⟨rfl, hcall, hanswers⟩ hsame.signer (Net.sent_of_sendPacket hsend) hsame.draws
        (.of_eq hsame.session rfl) fun wait' h => absurd h (next_abort err wait')
  | @accepted packet wait session haccept =>
      refine .accepts ⟨rfl, hcall, haccept⟩ ?_
      rw [signerAfter, haccept]
      rfl
  | @rejected packet wait err haccept =>
      have hsigner : node.signerAfter (.handshake (.ack wait)) (.ok (some packet)) = node.hostSigner := by
        rw [signerAfter, haccept]
      refine Quiet.step ⟨rfl, rfl, le_rfl, .of_eq rfl hsigner, fun _ h => nomatch h⟩ hcall
        (fun _ _ h => nomatch h) fun packet' wait' hpacket hpoint session h => ?_
      cases hpacket
      cases hpoint
      exact nomatch haccept.symm.trans h

theorem step_step (hpke : Contexts c) (coins : Nat → Coins c) (node : ArkNode c A limit) (input : ArkInput proto) :
    node.Step hpke coins input (node.step coins input) := by
  have hidle : ∀ {input : ArkInput proto}, (∀ packet, input = .deliver packet → node.call = none) →
      node.Step hpke coins input node := by
    intro input hinput
    refine .quiet ⟨rfl, rfl, le_rfl, .of_eq rfl rfl, fun _ _ => ⟨rfl, rfl⟩⟩ (fun _ _ _ _ h => ?_) fun _ _ _ h => ?_
    · exact nomatch (hinput _ h.input).symm.trans h.call
    · exact nomatch (hinput _ h.input).symm.trans h.call
  cases input with
  | nextMessage =>
      rw [step]
      split
      · exact .quiet ⟨rfl, rfl, le_rfl, .of_eq rfl rfl, fun _ h => nomatch h⟩ (fun _ _ _ _ h => nomatch h.input)
          fun _ _ _ h => nomatch h.input
      · exact hidle fun _ h => nomatch h
  | deliver packet =>
      rw [step]
      split
      · rename_i hcall
        exact hidle fun _ _ => hcall
      · rename_i point hcall
        exact step_deliver hpke coins node hcall packet
  | sendMessage res =>
      rw [step]
      split
      · rename_i hcall
        exact step_sendMessage hpke coins node res hcall
      · exact hidle fun _ h => nomatch h
  | answers answers =>
      exact .quiet ⟨rfl, rfl, le_rfl, .of_eq rfl rfl, fun _ _ => ⟨rfl, rfl⟩⟩ (fun _ _ _ _ h => nomatch h.input)
        fun _ _ _ h => nomatch h.input

/-! What the steps have in common. -/

variable {input : ArkInput proto}

theorem Step.signer (h : node.Step hpke coins input node') : node'.side.signer = node.side.signer := by
  cases h with
  | quiet hquiet _ _ => exact hquiet.signer
  | answers _ hsigner _ _ _ _ => exact hsigner
  | accepts _ hnode => rw [hnode]
  | seals _ hsigner _ _ _ _ _ => exact hsigner

theorem Step.draws (h : node.Step hpke coins input node') : node.side.draws ≤ node'.side.draws := by
  cases h with
  | quiet hquiet _ _ => exact hquiet.draws
  | answers _ _ _ hdraws _ _ => omega
  | accepts _ hnode => rw [hnode]
  | seals _ _ _ hdraws _ _ _ => omega

theorem Step.sent (h : node.Step hpke coins input node') :
    node.side.framing.sent ⊆ node'.side.framing.sent := by
  intro packet hmem
  cases h with
  | quiet hquiet _ _ => exact hquiet.sent ▸ hmem
  | answers _ _ hsent _ _ _ => exact hsent ▸ List.mem_cons_of_mem _ hmem
  | accepts _ hnode => exact hnode ▸ hmem
  | seals _ _ hsent _ _ _ _ => exact hsent ▸ List.mem_cons_of_mem _ hmem

/-- All that is sent are answers and sealed payloads. -/
theorem Step.sends (h : node.Step hpke coins input node') {packet : Blob} (hmem : packet ∈ node'.side.framing.sent) :
    packet ∈ node.side.framing.sent ∨
      (∃ taken wait arkHello, node.Answers coins input taken wait arkHello packet) ∨
      ∃ session payload, node.Seals input session payload packet := by
  cases h with
  | quiet hquiet _ _ => exact Or.inl (hquiet.sent ▸ hmem)
  | answers hanswers _ hsent _ _ _ =>
      rw [hsent] at hmem
      rcases List.mem_cons.mp hmem with rfl | hmem
      · exact Or.inr (Or.inl ⟨_, _, _, hanswers⟩)
      · exact Or.inl hmem
  | accepts _ hnode =>
      rw [hnode] at hmem
      exact Or.inl hmem
  | seals hseals _ hsent _ _ _ _ =>
      rw [hsent] at hmem
      rcases List.mem_cons.mp hmem with rfl | hmem
      · exact Or.inr (Or.inr ⟨_, _, hseals⟩)
      · exact Or.inl hmem

theorem Step.answered (h : node.Step hpke coins input node') {packet answer : Blob} {wait : AckWait c}
    {arkHello : ArkHello c} (hanswers : node.Answers coins input packet wait arkHello answer) :
    node'.side.draws = node.side.draws + 1 ∧ answer ∈ node'.side.framing.sent := by
  cases h with
  | quiet _ hno _ => exact absurd hanswers (hno _ _ _ _)
  | answers hanswers' _ hsent hdraws _ _ =>
      obtain rfl := Option.some.inj (Except.ok.inj (ArkInput.deliver.inj (hanswers.input.symm.trans hanswers'.input)))
      obtain ⟨_, _, rfl⟩ := hanswers.answers.unique hanswers'.answers
      exact ⟨hdraws, hsent ▸ List.mem_cons_self⟩
  | accepts haccepts _ => exact nomatch hanswers.call.symm.trans haccepts.call
  | seals hseals _ _ _ _ hnone _ => exact nomatch hanswers.call.symm.trans hnone

/-- What a node waits with it waited with before, or it answered just now. -/
theorem Step.waits (h : node.Step hpke coins input node') {wait : AckWait c}
    (hcall : node'.call = some (.handshake (.ack wait))) :
    (node.call = some (.handshake (.ack wait)) ∧ node'.side.draws = node.side.draws ∧
        ∀ packet wait' session, ¬ node.Accepts input packet wait' session) ∨
      node'.side.draws = node.side.draws + 1 ∧
        ∃ packet arkHello answer, node.Answers coins input packet wait arkHello answer := by
  cases h with
  | quiet hquiet _ hno =>
      obtain ⟨hsame, hdraws⟩ := hquiet.call wait hcall
      exact Or.inl ⟨hsame ▸ hcall, hdraws, hno⟩
  | answers hanswers _ _ hdraws _ hwait =>
      obtain rfl := hwait wait hcall
      exact Or.inr ⟨hdraws, _, _, _, hanswers⟩
  | accepts _ hnode =>
      rw [hnode] at hcall
      cases hcall
  | seals _ _ _ _ _ _ hnone => exact nomatch hnone.symm.trans hcall

theorem Step.session (h : node.Step hpke coins input node') {session : Session c}
    (hsession : node'.side.session = some session) :
    (∃ session₀, node.side.session = some session₀ ∧
        hpke.sendChannel session.sender = hpke.sendChannel session₀.sender ∧ node'.hostSigner = node.hostSigner) ∨
      ∃ packet wait, node.Accepts input packet wait session ∧ node'.hostSigner = some wait.hostHello.hostSigner := by
  cases h with
  | quiet hquiet _ _ => exact Or.inl (hquiet.keeps session hsession)
  | answers _ _ _ _ hkeeps _ => exact Or.inl (hkeeps session hsession)
  | accepts haccepts hnode =>
      rw [hnode] at hsession
      obtain rfl := Option.some.inj hsession
      exact Or.inr ⟨_, _, haccepts, by rw [hnode]⟩
  | seals _ _ _ _ hkeeps _ _ => exact Or.inl (hkeeps session hsession)

end ArkNode

/-! ### A host -/

namespace HostNode

/-- With this input the handshake that waits acknowledges an ArkHello. -/
structure Acks (coins : Nat → Coins c) (node : HostNode c Info limit) (input : HostInput c proto Info)
    (packet : Option Blob) (wait : HelloWait c Info) (verified : Verified c Info) (session : Session c) (ack : Blob) :
    Prop where
  input : input = .deliver (.ok packet)
  call : node.call = some wait
  ours : wait.Ours packet
  answer : wait.answer (coins node.side.draws) (packet.getD c.empty) = .ok (verified, session, ack)

/-- With this input a payload is sealed in the session. -/
structure Seals (node : HostNode c Info limit) (input : HostInput c proto Info) (session : Session c)
    (payload packet : Blob) : Prop where
  input : ∃ req, input = .sendMessage req ∧ proto.hostToArk.encode req = .ok payload
  active : node.side.session = some session
  sealed : ∃ sender, c.senderSeal session.sender payload = (.ok packet, sender)

/-- The session goes on, or there is none afterwards. -/
def Keeps (hpke : Contexts c) (node node' : HostNode c Info limit) : Prop :=
  ∀ session', node'.side.session = some session' → ∃ session, node.side.session = some session ∧
    hpke.sendChannel session'.sender = hpke.sendChannel session.sender ∧ node'.arkIdentity = node.arkIdentity

/-- Nothing is sent or set up. -/
structure Quiet (hpke : Contexts c) (node node' : HostNode c Info limit) : Prop where
  sent : node'.side.framing.sent = node.side.framing.sent
  draws : node.side.draws ≤ node'.side.draws
  keeps : node.Keeps hpke node'
  call : ∀ wait', node'.call = some wait' → ∃ wait, node.call = some wait ∧ wait'.hostXdsaSk = wait.hostXdsaSk ∧
    wait'.hostXhpkeSk = wait.hostXhpkeSk ∧ node'.side.draws = node.side.draws

/-- What a step of a host can be. -/
inductive Step (hpke : Contexts c) (coins : Nat → Coins c) (node : HostNode c Info limit)
    (input : HostInput c proto Info) (node' : HostNode c Info limit) : Prop
  | quiet : node.Quiet hpke node' →
      (∀ packet wait verified session ack, ¬ node.Acks coins input packet wait verified session ack) →
      Step hpke coins node input node'
  | greets {verifier hello} : input = .handshake verifier →
      c.cborEncode (HelloWait.mk verifier (c.xdsaGenerate (coins node.side.draws).first)
        (c.xhpkeGenerate (coins node.side.draws).second) 0).hostHello.toCbor = .ok hello →
      node'.side.framing.sent = hello :: node.side.framing.sent → node'.side.draws = node.side.draws + 1 →
      node'.side.session = none →
      (∀ wait', node'.call = some wait' → wait' = HelloWait.mk verifier (c.xdsaGenerate (coins node.side.draws).first)
        (c.xhpkeGenerate (coins node.side.draws).second) 0) → Step hpke coins node input node'
  | acks {packet wait verified session ack} : node.Acks coins input packet wait verified session ack →
      node'.side.framing.sent = ack :: node.side.framing.sent → node'.side.draws = node.side.draws + 1 →
      node'.call = none →
      (node.Keeps hpke node' ∨ node'.side.session = some session ∧ node'.arkIdentity = some verified.arkIdentity) →
      Step hpke coins node input node'
  | seals {session payload packet} : node.Seals input session payload packet →
      node'.side.framing.sent = packet :: node.side.framing.sent → node'.side.draws = node.side.draws →
      node.Keeps hpke node' → node.call = none → node'.call = none → Step hpke coins node input node'

variable {coins : Nat → Coins c} {node node' : HostNode c Info limit}

theorem Keeps.of_eq (hsession : node'.side.session = node.side.session) (hidentity : node'.arkIdentity = node.arkIdentity) :
    node.Keeps hpke node' :=
  fun session' h => ⟨session', hsession ▸ h, rfl, hidentity⟩

theorem Keeps.of_none (hsession : node'.side.session = none) : node.Keeps hpke node' :=
  fun _ h => nomatch hsession.symm.trans h

theorem step_sendMessage (hpke : Contexts c) (coins : Nat → Coins c) (node : HostNode c Info limit)
    (req : proto.HostToArk) (hcall : node.call = none) :
    node.Step hpke coins (.sendMessage req) { node with side := (node.side.sendMessage proto req).2 } := by
  rcases (sendThrough_step proto.hostToArk node.side.framing node.side.session req).seals hpke with
    ⟨hframing, hsession⟩ | ⟨session, payload, packet, sender, hsession, hencode, hseal, hsent, hkeeps⟩
  · refine .quiet ⟨congrArg Net.sent hframing, le_rfl, ?_, fun wait h => ⟨wait, h, rfl, rfl, rfl⟩⟩
      fun _ _ _ _ _ h => nomatch h.input
    exact hsession.elim (fun hnone => .of_none hnone) fun hsession => .of_eq hsession rfl
  · refine .seals ⟨⟨req, rfl, hencode⟩, hsession, sender, hseal⟩ hsent rfl (fun session' h => ?_) hcall hcall
    exact ⟨session, hsession, hkeeps session' h, rfl⟩

theorem step_handshake (hpke : Contexts c) (coins : Nat → Coins c) (node : HostNode c Info limit)
    (verifier : Verifier c Info) :
    node.Step hpke coins (.handshake verifier : HostInput c proto Info)
      { node with
        side := (node.side.handshakeStart (coins node.side.draws) verifier).2
        call := started (node.side.handshakeStart (coins node.side.draws) verifier).1 } := by
  have hstep := HostSide.handshakeStart_step (coins node.side.draws) node.side verifier
  generalize node.side.handshakeStart (coins node.side.draws) verifier = r at hstep
  obtain ⟨result, side⟩ := r
  cases hstep with
  | unreset hreset =>
      exact .quiet ⟨Net.sent_of_sendReset hreset, le_rfl, .of_none rfl, fun _ h => nomatch h⟩
        fun _ _ _ _ _ h => nomatch h.input
  | unencodable hreset =>
      exact .quiet ⟨Net.sent_of_sendReset hreset, Nat.le_succ _, .of_none rfl, fun _ h => nomatch h⟩
        fun _ _ _ _ _ h => nomatch h.input
  | unsent hwait hreset hencode hsend =>
      subst hwait
      refine .greets rfl hencode ?_ rfl rfl fun _ h => nomatch h
      exact (Net.sent_of_sendPacket hsend).trans (congrArg _ (Net.sent_of_sendReset hreset))
  | started hwait hreset hencode hsend =>
      subst hwait
      refine .greets rfl hencode ?_ rfl rfl fun wait' h => (Option.some.inj h).symm
      exact (Net.sent_of_sendPacket hsend).trans (congrArg _ (Net.sent_of_sendReset hreset))

theorem step_deliver (hpke : Contexts c) (coins : Nat → Coins c) (node : HostNode c Info limit)
    {wait : HelloWait c Info} (hcall : node.call = some wait) (packet : Except Error (Option Blob)) :
    node.Step hpke coins (.deliver packet : HostInput c proto Info)
      { side := (node.side.handshakeStep (coins node.side.draws) wait packet).2
        call := next (node.side.handshakeStep (coins node.side.draws) wait packet).1
        arkIdentity :=
          node.identityAfter wait packet (node.side.handshakeStep (coins node.side.draws) wait packet).1 } := by
  have hstep := HostSide.handshakeStep_step (coins node.side.draws) node.side wait packet
  generalize node.side.handshakeStep (coins node.side.draws) wait packet = r at hstep
  obtain ⟨flow, side⟩ := r
  have hquiet : ∀ {node'}, node.Quiet hpke node' → (∀ packet', packet = .ok packet' → wait.Ours packet' → ∀ result,
      ¬ wait.answer (coins node.side.draws) (packet'.getD c.empty) = .ok result) →
      node.Step hpke coins (.deliver packet : HostInput c proto Info) node' := by
    intro node' hquiet hanswer
    refine .quiet hquiet fun packet' wait' verified session ack h => ?_
    injection h.input with hpacket
    obtain rfl := Option.some.inj (hcall.symm.trans h.call)
    exact hanswer packet' hpacket h.ours _ h.answer
  cases hstep with
  | failed => exact hquiet ⟨rfl, le_rfl, .of_eq rfl rfl, fun _ h => nomatch h⟩ fun _ h => nomatch h
  | skipped hother _ =>
      refine hquiet ⟨rfl, le_rfl, .of_eq rfl rfl, fun wait' h => ?_⟩ fun packet' h hours => ?_
      · obtain rfl := Option.some.inj h
        exact ⟨wait, hcall, rfl, rfl, rfl⟩
      · obtain rfl := Except.ok.inj h
        exact absurd hours hother
  | gaveUp hother _ =>
      refine hquiet ⟨rfl, le_rfl, .of_eq rfl rfl, fun _ h => nomatch h⟩ fun packet' h hours => ?_
      obtain rfl := Except.ok.inj h
      exact absurd hours hother
  | rejected _ hanswer =>
      refine hquiet ⟨rfl, Nat.le_succ _, .of_eq rfl rfl, fun _ h => nomatch h⟩ fun packet' h _ result hresult => ?_
      obtain rfl := Except.ok.inj h
      exact nomatch hanswer.symm.trans hresult
  | unanswered hours hanswer hsend =>
      exact .acks ⟨rfl, hcall, hours, hanswer⟩ (Net.sent_of_sendPacket hsend) rfl rfl (Or.inl (.of_eq rfl rfl))
  | answered hours hanswer hsend =>
      obtain ⟨_, hopen, _, _⟩ := HelloWait.answer_ok hanswer
      refine .acks ⟨rfl, hcall, hours, hanswer⟩ (Net.sent_of_sendPacket hsend) rfl rfl (Or.inr ⟨rfl, ?_⟩)
      rw [identityAfter, hopen]

theorem step_nextMessage (hpke : Contexts c) (coins : Nat → Coins c) (node : HostNode c Info limit)
    (hcall : node.call = none) (packet : Except Error (Option Blob)) :
    node.Step hpke coins (.nextMessage packet : HostInput c proto Info)
      { node with side := (node.side.nextMessageStep proto packet).2 } := by
  have hstep := HostSide.nextMessageStep_step proto node.side packet
  generalize node.side.nextMessageStep proto packet = r at hstep
  obtain ⟨result, side⟩ := r
  have hidle : ∀ wait', node.call = some wait' → ∃ wait, node.call = some wait ∧ wait'.hostXdsaSk = wait.hostXdsaSk ∧
      wait'.hostXhpkeSk = wait.hostXhpkeSk ∧ node.side.draws = node.side.draws := fun _ h => nomatch hcall.symm.trans h
  cases hstep with
  | failed | broken _ _ =>
      exact .quiet ⟨rfl, le_rfl, .of_none rfl, hidle⟩ fun _ _ _ _ _ h => nomatch h.input
  | empty | inactive _ =>
      exact .quiet ⟨rfl, le_rfl, .of_eq rfl rfl, hidle⟩ fun _ _ _ _ _ h => nomatch h.input
  | opened hsession hopen =>
      refine .quiet ⟨rfl, le_rfl, fun session' h => ?_, hidle⟩ fun _ _ _ _ _ h => nomatch h.input
      obtain rfl := Option.some.inj h
      exact ⟨_, hsession, rfl, rfl⟩

theorem step_step (hpke : Contexts c) (coins : Nat → Coins c) (node : HostNode c Info limit)
    (input : HostInput c proto Info) : node.Step hpke coins input (node.step coins input) := by
  have hidle : ∀ {input : HostInput c proto Info}, (∀ packet, input = .deliver packet → node.call = none) →
      node.Step hpke coins input node := by
    intro input hinput
    refine .quiet ⟨rfl, le_rfl, .of_eq rfl rfl, fun wait h => ⟨wait, h, rfl, rfl, rfl⟩⟩ fun _ _ _ _ _ h => ?_
    exact nomatch (hinput _ h.input).symm.trans h.call
  cases input with
  | handshake verifier =>
      rw [step]
      split
      · exact step_handshake hpke coins node verifier
      · exact hidle fun _ h => nomatch h
  | deliver packet =>
      rw [step]
      split
      · rename_i hcall
        exact hidle fun _ _ => hcall
      · rename_i wait hcall
        exact step_deliver hpke coins node hcall packet
  | nextMessage packet =>
      rw [step]
      split
      · rename_i hcall
        exact step_nextMessage hpke coins node hcall packet
      · exact hidle fun _ h => nomatch h
  | sendMessage req =>
      rw [step]
      split
      · rename_i hcall
        exact step_sendMessage hpke coins node req hcall
      · exact hidle fun _ h => nomatch h
  | answers answers =>
      exact .quiet ⟨rfl, le_rfl, .of_eq rfl rfl, fun wait h => ⟨wait, h, rfl, rfl, rfl⟩⟩ fun _ _ _ _ _ h => nomatch h.input

variable {input : HostInput c proto Info}

theorem Step.draws (h : node.Step hpke coins input node') : node.side.draws ≤ node'.side.draws := by
  cases h with
  | quiet hquiet _ => exact hquiet.draws
  | greets _ _ _ hdraws _ _ => omega
  | acks _ _ hdraws _ _ => omega
  | seals _ _ hdraws _ _ _ => omega

/-- All that is sent are hellos, acks and sealed payloads. -/
theorem Step.sends (h : node.Step hpke coins input node') {packet : Blob} (hmem : packet ∈ node'.side.framing.sent) :
    packet ∈ node.side.framing.sent ∨
      (∃ wait : HelloWait c Info, c.cborEncode wait.hostHello.toCbor = .ok packet) ∨
      (∃ taken wait verified session, node.Acks coins input taken wait verified session packet) ∨
      ∃ session payload, node.Seals input session payload packet := by
  cases h with
  | quiet hquiet _ => exact Or.inl (hquiet.sent ▸ hmem)
  | greets _ hencode hsent _ _ _ =>
      rw [hsent] at hmem
      rcases List.mem_cons.mp hmem with rfl | hmem
      · exact Or.inr (Or.inl ⟨_, hencode⟩)
      · exact Or.inl hmem
  | acks hacks hsent _ _ _ =>
      rw [hsent] at hmem
      rcases List.mem_cons.mp hmem with rfl | hmem
      · exact Or.inr (Or.inr (Or.inl ⟨_, _, _, _, hacks⟩))
      · exact Or.inl hmem
  | seals hseals hsent _ _ _ _ =>
      rw [hsent] at hmem
      rcases List.mem_cons.mp hmem with rfl | hmem
      · exact Or.inr (Or.inr (Or.inr ⟨_, _, hseals⟩))
      · exact Or.inl hmem

theorem Step.acked (h : node.Step hpke coins input node') {packet : Option Blob} {wait : HelloWait c Info}
    {verified : Verified c Info} {session : Session c} {ack : Blob}
    (hacks : node.Acks coins input packet wait verified session ack) :
    node'.side.draws = node.side.draws + 1 := by
  cases h with
  | quiet _ hno => exact absurd hacks (hno _ _ _ _ _)
  | greets hinput _ _ _ _ _ => exact nomatch hacks.input.symm.trans hinput
  | acks _ _ hdraws _ _ => exact hdraws
  | seals _ _ _ _ hnone _ => exact nomatch hacks.call.symm.trans hnone

/-- A node waits with the keys it waited with before, or those it drew just now. -/
theorem Step.waits (h : node.Step hpke coins input node') {wait' : HelloWait c Info} (hcall : node'.call = some wait') :
    (∃ wait, node.call = some wait ∧ wait'.hostXdsaSk = wait.hostXdsaSk ∧ wait'.hostXhpkeSk = wait.hostXhpkeSk ∧
        node'.side.draws = node.side.draws) ∨
      node'.side.draws = node.side.draws + 1 ∧ wait'.hostXdsaSk = c.xdsaGenerate (coins node.side.draws).first ∧
        wait'.hostXhpkeSk = c.xhpkeGenerate (coins node.side.draws).second := by
  cases h with
  | quiet hquiet _ => exact Or.inl (hquiet.call wait' hcall)
  | greets _ _ _ hdraws _ hwait =>
      obtain rfl := hwait wait' hcall
      exact Or.inr ⟨hdraws, rfl, rfl⟩
  | acks _ _ _ hnone _ => exact nomatch hnone.symm.trans hcall
  | seals _ _ _ _ _ hnone => exact nomatch hnone.symm.trans hcall

theorem Step.session (h : node.Step hpke coins input node') {session : Session c}
    (hsession : node'.side.session = some session) :
    (∃ session₀, node.side.session = some session₀ ∧
        hpke.sendChannel session.sender = hpke.sendChannel session₀.sender ∧ node'.arkIdentity = node.arkIdentity) ∨
      ∃ packet wait verified ack, node.Acks coins input packet wait verified session ack ∧
        node'.arkIdentity = some verified.arkIdentity := by
  cases h with
  | quiet hquiet _ => exact Or.inl (hquiet.keeps session hsession)
  | greets _ _ _ _ hnone _ => exact nomatch hnone.symm.trans hsession
  | acks hacks _ _ _ hkeeps =>
      rcases hkeeps with hkeeps | ⟨hsome, hidentity⟩
      · exact Or.inl (hkeeps session hsession)
      · obtain rfl := Option.some.inj (hsome.symm.trans hsession)
        exact Or.inr ⟨_, _, _, _, hacks, hidentity⟩
  | seals _ _ _ hkeeps _ _ => exact Or.inl (hkeeps session hsession)

end HostNode

/-! ### Steps of a run -/

variable {parties : Parties c} {trace : Trace c proto A Info limit} {w w' : World c A Info limit}
  {action : Action c proto Info} {past past' : World c A Info limit × Action c proto Info} {a h : Nat}

/-- In this step Ark `a` answers a packet. -/
structure AnswersAt (parties : Parties c) (a : Nat) (past : World c A Info limit × Action c proto Info) (packet : Blob)
    (wait : AckWait c) (arkHello : ArkHello c) (answer : Blob) : Prop where
  action : past.2 = .ark a (.deliver (.ok (some packet)))
  answers : (past.1.ark a).Answers (parties.arkCoins a) (.deliver (.ok (some packet)) : ArkInput proto) packet wait
    arkHello answer

omit [Attester c A] in
/-- In this step Ark `a` accepts a packet and establishes a session. -/
structure AcceptsAt (a : Nat) (past : World c A Info limit × Action c proto Info) (packet : Blob) (wait : AckWait c)
    (session : Session c) : Prop where
  action : past.2 = .ark a (.deliver (.ok (some packet)))
  accepts : (past.1.ark a).Accepts (.deliver (.ok (some packet)) : ArkInput proto) packet wait session

omit [Attester c A] in
/-- In this step host `h` acknowledges an ArkHello. -/
structure AcksAt (parties : Parties c) (h : Nat) (past : World c A Info limit × Action c proto Info)
    (packet : Option Blob) (wait : HelloWait c Info) (verified : Verified c Info) (session : Session c) (ack : Blob) :
    Prop where
  action : past.2 = .host h (.deliver (.ok packet))
  acks : (past.1.host h).Acks (parties.hostCoins h) (.deliver (.ok packet) : HostInput c proto Info) packet wait
    verified session ack

/-- What holds of an Ark in every run: the rounds that made its state are in the trace, and no draw was used twice. -/
structure ArkInv (hpke : Contexts c) (parties : Parties c) (trace : Trace c proto A Info limit)
    (w : World c A Info limit) (a : Nat) : Prop where
  signer : (w.ark a).side.signer = parties.signers (parties.identity a)
  draws : ∀ past ∈ trace, (past.1.ark a).side.draws ≤ (w.ark a).side.draws
  answered : ∀ past ∈ trace, ∀ {packet wait arkHello answer}, AnswersAt parties a past packet wait arkHello answer →
    (past.1.ark a).side.draws < (w.ark a).side.draws ∧ answer ∈ (w.ark a).side.framing.sent
  once : ∀ past ∈ trace, ∀ past' ∈ trace, ∀ {packet wait arkHello answer packet' wait' arkHello' answer'},
    AnswersAt parties a past packet wait arkHello answer → AnswersAt parties a past' packet' wait' arkHello' answer' →
    (past.1.ark a).side.draws = (past'.1.ark a).side.draws → past = past'
  accepted : ∀ past ∈ trace, ∀ {packet wait session}, AcceptsAt a past packet wait session →
    ∀ wait', (w.ark a).call = some (.handshake (.ack wait')) → (past.1.ark a).side.draws < (w.ark a).side.draws
  waits : ∀ wait, (w.ark a).call = some (.handshake (.ack wait)) → ∃ past ∈ trace, ∃ packet arkHello answer,
    AnswersAt parties a past packet wait arkHello answer ∧ (past.1.ark a).side.draws + 1 = (w.ark a).side.draws
  session : ∀ session, (w.ark a).side.session = some session → ∃ past ∈ trace, ∃ packet wait established,
    AcceptsAt a past packet wait established ∧ (w.ark a).hostSigner = some wait.hostHello.hostSigner ∧
      hpke.sendChannel session.sender = hpke.sendChannel established.sender

/-- What holds of a host in every run. -/
structure HostInv (hpke : Contexts c) (parties : Parties c) (trace : Trace c proto A Info limit)
    (w : World c A Info limit) (h : Nat) : Prop where
  acked : ∀ past ∈ trace, ∀ {packet wait verified session ack},
    AcksAt parties h past packet wait verified session ack → (past.1.host h).side.draws < (w.host h).side.draws
  once : ∀ past ∈ trace, ∀ past' ∈ trace, ∀ {packet wait verified session ack packet' wait' verified' session' ack'},
    AcksAt parties h past packet wait verified session ack →
    AcksAt parties h past' packet' wait' verified' session' ack' →
    (past.1.host h).side.draws = (past'.1.host h).side.draws → past = past'
  waits : ∀ wait, (w.host h).call = some wait → ∃ n, n + 1 = (w.host h).side.draws ∧
    wait.hostXdsaSk = c.xdsaGenerate (parties.hostCoins h n).first ∧
    wait.hostXhpkeSk = c.xhpkeGenerate (parties.hostCoins h n).second
  session : ∀ session, (w.host h).side.session = some session → ∃ past ∈ trace, ∃ packet wait verified established ack,
    AcksAt parties h past packet wait verified established ack ∧ (w.host h).arkIdentity = some verified.arkIdentity ∧
      hpke.sendChannel session.sender = hpke.sendChannel established.sender

theorem ArkInv.frame (hinv : ArkInv hpke parties trace w a) (hother : ∀ input, action ≠ .ark a input)
    (hsame : w'.ark a = w.ark a) : ArkInv hpke parties ((w, action) :: trace) w' a := by
  have hanswers : ∀ {packet wait arkHello answer}, ¬ AnswersAt parties a (w, action) packet wait arkHello answer :=
    fun h => hother _ h.action
  refine ⟨hsame ▸ hinv.signer, ?_, ?_, ?_, ?_, ?_, ?_⟩
  · intro past hmem
    rw [hsame]
    rcases List.mem_cons.mp hmem with rfl | hmem
    · exact le_rfl
    · exact hinv.draws past hmem
  · intro past hmem packet wait arkHello answer h
    rw [hsame]
    rcases List.mem_cons.mp hmem with rfl | hmem
    · exact absurd h hanswers
    · exact hinv.answered past hmem h
  · intro past hmem past' hmem' _ _ _ _ _ _ _ _ h h' hdraws
    rcases List.mem_cons.mp hmem with rfl | hmem
    · exact absurd h hanswers
    rcases List.mem_cons.mp hmem' with rfl | hmem'
    · exact absurd h' hanswers
    exact hinv.once past hmem past' hmem' h h' hdraws
  · intro past hmem packet wait session h wait' hcall
    rw [hsame] at hcall ⊢
    rcases List.mem_cons.mp hmem with rfl | hmem
    · exact absurd h.action (hother _)
    · exact hinv.accepted past hmem h wait' hcall
  · intro wait hcall
    rw [hsame] at hcall ⊢
    obtain ⟨past, hmem, h⟩ := hinv.waits wait hcall
    exact ⟨past, List.mem_cons_of_mem _ hmem, h⟩
  · intro session hsession
    rw [hsame] at hsession ⊢
    obtain ⟨past, hmem, h⟩ := hinv.session session hsession
    exact ⟨past, List.mem_cons_of_mem _ hmem, h⟩

theorem ArkInv.next {input : ArkInput proto} (hinv : ArkInv hpke parties trace w a)
    (hstep : (w.ark a).Step hpke (parties.arkCoins a) input (w'.ark a)) :
    ArkInv hpke parties ((w, .ark a input) :: trace) w' a := by
  have hanswered : ∀ {packet wait arkHello answer}, AnswersAt parties a (w, Action.ark a input) packet wait arkHello answer →
      (w'.ark a).side.draws = (w.ark a).side.draws + 1 ∧ answer ∈ (w'.ark a).side.framing.sent := by
    intro packet wait arkHello answer h
    have hinput := h.action
    injection hinput with _ hinput
    subst hinput
    exact hstep.answered h.answers
  have hearlier : ∀ past ∈ trace, ∀ {packet wait arkHello answer}, AnswersAt parties a past packet wait arkHello answer →
      (past.1.ark a).side.draws < (w.ark a).side.draws := fun past hmem _ _ _ _ h => (hinv.answered past hmem h).1
  refine ⟨hstep.signer.trans hinv.signer, ?_, ?_, ?_, ?_, ?_, ?_⟩
  · intro past hmem
    rcases List.mem_cons.mp hmem with rfl | hmem
    · exact hstep.draws
    · exact le_trans (hinv.draws past hmem) hstep.draws
  · intro past hmem packet wait arkHello answer h
    rcases List.mem_cons.mp hmem with rfl | hmem
    · obtain ⟨hdraws, hsent⟩ := hanswered h
      exact ⟨hdraws ▸ Nat.lt_succ_self _, hsent⟩
    · exact ⟨Nat.lt_of_lt_of_le (hearlier past hmem h) hstep.draws, hstep.sent (hinv.answered past hmem h).2⟩
  · intro past hmem past' hmem' _ _ _ _ _ _ _ _ h h' hdraws
    rcases List.mem_cons.mp hmem with rfl | hmem <;> rcases List.mem_cons.mp hmem' with rfl | hmem'
    · rfl
    · exact absurd hdraws (Nat.ne_of_gt (hearlier past' hmem' h'))
    · exact absurd hdraws (Nat.ne_of_lt (hearlier past hmem h))
    · exact hinv.once past hmem past' hmem' h h' hdraws
  · intro past hmem packet wait session h wait' hcall
    rcases hstep.waits hcall with ⟨hcall', hdraws, hno⟩ | ⟨hdraws, _⟩
    · rcases List.mem_cons.mp hmem with rfl | hmem
      · have hinput := h.action
        injection hinput with _ hinput
        subst hinput
        exact absurd h.accepts (hno _ _ _)
      · rw [hdraws]
        exact hinv.accepted past hmem h wait' hcall'
    · rw [hdraws]
      rcases List.mem_cons.mp hmem with rfl | hmem
      · exact Nat.lt_succ_self _
      · exact Nat.lt_succ_of_le (hinv.draws past hmem)
  · intro wait hcall
    rcases hstep.waits hcall with ⟨hcall', hdraws, _⟩ | ⟨hdraws, packet, arkHello, answer, hanswers⟩
    · obtain ⟨past, hmem, h⟩ := hinv.waits wait hcall'
      rw [hdraws]
      exact ⟨past, List.mem_cons_of_mem _ hmem, h⟩
    · obtain rfl := hanswers.input
      exact ⟨_, List.mem_cons_self, packet, arkHello, answer, ⟨rfl, hanswers⟩, hdraws.symm⟩
  · intro session hsession
    rcases hstep.session hsession with ⟨session₀, hsession₀, hchannel, hsigner⟩ | ⟨packet, wait, haccepts, hsigner⟩
    · obtain ⟨past, hmem, packet, wait, established, h, hpeer, hsame⟩ := hinv.session session₀ hsession₀
      exact ⟨past, List.mem_cons_of_mem _ hmem, packet, wait, established, h, hsigner.trans hpeer, hchannel.trans hsame⟩
    · obtain rfl := haccepts.input
      exact ⟨_, List.mem_cons_self, packet, wait, session, ⟨rfl, haccepts⟩, hsigner, rfl⟩

omit [Attester c A] in
theorem HostInv.frame (hinv : HostInv hpke parties trace w h) (hother : ∀ input, action ≠ .host h input)
    (hsame : w'.host h = w.host h) : HostInv hpke parties ((w, action) :: trace) w' h := by
  have hacks : ∀ {packet wait verified session ack}, ¬ AcksAt parties h (w, action) packet wait verified session ack :=
    fun h => hother _ h.action
  refine ⟨?_, ?_, ?_, ?_⟩
  · intro past hmem packet wait verified session ack h
    rw [hsame]
    rcases List.mem_cons.mp hmem with rfl | hmem
    · exact absurd h hacks
    · exact hinv.acked past hmem h
  · intro past hmem past' hmem' _ _ _ _ _ _ _ _ _ _ h h' hdraws
    rcases List.mem_cons.mp hmem with rfl | hmem
    · exact absurd h hacks
    rcases List.mem_cons.mp hmem' with rfl | hmem'
    · exact absurd h' hacks
    exact hinv.once past hmem past' hmem' h h' hdraws
  · intro wait hcall
    rw [hsame] at hcall ⊢
    exact hinv.waits wait hcall
  · intro session hsession
    rw [hsame] at hsession ⊢
    obtain ⟨past, hmem, h⟩ := hinv.session session hsession
    exact ⟨past, List.mem_cons_of_mem _ hmem, h⟩

omit [Attester c A] in
theorem HostInv.next {input : HostInput c proto Info} (hinv : HostInv hpke parties trace w h)
    (hstep : (w.host h).Step hpke (parties.hostCoins h) input (w'.host h)) :
    HostInv hpke parties ((w, .host h input) :: trace) w' h := by
  refine ⟨?_, ?_, ?_, ?_⟩
  · intro past hmem packet wait verified session ack hacks
    rcases List.mem_cons.mp hmem with rfl | hmem
    · have hinput := hacks.action
      injection hinput with _ hinput
      subst hinput
      exact hstep.acked hacks.acks ▸ Nat.lt_succ_self _
    · exact Nat.lt_of_lt_of_le (hinv.acked past hmem hacks) hstep.draws
  · intro past hmem past' hmem' _ _ _ _ _ _ _ _ _ _ hacks hacks' hdraws
    rcases List.mem_cons.mp hmem with rfl | hmem <;> rcases List.mem_cons.mp hmem' with rfl | hmem'
    · rfl
    · exact absurd hdraws (Nat.ne_of_gt (hinv.acked past' hmem' hacks'))
    · exact absurd hdraws (Nat.ne_of_lt (hinv.acked past hmem hacks))
    · exact hinv.once past hmem past' hmem' hacks hacks' hdraws
  · intro wait hcall
    rcases hstep.waits hcall with ⟨wait₀, hcall₀, hxdsa, hxhpke, hdraws⟩ | ⟨hdraws, hxdsa, hxhpke⟩
    · obtain ⟨n, hn, hxdsa₀, hxhpke₀⟩ := hinv.waits wait₀ hcall₀
      exact ⟨n, hn.trans hdraws.symm, hxdsa.trans hxdsa₀, hxhpke.trans hxhpke₀⟩
    · exact ⟨_, hdraws.symm, hxdsa, hxhpke⟩
  · intro session hsession
    rcases hstep.session hsession with
      ⟨session₀, hsession₀, hchannel, hidentity⟩ | ⟨packet, wait, verified, ack, hacks, hidentity⟩
    · obtain ⟨past, hmem, packet, wait, verified, established, ack, hacks, hpeer, hsame⟩ :=
        hinv.session session₀ hsession₀
      exact ⟨past, List.mem_cons_of_mem _ hmem, packet, wait, verified, established, ack, hacks, hidentity.trans hpeer,
        hchannel.trans hsame⟩
    · obtain rfl := hacks.input
      exact ⟨_, List.mem_cons_self, packet, wait, verified, session, ack, ⟨rfl, hacks⟩, hidentity, rfl⟩

theorem Run.arkInv {reading : Reading hpke} (hrun : Run reading parties trace w) (a : Nat) :
    ArkInv hpke parties trace w a := by
  induction hrun with
  | start attesters =>
      refine ⟨rfl, ?_, ?_, ?_, ?_, ?_, ?_⟩ <;> intro _ hnone <;> cases hnone
  | @step trace w action _ _ ih =>
      by_cases hmine : ∃ input, action = .ark a input
      · obtain ⟨input, rfl⟩ := hmine
        refine ih.next ?_
        rw [World.step_ark_self]
        exact ArkNode.step_step hpke _ _ input
      · have hother : ∀ input, action ≠ .ark a input := fun input h => hmine ⟨input, h⟩
        exact ih.frame hother (World.step_ark_other parties w hother)

theorem Run.hostInv {reading : Reading hpke} (hrun : Run reading parties trace w) (h : Nat) :
    HostInv hpke parties trace w h := by
  induction hrun with
  | start attesters =>
      refine ⟨?_, ?_, ?_, ?_⟩ <;> intro _ hnone <;> cases hnone
  | @step trace w action _ _ ih =>
      by_cases hmine : ∃ input, action = .host h input
      · obtain ⟨input, rfl⟩ := hmine
        refine ih.next ?_
        rw [World.step_host_self]
        exact HostNode.step_step hpke _ _ input
      · have hother : ∀ input, action ≠ .host h input := fun input h => hmine ⟨input, h⟩
        exact ih.frame hother (World.step_host_other parties w hother)

/-! ### Draws of a run -/

/-- Everyone drew as much in the one world as in the other, or less. -/
structure World.Older (w w' : World c A Info limit) : Prop where
  ark : ∀ a, (w.ark a).side.draws ≤ (w'.ark a).side.draws
  host : ∀ h, (w.host h).side.draws ≤ (w'.host h).side.draws

omit [Attester c A] in
theorem World.Older.trans {w w' w'' : World c A Info limit} (h : w.Older w') (h' : w'.Older w'') : w.Older w'' :=
  ⟨fun a => (h.ark a).trans (h'.ark a), fun i => (h.host i).trans (h'.host i)⟩

theorem World.older_step (hpke : Contexts c) (parties : Parties c) (w : World c A Info limit)
    (action : Action c proto Info) : w.Older (w.step parties action) := by
  constructor
  · intro a
    by_cases hmine : ∃ input, action = .ark a input
    · obtain ⟨input, rfl⟩ := hmine
      rw [World.step_ark_self]
      exact (ArkNode.step_step hpke _ _ input).draws
    · rw [World.step_ark_other parties w fun input h => hmine ⟨input, h⟩]
  · intro h
    by_cases hmine : ∃ input, action = .host h input
    · obtain ⟨input, rfl⟩ := hmine
      rw [World.step_host_self]
      exact (HostNode.step_step hpke _ _ input).draws
    · rw [World.step_host_other parties w fun input h => hmine ⟨input, h⟩]

theorem Run.older {reading : Reading hpke} (hrun : Run reading parties trace w) (hmem : past ∈ trace) : past.1.Older w := by
  induction hrun with
  | start attesters => cases hmem
  | @step trace w action _ _ ih =>
      have hstep := World.older_step hpke parties w action
      rcases List.mem_cons.mp hmem with rfl | hmem
      · exact hstep
      · exact (ih hmem).trans hstep

omit [Attester c A] in
theorem Parties.Named.older {reading : Reading hpke} {w' : World c A Info limit} (hnamed : parties.Named reading w')
    (h : w.Older w') : parties.Named reading w where
  unleaked := hnamed.unleaked
  identity a hdraws := hnamed.identity a (hdraws.trans_le (h.ark a))
  arkFirst a n hn := hnamed.arkFirst a n (hn.trans_le (h.ark a))
  arkSecond a n hn := hnamed.arkSecond a n (hn.trans_le (h.ark a))
  hostFirst i n hn := hnamed.hostFirst i n (hn.trans_le (h.host i))
  hostSecond i n hn := hnamed.hostSecond i n (hn.trans_le (h.host i))

theorem Parties.Named.before {reading : Reading hpke} (hnamed : parties.Named reading w)
    (hrun : Run reading parties trace w) (hmem : past ∈ trace) : parties.Named reading past.1 :=
  hnamed.older (hrun.older hmem)

end DarkbioWire
