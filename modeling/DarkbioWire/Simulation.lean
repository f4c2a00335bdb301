import DarkbioWire.Endpoint.Ark
import DarkbioWire.Endpoint.Host
import DarkbioWire.Packets

/-!
# Processes simulate their nodes

A process over bytes takes the steps of a node of the packet network: a poll that finds a packet delivers it, a call that
looks in vain is nothing, and what the writer fails is what the node is told before. `Simulates` is the relation, kept by
every action (`ArkProc.Simulates.step`, `HostProc.Simulates.step`).
-/

namespace DarkbioWire

open Era Framing

variable {c : Crypto (List UInt8)} {proto : Protocol (List UInt8)} {A Info : Type} {cobs : Cobs} {maxFrameSize : Nat}

/-! ### An Ark -/

namespace ArkNode

/-- A node and its eras after some inputs. -/
def follow [Attester c A] {limit : Nat} (coins : Nat → Coins c) (state : ArkNode c A limit × List (Era c))
    (inputs : List (ArkInput proto)) : ArkNode c A limit × List (Era c) :=
  inputs.foldl (fun state input => (state.1.step coins input, state.1.pass state.2 input)) state

end ArkNode

namespace ArkProc

variable [Attester c A] {coins : Nat → Coins c} {p : ArkProc c proto A cobs maxFrameSize}
  {node : ArkNode c A (maxMessageSize cobs maxFrameSize)} {eras : List (Era c)} {wire : List UInt8}

/-- What an action of a process is for its node: the failure its transport will meet, and the call or the packet. Reads that
arrive and a call that looks in vain are nothing to it. -/
def inputs (coins : Nat → Coins c) (p : ArkProc c proto A cobs maxFrameSize) : ArkAction proto → List (ArkInput proto)
  | .arrive _ => []
  | .plan _ => []
  | .nextMessage => [.nextMessage]
  | .sendMessage res => [.answers [failure (p.side.sendMessage proto res).1], .sendMessage res]
  | .poll =>
    match p.call with
    | none => []
    | some (point, discard) =>
      let received := p.side.framing.nextPacketLoop discard
      match packetOf received with
      | .ready packet =>
        [.answers [({ p.side with framing := received.2 } : ArkSide c A (Framing cobs maxFrameSize)).refusal
          (coins p.side.draws) point packet], .deliver packet]
      | _ => []

/-- A process is in the state of a node: the same side in the same call over the packets that its wire carries, with the same
traffic behind it. -/
structure Simulates (p : ArkProc c proto A cobs maxFrameSize) (wire : List UInt8)
    (node : ArkNode c A (maxMessageSize cobs maxFrameSize)) (eras : List (Era c)) : Prop where
  side : node.side = p.side.over node.side.framing
  call : node.call = p.call.map Prod.fst
  carries : Carries cobs maxFrameSize wire node.side.framing.sent p.side.framing.writer.wire
  tells : p.history.Tells eras

omit [Attester c A] in
theorem settle_tells {history : History c proto.HostToArk} (h : history.Tells eras) (before : Option (Session c))
    {side : ArkSide c A (Framing cobs maxFrameSize)} (hnone : side.session = none)
    (flow : Flow (MessagePoint c) proto.HostToArk) : (settle history before (flow, side)).2.history.Tells eras := by
  cases flow with
  | wait point =>
      rw [settle]
      dsimp only
      rw [hnone, History.noteSession_none]
      exact h
  | done result => exact h.noteResult result

/-- What a call opens of a packet, and the session it begins with it, is what the eras note. -/
theorem poll_tells (h : p.history.Tells eras) (hside : node.side = p.side.over node.side.framing) {point : MessagePoint c}
    {discard : Nat} (hcall : node.call = some point) (hinside : ∀ pt, point = .handshake pt → p.side.session = none)
    {packet : Except Error (Option (List UInt8))}
    (hready : packetOf (p.side.framing.nextPacketLoop discard) = .ready packet) :
    (p.poll coins point discard).2.history.Tells (node.pass eras (.deliver packet : ArkInput proto)) := by
  obtain ⟨flow, side, hstep, hsettle⟩ := poll_ready coins p point hready
  have hsession : node.side.session = p.side.session := congrArg ArkSide.session hside
  have haccept : ∀ {wait taken result}, p.side.acceptAck wait taken = result → node.side.acceptAck wait taken = result :=
    fun hresult => by
      rw [hside]
      exact hresult
  -- in a handshake without the HostAck nothing begins
  have hnothing : ∀ {pt} {side' : ArkSide c A (Framing cobs maxFrameSize)} (flow : Flow (MessagePoint c) proto.HostToArk),
      point = .handshake pt → side'.session = p.side.session →
      (∀ wait taken, pt = .ack wait → packet = .ok (some taken) → ∃ err, node.side.acceptAck wait taken = .error err) →
      (settle p.history p.side.session (flow, side')).2.history.Tells
        (node.pass eras (.deliver packet : ArkInput proto)) := by
    intro pt side' flow hpoint hsame hrefused
    rw [ArkNode.pass_handshake (hpoint ▸ hcall) hrefused]
    exact settle_tells h _ (hsame.trans (hinside pt hpoint)) flow
  rw [hsettle]
  cases hstep with
  | terminated | recvFailed =>
      rw [ArkNode.pass_packet hcall, hsession]
      exact (h.noteOpen _ _).noteResult _
  | undecodable _ _ | reset | broken _ _ =>
      rw [ArkNode.pass_packet hcall, hsession]
      exact settle_tells (h.noteOpen _ _) _ rfl _
  | junk hnone =>
      rw [ArkNode.pass_packet hcall, hsession]
      exact settle_tells (h.noteOpen _ _) _ hnone _
  | opened hsome hopen =>
      rw [ArkNode.pass_packet hcall, hsession]
      exact (h.noteOpen _ _).noteResult _
  | aborted => exact hnothing _ rfl rfl fun _ _ _ htaken => by cases htaken
  | restarted => exact hnothing _ rfl rfl fun _ _ _ htaken => by cases htaken
  | refused hsame _ _ | answered hsame _ _ | unanswered hsame _ _ =>
      exact hnothing _ rfl hsame.session fun _ _ hwait => by cases hwait
  | rejected hrejected =>
      refine hnothing _ rfl rfl fun wait taken hwait htaken => ?_
      obtain rfl := HandshakePoint.ack.inj hwait
      obtain rfl := Option.some.inj (Except.ok.inj htaken)
      exact ⟨_, haccept hrejected⟩
  | @accepted taken wait session haccepted =>
      have hnone := hinside _ rfl
      rw [ArkNode.pass, hcall]
      dsimp only
      rw [haccept haccepted, hnone]
      exact h.begins _ _ _

theorem Simulates.sendMessage (hcobs : cobs.Lawful) (hf : p.side.framing.Wf) (h : p.Simulates wire node eras)
    (res : proto.ArkToHost)
    {net : PacketNet cobs maxFrameSize} (hnet : node.side.framing = net)
    (hanswers : net.answers = [failure (p.side.sendMessage proto res).1]) :
    (p.step coins (.sendMessage res)).Simulates wire (node.step coins (.sendMessage res))
      (node.pass eras (.sendMessage res)) := by
  obtain ⟨hside, hcall, hcarries, htells⟩ := h
  rw [ArkProc.step, ArkNode.step, ArkNode.pass, hcall]
  rcases hp : p.call with _ | call
  · rw [hnet] at hside hcarries
    obtain ⟨net', hover, hpassed⟩ := ArkSide.sendMessage_over p.side net res hanswers
    rw [hside, hover]
    exact ⟨rfl, rfl, hcarries.passed hcobs hf hpassed, htells.noteSeal _ _ _ _⟩
  · exact ⟨hside, hcall, hcarries, htells⟩

theorem Simulates.poll (hcobs : cobs.Lawful) {e : Endpoint c proto.HostToArk} (habs : p.Abstracts coins e)
    (h : p.Simulates wire node eras) {point : MessagePoint c} {discard : Nat} (hcall : p.call = some (point, discard))
    {packet : Except Error (Option (List UInt8))} (hready : packetOf (p.side.framing.nextPacketLoop discard) = .ready packet)
    (hanswers : node.side.framing.answers = [({ p.side with framing := (p.side.framing.nextPacketLoop discard).2 } :
      ArkSide c A (Framing cobs maxFrameSize)).refusal (coins p.side.draws) point packet]) :
    (p.poll coins point discard).2.Simulates wire (node.step coins (.deliver packet : ArkInput proto))
      (node.pass eras (.deliver packet : ArkInput proto)) := by
  obtain ⟨hwriter, hpoll⟩ := Framing.nextPacketLoop_poll (habs.wf.at hcall)
  rw [hready] at hpoll
  have hinside : ∀ pt, point = .handshake pt → p.side.session = none := fun pt hpt => habs.inside pt discard (hpt ▸ hcall)
  have hpoint : node.call = some point := h.call.trans (by rw [hcall]; rfl)
  have htells : (p.poll coins point discard).2.history.Tells (node.pass eras (.deliver packet : ArkInput proto)) :=
    poll_tells h.tells h.side hpoint hinside hready
  -- the side with the framer as the packet left it
  obtain ⟨side, hside⟩ : ∃ side : ArkSide c A (Framing cobs maxFrameSize),
    side = { p.side with framing := (p.side.framing.nextPacketLoop discard).2 } := ⟨_, rfl⟩
  have hdraws : side.draws = p.side.draws := by rw [hside]
  have hframing : side.framing = (p.side.framing.nextPacketLoop discard).2 := by rw [hside]
  have hover : node.side = side.over node.side.framing := by
    rw [hside]
    exact h.side
  have hpolled : (p.poll coins point discard).2.side = (side.nextMessageStep proto (coins p.side.draws) point packet).2 ∧
      (p.poll coins point discard).2.call.map Prod.fst =
        ArkNode.next (side.nextMessageStep proto (coins p.side.draws) point packet).1 := by
    rw [ArkProc.poll]
    dsimp only
    rw [hready, ← hside]
    dsimp only
    rcases side.nextMessageStep proto (coins p.side.draws) point packet with ⟨flow | result, side'⟩ <;> exact ⟨rfl, rfl⟩
  rw [← hside] at hanswers
  obtain ⟨net', hsame, hpassed⟩ :=
    ArkSide.nextMessageStep_over proto (coins p.side.draws) side node.side.framing point packet hanswers
  rw [← hover] at hsame
  have hnode : (node.step coins (.deliver packet : ArkInput proto)).side =
        (side.nextMessageStep proto (coins p.side.draws) point packet).2.over net' ∧
      (node.step coins (.deliver packet : ArkInput proto)).call =
        ArkNode.next (side.nextMessageStep proto (coins p.side.draws) point packet).1 := by
    have hcoins : node.side.draws = p.side.draws := by rw [h.side]; rfl
    rw [ArkNode.step, hpoint]
    dsimp only
    rw [hcoins, hsame]
    exact ⟨rfl, rfl⟩
  refine ⟨?_, ?_, ?_, htells⟩
  · rw [hnode.1, hpolled.1]
    rfl
  · rw [hnode.2, hpolled.2]
  · rw [hnode.1, hpolled.1]
    rw [hframing] at hpassed
    exact Carries.passed hcobs hpoll (by rw [hwriter]; exact h.carries) hpassed

theorem Simulates.step (hcobs : cobs.Lawful) {e : Endpoint c proto.HostToArk} (habs : p.Abstracts coins e)
    (h : p.Simulates wire node eras) (action : ArkAction proto) :
    (p.step coins action).Simulates wire (ArkNode.follow coins (node, eras) (p.inputs coins action)).1
      (ArkNode.follow coins (node, eras) (p.inputs coins action)).2 := by
  have hanswered : ∀ answers, p.Simulates wire (node.step coins (.answers answers : ArkInput proto)) eras := fun answers =>
    ⟨by rw [ArkNode.step, h.side]; rfl, h.call, h.carries, h.tells⟩
  cases action with
  | arrive reads => exact ⟨h.side, h.call, h.carries, h.tells⟩
  | plan answers => exact ⟨h.side, h.call, h.carries, h.tells⟩
  | nextMessage =>
      change (p.step coins .nextMessage).Simulates wire (node.step coins (.nextMessage : ArkInput proto)) eras
      rw [ArkProc.step, ArkNode.step, h.call]
      rcases hp : p.call with _ | call
      · exact ⟨h.side, rfl, h.carries, h.tells⟩
      · exact h
  | sendMessage res => exact (hanswered _).sendMessage hcobs habs.wf.framing res rfl rfl
  | poll =>
      rcases hp : p.call with _ | ⟨point, discard⟩
      · rw [ArkProc.step, inputs, hp]
        exact h
      rw [step_poll hp, inputs, hp]
      dsimp only
      rcases hpacket : packetOf (p.side.framing.nextPacketLoop discard) with packet | discard' | _
      · exact (hanswered _).poll hcobs habs hp hpacket rfl
      · rw [poll_pending coins p point hpacket]
        refine ⟨h.side, ?_, ?_, h.tells⟩
        · rw [ArkNode.follow]
          exact h.call.trans (by rw [hp]; rfl)
        · have hwriter := (Framing.nextPacketLoop_poll (habs.wf.at hp)).1
          dsimp only
          rw [hwriter]
          exact h.carries
      · have hpoll := (Framing.nextPacketLoop_poll (habs.wf.at hp)).2
        rw [hpacket] at hpoll
        exact hpoll.elim

end ArkProc

/-! ### A host -/

namespace HostNode

/-- A node and its eras after some inputs. -/
def follow {limit : Nat} (coins : Nat → Coins c) (state : HostNode c Info limit × List (Era c))
    (inputs : List (HostInput c proto Info)) : HostNode c Info limit × List (Era c) :=
  inputs.foldl (fun state input => (state.1.step coins input, state.1.pass coins state.2 input)) state

end HostNode

/-- The wait for the ArkHello, if the call is a handshake. A node has no wait for the packet of a `next_message`. -/
def HostCall.waiting : HostCall c Info → Option (HelloWait c Info)
  | .handshake wait => some wait
  | .nextMessage => none

namespace HostProc

variable {coins : Nat → Coins c} {p : HostProc c proto Info cobs maxFrameSize}
  {node : HostNode c Info (maxMessageSize cobs maxFrameSize)} {eras : List (Era c)} {wire : List UInt8}

/-- What an action of a process is for its node: the failures its transport will meet, and the call or the packet. Reads that
arrive, a call that looks in vain and the beginning of a `next_message` are nothing to it. -/
def inputs (coins : Nat → Coins c) (p : HostProc c proto Info cobs maxFrameSize) :
    HostAction c proto Info → List (HostInput c proto Info)
  | .arrive _ => []
  | .plan _ => []
  | .nextMessage => []
  | .handshake verifier =>
    match p.call with
    | none => [.answers (p.side.startAnswers (coins p.side.draws) verifier), .handshake verifier]
    | some _ => []
  | .sendMessage req =>
    match p.call with
    | none => [.answers [failure (p.side.sendMessage proto req).1], .sendMessage req]
    | some _ => []
  | .poll =>
    match p.call with
    | none => []
    | some (call, discard) =>
      let received := p.side.framing.nextPacketLoop discard
      match packetOf received, call with
      | .ready packet, .handshake wait =>
        [.answers [(({ p.side with framing := received.2 } : HostSide c (Framing cobs maxFrameSize)).handshakeStep
          (coins p.side.draws) wait packet).1.failure], .deliver packet]
      | .ready packet, .nextMessage => [.nextMessage packet]
      | _, _ => []

/-- A process is in the state of a node: the same side in the same handshake over the packets that its wire carries, with the
same traffic behind it. -/
structure Simulates (p : HostProc c proto Info cobs maxFrameSize) (wire : List UInt8)
    (node : HostNode c Info (maxMessageSize cobs maxFrameSize)) (eras : List (Era c)) : Prop where
  side : node.side = p.side.over node.side.framing
  call : node.call = p.call.bind fun call => call.1.waiting
  carries : Carries cobs maxFrameSize wire node.side.framing.sent p.side.framing.writer.wire
  tells : p.history.Tells eras

theorem inputs_handshake {action : HostAction c proto Info} {verifier : Verifier c Info}
    (hmem : .handshake verifier ∈ p.inputs coins action) : action = .handshake verifier := by
  cases action with
  | arrive reads => cases hmem
  | plan answers => cases hmem
  | nextMessage => cases hmem
  | handshake called =>
      rw [inputs] at hmem
      split at hmem
      · simp only [List.mem_cons, reduceCtorEq, HostInput.handshake.injEq, List.not_mem_nil, or_false, false_or] at hmem
        rw [hmem]
      · cases hmem
  | sendMessage req =>
      rw [inputs] at hmem
      split at hmem
      · simp at hmem
      · cases hmem
  | poll =>
      rw [inputs] at hmem
      split at hmem
      · cases hmem
      · dsimp only at hmem
        split at hmem <;> simp at hmem

theorem Simulates.handshake (hcobs : cobs.Lawful) (hf : p.side.framing.Wf) (h : p.Simulates wire node eras)
    (hcall : p.call = none)
    (verifier : Verifier c Info) (hanswers : node.side.framing.answers = p.side.startAnswers (coins p.side.draws) verifier) :
    (p.step coins (.handshake verifier)).Simulates wire
      (node.step coins (.handshake verifier : HostInput c proto Info)) eras := by
  have hnone : node.call = none := h.call.trans (by rw [hcall]; rfl)
  have hcoins : node.side.draws = p.side.draws := by rw [h.side]; rfl
  obtain ⟨net', hover, hwrote⟩ :=
    HostSide.handshakeStart_over (coins p.side.draws) p.side node.side.framing verifier hanswers
  rw [← h.side] at hover
  have hcarries : Carries cobs maxFrameSize wire net'.sent
      (p.side.handshakeStart (coins p.side.draws) verifier).2.framing.writer.wire := by
    have hreset := h.carries.sendReset hf
    rcases hwrote with ⟨hframing, hsent⟩ | hpassed
    · rw [hframing, hsent]
      exact hreset
    · obtain ⟨_, _, hwf, _⟩ := sendReset_spec p.side.framing hf
      exact hreset.passed hcobs hwf hpassed
  rw [HostProc.step, HostNode.step, hcall, hnone]
  dsimp only
  rw [hcoins, hover]
  generalize p.side.handshakeStart (coins p.side.draws) verifier = started at hcarries ⊢
  obtain ⟨result, side⟩ := started
  cases result with
  | error err => exact ⟨rfl, rfl, hcarries, h.tells⟩
  | ok wait => exact ⟨rfl, rfl, hcarries, h.tells⟩

theorem Simulates.sendMessage (hcobs : cobs.Lawful) (hf : p.side.framing.Wf) (h : p.Simulates wire node eras)
    (hcall : p.call = none)
    (req : proto.HostToArk) (hanswers : node.side.framing.answers = [failure (p.side.sendMessage proto req).1]) :
    (p.step coins (.sendMessage req)).Simulates wire (node.step coins (.sendMessage req))
      (node.pass coins eras (.sendMessage req)) := by
  have hnone : node.call = none := h.call.trans (by rw [hcall]; rfl)
  have hsession : node.side.session = p.side.session := congrArg HostSide.session h.side
  obtain ⟨net', hover, hpassed⟩ := HostSide.sendMessage_over p.side node.side.framing req hanswers
  rw [← h.side] at hover
  rw [HostProc.step, HostNode.step, HostNode.pass, hcall, hnone]
  dsimp only
  rw [hover, hsession]
  exact ⟨rfl, rfl, h.carries.passed hcobs hf hpassed, h.tells.noteSeal _ _ _ _⟩

theorem deliver_tells (h : p.history.Tells eras) {wait : HelloWait c Info} (hwait : node.call = some wait)
    {packet : Except Error (Option (List UInt8))} {side side' : HostSide c (Framing cobs maxFrameSize)}
    {net' : PacketNet cobs maxFrameSize} {flow : Flow (HelloWait c Info) Info} (hnone : side.session = none)
    (hdraws : side.draws = node.side.draws)
    (hstep : HostSide.HandshakeStep (coins node.side.draws) side wait packet flow side')
    (hsame : node.side.handshakeStep (coins node.side.draws) wait packet = (flow, side'.over net')) :
    (settleHandshake p.history none (flow, side') :
      Option (Returned proto Info) × HostProc c proto Info cobs maxFrameSize).2.history.Tells
        (node.pass coins eras (.deliver packet : HostInput c proto Info)) := by
  have hnothing : side'.session = none → (∀ info, flow ≠ .done (.ok info)) → (settleHandshake p.history none (flow, side') :
      Option (Returned proto Info) × HostProc c proto Info cobs maxFrameSize).2.history.Tells
        (node.pass coins eras (.deliver packet : HostInput c proto Info)) := by
    intro hkept hfailed
    rw [HostNode.pass_handshake hwait hsame hfailed]
    cases flow with
    | wait wait' => exact h
    | done result =>
        rw [settleHandshake]
        dsimp only
        rw [hkept, History.noteSession_none]
        exact h
  cases hstep with
  | failed | skipped _ _ | gaveUp _ _ | rejected _ _ | unanswered _ _ _ => exact hnothing hnone fun _ h => by cases h
  | answered hours hanswer hsend =>
      rw [hdraws] at hsame
      rw [HostNode.pass_answered hwait hanswer hsame]
      exact h.begins _ _ _

theorem Simulates.deliver (hcobs : cobs.Lawful) {e : Endpoint c proto.ArkToHost} (habs : p.Abstracts coins e)
    (h : p.Simulates wire node eras) {wait : HelloWait c Info} {discard : Nat}
    (hcall : p.call = some (.handshake wait, discard))
    {packet : Except Error (Option (List UInt8))} (hready : packetOf (p.side.framing.nextPacketLoop discard) = .ready packet)
    (hanswers : node.side.framing.answers = [(({ p.side with framing := (p.side.framing.nextPacketLoop discard).2 } :
      HostSide c (Framing cobs maxFrameSize)).handshakeStep (coins p.side.draws) wait packet).1.failure]) :
    (p.poll coins (.handshake wait) discard).2.Simulates wire (node.step coins (.deliver packet : HostInput c proto Info))
      (node.pass coins eras (.deliver packet : HostInput c proto Info)) := by
  obtain ⟨hwriter, hpoll⟩ := Framing.nextPacketLoop_poll (habs.wf.at hcall)
  rw [hready] at hpoll
  have hnone : p.side.session = none := (habs.waiting wait discard hcall).1
  have hwait : node.call = some wait := h.call.trans (by rw [hcall]; rfl)
  have hcoins : node.side.draws = p.side.draws := by rw [h.side]; rfl
  -- the side with the framer as the packet left it
  obtain ⟨side, hside⟩ : ∃ side : HostSide c (Framing cobs maxFrameSize),
    side = { p.side with framing := (p.side.framing.nextPacketLoop discard).2 } := ⟨_, rfl⟩
  have hframing : side.framing = (p.side.framing.nextPacketLoop discard).2 := by rw [hside]
  have hover : node.side = side.over node.side.framing := by
    rw [hside]
    exact h.side
  rw [← hside] at hanswers
  obtain ⟨net', hsame, hpassed⟩ :=
    HostSide.handshakeStep_over (coins p.side.draws) side node.side.framing wait packet hanswers
  rw [← hover] at hsame
  have hstep := HostSide.handshakeStep_step (coins p.side.draws) side wait packet
  have hpolled : p.poll coins (.handshake wait) discard =
      settleHandshake p.history p.side.session (side.handshakeStep (coins p.side.draws) wait packet) := by
    rw [HostProc.poll]
    dsimp only
    rw [hready, ← hside]
  have hwire : Carries cobs maxFrameSize wire net'.sent
      (side.handshakeStep (coins p.side.draws) wait packet).2.framing.writer.wire := by
    rw [hframing] at hpassed
    exact Carries.passed hcobs hpoll (by rw [hwriter]; exact h.carries) hpassed
  rw [hpolled, hnone]
  have hkept : side.session = none := by
    rw [hside]
    exact hnone
  have hdraws : side.draws = node.side.draws := by rw [hside, hcoins]
  generalize side.handshakeStep (coins p.side.draws) wait packet = finished at hsame hstep hwire
  obtain ⟨flow, side'⟩ := finished
  rw [← hcoins] at hsame hstep
  dsimp only at hstep hsame hwire
  have htells := deliver_tells h.tells hwait hkept hdraws hstep hsame
  have hnode : (node.step coins (.deliver packet : HostInput c proto Info)).side = side'.over net' ∧
      (node.step coins (.deliver packet : HostInput c proto Info)).call = HostNode.next flow := by
    rw [HostNode.step, hwait]
    dsimp only
    rw [hsame]
    exact ⟨rfl, rfl⟩
  cases flow with
  | wait wait' => exact ⟨by rw [hnode.1]; rfl, hnode.2, by rw [hnode.1]; exact hwire, htells⟩
  | done result => exact ⟨by rw [hnode.1]; rfl, hnode.2, by rw [hnode.1]; exact hwire, htells⟩

theorem Simulates.nextMessage {e : Endpoint c proto.ArkToHost} (habs : p.Abstracts coins e) (h : p.Simulates wire node eras)
    {discard : Nat} (hcall : p.call = some (.nextMessage, discard)) {packet : Except Error (Option (List UInt8))}
    (hready : packetOf (p.side.framing.nextPacketLoop discard) = .ready packet) :
    (p.poll coins .nextMessage discard).2.Simulates wire (node.step coins (.nextMessage packet : HostInput c proto Info))
      (node.pass coins eras (.nextMessage packet : HostInput c proto Info)) := by
  have hwriter := (Framing.nextPacketLoop_poll (habs.wf.at hcall)).1
  have hnone : node.call = none := h.call.trans (by rw [hcall]; rfl)
  have hsession : node.side.session = p.side.session := congrArg HostSide.session h.side
  obtain ⟨side, hside⟩ : ∃ side : HostSide c (Framing cobs maxFrameSize),
    side = { p.side with framing := (p.side.framing.nextPacketLoop discard).2 } := ⟨_, rfl⟩
  have hover : node.side = side.over node.side.framing := by
    rw [hside]
    exact h.side
  obtain ⟨hsame, hframing⟩ := HostSide.nextMessageStep_over proto side node.side.framing packet
  rw [← hover] at hsame
  have hpolled : p.poll coins .nextMessage discard =
      settleMessage (p.history.noteOpen p.side.session packet) (side.nextMessageStep proto packet) := by
    rw [HostProc.poll]
    dsimp only
    rw [hready, ← hside]
  rw [hpolled, HostNode.step, HostNode.pass, hnone]
  dsimp only
  rw [hsame, hsession]
  refine ⟨rfl, rfl, ?_, (h.tells.noteOpen _ _).noteResult _⟩
  change Carries cobs maxFrameSize wire node.side.framing.sent (side.nextMessageStep proto packet).2.framing.writer.wire
  rw [hframing, hside]
  dsimp only
  rw [hwriter]
  exact h.carries

theorem Simulates.step (hcobs : cobs.Lawful) {e : Endpoint c proto.ArkToHost} (habs : p.Abstracts coins e)
    (h : p.Simulates wire node eras) (action : HostAction c proto Info) :
    (p.step coins action).Simulates wire (HostNode.follow coins (node, eras) (p.inputs coins action)).1
      (HostNode.follow coins (node, eras) (p.inputs coins action)).2 := by
  have hanswered : ∀ answers, p.Simulates wire (node.step coins (.answers answers : HostInput c proto Info)) eras :=
    fun answers => ⟨by rw [HostNode.step, h.side]; rfl, h.call, h.carries, h.tells⟩
  cases action with
  | arrive reads => exact ⟨h.side, h.call, h.carries, h.tells⟩
  | plan answers => exact ⟨h.side, h.call, h.carries, h.tells⟩
  | handshake verifier =>
      rcases hp : p.call with _ | call
      · rw [inputs, hp]
        exact (hanswered _).handshake hcobs habs.wf.framing hp verifier rfl
      · rw [HostProc.step, inputs, hp]
        exact h
  | nextMessage =>
      rcases hp : p.call with _ | call
      · rw [HostProc.step, inputs, hp]
        exact ⟨h.side, h.call.trans (by rw [hp]; rfl), h.carries, h.tells⟩
      · rw [HostProc.step, inputs, hp]
        exact h
  | sendMessage req =>
      rcases hp : p.call with _ | call
      · rw [inputs, hp]
        exact (hanswered _).sendMessage hcobs habs.wf.framing hp req rfl
      · rw [HostProc.step, inputs, hp]
        exact h
  | poll =>
      rcases hp : p.call with _ | ⟨call, discard⟩
      · rw [HostProc.step, inputs, hp]
        exact h
      rw [step_poll hp, inputs, hp]
      dsimp only
      rcases hpacket : packetOf (p.side.framing.nextPacketLoop discard) with packet | discard' | _
      · cases call with
        | handshake wait => exact (hanswered _).deliver hcobs habs hp hpacket rfl
        | nextMessage => exact h.nextMessage habs hp hpacket
      · rw [poll_pending coins p call hpacket]
        refine ⟨h.side, h.call.trans (by rw [hp]; rfl), ?_, h.tells⟩
        dsimp only
        rw [(Framing.nextPacketLoop_poll (habs.wf.at hp)).1]
        exact h.carries
      · have hpoll := (Framing.nextPacketLoop_poll (habs.wf.at hp)).2
        rw [hpacket] at hpoll
        exact hpoll.elim

end HostProc

end DarkbioWire
