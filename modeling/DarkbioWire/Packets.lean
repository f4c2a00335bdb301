import DarkbioWire.Traffic

/-!
# From bytes to packets

What holds of the network of packets (`Network`) holds of processes that share byte streams: the code of a side is the same
over a framer and over a net, so a process over bytes takes the steps of a node that is delivered the packets its framer
finds and is told the failures its writer meets.
-/

namespace DarkbioWire

open Era Framing

variable {c : Crypto (List UInt8)} {proto : Protocol (List UInt8)} {A Info : Type} {cobs : Cobs} {maxFrameSize : Nat}

/-- The error of a result, if it is one. -/
def failure {α : Type} : Except Error α → Option Error
  | .error err => some err
  | .ok _ => none

def Flow.failure {Point α : Type} : Flow Point α → Option Error
  | .done (.error err) => some err
  | _ => none

/-- The net of the packets of a framer. -/
abbrev PacketNet (cobs : Cobs) (maxFrameSize : Nat) := Net (List UInt8) (maxMessageSize cobs maxFrameSize)

theorem Net.sendPacket_answering {net : PacketNet cobs maxFrameSize} {result : Except Error Unit} (packet : List UInt8)
    (hanswers : net.answers = [failure result]) :
    Transport.sendPacket net packet =
      (result, ({ sent := packet :: net.sent, answers := [] } : PacketNet cobs maxFrameSize)) := by
  change Net.answer { net with sent := packet :: net.sent } = _
  rw [Net.answer]
  dsimp only
  rw [hanswers]
  cases result <;> rfl

/-- What a call does to a framer and to a net: nothing, or it sends both the same packet. -/
inductive Passed (f f' : Framing cobs maxFrameSize) (net net' : PacketNet cobs maxFrameSize) : Prop
  | quiet (hframing : f' = f) (hsent : net'.sent = net.sent)
  | packet (packet : List UInt8) (hframing : f' = (f.sendPacket packet).2) (hsent : net'.sent = packet :: net.sent)

/-! ### The code of a side over both -/

theorem sendThrough_over {M : Type} (codec : Codec (List UInt8) M) (f : Framing cobs maxFrameSize)
    (net : PacketNet cobs maxFrameSize) (session : Option (Session c)) (msg : M)
    (hanswers : net.answers = [failure (sendThrough codec f session msg).1]) :
    ∃ net', sendThrough codec net session msg =
        ((sendThrough codec f session msg).1, net', (sendThrough codec f session msg).2.2) ∧
      Passed f (sendThrough codec f session msg).2.1 net net' := by
  rcases session with _ | session
  · exact ⟨net, rfl, .quiet rfl rfl⟩
  have hlimit : (Transport.maxMessageSize (PacketNet cobs maxFrameSize) : Nat) =
      Transport.maxMessageSize (Framing cobs maxFrameSize) := rfl
  simp only [sendThrough, Session.seal, hlimit] at hanswers ⊢
  by_cases hlarge : codec.encodedLen msg > Transport.maxMessageSize (Framing cobs maxFrameSize)
  · rw [if_pos hlarge]
    exact ⟨net, rfl, .quiet rfl rfl⟩
  rw [if_neg hlarge] at hanswers ⊢
  rcases hencode : codec.encode msg with err | payload
  · exact ⟨net, rfl, .quiet rfl rfl⟩
  rw [hencode] at hanswers
  dsimp only at hanswers ⊢
  rcases hseal : c.senderSeal session.sender payload with ⟨err | packet, sender⟩
  · exact ⟨net, rfl, .quiet rfl rfl⟩
  rw [hseal] at hanswers
  dsimp only at hanswers ⊢
  rcases hsend : Transport.sendPacket f packet with ⟨result, f'⟩
  rw [hsend] at hanswers
  have hresult : net.answers = [failure result] := by
    rw [hanswers]
    cases result <;> rfl
  rw [Net.sendPacket_answering packet hresult]
  rcases result with err | _
  · exact ⟨_, rfl, .packet packet (congrArg Prod.snd hsend).symm rfl⟩
  · exact ⟨_, rfl, .packet packet (congrArg Prod.snd hsend).symm rfl⟩

/-- The same side over another transport. -/
def ArkSide.over {T T' : Type} (side : ArkSide c A T) (framing : T') : ArkSide c A T' where
  framing := framing
  signer := side.signer
  attester := side.attester
  session := side.session
  draws := side.draws

/-- The error with which the handshake of a call ends here, if it does. -/
def ArkSide.refusal {T : Type} [Transport T (List UInt8)] [Attester c A] (coins : Coins c) (side : ArkSide c A T) :
    MessagePoint c → Except Error (Option (List UInt8)) → Option Error
  | .packet, _ => none
  | .handshake point, packet => (side.handshakeStep coins point packet).1.failure

namespace ArkSide

variable [Attester c A]

omit [Attester c A] in
theorem sendMessage_over (side : ArkSide c A (Framing cobs maxFrameSize)) (net : PacketNet cobs maxFrameSize)
    (res : proto.ArkToHost) (hanswers : net.answers = [failure (side.sendMessage proto res).1]) :
    ∃ net', (side.over net).sendMessage proto res =
        ((side.sendMessage proto res).1, (side.sendMessage proto res).2.over net') ∧
      Passed side.framing (side.sendMessage proto res).2.framing net net' := by
  obtain ⟨net', hover, hpassed⟩ := sendThrough_over proto.arkToHost side.framing net side.session res hanswers
  exact ⟨net', congrArg (fun sent : Except Error Unit × PacketNet cobs maxFrameSize × Option (Session c) =>
    (sent.1, { side.over net with framing := sent.2.1, session := sent.2.2 })) hover, hpassed⟩

theorem answerHello_over (coins : Coins c) (side : ArkSide c A (Framing cobs maxFrameSize))
    (net : PacketNet cobs maxFrameSize)
    (packet : List UInt8) (hanswers : net.answers = [failure (side.answerHello coins packet).1]) :
    ∃ net', (side.over net).answerHello coins packet =
        ((side.answerHello coins packet).1, (side.answerHello coins packet).2.over net') ∧
      Passed side.framing (side.answerHello coins packet).2.framing net net' := by
  simp only [answerHello, ArkSide.over] at hanswers ⊢
  rcases hdecode : HostHello.decode c packet with err | hostHello
  · exact ⟨net, rfl, .quiet rfl rfl⟩
  rw [hdecode] at hanswers
  dsimp only at hanswers ⊢
  rcases hsender : c.newSender hostHello.hostCrypto CRYPTO_DOMAIN_WIRE_ARK_TO_HOST coins.second with err | ⟨sender, a2hEncap⟩
  · exact ⟨net, rfl, .quiet rfl rfl⟩
  rw [hsender] at hanswers
  dsimp only at hanswers ⊢
  generalize (Attester.attest side.attester : Attestation c × A) = attested at hanswers ⊢
  obtain ⟨attestation, attester⟩ := attested
  dsimp only at hanswers ⊢
  generalize c.coseSeal (ArkHello.toCbor _) _ side.signer _ _ coins.third = sealing at hanswers ⊢
  rcases sealing with err | answer
  · exact ⟨net, rfl, .quiet rfl rfl⟩
  dsimp only at hanswers ⊢
  rcases hsend : Transport.sendPacket side.framing answer with ⟨result, f'⟩
  rw [hsend] at hanswers
  have hresult : net.answers = [failure result] := by
    rw [hanswers]
    cases result <;> rfl
  rw [Net.sendPacket_answering answer hresult]
  rcases result with err | _
  · exact ⟨_, rfl, .packet answer (congrArg Prod.snd hsend).symm rfl⟩
  · exact ⟨_, rfl, .packet answer (congrArg Prod.snd hsend).symm rfl⟩

theorem handshakeStep_over (coins : Coins c) (side : ArkSide c A (Framing cobs maxFrameSize))
    (net : PacketNet cobs maxFrameSize)
    (point : HandshakePoint c) (packet : Except Error (Option (List UInt8)))
    (hanswers : net.answers = [(side.handshakeStep coins point packet).1.failure]) :
    ∃ net', (side.over net).handshakeStep coins point packet =
        ((side.handshakeStep coins point packet).1, (side.handshakeStep coins point packet).2.over net') ∧
      Passed side.framing (side.handshakeStep coins point packet).2.framing net net' := by
  rcases packet with err | _ | packet
  · cases point <;> exact ⟨net, rfl, .quiet rfl rfl⟩
  · cases point <;> exact ⟨net, rfl, .quiet rfl rfl⟩
  cases point with
  | hello =>
      rw [handshakeStep] at hanswers
      have hanswer : net.answers = [failure (side.answerHello coins packet).1] := by
        rw [hanswers]
        rcases side.answerHello coins packet with ⟨err | wait, side'⟩ <;> rfl
      obtain ⟨net', hover, hpassed⟩ := answerHello_over coins side net packet hanswer
      refine ⟨net', ?_, ?_⟩
      · rw [handshakeStep, handshakeStep, hover]
        rcases side.answerHello coins packet with ⟨err | wait, side'⟩ <;> rfl
      · rw [handshakeStep]
        rcases hanswer' : side.answerHello coins packet with ⟨err | wait, side'⟩ <;> rw [hanswer'] at hpassed <;>
          exact hpassed
  | ack wait => exact ⟨net, rfl, .quiet rfl rfl⟩

/-- Over a net that will answer with the failure of its handshake, a call of the Ark does what it does over its framer. -/
theorem nextMessageStep_over (proto : Protocol (List UInt8)) (coins : Coins c)
    (side : ArkSide c A (Framing cobs maxFrameSize))
    (net : PacketNet cobs maxFrameSize) (point : MessagePoint c) (packet : Except Error (Option (List UInt8)))
    (hanswers : net.answers = [side.refusal coins point packet]) :
    ∃ net', (side.over net).nextMessageStep proto coins point packet =
        ((side.nextMessageStep proto coins point packet).1, (side.nextMessageStep proto coins point packet).2.over net') ∧
      Passed side.framing (side.nextMessageStep proto coins point packet).2.framing net net' := by
  cases point with
  | packet =>
      rcases packet with err | _ | packet
      · cases err <;> exact ⟨net, rfl, .quiet rfl rfl⟩
      · exact ⟨net, rfl, .quiet rfl rfl⟩
      obtain ⟨framing, signer, attester, session, draws⟩ := side
      simp only [nextMessageStep, ArkSide.over]
      rcases session with _ | session
      · exact ⟨net, rfl, .quiet rfl rfl⟩
      dsimp only
      rcases session.open proto.hostToArk packet with ⟨err | req, session'⟩
      · cases err <;> exact ⟨net, rfl, .quiet rfl rfl⟩
      · exact ⟨net, rfl, .quiet rfl rfl⟩
  | handshake point =>
      obtain ⟨net', hover, hpassed⟩ := handshakeStep_over coins side net point packet hanswers
      rw [nextMessageStep, nextMessageStep, hover]
      rcases hstep : side.handshakeStep coins point packet with ⟨flow, side'⟩
      rw [hstep] at hpassed
      rcases flow with point' | err | session
      · exact ⟨net', rfl, hpassed⟩
      · cases err <;> exact ⟨net', rfl, hpassed⟩
      · exact ⟨net', rfl, hpassed⟩

end ArkSide

/-- The same side over another transport. -/
def HostSide.over {T T' : Type} (side : HostSide c T) (framing : T') : HostSide c T' where
  framing := framing
  session := side.session
  draws := side.draws

namespace HostSide

theorem sendMessage_over (side : HostSide c (Framing cobs maxFrameSize)) (net : PacketNet cobs maxFrameSize)
    (req : proto.HostToArk) (hanswers : net.answers = [failure (side.sendMessage proto req).1]) :
    ∃ net', (side.over net).sendMessage proto req =
        ((side.sendMessage proto req).1, (side.sendMessage proto req).2.over net') ∧
      Passed side.framing (side.sendMessage proto req).2.framing net net' := by
  obtain ⟨net', hover, hpassed⟩ := sendThrough_over proto.hostToArk side.framing net side.session req hanswers
  exact ⟨net', congrArg (fun sent : Except Error Unit × PacketNet cobs maxFrameSize × Option (Session c) =>
    (sent.1, { side.over net with framing := sent.2.1, session := sent.2.2 })) hover, hpassed⟩

/-- What a net answers the reset and the HostHello with, as the framer does. -/
def startAnswers (coins : Coins c) (side : HostSide c (Framing cobs maxFrameSize)) (verifier : Verifier c Info) :
    List (Option Error) :=
  match side.framing.sendReset.1 with
  | .error err => [some err]
  | .ok _ => [none, failure (side.handshakeStart coins verifier).1]

theorem handshakeStart_over (coins : Coins c) (side : HostSide c (Framing cobs maxFrameSize))
    (net : PacketNet cobs maxFrameSize)
    (verifier : Verifier c Info) (hanswers : net.answers = side.startAnswers coins verifier) :
    ∃ net', (side.over net).handshakeStart coins verifier =
        ((side.handshakeStart coins verifier).1, (side.handshakeStart coins verifier).2.over net') ∧
      ((side.handshakeStart coins verifier).2.framing = side.framing.sendReset.2 ∧ net'.sent = net.sent ∨
        Passed side.framing.sendReset.2 (side.handshakeStart coins verifier).2.framing net net') := by
  rw [startAnswers] at hanswers
  have hnet : Transport.sendReset net = Net.answer net := rfl
  have hsame : side.framing.sendReset = Transport.sendReset side.framing := rfl
  rw [hsame] at hanswers ⊢
  simp only [handshakeStart, HostSide.over, hnet] at hanswers ⊢
  rcases hreset : Transport.sendReset side.framing with ⟨err | _, framing⟩
  · rw [hreset] at hanswers
    rw [Net.answer, hanswers]
    exact ⟨_, rfl, Or.inl ⟨rfl, rfl⟩⟩
  rw [hreset] at hanswers
  dsimp only at hanswers ⊢
  rw [Net.answer, hanswers]
  dsimp only
  generalize c.cborEncode (HostHello.toCbor _) = encoding at hanswers ⊢
  rcases encoding with err | hello
  · exact ⟨_, rfl, Or.inl ⟨rfl, rfl⟩⟩
  dsimp only at hanswers ⊢
  rcases hsend : Transport.sendPacket framing hello with ⟨result, f'⟩
  have hdone :
      Transport.sendPacket ({ sent := net.sent, answers := [failure result] } : PacketNet cobs maxFrameSize) hello = _ :=
    Net.sendPacket_answering hello rfl
  rcases result with err | _
  · dsimp only [failure] at hdone ⊢
    rw [hdone]
    exact ⟨_, rfl, Or.inr (.packet hello (congrArg Prod.snd hsend).symm rfl)⟩
  · dsimp only [failure] at hdone ⊢
    rw [hdone]
    exact ⟨_, rfl, Or.inr (.packet hello (congrArg Prod.snd hsend).symm rfl)⟩

theorem handshakeFinish_over (coins : Coins c) (side : HostSide c (Framing cobs maxFrameSize))
    (net : PacketNet cobs maxFrameSize)
    (wait : HelloWait c Info) (packet : List UInt8)
    (hanswers : net.answers = [failure (side.handshakeFinish coins wait packet).1]) :
    ∃ net', (side.over net).handshakeFinish coins wait packet =
        ((side.handshakeFinish coins wait packet).1, (side.handshakeFinish coins wait packet).2.over net') ∧
      Passed side.framing (side.handshakeFinish coins wait packet).2.framing net net' := by
  simp only [handshakeFinish, HostSide.over] at hanswers ⊢
  rcases hanswer : wait.answer coins packet with err | ⟨verified, session, ack⟩
  · exact ⟨net, rfl, .quiet rfl rfl⟩
  rw [hanswer] at hanswers
  dsimp only at hanswers ⊢
  rcases hsend : Transport.sendPacket side.framing ack with ⟨result, f'⟩
  rw [hsend] at hanswers
  have hresult : net.answers = [failure result] := by
    rw [hanswers]
    cases result <;> rfl
  rw [Net.sendPacket_answering ack hresult]
  rcases result with err | _
  · exact ⟨_, rfl, .packet ack (congrArg Prod.snd hsend).symm rfl⟩
  · exact ⟨_, rfl, .packet ack (congrArg Prod.snd hsend).symm rfl⟩

theorem handshakeStep_over (coins : Coins c) (side : HostSide c (Framing cobs maxFrameSize))
    (net : PacketNet cobs maxFrameSize)
    (wait : HelloWait c Info) (packet : Except Error (Option (List UInt8)))
    (hanswers : net.answers = [(side.handshakeStep coins wait packet).1.failure]) :
    ∃ net', (side.over net).handshakeStep coins wait packet =
        ((side.handshakeStep coins wait packet).1, (side.handshakeStep coins wait packet).2.over net') ∧
      Passed side.framing (side.handshakeStep coins wait packet).2.framing net net' := by
  have hskip : ∃ net', handshakeStep.skip (side.over net) wait =
        ((handshakeStep.skip side wait).1, (handshakeStep.skip side wait).2.over net') ∧
      Passed side.framing (handshakeStep.skip side wait).2.framing net net' := by
    rw [handshakeStep.skip, handshakeStep.skip]
    by_cases hmany : wait.stale + 1 > MAX_STALE_FRAMES
    · rw [if_pos hmany, if_pos hmany]
      exact ⟨net, rfl, .quiet rfl rfl⟩
    · rw [if_neg hmany, if_neg hmany]
      exact ⟨net, rfl, .quiet rfl rfl⟩
  rcases packet with err | packet
  · exact ⟨net, rfl, .quiet rfl rfl⟩
  rw [handshakeStep] at hanswers
  rw [handshakeStep, handshakeStep]
  dsimp only at hanswers ⊢
  rcases hrecipient : c.coseRecipient (packet.getD c.empty) with _ | recipient
  · exact hskip
  rw [hrecipient] at hanswers
  dsimp only at hanswers ⊢
  by_cases hours : recipient = c.fingerprint wait.hostHello.hostCrypto
  · rw [if_pos hours] at hanswers
    rw [if_pos hours, if_pos hours]
    have hanswer : net.answers = [failure (side.handshakeFinish coins wait (packet.getD c.empty)).1] := by
      rw [hanswers]
      rcases side.handshakeFinish coins wait (packet.getD c.empty) with ⟨err | info, side'⟩ <;> rfl
    obtain ⟨net', hover, hpassed⟩ := handshakeFinish_over coins side net wait (packet.getD c.empty) hanswer
    rw [hover]
    exact ⟨net', rfl, hpassed⟩
  · rw [if_neg hours, if_neg hours]
    exact hskip

theorem nextMessageStep_over (proto : Protocol (List UInt8)) (side : HostSide c (Framing cobs maxFrameSize))
    (net : PacketNet cobs maxFrameSize)
    (packet : Except Error (Option (List UInt8))) :
    (side.over net).nextMessageStep proto packet =
        ((side.nextMessageStep proto packet).1, (side.nextMessageStep proto packet).2.over net) ∧
      (side.nextMessageStep proto packet).2.framing = side.framing := by
  rcases packet with err | _ | packet
  · exact ⟨rfl, rfl⟩
  · exact ⟨rfl, rfl⟩
  obtain ⟨framing, session, draws⟩ := side
  simp only [nextMessageStep, HostSide.over]
  rcases session with _ | session
  · exact ⟨rfl, rfl⟩
  dsimp only
  rcases session.open proto.arkToHost packet with ⟨err | res, session'⟩
  · cases err <;> exact ⟨rfl, rfl⟩
  · exact ⟨rfl, rfl⟩

end HostSide

/-! ### The bytes written -/

/-- Behind what a wire held at first, these packets were handed to its framer, the latest first: each wrote its frame, as
much of it as the writer took, or nothing if it has no frame, and resets came between them. -/
inductive Carries (cobs : Cobs) (maxFrameSize : Nat) (wire : List UInt8) : List (List UInt8) → List UInt8 → Prop
  | start : Carries cobs maxFrameSize wire [] wire
  | unframed {sent bytes packet err} : Carries cobs maxFrameSize wire sent bytes →
    frameOf cobs maxFrameSize packet = .error err →
      Carries cobs maxFrameSize wire (packet :: sent) bytes
  | frame {sent bytes packet frame} (count : Nat) : Carries cobs maxFrameSize wire sent bytes →
      frameOf cobs maxFrameSize packet = .ok frame →
      Carries cobs maxFrameSize wire (packet :: sent) (bytes ++ (frame ++ [0]).take count)
  | reset {sent bytes} (count : Nat) : Carries cobs maxFrameSize wire sent bytes →
      Carries cobs maxFrameSize wire sent (bytes ++ [0, 0].take count)

theorem Writer.send_take (writer : Writer) (bytes : List UInt8) :
    ∃ count, (writer.send bytes).2.wire = writer.wire ++ bytes.take count := by
  rcases writer.send_cases bytes with ⟨_, hwire⟩ | ⟨_, count, _, _, hwire⟩
  · exact ⟨bytes.length, by rw [hwire, List.take_length]⟩
  · exact ⟨count, hwire⟩

namespace Carries

variable {wire : List UInt8} {sent : List (List UInt8)} {f f' : Framing cobs maxFrameSize}

theorem sendPacket (hcobs : cobs.Lawful) (hf : f.Wf) (h : Carries cobs maxFrameSize wire sent f.writer.wire)
    (packet : List UInt8) :
    Carries cobs maxFrameSize wire (packet :: sent) (f.sendPacket packet).2.writer.wire := by
  have hspec := (sendPacket_spec hcobs hf packet).2.2
  rcases hframe : frameOf cobs maxFrameSize packet with err | frame
  · rw [hframe] at hspec
    rw [hspec.2]
    exact .unframed h hframe
  · rw [hframe] at hspec
    obtain ⟨count, hwire⟩ := f.writer.send_take (frame ++ [0])
    rw [hspec.2, hwire]
    exact .frame count h hframe

theorem sendReset (hf : f.Wf) (h : Carries cobs maxFrameSize wire sent f.writer.wire) :
    Carries cobs maxFrameSize wire sent f.sendReset.2.writer.wire := by
  obtain ⟨_, hwriter, _⟩ := sendReset_spec f hf
  obtain ⟨count, hwire⟩ := f.writer.send_take [0, 0]
  rw [hwriter, hwire]
  exact .reset count h

theorem passed (hcobs : cobs.Lawful) (hf : f.Wf) {net net' : PacketNet cobs maxFrameSize}
    (h : Carries cobs maxFrameSize wire net.sent f.writer.wire) (hpassed : Passed f f' net net') :
    Carries cobs maxFrameSize wire net'.sent f'.writer.wire := by
  cases hpassed with
  | quiet hframing hsent =>
      rw [hframing, hsent]
      exact h
  | packet packet hframing hsent =>
      rw [hframing, hsent]
      exact h.sendPacket hcobs hf packet

end Carries

/-! ### What passed through the sessions -/

/-- The payloads opened in an epoch, oldest first. -/
def Epoch.openedPayloads (epoch : Epoch c) : List (List UInt8) := epoch.opened.map fun entry => entry.2.2

def Epoch.sealedPayloads (epoch : Epoch c) : List (List UInt8) := epoch.sealed.map fun entry => entry.2.1

/-- An epoch of a process tells of the same session as an era of a node. -/
structure Epoch.Tells (epoch : Epoch c) (era : Era c) : Prop where
  session : epoch.session = era.session
  opened : epoch.openedPayloads = era.opened
  sealed : epoch.sealedPayloads = era.sealed

/-- A history tells of these eras, one by one. -/
def History.Tells {Msg : Type} (history : History c Msg) (eras : List (Era c)) : Prop :=
  List.Forall₂ Epoch.Tells history.epochs eras

namespace History.Tells

variable {Msg : Type} {history : History c Msg} {eras : List (Era c)}

theorem modifyHead {change : Epoch c → Epoch c} {change' : Era c → Era c} (h : history.Tells eras)
    (hsame : ∀ epoch era, epoch.Tells era → (change epoch).Tells (change' era)) :
    (history.inEpoch change).Tells (eras.modifyHead change') := by
  obtain ⟨epochs, delivered⟩ := history
  cases (h : List.Forall₂ Epoch.Tells epochs eras) with
  | nil => exact .nil
  | cons hhead htail => exact .cons (hsame _ _ hhead) htail

theorem noteOpen (h : history.Tells eras) (session : Option (Session c)) (packet : Except Error (Option (List UInt8))) :
    (history.noteOpen session packet).Tells (noteOpened eras (Session.opens session packet)) := by
  rcases session with _ | session
  · exact h
  rcases packet with err | _ | packet
  · exact h
  · exact h
  rw [History.noteOpen, Session.opens]
  rcases c.receiverOpen session.receiver packet with ⟨err | payload, receiver⟩
  · exact h
  · refine h.modifyHead fun epoch era hsame => ⟨hsame.session, ?_, hsame.sealed⟩
    rw [Epoch.openedPayloads, List.map_append]
    exact congrArg (· ++ [payload]) hsame.opened

theorem noteSeal (h : history.Tells eras) {M : Type} (limit : Nat) (codec : Codec (List UInt8) M)
    (session : Option (Session c)) (msg : M) :
    (history.noteSeal limit codec session msg).Tells (noteSealed eras (Session.seals limit codec session msg)) := by
  rcases session with _ | session
  · exact h
  rw [History.noteSeal, Session.seals]
  rcases codec.encode msg with err | payload
  · exact h
  rcases session.seal limit codec msg with ⟨err | packet, session'⟩
  · exact h
  · refine h.modifyHead fun epoch era hsame => ⟨hsame.session, hsame.opened, ?_⟩
    rw [Epoch.sealedPayloads, List.map_append]
    exact congrArg (· ++ [payload]) hsame.sealed

theorem noteResult (h : history.Tells eras) (result : Except Error Msg) : (history.noteResult result).Tells eras := by
  rw [History.noteResult]
  split <;> exact h

theorem begins (h : history.Tells eras) (session : Session c) (wire : List UInt8) (peer : Option c.XdsaPublicKey) :
    (history.noteSession none (some session) wire).Tells (begins eras session peer) :=
  .cons ⟨rfl, rfl, rfl⟩ h

theorem era (h : history.Tells eras) {epoch : Epoch c} (hmem : epoch ∈ history.epochs) : ∃ era ∈ eras, epoch.Tells era := by
  obtain ⟨epochs, delivered⟩ := history
  change List.Forall₂ Epoch.Tells epochs eras at h
  induction h with
  | nil => cases hmem
  | cons hhead _ ih =>
      rcases List.mem_cons.mp hmem with rfl | hmem
      · exact ⟨_, List.mem_cons_self, hhead⟩
      · obtain ⟨era, hera, htells⟩ := ih hmem
        exact ⟨era, List.mem_cons_of_mem _ hera, htells⟩

theorem epoch (h : history.Tells eras) {era : Era c} (hmem : era ∈ eras) : ∃ epoch ∈ history.epochs, epoch.Tells era := by
  obtain ⟨epochs, delivered⟩ := history
  change List.Forall₂ Epoch.Tells epochs eras at h
  induction h with
  | nil => cases hmem
  | cons hhead _ ih =>
      rcases List.mem_cons.mp hmem with rfl | hmem
      · exact ⟨_, List.mem_cons_self, hhead⟩
      · obtain ⟨epoch, hepoch, htells⟩ := ih hmem
        exact ⟨epoch, List.mem_cons_of_mem _ hepoch, htells⟩

end History.Tells

end DarkbioWire
