import DarkbioWire.Reference.Crypto
import DarkbioWire.Waiting

/-!
# Recovery from any state

However an Ark got to where it waits and whatever unterminated piece of a frame is in front of it, a `send_reset` and a
HostHello bring it to answer that HostHello, and the HostAck for the answer brings it into the session paired with the
host's. At every point an empty frame leads to the wait for the HostHello, and the second zero of the reset is always an
empty frame: this carries the proof.
-/

namespace DarkbioWire

open Delimited Framing

variable {c : Crypto (List UInt8)} {proto : Protocol (List UInt8)} {A : Type} [Attester c A] {cobs : Cobs}
  {maxFrameSize : Nat}

theorem HostHello.decode_encode (hc : c.Correct) {hello : HostHello c} {packet : List UInt8}
    (h : c.cborEncode hello.toCbor = .ok packet) : HostHello.decode c packet = .ok hello := by
  rw [HostHello.decode, hc.cborDecode_encode h]
  change HostHello.ofCbor c hello.toCbor = .ok hello
  rw [HostHello.toCbor, HostHello.ofCbor, hc.xdsaOfItem_item, hc.xhpkeOfItem_item]

theorem ArkHello.ofCbor_toCbor (hc : c.Correct) (hello : ArkHello c) :
    ArkHello.ofCbor c hello.toCbor = .ok hello := by
  rw [ArkHello.toCbor, ArkHello.ofCbor, hc.xhpkeOfItem_item]

/-- Two sessions are paired when each sends on the channel the other receives on and neither has moved. -/
structure Paired (hpke : Contexts c) (session peer : Session c) : Prop where
  out : hpke.sendChannel session.sender = hpke.recvChannel peer.receiver
  back : hpke.recvChannel session.receiver = hpke.sendChannel peer.sender
  start : hpke.sendSeq session.sender = 0 ∧ hpke.recvSeq session.receiver = 0 ∧ hpke.sendSeq peer.sender = 0 ∧
    hpke.recvSeq peer.receiver = 0

/-- A host that accepts an Ark's answer to its HostHello makes the HostAck the Ark accepts, and the two sessions are
paired. -/
theorem ack_accepted (hc : c.Correct) (hpke : Contexts c) {T Info : Type} {arkCoins hostCoins : Coins c}
    {side : ArkSide c A T} {packet answer ack : List UInt8} {wait : AckWait c} {arkHello : ArkHello c}
    (hanswers : ArkSide.Answers arkCoins side packet wait arkHello answer) {host : HelloWait c Info}
    (hhello : wait.hostHello = host.hostHello) {verified : Verified c Info} {session : Session c}
    (hack : host.answer hostCoins answer = .ok (verified, session, ack)) :
    ∃ arkSession, side.acceptAck wait ack = .ok arkSession ∧ Paired hpke arkSession session := by
  obtain ⟨encH2a, hopen, hcontexts, hseal⟩ := HelloWait.answer_ok hack
  obtain ⟨sign1, unverified, attestation, hdecrypt, hpeek, _, hverifier, hverify⟩ := HelloWait.openHello_ok hopen
  obtain ⟨_, hreceiver, hsender⟩ := HelloWait.contexts_ok hcontexts
  have hsealed := hanswers.sealed
  rw [hhello] at hsealed
  obtain ⟨_, hchecked⟩ := hc.coseDecrypt_seal hsealed hdecrypt
  -- the ArkHello the host verified is the Ark's, under the Ark's signer
  rcases hresult : c.coseVerify sign1 host.hostHello.auth.toCbor verified.arkIdentity CRYPTO_DOMAIN_WIRE with _ | result
  · rw [hresult] at hverify
    cases hverify
  obtain ⟨rfl, hidentity⟩ := hchecked hresult
  rw [hresult] at hverify
  have hsame : verified.arkHello = arkHello := by
    have := (ArkHello.ofCbor_toCbor hc arkHello).symm.trans hverify
    injection this with this
    exact this.symm
  rw [hsame] at hcontexts hsender hreceiver
  have hpacket := HelloWait.sealAck_ok hseal
  rw [hsame, hanswers.crypto, hidentity] at hpacket
  have hopened := hc.coseOpen_seal hpacket
  rw [hanswers.crypto] at hsender
  obtain ⟨hsize, receiver, harkReceiver⟩ := hc.newReceiver_newSender hsender
  have harkSender := hanswers.sender
  rw [hhello] at harkSender
  refine ⟨{ sender := wait.sender, receiver }, ArkSide.acceptAck_eq ?_ hsize harkReceiver, ?_⟩
  · rw [hhello]
    exact hopened
  · obtain ⟨hout, hout0⟩ := hpke.newSender_spec harkSender
    obtain ⟨hback, hback0⟩ := hpke.newReceiver_spec harkReceiver
    obtain ⟨hpeerOut, hpeerOut0⟩ := hpke.newSender_spec hsender
    obtain ⟨hpeerBack, hpeerBack0⟩ := hpke.newReceiver_spec hreceiver
    exact ⟨hout.trans hpeerBack.symm, hback.trans hpeerOut.symm, hout0, hback0, hpeerOut0, hpeerBack0⟩

/-! ### Answering -/

namespace ArkSide

variable {T : Type}

/-- None of the calls for the ArkHello to this HostHello fails, and it fits a frame. -/
def CanAnswer (cobs : Cobs) (maxFrameSize : Nat) (coins : Coins c) (side : ArkSide c A T) (hello : HostHello c) : Prop :=
  ∃ sender encap answer frame,
    c.newSender hello.hostCrypto CRYPTO_DOMAIN_WIRE_ARK_TO_HOST coins.second = .ok (sender, encap) ∧
    c.coseSeal
      (ArkHello.toCbor
        { arkAttest := (Attester.attest side.attester : Attestation c × A).1.cwt
          arkCrypto := c.xhpkePublicKey (c.xhpkeGenerate coins.first)
          a2hEncap := encap })
      hello.auth.toCbor side.signer hello.hostCrypto CRYPTO_DOMAIN_WIRE coins.third = .ok answer ∧
    frameOf cobs maxFrameSize answer = .ok frame

theorem CanAnswer.answers {coins : Coins c} {side : ArkSide c A T} {hello : HostHello c} {packet : List UInt8}
    (h : side.CanAnswer cobs maxFrameSize coins hello) (hdecode : HostHello.decode c packet = .ok hello) :
    ∃ wait arkHello answer frame, Answers coins side packet wait arkHello answer ∧ wait.hostHello = hello ∧
      frameOf cobs maxFrameSize answer = .ok frame := by
  obtain ⟨sender, encap, answer, frame, hsender, hseal, hframe⟩ := h
  exact ⟨{ hostHello := hello, arkCryptoKey := c.xhpkeGenerate coins.first, sender }, _, answer, frame,
    ⟨hdecode, rfl, rfl, rfl, hsender, hseal⟩, rfl, hframe⟩

end ArkSide

namespace ArkProc

variable {coins : Nat → Coins c} {p : ArkProc c proto A cobs maxFrameSize} {point point' : MessagePoint c}
  {discard n : Nat} {moves : List Move}

theorem Takes.empty (h : p.Takes coins point [] point') : point' = .handshake .hello := by
  obtain ⟨f, flow, _, _, hstep, hflow⟩ := h.step
  rw [decodeFrame, if_pos rfl] at hstep
  have hwait : flow = .wait (.handshake .hello) := by
    generalize (p.turn coins).side = side' at hstep
    cases hstep <;> rfl
  rcases hflow with hflow | ⟨⟨result, hdone⟩, _⟩
  · rw [hflow] at hwait
    exact Flow.wait.inj hwait
  · rw [hdone] at hwait
    cases hwait

theorem Takes.hello (hcobs : cobs.Lawful) (hwaits : p.Waits coins (.handshake .hello) discard) {frame packet : List UInt8}
    {hello : HostHello c} (h : p.Takes coins (.handshake .hello) frame point')
    (hframe : decodeFrame cobs maxFrameSize frame = .ok (some packet)) (hdecode : HostHello.decode c packet = .ok hello)
    (hcan : p.side.CanAnswer cobs maxFrameSize (coins p.side.draws) hello) :
    ∃ wait arkHello answer answerFrame, ArkSide.Answers (coins p.side.draws) p.side packet wait arkHello answer ∧
      wait.hostHello = hello ∧ frameOf cobs maxFrameSize answer = .ok answerFrame ∧ point' = .handshake (.ack wait) ∧
      (p.turn coins).side.framing.writer.wire = p.side.framing.writer.wire ++ (answerFrame ++ [0]) ∧
      (p.turn coins).side.signer = p.side.signer := by
  obtain ⟨wait, arkHello, answer, answerFrame, hanswers, hhello, hanswerFrame⟩ := hcan.answers hdecode
  obtain ⟨f, flow, hf, hwriter, hstep, hflow⟩ := h.step
  rw [hframe] at hstep
  have hplan : f.writer.plan = [] := by
    rw [hwriter, hwaits.plan]
  -- the answer it makes with this framer is the answer it makes
  have hsame : ∀ {wait' arkHello' answer'}, ArkSide.Answers (coins p.side.draws) { p.side with framing := f } packet wait'
      arkHello' answer' → wait' = wait ∧ answer' = answer := by
    intro wait' arkHello' answer' hanswers'
    obtain ⟨hwait, _, hanswer⟩ := hanswers'.unique (hanswers.congr rfl rfl)
    exact ⟨hwait, hanswer⟩
  obtain ⟨hsent, hwire⟩ := sendPacket_healthy hcobs hf hplan hanswerFrame
  refine ⟨wait, arkHello, answer, answerFrame, hanswers, hhello, hanswerFrame, ?_⟩
  generalize (p.turn coins).side = side' at hstep ⊢ ⊢
  cases hstep with
  | refused _ _ hnone =>
      exact (hnone wait arkHello answer (hanswers.congr rfl rfl)).elim
  | unanswered _ hanswers' hsend =>
      obtain ⟨_, rfl⟩ := hsame hanswers'
      have hfailed : f.sendPacket _ = _ := hsend
      rw [hfailed] at hsent
      cases hsent
  | answered hkeep hanswers' hsend =>
      obtain ⟨rfl, rfl⟩ := hsame hanswers'
      have hsent' : f.sendPacket _ = _ := hsend
      rw [hsent', hwriter] at hwire
      rcases hflow with hflow | ⟨⟨result, hdone⟩, _⟩
      · exact ⟨(Flow.wait.inj hflow).symm, by rw [hwire], hkeep.signer⟩
      · cases hdone

theorem Takes.ack {wait : AckWait c} {frame packet : List UInt8} {session : Session c}
    (h : p.Takes coins (.handshake (.ack wait)) frame point')
    (hframe : decodeFrame cobs maxFrameSize frame = .ok (some packet))
    (haccept : p.side.acceptAck wait packet = .ok session) :
    point' = .packet ∧ (p.turn coins).side.session = some session ∧
      (p.turn coins).side.framing.writer = p.side.framing.writer := by
  obtain ⟨f, flow, _, hwriter, hstep, hflow⟩ := h.step
  rw [hframe] at hstep
  have haccept' : ({ p.side with framing := f } : ArkSide c A (Framing cobs maxFrameSize)).acceptAck wait packet =
      .ok session := (ArkSide.acceptAck_congr (show _ = p.side.signer from rfl) wait packet).trans haccept
  generalize (p.turn coins).side = side' at hstep ⊢
  cases hstep with
  | rejected hrejected =>
      rw [hrejected] at haccept'
      cases haccept'
  | accepted haccepted =>
      obtain rfl := Except.ok.inj (haccepted.symm.trans haccept')
      rcases hflow with hflow | ⟨⟨result, hdone⟩, _⟩
      · exact ⟨(Flow.wait.inj hflow).symm, rfl, hwriter⟩
      · cases hdone

theorem drive_append (moves moves' : List Move) : p.drive coins (moves ++ moves') = (p.drive coins moves).drive coins moves' :=
  List.foldl_append

theorem drive_turn (moves : List Move) : p.drive coins (.turn :: moves) = (p.turn coins).drive coins moves := rfl

theorem drive_to_hello (hcobs : cobs.Lawful) (h : p.Waits coins point discard) {frames : List (List UInt8)}
    (hn : frames.length < n) (hfaces : p.Faces discard (arrived moves) ([] :: frames)) :
    ∃ earlier later n', moves ++ List.replicate n .turn = earlier ++ (later ++ List.replicate n' .turn) ∧
      frames.length ≤ n' ∧ (p.drive coins earlier).Waits coins (.handshake .hello) 0 ∧
      (p.drive coins earlier).Faces 0 (arrived later) frames := by
  obtain ⟨earlier, later, n', point', q, hmoves, hn', rfl, _, _, htakes, hfaces'⟩ := drive_first hcobs h hn hfaces
  have hdrive : p.drive coins (earlier ++ [.turn]) = (p.drive coins earlier).turn coins := drive_append _ _
  refine ⟨earlier ++ [.turn], later, n', ?_, hn', ?_, ?_⟩
  · rw [hmoves, List.append_assoc]
    rfl
  · rw [hdrive, ← htakes.empty]
    exact htakes.waits
  · rw [hdrive]
    exact hfaces'

/-- Whatever unterminated piece is in front of it, behind a reset the process comes to wait for the HostHello. -/
theorem drive_reset (hcobs : cobs.Lawful) (h : p.Waits coins point discard) (hleftover : 0 ∉ p.side.framing.unread)
    {frame : List UInt8} (hclean : 0 ∉ frame) (hfits : frame.length ≤ maxFrameSize)
    (harrived : arrived moves = [0, 0] ++ (frame ++ [0])) (hn : 3 ≤ n) :
    ∃ earlier later n', moves ++ List.replicate n .turn = earlier ++ (later ++ List.replicate n' .turn) ∧ 1 ≤ n' ∧
      (p.drive coins earlier).Waits coins (.handshake .hello) 0 ∧
      (p.drive coins earlier).Faces 0 (arrived later) [frame] := by
  have htail : kept 0 maxFrameSize false ([] ++ 0 :: (frame ++ 0 :: [])) = [[], frame] := by
    rw [kept_append_sep (by simp), if_neg (by simp), kept_append_sep hclean, if_neg (by simp [hfits]), kept_nil]
  have hbytes : p.side.framing.unread ++ arrived moves =
      p.side.framing.unread ++ 0 :: ([] ++ 0 :: (frame ++ 0 :: [])) := by
    rw [harrived]
    rfl
  have hrest : residue 0 maxFrameSize (decide (0 < discard)) (p.side.framing.unread ++ arrived moves) = (false, []) := by
    rw [hbytes, residue_append_sep hleftover, residue_append_sep (by simp), residue_append_sep hclean, residue_nil]
  have hahead : kept 0 maxFrameSize (decide (0 < discard)) (p.side.framing.unread ++ arrived moves) =
      if decide (0 < discard) = true ∨ maxFrameSize < p.side.framing.unread.length then [[], frame]
      else p.side.framing.unread :: [[], frame] := by
    rw [hbytes, kept_append_sep hleftover, htail]
  split at hahead
  · -- the leftover is dropped as a whole
    exact drive_to_hello hcobs h (by simp; omega) ⟨hahead, hrest⟩
  · -- the leftover is a frame, whatever it makes the process do
    obtain ⟨earlier, later, n', point', q, hmoves, hn', rfl, _, _, htakes, hfaces⟩ :=
      drive_first hcobs h (show [[], frame].length < n by simp; omega) ⟨hahead, hrest⟩
    obtain ⟨earlier', later', n'', hmoves', hn'', hwaits', hfaces'⟩ :=
      drive_to_hello hcobs htakes.waits (show [frame].length < n' by simp at hn' ⊢; omega) hfaces
    have hdrive : p.drive coins (earlier ++ .turn :: earlier') =
        ((p.drive coins earlier).turn coins).drive coins earlier' := drive_append _ _
    refine ⟨earlier ++ .turn :: earlier', later', n'', ?_, by simpa using hn'', ?_, ?_⟩
    · rw [hmoves, hmoves', List.append_assoc]
      rfl
    · rw [hdrive]
      exact hwaits'
    · rw [hdrive]
      exact hfaces'

/-- Between these two states the Ark took the HostHello, sent this answer to it in one frame and nothing else, and came
to wait for its HostAck with nothing more in front of it. -/
structure Answered (coins : Nat → Coins c) (s q : ArkProc c proto A cobs maxFrameSize) (hello : HostHello c)
    (wait : AckWait c) (arkHello : ArkHello c) (answer : List UInt8) : Prop where
  answers : ∃ packet, ArkSide.Answers (coins s.side.draws) s.side packet wait arkHello answer
  hello : wait.hostHello = hello
  wire : ∃ frame, frameOf cobs maxFrameSize answer = .ok frame ∧
    q.side.framing.writer.wire = s.side.framing.writer.wire ++ (frame ++ [0])
  signer : q.side.signer = s.side.signer
  waits : ∃ discard, q.Waits coins (.handshake (.ack wait)) discard ∧ q.Faces discard [] []

theorem drive_hello (hcobs : cobs.Lawful) (hwaits : p.Waits coins (.handshake .hello) discard) {frame packet : List UInt8}
    {hello : HostHello c} (hfaces : p.Faces discard (arrived moves) [frame])
    (hframe : decodeFrame cobs maxFrameSize frame = .ok (some packet)) (hdecode : HostHello.decode c packet = .ok hello)
    (hn : 1 ≤ n) :
    ∃ earlier later s, moves ++ List.replicate n .turn = earlier ++ .turn :: later ∧ s = p.drive coins earlier ∧
      (∃ discard', s.Waits coins (.handshake .hello) discard' ∧ s.Faces discard' (arrived later) [frame]) ∧
      (s.side.CanAnswer cobs maxFrameSize (coins s.side.draws) hello →
        ∃ wait arkHello answer,
          Answered coins s (p.drive coins (moves ++ List.replicate n .turn)) hello wait arkHello answer) := by
  obtain ⟨earlier, later, n', point', q, hmoves, _, hq, _, ⟨discard', hthere, hfaces'⟩, htakes, hafter⟩ :=
    drive_first hcobs hwaits (show [].length < n from hn) hfaces
  refine ⟨earlier, later ++ List.replicate n' .turn, q, hmoves, hq, ⟨discard', hthere, ?_⟩, fun hcan => ?_⟩
  · rw [arrived_append, arrived_turns, List.append_nil]
    exact hfaces'
  obtain ⟨wait, arkHello, answer, answerFrame, hanswers, hhello, hanswerFrame, rfl, hwire, hsigner⟩ :=
    Takes.hello hcobs hthere htakes hframe hdecode hcan
  have hafter' : (q.turn coins).Faces 0 (arrived (later ++ List.replicate n' .turn)) [] := by
    rw [arrived_append, arrived_turns, List.append_nil]
    exact hafter
  obtain ⟨discard'', hwaits', ⟨f, hside, hwriter⟩, hdone⟩ := drive_idle hcobs htakes.waits hafter'
  have hdrive : p.drive coins (moves ++ List.replicate n .turn) =
      (q.turn coins).drive coins (later ++ List.replicate n' .turn) := by
    rw [hmoves, drive_append, drive_turn, ← hq]
  rw [hdrive]
  refine ⟨wait, arkHello, answer, ⟨packet, hanswers⟩, hhello, ⟨answerFrame, hanswerFrame, ?_⟩, ?_, discard'', hwaits', hdone⟩
  · rw [hside]
    dsimp only
    rw [hwriter, hwire]
  · rw [hside]
    exact hsigner

theorem drive_ack (hcobs : cobs.Lawful) {wait : AckWait c} (hwaits : p.Waits coins (.handshake (.ack wait)) discard)
    {frame packet : List UInt8} {session : Session c} (hfaces : p.Faces discard (arrived moves) [frame])
    (hframe : decodeFrame cobs maxFrameSize frame = .ok (some packet))
    (haccept : p.side.acceptAck wait packet = .ok session) (hn : 1 ≤ n) :
    (p.drive coins (moves ++ List.replicate n .turn)).side.session = some session ∧
      ∃ discard', (p.drive coins (moves ++ List.replicate n .turn)).Waits coins .packet discard' ∧
        (p.drive coins (moves ++ List.replicate n .turn)).Faces discard' [] [] := by
  obtain ⟨earlier, later, n', point', q, hmoves, _, hq, ⟨f, hside, _⟩, _, htakes, hafter⟩ :=
    drive_first hcobs hwaits (show [].length < n from hn) hfaces
  have haccept' : q.side.acceptAck wait packet = .ok session := by
    rw [ArkSide.acceptAck_congr (show q.side.signer = p.side.signer by rw [hside]), haccept]
  obtain ⟨rfl, hsession, _⟩ := Takes.ack htakes hframe haccept'
  have hafter' : (q.turn coins).Faces 0 (arrived (later ++ List.replicate n' .turn)) [] := by
    rw [arrived_append, arrived_turns, List.append_nil]
    exact hafter
  obtain ⟨discard', hwaits', ⟨g, hside', _⟩, hdone⟩ := drive_idle hcobs htakes.waits hafter'
  have hdrive : p.drive coins (moves ++ List.replicate n .turn) =
      (q.turn coins).drive coins (later ++ List.replicate n' .turn) := by
    rw [hmoves, drive_append, drive_turn, ← hq]
  rw [hdrive]
  refine ⟨?_, discard', hwaits', hdone⟩
  rw [hside']
  exact hsession

theorem Answered.acked (hcobs : cobs.Lawful) (hc : c.Correct) (hpke : Contexts c)
    {s q : ArkProc c proto A cobs maxFrameSize} {hello : HostHello c} {wait : AckWait c} {arkHello : ArkHello c}
    {answer : List UInt8} (h : Answered coins s q hello wait arkHello answer) {Info : Type} {host : HelloWait c Info}
    {hostCoins : Coins c} {verified : Verified c Info} {session : Session c} {ack frame : List UInt8}
    (hhost : host.hostHello = hello) (hack : host.answer hostCoins answer = .ok (verified, session, ack))
    (hframe : frameOf cobs maxFrameSize ack = .ok frame) (harrived : arrived moves = frame ++ [0]) (hn : 1 ≤ n) :
    ∃ arkSession, (q.drive coins (moves ++ List.replicate n .turn)).side.session = some arkSession ∧
      Paired hpke arkSession session := by
  obtain ⟨packet, hanswers⟩ := h.answers
  obtain ⟨discard, hwaits, hfaces⟩ := h.waits
  obtain ⟨hclean, hfits, _, hdecode⟩ := frameOf_ok hcobs hframe
  obtain ⟨arkSession, haccept, hpaired⟩ := ack_accepted hc hpke hanswers (h.hello.trans hhost.symm) hack
  have hahead := hfaces.ahead
  have hrest := hfaces.rest
  rw [ahead, List.append_nil] at hahead
  rw [List.append_nil] at hrest
  have hfaces' : q.Faces discard (arrived moves) [frame] := by
    constructor
    · rw [ahead, kept_append, hahead, hrest, harrived, List.nil_append, List.nil_append, kept_append_sep hclean,
        if_neg (by simp [hfits]), kept_nil]
    · rw [residue_append, hrest, harrived, List.nil_append, residue_append_sep hclean, residue_nil]
  exact ⟨arkSession, (drive_ack hcobs hwaits hfaces' hdecode
    (ArkSide.acceptAck_congr h.signer wait ack ▸ haccept) hn).1, hpaired⟩

/-- In these moves and that many more turns the Ark takes the frame of this HostHello at its wait for one, with nothing
else in front of it. If it can answer, it does so once, and the HostAck for that answer brings it into the session paired
with the host's. -/
def Recovers (hpke : Contexts c) (coins : Nat → Coins c) (p : ArkProc c proto A cobs maxFrameSize) (moves : List Move)
    (n : Nat) (hello : HostHello c) (frame : List UInt8) : Prop :=
  ∃ earlier later s q, moves ++ List.replicate n .turn = earlier ++ .turn :: later ∧ s = p.drive coins earlier ∧
    q = p.drive coins (moves ++ List.replicate n .turn) ∧
    (∃ discard, s.Waits coins (.handshake .hello) discard ∧ s.Faces discard (arrived later) [frame]) ∧
    (s.side.CanAnswer cobs maxFrameSize (coins s.side.draws) hello →
      ∃ wait arkHello answer, Answered coins s q hello wait arkHello answer ∧
        ∀ (Info : Type) (host : HelloWait c Info) (hostCoins : Coins c) (verified : Verified c Info)
          (session : Session c) (ack ackFrame : List UInt8), host.hostHello = hello →
          host.answer hostCoins answer = .ok (verified, session, ack) →
          frameOf cobs maxFrameSize ack = .ok ackFrame →
          ∀ (moves' : List Move) (n' : Nat), arrived moves' = ackFrame ++ [0] → 1 ≤ n' →
            ∃ arkSession, (q.drive coins (moves' ++ List.replicate n' .turn)).side.session = some arkSession ∧
              Paired hpke arkSession session)

/-- From wherever a run left the Ark waiting, with whatever unterminated piece in front of it, a reset and a HostHello
bring it to recover. -/
theorem recovers (hcobs : cobs.Lawful) (hc : c.Correct) (hpke : Contexts c) (coins : Nat → Coins c) (reader : Reader)
    (writer : Writer) (signer : c.XdsaSecretKey) (attester : A) (actions : List (ArkAction proto))
    {p : ArkProc c proto A cobs maxFrameSize} (hp : p = (new reader writer signer attester).run coins actions)
    (hcall : p.call = some (point, discard)) (hstop : p.side.framing.reader.stop = [])
    (hplan : p.side.framing.writer.plan = []) (hleftover : 0 ∉ p.side.framing.unread) {hello : HostHello c}
    {packet frame : List UInt8} (hencode : c.cborEncode hello.toCbor = .ok packet)
    (hframe : frameOf cobs maxFrameSize packet = .ok frame) (harrived : arrived moves = [0, 0] ++ (frame ++ [0]))
    (hn : 3 ≤ n) : p.Recovers hpke coins moves n hello frame := by
  obtain ⟨e, _, habstracts⟩ := run_inv hcobs maxFrameSize hpke coins reader writer signer attester actions
  rw [← hp] at habstracts
  have hwaits : p.Waits coins point discard := ⟨⟨e, habstracts⟩, hcall, hstop, hplan⟩
  obtain ⟨hclean, hfits, _, hdecode⟩ := frameOf_ok hcobs hframe
  obtain ⟨earlier, later, k, hmoves, hk, hwaits', hfaces⟩ :=
    drive_reset hcobs hwaits hleftover hclean hfits harrived hn
  obtain ⟨earlier', later', s, hmoves', hs, hthere, hanswered⟩ :=
    drive_hello hcobs hwaits' hfaces hdecode (HostHello.decode_encode hc hencode) hk
  refine ⟨earlier ++ earlier', later', s, _, ?_, ?_, rfl, hthere, fun hcan => ?_⟩
  · rw [hmoves, hmoves', List.append_assoc]
  · rw [hs, drive_append]
  · obtain ⟨wait, arkHello, answer, hdone⟩ := hanswered hcan
    rw [← drive_append, ← hmoves] at hdone
    exact ⟨wait, arkHello, answer, hdone, fun Info host hostCoins verified session ack ackFrame hhost hack hackFrame
      moves' n' harrived' hn' => hdone.acked hcobs hc hpke hhost hack hackFrame harrived' hn'⟩

end ArkProc

open Reference in
/-- An Ark that waits for a HostAck with two bytes of a frame in front of it. -/
theorem recovers_reference :
    ((ark []).run coins (arkAnswers ++ [.arrive (Reader.chunk [9, 9])])).Recovers contexts coins
      [.arrive [0], .turn, .arrive [0, 2, 1, 3, 1], .arrive [1, 1, 0]] 3 ⟨(0 : Nat), (1 : Nat)⟩ [2, 1, 3, 1, 1, 1] := by
  generalize hp : (ark []).run coins (arkAnswers ++ [.arrive (Reader.chunk [9, 9])]) = p
  have hwaits : p.call.isSome = true ∧ p.side.framing.reader.stop = [] ∧ p.side.framing.writer.plan = [] ∧
      0 ∉ p.side.framing.unread := by
    rw [← hp]
    decide +kernel
  obtain ⟨⟨⟨point, discard⟩, hcall⟩, hstop, hplan, hleftover⟩ := hwaits.imp_left Option.isSome_iff_exists.mp
  exact ArkProc.recovers Cobs.stuffing_lawful crypto_correct contexts coins [] ⟨[], []⟩ (7 : Nat) attestation
    (arkAnswers ++ [.arrive (Reader.chunk [9, 9])]) (by rw [← hp, ark]) hcall hstop hplan hleftover rfl rfl rfl (by decide)

end DarkbioWire
