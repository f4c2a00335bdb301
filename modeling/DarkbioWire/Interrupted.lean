import DarkbioWire.Framing.Stream
import DarkbioWire.Reference.Crypto
import DarkbioWire.Waiting

/-!
# The Ark's stream across failed writes

The host begins every handshake with a delimiter that ends whatever frame was interrupted before; the Ark sends its
ArkHello without one. So an ArkHello is a frame of its own exactly where the Ark's stream stands at a frame boundary,
and it always does when no write fails inside a frame. A write that fails there leaves a piece of a frame to which the
next ArkHello is appended.
-/

namespace DarkbioWire

open Delimited

/-- How many of a number of bytes a writer with these answers takes before it fails. -/
def Writer.room : List WriteEvent → Nat → Nat
  | _, 0 => 0
  | [], size => size
  | .accept 0 :: _, _ => 0
  | .accept (count + 1) :: plan, size => min (count + 1) size + room plan (size - (count + 1))
  | .fail .interrupted :: plan, size => room plan size
  | .fail _ :: _, _ => 0

@[simp] theorem Writer.room_zero (plan : List WriteEvent) : room plan 0 = 0 := by
  cases plan <;> simp [room]

theorem Writer.writeLoop_room (plan : List WriteEvent) (wire bytes : List UInt8) :
    (writeLoop plan wire bytes).2.wire = wire ++ bytes.take (room plan bytes.length) := by
  induction plan generalizing wire bytes with
  | nil => cases bytes <;> simp [writeLoop, room]
  | cons event plan ih =>
      rcases bytes with _ | ⟨b, rest⟩
      · cases event <;> simp [writeLoop]
      cases event with
      | accept count =>
          cases count with
          | zero => simp [writeLoop, room]
          | succ count =>
              have hroom : room (.accept (count + 1) :: plan) (b :: rest).length =
                  min (count + 1) (b :: rest).length + room plan ((b :: rest).length - (count + 1)) := by
                rw [List.length_cons, room]
                simp
              have hloop : writeLoop (.accept (count + 1) :: plan) wire (b :: rest) =
                  writeLoop plan (wire ++ (b :: rest).take (count + 1)) ((b :: rest).drop (count + 1)) := by
                rw [writeLoop]
                simp
              rw [hloop, ih, List.append_assoc, List.length_drop, hroom]
              generalize b :: rest = bytes
              rcases Nat.lt_or_ge bytes.length (count + 1) with hlt | hge
              · simp [Nat.sub_eq_zero_of_le (Nat.le_of_lt hlt), Nat.min_eq_right (Nat.le_of_lt hlt),
                  List.take_of_length_le (Nat.le_of_lt hlt)]
              · rw [Nat.min_eq_left hge, ← List.take_add]
      | fail err => cases err <;> simp [writeLoop, room, ih]

theorem Writer.send_room (writer : Writer) (bytes : List UInt8) :
    (writer.send bytes).2.wire = writer.wire ++ bytes.take (room writer.plan bytes.length) := by
  have hwrite := writeLoop_room writer.plan writer.wire bytes
  rw [send, writeAll]
  rcases hloop : writeLoop writer.plan writer.wire bytes with ⟨err | _, written⟩ <;> rw [hloop] at hwrite
  · exact hwrite
  · rw [← hwrite]
    dsimp only
    rw [flush]
    rcases hplan : written.plan with _ | ⟨event, plan⟩
    · rfl
    · cases event <;> rfl

/-- The writer fails at no place inside a write of this size: before its first byte or after its last, if at all. -/
def Writer.Whole (writer : Writer) (size : Nat) : Prop := room writer.plan size = 0 ∨ room writer.plan size = size

/-- Nothing was written, or the last byte written ends a frame. -/
def AtBoundary (wire : List UInt8) : Prop := wire = [] ∨ ∃ before, wire = before ++ [0]

theorem AtBoundary.residue {wire : List UInt8} (h : AtBoundary wire) (limit : Nat) :
    residue 0 limit false wire = (false, []) := by
  rcases h with rfl | ⟨before, rfl⟩
  · exact residue_nil
  · exact residue_concat_sep

namespace Framing

variable {cobs : Cobs} {maxFrameSize : Nat} {f : Framing cobs maxFrameSize}

theorem sendPacket_boundary (hcobs : cobs.Lawful) (hf : f.Wf) {packet : List UInt8}
    (hwhole : ∀ frame, frameOf cobs maxFrameSize packet = .ok frame → f.writer.Whole (frame.length + 1))
    (hstart : AtBoundary f.writer.wire) : AtBoundary (f.sendPacket packet).2.writer.wire := by
  have hspec := (sendPacket_spec hcobs hf packet).2.2
  rcases hframe : frameOf cobs maxFrameSize packet with err | frame
  · rw [hframe] at hspec
    rw [hspec.2]
    exact hstart
  · rw [hframe] at hspec
    rw [hspec.2, Writer.send_room, List.length_append, List.length_singleton]
    rcases hwhole frame hframe with hnone | hall
    · rw [hnone, List.take_zero, List.append_nil]
      exact hstart
    · rw [hall, List.take_of_length_le (by simp)]
      exact Or.inr ⟨f.writer.wire ++ frame, by rw [List.append_assoc]⟩

theorem readsPackets_at_boundary (hcobs : cobs.Lawful) {before after packet frame : List UInt8}
    (hframe : frameOf cobs maxFrameSize packet = .ok frame) (hboundary : AtBoundary before) {reads : List (List UInt8)}
    (hreads : ∀ read ∈ reads, read ≠ []) (hstream : reads.flatten = before ++ (frame ++ [0]) ++ after) (sink : Writer) :
    ∃ earlier later, ReadsPackets (new (streamOf reads) sink : Framing cobs maxFrameSize)
      (earlier ++ .ok (some packet) :: later) .terminated := by
  obtain ⟨hclean, hfits, _, hdecode⟩ := frameOf_ok hcobs hframe
  have hkept : accepted 0 maxFrameSize reads.flatten =
      accepted 0 maxFrameSize before ++ frame :: kept 0 maxFrameSize false after := by
    rw [hstream, accepted_eq_kept, accepted_eq_kept, List.append_assoc, kept_append, hboundary.residue,
      List.nil_append, List.append_assoc, List.singleton_append, kept_append_sep hclean, if_neg (by simp [hfits])]
  refine ⟨(accepted 0 maxFrameSize before).map (decodeFrame cobs maxFrameSize),
    (kept 0 maxFrameSize false after).map (decodeFrame cobs maxFrameSize), ?_⟩
  rw [← hdecode, ← List.map_cons, ← List.map_append, ← hkept]
  exact readsPackets_new hreads sink

/-- A frame written inside another is read as one piece with what is there of the other. -/
theorem readsPackets_merged {before piece frame : List UInt8} (hboundary : AtBoundary before) (hpiece : 0 ∉ piece)
    (hclean : 0 ∉ frame) {reads : List (List UInt8)} (hreads : ∀ read ∈ reads, read ≠ [])
    (hstream : reads.flatten = before ++ piece ++ (frame ++ [0])) (sink : Writer) :
    ReadsPackets (new (streamOf reads) sink : Framing cobs maxFrameSize)
      ((accepted 0 maxFrameSize before ++
        if maxFrameSize < (piece ++ frame).length then [] else [piece ++ frame]).map (decodeFrame cobs maxFrameSize))
      .terminated := by
  have hkept : accepted 0 maxFrameSize reads.flatten = accepted 0 maxFrameSize before ++
      if maxFrameSize < (piece ++ frame).length then [] else [piece ++ frame] := by
    have hsplit : before ++ piece ++ (frame ++ [0]) = before ++ ((piece ++ frame) ++ 0 :: []) := by simp
    rw [hstream, hsplit, accepted_eq_kept, accepted_eq_kept, kept_append, hboundary.residue, List.nil_append,
      kept_append_sep (by simp [hpiece, hclean]), kept_nil]
    simp
  rw [← hkept]
  exact readsPackets_new hreads sink

end Framing

variable {c : Crypto (List UInt8)} {proto : Protocol (List UInt8)} {A : Type} [Attester c A] {cobs : Cobs}
  {maxFrameSize : Nat}

namespace ArkProc

variable {coins : Nat → Coins c} {p : ArkProc c proto A cobs maxFrameSize}

/-- An action of an Ark calls `send_packet` on its framer with this packet: of a message it sealed, or of its ArkHello. -/
inductive Sends (coins : Nat → Coins c) (p : ArkProc c proto A cobs maxFrameSize) :
    ArkAction proto → Framing cobs maxFrameSize → List UInt8 → Prop
  | message {res session payload packet sender} : p.call = none → p.side.session = some session →
      proto.arkToHost.encodedLen res ≤ maxMessageSize cobs maxFrameSize → proto.arkToHost.encode res = .ok payload →
      c.senderSeal session.sender payload = (.ok packet, sender) → Sends coins p (.sendMessage res) p.side.framing packet
  | hello {discard request wait arkHello answer} : p.call = some (.handshake .hello, discard) →
      Framing.packetOf (p.side.framing.nextPacketLoop discard) = .ready (.ok (some request)) →
      ArkSide.Answers (coins p.side.draws) p.side request wait arkHello answer →
      Sends coins p .poll (p.side.framing.nextPacketLoop discard).2 answer

theorem step_sends (coins : Nat → Coins c) (hwf : p.Wf) (action : ArkAction proto) :
    (p.step coins action).side.framing.writer.wire = p.side.framing.writer.wire ∨
      ∃ f packet, p.Sends coins action f packet ∧ f.Wf ∧ f.writer = p.side.framing.writer ∧
        (p.step coins action).side.framing = (f.sendPacket packet).2 := by
  cases action with
  | arrive reads => exact Or.inl rfl
  | plan answers => exact Or.inl rfl
  | nextMessage =>
      rw [step]
      split <;> exact Or.inl rfl
  | sendMessage res =>
      rw [step]
      split
      · rename_i hcall
        have hstep := sendThrough_step proto.arkToHost p.side.framing p.side.session res
        rw [ArkSide.sendMessage]
        generalize hsession : p.side.session = session at hstep ⊢
        generalize sendThrough proto.arkToHost p.side.framing session res = outcome at hstep ⊢
        obtain ⟨result, framing, session'⟩ := outcome
        dsimp only at hstep ⊢
        cases hstep with
        | lost hfits hencode hseal hsend =>
            refine Or.inr ⟨_, _, .message hcall hsession hfits hencode hseal, hwf.framing, rfl, ?_⟩
            have hsent : p.side.framing.sendPacket _ = _ := hsend
            rw [hsent]
        | sent hfits hencode hseal hsend =>
            refine Or.inr ⟨_, _, .message hcall hsession hfits hencode hseal, hwf.framing, rfl, ?_⟩
            have hsent : p.side.framing.sendPacket _ = _ := hsend
            rw [hsent]
        | _ => exact Or.inl rfl
      · exact Or.inl rfl
  | poll =>
      rcases hcall : p.call with _ | ⟨point, discard⟩
      · rw [step, hcall]
        exact Or.inl rfl
      obtain ⟨hwriter, hpoll⟩ := Framing.nextPacketLoop_poll (hwf.at hcall)
      rw [step_poll hcall]
      rcases hpacket : Framing.packetOf (p.side.framing.nextPacketLoop discard) with packet | discard' | _
      · rw [hpacket] at hpoll
        dsimp only at hpoll
        obtain ⟨flow, side', hstep, hsettle⟩ := poll_ready coins p point hpacket
        rw [hsettle, settle_side]
        dsimp only
        have hquiet : side'.framing = (p.side.framing.nextPacketLoop discard).2 →
            side'.framing.writer.wire = p.side.framing.writer.wire := by
          intro hsame
          rw [hsame, hwriter]
        cases hstep with
        | refused _ hframing => exact Or.inl (hquiet hframing)
        | answered _ hanswers hsend =>
            refine Or.inr ⟨_, _, .hello hcall hpacket (hanswers.congr rfl rfl), hpoll, hwriter, ?_⟩
            have hsent : (p.side.framing.nextPacketLoop discard).2.sendPacket _ = _ := hsend
            rw [hsent]
        | unanswered _ hanswers hsend =>
            refine Or.inr ⟨_, _, .hello hcall hpacket (hanswers.congr rfl rfl), hpoll, hwriter, ?_⟩
            have hsent : (p.side.framing.nextPacketLoop discard).2.sendPacket _ = _ := hsend
            rw [hsent]
        | _ => exact Or.inl (hquiet rfl)
      · rw [poll_pending coins p point hpacket]
        exact Or.inl (congrArg Writer.wire hwriter)
      · rw [hpacket] at hpoll
        exact hpoll.elim

theorem Sends.poll_framing (hwf : p.Wf) {f : Framing cobs maxFrameSize} {answer : List UInt8}
    (h : p.Sends coins .poll f answer) : f.Wf ∧ f.writer = p.side.framing.writer ∧
      (p.step coins .poll).side.framing = (f.sendPacket answer).2 := by
  cases h with
  | @hello discard request wait arkHello _ hcall hpacket hanswers =>
      obtain ⟨hwriter, hpoll⟩ := Framing.nextPacketLoop_poll (hwf.at hcall)
      rw [hpacket] at hpoll
      refine ⟨hpoll, hwriter, ?_⟩
      obtain ⟨flow, side', hstep, hsettle⟩ := poll_ready coins p (.handshake .hello) hpacket
      rw [step_poll hcall, hsettle, settle_side]
      dsimp only
      cases hstep with
      | refused _ _ hnone => exact (hnone wait arkHello answer (hanswers.congr rfl rfl)).elim
      | answered _ hanswers' hsend =>
          obtain ⟨_, _, rfl⟩ := hanswers'.unique (hanswers.congr rfl rfl)
          have hsent : (p.side.framing.nextPacketLoop discard).2.sendPacket _ = _ := hsend
          rw [hsent]
      | unanswered _ hanswers' hsend =>
          obtain ⟨_, _, rfl⟩ := hanswers'.unique (hanswers.congr rfl rfl)
          have hsent : (p.side.framing.nextPacketLoop discard).2.sendPacket _ = _ := hsend
          rw [hsent]

/-- No write of a packet fails inside its frame when this action happens. -/
def SendsWhole (coins : Nat → Coins c) (p : ArkProc c proto A cobs maxFrameSize) (action : ArkAction proto) : Prop :=
  ∀ f packet frame, p.Sends coins action f packet → Framing.frameOf cobs maxFrameSize packet = .ok frame →
    p.side.framing.writer.Whole (frame.length + 1)

theorem step_boundary (hcobs : cobs.Lawful) (hwf : p.Wf) {action : ArkAction proto} (hwhole : p.SendsWhole coins action)
    (hstart : AtBoundary p.side.framing.writer.wire) :
    AtBoundary (p.step coins action).side.framing.writer.wire := by
  rcases step_sends coins hwf action with hsame | ⟨f, packet, hsends, hf, hwriter, hsent⟩
  · rw [hsame]
    exact hstart
  · rw [hsent]
    refine Framing.sendPacket_boundary hcobs hf (fun frame hframe => ?_) (hwriter ▸ hstart)
    rw [hwriter]
    exact hwhole f packet frame hsends hframe

theorem step_wire (hcobs : cobs.Lawful) (hwf : p.Wf) (action : ArkAction proto) :
    p.side.framing.writer.wire <+: (p.step coins action).side.framing.writer.wire := by
  rcases step_sends coins hwf action with hsame | ⟨f, packet, _, hf, hwriter, hsent⟩
  · exact hsame ▸ List.prefix_rfl
  · rw [hsent, ← hwriter]
    exact (Framing.sendPacket_wire hcobs hf rfl).1

theorem run_wire (hcobs : cobs.Lawful) {e : Endpoint c proto.HostToArk} (h : p.Abstracts coins e)
    (actions : List (ArkAction proto)) :
    p.side.framing.writer.wire <+: (p.run coins actions).side.framing.writer.wire := by
  induction actions generalizing p e with
  | nil => exact List.prefix_rfl
  | cons action actions ih =>
      obtain ⟨e', _, h'⟩ := step_abstracts hcobs h action
      exact (step_wire hcobs h.wf action).trans (ih h')

/-- In a run in which no write fails inside a frame the stream always stands at a boundary. -/
theorem run_boundary (hcobs : cobs.Lawful) {e : Endpoint c proto.HostToArk} (h : p.Abstracts coins e)
    (actions : List (ArkAction proto))
    (hwhole : ∀ before action after, actions = before ++ action :: after → (p.run coins before).SendsWhole coins action)
    (hstart : AtBoundary p.side.framing.writer.wire) :
    AtBoundary (p.run coins actions).side.framing.writer.wire := by
  induction actions generalizing p e with
  | nil => exact hstart
  | cons action actions ih =>
      obtain ⟨e', _, h'⟩ := step_abstracts hcobs h action
      refine ih h' (fun before next after heq => ?_) (step_boundary hcobs h.wf (hwhole [] action actions rfl) hstart)
      rw [heq] at hwhole
      exact hwhole (action :: before) next after rfl

/-- Every ArkHello whose `send_packet` returned `Ok` in the run is returned by a `next_packet` of the host, whose reads
the stream reaches cut in any way. -/
def HellosArrive (coins : Nat → Coins c) (start : ArkProc c proto A cobs maxFrameSize) (actions : List (ArkAction proto)) :
    Prop :=
  ∀ before after f answer, actions = before ++ .poll :: after → (start.run coins before).Sends coins .poll f answer →
    (f.sendPacket answer).1 = .ok () → ∀ reads : List (List UInt8), (∀ read ∈ reads, read ≠ []) →
    reads.flatten = (start.run coins actions).side.framing.writer.wire → ∀ sink, ∃ earlier later,
      Framing.ReadsPackets (Framing.new (Framing.streamOf reads) sink : Framing cobs maxFrameSize)
        (earlier ++ .ok (some answer) :: later) .terminated

/-- In every run of an Ark in which no write fails inside a frame, every ArkHello that was sent arrives. -/
theorem hellos_arrive (hcobs : cobs.Lawful) (coins : Nat → Coins c) (reader : Reader) {writer : Writer}
    (hwriter : writer.wire = []) (signer : c.XdsaSecretKey) (attester : A) {start : ArkProc c proto A cobs maxFrameSize}
    (hnew : start = new reader writer signer attester) (actions : List (ArkAction proto))
    (hwhole : ∀ before action after, actions = before ++ action :: after →
      (start.run coins before).SendsWhole coins action) : HellosArrive coins start actions := by
  intro before after f answer hactions hsends hsent reads hreads hstream sink
  have hstart : start.Abstracts coins { session := none, wire := writer.wire, round := 0, history := .empty } := by
    rw [hnew]
    exact new_abstracts coins reader writer signer attester
  obtain ⟨e, _, hbefore⟩ := run_abstracts hcobs hstart before
  obtain ⟨e', _, hafter⟩ := step_abstracts hcobs hbefore .poll
  -- the stream stood at a boundary when the ArkHello was sent
  have hboundary : AtBoundary (start.run coins before).side.framing.writer.wire := by
    refine run_boundary hcobs hstart before (fun earlier action later heq => ?_) (Or.inl ?_)
    · exact hwhole earlier action (later ++ .poll :: after) (by rw [hactions, heq, List.append_assoc]; rfl)
    · rw [hnew]
      exact hwriter
  obtain ⟨hf, hsame, hframing⟩ := hsends.poll_framing hbefore.wf
  obtain ⟨frame, hframe, hwire, _, _⟩ := Framing.sendPacket_ok hcobs hf (Prod.ext hsent rfl)
  obtain ⟨rest, hrest⟩ := run_wire hcobs hafter after
  have hrun : start.run coins actions = ((start.run coins before).step coins .poll).run coins after := by
    rw [hactions, run, List.foldl_append, List.foldl_cons]
    rfl
  rw [← hrun, hframing, hwire, hsame] at hrest
  exact Framing.readsPackets_at_boundary hcobs hframe hboundary hreads (hstream.trans hrest.symm) sink

end ArkProc

theorem Writer.whole_of_plan {writer : Writer} (h : writer.plan = [] ∨ ∃ message, writer.plan = [.fail (.other message)])
    (size : Nat) : writer.Whole size := by
  rw [Whole]
  rcases h with h | ⟨message, h⟩ <;> rw [h] <;> cases size <;> simp [room]

/-- Two handshakes begin in front of an Ark. -/
def Reference.greetedTwice : List (ArkAction Reference.protocol) :=
  [.arrive (Reader.chunk [0, 0, 2, 1, 3, 1, 1, 1, 0, 0, 0, 2, 1, 3, 1, 1, 1, 0]), .nextMessage, .poll, .poll, .poll, .poll,
    .poll, .poll]

open Reference in
/-- The writer fails before the first byte of the first ArkHello. -/
theorem hellos_arrive_reference :
    ArkProc.HellosArrive coins (ark [.fail (.other "unplugged")]) greetedTwice := by
  have hplans : ∀ i < 8, ((ark [.fail (.other "unplugged")]).run coins (greetedTwice.take i)).side.framing.writer.plan = [] ∨
      ((ark [.fail (.other "unplugged")]).run coins (greetedTwice.take i)).side.framing.writer.plan =
        [.fail (.other "unplugged")] := by
    decide +kernel
  refine ArkProc.hellos_arrive Cobs.stuffing_lawful coins []
    (show (Writer.mk [] [.fail (.other "unplugged")]).wire = [] from rfl) (7 : Nat) attestation rfl greetedTwice
    fun before action after hsplit f packet frame _ _ => Writer.whole_of_plan ?_ _
  have hlength : before.length < 8 := by
    have := congrArg List.length hsplit
    rw [List.length_append, List.length_cons, show greetedTwice.length = 8 from rfl] at this
    omega
  rw [show before = greetedTwice.take before.length by rw [hsplit, List.take_left]]
  exact (hplans before.length hlength).imp_right fun hplan => ⟨_, hplan⟩

/-! ### A hello that is lost -/

namespace Reference

open Framing

/-- An Ark outside a session whose call waits at this point. -/
def waiting (f : Framing Cobs.stuffing MAX_FRAME_SIZE) (draws : Nat) (point : MessagePoint crypto) :
    ArkProc crypto protocol (Attestation crypto) Cobs.stuffing MAX_FRAME_SIZE where
  side := { framing := f, signer := (7 : Nat), attester := attestation, session := none, draws }
  call := some (point, 0)
  history := .empty

/-- The frame of the first HostHello of a host. -/
def helloFrame : List UInt8 := [2, 1, 3, 1, 1, 1]

/-- What that Ark answers to it. -/
def answer (draws : Nat) : List UInt8 :=
  Envelope.toBytes {
    recipient := 1
    payload := [attestation.cwt, number (3 * draws), number (3 * draws + 1)]
    aad := [number 0, number 1]
    signer := 7
    domain := CRYPTO_DOMAIN_WIRE }

variable {f : Framing Cobs.stuffing MAX_FRAME_SIZE} {rest : List UInt8} (draws : Nat)

theorem waiting_poll {point : MessagePoint crypto} {packet : Except Error (Option (List UInt8))}
    (hpacket : packetOf (f.nextPacketLoop 0) = .ready packet) :
    (waiting f draws point).step coins .poll =
      (ArkProc.settle (ArkProc.noteOpen .empty none point packet) none
        ((waiting (f.nextPacketLoop 0).2 draws point).side.nextMessageStep protocol (coins draws) point packet)).2 := by
  change (ArkProc.poll coins (waiting f draws point) point 0).2 = _
  rw [ArkProc.poll]
  dsimp only
  rw [show packetOf ((waiting f draws point).side.framing.nextPacketLoop 0) = .ready packet from hpacket]
  rfl

theorem waiting_reset {point : MessagePoint crypto} (hpoint : point = .packet ∨ point = .handshake .hello) (hf : f.Wf)
    (hunread : f.unread = 0 :: rest) :
    ∃ f', (waiting f draws point).step coins .poll = waiting f' draws (.handshake .hello) ∧ f'.Wf ∧
      f'.writer = f.writer ∧ f'.unread = rest := by
  have hnext : next 0 MAX_FRAME_SIZE (decide (0 < 0)) f.unread = some ([], rest) := by
    rw [hunread]
    exact (next_append_sep (z := []) (by simp)).trans (if_neg (by simp))
  obtain ⟨hpacket, hwf, hwriter, hrest, _⟩ := nextPacketLoop_frame hf.wfAt hnext
  refine ⟨(f.nextPacketLoop 0).2, ?_, hwf, hwriter, hrest⟩
  rcases hpoint with rfl | rfl <;> exact waiting_poll draws hpacket

theorem waiting_hello (hf : f.Wf) (hunread : f.unread = helloFrame ++ 0 :: rest) :
    ∃ f', (waiting f draws (.handshake .hello)).Sends coins .poll f' (answer draws) ∧ f'.Wf ∧ f'.writer = f.writer ∧
      f'.unread = rest ∧
      ∀ err f'', f'.sendPacket (answer draws) = (.error (.sendFailed err), f'') →
        (waiting f draws (.handshake .hello)).step coins .poll = waiting f'' (draws + 1) .packet := by
  have hnext : next 0 MAX_FRAME_SIZE (decide (0 < 0)) f.unread = some (helloFrame, rest) := by
    rw [hunread, next_append_sep (by decide)]
    exact if_neg (by decide)
  obtain ⟨hpacket, hwf, hwriter, hrest, _⟩ := nextPacketLoop_frame hf.wfAt hnext
  have hanswers : ∀ g, ArkSide.Answers (coins draws) (waiting g draws (.handshake .hello)).side
      (1 :: pack [number 0, number 1])
      { hostHello := ⟨(0 : Nat), (1 : Nat)⟩
        arkCryptoKey := (3 * draws : Nat)
        sender := { key := 1, encap := number (3 * draws + 1), info := CRYPTO_DOMAIN_WIRE_ARK_TO_HOST, seq := 0 : Context } }
      { arkAttest := attestation.cwt, arkCrypto := (3 * draws : Nat), a2hEncap := number (3 * draws + 1) } (answer draws) :=
    fun g => ⟨rfl, rfl, rfl, rfl, rfl, rfl⟩
  refine ⟨(f.nextPacketLoop 0).2, .hello rfl hpacket (hanswers f), hwf, hwriter, hrest, fun err f'' hsend => ?_⟩
  rw [waiting_poll draws hpacket]
  generalize (f.nextPacketLoop 0).2 = g at hsend ⊢
  have hstep : (waiting g draws (.handshake .hello)).side.handshakeStep (coins draws) .hello
      (.ok (some (1 :: pack [number 0, number 1]))) =
      (.done (.error (.sendFailed err)), (waiting f'' (draws + 1) .packet).side) := by
    rw [ArkSide.handshakeStep, ArkSide.answerHello_eq (hanswers g)]
    rw [show Transport.sendPacket (waiting g draws (.handshake .hello)).side.framing (answer draws) = _ from hsend]
    rfl
  change (ArkProc.settle _ _ (ArkSide.nextMessageStep protocol (coins draws) _ (.handshake .hello)
    (.ok (some (1 :: pack [number 0, number 1]))))).2 = _
  rw [ArkSide.nextMessageStep_aborted hstep]
  rfl

/-- What a host writes at the beginning of a handshake. -/
def greeting : List UInt8 := 0 :: 0 :: (helloFrame ++ [0])

/-- An Ark that two of them reach, with a writer that takes one byte and fails then. -/
def start : ArkProc crypto protocol (Attestation crypto) Cobs.stuffing MAX_FRAME_SIZE :=
  .new (Reader.chunk (greeting ++ greeting)) ⟨[], [.accept 1, .fail (.other "unplugged")]⟩ (7 : Nat) attestation

theorem waiting_greeting (hf : f.Wf) (hunread : f.unread = greeting ++ rest) :
    ∃ f', ((waiting f draws .packet).step coins .poll).step coins .poll = waiting f' draws (.handshake .hello) ∧ f'.Wf ∧
      f'.writer = f.writer ∧ f'.unread = helloFrame ++ 0 :: rest := by
  have hsplit : f.unread = 0 :: 0 :: (helloFrame ++ 0 :: rest) := by simpa [greeting] using hunread
  obtain ⟨f', hstep, hf', hwriter, hunread'⟩ := waiting_reset draws (Or.inl rfl) hf hsplit
  obtain ⟨f'', hstep', hf'', hwriter', hunread''⟩ := waiting_reset draws (Or.inr rfl) hf' hunread'
  refine ⟨f'', ?_, hf'', hwriter'.trans hwriter, hunread''⟩
  rw [hstep, hstep']

theorem start_waiting : start.step coins .nextMessage = waiting start.side.framing 0 .packet := rfl

/-- The first ArkHello fails after one byte, the second is sent and does not arrive. -/
theorem hellos_arrive_lost :
    ¬ ArkProc.HellosArrive coins start [.nextMessage, .poll, .poll, .poll, .poll, .poll, .poll] := by
  intro harrive
  obtain ⟨f, hgreeted, hf, hwriter, hunread⟩ := waiting_greeting 0
    (show start.side.framing.Wf from new_wf _ _) (show start.side.framing.unread = greeting ++ greeting from rfl)
  obtain ⟨g, _, hg, hwriter', hunread', hfailed⟩ := waiting_hello 0 hf hunread
  -- the first answer is cut after its first byte
  obtain ⟨hcutWf, hcutReceiver, hcut, hcutWriter⟩ := sendPacket_spec Cobs.stuffing_lawful hg (answer 0)
  rw [hwriter', hwriter] at hcut hcutWriter
  have hafter := hfailed (.other "unplugged") (g.sendPacket (answer 0)).2 (Prod.ext hcut rfl)
  obtain ⟨f₁, hgreeted₁, hf₁, hwriter₁, hunread₁⟩ := waiting_greeting 1 hcutWf
    (show _ = greeting ++ [] by rw [hcutReceiver.unread, hunread', List.append_nil])
  obtain ⟨g₁, hsends, hg₁, hwriter₁', _, _⟩ := waiting_hello 1 hf₁ hunread₁
  obtain ⟨_, _, hsent, hsentWriter⟩ := sendPacket_spec Cobs.stuffing_lawful hg₁ (answer 1)
  rw [hwriter₁', hwriter₁, hcutWriter] at hsent hsentWriter
  have hbefore : start.run coins [.nextMessage, .poll, .poll, .poll, .poll, .poll] =
      waiting f₁ 1 (.handshake .hello) := by
    rw [ArkProc.run_cons, start_waiting, ArkProc.run_cons, ArkProc.run_cons, hgreeted, ArkProc.run_cons, hafter,
      ArkProc.run_cons, ArkProc.run_cons, hgreeted₁, ArkProc.run_nil]
  have hwire : (start.run coins [.nextMessage, .poll, .poll, .poll, .poll, .poll, .poll]).side.framing.writer.wire =
      [] ++ [4] ++ (Stuffing.encode (answer 1) ++ [0]) := by
    have hlast : start.run coins [.nextMessage, .poll, .poll, .poll, .poll, .poll, .poll] =
        (waiting f₁ 1 (.handshake .hello)).step coins .poll := by
      rw [← hbefore]
      repeat rw [ArkProc.run_cons]
      rw [ArkProc.run_nil, ArkProc.run_nil]
    rw [hlast, (hsends.poll_framing (show (waiting f₁ 1 (.handshake .hello)).Wf from hf₁.wfAt)).2.2, hsentWriter]
    rfl
  obtain ⟨earlier, later, hreads⟩ := harrive [.nextMessage, .poll, .poll, .poll, .poll, .poll] [] g₁ (answer 1) rfl
    (hbefore ▸ hsends) hsent [_] (by rw [hwire]; decide) List.flatten_singleton ⟨[], []⟩
  -- the reader gets the byte and the second answer as one frame
  have hmerged := hreads.unique (readsPackets_merged (Or.inl rfl) (by decide) (Stuffing.zero_not_mem_encode (answer 1))
    (by rw [hwire]; decide) (List.flatten_singleton.trans hwire) ⟨[], []⟩)
  have hmem : (.ok (some (answer 1)) : PacketResult) ∈ earlier ++ .ok (some (answer 1)) :: later := by simp
  rw [hmerged] at hmem
  revert hmem
  decide +kernel

end Reference

end DarkbioWire
