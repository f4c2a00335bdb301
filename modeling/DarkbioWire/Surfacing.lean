import DarkbioWire.Admission

/-!
# What a host makes of a failing transport

Every failure of the transport that a method of the host meets ends that method with this very failure, without another read,
and leaves the host without a session; and a method returns a failure of the transport for no other reason
(`host_surfaces`). Unlike the Ark's `next_message` a host passes over no failed write.
-/

namespace DarkbioWire

open Delimited Framing

variable {c : Crypto (List UInt8)} {proto : Protocol (List UInt8)} {Info : Type} {cobs : Cobs} {maxFrameSize : Nat}

/-- The errors that report a failure of the transport. -/
inductive Error.OfTransport : Error → Prop
  | terminated : OfTransport .terminated
  | recvFailed (cause : IoError) : OfTransport (.recvFailed cause)
  | sendFailed (cause : IoError) : OfTransport (.sendFailed cause)

namespace Framing

variable {f : Framing cobs maxFrameSize} {discard : Nat} {err : Error}

/-- The bytes at hand hold no complete frame, and behind them the reads end or fail, with the reader left like this. -/
inductive Breaks (f : Framing cobs maxFrameSize) (discard : Nat) : Error → Reader → Prop
  | ended {bytes rest} : next 0 maxFrameSize (decide (0 < discard)) f.unread = none → f.reader.stop = .data bytes :: rest →
      Breaks f discard .terminated rest
  | unread {cause rest} : next 0 maxFrameSize (decide (0 < discard)) f.unread = none → f.reader.stop = .fail cause :: rest →
      Breaks f discard (.recvFailed cause) rest

/-- A poll of `next_packet` returns a failure of the transport exactly where the reads end or fail. -/
theorem poll_breaks (hf : f.WfAt discard) :
    (∀ rest, f.Breaks discard err rest → packetOf (f.nextPacketLoop discard) = .ready (.error err) ∧
      (f.nextPacketLoop discard).2.reader = rest) ∧
    (err.OfTransport → packetOf (f.nextPacketLoop discard) = .ready (.error err) → ∃ rest, f.Breaks discard err rest) := by
  have hspec := (nextPacketLoop_spec hf).1
  rw [NextPacketSpec] at hspec
  constructor
  · intro rest hbreaks
    cases hbreaks with
    | ended hnext hstop =>
        rw [hnext] at hspec
        obtain ⟨_, _, _, hend⟩ := hspec
        rw [hstop] at hend
        exact hend
    | unread hnext hstop =>
        rw [hnext] at hspec
        obtain ⟨_, _, _, hend⟩ := hspec
        rw [hstop] at hend
        exact hend
  · intro hkind hpacket
    rw [hpacket] at hspec
    split at hspec
    · -- a frame is a packet, or it does not decode
      obtain ⟨hdecode, _⟩ := hspec
      rw [decodeFrame] at hdecode
      split at hdecode
      · cases hdecode
      split at hdecode
      · obtain rfl := Except.error.inj (Poll.ready.inj hdecode)
        cases hkind
      · cases hdecode
    · rename_i hnext
      obtain ⟨_, _, _, hend⟩ := hspec
      split at hend
      · cases hend.1
      · rename_i hstop
        obtain rfl := Except.error.inj (Poll.ready.inj hend.1)
        exact ⟨_, .ended hnext hstop⟩
      · rename_i hstop
        obtain rfl := Except.error.inj (Poll.ready.inj hend.1)
        exact ⟨_, .unread hnext hstop⟩

theorem sendPacket_breaks (hcobs : cobs.Lawful) (hf : f.Wf) (hkind : err.OfTransport) (packet : List UInt8) :
    (f.sendPacket packet).1 = .error err ↔
      ∃ frame, frameOf cobs maxFrameSize packet = .ok frame ∧ (f.writer.send (frame ++ [0])).1 = .error err := by
  have hspec := (sendPacket_spec hcobs hf packet).2.2
  rcases hframe : frameOf cobs maxFrameSize packet with refusal | frame
  · rw [hframe] at hspec
    rw [hspec.1]
    constructor
    · intro hrefusal
      obtain rfl := Except.error.inj hrefusal
      rw [frameOf] at hframe
      split at hframe
      · obtain rfl := Except.error.inj hframe
        cases hkind
      split at hframe
      · obtain rfl := Except.error.inj hframe
        cases hkind
      · cases hframe
    · rintro ⟨_, hok, _⟩
      cases hok
  · rw [hframe] at hspec
    rw [hspec.1]
    constructor
    · exact fun hfailed => ⟨frame, rfl, hfailed⟩
    · rintro ⟨_, hok, hfailed⟩
      rw [Except.ok.inj hok]
      exact hfailed

end Framing

namespace HostProc

variable {coins : Nat → Coins c} {p : HostProc c proto Info cobs maxFrameSize} {action : HostAction c proto Info}
  {err : Error}
  {rest : Reader}

/-- The error a method returned. -/
def Outcome.error? : Outcome proto Info → Option Error
  | .handshake (.error err) => some err
  | .nextMessage (.error err) => some err
  | .sendMessage (.error err) => some err
  | _ => none

/-- An action hands these bytes to the writer, with this framer: its reset, or a frame of its HostHello, of a message or of
its HostAck. -/
inductive Writes (coins : Nat → Coins c) (p : HostProc c proto Info cobs maxFrameSize) :
    HostAction c proto Info → Framing cobs maxFrameSize → List UInt8 → Prop
  | reset {verifier} : p.call = none → Writes coins p (.handshake verifier) p.side.framing [0, 0]
  | hello {verifier hello frame} : p.call = none → p.side.framing.sendReset.1 = .ok () →
      c.cborEncode (HelloWait.mk verifier (c.xdsaGenerate (coins p.side.draws).first)
        (c.xhpkeGenerate (coins p.side.draws).second) 0).hostHello.toCbor = .ok hello →
      frameOf cobs maxFrameSize hello = .ok frame →
      Writes coins p (.handshake verifier) p.side.framing.sendReset.2 (frame ++ [0])
  | message {req session payload packet sender frame} : p.call = none → p.side.session = some session →
      proto.hostToArk.encodedLen req ≤ maxMessageSize cobs maxFrameSize → proto.hostToArk.encode req = .ok payload →
      c.senderSeal session.sender payload = (.ok packet, sender) → frameOf cobs maxFrameSize packet = .ok frame →
      Writes coins p (.sendMessage req) p.side.framing (frame ++ [0])
  | ack {wait discard packet verified session ack frame} : p.call = some (.handshake wait, discard) →
      packetOf (p.side.framing.nextPacketLoop discard) = .ready (.ok packet) → wait.Ours packet →
      wait.answer (coins p.side.draws) (packet.getD c.empty) = .ok (verified, session, ack) →
      frameOf cobs maxFrameSize ack = .ok frame →
      Writes coins p .poll (p.side.framing.nextPacketLoop discard).2 (frame ++ [0])

/-- An action meets a failure of the transport, with the reader left like this: the reads of a waiting call end or fail, or
the writer fails. -/
inductive Fails (coins : Nat → Coins c) (p : HostProc c proto Info cobs maxFrameSize) :
    HostAction c proto Info → Error → Reader → Prop
  | read {call discard err rest} : p.call = some (call, discard) → p.side.framing.Breaks discard err rest →
      Fails coins p .poll err rest
  | write {action f bytes err} : p.Writes coins action f bytes → (f.writer.send bytes).1 = .error err →
      Fails coins p action err f.reader

/-- A method returns this error and is over, with the host without a session and the reader left like this. -/
structure Stops (coins : Nat → Coins c) (p : HostProc c proto Info cobs maxFrameSize) (action : HostAction c proto Info)
    (err : Error) (rest : Reader) : Prop where
  returned : ∃ outcome, p.outcome coins action = some outcome ∧ outcome.error? = some err
  idle : (p.step coins action).call = none
  session : (p.step coins action).side.session = none
  reader : (p.step coins action).side.framing.reader = rest

/-! ### A failure stops the call -/

theorem start_stops (hcall : p.call = none) {verifier : Verifier c Info} {side : HostSide c (Framing cobs maxFrameSize)}
    (hstart : p.side.handshakeStart (coins p.side.draws) verifier = (.error err, side)) (hsession : side.session = none)
    (hreader : side.framing.reader = rest) : p.Stops coins (.handshake verifier) err rest := by
  have hstep : p.step coins (.handshake verifier) = { p with side } := by
    rw [step, hcall]
    dsimp only
    rw [hstart]
  refine ⟨⟨.handshake (.error err), ?_, rfl⟩, ?_, ?_, ?_⟩
  · rw [outcome, hcall]
    dsimp only
    rw [hstart]
  · rw [hstep]
    exact hcall
  · rw [hstep]
    exact hsession
  · rw [hstep]
    exact hreader

theorem reset_stops (hf : p.side.framing.Wf) (hcall : p.call = none) {verifier : Verifier c Info}
    (hbroken : (p.side.framing.writer.send [0, 0]).1 = .error err) :
    p.Stops coins (.handshake verifier) err p.side.framing.reader := by
  obtain ⟨hresult, _, _, hsame⟩ := sendReset_spec p.side.framing hf
  have hfailed : Transport.sendReset p.side.framing = (.error err, p.side.framing.sendReset.2) :=
    Prod.ext (hresult.trans hbroken) rfl
  have hstart : p.side.handshakeStart (coins p.side.draws) verifier =
      (.error err, { p.side with session := none, framing := p.side.framing.sendReset.2 }) := by
    rw [HostSide.handshakeStart]
    dsimp only
    rw [hfailed]
  exact start_stops hcall hstart rfl hsame.reader

theorem hello_stops (hcobs : cobs.Lawful) (hf : p.side.framing.Wf) (hkind : err.OfTransport) (hcall : p.call = none)
    {verifier : Verifier c Info} {hello frame : List UInt8} (hdone : p.side.framing.sendReset.1 = .ok ())
    (hencode : c.cborEncode (HelloWait.mk verifier (c.xdsaGenerate (coins p.side.draws).first)
      (c.xhpkeGenerate (coins p.side.draws).second) 0).hostHello.toCbor = .ok hello)
    (hframe : frameOf cobs maxFrameSize hello = .ok frame)
    (hbroken : (p.side.framing.sendReset.2.writer.send (frame ++ [0])).1 = .error err) :
    p.Stops coins (.handshake verifier) err p.side.framing.sendReset.2.reader := by
  obtain ⟨_, _, hwf, _⟩ := sendReset_spec p.side.framing hf
  obtain ⟨_, hsame, _⟩ := sendPacket_spec hcobs hwf hello
  have hreset : Transport.sendReset p.side.framing = (.ok (), p.side.framing.sendReset.2) := Prod.ext hdone rfl
  have hfailed : Transport.sendPacket p.side.framing.sendReset.2 hello =
      (.error err, (p.side.framing.sendReset.2.sendPacket hello).2) :=
    Prod.ext ((sendPacket_breaks hcobs hwf hkind hello).mpr ⟨frame, hframe, hbroken⟩) rfl
  have hstart : p.side.handshakeStart (coins p.side.draws) verifier =
      (.error err,
        { framing := (p.side.framing.sendReset.2.sendPacket hello).2, session := none, draws := p.side.draws + 1 }) := by
    rw [HostSide.handshakeStart]
    dsimp only
    rw [hreset]
    dsimp only
    rw [hencode]
    dsimp only
    rw [hfailed]
  exact start_stops hcall hstart rfl hsame.reader

theorem message_stops (hcobs : cobs.Lawful) (hf : p.side.framing.Wf) (hkind : err.OfTransport) (hcall : p.call = none)
    {req : proto.HostToArk} {session : Session c} {payload packet frame : List UInt8} {sender : c.Sender}
    (hsession : p.side.session = some session)
    (hfits : proto.hostToArk.encodedLen req ≤ maxMessageSize cobs maxFrameSize)
    (hencode : proto.hostToArk.encode req = .ok payload) (hseal : c.senderSeal session.sender payload = (.ok packet, sender))
    (hframe : frameOf cobs maxFrameSize packet = .ok frame)
    (hbroken : (p.side.framing.writer.send (frame ++ [0])).1 = .error err) :
    p.Stops coins (.sendMessage req) err p.side.framing.reader := by
  obtain ⟨_, hsame, _⟩ := sendPacket_spec hcobs hf packet
  have hfailed : Transport.sendPacket p.side.framing packet = (.error err, (p.side.framing.sendPacket packet).2) :=
    Prod.ext ((sendPacket_breaks hcobs hf hkind packet).mpr ⟨frame, hframe, hbroken⟩) rfl
  have hsend : p.side.sendMessage proto req =
      (.error err, { p.side with framing := (p.side.framing.sendPacket packet).2, session := none }) := by
    have hlarge : ¬ proto.hostToArk.encodedLen req > Transport.maxMessageSize (Framing cobs maxFrameSize) :=
      Nat.not_lt.mpr hfits
    rw [HostSide.sendMessage, hsession, sendThrough, Session.seal, if_neg hlarge, hencode]
    dsimp only
    rw [hseal]
    dsimp only
    rw [hfailed]
  have hstep : (p.step coins (.sendMessage req)).call = none ∧ (p.step coins (.sendMessage req)).side =
      { p.side with framing := (p.side.framing.sendPacket packet).2, session := none } := by
    rw [step, hcall]
    exact ⟨rfl, congrArg Prod.snd hsend⟩
  refine ⟨⟨.sendMessage (.error err), ?_, rfl⟩, hstep.1, by rw [hstep.2], by rw [hstep.2]; exact hsame.reader⟩
  rw [outcome, hcall]
  dsimp only
  rw [hsend]

theorem poll_stops {call : HostCall c Info} {discard : Nat} (hcall : p.call = some (call, discard))
    {returned : Returned proto Info}
    {q : HostProc c proto Info cobs maxFrameSize} (hpoll : p.poll coins call discard = (some returned, q))
    (herr : returned.outcome.error? = some err) (hidle : q.call = none) (hsession : q.side.session = none)
    (hreader : q.side.framing.reader = rest) : p.Stops coins .poll err rest := by
  have hstep : p.step coins .poll = q := by rw [step_poll hcall, hpoll]
  refine ⟨⟨returned.outcome, ?_, herr⟩, hstep ▸ hidle, hstep ▸ hsession, hstep ▸ hreader⟩
  rw [poll_outcome hcall, hpoll]
  rfl

theorem ack_stops (hcobs : cobs.Lawful) (hwf : p.Wf) (hnone : p.side.session = none) (hkind : err.OfTransport)
    {wait : HelloWait c Info} {discard : Nat} (hcall : p.call = some (.handshake wait, discard))
    {packet : Option (List UInt8)} (hpacket : packetOf (p.side.framing.nextPacketLoop discard) = .ready (.ok packet))
    (hours : wait.Ours packet) {verified : Verified c Info} {session : Session c} {ack frame : List UInt8}
    (hanswer : wait.answer (coins p.side.draws) (packet.getD c.empty) = .ok (verified, session, ack))
    (hframe : frameOf cobs maxFrameSize ack = .ok frame)
    (hbroken : ((p.side.framing.nextPacketLoop discard).2.writer.send (frame ++ [0])).1 = .error err) :
    p.Stops coins .poll err (p.side.framing.nextPacketLoop discard).2.reader := by
  have hpoll := (Framing.nextPacketLoop_poll (hwf.at hcall)).2
  rw [hpacket] at hpoll
  dsimp only at hpoll
  obtain ⟨_, hsame, _⟩ := sendPacket_spec hcobs hpoll ack
  have hfailed := (sendPacket_breaks hcobs hpoll hkind ack).mpr ⟨frame, hframe, hbroken⟩
  obtain ⟨flow, side, hstep, hsettle⟩ := poll_handshake coins p wait hpacket
  cases hstep with
  | skipped hother => exact absurd hours hother
  | gaveUp hother => exact absurd hours hother
  | rejected _ hrejected => cases hanswer.symm.trans hrejected
  | @unanswered _ _ _ _ _ framing _ hthis hsend =>
      obtain ⟨rfl, hrest⟩ := Prod.mk.inj (Except.ok.inj (hanswer.symm.trans hthis))
      obtain ⟨rfl, rfl⟩ := Prod.mk.inj hrest
      obtain rfl := Except.error.inj (hfailed.symm.trans (congrArg Prod.fst hsend))
      have hreader : framing.reader = (p.side.framing.nextPacketLoop discard).2.reader :=
        (congrArg (fun sent => (Prod.snd sent).reader) hsend).symm.trans hsame.reader
      exact poll_stops hcall hsettle rfl rfl hnone hreader
  | answered _ hthis hsend =>
      obtain ⟨rfl, hrest⟩ := Prod.mk.inj (Except.ok.inj (hanswer.symm.trans hthis))
      obtain ⟨rfl, rfl⟩ := Prod.mk.inj hrest
      cases hfailed.symm.trans (congrArg Prod.fst hsend)

theorem read_stops (hwf : p.Wf) {call : HostCall c Info} {discard : Nat} (hcall : p.call = some (call, discard))
    (hnone : ∀ wait, call = .handshake wait → p.side.session = none) (hbreaks : p.side.framing.Breaks discard err rest) :
    p.Stops coins .poll err rest := by
  obtain ⟨hpacket, hreader⟩ := (Framing.poll_breaks (hwf.at hcall)).1 rest hbreaks
  cases call with
  | handshake wait =>
      obtain ⟨flow, side, hstep, hsettle⟩ := poll_handshake coins p wait hpacket
      cases hstep with
      | failed => exact poll_stops hcall hsettle rfl rfl (hnone wait rfl) hreader
  | nextMessage =>
      obtain ⟨result, side, hstep, hsettle⟩ := poll_message coins p hpacket
      cases hstep with
      | failed => exact poll_stops hcall hsettle rfl rfl rfl hreader

theorem fails_stops (hcobs : cobs.Lawful) {e : Endpoint c proto.ArkToHost} (h : p.Abstracts coins e)
    (hfails : p.Fails coins action err rest) : p.Stops coins action err rest := by
  cases hfails with
  | @read call discard _ _ hcall hbreaks =>
      refine read_stops h.wf hcall ?_ hbreaks
      rintro wait rfl
      exact (h.waiting wait discard hcall).1
  | @write _ f bytes _ hwrites hbroken =>
      have hkind : err.OfTransport := by
        rcases Writer.send_cases f.writer bytes with ⟨hok, _⟩ | ⟨cause, _, hcause, _⟩
        · cases hok.symm.trans hbroken
        · obtain rfl := Except.error.inj (hcause.symm.trans hbroken)
          exact .sendFailed cause
      cases hwrites with
      | reset hcall => exact reset_stops h.wf.framing hcall hbroken
      | hello hcall hdone hencode hframe => exact hello_stops hcobs h.wf.framing hkind hcall hdone hencode hframe hbroken
      | message hcall hsession hfits hencode hseal hframe =>
          exact message_stops hcobs h.wf.framing hkind hcall hsession hfits hencode hseal hframe hbroken
      | ack hcall hpacket hours hanswer hframe =>
          exact ack_stops hcobs h.wf (h.waiting _ _ hcall).1 hkind hcall hpacket hours hanswer hframe hbroken

/-! ### What a method returns -/

theorem start_returned (hcobs : cobs.Lawful) (hf : p.side.framing.Wf) (hkind : err.OfTransport) (hcall : p.call = none)
    {verifier : Verifier c Info} (hreturned : (p.side.handshakeStart (coins p.side.draws) verifier).1 = .error err) :
    ∃ rest, p.Fails coins (.handshake verifier) err rest := by
  obtain ⟨hreset, _, hwf, _⟩ := sendReset_spec p.side.framing hf
  have hstep := HostSide.handshakeStart_step (coins p.side.draws) p.side verifier
  generalize p.side.handshakeStart (coins p.side.draws) verifier = started at hstep hreturned
  obtain ⟨result, side⟩ := started
  obtain rfl : result = .error err := hreturned
  cases hstep with
  | unreset hfailed => exact ⟨_, .write (.reset hcall) (hreset.symm.trans (congrArg Prod.fst hfailed))⟩
  | unencodable => cases hkind
  | @unsent _ _ framing _ _ hwait hdone hencode hfailed =>
      subst hwait
      obtain rfl : p.side.framing.sendReset.2 = framing := congrArg Prod.snd hdone
      obtain ⟨frame, hframe, hbroken⟩ := (sendPacket_breaks hcobs hwf hkind _).mp (congrArg Prod.fst hfailed)
      exact ⟨_, .write (.hello hcall (congrArg Prod.fst hdone) hencode hframe) hbroken⟩

theorem message_returned (hcobs : cobs.Lawful) (hf : p.side.framing.Wf) (hkind : err.OfTransport) (hcall : p.call = none)
    {req : proto.HostToArk} (hreturned : (p.side.sendMessage proto req).1 = .error err) :
    ∃ rest, p.Fails coins (.sendMessage req) err rest := by
  have hstep := sendThrough_step proto.hostToArk p.side.framing p.side.session req
  rw [HostSide.sendMessage] at hreturned
  generalize hheld : p.side.session = held at hstep hreturned
  generalize sendThrough proto.hostToArk p.side.framing held req = sent at hstep hreturned
  obtain ⟨result, framing, left⟩ := sent
  obtain rfl : result = .error err := hreturned
  cases hstep with
  | inactive => cases hkind
  | tooLarge => cases hkind
  | unencodable => cases hkind
  | unsealed => cases hkind
  | lost hfits hencode hseal hsend =>
      obtain ⟨frame, hframe, hbroken⟩ := (sendPacket_breaks hcobs hf hkind _).mp (congrArg Prod.fst hsend)
      exact ⟨_, .write (.message hcall hheld hfits hencode hseal hframe) hbroken⟩

theorem poll_failed (hcobs : cobs.Lawful) (hwf : p.Wf) (hkind : err.OfTransport) {call : HostCall c Info} {discard : Nat}
    (hcall : p.call = some (call, discard)) {returned : Returned proto Info}
    (hreturned : (p.poll coins call discard).1 = some returned) (herr : returned.outcome.error? = some err) :
    ∃ rest, p.Fails coins .poll err rest := by
  obtain ⟨_, hpoll⟩ := Framing.nextPacketLoop_poll (hwf.at hcall)
  have hbroken := (Framing.poll_breaks (hwf.at hcall)).2 hkind
  rcases hpacket : packetOf (p.side.framing.nextPacketLoop discard) with packet | discard' | _
  · rw [hpacket] at hpoll
    cases call with
    | handshake wait =>
        obtain ⟨flow, side, hstep, hsettle⟩ := poll_handshake coins p wait hpacket
        rw [hsettle] at hreturned
        rcases flow with wait' | result
        · cases hreturned
        obtain rfl : Returned.handshake result = returned := Option.some.inj hreturned
        rcases result with err' | info
        swap
        · cases herr
        obtain rfl := Option.some.inj herr
        cases hstep with
        | failed =>
            obtain ⟨rest, hbreaks⟩ := hbroken hpacket
            exact ⟨rest, .read hcall hbreaks⟩
        | gaveUp => cases hkind
        | rejected _ hrejected =>
            rcases HelloWait.answer_error hrejected with rfl | ⟨message, rfl⟩ <;> cases hkind
        | unanswered hours hanswer hsend =>
            obtain ⟨frame, hframe, hfailed⟩ := (sendPacket_breaks hcobs hpoll hkind _).mp (congrArg Prod.fst hsend)
            exact ⟨_, .write (.ack hcall hpacket hours hanswer hframe) hfailed⟩
    | nextMessage =>
        obtain ⟨result, side, hstep, hsettle⟩ := poll_message coins p hpacket
        rw [hsettle] at hreturned
        obtain rfl : Returned.nextMessage result = returned := Option.some.inj hreturned
        rcases result with err' | msg
        swap
        · cases herr
        obtain rfl := Option.some.inj herr
        generalize hresult : (.error err' : Except Error proto.ArkToHost) = result at hstep
        cases hstep with
        | failed =>
            obtain rfl := Except.error.inj hresult
            obtain ⟨rest, hbreaks⟩ := hbroken hpacket
            exact ⟨rest, .read hcall hbreaks⟩
        | opened =>
            obtain ⟨message, rfl⟩ := Codec.deliver_ne _ _ hresult.symm
            cases hkind
        | _ =>
            obtain rfl := Except.error.inj hresult
            cases hkind
  · rw [poll_pending coins p call hpacket] at hreturned
    cases hreturned
  · rw [hpacket] at hpoll
    exact hpoll.elim

theorem returned_fails (hcobs : cobs.Lawful) (hwf : p.Wf) (hkind : err.OfTransport) {outcome : Outcome proto Info}
    (hreturned : p.outcome coins action = some outcome) (herr : outcome.error? = some err) :
    ∃ rest, p.Fails coins action err rest := by
  cases action with
  | arrive reads => cases hreturned
  | plan answers => cases hreturned
  | nextMessage => cases hreturned
  | handshake verifier =>
      rcases hcall : p.call with _ | call
      · rw [HostProc.outcome, hcall] at hreturned
        dsimp only at hreturned
        rcases hstart : (p.side.handshakeStart (coins p.side.draws) verifier).1 with err' | wait
        · rw [hstart] at hreturned
          obtain rfl := Option.some.inj hreturned
          obtain rfl := Option.some.inj herr
          exact start_returned hcobs hwf.framing hkind hcall hstart
        · rw [hstart] at hreturned
          cases hreturned
      · rw [HostProc.outcome, hcall] at hreturned
        cases hreturned
  | sendMessage req =>
      rcases hcall : p.call with _ | call
      · rw [HostProc.outcome, hcall] at hreturned
        obtain rfl := Option.some.inj hreturned
        rcases hsend : (p.side.sendMessage proto req).1 with err' | _
        · rw [hsend] at herr
          obtain rfl := Option.some.inj herr
          exact message_returned hcobs hwf.framing hkind hcall hsend
        · rw [hsend] at herr
          cases herr
      · rw [HostProc.outcome, hcall] at hreturned
        cases hreturned
  | poll =>
      rcases hcall : p.call with _ | ⟨call, discard⟩
      · rw [HostProc.outcome, hcall] at hreturned
        cases hreturned
      · rw [poll_outcome hcall] at hreturned
        obtain ⟨returned, hpoll, rfl⟩ := Option.map_eq_some_iff.mp hreturned
        exact poll_failed hcobs hwf hkind hcall hpoll herr

/-! ### What an action writes -/

theorem sent_writes (hcobs : cobs.Lawful) {f f' : Framing cobs maxFrameSize} (hf : f.Wf) {packet : List UInt8}
    {result : Except Error Unit} (hsend : f.sendPacket packet = (result, f'))
    (hwrites : ∀ frame, frameOf cobs maxFrameSize packet = .ok frame → p.Writes coins action f (frame ++ [0])) :
    f'.writer = f.writer ∨ ∃ f bytes, p.Writes coins action f bytes ∧ f'.writer = (f.writer.send bytes).2 := by
  have hspec := (sendPacket_spec hcobs hf packet).2.2
  rw [hsend] at hspec
  rcases hframe : frameOf cobs maxFrameSize packet with refusal | frame
  · rw [hframe] at hspec
    exact Or.inl (congrArg Framing.writer hspec.2)
  · rw [hframe] at hspec
    exact Or.inr ⟨f, frame ++ [0], hwrites frame hframe, hspec.2⟩

theorem start_writes (hcobs : cobs.Lawful) (hf : p.side.framing.Wf) (hcall : p.call = none) (verifier : Verifier c Info) :
    ∃ f bytes, p.Writes coins (.handshake verifier) f bytes ∧
      (p.step coins (.handshake verifier)).side.framing.writer = (f.writer.send bytes).2 := by
  obtain ⟨_, hwriter, hwf, _⟩ := sendReset_spec p.side.framing hf
  obtain ⟨result, side, hstep, hafter⟩ := step_handshake coins hcall verifier
  have hreset : ∀ {result framing}, Transport.sendReset p.side.framing = (result, framing) →
      p.side.framing.sendReset = (result, framing) := id
  -- the reset is written, and behind it at most the HostHello
  have hlast : ∀ {hello : List UInt8} {result : Except Error Unit} {framing : Framing cobs maxFrameSize},
      p.side.framing.sendReset.1 = .ok () →
      c.cborEncode (HelloWait.mk verifier (c.xdsaGenerate (coins p.side.draws).first)
        (c.xhpkeGenerate (coins p.side.draws).second) 0).hostHello.toCbor = .ok hello →
      p.side.framing.sendReset.2.sendPacket hello = (result, framing) →
      ∃ f bytes, p.Writes coins (.handshake verifier) f bytes ∧ framing.writer = (f.writer.send bytes).2 := by
    intro hello result framing hdone hencode hsend
    rcases sent_writes hcobs hwf hsend fun frame hframe => Writes.hello hcall hdone hencode hframe with hsame | hwrote
    · exact ⟨p.side.framing, [0, 0], .reset hcall, hsame.trans hwriter⟩
    · exact hwrote
  rw [hafter]
  dsimp only
  cases hstep with
  | unreset hsent =>
      rw [hreset hsent] at hwriter
      exact ⟨p.side.framing, [0, 0], .reset hcall, hwriter⟩
  | unencodable hsent =>
      rw [hreset hsent] at hwriter
      exact ⟨p.side.framing, [0, 0], .reset hcall, hwriter⟩
  | unsent hwait hsent hencode hsend =>
      subst hwait
      rw [hreset hsent] at hlast
      exact hlast rfl hencode hsend
  | started hwait hsent hencode hsend =>
      subst hwait
      rw [hreset hsent] at hlast
      exact hlast rfl hencode hsend

/-- All that an action does to the writer is one of its writes. -/
theorem step_writes (hcobs : cobs.Lawful) (hwf : p.Wf) (hplan : ∀ answers, action ≠ .plan answers) :
    (p.step coins action).side.framing.writer = p.side.framing.writer ∨
      ∃ f bytes, p.Writes coins action f bytes ∧ (p.step coins action).side.framing.writer = (f.writer.send bytes).2 := by
  cases action with
  | arrive reads => exact Or.inl rfl
  | plan answers => exact absurd rfl (hplan answers)
  | nextMessage =>
      rw [step]
      split <;> exact Or.inl rfl
  | handshake verifier =>
      rcases hcall : p.call with _ | call
      · exact Or.inr (start_writes hcobs hwf.framing hcall verifier)
      · rw [step, hcall]
        exact Or.inl rfl
  | sendMessage req =>
      rcases hcall : p.call with _ | call
      swap
      · rw [step, hcall]
        exact Or.inl rfl
      have hafter : (p.step coins (.sendMessage req)).side.framing =
          (sendThrough proto.hostToArk p.side.framing p.side.session req).2.1 := by
        rw [step, hcall]
        rfl
      have hstep := sendThrough_step proto.hostToArk p.side.framing p.side.session req
      rw [hafter]
      generalize hheld : p.side.session = held at hstep ⊢
      generalize sendThrough proto.hostToArk p.side.framing held req = sent at hstep ⊢
      obtain ⟨result, framing, left⟩ := sent
      dsimp only at hstep ⊢
      cases hstep with
      | lost hfits hencode hseal hsend =>
          exact sent_writes hcobs hwf.framing hsend fun _ hframe => .message hcall hheld hfits hencode hseal hframe
      | sent hfits hencode hseal hsend =>
          exact sent_writes hcobs hwf.framing hsend fun _ hframe => .message hcall hheld hfits hencode hseal hframe
      | _ => exact Or.inl rfl
  | poll =>
      rcases hcall : p.call with _ | ⟨call, discard⟩
      · rw [step, hcall]
        exact Or.inl rfl
      obtain ⟨hwriter, hpoll⟩ := Framing.nextPacketLoop_poll (hwf.at hcall)
      rw [step_poll hcall]
      rcases hpacket : packetOf (p.side.framing.nextPacketLoop discard) with packet | discard' | _
      · rw [hpacket] at hpoll
        cases call with
        | handshake wait =>
            obtain ⟨flow, side, hstep, hsettle⟩ := poll_handshake coins p wait hpacket
            have hside : (settleHandshake p.history p.side.session (flow, side) :
                Option (Returned proto Info) × HostProc c proto Info cobs maxFrameSize).2.side = side := by
              cases flow <;> rfl
            rw [hsettle, hside, ← hwriter]
            cases hstep with
            | unanswered hours hanswer hsend =>
                exact sent_writes hcobs hpoll hsend fun _ hframe => .ack hcall hpacket hours hanswer hframe
            | answered hours hanswer hsend =>
                exact sent_writes hcobs hpoll hsend fun _ hframe => .ack hcall hpacket hours hanswer hframe
            | _ => exact Or.inl rfl
        | nextMessage =>
            obtain ⟨result, side, hstep, hsettle⟩ := poll_message coins p hpacket
            rw [hsettle, settleMessage, ← hwriter]
            cases hstep <;> exact Or.inl rfl
      · rw [poll_pending coins p call hpacket]
        exact Or.inl hwriter
      · rw [hpacket] at hpoll
        exact hpoll.elim

end HostProc

/-- In any run of a host, whatever failure of the transport an action meets, the method returns it there, with no session
left and without another read; a method returns a failure of the transport only where it meets it; and no action writes
anything but what was listed. -/
theorem host_surfaces (hcobs : cobs.Lawful) (coins : Nat → Coins c) (reader : Reader) (writer : Writer)
    (actions : List (HostAction c proto Info)) {p : HostProc c proto Info cobs maxFrameSize}
    (hp : p = (HostProc.new reader writer).run coins actions) (action : HostAction c proto Info) (err : Error) :
    (∀ rest, p.Fails coins action err rest → p.Stops coins action err rest) ∧
      (err.OfTransport → ∀ outcome, p.outcome coins action = some outcome → outcome.error? = some err →
        ∃ rest, p.Fails coins action err rest) ∧
      ((∀ answers, action ≠ .plan answers) → (p.step coins action).side.framing.writer = p.side.framing.writer ∨
        ∃ f bytes, p.Writes coins action f bytes ∧
          (p.step coins action).side.framing.writer = (f.writer.send bytes).2) := by
  obtain ⟨e, _, h⟩ := HostProc.run_abstracts hcobs
    (HostProc.new_abstracts coins reader writer : HostProc.Abstracts coins (_ : HostProc c proto Info cobs maxFrameSize) _)
    actions
  rw [← hp] at h
  exact ⟨fun rest hfails => HostProc.fails_stops hcobs h hfails,
    fun hkind outcome hreturned herr => HostProc.returned_fails hcobs h.wf hkind hreturned herr,
    HostProc.step_writes hcobs h.wf⟩

open Reference in
/-- The writer fails behind the first zero of a reset. -/
theorem host_surfaces_reference :
    hostCut.Stops coins (.handshake (Verifier.pinned (7 : Nat))) (.sendFailed (.other "unplugged")) [] := by
  have hbroken : (hostCut.side.framing.writer.send [0, 0]).1 = .error (.sendFailed (.other "unplugged")) := rfl
  exact (host_surfaces Cobs.stuffing_lawful coins [] ⟨[], [.accept 1, .fail (.other "unplugged")]⟩ []
    (rfl : hostCut = _) _ _).1 _ (.write (.reset rfl) hbroken)

end DarkbioWire
