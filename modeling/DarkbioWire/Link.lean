import DarkbioWire.Endpoint.Ark
import DarkbioWire.Endpoint.Host
import DarkbioWire.Framing.Queue

/-!
# A lossless link

A host and an Ark joined by two byte streams that lose nothing: what one writes reaches the other's reader, in order, in
any pieces and at any time, and no read and no write fails. Below the sides the link is two queues of packets, and one
poll either waits or takes the head of its queue, in one of the ways `Polled` lists.
-/

namespace DarkbioWire

open Framing

variable {c : Crypto (List UInt8)} {proto : Protocol (List UInt8)} {A Info : Type} [Attester c A] {cobs : Cobs}
  {maxFrameSize : Nat}

/-! ### Sending -/

/-- Every message within the limit that encodes is sealed, and its packet fits a frame. -/
def Sealable {M : Type} (c : Crypto (List UInt8)) (cobs : Cobs) (maxFrameSize : Nat) (codec : Codec (List UInt8) M) : Prop :=
  ∀ {msg payload} (sender : c.Sender), codec.encodedLen msg ≤ maxMessageSize cobs maxFrameSize →
    codec.encode msg = .ok payload → ∃ packet sender' frame, c.senderSeal sender payload = (.ok packet, sender') ∧
      frameOf cobs maxFrameSize packet = .ok frame

omit [Attester c A] in
theorem sendThrough_sent {M Msg : Type} (hcobs : cobs.Lawful) {codec : Codec (List UInt8) M}
    (hsealable : Sealable c cobs maxFrameSize codec) {f : Framing cobs maxFrameSize} (hf : f.Wf)
    (hplan : f.writer.plan = []) (session : Option (Session c)) (msg : M) (history : History c Msg) :
    let sent := sendThrough codec f session msg
    let history' := history.noteSeal (maxMessageSize cobs maxFrameSize) codec session msg
    (sent.2.1 = f ∧ sent.2.2 = session ∧ history' = history) ∨
      ∃ current payload packet sender, session = some current ∧
        c.senderSeal current.sender payload = (.ok packet, sender) ∧ sent.2.2 = some { current with sender } ∧
        history' = (history.inEpoch fun epoch =>
          { epoch with sealed := epoch.sealed ++ [(current.sender, payload, packet)] }) ∧
        f.Wrote sent.2.1 [some packet] ∧ SameReceiver f sent.2.1 ∧ sent.2.1.Wf := by
  intro sent history'
  have hstep := sendThrough_step codec f session msg
  change SendStep codec f msg session sent.1 sent.2.1 sent.2.2 at hstep
  clear_value sent
  obtain ⟨result, f', session'⟩ := sent
  dsimp only at hstep ⊢
  cases hstep with
  | inactive => exact Or.inl ⟨rfl, rfl, rfl⟩
  | @tooLarge session hlarge =>
      refine Or.inl ⟨rfl, rfl, ?_⟩
      have hseal : (session.seal (maxMessageSize cobs maxFrameSize) codec msg) =
          (.error (.packetTooLarge (codec.encodedLen msg)), session) := by
        rw [Session.seal]
        exact if_pos hlarge
      change history.noteSeal _ codec (some session) msg = history
      rw [History.noteSeal, hseal]
      cases codec.encode msg <;> rfl
  | @unencodable session err hencode =>
      refine Or.inl ⟨rfl, rfl, ?_⟩
      change history.noteSeal _ codec (some session) msg = history
      rw [History.noteSeal, hencode]
  | @unsealed session payload err sender hfits hencode hseal =>
      obtain ⟨_, _, _, hsealed, _⟩ := hsealable session.sender hfits hencode
      rw [hseal] at hsealed
      cases hsealed
  | @lost session payload packet sender err _ hfits hencode hseal hsend =>
      obtain ⟨_, _, frame, hsealed, hframe⟩ := hsealable session.sender hfits hencode
      rw [hseal] at hsealed
      obtain ⟨hpacket, _⟩ := Prod.mk.inj hsealed
      obtain rfl := Except.ok.inj hpacket
      have hsent := (sendPacket_healthy hcobs hf hplan hframe).1
      have hfailed : f.sendPacket packet = _ := hsend
      rw [hfailed] at hsent
      cases hsent
  | @sent session payload packet sender _ hfits hencode hseal hsend =>
      obtain ⟨_, hwf, hsame⟩ := sendPacket_wire hcobs hf hsend
      refine Or.inr ⟨session, payload, packet, sender, rfl, hseal, rfl, ?_, .packet hcobs hf hplan hsend, hsame, hwf⟩
      change _ ≤ maxMessageSize cobs maxFrameSize at hfits
      change history.noteSeal _ codec (some session) msg = _
      rw [History.noteSeal, session.seal_eq hfits hencode, hencode, hseal]
      rfl

/-! ### The Ark's polls -/

namespace ArkProc

variable {coins : Nat → Coins c} {p p' : ArkProc c proto A cobs maxFrameSize} {point : MessagePoint c} {discard : Nat}
  {coming : List UInt8} {queue : List (Option (List UInt8))}

/-- What an action left of an Ark: its session, where its call waits and its history. -/
structure Left (p p' : ArkProc c proto A cobs maxFrameSize) (session : Option (Session c))
    (point : Option (MessagePoint c)) (history : History c proto.HostToArk) : Prop where
  signer : p'.side.signer = p.side.signer
  session : p'.side.session = session
  point : p'.call.map Prod.fst = point
  history : p'.history = history

/-- Why an Ark goes on without a session after a packet: it had none or cannot follow it, or the packet failed the
handshake. -/
inductive Drops (p : ArkProc c proto A cobs maxFrameSize) (packet : List UInt8) : MessagePoint c → Prop
  | junk : p.side.session = none → Drops p packet .packet
  | broken {session err receiver} : p.side.session = some session →
      c.receiverOpen session.receiver packet = (.error err, receiver) → Drops p packet .packet
  | refused : Drops p packet (.handshake .hello)
  | rejected {wait err} : p.side.acceptAck wait packet = .error err → Drops p packet (.handshake (.ack wait))

/-- What an Ark does with the head of its queue when nothing it writes fails, and what it sends. -/
inductive Polled (coins : Nat → Coins c) (p p' : ArkProc c proto A cobs maxFrameSize) :
    MessagePoint c → Option (List UInt8) → List (Option (List UInt8)) → Prop
  | opened {packet session payload receiver} : p.side.session = some session →
      c.receiverOpen session.receiver packet = (.ok payload, receiver) →
      Left p p' (some { session with receiver }) none
        ((p.history.inEpoch fun epoch =>
          { epoch with opened := epoch.opened ++ [(session.receiver, packet, payload)] }).noteResult
            (proto.hostToArk.deliver payload)) →
      Polled coins p p' .packet (some packet) []
  | toHello {place} : Left p p' none (some (.handshake .hello)) p.history → Polled coins p p' place none []
  | dropped {place packet} : Drops p packet place → Left p p' none (some .packet) p.history →
      Polled coins p p' place (some packet) []
  | answered {packet wait arkHello answer} : ArkSide.Answers (coins p.side.draws) p.side packet wait arkHello answer →
      Left p p' none (some (.handshake (.ack wait))) p.history →
      Polled coins p p' (.handshake .hello) (some packet) [some answer]
  | accepted {packet wait session} (wire : List UInt8) : p.side.acceptAck wait packet = .ok session →
      Left p p' (some session) (some .packet)
        { p.history with epochs := { session, wire, opened := [], sealed := [] } :: p.history.epochs } →
      Polled coins p p' (.handshake (.ack wait)) (some packet) []

theorem poll_taken (hcobs : cobs.Lawful) {e : Endpoint c proto.HostToArk} (h : p.Abstracts coins e)
    (hplan : p.side.framing.writer.plan = []) (hcall : p.call = some (point, discard)) {packet : Option (List UInt8)}
    (hready : packetOf (p.side.framing.nextPacketLoop discard) = .ready (.ok packet))
    (hwriter : (p.side.framing.nextPacketLoop discard).2.writer = p.side.framing.writer)
    (hwf : (p.side.framing.nextPacketLoop discard).2.Wf) :
    let p' := p.step coins .poll
    ∃ sent, Polled coins p p' point packet sent ∧ p'.discard = 0 ∧ p'.side.framing.Wf ∧
      SameReceiver (p.side.framing.nextPacketLoop discard).2 p'.side.framing ∧
      Wrote p.side.framing p'.side.framing sent := by
  intro p'
  obtain ⟨flow, side', hstep, hsettle⟩ := poll_ready coins p point hready
  have hp' : p' = (settle (noteOpen p.history p.side.session point (.ok packet)) p.side.session (flow, side')).2 := by
    rw [← hsettle]
    exact step_poll hcall
  clear_value p'
  subst hp'
  generalize (p.side.framing.nextPacketLoop discard).2 = f at hwriter hwf hstep ⊢
  have hquiet : Wrote p.side.framing f [] := .nothing hwriter hplan
  have hinside : ∀ place, point = .handshake place → p.side.session = none :=
    fun place hplace => h.inside place discard (hplace ▸ hcall)
  have habort : ∀ err : Error, (∀ cause, err ≠ .recvFailed cause) → err ≠ .terminated →
      (ArkSide.abort err : Flow (MessagePoint c) proto.HostToArk) = .wait .packet := by
    intro err hrecv hterm
    cases err <;> first | rfl | exact absurd rfl (hrecv _) | exact absurd rfl hterm
  cases hstep with
  | reset =>
      refine ⟨_, .toHello ⟨rfl, rfl, rfl, ?_⟩, rfl, hwf, .refl f, hquiet⟩
      rw [settle_history rfl (by simp), noteOpen, History.noteOpen_reset]
  | junk hjunk =>
      refine ⟨_, .dropped (.junk hjunk) ⟨rfl, hjunk, rfl, ?_⟩, rfl, hwf, .refl f, hquiet⟩
      rw [settle_history hjunk (by simp), noteOpen, show p.side.session = none from hjunk, History.noteOpen_none]
  | broken hsome hopen =>
      refine ⟨_, .dropped (.broken hsome hopen) ⟨rfl, rfl, rfl, ?_⟩, rfl, hwf, .refl f, hquiet⟩
      rw [settle_history rfl (by simp), noteOpen, show p.side.session = some _ from hsome, History.noteOpen, hopen]
  | opened hsome hopen =>
      refine ⟨_, .opened hsome hopen ⟨rfl, rfl, rfl, ?_⟩, rfl, hwf, .refl f, hquiet⟩
      rw [settle, noteOpen, show p.side.session = some _ from hsome, History.noteOpen, hopen]
  | restarted =>
      have hnone := hinside _ rfl
      refine ⟨_, .toHello ⟨rfl, hnone, rfl, ?_⟩, rfl, hwf, .refl f, hquiet⟩
      exact settle_history (by exact hnone) (Or.inl ⟨_, rfl⟩)
  | refused hsame hframing _ =>
      have hnone := hsame.session.trans (hinside _ rfl)
      subst hframing
      refine ⟨_, .dropped .refused ⟨hsame.signer, hnone, rfl, ?_⟩, rfl, hwf, .refl _, hquiet⟩
      exact settle_history (by exact hnone) (Or.inl ⟨_, rfl⟩)
  | answered hsame hanswers hsend =>
      have hnone := hsame.session.trans (hinside _ rfl)
      obtain ⟨_, hwf', hreceiver⟩ := sendPacket_wire hcobs hwf hsend
      refine ⟨_, .answered (hanswers.congr rfl rfl) ⟨hsame.signer, hnone, rfl, ?_⟩, rfl, hwf', hreceiver,
        hquiet.trans (.packet hcobs hwf hquiet.plan hsend)⟩
      exact settle_history (by exact hnone) (Or.inl ⟨_, rfl⟩)
  | unanswered hsame _ hsend =>
      have hnone := hsame.session.trans (hinside _ rfl)
      have hframing := sendPacket_refused hcobs hwf hquiet.plan hsend
      have hkind := sendPacket_error_kind hcobs hwf hsend
      rw [habort _ (by rcases hkind with ⟨_, rfl⟩ | ⟨_, rfl⟩ | ⟨_, rfl⟩ <;> simp)
        (by rcases hkind with ⟨_, rfl⟩ | ⟨_, rfl⟩ | ⟨_, rfl⟩ <;> simp)]
      subst hframing
      refine ⟨_, .dropped .refused ⟨hsame.signer, hnone, rfl, ?_⟩, rfl, hwf, .refl _, hquiet⟩
      exact settle_history (by exact hnone) (Or.inl ⟨_, rfl⟩)
  | accepted haccept =>
      have hnone := hinside _ rfl
      refine ⟨_, .accepted f.writer.wire haccept ⟨rfl, rfl, rfl, ?_⟩, rfl, hwf, .refl f, hquiet⟩
      rw [settle, hnone]
      rfl
  | rejected hreject =>
      have hnone := hinside _ rfl
      refine ⟨_, .dropped (.rejected hreject) ⟨rfl, hnone, rfl, ?_⟩, rfl, hwf, .refl f, hquiet⟩
      exact settle_history (by exact hnone) (Or.inl ⟨_, rfl⟩)

/-- A poll waits on, or takes the head of its queue. -/
theorem poll_polled (hcobs : cobs.Lawful) {e : Endpoint c proto.HostToArk} (h : p.Abstracts coins e)
    (hplan : p.side.framing.writer.plan = []) (hcall : p.call = some (point, discard))
    (hqueue : p.side.framing.Queue discard coming queue) :
    let p' := p.step coins .poll
    (Left p p' p.side.session (some point) p.history ∧ p'.side.framing.Queue p'.discard coming queue ∧
        Wrote p.side.framing p'.side.framing []) ∨
      ∃ packet rest sent, queue = packet :: rest ∧ Polled coins p p' point packet sent ∧
        p'.side.framing.Queue p'.discard coming rest ∧ Wrote p.side.framing p'.side.framing sent := by
  intro p'
  obtain ⟨hwriter, ⟨discard', hpending, hafter⟩ | ⟨packet, rest, hready, rfl, hafter⟩⟩ := hqueue.poll
  · have hstay : p' = { p with
        side := { p.side with framing := (p.side.framing.nextPacketLoop discard).2 }
        call := some (point, discard') } := by
      change p.step coins .poll = _
      rw [step_poll hcall, poll_pending coins p point hpending]
    rw [hstay]
    exact Or.inl ⟨⟨rfl, rfl, rfl, rfl⟩, hafter, .nothing hwriter hplan⟩
  · obtain ⟨sent, hpolled, hdiscard, hwf, hsame, hwrote⟩ := poll_taken hcobs h hplan hcall hready hwriter hafter.wf.toWf
    exact Or.inr ⟨packet, rest, sent, rfl, hpolled, hdiscard ▸ hafter.sameReceiver hsame hwf, hwrote⟩

end ArkProc

/-! ### The host's polls -/

namespace HostProc

variable {coins : Nat → Coins c} {p p' : HostProc c proto Info cobs maxFrameSize} {call : HostCall c Info} {discard : Nat}
  {coming : List UInt8} {queue : List (Option (List UInt8))}

/-- What an action left of a host: its session, its call and its history. -/
structure Left (p p' : HostProc c proto Info cobs maxFrameSize) (session : Option (Session c))
    (call : Option (HostCall c Info)) (history : History c proto.ArkToHost) : Prop where
  session : p'.side.session = session
  call : p'.call.map Prod.fst = call
  history : p'.history = history

/-- What a host does with the head of its queue when nothing it writes fails, what it sends and how many coins it has
drawn then. -/
inductive Polled (coins : Nat → Coins c) (p p' : HostProc c proto Info cobs maxFrameSize) :
    HostCall c Info → Option (List UInt8) → List (Option (List UInt8)) → Prop
  | skipped {wait packet} : ¬ wait.Ours packet → p'.side.draws = p.side.draws →
      Left p p' none (some (.handshake { wait with stale := wait.stale + 1 })) p.history →
      Polled coins p p' (.handshake wait) packet []
  | failed {wait packet} : p.side.draws ≤ p'.side.draws → Left p p' none none p.history →
      Polled coins p p' (.handshake wait) packet []
  | answered {wait packet verified session ack} (wire : List UInt8) : wait.Ours packet →
      wait.answer (coins p.side.draws) (packet.getD c.empty) = .ok (verified, session, ack) →
      p.side.draws ≤ p'.side.draws →
      Left p p' (some session) none
        { p.history with epochs := { session, wire, opened := [], sealed := [] } :: p.history.epochs } →
      Polled coins p p' (.handshake wait) packet [some ack]
  | opened {packet session payload receiver} : p.side.session = some session →
      c.receiverOpen session.receiver packet = (.ok payload, receiver) → p'.side.draws = p.side.draws →
      Left p p' (some { session with receiver }) none
        ((p.history.inEpoch fun epoch =>
          { epoch with opened := epoch.opened ++ [(session.receiver, packet, payload)] }).noteResult
            (proto.arkToHost.deliver payload)) →
      Polled coins p p' .nextMessage (some packet) []
  | kept {packet} : packet = none ∨ p.side.session = none → p'.side.draws = p.side.draws →
      Left p p' p.side.session none p.history → Polled coins p p' .nextMessage packet []
  | broken {packet session err receiver} : p.side.session = some session →
      c.receiverOpen session.receiver packet = (.error err, receiver) → p'.side.draws = p.side.draws →
      Left p p' none none p.history → Polled coins p p' .nextMessage (some packet) []

omit [Attester c A] in
theorem poll_polled (hcobs : cobs.Lawful) {e : Endpoint c proto.ArkToHost} (h : p.Abstracts coins e)
    (hplan : p.side.framing.writer.plan = []) (hcall : p.call = some (call, discard))
    (hqueue : p.side.framing.Queue discard coming queue) :
    let p' := p.step coins .poll
    (p'.side.draws = p.side.draws ∧ Left p p' p.side.session (some call) p.history ∧
        p'.side.framing.Queue p'.discard coming queue ∧ Wrote p.side.framing p'.side.framing []) ∨
      ∃ packet rest sent, queue = packet :: rest ∧ Polled coins p p' call packet sent ∧
        p'.side.framing.Queue p'.discard coming rest ∧ Wrote p.side.framing p'.side.framing sent := by
  intro p'
  have hp' : p' = (p.poll coins call discard).2 := step_poll hcall
  clear_value p'
  obtain ⟨hwriter, ⟨discard', hpending, hafter⟩ | ⟨packet, rest, hready, rfl, hafter⟩⟩ := hqueue.poll
  · rw [hp', poll_pending coins p call hpending]
    exact Or.inl ⟨rfl, ⟨rfl, rfl, rfl⟩, hafter, .nothing hwriter hplan⟩
  have hquiet : Wrote p.side.framing (p.side.framing.nextPacketLoop discard).2 [] := .nothing hwriter hplan
  refine Or.inr ?_
  cases call with
  | handshake wait =>
      obtain ⟨flow, side', hstep, hsettle⟩ := poll_handshake coins p wait hready
      rw [hsettle] at hp'
      subst hp'
      generalize (p.side.framing.nextPacketLoop discard).2 = f at hstep hafter hquiet
      obtain ⟨hnone, _⟩ := h.waiting wait discard hcall
      have hhistory : p.history.noteSession p.side.session p.side.session f.writer.wire = p.history := by
        rw [hnone, History.noteSession_none]
      cases hstep with
      | skipped hother _ =>
          exact ⟨_, _, _, rfl, .skipped hother rfl ⟨hnone, rfl, rfl⟩, hafter, hquiet⟩
      | gaveUp =>
          exact ⟨_, _, _, rfl, .failed (le_refl _) ⟨hnone, rfl, hhistory⟩, hafter, hquiet⟩
      | rejected =>
          exact ⟨_, _, _, rfl, .failed (Nat.le_succ _) ⟨hnone, rfl, hhistory⟩, hafter, hquiet⟩
      | unanswered _ _ hsend =>
          have hframing := sendPacket_refused hcobs hafter.wf.toWf hquiet.plan hsend
          subst hframing
          exact ⟨_, _, _, rfl, .failed (Nat.le_succ _) ⟨hnone, rfl, hhistory⟩, hafter, hquiet⟩
      | @answered _ verified session ack framing hours hanswer hsend =>
          obtain ⟨_, hwf, hreceiver⟩ := sendPacket_wire hcobs hafter.wf.toWf hsend
          refine ⟨_, _, _, rfl, .answered framing.writer.wire hours hanswer (Nat.le_succ _) ⟨rfl, rfl, ?_⟩,
            hafter.sameReceiver hreceiver hwf, hquiet.trans (.packet hcobs hafter.wf.toWf hquiet.plan hsend)⟩
          rw [settleHandshake]
          dsimp only
          rw [hnone]
          rfl
  | nextMessage =>
      obtain ⟨result, side', hstep, hsettle⟩ := poll_message coins p hready
      rw [hsettle] at hp'
      subst hp'
      generalize (p.side.framing.nextPacketLoop discard).2 = f at hstep hafter hquiet
      cases hstep with
      | empty =>
          refine ⟨_, _, _, rfl, .kept (Or.inl rfl) rfl ⟨rfl, rfl, ?_⟩, hafter, hquiet⟩
          rw [settleMessage, History.noteOpen_reset]
          rfl
      | inactive hnone =>
          refine ⟨_, _, _, rfl, .kept (Or.inr hnone) rfl ⟨rfl, rfl, ?_⟩, hafter, hquiet⟩
          rw [settleMessage, show p.side.session = none from hnone]
          rfl
      | broken hsome hopen =>
          refine ⟨_, _, _, rfl, .broken hsome hopen rfl ⟨rfl, rfl, ?_⟩, hafter, hquiet⟩
          rw [settleMessage, show p.side.session = some _ from hsome, History.noteOpen, hopen]
          rfl
      | opened hsome hopen =>
          refine ⟨_, _, _, rfl, .opened hsome hopen rfl ⟨rfl, rfl, ?_⟩, hafter, hquiet⟩
          rw [settleMessage, show p.side.session = some _ from hsome, History.noteOpen, hopen]

omit [Attester c A] in
theorem poll_ok {info : Info} (h : (p.poll coins call discard).1 = some (.handshake (.ok info))) :
    ∃ wait, call = .handshake wait ∧ (p.poll coins call discard).2.call = none ∧
      (p.poll coins call discard).2.side.session ≠ none := by
  by_cases hready : ∃ packet, packetOf (p.side.framing.nextPacketLoop discard) = .ready packet
  swap
  · rw [(poll_waits coins p call fun packet hpacket => hready ⟨packet, hpacket⟩).1] at h
    cases h
  obtain ⟨packet, hpacket⟩ := hready
  cases call with
  | nextMessage =>
      obtain ⟨result, side', _, hsettle⟩ := poll_message coins p hpacket
      rw [hsettle] at h
      cases h
  | handshake wait =>
      obtain ⟨flow, side', hstep, hsettle⟩ := poll_handshake coins p wait hpacket
      rw [hsettle] at h ⊢
      cases hstep with
      | answered => exact ⟨wait, rfl, rfl, by simp [settleHandshake]⟩
      | _ => cases h

omit [Attester c A] in
theorem start_started (hcobs : cobs.Lawful) (hplan : p.side.framing.writer.plan = []) (hcall : p.call = none)
    (hqueue : p.side.framing.Queue 0 coming queue) (verifier : Verifier c Info) :
    let p' := p.step coins (.handshake verifier)
    p'.side.framing.Queue p'.discard coming queue ∧
      ((∃ wait hello, wait.hostXhpkeSk = (hostRole coins).key p.side.draws ∧
          c.cborEncode wait.hostHello.toCbor = .ok hello ∧ p'.side.draws = p.side.draws + 1 ∧
          Left p p' none (some (.handshake wait)) p.history ∧
          Wrote p.side.framing p'.side.framing [none, none, some hello]) ∨
        (p.side.draws ≤ p'.side.draws ∧ Left p p' none none p.history ∧
          Wrote p.side.framing p'.side.framing [none, none])) := by
  intro p'
  obtain ⟨result, side', hstep, hafter⟩ := step_handshake coins hcall verifier
  have hp' : p' = _ := hafter
  clear_value p'
  clear hafter
  have hf := hqueue.wf.toWf
  have hreset : ∀ {result framing}, Transport.sendReset p.side.framing = (result, framing) →
      result = .ok () ∧ Wrote p.side.framing framing [none, none] ∧ framing.Queue 0 coming queue := by
    intro result framing hsend
    obtain ⟨_, hwf, hsame⟩ := sendReset_wire hf hsend
    obtain ⟨hok, hwrote⟩ := Wrote.reset hf hplan hsend
    exact ⟨hok, hwrote, hqueue.sameReceiver hsame hwf⟩
  cases hstep with
  | unreset hsend =>
      obtain ⟨hok, _⟩ := hreset hsend
      cases hok
  | unencodable hsend =>
      obtain ⟨_, hwrote, hafter⟩ := hreset hsend
      subst hp'
      refine ⟨?_, Or.inr ⟨Nat.le_succ _, ⟨rfl, rfl, rfl⟩, hwrote⟩⟩
      exact hafter
  | unsent _ hsend _ hrefused =>
      obtain ⟨_, hwrote, hafter⟩ := hreset hsend
      have hframing := sendPacket_refused hcobs hafter.wf.toWf hwrote.plan hrefused
      subst hframing
      subst hp'
      refine ⟨?_, Or.inr ⟨Nat.le_succ _, ⟨rfl, rfl, rfl⟩, hwrote⟩⟩
      exact hafter
  | @started wait hello _ framing' hwait hsend hencode hsent =>
      obtain ⟨_, hwrote, hafter⟩ := hreset hsend
      obtain ⟨_, hwf, hsame⟩ := sendPacket_wire hcobs hafter.wf.toWf hsent
      subst hp'
      exact ⟨hafter.sameReceiver hsame hwf, Or.inl ⟨wait, hello, by rw [hwait]; rfl, hencode, rfl, ⟨rfl, rfl, rfl⟩,
        hwrote.trans (.packet hcobs hafter.wf.toWf hwrote.plan hsent)⟩⟩

end HostProc

/-! ### The link -/

/-- A host and an Ark, with how many of the bytes the host wrote have reached the Ark, and the other way round. -/
structure Link (c : Crypto (List UInt8)) (proto : Protocol (List UInt8)) (A Info : Type) (cobs : Cobs)
    (maxFrameSize : Nat) where
  ark : ArkProc c proto A cobs maxFrameSize
  host : HostProc c proto Info cobs maxFrameSize
  toArk : Nat
  toHost : Nat

/-- What can happen on a link: calls and polls of the two sides, and bytes that arrive. -/
inductive LinkAction (c : Crypto (List UInt8)) (proto : Protocol (List UInt8)) (Info : Type)
  | arkNextMessage
  | arkPoll
  | arkSendMessage (res : proto.ArkToHost)
  | hostHandshake (verifier : Verifier c Info)
  | hostNextMessage
  | hostPoll
  | hostSendMessage (req : proto.HostToArk)
  | carryToArk (count : Nat)
  | carryToHost (count : Nat)

namespace Link

/-- Two sides just created, with writers that take everything. -/
def new (signer : c.XdsaSecretKey) (attester : A) : Link c proto A Info cobs maxFrameSize where
  ark := .new [] ⟨[], []⟩ signer attester
  host := .new [] ⟨[], []⟩
  toArk := 0
  toHost := 0

/-- The bytes on their way to the Ark. -/
def comingToArk (l : Link c proto A Info cobs maxFrameSize) : List UInt8 := l.host.side.framing.writer.wire.drop l.toArk

/-- The bytes on their way to the host. -/
def comingToHost (l : Link c proto A Info cobs maxFrameSize) : List UInt8 := l.ark.side.framing.writer.wire.drop l.toHost

/-- One action. -/
def step (arkCoins hostCoins : Nat → Coins c) (l : Link c proto A Info cobs maxFrameSize) :
    LinkAction c proto Info → Link c proto A Info cobs maxFrameSize
  | .arkNextMessage => { l with ark := l.ark.step arkCoins .nextMessage }
  | .arkPoll => { l with ark := l.ark.step arkCoins .poll }
  | .arkSendMessage res => { l with ark := l.ark.step arkCoins (.sendMessage res) }
  | .hostHandshake verifier => { l with host := l.host.step hostCoins (.handshake verifier) }
  | .hostNextMessage => { l with host := l.host.step hostCoins .nextMessage }
  | .hostPoll => { l with host := l.host.step hostCoins .poll }
  | .hostSendMessage req => { l with host := l.host.step hostCoins (.sendMessage req) }
  | .carryToArk count =>
    let bytes := l.comingToArk.take count
    { l with ark := l.ark.step arkCoins (.arrive (Reader.chunk bytes)), toArk := l.toArk + bytes.length }
  | .carryToHost count =>
    let bytes := l.comingToHost.take count
    { l with host := l.host.step hostCoins (.arrive (Reader.chunk bytes)), toHost := l.toHost + bytes.length }

/-- A run. -/
def run (arkCoins hostCoins : Nat → Coins c) (l : Link c proto A Info cobs maxFrameSize)
    (actions : List (LinkAction c proto Info)) : Link c proto A Info cobs maxFrameSize :=
  actions.foldl (step arkCoins hostCoins) l

variable {arkCoins hostCoins : Nat → Coins c} {l l' : Link c proto A Info cobs maxFrameSize}
  {arkQueue hostQueue : List (Option (List UInt8))}

/-- A link whose sides stand for endpoints that keep their invariant, with these queues in front of them. -/
structure Holds (hpke : Contexts c) (arkCoins hostCoins : Nat → Coins c) (l : Link c proto A Info cobs maxFrameSize)
    (arkQueue hostQueue : List (Option (List UInt8))) : Prop where
  ark : ∃ e, Endpoint.Inv cobs maxFrameSize hpke (arkRole arkCoins) proto.hostToArk e ∧ l.ark.Abstracts arkCoins e
  host : ∃ e, Endpoint.Inv cobs maxFrameSize hpke (hostRole hostCoins) proto.arkToHost e ∧
    l.host.Abstracts hostCoins e
  arkPlan : l.ark.side.framing.writer.plan = []
  hostPlan : l.host.side.framing.writer.plan = []
  toArk : l.toArk ≤ l.host.side.framing.writer.wire.length
  toHost : l.toHost ≤ l.ark.side.framing.writer.wire.length
  arkQueue : l.ark.side.framing.Queue l.ark.discard l.comingToArk arkQueue
  hostQueue : l.host.side.framing.Queue l.host.discard l.comingToHost hostQueue

/-- What happens to the two sides and the two queues, but for the beginning of a handshake. -/
inductive Moved (arkCoins hostCoins : Nat → Coins c) (l l' : Link c proto A Info cobs maxFrameSize) :
    List (Option (List UInt8)) → List (Option (List UInt8)) → List (Option (List UInt8)) →
    List (Option (List UInt8)) → Prop
  | ark {arkQueue hostQueue point} : l.ark.call.map Prod.fst = point ∨ l.ark.call = none ∧ point = some .packet →
      l.ark.Left l'.ark l.ark.side.session point l.ark.history → l'.host = l.host →
      Moved arkCoins hostCoins l l' arkQueue hostQueue arkQueue hostQueue
  | arkPolled {packet arkQueue hostQueue point sent} : l.ark.call.map Prod.fst = some point →
      l.ark.Polled arkCoins l'.ark point packet sent → l'.host = l.host →
      Moved arkCoins hostCoins l l' (packet :: arkQueue) hostQueue arkQueue (hostQueue ++ sent)
  | arkSent {arkQueue hostQueue session payload packet sender} : l.ark.call = none →
      l.ark.side.session = some session → c.senderSeal session.sender payload = (.ok packet, sender) →
      l.ark.Left l'.ark (some { session with sender }) none
        (l.ark.history.inEpoch fun epoch =>
          { epoch with sealed := epoch.sealed ++ [(session.sender, payload, packet)] }) → l'.host = l.host →
      Moved arkCoins hostCoins l l' arkQueue hostQueue arkQueue (hostQueue ++ [some packet])
  | host {arkQueue hostQueue call} : l.host.call.map Prod.fst = call ∨ l.host.call = none ∧ call = some .nextMessage →
      l.host.Left l'.host l.host.side.session call l.host.history → l'.host.side.draws = l.host.side.draws →
      l'.ark = l.ark → Moved arkCoins hostCoins l l' arkQueue hostQueue arkQueue hostQueue
  | hostPolled {packet arkQueue hostQueue call sent} : l.host.call.map Prod.fst = some call →
      l.host.Polled hostCoins l'.host call packet sent → l'.ark = l.ark →
      Moved arkCoins hostCoins l l' arkQueue (packet :: hostQueue) (arkQueue ++ sent) hostQueue
  | hostSent {arkQueue hostQueue session payload packet sender} : l.host.call = none →
      l.host.side.session = some session → c.senderSeal session.sender payload = (.ok packet, sender) →
      l.host.Left l'.host (some { session with sender }) none
        (l.host.history.inEpoch fun epoch =>
          { epoch with sealed := epoch.sealed ++ [(session.sender, payload, packet)] }) →
      l'.host.side.draws = l.host.side.draws → l'.ark = l.ark →
      Moved arkCoins hostCoins l l' arkQueue hostQueue (arkQueue ++ [some packet]) hostQueue

/-- What a `handshake` that is called does to the host and to the Ark's queue. -/
inductive Started (hostCoins : Nat → Coins c) (l l' : Link c proto A Info cobs maxFrameSize) :
    List (Option (List UInt8)) → List (Option (List UInt8)) → Prop
  | greeted {queue wait hello} : wait.hostXhpkeSk = (hostRole hostCoins).key l.host.side.draws →
      c.cborEncode wait.hostHello.toCbor = .ok hello → l'.host.side.draws = l.host.side.draws + 1 →
      l.host.Left l'.host none (some (.handshake wait)) l.host.history → l'.ark = l.ark →
      Started hostCoins l l' queue (queue ++ [none, none, some hello])
  | failed {queue} : l.host.side.draws ≤ l'.host.side.draws → l.host.Left l'.host none none l.host.history →
      l'.ark = l.ark → Started hostCoins l l' queue (queue ++ [none, none])

variable {hpke : Contexts c}

omit [Attester c A] in
theorem new_holds (arkCoins hostCoins : Nat → Coins c) (signer : c.XdsaSecretKey) (attester : A) :
    Holds hpke arkCoins hostCoins (new signer attester : Link c proto A Info cobs maxFrameSize) [] [] where
  ark := ⟨_, Endpoint.Inv.init [], ArkProc.new_abstracts arkCoins [] ⟨[], []⟩ signer attester⟩
  host := ⟨_, Endpoint.Inv.init [], HostProc.new_abstracts hostCoins [] ⟨[], []⟩⟩
  arkPlan := rfl
  hostPlan := rfl
  toArk := le_refl 0
  toHost := le_refl 0
  arkQueue := .new _
  hostQueue := .new _

omit [Attester c A] in
theorem Holds.ark_moved (h : Holds hpke arkCoins hostCoins l arkQueue hostQueue)
    {p' : ArkProc c proto A cobs maxFrameSize}
    (hark : ∃ e, Endpoint.Inv cobs maxFrameSize hpke (arkRole arkCoins) proto.hostToArk e ∧ p'.Abstracts arkCoins e)
    {arkQueue' sent : List (Option (List UInt8))} (hqueue : p'.side.framing.Queue p'.discard l.comingToArk arkQueue')
    (hwrote : Wrote l.ark.side.framing p'.side.framing sent) :
    Holds hpke arkCoins hostCoins { l with ark := p' } arkQueue' (hostQueue ++ sent) := by
  obtain ⟨htoHost, hhostQueue⟩ := hwrote.reads h.toHost h.hostQueue
  exact ⟨hark, h.host, hwrote.plan, h.hostPlan, h.toArk, htoHost, hqueue, hhostQueue⟩

omit [Attester c A] in
theorem Holds.host_moved (h : Holds hpke arkCoins hostCoins l arkQueue hostQueue)
    {p' : HostProc c proto Info cobs maxFrameSize}
    (hhost : ∃ e, Endpoint.Inv cobs maxFrameSize hpke (hostRole hostCoins) proto.arkToHost e ∧ p'.Abstracts hostCoins e)
    {hostQueue' sent : List (Option (List UInt8))} (hqueue : p'.side.framing.Queue p'.discard l.comingToHost hostQueue')
    (hwrote : Wrote l.host.side.framing p'.side.framing sent) :
    Holds hpke arkCoins hostCoins { l with host := p' } (arkQueue ++ sent) hostQueue' := by
  obtain ⟨htoArk, harkQueue⟩ := hwrote.reads h.toArk h.arkQueue
  exact ⟨h.ark, hhost, h.arkPlan, hwrote.plan, htoArk, h.toHost, harkQueue, hqueue⟩

theorem Holds.ark_step (hcobs : cobs.Lawful) (h : Holds hpke arkCoins hostCoins l arkQueue hostQueue)
    (action : ArkAction proto) : ∃ e, Endpoint.Inv cobs maxFrameSize hpke (arkRole arkCoins) proto.hostToArk e ∧
      (l.ark.step arkCoins action).Abstracts arkCoins e := by
  obtain ⟨e, hinv, habstracts⟩ := h.ark
  obtain ⟨e', hstep, habstracts'⟩ := ArkProc.step_abstracts hcobs habstracts action
  exact ⟨e', hinv.step hstep, habstracts'⟩

omit [Attester c A] in
theorem Holds.host_step (hcobs : cobs.Lawful) (h : Holds hpke arkCoins hostCoins l arkQueue hostQueue)
    (action : HostAction c proto Info) :
    ∃ e, Endpoint.Inv cobs maxFrameSize hpke (hostRole hostCoins) proto.arkToHost e ∧
      (l.host.step hostCoins action).Abstracts hostCoins e := by
  obtain ⟨e, hinv, habstracts⟩ := h.host
  obtain ⟨e', hstep, habstracts'⟩ := HostProc.step_abstracts hcobs habstracts action
  exact ⟨e', hinv.step hstep, habstracts'⟩

theorem carried (wire : List UInt8) {read : Nat} (hread : read ≤ wire.length) (count : Nat) :
    let bytes := (wire.drop read).take count
    read + bytes.length ≤ wire.length ∧ wire.drop read = bytes ++ wire.drop (read + bytes.length) := by
  intro bytes
  have hbytes : bytes <+: wire.drop read := List.take_prefix _ _
  have hlength := hbytes.length_le
  rw [List.length_drop] at hlength
  refine ⟨by omega, ?_⟩
  rw [← List.drop_drop]
  exact (List.prefix_iff_eq_append.mp hbytes).symm

/-- An action moved the link or started a handshake, and the queues in front of the sides are those of the move. -/
def Goes (hpke : Contexts c) (arkCoins hostCoins : Nat → Coins c) (l : Link c proto A Info cobs maxFrameSize)
    (arkQueue hostQueue : List (Option (List UInt8))) (action : LinkAction c proto Info) : Prop :=
  ∃ arkQueue' hostQueue',
    (Moved arkCoins hostCoins l (l.step arkCoins hostCoins action) arkQueue hostQueue arkQueue' hostQueue' ∨
      (∃ verifier, action = .hostHandshake verifier) ∧ hostQueue' = hostQueue ∧
        Started hostCoins l (l.step arkCoins hostCoins action) arkQueue arkQueue') ∧
    Holds hpke arkCoins hostCoins (l.step arkCoins hostCoins action) arkQueue' hostQueue'

theorem Holds.ark_stays (h : Holds hpke arkCoins hostCoins l arkQueue hostQueue) {action : LinkAction c proto Info}
    {p' : ArkProc c proto A cobs maxFrameSize} (hstep : l.step arkCoins hostCoins action = { l with ark := p' })
    {point : Option (MessagePoint c)} (hpoint : l.ark.call.map Prod.fst = point ∨ l.ark.call = none ∧ point = some .packet)
    (hleft : l.ark.Left p' l.ark.side.session point l.ark.history)
    (hark : ∃ e, Endpoint.Inv cobs maxFrameSize hpke (arkRole arkCoins) proto.hostToArk e ∧ p'.Abstracts arkCoins e)
    (hqueue : p'.side.framing.Queue p'.discard l.comingToArk arkQueue)
    (hwrote : Wrote l.ark.side.framing p'.side.framing []) : Goes hpke arkCoins hostCoins l arkQueue hostQueue action := by
  refine ⟨arkQueue, hostQueue, ?_, ?_⟩
  · rw [hstep]
    exact Or.inl (.ark hpoint hleft rfl)
  · rw [hstep, ← List.append_nil hostQueue]
    exact h.ark_moved hark hqueue hwrote

theorem Holds.ark_same (h : Holds hpke arkCoins hostCoins l arkQueue hostQueue) {action : LinkAction c proto Info}
    (hstep : l.step arkCoins hostCoins action = l) : Goes hpke arkCoins hostCoins l arkQueue hostQueue action :=
  h.ark_stays hstep (Or.inl rfl) ⟨rfl, rfl, rfl, rfl⟩ h.ark h.arkQueue (.nothing rfl h.arkPlan)

theorem Holds.host_stays (h : Holds hpke arkCoins hostCoins l arkQueue hostQueue) {action : LinkAction c proto Info}
    {p' : HostProc c proto Info cobs maxFrameSize} (hstep : l.step arkCoins hostCoins action = { l with host := p' })
    {call : Option (HostCall c Info)} (hcall : l.host.call.map Prod.fst = call ∨ l.host.call = none ∧ call = some .nextMessage)
    (hleft : l.host.Left p' l.host.side.session call l.host.history) (hdraws : p'.side.draws = l.host.side.draws)
    (hhost : ∃ e, Endpoint.Inv cobs maxFrameSize hpke (hostRole hostCoins) proto.arkToHost e ∧ p'.Abstracts hostCoins e)
    (hqueue : p'.side.framing.Queue p'.discard l.comingToHost hostQueue)
    (hwrote : Wrote l.host.side.framing p'.side.framing []) :
    Goes hpke arkCoins hostCoins l arkQueue hostQueue action := by
  refine ⟨arkQueue, hostQueue, ?_, ?_⟩
  · rw [hstep]
    exact Or.inl (.host hcall hleft hdraws rfl)
  · rw [hstep, ← List.append_nil arkQueue]
    exact h.host_moved hhost hqueue hwrote

variable (hcobs : cobs.Lawful) (h : Holds hpke arkCoins hostCoins l arkQueue hostQueue)
include hcobs h

theorem Holds.arkCalled (hcall : l.ark.call = none) :
    l.step arkCoins hostCoins .arkNextMessage = { l with ark := { l.ark with call := some (.packet, 0) } } ∧
      Holds hpke arkCoins hostCoins (l.step arkCoins hostCoins .arkNextMessage) arkQueue hostQueue := by
  have hstep : l.ark.step arkCoins .nextMessage = { l.ark with call := some (.packet, 0) } := by
    rw [ArkProc.step, hcall]
  have hlink : l.step arkCoins hostCoins .arkNextMessage = { l with ark := _ } := congrArg (Link.mk · _ _ _) hstep
  have hqueue := h.arkQueue
  rw [ArkProc.discard, hcall] at hqueue
  have hnext := h.ark_step hcobs .nextMessage
  rw [hstep] at hnext
  refine ⟨hlink, ?_⟩
  rw [hlink, ← List.append_nil hostQueue]
  exact h.ark_moved hnext hqueue (.nothing rfl h.arkPlan)

theorem Holds.arkNextMessage : Goes hpke arkCoins hostCoins l arkQueue hostQueue .arkNextMessage := by
  by_cases hcall : l.ark.call = none
  · obtain ⟨hlink, hholds⟩ := h.arkCalled hcobs hcall
    refine ⟨arkQueue, hostQueue, Or.inl ?_, hholds⟩
    rw [hlink]
    exact .ark (Or.inr ⟨hcall, rfl⟩) ⟨rfl, rfl, rfl, rfl⟩ rfl
  · obtain ⟨call, hcall⟩ := Option.ne_none_iff_exists'.mp hcall
    exact h.ark_same (by rw [step, ArkProc.step, hcall])

theorem Holds.arkPoll : Goes hpke arkCoins hostCoins l arkQueue hostQueue .arkPoll := by
  have hnext := h.ark_step hcobs .poll
  obtain ⟨e, _, habstracts⟩ := h.ark
  have hqueue := h.arkQueue
  rcases hcall : l.ark.call with _ | ⟨point, discard⟩
  · exact h.ark_same (by rw [step, ArkProc.step, hcall])
  · have hpoint : l.ark.call.map Prod.fst = some point := by rw [hcall]; rfl
    rw [ArkProc.discard, hcall] at hqueue
    rcases ArkProc.poll_polled hcobs habstracts h.arkPlan hcall hqueue with
      ⟨hleft, hafter, hwrote⟩ | ⟨packet, rest, sent, rfl, hpolled, hafter, hwrote⟩
    · exact h.ark_stays rfl (Or.inl hpoint) hleft hnext hafter hwrote
    · exact ⟨rest, _, Or.inl (.arkPolled hpoint hpolled rfl), h.ark_moved hnext hafter hwrote⟩

theorem Holds.arkSendMessage (hsealable : Sealable c cobs maxFrameSize proto.arkToHost) (res : proto.ArkToHost) :
    Goes hpke arkCoins hostCoins l arkQueue hostQueue (.arkSendMessage res) := by
  have hnext := h.ark_step hcobs (.sendMessage res)
  have hqueue := h.arkQueue
  rcases hcall : l.ark.call with _ | ⟨point, discard⟩
  swap
  · exact h.ark_same (by rw [step, ArkProc.step, hcall])
  have hstep : l.ark.step arkCoins (.sendMessage res) =
      { side := (l.ark.side.sendMessage proto res).2
        call := none
        history := l.ark.history.noteSeal (maxMessageSize cobs maxFrameSize) proto.arkToHost l.ark.side.session res } := by
    rw [ArkProc.step, hcall]
  rw [hstep] at hnext
  rw [ArkProc.discard, hcall] at hqueue
  rcases sendThrough_sent hcobs hsealable hqueue.wf.toWf h.arkPlan l.ark.side.session res l.ark.history with
    ⟨hframing, hsession, hhistory⟩ | ⟨session, payload, packet, sender, hsome, hseal, hsession, hhistory, hwrote, hsame, hwf⟩
  · have hlink : l.step arkCoins hostCoins (.arkSendMessage res) = { l with ark := _ } := congrArg (Link.mk · _ _ _) hstep
    refine h.ark_stays hlink (Or.inl rfl) ⟨rfl, hsession, by rw [hcall], hhistory⟩ hnext ?_ ?_
    · change (sendThrough proto.arkToHost l.ark.side.framing l.ark.side.session res).2.1.Queue 0 _ _
      rw [hframing]
      exact hqueue
    · change Wrote _ (sendThrough proto.arkToHost l.ark.side.framing l.ark.side.session res).2.1 []
      rw [hframing]
      exact .nothing rfl h.arkPlan
  · rw [Goes, step, hstep]
    exact ⟨arkQueue, _, Or.inl (.arkSent hcall hsome hseal ⟨rfl, hsession, rfl, hhistory⟩ rfl),
      h.ark_moved hnext (hqueue.sameReceiver hsame hwf) hwrote⟩

theorem Holds.hostNextMessage : Goes hpke arkCoins hostCoins l arkQueue hostQueue .hostNextMessage := by
  have hnext := h.host_step hcobs .nextMessage
  have hqueue := h.hostQueue
  rcases hcall : l.host.call with _ | ⟨call, discard⟩
  · have hstep : l.host.step hostCoins .nextMessage = { l.host with call := some (.nextMessage, 0) } := by
      rw [HostProc.step, hcall]
    rw [hstep] at hnext
    rw [HostProc.discard, hcall] at hqueue
    have hlink : l.step arkCoins hostCoins .hostNextMessage = { l with host := _ } := congrArg (Link.mk _ · _ _) hstep
    exact h.host_stays hlink (Or.inr ⟨hcall, rfl⟩) ⟨rfl, rfl, rfl⟩ rfl hnext hqueue
      (.nothing rfl h.hostPlan)
  · exact h.ark_same (by rw [step, HostProc.step, hcall])

theorem Holds.hostPoll : Goes hpke arkCoins hostCoins l arkQueue hostQueue .hostPoll := by
  have hnext := h.host_step hcobs .poll
  obtain ⟨e, _, habstracts⟩ := h.host
  have hqueue := h.hostQueue
  rcases hcall : l.host.call with _ | ⟨call, discard⟩
  · exact h.ark_same (by rw [step, HostProc.step, hcall])
  · have hwhere : l.host.call.map Prod.fst = some call := by rw [hcall]; rfl
    rw [HostProc.discard, hcall] at hqueue
    rcases HostProc.poll_polled hcobs habstracts h.hostPlan hcall hqueue with
      ⟨hdraws, hleft, hafter, hwrote⟩ | ⟨packet, rest, sent, rfl, hpolled, hafter, hwrote⟩
    · exact h.host_stays rfl (Or.inl hwhere) hleft hdraws hnext hafter hwrote
    · exact ⟨_, rest, Or.inl (.hostPolled hwhere hpolled rfl), h.host_moved hnext hafter hwrote⟩

theorem Holds.hostStarted (hcall : l.host.call = none) (verifier : Verifier c Info) :
    ∃ arkQueue', Started hostCoins l (l.step arkCoins hostCoins (.hostHandshake verifier)) arkQueue arkQueue' ∧
      Holds hpke arkCoins hostCoins (l.step arkCoins hostCoins (.hostHandshake verifier)) arkQueue' hostQueue := by
  have hnext := h.host_step hcobs (.handshake verifier)
  have hqueue := h.hostQueue
  rw [HostProc.discard, hcall] at hqueue
  obtain ⟨hafter, ⟨wait, hello, hkey, hencode, hdraws, hleft, hwrote⟩ | ⟨hdraws, hleft, hwrote⟩⟩ :=
    HostProc.start_started hcobs h.hostPlan hcall hqueue verifier
  · exact ⟨_, .greeted hkey hencode hdraws hleft rfl, h.host_moved hnext hafter hwrote⟩
  · exact ⟨_, .failed hdraws hleft rfl, h.host_moved hnext hafter hwrote⟩

theorem Holds.hostHandshake (verifier : Verifier c Info) :
    Goes hpke arkCoins hostCoins l arkQueue hostQueue (.hostHandshake verifier) := by
  rcases hcall : l.host.call with _ | ⟨call, discard⟩
  · obtain ⟨arkQueue', hstarted, hholds⟩ := h.hostStarted hcobs hcall verifier
    exact ⟨arkQueue', hostQueue, Or.inr ⟨⟨verifier, rfl⟩, rfl, hstarted⟩, hholds⟩
  · exact h.ark_same (by rw [step, HostProc.step, hcall])

theorem Holds.hostSendMessage (hsealable : Sealable c cobs maxFrameSize proto.hostToArk) (req : proto.HostToArk) :
    Goes hpke arkCoins hostCoins l arkQueue hostQueue (.hostSendMessage req) := by
  have hnext := h.host_step hcobs (.sendMessage req)
  have hqueue := h.hostQueue
  rcases hcall : l.host.call with _ | ⟨call, discard⟩
  swap
  · exact h.ark_same (by rw [step, HostProc.step, hcall])
  have hstep : l.host.step hostCoins (.sendMessage req) =
      { side := (l.host.side.sendMessage proto req).2
        call := none
        history := l.host.history.noteSeal (maxMessageSize cobs maxFrameSize) proto.hostToArk l.host.side.session req } := by
    rw [HostProc.step, hcall]
  rw [hstep] at hnext
  rw [HostProc.discard, hcall] at hqueue
  rcases sendThrough_sent hcobs hsealable hqueue.wf.toWf h.hostPlan l.host.side.session req l.host.history with
    ⟨hframing, hsession, hhistory⟩ | ⟨session, payload, packet, sender, hsome, hseal, hsession, hhistory, hwrote, hsame, hwf⟩
  · have hlink : l.step arkCoins hostCoins (.hostSendMessage req) = { l with host := _ } := congrArg (Link.mk _ · _ _) hstep
    refine h.host_stays hlink (Or.inl rfl) ⟨hsession, by rw [hcall], hhistory⟩ rfl hnext ?_ ?_
    · change (sendThrough proto.hostToArk l.host.side.framing l.host.side.session req).2.1.Queue 0 _ _
      rw [hframing]
      exact hqueue
    · change Wrote _ (sendThrough proto.hostToArk l.host.side.framing l.host.side.session req).2.1 []
      rw [hframing]
      exact .nothing rfl h.hostPlan
  · rw [Goes, step, hstep]
    exact ⟨_, hostQueue, Or.inl (.hostSent hcall hsome hseal ⟨hsession, rfl, hhistory⟩ rfl rfl),
      h.host_moved hnext (hqueue.sameReceiver hsame hwf) hwrote⟩

theorem Holds.carriedToArk (count : Nat) :
    Holds hpke arkCoins hostCoins (l.step arkCoins hostCoins (.carryToArk count)) arkQueue hostQueue := by
  obtain ⟨hread, hsplit⟩ := carried l.host.side.framing.writer.wire h.toArk count
  have hqueue := h.arkQueue
  rw [comingToArk, hsplit] at hqueue
  exact ⟨h.ark_step hcobs (.arrive _), h.host, h.arkPlan, h.hostPlan, hread, h.toHost, hqueue.arrive, h.hostQueue⟩

theorem Holds.carryToArk (count : Nat) : Goes hpke arkCoins hostCoins l arkQueue hostQueue (.carryToArk count) :=
  ⟨arkQueue, hostQueue, Or.inl (.ark (Or.inl rfl) ⟨rfl, rfl, rfl, rfl⟩ rfl), h.carriedToArk hcobs count⟩

theorem Holds.carriedToHost (count : Nat) :
    Holds hpke arkCoins hostCoins (l.step arkCoins hostCoins (.carryToHost count)) arkQueue hostQueue := by
  obtain ⟨hread, hsplit⟩ := carried l.ark.side.framing.writer.wire h.toHost count
  have hqueue := h.hostQueue
  rw [comingToHost, hsplit] at hqueue
  exact ⟨h.ark, h.host_step hcobs (.arrive _), h.arkPlan, h.hostPlan, h.toArk, hread, h.arkQueue, hqueue.arrive⟩

theorem Holds.carryToHost (count : Nat) : Goes hpke arkCoins hostCoins l arkQueue hostQueue (.carryToHost count) :=
  ⟨arkQueue, hostQueue, Or.inl (.host (Or.inl rfl) ⟨rfl, rfl, rfl⟩ rfl rfl), h.carriedToHost hcobs count⟩

/-- Every action moves the link in one of the ways `Moved` and `Started` list. -/
theorem Holds.goes (harkToHost : Sealable c cobs maxFrameSize proto.arkToHost)
    (hhostToArk : Sealable c cobs maxFrameSize proto.hostToArk) (action : LinkAction c proto Info) :
    Goes hpke arkCoins hostCoins l arkQueue hostQueue action := by
  cases action with
  | arkNextMessage => exact h.arkNextMessage hcobs
  | arkPoll => exact h.arkPoll hcobs
  | arkSendMessage res => exact h.arkSendMessage hcobs harkToHost res
  | hostHandshake verifier => exact h.hostHandshake hcobs verifier
  | hostNextMessage => exact h.hostNextMessage hcobs
  | hostPoll => exact h.hostPoll hcobs
  | hostSendMessage req => exact h.hostSendMessage hcobs hhostToArk req
  | carryToArk count => exact h.carryToArk hcobs count
  | carryToHost count => exact h.carryToHost hcobs count

end Link

end DarkbioWire
