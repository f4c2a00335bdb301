import DarkbioWire.Interrupted

/-!
# One call of the Ark's message loop

Every failure of the transport that a call of `next_message` meets ends it with that failure, but for a failed write of
an ArkHello, which is logged like a protocol error. Over a stream that ends, whatever its bytes, a call returns: each
`next_packet` takes a frame off the stream or meets its end.
-/

namespace DarkbioWire

open Delimited Framing

variable {c : Crypto (List UInt8)} {proto : Protocol (List UInt8)} {A : Type} [Attester c A] {cobs : Cobs}
  {maxFrameSize : Nat}

namespace ArkProc

variable {coins : Nat → Coins c} {p : ArkProc c proto A cobs maxFrameSize} {point : MessagePoint c} {discard : Nat}

/-! ### Failures of the transport -/

/-- A poll meets a failure of the transport, with the reader left like this: the reads end or fail before a frame is
complete, or the ArkHello it sends is not written. -/
inductive Fails (coins : Nat → Coins c) (p : ArkProc c proto A cobs maxFrameSize) (discard : Nat) :
    Error → Reader → Prop
  | ended {bytes rest} : next 0 maxFrameSize (decide (0 < discard)) p.side.framing.unread = none →
      p.side.framing.reader.stop = .data bytes :: rest → Fails coins p discard .terminated rest
  | unread {cause rest} : next 0 maxFrameSize (decide (0 < discard)) p.side.framing.unread = none →
      p.side.framing.reader.stop = .fail cause :: rest → Fails coins p discard (.recvFailed cause) rest
  | unwritten {f answer frame cause} : p.Sends coins .poll f answer → frameOf cobs maxFrameSize answer = .ok frame →
      (f.writer.send (frame ++ [0])).1 = .error (.sendFailed cause) → Fails coins p discard (.sendFailed cause) f.reader

/-- Whatever failure of the transport a poll meets, the call returns it there, without another read. -/
def Surfaces (coins : Nat → Coins c) (p : ArkProc c proto A cobs maxFrameSize) (point : MessagePoint c)
    (discard : Nat) : Prop :=
  ∀ err rest, p.Fails coins discard err rest →
    (p.poll coins point discard).1 = some (.error err) ∧ (p.poll coins point discard).2.side.framing.reader = rest

theorem poll_read_failed (coins : Nat → Coins c) (p : ArkProc c proto A cobs maxFrameSize) (point : MessagePoint c)
    {err : Error} (hkind : err = .terminated ∨ ∃ cause, err = .recvFailed cause)
    (hpacket : packetOf (p.side.framing.nextPacketLoop discard) = .ready (.error err)) :
    (p.poll coins point discard).1 = some (.error err) ∧
      (p.poll coins point discard).2.side.framing = (p.side.framing.nextPacketLoop discard).2 ∧
      (p.poll coins point discard).2.side.session = p.side.session := by
  obtain ⟨flow, side, hstep, hsettle⟩ := poll_ready coins p point hpacket
  rw [hsettle, settle_side]
  have habort : (ArkSide.abort err : Flow (MessagePoint c) proto.HostToArk) = .done (.error err) := by
    rcases hkind with rfl | ⟨cause, rfl⟩ <;> rfl
  have hdone : flow = .done (.error err) ∧ side.framing = (p.side.framing.nextPacketLoop discard).2 ∧
      side.session = p.side.session := by
    cases hstep with
    | terminated => exact ⟨rfl, rfl, rfl⟩
    | recvFailed => exact ⟨rfl, rfl, rfl⟩
    | undecodable hterm hrecv =>
        rcases hkind with rfl | ⟨cause, rfl⟩
        · exact absurd rfl hterm
        · exact absurd rfl (hrecv cause)
    | aborted => exact ⟨habort, rfl, rfl⟩
  obtain ⟨rfl, hframing, hsession⟩ := hdone
  exact ⟨rfl, hframing, hsession⟩

/-- An ArkHello that is not written does not end the call. -/
theorem poll_unwritten (hcobs : cobs.Lawful) (hwf : p.Wf) (hcall : p.call = some (point, discard))
    {f : Framing cobs maxFrameSize} {answer frame : List UInt8} {cause : IoError} (hsends : p.Sends coins .poll f answer)
    (hframe : frameOf cobs maxFrameSize answer = .ok frame)
    (hsend : (f.writer.send (frame ++ [0])).1 = .error (.sendFailed cause)) : (p.poll coins point discard).1 = none := by
  have hspec := (sendPacket_spec hcobs (hsends.poll_framing hwf).1 answer).2.2
  rw [hframe] at hspec
  have hfailed : (f.sendPacket answer).1 = .error (.sendFailed cause) := hspec.1.trans hsend
  cases hsends with
  | @hello discard' request wait arkHello _ hcall' hpacket hanswers =>
      obtain ⟨rfl, rfl⟩ := Prod.mk.inj (Option.some.inj (hcall.symm.trans hcall'))
      obtain ⟨flow, side, hstep, hsettle⟩ := poll_ready coins p (.handshake .hello) hpacket
      have hthis : ArkSide.Answers (coins p.side.draws)
          ({ p.side with framing := (p.side.framing.nextPacketLoop discard).2 } : ArkSide c A (Framing cobs maxFrameSize))
          request wait arkHello answer := hanswers.congr rfl rfl
      have hwaits : flow = .wait .packet := by
        cases hstep with
        | refused _ _ hnone => exact absurd hthis (hnone wait arkHello answer)
        | answered _ hthose hsent =>
            obtain ⟨_, _, rfl⟩ := hthis.unique hthose
            have hok := congrArg Prod.fst hsent
            exact absurd (hok.symm.trans hfailed) (by simp)
        | unanswered _ hthose hsent =>
            obtain ⟨_, _, rfl⟩ := hthis.unique hthose
            have herr := congrArg Prod.fst hsent
            obtain rfl := Except.error.inj (herr.symm.trans hfailed)
            rfl
      rw [hsettle, hwaits]
      rfl

theorem surfaces_poll (hcobs : cobs.Lawful) (hwf : p.Wf) (hcall : p.call = some (point, discard)) :
    p.Surfaces coins point discard ↔ ∀ f answer frame, p.Sends coins .poll f answer →
      frameOf cobs maxFrameSize answer = .ok frame → (f.writer.send (frame ++ [0])).1 = .ok () := by
  constructor
  · intro hsurfaces f answer frame hsends hframe
    rcases Writer.send_cases f.writer (frame ++ [0]) with ⟨hok, _⟩ | ⟨cause, _, hsend, _⟩
    · exact hok
    · have hreturned := (hsurfaces _ _ (.unwritten hsends hframe hsend)).1
      rw [poll_unwritten hcobs hwf hcall hsends hframe hsend] at hreturned
      cases hreturned
  · intro hwritten err rest hfails
    have hspec := (nextPacketLoop_spec (hwf.at hcall)).1
    cases hfails with
    | ended hnext hstop =>
        rw [NextPacketSpec, hnext] at hspec
        dsimp only at hspec
        rw [hstop] at hspec
        obtain ⟨_, _, _, hpacket, hreader⟩ := hspec
        obtain ⟨hresult, hframing, _⟩ := poll_read_failed coins p point (Or.inl rfl) hpacket
        exact ⟨hresult, hframing ▸ hreader⟩
    | unread hnext hstop =>
        rw [NextPacketSpec, hnext] at hspec
        dsimp only at hspec
        rw [hstop] at hspec
        obtain ⟨_, _, _, hpacket, hreader⟩ := hspec
        obtain ⟨hresult, hframing, _⟩ := poll_read_failed coins p point (Or.inr ⟨_, rfl⟩) hpacket
        exact ⟨hresult, hframing ▸ hreader⟩
    | unwritten hsends hframe hsend =>
        rw [hwritten _ _ _ hsends hframe] at hsend
        cases hsend

/-- In a run of an Ark every failure of the transport surfaces exactly if no ArkHello meets a failing write. -/
theorem surfaces_iff (hcobs : cobs.Lawful) (coins : Nat → Coins c) (reader : Reader) (writer : Writer)
    (signer : c.XdsaSecretKey) (attester : A) {start : ArkProc c proto A cobs maxFrameSize}
    (hnew : start = new reader writer signer attester) (actions : List (ArkAction proto)) :
    (∀ before after point discard, actions = before ++ .poll :: after →
        (start.run coins before).call = some (point, discard) → (start.run coins before).Surfaces coins point discard) ↔
      ∀ before after f answer frame, actions = before ++ .poll :: after →
        (start.run coins before).Sends coins .poll f answer → frameOf cobs maxFrameSize answer = .ok frame →
        (f.writer.send (frame ++ [0])).1 = .ok () := by
  have hwf : ∀ before, (start.run coins before).Wf := by
    intro before
    rw [hnew]
    obtain ⟨e, _, h⟩ := run_abstracts hcobs
      (new_abstracts coins reader writer signer attester : Abstracts coins (_ : ArkProc c proto A cobs maxFrameSize) _)
      before
    exact h.wf
  constructor
  · intro hsurfaces before after f answer frame hactions hsends
    have hcall : ∃ point discard, (start.run coins before).call = some (point, discard) := by
      cases hsends with
      | hello hcall => exact ⟨_, _, hcall⟩
    obtain ⟨point, discard, hcall⟩ := hcall
    exact (surfaces_poll hcobs (hwf before) hcall).mp (hsurfaces before after point discard hactions hcall) f answer frame
      hsends
  · intro hwritten before after point discard hactions hcall
    exact (surfaces_poll hcobs (hwf before) hcall).mpr fun f answer frame hsends =>
      hwritten before after f answer frame hactions hsends

/-! ### A call over a stream that ends -/

/-- The process after this many polls. -/
def after (coins : Nat → Coins c) (p : ArkProc c proto A cobs maxFrameSize) (n : Nat) :
    ArkProc c proto A cobs maxFrameSize := p.run coins (List.replicate n .poll)

theorem after_succ (coins : Nat → Coins c) (p : ArkProc c proto A cobs maxFrameSize) (n : Nat) :
    p.after coins (n + 1) = (p.step coins .poll).after coins n := by
  rw [after, List.replicate_succ, run_cons]
  rfl

/-- The poll of a waiting call goes through an empty frame, by which the host resets the session. -/
def Resets (p : ArkProc c proto A cobs maxFrameSize) : Prop :=
  ∃ point discard, p.call = some (point, discard) ∧
    packetOf (p.side.framing.nextPacketLoop discard) = .ready (.ok none)

/-- The poll of a waiting call goes through a HostAck that completes the handshake with this session. -/
def Negotiates (p : ArkProc c proto A cobs maxFrameSize) (session : Session c) : Prop :=
  ∃ wait discard packet, p.call = some (.handshake (.ack wait), discard) ∧
    packetOf (p.side.framing.nextPacketLoop discard) = .ready (.ok (some packet)) ∧
    p.side.acceptAck wait packet = .ok session

/-- The poll of a waiting call returns nothing and stays within the bounds of the buffers. -/
def GoesOn (coins : Nat → Coins c) (p : ArkProc c proto A cobs maxFrameSize) : Prop :=
  ∃ point discard, p.call = some (point, discard) ∧ (p.poll coins point discard).1 = none ∧
    packetOf (p.side.framing.nextPacketLoop discard) ≠ .panic

/-- How a poll that returns leaves the session: as it was when the reads ended or failed, and else advanced by the one
packet it opened, whose payload is the result. -/
inductive Ends (hpke : Contexts c) (p q : ArkProc c proto A cobs maxFrameSize) : Except Error proto.HostToArk → Prop
  | terminated : q.side.session = p.side.session → Ends hpke p q (.error .terminated)
  | recvFailed {cause} : q.side.session = p.side.session → Ends hpke p q (.error (.recvFailed cause))
  | opened {discard session packet payload receiver} : p.call = some (.packet, discard) →
      p.side.session = some session → packetOf (p.side.framing.nextPacketLoop discard) = .ready (.ok (some packet)) →
      c.receiverOpen session.receiver packet = (.ok payload, receiver) →
      hpke.recvSeq receiver = hpke.recvSeq session.receiver + 1 →
      q.side.session = some { session with receiver } → Ends hpke p q (proto.hostToArk.deliver payload)

/-- A waiting call returns this at the poll of this number. A session it holds on the way is the one it began with, or was
negotiated in it, and after a reset it was negotiated after that. -/
structure Serves (hpke : Contexts c) (coins : Nat → Coins c) (p : ArkProc c proto A cobs maxFrameSize) (n : Nat)
    (result : Except Error proto.HostToArk) : Prop where
  goesOn : ∀ i < n, (p.after coins i).GoesOn coins
  returns : ∃ point discard, (p.after coins n).call = some (point, discard) ∧
    ((p.after coins n).poll coins point discard).1 = some result
  ends : Ends hpke (p.after coins n) (p.after coins (n + 1)) result
  kind : (∃ msg, result = .ok msg) ∨ result = .error .terminated ∨ (∃ cause, result = .error (.recvFailed cause)) ∨
    ∃ message, result = .error (.packetDecodingFailed message)
  held : ∀ i ≤ n, ∀ session, (p.after coins i).side.session = some session →
    p.side.session = some session ∨ ∃ k < i, (p.after coins k).Negotiates session
  reset : ∀ j i, j < i → i ≤ n → (p.after coins j).Resets → ∀ session, (p.after coins i).side.session = some session →
    ∃ k, j < k ∧ k < i ∧ (p.after coins k).Negotiates session

variable {hpke : Contexts c}

omit [Attester c A] in
theorem Ends.kind {q : ArkProc c proto A cobs maxFrameSize} {result : Except Error proto.HostToArk}
    (h : Ends hpke p q result) :
    (∃ msg, result = .ok msg) ∨ result = .error .terminated ∨ (∃ cause, result = .error (.recvFailed cause)) ∨
      ∃ message, result = .error (.packetDecodingFailed message) := by
  cases h with
  | terminated => exact Or.inr (Or.inl rfl)
  | recvFailed => exact Or.inr (Or.inr (Or.inl ⟨_, rfl⟩))
  | @opened _ _ _ payload =>
      rcases hdeliver : proto.hostToArk.deliver payload with err | msg
      · obtain ⟨message, rfl⟩ := Codec.deliver_ne _ _ hdeliver
        exact Or.inr (Or.inr (Or.inr ⟨message, rfl⟩))
      · exact Or.inl ⟨msg, rfl⟩

theorem Serves.now {result : Except Error proto.HostToArk} (hcall : p.call = some (point, discard))
    (hresult : (p.poll coins point discard).1 = some result) (hends : Ends hpke p (p.poll coins point discard).2 result) :
    p.Serves hpke coins 0 result where
  goesOn := fun i hi => absurd hi (Nat.not_lt_zero i)
  returns := ⟨point, discard, hcall, hresult⟩
  ends := by
    rw [after_succ, step_poll hcall]
    exact hends
  kind := hends.kind
  held := by
    intro i hi session hsession
    obtain rfl := Nat.le_zero.mp hi
    exact Or.inl hsession
  reset := by
    intro j i hji hi
    omega

theorem Serves.later {n : Nat} {result : Except Error proto.HostToArk} (hgoes : p.GoesOn coins)
    (hheld : ∀ session, (p.step coins .poll).side.session = some session →
      p.side.session = some session ∨ p.Negotiates session)
    (hreset : p.Resets → (p.step coins .poll).side.session = none)
    (h : (p.step coins .poll).Serves hpke coins n result) : p.Serves hpke coins (n + 1) result where
  goesOn := by
    intro i hi
    rcases i with _ | i
    · exact hgoes
    · rw [after_succ]
      exact h.goesOn i (by omega)
  returns := by
    rw [after_succ]
    exact h.returns
  ends := by
    rw [after_succ, after_succ]
    exact h.ends
  kind := h.kind
  held := by
    intro i hi session hsession
    rcases i with _ | i
    · exact Or.inl hsession
    rw [after_succ] at hsession
    rcases h.held i (by omega) session hsession with hbefore | ⟨k, hk, hnegotiates⟩
    · rcases hheld session hbefore with hsame | hnegotiates
      · exact Or.inl hsame
      · exact Or.inr ⟨0, Nat.succ_pos i, hnegotiates⟩
    · refine Or.inr ⟨k + 1, by omega, ?_⟩
      rw [after_succ]
      exact hnegotiates
  reset := by
    intro j i hji hi hresets session hsession
    obtain ⟨i, rfl⟩ : ∃ i', i = i' + 1 := ⟨i - 1, by omega⟩
    rw [after_succ] at hsession
    rcases j with _ | j
    · rcases h.held i (by omega) session hsession with hbefore | ⟨k, hk, hnegotiates⟩
      · rw [hreset hresets] at hbefore
        cases hbefore
      · refine ⟨k + 1, Nat.succ_pos k, by omega, ?_⟩
        rw [after_succ]
        exact hnegotiates
    · rw [after_succ] at hresets
      obtain ⟨k, hjk, hki, hnegotiates⟩ := h.reset j i (by omega) (by omega) hresets session hsession
      refine ⟨k + 1, by omega, by omega, ?_⟩
      rw [after_succ]
      exact hnegotiates

theorem waits_session {side side' : ArkSide c A (Framing cobs maxFrameSize)} {coins : Coins c}
    {packet : Except Error (Option (List UInt8))} {point' : MessagePoint c}
    (hstep : ArkSide.Step proto coins side point packet (.wait point') side') {session : Session c}
    (hsession : side'.session = some session) :
    side.session = some session ∨ ∃ wait packet', point = .handshake (.ack wait) ∧ packet = .ok (some packet') ∧
      side.acceptAck wait packet' = .ok session := by
  generalize hflow : (.wait point' : Flow (MessagePoint c) proto.HostToArk) = flow at hstep
  cases hstep with
  | undecodable => cases hsession
  | reset => cases hsession
  | broken => cases hsession
  | refused hsame => exact Or.inl (hsame.session ▸ hsession)
  | answered hsame => exact Or.inl (hsame.session ▸ hsession)
  | unanswered hsame => exact Or.inl (hsame.session ▸ hsession)
  | accepted haccept =>
      obtain rfl := Option.some.inj hsession
      exact Or.inr ⟨_, _, rfl, rfl, haccept⟩
  | opened => cases hflow
  | _ => exact Or.inl hsession

theorem done_ends (hcall : p.call = some (point, discard)) {packet : Except Error (Option (List UInt8))}
    {result : Except Error proto.HostToArk}
    (hpacket : packetOf (p.side.framing.nextPacketLoop discard) = .ready packet) {q : ArkProc c proto A cobs maxFrameSize}
    (hstep : ArkSide.Step proto (coins p.side.draws)
      ({ p.side with framing := (p.side.framing.nextPacketLoop discard).2 } : ArkSide c A (Framing cobs maxFrameSize))
      point packet (.done result) q.side) : Ends hpke p q result := by
  have habort : ∀ err : Error, (ArkSide.abort err : Flow (MessagePoint c) proto.HostToArk) = .done result →
      q.side.session = p.side.session → Ends hpke p q result := by
    intro err herr hsession
    cases err with
    | terminated =>
        obtain rfl := Flow.done.inj herr
        exact .terminated hsession
    | recvFailed cause =>
        obtain rfl := Flow.done.inj herr
        exact .recvFailed hsession
    | _ => cases herr
  generalize hflow : (.done result : Flow (MessagePoint c) proto.HostToArk) = flow at hstep
  generalize hside : q.side = side at hstep
  cases hstep with
  | terminated => exact habort .terminated hflow.symm (by rw [hside])
  | recvFailed => exact habort (.recvFailed _) hflow.symm (by rw [hside])
  | aborted => exact habort _ hflow.symm (by rw [hside])
  | unanswered hsame => exact habort _ hflow.symm ((congrArg ArkSide.session hside).trans hsame.session)
  | opened hsome hopen =>
      obtain rfl := Flow.done.inj hflow
      exact .opened hcall hsome hpacket hopen (hpke.receiverOpen_spec hopen).2 (congrArg ArkSide.session hside)
  | _ => cases hflow

/-- Over a stream that ends, a waiting call returns after at most one poll for each byte in front of it. -/
theorem Abstracts.serves_on (hcobs : cobs.Lawful) (hpke : Contexts c) {e : Endpoint c proto.HostToArk}
    (h : p.Abstracts coins e) (hcall : p.call = some (point, discard)) (hstop : p.side.framing.reader.stop ≠ []) :
    ∃ n ≤ p.side.framing.unread.length, ∃ result, p.Serves hpke coins n result := by
  induction hlen : p.side.framing.unread.length using Nat.strongRecOn generalizing p e point discard with
  | ind length ih =>
    subst hlen
    have hwf := h.wf.at hcall
    have hspec := (nextPacketLoop_spec hwf).1
    rw [NextPacketSpec] at hspec
    rcases hnext : next 0 maxFrameSize (decide (0 < discard)) p.side.framing.unread with _ | ⟨frame, rest⟩
    · -- the stream is at its end
      rw [hnext] at hspec
      obtain ⟨_, _, _, hend⟩ := hspec
      refine ⟨0, Nat.zero_le _, ?_⟩
      split at hend
      · exact absurd ‹_› hstop
      · obtain ⟨hresult, _, hsession⟩ := poll_read_failed coins p point (Or.inl rfl) hend.1
        exact ⟨_, .now hcall hresult (.terminated hsession)⟩
      · obtain ⟨hresult, _, hsession⟩ := poll_read_failed coins p point (Or.inr ⟨_, rfl⟩) hend.1
        exact ⟨_, .now hcall hresult (.recvFailed hsession)⟩
    · -- a frame is taken, which makes the rest of the stream shorter
      rw [hnext] at hspec
      obtain ⟨hpacket, hunread, hstop'⟩ := hspec
      obtain ⟨flow, side, hstep, hsettle⟩ := poll_ready coins p point hpacket
      have hside : (p.poll coins point discard).2.side = side := by rw [hsettle, settle_side]
      rcases flow with point' | result
      swap
      · have hresult : (p.poll coins point discard).1 = some result := by rw [hsettle]; rfl
        exact ⟨0, Nat.zero_le _, result, .now hcall hresult (done_ends hcall hpacket (hside ▸ hstep))⟩
      have hresult : (p.poll coins point discard).1 = none := by rw [hsettle]; rfl
      have hcall' : (p.poll coins point discard).2.call = some (point', 0) := by rw [hsettle]; rfl
      have hafter : p.step coins .poll = (p.poll coins point discard).2 := step_poll hcall
      obtain ⟨e', _, h'⟩ := step_abstracts hcobs h .poll
      have hframing : (p.step coins .poll).side.framing.unread = rest ∧ (p.step coins .poll).side.framing.reader.stop ≠ [] := by
        rw [hafter, hside]
        rcases step_framing hstep with hsame | ⟨answer, _, hsend⟩
        · rw [hsame]
          exact ⟨hunread, hstop'.symm ▸ hstop⟩
        · have hreceiver := (sendPacket_wire hcobs (nextPacketLoop_frame hwf hnext).2.1 hsend).2.2
          refine ⟨hreceiver.unread.trans hunread, ?_⟩
          rw [hreceiver.reader]
          exact hstop'.symm ▸ hstop
      obtain ⟨hrest, hstop''⟩ := hframing
      have hshorter := (piece_of_next hnext).2.2
      obtain ⟨n, hn, result, hserves⟩ := ih rest.length hshorter h' (hafter ▸ hcall') hstop'' (by rw [hrest])
      refine ⟨n + 1, by omega, result, .later ⟨point, discard, hcall, hresult, by rw [hpacket]; simp⟩ ?_ ?_ hserves⟩
      · intro session hsession
        rw [hafter, hside] at hsession
        rcases waits_session hstep hsession with hsame | ⟨wait, packet', rfl, hframe, haccept⟩
        · exact Or.inl hsame
        · exact Or.inr ⟨wait, discard, packet', hcall, hframe ▸ hpacket, haccept⟩
      · rintro ⟨point'', discard'', hcall'', hempty⟩
        obtain ⟨rfl, rfl⟩ := Prod.mk.inj (Option.some.inj (hcall.symm.trans hcall''))
        rw [hpacket] at hempty
        rw [hafter, hside]
        rw [Poll.ready.inj hempty] at hstep
        cases hstep with
        | reset => rfl
        | restarted => exact h.inside _ _ hcall

/-- Whatever bytes are in front of an Ark, cut in whatever way, if the reads end or fail behind them its call of
`next_message` returns, and only what `Serves` says. -/
theorem serves (hcobs : cobs.Lawful) (hpke : Contexts c) (coins : Nat → Coins c) (reader : Reader) (writer : Writer)
    (signer : c.XdsaSecretKey) (attester : A) (actions : List (ArkAction proto))
    {p : ArkProc c proto A cobs maxFrameSize} (hp : p = (new reader writer signer attester).run coins actions)
    (hcall : p.call = some (point, discard)) (hstop : p.side.framing.reader.stop ≠ []) :
    ∃ n ≤ p.side.framing.unread.length, ∃ result, p.Serves hpke coins n result := by
  obtain ⟨e, _, h⟩ := run_abstracts hcobs
    (new_abstracts coins reader writer signer attester : Abstracts coins (_ : ArkProc c proto A cobs maxFrameSize) _)
    actions
  rw [← hp] at h
  exact h.serves_on hcobs hpke hcall hstop

end ArkProc

namespace Reference

/-- A greeting reaches an Ark, and its call is polled this many times. -/
def arkGreeted (polls : Nat) : List (ArkAction protocol) :=
  [.arrive (Reader.chunk (host.run coins hostGreets).side.framing.writer.wire), .nextMessage] ++
    List.replicate polls .poll

/-- The Ark answers a greeting, and its reads fail then. -/
def arkUnplugged : List (ArkAction protocol) := arkAnswers ++ [.arrive [.fail (.other "unplugged")], .poll]

theorem send_cut (wire frame : List UInt8) (hne : frame ≠ []) :
    ((Writer.mk wire [.accept 1, .fail (.other "unplugged")]).send (frame ++ [0])).1 =
      .error (.sendFailed (.other "unplugged")) := by
  obtain ⟨b, rest, rfl⟩ := List.exists_cons_of_ne_nil hne
  cases rest <;> rfl

end Reference

open Reference in
/-- An Ark that answers a greeting and loses its reader then. -/
theorem surfaces_iff_reference :
    ((ark []).run coins arkUnplugged).side.framing.writer.wire ≠ [] ∧
      ∀ before after point discard, arkUnplugged = before ++ .poll :: after →
        ((ark []).run coins before).call = some (point, discard) →
        ((ark []).run coins before).Surfaces coins point discard := by
  refine ⟨by decide +kernel, ?_⟩
  have hplans : ∀ i < 7, ((ark []).run coins (arkUnplugged.take i)).side.framing.writer.plan = [] := by
    decide +kernel
  have hwf : ∀ before, ((ark []).run coins before).Wf := fun before =>
    (ArkProc.run_abstracts Cobs.stuffing_lawful (ArkProc.new_abstracts coins [] ⟨[], []⟩ (7 : Nat) attestation)
      before).elim fun _ h => h.2.wf
  refine (ArkProc.surfaces_iff Cobs.stuffing_lawful coins [] ⟨[], []⟩ (7 : Nat) attestation
    (show ark [] = .new [] ⟨[], []⟩ (7 : Nat) attestation from rfl) _).mpr ?_
  intro before after f answer frame hsplit hsends hframe
  have hlength : before.length < 7 := by
    have := congrArg List.length hsplit
    rw [List.length_append, List.length_cons, show arkUnplugged.length = 7 from rfl] at this
    omega
  have hplan := hplans before.length hlength
  rw [hsplit, List.take_left] at hplan
  rw [(hsends.poll_framing (hwf before)).2.1, Writer.send_healthy _ hplan]

open Reference in
/-- The write of an ArkHello fails after one byte, and the call goes on. -/
theorem surfaces_iff_ignored :
    ¬ ∀ before after point discard, arkGreeted 3 = before ++ .poll :: after →
      ((ark [.accept 1, .fail (.other "unplugged")]).run coins before).call = some (point, discard) →
      ((ark [.accept 1, .fail (.other "unplugged")]).run coins before).Surfaces coins point discard := by
  intro hsurfaces
  replace hsurfaces := fun point discard => hsurfaces (arkGreeted 2) [] point discard rfl
  have hwf : ((ark [.accept 1, .fail (.other "unplugged")]).run coins (arkGreeted 2)).Wf :=
    (ArkProc.run_abstracts Cobs.stuffing_lawful (ArkProc.new_abstracts coins [] _ (7 : Nat) attestation)
      (arkGreeted 2)).elim fun _ h => h.2.wf
  generalize hp : (ark [.accept 1, .fail (.other "unplugged")]).run coins (arkGreeted 2) = p at hwf hsurfaces
  have hfacts : p.side.framing.writer = ⟨[], [.accept 1, .fail (.other "unplugged")]⟩ ∧
      (p.step coins .poll).side.framing.writer.wire ≠ [] := by
    rw [← hp]
    decide +kernel
  obtain ⟨hwriter, hwire⟩ := hfacts
  obtain hsame | ⟨f, answer, hsends, hf, hfwriter, hsent⟩ := ArkProc.step_sends coins hwf .poll
  · rw [hsame, hwriter] at hwire
    exact absurd rfl hwire
  have hspec := (sendPacket_spec Cobs.stuffing_lawful hf answer).2.2
  rcases hframe : frameOf Cobs.stuffing 512 answer with err | frame
  · rw [hframe] at hspec
    rw [hsent, hspec.2, hfwriter, hwriter] at hwire
    exact absurd rfl hwire
  have hsend : (f.writer.send (frame ++ [0])).1 = .error (.sendFailed (.other "unplugged")) := by
    rw [hfwriter, hwriter]
    exact send_cut [] frame (frameOf_ok Cobs.stuffing_lawful hframe).2.2.1
  obtain ⟨point, discard, hcall⟩ : ∃ point discard, p.call = some (point, discard) := by
    cases hsends with
    | hello hcall => exact ⟨_, _, hcall⟩
  have hreturned := (hsurfaces point discard hcall _ _ (.unwritten hsends hframe hsend)).1
  rw [ArkProc.poll_unwritten Cobs.stuffing_lawful hwf hcall hsends hframe hsend] at hreturned
  cases hreturned

open Reference in
/-- An Ark waiting for a HostAck, in front of the end of a frame, an empty one and another piece. -/
theorem serves_reference :
    ∃ n ≤ ((ark []).run coins (arkAnswers ++ [.arrive [.data [9, 9, 0, 0], .data [7], .data []]])).side.framing.unread.length,
      ∃ result, ((ark []).run coins (arkAnswers ++ [.arrive [.data [9, 9, 0, 0], .data [7], .data []]])).Serves contexts coins
        n result := by
  generalize hp : (ark []).run coins (arkAnswers ++ [.arrive [.data [9, 9, 0, 0], .data [7], .data []]]) = p
  have hwaits : p.call.isSome = true ∧ p.side.framing.reader.stop = [.data []] := by
    rw [← hp]
    decide +kernel
  obtain ⟨⟨point, discard⟩, hcall⟩ := Option.isSome_iff_exists.mp hwaits.1
  exact ArkProc.serves Cobs.stuffing_lawful contexts coins [] ⟨[], []⟩ (7 : Nat) attestation _ (by rw [← hp, ark]) hcall
    (by rw [hwaits.2]; simp)

end DarkbioWire
