import DarkbioWire.Endpoint

/-!
# The host is a session endpoint

Every action of a `HostProc` is a step of the endpoint it stands for. While `handshake` waits for the ArkHello the coins
of the HostHello are the newest drawn; those of the HostAck are drawn after them.
-/

namespace DarkbioWire

variable {c : Crypto (List UInt8)} {proto : Protocol (List UInt8)} {Info : Type} {cobs : Cobs} {maxFrameSize : Nat}

/-- A host receives with the key of its HostHello and sends with the encapsulation in its HostAck. -/
def hostRole (coins : Nat → Coins c) : Role c where
  key n := c.xhpkeGenerate (coins n).second
  seed n := (coins n).first
  infoIn := CRYPTO_DOMAIN_WIRE_ARK_TO_HOST
  infoOut := CRYPTO_DOMAIN_WIRE_HOST_TO_ARK

namespace HostProc

/-- The framer of a process is in the state its call left it in. -/
def Wf (p : HostProc c proto Info cobs maxFrameSize) : Prop :=
  match p.call with
  | none => p.side.framing.Wf
  | some (_, discard) => p.side.framing.WfAt discard

/-- A process stands for an endpoint. -/
structure Abstracts (coins : Nat → Coins c) (p : HostProc c proto Info cobs maxFrameSize)
    (e : Endpoint c proto.ArkToHost) : Prop where
  wf : p.Wf
  session : e.session = p.side.session
  wire : e.wire = p.side.framing.writer.wire
  history : e.history = p.history
  round : e.round ≤ p.side.draws
  waiting : ∀ wait discard, p.call = some (.handshake wait, discard) → p.side.session = none ∧
    ∃ n, e.round ≤ n ∧ n < p.side.draws ∧ wait.hostXhpkeSk = (hostRole coins).key n

theorem new_abstracts (coins : Nat → Coins c) (reader : Reader) (writer : Writer) :
    Abstracts coins (new reader writer : HostProc c proto Info cobs maxFrameSize)
      { session := none, wire := writer.wire, round := 0, history := .empty } where
  wf := Framing.new_wf reader writer
  session := rfl
  wire := rfl
  history := rfl
  round := le_refl 0
  waiting := by simp [new]

variable {coins : Nat → Coins c} {p : HostProc c proto Info cobs maxFrameSize} {e e' : Endpoint c proto.ArkToHost}

theorem Wf.at {call : HostCall c Info} {discard : Nat} (h : p.Wf) (hcall : p.call = some (call, discard)) :
    p.side.framing.WfAt discard := by
  rw [Wf, hcall] at h
  exact h

theorem Wf.framing (h : p.Wf) : p.side.framing.Wf := by
  rw [Wf] at h
  split at h
  · exact h
  · exact h.toWf

theorem Wf.arrive (h : p.Wf) (reads : List ReadEvent) :
    Wf { p with side := { p.side with framing := p.side.framing.arrive reads } } := by
  rw [Wf] at h ⊢
  dsimp only
  split at h
  · exact h.arrive reads
  · exact h.arrive reads

theorem Wf.plan (h : p.Wf) (answers : List WriteEvent) :
    Wf { p with side := { p.side with framing := p.side.framing.plan answers } } := by
  rw [Wf] at h ⊢
  dsimp only
  split at h
  · exact h.plan answers
  · exact h.plan answers

theorem handshake_step (hcobs : cobs.Lawful) (h : Abstracts coins p e) {wait : HelloWait c Info} {discard : Nat}
    (hcall : p.call = some (.handshake wait, discard)) {f : Framing cobs maxFrameSize} (hf : f.Wf)
    (hwire : e.wire = f.writer.wire) {packet : Except Error (Option (List UInt8))}
    {flow : Flow (HelloWait c Info) Info} {side' : HostSide c (Framing cobs maxFrameSize)}
    (hstep : HostSide.HandshakeStep (coins p.side.draws)
      ({ p.side with framing := f } : HostSide c (Framing cobs maxFrameSize)) wait packet flow side') :
    ∃ e', e.Step cobs maxFrameSize (hostRole coins) proto.arkToHost e' ∧
      Abstracts coins (settleHandshake p.history p.side.session (flow, side')).2 e' := by
  obtain ⟨hnone, n, hle, hlt, hkey⟩ := h.waiting wait discard hcall
  have hsession := h.session
  have hround := h.round
  have hround' : e.round ≤ p.side.draws + 1 := Nat.le_succ_of_le hround
  have hhistory : e.history = p.history.noteSession p.side.session p.side.session f.writer.wire := by
    rw [hnone, History.noteSession_none]
    exact h.history
  cases hstep with
  | failed => exact ⟨e, .quiet, hf, hsession, hwire, hhistory, hround, by simp [settleHandshake]⟩
  | skipped =>
      refine ⟨e, .quiet, hf.wfAt, hsession, hwire, h.history, hround, ?_⟩
      intro wait' d hwait
      simp only [settleHandshake, Option.some.injEq, Prod.mk.injEq, HostCall.handshake.injEq] at hwait
      obtain ⟨rfl, _⟩ := hwait
      exact ⟨hnone, n, hle, hlt, hkey⟩
  | gaveUp => exact ⟨e, .quiet, hf, hsession, hwire, hhistory, hround, by simp [settleHandshake]⟩
  | rejected => exact ⟨e, .quiet, hf, hsession, hwire, hhistory, hround', by simp [settleHandshake]⟩
  | unanswered _ _ hsend =>
      obtain ⟨hgrow, hwf, _⟩ := Framing.sendPacket_wire hcobs hf hsend
      refine ⟨_, .out (hwire ▸ hgrow) (le_refl _), hwf, hnone.symm, rfl, ?_, hround', by simp [settleHandshake]⟩
      rw [settleHandshake]
      dsimp only
      rw [hnone, History.noteSession_none]
      exact h.history
  | @answered _ verified session ack framing _ hanswer hsend =>
      obtain ⟨hgrow, hwf, _⟩ := Framing.sendPacket_wire hcobs hf hsend
      obtain ⟨encH2a, _, hcontexts, _⟩ := HelloWait.answer_ok hanswer
      obtain ⟨_, hreceiver, hsender⟩ := HelloWait.contexts_ok hcontexts
      have hmakes : (hostRole coins).Makes session n p.side.draws := ⟨⟨_, hkey ▸ hreceiver⟩, ⟨_, _, hsender⟩⟩
      refine ⟨_, .established (hsession.trans hnone) (hwire ▸ hgrow) hle (Nat.le_of_lt hlt) hmakes, hwf, rfl, rfl, ?_,
        le_refl _, by simp [settleHandshake]⟩
      rw [settleHandshake]
      dsimp only
      rw [hnone, h.history]
      rfl

theorem message_step (h : Abstracts coins p e) {f : Framing cobs maxFrameSize} (hf : f.Wf)
    (hwire : e.wire = f.writer.wire) {packet : Except Error (Option (List UInt8))}
    (herror : ∀ err, packet = .error err → reports (.error err : Except Error proto.ArkToHost) = false)
    {result : Except Error proto.ArkToHost} {side' : HostSide c (Framing cobs maxFrameSize)}
    (hstep : HostSide.MessageStep proto ({ p.side with framing := f } : HostSide c (Framing cobs maxFrameSize)) packet
      result side') :
    ∃ e', e.Step cobs maxFrameSize (hostRole coins) proto.arkToHost e' ∧
      Abstracts coins (settleMessage (p.history.noteOpen p.side.session packet) (result, side') :
        Option (Returned proto Info) × HostProc c proto Info cobs maxFrameSize).2 e' := by
  have hsession := h.session
  have hhistory := h.history
  have hround := h.round
  have hleave : e.Step cobs maxFrameSize (hostRole coins) proto.arkToHost { e with session := none } :=
    .out List.prefix_rfl (le_refl _)
  cases hstep with
  | @failed err =>
      refine ⟨_, hleave, hf, rfl, hwire, ?_, hround, by simp [settleMessage]⟩
      rw [settleMessage, History.noteOpen_error, History.noteResult, herror err rfl]
      exact hhistory
  | empty =>
      refine ⟨e, .quiet, hf, hsession, hwire, ?_, hround, by simp [settleMessage]⟩
      rw [settleMessage, History.noteOpen_reset]
      exact hhistory
  | inactive hnone =>
      refine ⟨e, .quiet, hf, hsession, hwire, ?_, hround, by simp [settleMessage]⟩
      rw [settleMessage, hnone]
      exact hhistory
  | broken hsome hopen =>
      refine ⟨_, hleave, hf, rfl, hwire, ?_, hround, by simp [settleMessage]⟩
      rw [settleMessage, hsome, History.noteOpen, hopen]
      exact hhistory
  | opened hsome hopen =>
      refine ⟨_, .opened (hsession.trans hsome) hopen, hf, rfl, hwire, ?_, hround, by simp [settleMessage]⟩
      rw [settleMessage, hsome, History.noteOpen, hopen, hhistory]

theorem poll_step (hcobs : cobs.Lawful) (h : Abstracts coins p e) {call : HostCall c Info} {discard : Nat}
    (hcall : p.call = some (call, discard)) :
    ∃ e', e.Step cobs maxFrameSize (hostRole coins) proto.arkToHost e' ∧
      Abstracts coins (p.poll coins call discard).2 e' := by
  have hwfAt := h.wf.at hcall
  obtain ⟨hwriter, hpoll⟩ := Framing.nextPacketLoop_poll hwfAt
  have hwire : e.wire = (p.side.framing.nextPacketLoop discard).2.writer.wire := h.wire.trans (by rw [hwriter])
  rcases hpacket : Framing.packetOf (p.side.framing.nextPacketLoop discard) with packet | discard' | _
  · rw [hpacket] at hpoll
    cases call with
    | handshake wait =>
        obtain ⟨flow, side', hstep, hsettle⟩ := poll_handshake coins p wait hpacket
        rw [hsettle]
        exact handshake_step hcobs h hcall hpoll hwire hstep
    | nextMessage =>
        obtain ⟨result, side', hstep, hsettle⟩ := poll_message coins p hpacket
        rw [hsettle]
        refine message_step h hpoll hwire (fun err herr => ?_) hstep
        rw [herr] at hpacket
        rcases Framing.nextPacketLoop_error hwfAt hpacket with rfl | ⟨cause, rfl⟩ | ⟨cause, rfl⟩ <;> rfl
  · rw [hpacket] at hpoll
    rw [poll_pending coins p call hpacket]
    exact ⟨e, .quiet, hpoll, h.session, hwire, h.history, h.round,
      fun w d hw => h.waiting w discard (by rw [hcall]; obtain ⟨rfl, _⟩ := Prod.mk.inj (Option.some.inj hw); rfl)⟩
  · rw [hpacket] at hpoll
    exact hpoll.elim

theorem start_step (hcobs : cobs.Lawful) (h : Abstracts coins p e) (hcall : p.call = none)
    (verifier : Verifier c Info) :
    ∃ e', e.Step cobs maxFrameSize (hostRole coins) proto.arkToHost e' ∧
      Abstracts coins (p.step coins (.handshake verifier)) e' := by
  have hf := h.wf.framing
  obtain ⟨result, side', hstep, hafter⟩ := step_handshake coins hcall verifier
  rw [hafter]
  have hwire := h.wire
  have hround := h.round
  have hround' : e.round ≤ p.side.draws + 1 := Nat.le_succ_of_le hround
  cases hstep with
  | unreset hreset =>
      obtain ⟨hgrow, hwf, _⟩ := Framing.sendReset_wire hf hreset
      exact ⟨_, .out (hwire ▸ hgrow) (le_refl _), hwf, rfl, rfl, h.history, hround, by simp [Except.toOption]⟩
  | unencodable hreset =>
      obtain ⟨hgrow, hwf, _⟩ := Framing.sendReset_wire hf hreset
      exact ⟨_, .out (hwire ▸ hgrow) (le_refl _), hwf, rfl, rfl, h.history, hround', by simp [Except.toOption]⟩
  | unsent _ hreset _ hsend =>
      obtain ⟨hgrow, hwf, _⟩ := Framing.sendReset_wire hf hreset
      obtain ⟨hgrow', hwf', _⟩ := Framing.sendPacket_wire hcobs hwf hsend
      exact ⟨_, .out (hwire ▸ hgrow.trans hgrow') (le_refl _), hwf', rfl, rfl, h.history, hround', by simp [Except.toOption]⟩
  | @started wait _ _ _ hwait hreset _ hsend =>
      obtain ⟨hgrow, hwf, _⟩ := Framing.sendReset_wire hf hreset
      obtain ⟨hgrow', hwf', _⟩ := Framing.sendPacket_wire hcobs hwf hsend
      refine ⟨_, .out (hwire ▸ hgrow.trans hgrow') (le_refl _), hwf'.wfAt, rfl, rfl, h.history, hround', ?_⟩
      intro wait' d hcall'
      obtain ⟨hsame, _⟩ := Prod.mk.inj (Option.some.inj hcall')
      injection hsame with hsame
      refine ⟨rfl, p.side.draws, hround, Nat.lt_succ_self _, ?_⟩
      rw [← hsame, hwait]
      rfl

/-- Every action of a host is a step of the endpoint it stands for. -/
theorem step_abstracts (hcobs : cobs.Lawful) (h : Abstracts coins p e) (action : HostAction c proto Info) :
    ∃ e', e.Step cobs maxFrameSize (hostRole coins) proto.arkToHost e' ∧ Abstracts coins (p.step coins action) e' := by
  have hself : ∃ e', e.Step cobs maxFrameSize (hostRole coins) proto.arkToHost e' ∧ Abstracts coins p e' :=
    ⟨e, .quiet, h⟩
  cases action with
  | arrive reads => exact ⟨e, .quiet, h.wf.arrive reads, h.session, h.wire, h.history, h.round, h.waiting⟩
  | plan answers => exact ⟨e, .quiet, h.wf.plan answers, h.session, h.wire, h.history, h.round, h.waiting⟩
  | handshake verifier =>
      rcases hcall : p.call with _ | call
      · exact start_step hcobs h hcall verifier
      · rw [step, hcall]
        exact hself
  | nextMessage =>
      rw [step]
      split
      · exact ⟨e, .quiet, h.wf.framing.wfAt, h.session, h.wire, h.history, h.round, by simp⟩
      · exact hself
  | poll =>
      rw [step]
      split
      · exact hself
      · rename_i call discard hcall
        exact poll_step hcobs h hcall
  | sendMessage req =>
      rw [step]
      split
      · rename_i hcall
        obtain ⟨e', hstep, hsession, hwire, hround, hhistory, hwf, _⟩ :=
          Endpoint.sendThrough_endpoint hcobs h.wf.framing h.wire proto.hostToArk req
        rw [h.session] at hsession hwire hhistory hwf
        refine ⟨e', hstep, ?_, hsession, hwire, hhistory.trans (by rw [h.history]), hround ▸ h.round, by simp [hcall]⟩
        rw [Wf, hcall]
        exact hwf
      · exact hself

theorem run_abstracts (hcobs : cobs.Lawful) (h : Abstracts coins p e) (actions : List (HostAction c proto Info)) :
    ∃ e', e.Run cobs maxFrameSize (hostRole coins) proto.arkToHost e' ∧ Abstracts coins (p.run coins actions) e' := by
  induction actions generalizing p e with
  | nil => exact ⟨e, .refl, h⟩
  | cons action actions ih =>
      obtain ⟨e', hstep, h'⟩ := step_abstracts hcobs h action
      obtain ⟨e'', hrun, h''⟩ := ih h'
      exact ⟨e'', hrun.head hstep, h''⟩

theorem run_inv (hcobs : cobs.Lawful) (maxFrameSize : Nat) (hpke : Contexts c) (coins : Nat → Coins c) (reader : Reader) (writer : Writer)
    (actions : List (HostAction c proto Info)) :
    ∃ e, Endpoint.Inv cobs maxFrameSize hpke (hostRole coins) proto.arkToHost e ∧
      Abstracts coins ((new reader writer : HostProc c proto Info cobs maxFrameSize).run coins actions) e := by
  obtain ⟨e, hrun, habstracts⟩ := run_abstracts hcobs
    (new_abstracts coins reader writer : Abstracts coins (_ : HostProc c proto Info cobs maxFrameSize) _) actions
  exact ⟨e, (Endpoint.Inv.init writer.wire).run hrun, habstracts⟩

end HostProc

end DarkbioWire
