import DarkbioWire.Endpoint

/-!
# The Ark is a session endpoint

Every action of an `ArkProc` is a step of the endpoint it stands for. While `handshake` waits for the HostAck the coins
of the ArkHello are the newest drawn, so the session it may establish is newer than all before.
-/

namespace DarkbioWire

variable {c : Crypto (List UInt8)} {proto : Protocol (List UInt8)} {A : Type} [Attester c A] {cobs : Cobs}
  {maxFrameSize : Nat}

/-- An Ark receives with the key of its ArkHello and sends with the encapsulation in it. -/
def arkRole (coins : Nat → Coins c) : Role c where
  key n := c.xhpkeGenerate (coins n).first
  seed n := (coins n).second
  infoIn := CRYPTO_DOMAIN_WIRE_HOST_TO_ARK
  infoOut := CRYPTO_DOMAIN_WIRE_ARK_TO_HOST

namespace ArkProc

/-- The framer of a process is in the state its call left it in. -/
def Wf (p : ArkProc c proto A cobs maxFrameSize) : Prop :=
  match p.call with
  | none => p.side.framing.Wf
  | some (_, discard) => p.side.framing.WfAt discard

/-- A process stands for an endpoint. -/
structure Abstracts (coins : Nat → Coins c) (p : ArkProc c proto A cobs maxFrameSize)
    (e : Endpoint c proto.HostToArk) : Prop where
  wf : p.Wf
  session : e.session = p.side.session
  wire : e.wire = p.side.framing.writer.wire
  history : e.history = p.history
  round : e.round ≤ p.side.draws
  inside : ∀ point discard, p.call = some (.handshake point, discard) → p.side.session = none
  waiting : ∀ wait discard, p.call = some (.handshake (.ack wait), discard) →
    ∃ n, e.round ≤ n ∧ n < p.side.draws ∧ wait.arkCryptoKey = (arkRole coins).key n ∧
      ∃ encap, c.newSender wait.hostHello.hostCrypto (arkRole coins).infoOut ((arkRole coins).seed n) =
        .ok (wait.sender, encap)

omit [Attester c A] in
theorem new_abstracts (coins : Nat → Coins c) (reader : Reader) (writer : Writer) (signer : c.XdsaSecretKey)
    (attester : A) :
    Abstracts coins (new reader writer signer attester : ArkProc c proto A cobs maxFrameSize)
      { session := none, wire := writer.wire, round := 0, history := .empty } where
  wf := Framing.new_wf reader writer
  session := rfl
  wire := rfl
  history := rfl
  round := le_refl 0
  inside := by simp [new]
  waiting := by simp [new]

variable {coins : Nat → Coins c} {p : ArkProc c proto A cobs maxFrameSize} {e e' : Endpoint c proto.HostToArk}

omit [Attester c A] in
theorem Wf.at {point : MessagePoint c} {discard : Nat} (h : p.Wf) (hcall : p.call = some (point, discard)) :
    p.side.framing.WfAt discard := by
  rw [Wf, hcall] at h
  exact h

omit [Attester c A] in
theorem Wf.framing (h : p.Wf) : p.side.framing.Wf := by
  rw [Wf] at h
  split at h
  · exact h
  · exact h.toWf

omit [Attester c A] in
theorem Wf.arrive (h : p.Wf) (reads : List ReadEvent) :
    Wf { p with side := { p.side with framing := p.side.framing.arrive reads } } := by
  rw [Wf] at h ⊢
  dsimp only
  split at h
  · exact h.arrive reads
  · exact h.arrive reads

omit [Attester c A] in
theorem Wf.plan (h : p.Wf) (answers : List WriteEvent) :
    Wf { p with side := { p.side with framing := p.side.framing.plan answers } } := by
  rw [Wf] at h ⊢
  dsimp only
  split at h
  · exact h.plan answers
  · exact h.plan answers

omit [Attester c A] in
theorem settle_abstracts {side : ArkSide c A (Framing cobs maxFrameSize)} {history : History c proto.HostToArk}
    {before : Option (Session c)} {flow : Flow (MessagePoint c) proto.HostToArk} (hf : side.framing.Wf)
    (hsession : e.session = side.session) (hwire : e.wire = side.framing.writer.wire)
    (hhistory : e.history = (settle history before (flow, side)).2.history) (hround : e.round ≤ side.draws)
    (hinside : ∀ point, flow = .wait (.handshake point) → side.session = none)
    (hwaiting : ∀ wait, flow = .wait (.handshake (.ack wait)) →
      ∃ n, e.round ≤ n ∧ n < side.draws ∧ wait.arkCryptoKey = (arkRole coins).key n ∧
        ∃ encap, c.newSender wait.hostHello.hostCrypto (arkRole coins).infoOut ((arkRole coins).seed n) =
          .ok (wait.sender, encap)) :
    Abstracts coins (settle history before (flow, side)).2 e := by
  cases flow with
  | wait point =>
      exact ⟨hf.wfAt, hsession, hwire, hhistory, hround,
        fun pt d hcall => hinside pt (by rw [(Prod.mk.inj (Option.some.inj hcall)).1]),
        fun w d hcall => hwaiting w (by rw [(Prod.mk.inj (Option.some.inj hcall)).1])⟩
  | done result => exact ⟨hf, hsession, hwire, hhistory, hround, by simp [settle], by simp [settle]⟩

theorem abort_ne {err : Error} {point : HandshakePoint c} :
    (ArkSide.abort err : Flow (MessagePoint c) proto.HostToArk) ≠ .wait (.handshake point) := by
  cases err <;> simp [ArkSide.abort]

omit [Attester c A] in
theorem settle_history {side : ArkSide c A (Framing cobs maxFrameSize)} {history : History c proto.HostToArk}
    {before : Option (Session c)} (hnone : side.session = none) {flow : Flow (MessagePoint c) proto.HostToArk}
    (hflow : (∃ point, flow = .wait point) ∨ ∃ err, flow = .done (.error err) ∧ reports (.error err : Except Error proto.HostToArk) = false) :
    (settle history before (flow, side)).2.history = history := by
  rcases hflow with ⟨point, rfl⟩ | ⟨err, rfl, herr⟩
  · rw [settle, hnone, History.noteSession_none]
  · rw [settle, History.noteResult, herr]
    rfl

omit [Attester c A] in
theorem abort_history {side : ArkSide c A (Framing cobs maxFrameSize)} {history : History c proto.HostToArk}
    {before : Option (Session c)} (hnone : side.session = none) (err : Error) :
    (settle history before (ArkSide.abort err, side)).2.history = history := by
  refine settle_history hnone ?_
  cases err <;> simp [ArkSide.abort, reports]

theorem poll_step (hcobs : cobs.Lawful) (h : Abstracts coins p e) {point : MessagePoint c} {discard : Nat}
    (hcall : p.call = some (point, discard)) :
    ∃ e', e.Step cobs maxFrameSize (arkRole coins) proto.hostToArk e' ∧
      Abstracts coins (p.poll coins point discard).2 e' := by
  obtain ⟨hwriter, hpoll⟩ := Framing.nextPacketLoop_poll (h.wf.at hcall)
  have hwire : e.wire = (p.side.framing.nextPacketLoop discard).2.writer.wire := h.wire.trans (by rw [hwriter])
  rcases hpacket : Framing.packetOf (p.side.framing.nextPacketLoop discard) with packet | discard' | _
  · rw [hpacket] at hpoll
    dsimp only at hpoll
    obtain ⟨flow, side', hstep, hsettle⟩ := poll_ready coins p point hpacket
    rw [hsettle]
    generalize (p.side.framing.nextPacketLoop discard).2 = f at hpoll hwire hstep
    have hinside : ∀ pt, point = .handshake pt → p.side.session = none := fun pt hpt => h.inside pt discard (hpt ▸ hcall)
    have hsession := h.session
    have hhistory := h.history
    have hround := h.round
    -- leaving the session, with the bytes a handshake wrote
    have hout : ∀ wire, e.wire <+: wire → e.Step cobs maxFrameSize (arkRole coins) proto.hostToArk
        { e with session := none, wire } := fun wire hwire => .out hwire (le_refl _)
    have hleave := hout e.wire List.prefix_rfl
    cases hstep with
    | terminated =>
        refine ⟨e, .quiet, settle_abstracts hpoll hsession hwire ?_ hround (by simp) (by simp)⟩
        rw [noteOpen, History.noteOpen_error]
        exact hhistory
    | recvFailed =>
        refine ⟨e, .quiet, settle_abstracts hpoll hsession hwire ?_ hround (by simp) (by simp)⟩
        rw [noteOpen, History.noteOpen_error]
        exact hhistory
    | undecodable =>
        refine ⟨_, hleave, settle_abstracts hpoll rfl hwire ?_ hround (by simp) (by simp)⟩
        rw [settle_history rfl (by simp), noteOpen, History.noteOpen_error]
        exact hhistory
    | reset =>
        refine ⟨_, hleave, settle_abstracts hpoll rfl hwire ?_ hround (by simp) (by simp)⟩
        rw [settle_history rfl (by simp), noteOpen, History.noteOpen_reset]
        exact hhistory
    | junk hjunk =>
        refine ⟨e, .quiet, settle_abstracts hpoll hsession hwire ?_ hround (by simp) (by simp)⟩
        rw [settle_history hjunk (by simp), noteOpen, hjunk]
        exact hhistory
    | broken hsome hopen =>
        refine ⟨_, hleave, settle_abstracts hpoll rfl hwire ?_ hround (by simp) (by simp)⟩
        rw [settle_history rfl (by simp), noteOpen, hsome, History.noteOpen, hopen]
        exact hhistory
    | @opened received session payload receiver hsome hopen =>
        refine ⟨_, .opened (hsession.trans hsome) hopen, settle_abstracts hpoll rfl hwire ?_ hround (by simp) (by simp)⟩
        rw [settle, noteOpen, hsome, History.noteOpen, hopen, hhistory]
    | aborted =>
        have hnone := hinside _ rfl
        exact ⟨e, .quiet, settle_abstracts hpoll hsession hwire (hhistory.trans (abort_history (by exact hnone) _).symm) hround
          (fun _ h => absurd h abort_ne) (fun _ h => absurd h abort_ne)⟩
    | restarted =>
        have hnone := hinside _ rfl
        exact ⟨e, .quiet, settle_abstracts hpoll hsession hwire (hhistory.trans (settle_history (by exact hnone) (by simp)).symm)
          hround (fun _ _ => hnone) (by simp)⟩
    | refused hsame hframing _ =>
        have hnone := hsame.session.trans (hinside _ rfl)
        refine ⟨e, .quiet, settle_abstracts (hframing ▸ hpoll) (hsession.trans hsame.session.symm)
          (by rw [hframing]; exact hwire) (hhistory.trans (settle_history (by exact hnone) (by simp)).symm) ?_ (by simp) (by simp)⟩
        rw [hsame.draws]
        exact Nat.le_succ_of_le hround
    | answered hsame hanswers hsend =>
        have hnone := hsame.session.trans (hinside _ rfl)
        obtain ⟨hgrow, hwf, _⟩ := Framing.sendPacket_wire hcobs hpoll hsend
        refine ⟨_, hout _ (hwire ▸ hgrow), settle_abstracts hwf hnone.symm rfl
          (hhistory.trans (settle_history (by exact hnone) (by simp)).symm) ?_ (fun _ _ => hnone) ?_⟩
        · rw [hsame.draws]
          exact Nat.le_succ_of_le hround
        · rintro wait ⟨⟩
          exact ⟨p.side.draws, hround, by rw [hsame.draws]; exact Nat.lt_succ_self _, hanswers.key, _, hanswers.sender⟩
    | unanswered hsame hanswers hsend =>
        have hnone := hsame.session.trans (hinside _ rfl)
        obtain ⟨hgrow, hwf, _⟩ := Framing.sendPacket_wire hcobs hpoll hsend
        refine ⟨_, hout _ (hwire ▸ hgrow), settle_abstracts hwf hnone.symm rfl
          (hhistory.trans (abort_history (by exact hnone) _).symm) ?_ (fun _ h => absurd h abort_ne) (fun _ h => absurd h abort_ne)⟩
        rw [hsame.draws]
        exact Nat.le_succ_of_le hround
    | @accepted received wait session haccept =>
        have hnone := hinside _ rfl
        obtain ⟨n, hle, hlt, hkey, encap, hsender⟩ := h.waiting wait discard hcall
        obtain ⟨hostAck, receiver, _, _, hreceiver, rfl⟩ := ArkSide.acceptAck_ok haccept
        have hmakes : (arkRole coins).Makes { sender := wait.sender, receiver } n n :=
          ⟨⟨_, hkey ▸ hreceiver⟩, ⟨_, _, hsender⟩⟩
        refine ⟨_, .established (hsession.trans hnone) List.prefix_rfl hle (le_refl n) hmakes,
          settle_abstracts hpoll rfl hwire ?_ hlt (by simp) (by simp)⟩
        rw [settle, hnone, hwire, hhistory]
        rfl
    | rejected =>
        have hnone := hinside _ rfl
        exact ⟨e, .quiet, settle_abstracts hpoll hsession hwire (hhistory.trans (settle_history (by exact hnone) (by simp)).symm)
          hround (by simp) (by simp)⟩
  · rw [hpacket] at hpoll
    rw [poll_pending coins p point hpacket]
    exact ⟨e, .quiet, hpoll, h.session, hwire, h.history, h.round,
      fun pt d hpt => h.inside pt discard (by rw [hcall]; obtain ⟨rfl, _⟩ := Prod.mk.inj (Option.some.inj hpt); rfl),
      fun w d hw => h.waiting w discard (by rw [hcall]; obtain ⟨rfl, _⟩ := Prod.mk.inj (Option.some.inj hw); rfl)⟩
  · rw [hpacket] at hpoll
    exact hpoll.elim

/-- Every action of an Ark is a step of the endpoint it stands for. -/
theorem step_abstracts (hcobs : cobs.Lawful) (h : Abstracts coins p e) (action : ArkAction proto) :
    ∃ e', e.Step cobs maxFrameSize (arkRole coins) proto.hostToArk e' ∧ Abstracts coins (p.step coins action) e' := by
  have hself : ∃ e', e.Step cobs maxFrameSize (arkRole coins) proto.hostToArk e' ∧ Abstracts coins p e' :=
    ⟨e, .quiet, h⟩
  cases action with
  | arrive reads => exact ⟨e, .quiet, h.wf.arrive reads, h.session, h.wire, h.history, h.round, h.inside, h.waiting⟩
  | plan answers => exact ⟨e, .quiet, h.wf.plan answers, h.session, h.wire, h.history, h.round, h.inside, h.waiting⟩
  | nextMessage =>
      rw [step]
      split
      · exact ⟨e, .quiet, h.wf.framing.wfAt, h.session, h.wire, h.history, h.round, by simp, by simp⟩
      · exact hself
  | poll =>
      rw [step]
      split
      · exact hself
      · rename_i point discard hcall
        exact poll_step hcobs h hcall
  | sendMessage res =>
      rw [step]
      split
      · rename_i hcall
        obtain ⟨e', hstep, hsession, hwire, hround, hhistory, hwf, _⟩ :=
          Endpoint.sendThrough_endpoint hcobs h.wf.framing h.wire proto.arkToHost res
        rw [h.session] at hsession hwire hhistory hwf
        refine ⟨e', hstep, ?_, hsession, hwire, hhistory.trans (by rw [h.history]), hround ▸ h.round, by simp [hcall],
          by simp [hcall]⟩
        rw [Wf, hcall]
        exact hwf
      · exact hself

theorem run_abstracts (hcobs : cobs.Lawful) (h : Abstracts coins p e) (actions : List (ArkAction proto)) :
    ∃ e', e.Run cobs maxFrameSize (arkRole coins) proto.hostToArk e' ∧ Abstracts coins (p.run coins actions) e' := by
  induction actions generalizing p e with
  | nil => exact ⟨e, .refl, h⟩
  | cons action actions ih =>
      obtain ⟨e', hstep, h'⟩ := step_abstracts hcobs h action
      obtain ⟨e'', hrun, h''⟩ := ih h'
      exact ⟨e'', hrun.head hstep, h''⟩

theorem run_inv (hcobs : cobs.Lawful) (maxFrameSize : Nat) (hpke : Contexts c) (coins : Nat → Coins c) (reader : Reader) (writer : Writer)
    (signer : c.XdsaSecretKey) (attester : A) (actions : List (ArkAction proto)) :
    ∃ e, Endpoint.Inv cobs maxFrameSize hpke (arkRole coins) proto.hostToArk e ∧
      Abstracts coins ((new reader writer signer attester : ArkProc c proto A cobs maxFrameSize).run coins actions) e := by
  obtain ⟨e, hrun, habstracts⟩ := run_abstracts hcobs
    (new_abstracts coins reader writer signer attester : Abstracts coins (_ : ArkProc c proto A cobs maxFrameSize) _) actions
  exact ⟨e, (Endpoint.Inv.init writer.wire).run hrun, habstracts⟩

end ArkProc

end DarkbioWire
