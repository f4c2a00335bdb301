import DarkbioWire.ExactlyOnce
import DarkbioWire.Framing.Failing
import DarkbioWire.Serving

/-!
# A link on which reads of the Ark fail

A host and an Ark on a lossless link, where any read of the Ark may fail and the Ark's driver calls `next_message` again.
With the failures taken out of the Ark's reads the link is an ordinary one, and a failed read does one thing to it: the
call of the Ark ends where it waits. That costs nothing in a session, and it costs the handshake the call runs inline.
-/

namespace DarkbioWire

open Framing Delimited

variable {c : Crypto (List UInt8)} {proto : Protocol (List UInt8)} {A Info : Type} [Attester c A] {cobs : Cobs}
  {maxFrameSize : Nat}

/-! ### The Ark without the failures -/

namespace Framing

theorem sendPacket_steady (f : Framing cobs maxFrameSize) (packet : List UInt8) :
    f.steady.sendPacket packet = ((f.sendPacket packet).1, (f.sendPacket packet).2.steady) := by
  have hbuffer : f.steady.encobsBuffer = f.encobsBuffer := rfl
  rw [sendPacket, sendPacket]
  split
  · rfl
  · rw [hbuffer]
    cases cobs.encode packet f.encobsBuffer.length <;> rfl

theorem arrive_steady (f : Framing cobs maxFrameSize) (bytes : List UInt8) :
    (f.arrive (Reader.chunk bytes)).steady = f.steady.arrive (Reader.chunk bytes) := by
  rw [steady, arrive, arrive, steady]
  dsimp only
  rw [Reader.withoutFailures_chunk]

theorem WfAt.steady {f : Framing cobs maxFrameSize} {discard : Nat} (h : f.WfAt discard) : f.steady.WfAt discard :=
  ⟨h.toWf.withReader _, h.discarding⟩

end Framing

omit [Attester c A] in
theorem sendThrough_steady {M : Type} (codec : Codec (List UInt8) M) (f : Framing cobs maxFrameSize)
    (session : Option (Session c)) (msg : M) :
    sendThrough codec f.steady session msg =
      ((sendThrough codec f session msg).1, (sendThrough codec f session msg).2.1.steady,
        (sendThrough codec f session msg).2.2) := by
  rcases session with _ | session
  · rfl
  rw [sendThrough, sendThrough]
  rcases session.seal (Transport.maxMessageSize (Framing cobs maxFrameSize)) codec msg with ⟨err | blob, session'⟩
  · cases err <;> rfl
  · have hsend : Transport.sendPacket f.steady blob =
        ((Transport.sendPacket f blob).1, (Transport.sendPacket f blob).2.steady) := sendPacket_steady f blob
    dsimp only
    rw [hsend]
    rcases Transport.sendPacket f blob with ⟨_ | _, framing⟩ <;> rfl

namespace ArkProc

variable {coins : Nat → Coins c} {p p' : ArkProc c proto A cobs maxFrameSize} {point : MessagePoint c} {discard : Nat}
  {coming : List UInt8} {queue : List (Option (List UInt8))}

/-- The Ark with the same reads to come, none of which fails. -/
def steady (p : ArkProc c proto A cobs maxFrameSize) : ArkProc c proto A cobs maxFrameSize :=
  { p with side := { p.side with framing := p.side.framing.steady } }

omit [Attester c A] in
theorem Abstracts.steady {e : Endpoint c proto.HostToArk} (h : p.Abstracts coins e) : p.steady.Abstracts coins e := by
  refine ⟨?_, h.session, h.wire, h.history, h.round, h.inside, h.waiting⟩
  have hwf := h.wf
  rw [Wf] at hwf ⊢
  rcases hcall : p.call with _ | ⟨point, discard⟩
  · rw [hcall] at hwf
    rw [show p.steady.call = none from hcall]
    exact hwf.withReader _
  · rw [hcall] at hwf
    rw [show p.steady.call = some (point, discard) from hcall]
    exact hwf.steady

omit [Attester c A] in
theorem Abstracts.of_steady {e : Endpoint c proto.HostToArk} (h : p.steady.Abstracts coins e) : p.Abstracts coins e := by
  refine ⟨?_, h.session, h.wire, h.history, h.round, h.inside, h.waiting⟩
  have hwf := h.wf
  rw [Wf] at hwf ⊢
  rcases hcall : p.call with _ | ⟨point, discard⟩
  · rw [show p.steady.call = none from hcall] at hwf
    exact hwf.withReader p.side.framing.reader
  · rw [show p.steady.call = some (point, discard) from hcall] at hwf
    exact ⟨hwf.toWf.withReader p.side.framing.reader, hwf.discarding⟩

omit [Attester c A] in
theorem Left.steady {session : Option (Session c)} {place : Option (MessagePoint c)} {history : History c proto.HostToArk}
    (h : p.Left p' session place history) : p.steady.Left p'.steady session place history :=
  ⟨h.signer, h.session, h.point, h.history⟩

theorem Polled.steady {packet : Option (List UInt8)} {sent : List (Option (List UInt8))}
    (h : p.Polled coins p' point packet sent) : p.steady.Polled coins p'.steady point packet sent := by
  cases h with
  | opened hsome hopen hleft => exact .opened hsome hopen hleft.steady
  | toHello hleft => exact .toHello hleft.steady
  | dropped hdrops hleft =>
      refine .dropped ?_ hleft.steady
      cases hdrops with
      | junk hnone => exact .junk hnone
      | broken hsome hopen => exact .broken hsome hopen
      | refused => exact .refused
      | rejected hreject => exact .rejected ((ArkSide.acceptAck_congr rfl _ _).trans hreject)
  | answered hanswers hleft => exact .answered (hanswers.congr rfl rfl) hleft.steady
  | accepted wire haccept hleft =>
      exact .accepted wire ((ArkSide.acceptAck_congr rfl _ _).trans haccept) hleft.steady

theorem step_steady {action : ArkAction proto} (hpoll : action ≠ .poll)
    (harrive : ∀ reads, action = .arrive reads → ∃ bytes, reads = Reader.chunk bytes) :
    (p.step coins action).steady = p.steady.step coins action := by
  cases action with
  | poll => exact absurd rfl hpoll
  | arrive reads =>
      obtain ⟨bytes, rfl⟩ := harrive reads rfl
      rw [step, step, ArkProc.steady]
      dsimp only
      rw [arrive_steady]
      rfl
  | plan answers => rfl
  | nextMessage =>
      rw [step, step]
      rcases hcall : p.call with _ | call
      · rw [show p.steady.call = none from hcall]
        rfl
      · rw [show p.steady.call = some call from hcall]
  | sendMessage res =>
      rw [step, step]
      rcases hcall : p.call with _ | call
      · have hsend := sendThrough_steady proto.arkToHost p.side.framing p.side.session res
        rw [show p.steady.call = none from hcall]
        dsimp only
        rw [ArkSide.sendMessage, ArkSide.sendMessage, show p.steady.side.framing = p.side.framing.steady from rfl,
          show p.steady.side.session = p.side.session from rfl, hsend]
        rfl
      · rw [show p.steady.call = some call from hcall]

theorem step_failed {cause : IoError} (hcall : p.call = some (point, discard))
    (hpacket : packetOf (p.side.framing.nextPacketLoop discard) = .ready (.error (.recvFailed cause))) :
    p.step coins .poll =
      { side := { p.side with framing := (p.side.framing.nextPacketLoop discard).2 }
        call := none
        history := p.history } := by
  obtain ⟨flow, side, hstep, hsettle⟩ := poll_ready coins p point hpacket
  obtain ⟨rfl, rfl⟩ : flow = .done (.error (.recvFailed cause)) ∧
      side = { p.side with framing := (p.side.framing.nextPacketLoop discard).2 } := by
    cases hstep with
    | recvFailed => exact ⟨rfl, rfl⟩
    | undecodable _ hrecv => exact absurd rfl (hrecv cause)
    | aborted => exact ⟨rfl, rfl⟩
  have hhistory : noteOpen p.history p.side.session point (.error (.recvFailed cause)) = p.history := by
    cases point with
    | packet => exact History.noteOpen_error p.history p.side.session _
    | handshake place => rfl
  rw [step_poll hcall, hsettle, hhistory]
  rfl

end ArkProc

/-! ### What the host writes -/

namespace HostProc

variable {coins : Nat → Coins c} {p : HostProc c proto Info cobs maxFrameSize}

omit [Attester c A] in
theorem handshake_adds (hcobs : cobs.Lawful) (hwf : p.side.framing.Wf) (hplan : p.side.framing.writer.plan = [])
    (hcall : p.call = none) (verifier : Verifier c Info) :
    p.side.framing.Adds (p.step coins (.handshake verifier)).side.framing := by
  obtain ⟨result, side', hstep, hafter⟩ := step_handshake coins hcall verifier
  rw [hafter]
  cases hstep with
  | unreset hsend => exact .reset hwf hplan hsend
  | unencodable hsend => exact .reset hwf hplan hsend
  | unsent _ hsend _ hrefused =>
      obtain ⟨_, hwf', _⟩ := sendReset_wire hwf hsend
      have hsame := sendPacket_refused hcobs hwf' (Wrote.reset hwf hplan hsend).2.plan hrefused
      subst hsame
      exact .reset hwf hplan hsend
  | started _ hsend _ hsent =>
      obtain ⟨_, hwf', _⟩ := sendReset_wire hwf hsend
      exact (Adds.reset hwf hplan hsend).trans (.packet hcobs hwf' hsent)

omit [Attester c A] in
theorem sendThrough_adds {M : Type} {codec : Codec (List UInt8) M} {f f' : Framing cobs maxFrameSize} {msg : M}
    {session session' : Option (Session c)} {result : Except Error Unit} (hcobs : cobs.Lawful) (hwf : f.Wf)
    (hplan : f.writer.plan = []) (hstep : SendStep codec f msg session result f' session') : f.Adds f' := by
  cases hstep with
  | lost _ _ _ hsend =>
      have hsame := sendPacket_refused hcobs hwf hplan hsend
      subst hsame
      exact .nothing rfl
  | sent _ _ _ hsend => exact .packet hcobs hwf hsend
  | _ => exact .nothing rfl

omit [Attester c A] in
theorem poll_adds (hcobs : cobs.Lawful) {call : HostCall c Info} {discard : Nat} (hwf : p.side.framing.WfAt discard)
    (hplan : p.side.framing.writer.plan = []) :
    let p' := (p.poll coins call discard).2
    p.side.framing.Adds p'.side.framing ∧
      (p'.call = none ∨ p'.side.framing.writer.wire = p.side.framing.writer.wire) := by
  intro p'
  obtain ⟨hwriter, hready⟩ := nextPacketLoop_poll hwf
  have hwire := congrArg Writer.wire hwriter
  rcases hpolled : packetOf (p.side.framing.nextPacketLoop discard) with packet | discard' | _
  · rw [hpolled] at hready
    have hplan' := (congrArg Writer.plan hwriter).trans hplan
    cases call with
    | nextMessage =>
        obtain ⟨result, side', hstep, hsettle⟩ := poll_message coins p hpolled
        have hp' : p' = _ := congrArg Prod.snd hsettle
        have hside : side'.framing = (p.side.framing.nextPacketLoop discard).2 := by
          cases hstep <;> rfl
        rw [hp']
        refine ⟨.nothing ?_, Or.inl rfl⟩
        rw [settleMessage, hside]
        exact hwire
    | handshake wait =>
        obtain ⟨flow, side', hstep, hsettle⟩ := poll_handshake coins p wait hpolled
        have hp' : p' = _ := congrArg Prod.snd hsettle
        rw [hp']
        generalize (p.side.framing.nextPacketLoop discard).2 = f at hready hwire hplan' hstep
        have hread : p.side.framing.Adds f := .nothing hwire
        cases hstep with
        | skipped => exact ⟨hread, Or.inr hwire⟩
        | failed => exact ⟨hread, Or.inl rfl⟩
        | gaveUp => exact ⟨hread, Or.inl rfl⟩
        | rejected => exact ⟨hread, Or.inl rfl⟩
        | unanswered _ _ hsend =>
            have hsame := sendPacket_refused hcobs hready hplan' hsend
            subst hsame
            exact ⟨hread, Or.inl rfl⟩
        | answered _ _ hsend => exact ⟨hread.trans (.packet hcobs hready hsend), Or.inl rfl⟩
  · have hp' : p' = _ := congrArg Prod.snd (poll_pending coins p call hpolled)
    rw [hp']
    exact ⟨.nothing hwire, Or.inr hwire⟩
  · rw [hpolled] at hready
    exact hready.elim

omit [Attester c A] in
/-- An action of a host whose writes do not fail writes whole frames, and nothing while a call goes on. -/
theorem step_adds (hcobs : cobs.Lawful) (hwf : p.Wf) (hplan : p.side.framing.writer.plan = [])
    (action : HostAction c proto Info) :
    p.side.framing.Adds (p.step coins action).side.framing ∧
      (p.call = none ∨ (p.step coins action).call = none ∨
        (p.step coins action).side.framing.writer.wire = p.side.framing.writer.wire) := by
  cases action with
  | arrive _ => exact ⟨.nothing rfl, Or.inr (Or.inr rfl)⟩
  | plan _ => exact ⟨.nothing rfl, Or.inr (Or.inr rfl)⟩
  | nextMessage =>
      rw [step]
      cases p.call <;> exact ⟨.nothing rfl, Or.inr (Or.inr rfl)⟩
  | handshake verifier =>
      rcases hcall : p.call with _ | call
      · exact ⟨handshake_adds hcobs hwf.framing hplan hcall verifier, Or.inl rfl⟩
      · rw [step, hcall]
        exact ⟨.nothing rfl, Or.inr (Or.inr rfl)⟩
  | sendMessage req =>
      rcases hcall : p.call with _ | call
      · refine ⟨?_, Or.inl rfl⟩
        rw [step, hcall]
        exact sendThrough_adds hcobs hwf.framing hplan (sendThrough_step proto.hostToArk _ _ req)
      · rw [step, hcall]
        exact ⟨.nothing rfl, Or.inr (Or.inr rfl)⟩
  | poll =>
      rcases hcall : p.call with _ | ⟨call, discard⟩
      · exact ⟨by rw [step, hcall]; exact .nothing rfl, Or.inl rfl⟩
      · rw [step_poll hcall]
        obtain ⟨hadds, hquiet⟩ := poll_adds hcobs (hwf.at hcall) hplan
        exact ⟨hadds, Or.inr hquiet⟩

end HostProc

/-! ### The link -/

/-- What can happen on a link whose Ark's reads may fail: what happens on a lossless one, and a read of the Ark that fails
behind what has arrived by then. -/
inductive FaultyAction (c : Crypto (List UInt8)) (proto : Protocol (List UInt8)) (Info : Type)
  | link (action : LinkAction c proto Info)
  | arkReadFails (cause : IoError)

namespace Link

/-- One action. -/
def faultyStep (arkCoins hostCoins : Nat → Coins c) (l : Link c proto A Info cobs maxFrameSize) :
    FaultyAction c proto Info → Link c proto A Info cobs maxFrameSize
  | .link action => l.step arkCoins hostCoins action
  | .arkReadFails cause => { l with ark := l.ark.step arkCoins (.arrive [.fail cause]) }

/-- A run. -/
def faultyRun (arkCoins hostCoins : Nat → Coins c) (l : Link c proto A Info cobs maxFrameSize)
    (actions : List (FaultyAction c proto Info)) : Link c proto A Info cobs maxFrameSize :=
  actions.foldl (faultyStep arkCoins hostCoins) l

variable {arkCoins hostCoins : Nat → Coins c} {hpke : Contexts c} {l l' : Link c proto A Info cobs maxFrameSize}
  {arkQueue hostQueue arkQueue' hostQueue' : List (Option (List UInt8))}

/-- The link with the same reads of the Ark to come, none of which fails. -/
def steady (l : Link c proto A Info cobs maxFrameSize) : Link c proto A Info cobs maxFrameSize :=
  { l with ark := l.ark.steady }

/-- How many of the bytes the host wrote the Ark has taken off the stream as whole frames. -/
def takenByArk (l : Link c proto A Info cobs maxFrameSize) : Nat := l.toArk - l.ark.side.framing.steady.unread.length

/-- The Ark is in a call that comes to a failing read before it has a whole frame. -/
def ReadFails (l : Link c proto A Info cobs maxFrameSize) : Prop :=
  l.ark.call ≠ none ∧ 0 ∉ l.ark.side.framing.unread ∧ l.ark.side.framing.reader.stop ≠ []

theorem step_steady {action : LinkAction c proto Info} (hpoll : action ≠ .arkPoll) :
    (l.step arkCoins hostCoins action).steady = l.steady.step arkCoins hostCoins action := by
  cases action with
  | arkPoll => exact absurd rfl hpoll
  | arkNextMessage =>
      change ({ l with ark := (l.ark.step arkCoins .nextMessage).steady } : Link c proto A Info cobs maxFrameSize) = _
      rw [ArkProc.step_steady (by simp) (by simp)]
      rfl
  | arkSendMessage res =>
      change ({ l with ark := (l.ark.step arkCoins (.sendMessage res)).steady } : Link c proto A Info cobs maxFrameSize) = _
      rw [ArkProc.step_steady (by simp) (by simp)]
      rfl
  | carryToArk count =>
      have hsteady := @ArkProc.step_steady _ _ _ _ _ _ arkCoins l.ark
        (.arrive (Reader.chunk (l.comingToArk.take count))) (by simp) (by simp)
      rw [step, step, steady, hsteady]
      rfl
  | _ => rfl

/-- What the reads of the Ark come to: its framer discards nothing, no frame on the way is too long, and what it has not
taken is part of what arrived. -/
structure Reads (l : Link c proto A Info cobs maxFrameSize) : Prop where
  discard : l.ark.discard = 0
  within : Within 0 maxFrameSize (l.ark.side.framing.steady.unread ++ l.comingToArk)
  arrived : l.ark.side.framing.steady.unread.length ≤ l.toArk

omit [Attester c A] in
theorem Reads.new (signer : c.XdsaSecretKey) (attester : A) :
    (new signer attester : Link c proto A Info cobs maxFrameSize).Reads := by
  have hunread : (Framing.new [] ⟨[], []⟩ : Framing cobs maxFrameSize).steady.unread = [] := by
    rw [steady_unread, unread, new_pending]
    rfl
  refine ⟨rfl, ?_, ?_⟩
  · change Within 0 maxFrameSize ((Framing.new [] ⟨[], []⟩ : Framing cobs maxFrameSize).steady.unread ++ [])
    rw [hunread]
    exact within_nil
  · change (Framing.new [] ⟨[], []⟩ : Framing cobs maxFrameSize).steady.unread.length ≤ 0
    rw [hunread]
    exact le_refl 0

omit [Attester c A] in
theorem Reads.ark (h : l.Reads) {p' : ArkProc c proto A cobs maxFrameSize} (hdiscard : p'.discard = 0)
    (hunread : p'.side.framing.steady.unread = l.ark.side.framing.steady.unread) :
    Reads { l with ark := p' } ∧ takenByArk { l with ark := p' } = l.takenByArk := by
  refine ⟨⟨hdiscard, ?_, ?_⟩, ?_⟩
  · dsimp only
    rw [hunread]
    exact h.within
  · dsimp only
    rw [hunread]
    exact h.arrived
  · rw [takenByArk, takenByArk]
    dsimp only
    rw [hunread]

omit [Attester c A] in
theorem Reads.host (hholds : Holds hpke arkCoins hostCoins l.steady arkQueue hostQueue) (h : l.Reads)
    {p' : HostProc c proto Info cobs maxFrameSize} (hadds : l.host.side.framing.Adds p'.side.framing) :
    Reads { l with host := p' } := by
  obtain ⟨bytes, hwire, hwithin, _⟩ := hadds
  refine ⟨h.discard, ?_, h.arrived⟩
  have htoArk : l.toArk ≤ l.host.side.framing.writer.wire.length := hholds.toArk
  have hcoming : comingToArk { l with host := p' } = l.comingToArk ++ bytes := by
    rw [comingToArk, comingToArk]
    dsimp only
    rw [hwire, List.drop_append_of_le_length htoArk]
  have hrest := hholds.arkQueue.rest
  rw [show l.steady.ark.discard = 0 from h.discard] at hrest
  rw [hcoming, ← List.append_assoc]
  exact h.within.append hrest hwithin

omit [Attester c A] in
theorem sendThrough_unread {M : Type} (hcobs : cobs.Lawful) {f : Framing cobs maxFrameSize} (hf : f.Wf)
    (codec : Codec (List UInt8) M) (session : Option (Session c)) (msg : M) :
    (sendThrough codec f session msg).2.1.steady.unread = f.steady.unread := by
  have hsame : SameReceiver f (sendThrough codec f session msg).2.1 := by
    have hstep := sendThrough_step codec f session msg
    generalize sendThrough codec f session msg = sent at hstep ⊢
    obtain ⟨result, framing', session'⟩ := sent
    dsimp only at hstep ⊢
    cases hstep with
    | lost _ _ _ hsend => exact (sendPacket_wire hcobs hf hsend).2.2
    | sent _ _ _ hsend => exact (sendPacket_wire hcobs hf hsend).2.2
    | _ => exact .refl f
  rw [steady_unread, steady_unread, hsame.unread, hsame.reader]

theorem Reads.step (hcobs : cobs.Lawful) (hholds : Holds hpke arkCoins hostCoins l.steady arkQueue hostQueue)
    (h : l.Reads) {action : LinkAction c proto Info} (hpoll : action ≠ .arkPoll) :
    (l.step arkCoins hostCoins action).Reads ∧ (l.step arkCoins hostCoins action).takenByArk = l.takenByArk := by
  have hwf := hholds.arkQueue.wf.toWf.withReader l.ark.side.framing.reader
  change l.ark.side.framing.Wf at hwf
  obtain ⟨_, _, hhost⟩ := hholds.host
  have hwrites : ∀ next, Reads { l with host := l.host.step hostCoins next } :=
    fun next => h.host hholds (HostProc.step_adds hcobs hhost.wf hholds.hostPlan next).1
  cases action with
  | arkPoll => exact absurd rfl hpoll
  | arkNextMessage =>
      have hsame := h.discard
      refine h.ark ?_ ?_
      · rw [ArkProc.step]
        rcases hcall : l.ark.call with _ | call
        · rfl
        · exact hsame
      · rw [ArkProc.step]
        cases l.ark.call <;> rfl
  | arkSendMessage res =>
      have hsame := h.discard
      refine h.ark ?_ ?_
      · rw [ArkProc.step]
        rcases hcall : l.ark.call with _ | call
        · rfl
        · exact hsame
      · rw [ArkProc.step]
        rcases l.ark.call with _ | call
        · exact sendThrough_unread hcobs hwf proto.arkToHost l.ark.side.session res
        · rfl
  | hostHandshake verifier => exact ⟨hwrites _, rfl⟩
  | hostNextMessage => exact ⟨hwrites _, rfl⟩
  | hostPoll => exact ⟨hwrites _, rfl⟩
  | hostSendMessage req => exact ⟨hwrites _, rfl⟩
  | carryToHost count =>
      have hreads := hwrites (.arrive (Reader.chunk (l.comingToHost.take count)))
      exact ⟨⟨hreads.discard, hreads.within, hreads.arrived⟩, rfl⟩
  | carryToArk count =>
      obtain ⟨hread, hsplit⟩ := carried l.host.side.framing.writer.wire hholds.toArk count
      have hunread : (l.ark.side.framing.arrive (Reader.chunk (l.comingToArk.take count))).steady.unread =
          l.ark.side.framing.steady.unread ++ l.comingToArk.take count := by
        rw [arrive_steady]
        exact (arrive_unread hholds.arkQueue.stop _).1
      have harrived := h.arrived
      refine ⟨⟨h.discard, ?_, ?_⟩, ?_⟩
      · change Within 0 maxFrameSize ((l.ark.side.framing.arrive (Reader.chunk (l.comingToArk.take count))).steady.unread ++
          l.host.side.framing.writer.wire.drop (l.toArk + (l.comingToArk.take count).length))
        rw [hunread, List.append_assoc]
        have hwithin := h.within
        rw [comingToArk] at hwithin ⊢
        rwa [show l.host.side.framing.writer.wire.drop l.toArk = _ from hsplit] at hwithin
      · change (l.ark.side.framing.arrive (Reader.chunk (l.comingToArk.take count))).steady.unread.length ≤
          l.toArk + (l.comingToArk.take count).length
        rw [hunread, List.length_append]
        omega
      · change l.toArk + (l.comingToArk.take count).length -
          (l.ark.side.framing.arrive (Reader.chunk (l.comingToArk.take count))).steady.unread.length = _
        rw [hunread, List.length_append, takenByArk]
        omega

/-- A link with these queues in front of its sides when the failures are taken out of the Ark's reads. -/
structure Fed (hpke : Contexts c) (arkCoins hostCoins : Nat → Coins c) (l : Link c proto A Info cobs maxFrameSize)
    (arkQueue hostQueue : List (Option (List UInt8))) : Prop where
  holds : Holds hpke arkCoins hostCoins l.steady arkQueue hostQueue
  reads : l.Reads

omit [Attester c A] in
theorem new_fed (arkCoins hostCoins : Nat → Coins c) (signer : c.XdsaSecretKey) (attester : A) :
    Fed hpke arkCoins hostCoins (new signer attester : Link c proto A Info cobs maxFrameSize) [] [] :=
  ⟨new_holds arkCoins hostCoins signer attester, .new signer attester⟩

omit [Attester c A] in
theorem Fed.line (h : Fed hpke arkCoins hostCoins l arkQueue hostQueue) :
    l.ark.side.framing.Line l.comingToArk arkQueue := by
  have hqueue := h.holds.arkQueue
  rw [show l.steady.ark.discard = 0 from h.reads.discard] at hqueue
  exact ⟨hqueue, h.reads.within⟩

omit [Attester c A] in
theorem Fed.arkMoved (h : Fed hpke arkCoins hostCoins l arkQueue hostQueue) {p' : ArkProc c proto A cobs maxFrameSize}
    (hark : ∃ e, Endpoint.Inv cobs maxFrameSize hpke (arkRole arkCoins) proto.hostToArk e ∧ p'.Abstracts arkCoins e)
    (hdiscard : p'.discard = 0) (hline : p'.side.framing.Line l.comingToArk arkQueue')
    (hleft : p'.side.framing.steady.unread.length ≤ l.ark.side.framing.steady.unread.length)
    {sent : List (Option (List UInt8))} (hwrote : Wrote l.ark.side.framing p'.side.framing sent) :
    Fed hpke arkCoins hostCoins { l with ark := p' } arkQueue' (hostQueue ++ sent) := by
  obtain ⟨e, hinv, habstracts⟩ := hark
  refine ⟨?_, hdiscard, hline.within, le_trans hleft h.reads.arrived⟩
  have hqueue := hline.queue
  rw [← hdiscard] at hqueue
  have hsteady : ∃ e, Endpoint.Inv cobs maxFrameSize hpke (arkRole arkCoins) proto.hostToArk e ∧
      p'.steady.Abstracts arkCoins e := ⟨e, hinv, habstracts.steady⟩
  exact h.holds.ark_moved hsteady hqueue ⟨hwrote.bytes, hwrote.plan⟩

/-- What a failed read does to a link: the call of the Ark ends where it waits. -/
structure Failed (l l' : Link c proto A Info cobs maxFrameSize) : Prop where
  ark : l.ark.Left l'.ark l.ark.side.session none l.ark.history
  host : l'.host = l.host

theorem Fed.ark_step (hcobs : cobs.Lawful) (h : Fed hpke arkCoins hostCoins l arkQueue hostQueue)
    (action : ArkAction proto) : ∃ e, Endpoint.Inv cobs maxFrameSize hpke (arkRole arkCoins) proto.hostToArk e ∧
      (l.ark.step arkCoins action).Abstracts arkCoins e := by
  obtain ⟨e, hinv, habstracts⟩ := h.holds.ark
  obtain ⟨e', hstep, habstracts'⟩ := ArkProc.step_abstracts hcobs habstracts.of_steady action
  exact ⟨e', hinv.step hstep, habstracts'⟩

theorem Fed.fails (hcobs : cobs.Lawful) (h : Fed hpke arkCoins hostCoins l arkQueue hostQueue) (hfails : l.ReadFails) :
    let l' := l.step arkCoins hostCoins .arkPoll
    Failed l.steady l'.steady ∧ Fed hpke arkCoins hostCoins l' arkQueue hostQueue ∧ l'.takenByArk = l.takenByArk := by
  intro l'
  obtain ⟨hcall, hclean, hstop⟩ := hfails
  obtain ⟨⟨point, discard⟩, hcall⟩ := Option.ne_none_iff_exists'.mp hcall
  obtain rfl : discard = 0 := by
    have hdiscard := h.reads.discard
    rw [ArkProc.discard, hcall] at hdiscard
    exact hdiscard
  have hnext := h.ark_step hcobs .poll
  obtain ⟨hwriter, ⟨hnone, _⟩ | ⟨_, _, ⟨cause, hpacket⟩, hline, hunread⟩ | ⟨hmem, _⟩⟩ := h.line.poll
  · exact absurd hnone hstop
  swap
  · exact absurd hmem hclean
  have hstep : l.ark.step arkCoins .poll = _ := ArkProc.step_failed hcall hpacket
  have hl' : l' = { l with ark := l.ark.step arkCoins .poll } := rfl
  rw [hstep] at hnext hl'
  rw [hl', ← List.append_nil hostQueue]
  refine ⟨⟨⟨rfl, rfl, rfl, rfl⟩, rfl⟩, h.arkMoved hnext rfl hline ?_ ?_, (h.reads.ark rfl hunread).2⟩
  · exact le_of_eq (congrArg List.length hunread)
  · exact .nothing hwriter h.holds.arkPlan

/-- The link went on as it would have without the failures, and the Ark has taken as much off its stream as before or a
packet more. -/
def Fares (hpke : Contexts c) (arkCoins hostCoins : Nat → Coins c) (l l' : Link c proto A Info cobs maxFrameSize)
    (arkQueue hostQueue : List (Option (List UInt8))) : Prop :=
  ∃ arkQueue' hostQueue', Moved arkCoins hostCoins l.steady l'.steady arkQueue hostQueue arkQueue' hostQueue' ∧
    Fed hpke arkCoins hostCoins l' arkQueue' hostQueue' ∧
    (l'.takenByArk = l.takenByArk ∨ l.takenByArk ≤ l'.takenByArk ∧ ∃ packet, arkQueue = packet :: arkQueue')

theorem Fed.stays (h : Fed hpke arkCoins hostCoins l arkQueue hostQueue) (hsame : l' = l) :
    Fares hpke arkCoins hostCoins l l' arkQueue hostQueue := by
  subst hsame
  exact ⟨arkQueue, hostQueue, .ark (Or.inl rfl) ⟨rfl, rfl, rfl, rfl⟩ rfl, h, Or.inl rfl⟩

theorem Fed.polls (hcobs : cobs.Lawful) (h : Fed hpke arkCoins hostCoins l arkQueue hostQueue) (hfails : ¬ l.ReadFails) :
    Fares hpke arkCoins hostCoins l (l.step arkCoins hostCoins .arkPoll) arkQueue hostQueue := by
  rcases hcall : l.ark.call with _ | ⟨point, discard⟩
  · exact h.stays (by rw [step, ArkProc.step, hcall])
  obtain rfl : discard = 0 := by
    have hdiscard := h.reads.discard
    rw [ArkProc.discard, hcall] at hdiscard
    exact hdiscard
  have hpoint : l.steady.ark.call.map Prod.fst = some point := by
    rw [show l.steady.ark.call = some (point, 0) from hcall]
    rfl
  have hnext := h.ark_step hcobs .poll
  obtain ⟨hwriter, ⟨_, hpacket, hline, hunread⟩ | ⟨hclean, hstop, _⟩ | ⟨_, packet, rest, hpacket, hqueue, hline, hleft⟩⟩ :=
    h.line.poll
  · have hstep : l.ark.step arkCoins .poll = { l.ark with
        side := { l.ark.side with framing := (l.ark.side.framing.nextPacketLoop 0).2 }
        call := some (point, 0) } := by
      rw [ArkProc.step_poll hcall, ArkProc.poll_pending arkCoins l.ark point hpacket]
    rw [hstep] at hnext
    rw [step, hstep]
    have hfed := h.arkMoved hnext rfl hline (le_of_eq (congrArg List.length hunread)) (.nothing hwriter h.holds.arkPlan)
    rw [List.append_nil] at hfed
    exact ⟨arkQueue, hostQueue, .ark (Or.inl hpoint) ⟨rfl, rfl, rfl, rfl⟩ rfl, hfed, Or.inl (h.reads.ark rfl hunread).2⟩
  · exact absurd ⟨by rw [hcall]; simp, hclean, hstop⟩ hfails
  · obtain ⟨e, _, habstracts⟩ := h.holds.ark
    obtain ⟨sent, hpolled, hdiscard, hwf, hsame, hwrote⟩ :=
      ArkProc.poll_taken hcobs habstracts.of_steady h.holds.arkPlan hcall hpacket hwriter hline.wf
    have hunread : (l.ark.step arkCoins .poll).side.framing.steady.unread =
        (l.ark.side.framing.nextPacketLoop 0).2.steady.unread := by
      rw [steady_unread, steady_unread, hsame.unread, hsame.reader]
    have hstop : (l.ark.step arkCoins .poll).side.framing.steady.reader.stop = [] := by
      change Reader.stop (withoutFailures (l.ark.step arkCoins .poll).side.framing.reader) = []
      rw [hsame.reader]
      exact hline.queue.stop
    rw [← hunread] at hleft
    rw [hqueue]
    exact ⟨rest, hostQueue ++ sent, .arkPolled hpoint hpolled.steady rfl,
      h.arkMoved hnext hdiscard (hline.of_unread hwf hunread hstop) hleft hwrote,
      Or.inr ⟨Nat.sub_le_sub_left hleft l.toArk, packet, rfl⟩⟩

theorem readFails_steady (l : Link c proto A Info cobs maxFrameSize) (cause : IoError) :
    (l.faultyStep arkCoins hostCoins (.arkReadFails cause)).steady = l.steady := by
  have hreads : withoutFailures (l.ark.side.framing.reader ++ [.fail cause]) = withoutFailures l.ark.side.framing.reader := by
    simp [withoutFailures]
  change ({ l with ark := { l.ark with side := { l.ark.side with framing := { l.ark.side.framing with
    reader := withoutFailures (l.ark.side.framing.reader ++ [.fail cause]) } } } } : Link c proto A Info cobs maxFrameSize) = _
  rw [hreads]
  rfl

theorem hostHandshake_busy (arkCoins hostCoins : Nat → Coins c) (hbusy : l.host.call ≠ none) (verifier : Verifier c Info) :
    l.step arkCoins hostCoins (.hostHandshake verifier) = l := by
  obtain ⟨call, hcall⟩ := Option.ne_none_iff_exists'.mp hbusy
  rw [step, HostProc.step, hcall]

section

variable {bound : Nat} (hlink : Assumed hpke proto cobs maxFrameSize hostCoins bound)
include hlink

theorem Fed.started (h : Fed hpke arkCoins hostCoins l arkQueue hostQueue) (hcall : l.host.call = none)
    (verifier : Verifier c Info) :
    ∃ arkQueue', Started hostCoins l.steady (l.step arkCoins hostCoins (.hostHandshake verifier)).steady arkQueue arkQueue' ∧
      Fed hpke arkCoins hostCoins (l.step arkCoins hostCoins (.hostHandshake verifier)) arkQueue' hostQueue := by
  have hsteady : (l.step arkCoins hostCoins (.hostHandshake verifier)).steady =
      l.steady.step arkCoins hostCoins (.hostHandshake verifier) := step_steady (by simp)
  obtain ⟨arkQueue', hstarted, hholds⟩ := h.holds.hostStarted hlink.lawful hcall verifier
  rw [← hsteady] at hstarted hholds
  exact ⟨arkQueue', hstarted, hholds, (h.reads.step hlink.lawful h.holds (by simp)).1⟩

/-- Every action but a failing read and a new `handshake` moves the link as it would without the failures. -/
theorem Fed.goes (h : Fed hpke arkCoins hostCoins l arkQueue hostQueue) {action : FaultyAction c proto Info}
    (hfails : action = .link .arkPoll → ¬ l.ReadFails)
    (hcalls : ∀ verifier, action = .link (.hostHandshake verifier) → l.host.call ≠ none) :
    Fares hpke arkCoins hostCoins l (l.faultyStep arkCoins hostCoins action) arkQueue hostQueue := by
  cases action with
  | arkReadFails cause =>
      have hsteady : (l.faultyStep arkCoins hostCoins (.arkReadFails cause)).steady = l.steady := readFails_steady l cause
      obtain ⟨hreads, htaken⟩ : (l.faultyStep arkCoins hostCoins (.arkReadFails cause)).Reads ∧
          (l.faultyStep arkCoins hostCoins (.arkReadFails cause)).takenByArk = l.takenByArk :=
        h.reads.ark h.reads.discard (congrArg (fun link => link.ark.side.framing.unread) hsteady)
      refine ⟨arkQueue, hostQueue, ?_, ⟨?_, hreads⟩, Or.inl htaken⟩
      · rw [hsteady]
        exact .ark (Or.inl rfl) ⟨rfl, rfl, rfl, rfl⟩ rfl
      · rw [hsteady]
        exact h.holds
  | link action =>
      by_cases hpoll : action = .arkPoll
      · subst hpoll
        exact h.polls hlink.lawful (hfails rfl)
      obtain ⟨hreads, htaken⟩ := h.reads.step hlink.lawful h.holds hpoll
      obtain ⟨arkQueue', hostQueue', hmoved | ⟨⟨verifier, rfl⟩, _⟩, hholds⟩ := hlink.goes h.holds action
      · rw [← step_steady hpoll] at hmoved hholds
        exact ⟨arkQueue', hostQueue', hmoved, ⟨hholds, hreads⟩, Or.inl htaken⟩
      · exact h.stays (hostHandshake_busy arkCoins hostCoins (hcalls verifier rfl) verifier)

/-- What an action other than a new `handshake` does: a failing read ends the call of the Ark and leaves both queues, and
anything else is an action of the link without the failures. -/
theorem Fed.acts (h : Fed hpke arkCoins hostCoins l arkQueue hostQueue) {action : FaultyAction c proto Info}
    (hcalls : ∀ verifier, action = .link (.hostHandshake verifier) → l.host.call ≠ none) :
    let l' := l.faultyStep arkCoins hostCoins action
    (action = .link .arkPoll ∧ l.ReadFails ∧ Failed l.steady l'.steady ∧
        Fed hpke arkCoins hostCoins l' arkQueue hostQueue ∧ l'.takenByArk = l.takenByArk) ∨
      ¬ (action = .link .arkPoll ∧ l.ReadFails) ∧ Fares hpke arkCoins hostCoins l l' arkQueue hostQueue := by
  intro l'
  by_cases hfails : action = .link .arkPoll ∧ l.ReadFails
  · obtain ⟨rfl, hfails⟩ := hfails
    exact Or.inl ⟨rfl, hfails, h.fails hlink.lawful hfails⟩
  · exact Or.inr ⟨hfails, h.goes hlink (fun hpoll hread => hfails ⟨hpoll, hread⟩) hcalls⟩

theorem Fed.written (h : Fed hpke arkCoins hostCoins l arkQueue hostQueue) (action : FaultyAction c proto Info) :
    let l' := l.faultyStep arkCoins hostCoins action
    l.host.call = none ∨ l'.host.call = none ∨
      l'.host.side.framing.writer.wire = l.host.side.framing.writer.wire := by
  intro l'
  obtain ⟨_, _, hhost⟩ := h.holds.host
  have hwrites : ∀ next, l.host.call = none ∨ (l.host.step hostCoins next).call = none ∨
      (l.host.step hostCoins next).side.framing.writer.wire = l.host.side.framing.writer.wire :=
    fun next => (HostProc.step_adds hlink.lawful hhost.wf h.holds.hostPlan next).2
  cases action with
  | arkReadFails cause => exact Or.inr (Or.inr rfl)
  | link action =>
      cases action with
      | hostHandshake verifier => exact hwrites _
      | hostNextMessage => exact hwrites _
      | hostPoll => exact hwrites _
      | hostSendMessage req => exact hwrites _
      | carryToHost count => exact hwrites _
      | _ => exact Or.inr (Or.inr rfl)

end

end Link

end DarkbioWire
