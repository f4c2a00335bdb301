import DarkbioWire.Steps
import DarkbioWire.Framing.Spec

/-!
# Processes

The two sides running over byte streams. A process is a side together with the call it is in, if that call is waiting for
the reader, and the history of what went through its sessions, which nothing of the code reads. The environment and the
caller act on it: bytes arrive, the writer's answers are decided, methods are called, and a waiting call is polled, which
runs it through one `next_packet`. A run is any list of such actions.
-/

namespace DarkbioWire

/-! ### Histories -/

/-- The life of one session: what it started from and what was opened and sealed in it, oldest first. -/
structure Epoch (c : Crypto (List UInt8)) where
  session : Session c
  /-- What had been written when the session was established. -/
  wire : List UInt8
  /-- The receiver before it opened a packet, the packet and the payload. -/
  opened : List (c.Receiver × List UInt8 × List UInt8)
  /-- The sender before it sealed a payload, the payload and the packet. -/
  sealed : List (c.Sender × List UInt8 × List UInt8)

/-- What happened in the sessions of a process, newest first, and the results its `next_message` calls delivered. -/
structure History (c : Crypto (List UInt8)) (Msg : Type) where
  epochs : List (Epoch c)
  delivered : List (Except Error Msg)

variable {c : Crypto (List UInt8)} {Msg : Type}

/-- A result of `next_message` that reports a message: the message, or that what was opened does not decode. -/
def reports : Except Error Msg → Bool
  | .ok _ => true
  | .error (.packetDecodingFailed _) => true
  | .error _ => false

namespace History

def empty : History c Msg := { epochs := [], delivered := [] }

/-- Changes the newest epoch. -/
def inEpoch (history : History c Msg) (change : Epoch c → Epoch c) : History c Msg :=
  { history with epochs := history.epochs.modifyHead change }

/-- Notes what `next_message` opens when the session is given this packet. -/
def noteOpen (history : History c Msg) (session : Option (Session c)) (packet : Except Error (Option (List UInt8))) :
    History c Msg :=
  match session, packet with
  | some session, .ok (some packet) =>
    match c.receiverOpen session.receiver packet with
    | (.ok payload, _) =>
      history.inEpoch fun epoch => { epoch with opened := epoch.opened ++ [(session.receiver, packet, payload)] }
    | (.error _, _) => history
  | _, _ => history

/-- Notes what `send_message` seals when it is given this message. -/
def noteSeal {M : Type} (history : History c Msg) (limit : Nat) (codec : Codec (List UInt8) M)
    (session : Option (Session c)) (msg : M) : History c Msg :=
  match session with
  | none => history
  | some session =>
    match codec.encode msg, session.seal limit codec msg with
    | .ok payload, (.ok packet, _) =>
      history.inEpoch fun epoch => { epoch with sealed := epoch.sealed ++ [(session.sender, payload, packet)] }
    | _, _ => history

/-- Notes that a session was established. -/
def noteSession (history : History c Msg) (before after : Option (Session c)) (wire : List UInt8) : History c Msg :=
  match before, after with
  | none, some session => { history with epochs := { session, wire, opened := [], sealed := [] } :: history.epochs }
  | _, _ => history

/-- Notes what `next_message` returned. -/
def noteResult (history : History c Msg) (result : Except Error Msg) : History c Msg :=
  if reports result then { history with delivered := history.delivered ++ [result] } else history

@[simp] theorem noteOpen_none (history : History c Msg) (packet : Except Error (Option (List UInt8))) :
    history.noteOpen none packet = history := rfl

@[simp] theorem noteOpen_error (history : History c Msg) (session : Option (Session c)) (err : Error) :
    history.noteOpen session (.error err) = history := by
  cases session <;> rfl

@[simp] theorem noteOpen_reset (history : History c Msg) (session : Option (Session c)) :
    history.noteOpen session (.ok none) = history := by
  cases session <;> rfl

@[simp] theorem noteSession_none (history : History c Msg) (before : Option (Session c)) (wire : List UInt8) :
    history.noteSession before none wire = history := by
  cases before <;> rfl

@[simp] theorem noteSession_some (history : History c Msg) (session session' : Session c) (wire : List UInt8) :
    history.noteSession (some session) (some session') wire = history := rfl

end History

variable {cobs : Cobs} {maxFrameSize : Nat}

/-- The framer with more reads to come. -/
def Framing.arrive (f : Framing cobs maxFrameSize) (reads : List ReadEvent) : Framing cobs maxFrameSize :=
  { f with reader := f.reader ++ reads }

/-- The framer with more answers of its writer decided. -/
def Framing.plan (f : Framing cobs maxFrameSize) (answers : List WriteEvent) : Framing cobs maxFrameSize :=
  { f with writer := { f.writer with plan := f.writer.plan ++ answers } }

theorem Framing.arrive_unread {f : Framing cobs maxFrameSize} (hstop : f.reader.stop = []) (bytes : List UInt8) :
    (f.arrive (Reader.chunk bytes)).unread = f.unread ++ bytes ∧ (f.arrive (Reader.chunk bytes)).reader.stop = [] := by
  obtain ⟨hbytes, hrest⟩ := Reader.bytes_append hstop (Reader.chunk bytes)
  rw [Reader.bytes_chunk] at hbytes
  rw [Reader.stop_chunk] at hrest
  refine ⟨?_, hrest⟩
  change f.pending ++ (f.reader ++ Reader.chunk bytes).bytes = f.pending ++ f.reader.bytes ++ bytes
  rw [hbytes, List.append_assoc]

theorem Framing.Wf.arrive {f : Framing cobs maxFrameSize} (hf : f.Wf) (reads : List ReadEvent) :
    (f.arrive reads).Wf :=
  ⟨hf.offset_le, hf.search_le, hf.filled_le, hf.reader_length, hf.scanned, hf.decobs_length, hf.encobs_length⟩

theorem Framing.Wf.plan {f : Framing cobs maxFrameSize} (hf : f.Wf) (answers : List WriteEvent) :
    (f.plan answers).Wf :=
  ⟨hf.offset_le, hf.search_le, hf.filled_le, hf.reader_length, hf.scanned, hf.decobs_length, hf.encobs_length⟩

theorem Framing.WfAt.arrive {f : Framing cobs maxFrameSize} {discard : Nat} (hf : f.WfAt discard)
    (reads : List ReadEvent) : (f.arrive reads).WfAt discard := ⟨hf.toWf.arrive reads, hf.discarding⟩

theorem Framing.WfAt.plan {f : Framing cobs maxFrameSize} {discard : Nat} (hf : f.WfAt discard)
    (answers : List WriteEvent) : (f.plan answers).WfAt discard := ⟨hf.toWf.plan answers, hf.discarding⟩

/-! ### The Ark's process -/

/-- An Ark side over a byte stream. -/
structure ArkProc (c : Crypto (List UInt8)) (proto : Protocol (List UInt8)) (A : Type) (cobs : Cobs)
    (maxFrameSize : Nat) where
  side : ArkSide c A (Framing cobs maxFrameSize)
  /-- The call of `next_message` under way: where it waits, with the discard counter of its `next_frame`. -/
  call : Option (MessagePoint c × Nat)
  history : History c proto.HostToArk

/-- What can happen to an Ark. -/
inductive ArkAction (proto : Protocol (List UInt8))
  | arrive (reads : List ReadEvent)
  | plan (answers : List WriteEvent)
  | nextMessage
  | poll
  | sendMessage (res : proto.ArkToHost)

namespace ArkProc

variable {proto : Protocol (List UInt8)} {A : Type} [Attester c A]

/-- An Ark side just created. -/
def new (reader : Reader) (writer : Writer) (signer : c.XdsaSecretKey) (attester : A) :
    ArkProc c proto A cobs maxFrameSize where
  side := .new (.new reader writer) signer attester
  call := none
  history := .empty

/-- The discard counter of the framer, zero outside of calls. -/
def discard (p : ArkProc c proto A cobs maxFrameSize) : Nat :=
  match p.call with
  | none => 0
  | some (_, discard) => discard

/-- The call waits for another `next_packet`, or returns. -/
def settle (history : History c proto.HostToArk) (before : Option (Session c)) :
    Flow (MessagePoint c) proto.HostToArk × ArkSide c A (Framing cobs maxFrameSize) →
      Option (Except Error proto.HostToArk) × ArkProc c proto A cobs maxFrameSize
  | (.wait point, side) =>
    (none, { side, call := some (point, 0), history := history.noteSession before side.session side.framing.writer.wire })
  | (.done result, side) => (some result, { side, call := none, history := history.noteResult result })

/-- What the call opens when it is given this packet. -/
def noteOpen (history : History c proto.HostToArk) (session : Option (Session c)) (point : MessagePoint c)
    (packet : Except Error (Option (List UInt8))) : History c proto.HostToArk :=
  match point with
  | .packet => history.noteOpen session packet
  | .handshake _ => history

/-- The waiting call goes through one `next_packet`. -/
def poll (coins : Nat → Coins c) (p : ArkProc c proto A cobs maxFrameSize) (point : MessagePoint c) (discard : Nat) :
    Option (Except Error proto.HostToArk) × ArkProc c proto A cobs maxFrameSize :=
  let received := p.side.framing.nextPacketLoop discard
  let side := { p.side with framing := received.2 }
  match Framing.packetOf received with
  | .panic => (none, p)
  | .pending discard => (none, { p with side, call := some (point, discard) })
  | .ready packet =>
    settle (noteOpen p.history side.session point packet) side.session
      (side.nextMessageStep proto (coins side.draws) point packet)

/-- One action. A method is only called while no call is under way. -/
def step (coins : Nat → Coins c) (p : ArkProc c proto A cobs maxFrameSize) :
    ArkAction proto → ArkProc c proto A cobs maxFrameSize
  | .arrive reads => { p with side := { p.side with framing := p.side.framing.arrive reads } }
  | .plan answers => { p with side := { p.side with framing := p.side.framing.plan answers } }
  | .nextMessage =>
    match p.call with
    | none => { p with call := some (.packet, 0) }
    | some _ => p
  | .poll =>
    match p.call with
    | none => p
    | some (point, discard) => (p.poll coins point discard).2
  | .sendMessage res =>
    match p.call with
    | none =>
      { p with
        side := (p.side.sendMessage proto res).2
        history := p.history.noteSeal (maxMessageSize cobs maxFrameSize) proto.arkToHost p.side.session res }
    | some _ => p

/-- A run. -/
def run (coins : Nat → Coins c) (p : ArkProc c proto A cobs maxFrameSize) (actions : List (ArkAction proto)) :
    ArkProc c proto A cobs maxFrameSize := actions.foldl (step coins) p

@[simp] theorem run_nil (coins : Nat → Coins c) (p : ArkProc c proto A cobs maxFrameSize) : p.run coins [] = p := rfl

@[simp] theorem run_cons (coins : Nat → Coins c) (p : ArkProc c proto A cobs maxFrameSize) (action : ArkAction proto)
    (actions : List (ArkAction proto)) : p.run coins (action :: actions) = (p.step coins action).run coins actions := rfl

variable {p : ArkProc c proto A cobs maxFrameSize} {point : MessagePoint c} {discard : Nat}

theorem step_poll {coins : Nat → Coins c} (hcall : p.call = some (point, discard)) :
    p.step coins .poll = (p.poll coins point discard).2 := by
  rw [step, hcall]

omit [Attester c A] in
theorem settle_side (history : History c proto.HostToArk) (before : Option (Session c))
    (outcome : Flow (MessagePoint c) proto.HostToArk × ArkSide c A (Framing cobs maxFrameSize)) :
    (settle history before outcome).2.side = outcome.2 := by
  obtain ⟨flow | result, side⟩ := outcome <;> rfl

/-- A poll with the result of a `next_packet` at hand settles what the side does with it. -/
theorem poll_ready (coins : Nat → Coins c) (p : ArkProc c proto A cobs maxFrameSize) (point : MessagePoint c)
    {packet : Except Error (Option (List UInt8))}
    (hready : Framing.packetOf (p.side.framing.nextPacketLoop discard) = .ready packet) :
    ∃ flow side, ArkSide.Step proto (coins p.side.draws)
        ({ p.side with framing := (p.side.framing.nextPacketLoop discard).2 } : ArkSide c A (Framing cobs maxFrameSize))
        point packet flow side ∧
      p.poll coins point discard =
        settle (noteOpen p.history p.side.session point packet) p.side.session (flow, side) := by
  refine ⟨_, _, ArkSide.nextMessageStep_step proto _ _ point packet, ?_⟩
  rw [poll]
  dsimp only
  rw [hready]

theorem poll_pending (coins : Nat → Coins c) (p : ArkProc c proto A cobs maxFrameSize) (point : MessagePoint c)
    {discard' : Nat} (hpending : Framing.packetOf (p.side.framing.nextPacketLoop discard) = .pending discard') :
    p.poll coins point discard =
      (none, { p with
        side := { p.side with framing := (p.side.framing.nextPacketLoop discard).2 }
        call := some (point, discard') }) := by
  rw [poll]
  dsimp only
  rw [hpending]

/-- A poll without a result of `next_packet` changes at most the framer and returns nothing. -/
theorem poll_waits (coins : Nat → Coins c) (p : ArkProc c proto A cobs maxFrameSize) (point : MessagePoint c)
    (hwaits : ∀ packet, Framing.packetOf (p.side.framing.nextPacketLoop discard) ≠ .ready packet) :
    (p.poll coins point discard).1 = none ∧ (p.poll coins point discard).2.history = p.history ∧
      ∃ framing, (p.poll coins point discard).2.side = { p.side with framing } := by
  rw [poll]
  dsimp only
  rcases hpolled : Framing.packetOf (p.side.framing.nextPacketLoop discard) with packet | discard' | _
  · exact absurd hpolled (hwaits packet)
  · exact ⟨rfl, rfl, _, rfl⟩
  · exact ⟨rfl, rfl, p.side.framing, rfl⟩

end ArkProc

/-! ### The host's process -/

/-- The calls of the host that wait for the reader. -/
inductive HostCall (c : Crypto (List UInt8)) (Info : Type)
  | handshake (wait : HelloWait c Info)
  | nextMessage

/-- A host side over a byte stream. -/
structure HostProc (c : Crypto (List UInt8)) (proto : Protocol (List UInt8)) (Info : Type) (cobs : Cobs)
    (maxFrameSize : Nat) where
  side : HostSide c (Framing cobs maxFrameSize)
  /-- The call under way, with the discard counter of its `next_frame`. -/
  call : Option (HostCall c Info × Nat)
  history : History c proto.ArkToHost

/-- What can happen to a host. -/
inductive HostAction (c : Crypto (List UInt8)) (proto : Protocol (List UInt8)) (Info : Type)
  | arrive (reads : List ReadEvent)
  | plan (answers : List WriteEvent)
  | handshake (verifier : Verifier c Info)
  | nextMessage
  | poll
  | sendMessage (req : proto.HostToArk)

namespace HostProc

variable {proto : Protocol (List UInt8)} {Info : Type}

/-- A host side just created. -/
def new (reader : Reader) (writer : Writer) : HostProc c proto Info cobs maxFrameSize where
  side := .new (.new reader writer)
  call := none
  history := .empty

/-- The discard counter of the framer, zero outside of calls. -/
def discard (p : HostProc c proto Info cobs maxFrameSize) : Nat :=
  match p.call with
  | none => 0
  | some (_, discard) => discard

/-- What a waiting call returned. -/
inductive Returned (proto : Protocol (List UInt8)) (Info : Type)
  | handshake (result : Except Error Info)
  | nextMessage (result : Except Error proto.ArkToHost)

/-- `handshake` waits for another `next_packet`, or returns. -/
def settleHandshake (history : History c proto.ArkToHost) (before : Option (Session c)) :
    Flow (HelloWait c Info) Info × HostSide c (Framing cobs maxFrameSize) →
      Option (Returned proto Info) × HostProc c proto Info cobs maxFrameSize
  | (.wait wait, side) => (none, { side, call := some (.handshake wait, 0), history })
  | (.done result, side) =>
    (some (.handshake result),
      { side, call := none, history := history.noteSession before side.session side.framing.writer.wire })

/-- `next_message` returns. -/
def settleMessage (history : History c proto.ArkToHost) :
    Except Error proto.ArkToHost × HostSide c (Framing cobs maxFrameSize) →
      Option (Returned proto Info) × HostProc c proto Info cobs maxFrameSize
  | (result, side) => (some (.nextMessage result), { side, call := none, history := history.noteResult result })

/-- The waiting call goes through one `next_packet`. -/
def poll (coins : Nat → Coins c) (p : HostProc c proto Info cobs maxFrameSize) (call : HostCall c Info)
    (discard : Nat) : Option (Returned proto Info) × HostProc c proto Info cobs maxFrameSize :=
  let received := p.side.framing.nextPacketLoop discard
  let side := { p.side with framing := received.2 }
  match Framing.packetOf received with
  | .panic => (none, p)
  | .pending discard => (none, { p with side, call := some (call, discard) })
  | .ready packet =>
    match call with
    | .handshake wait =>
      settleHandshake p.history side.session (side.handshakeStep (coins side.draws) wait packet)
    | .nextMessage => settleMessage (p.history.noteOpen side.session packet) (side.nextMessageStep proto packet)

/-- One action. A method is only called while no call is under way. -/
def step (coins : Nat → Coins c) (p : HostProc c proto Info cobs maxFrameSize) :
    HostAction c proto Info → HostProc c proto Info cobs maxFrameSize
  | .arrive reads => { p with side := { p.side with framing := p.side.framing.arrive reads } }
  | .plan answers => { p with side := { p.side with framing := p.side.framing.plan answers } }
  | .handshake verifier =>
    match p.call with
    | none =>
      match p.side.handshakeStart (coins p.side.draws) verifier with
      | (.ok wait, side) => { p with side, call := some (.handshake wait, 0) }
      | (.error _, side) => { p with side }
    | some _ => p
  | .nextMessage =>
    match p.call with
    | none => { p with call := some (.nextMessage, 0) }
    | some _ => p
  | .poll =>
    match p.call with
    | none => p
    | some (call, discard) => (p.poll coins call discard).2
  | .sendMessage req =>
    match p.call with
    | none =>
      { p with
        side := (p.side.sendMessage proto req).2
        history := p.history.noteSeal (maxMessageSize cobs maxFrameSize) proto.hostToArk p.side.session req }
    | some _ => p

/-- A run. -/
def run (coins : Nat → Coins c) (p : HostProc c proto Info cobs maxFrameSize)
    (actions : List (HostAction c proto Info)) : HostProc c proto Info cobs maxFrameSize := actions.foldl (step coins) p

variable {p : HostProc c proto Info cobs maxFrameSize} {call : HostCall c Info} {discard : Nat}

theorem step_poll {coins : Nat → Coins c} (hcall : p.call = some (call, discard)) :
    p.step coins .poll = (p.poll coins call discard).2 := by
  rw [step, hcall]

theorem step_handshake (coins : Nat → Coins c) (hcall : p.call = none) (verifier : Verifier c Info) :
    ∃ result side, HostSide.StartStep (coins p.side.draws) p.side verifier result side ∧
      p.step coins (.handshake verifier) =
        { p with side, call := result.toOption.map fun wait => (.handshake wait, 0) } := by
  refine ⟨_, _, HostSide.handshakeStart_step _ _ verifier, ?_⟩
  rw [step, hcall]
  dsimp only
  rcases p.side.handshakeStart (coins p.side.draws) verifier with ⟨_ | _, _⟩ <;> rfl

theorem poll_handshake (coins : Nat → Coins c) (p : HostProc c proto Info cobs maxFrameSize) (wait : HelloWait c Info)
    {packet : Except Error (Option (List UInt8))}
    (hready : Framing.packetOf (p.side.framing.nextPacketLoop discard) = .ready packet) :
    ∃ flow side, HostSide.HandshakeStep (coins p.side.draws)
        ({ p.side with framing := (p.side.framing.nextPacketLoop discard).2 } : HostSide c (Framing cobs maxFrameSize))
        wait packet flow side ∧
      p.poll coins (.handshake wait) discard = settleHandshake p.history p.side.session (flow, side) := by
  refine ⟨_, _, HostSide.handshakeStep_step _ _ wait packet, ?_⟩
  rw [poll]
  dsimp only
  rw [hready]

theorem poll_message (coins : Nat → Coins c) (p : HostProc c proto Info cobs maxFrameSize)
    {packet : Except Error (Option (List UInt8))}
    (hready : Framing.packetOf (p.side.framing.nextPacketLoop discard) = .ready packet) :
    ∃ result side, HostSide.MessageStep proto
        ({ p.side with framing := (p.side.framing.nextPacketLoop discard).2 } : HostSide c (Framing cobs maxFrameSize))
        packet result side ∧
      p.poll coins .nextMessage discard = settleMessage (p.history.noteOpen p.side.session packet) (result, side) := by
  refine ⟨_, _, HostSide.nextMessageStep_step proto _ packet, ?_⟩
  rw [poll]
  dsimp only
  rw [hready]

theorem poll_pending (coins : Nat → Coins c) (p : HostProc c proto Info cobs maxFrameSize) (call : HostCall c Info)
    {discard' : Nat} (hpending : Framing.packetOf (p.side.framing.nextPacketLoop discard) = .pending discard') :
    p.poll coins call discard =
      (none, { p with
        side := { p.side with framing := (p.side.framing.nextPacketLoop discard).2 }
        call := some (call, discard') }) := by
  rw [poll]
  dsimp only
  rw [hpending]

/-- A poll without a result of `next_packet` changes at most the framer and returns nothing. -/
theorem poll_waits (coins : Nat → Coins c) (p : HostProc c proto Info cobs maxFrameSize) (call : HostCall c Info)
    (hwaits : ∀ packet, Framing.packetOf (p.side.framing.nextPacketLoop discard) ≠ .ready packet) :
    (p.poll coins call discard).1 = none ∧ (p.poll coins call discard).2.history = p.history ∧
      ∃ framing, (p.poll coins call discard).2.side = { p.side with framing } := by
  rw [poll]
  dsimp only
  rcases hpolled : Framing.packetOf (p.side.framing.nextPacketLoop discard) with packet | discard' | _
  · exact absurd hpolled (hwaits packet)
  · exact ⟨rfl, rfl, _, rfl⟩
  · exact ⟨rfl, rfl, p.side.framing, rfl⟩

theorem step_draws (coins : Nat → Coins c) (p : HostProc c proto Info cobs maxFrameSize) (action : HostAction c proto Info) :
    p.side.draws ≤ (p.step coins action).side.draws := by
  cases action with
  | arrive reads => exact le_refl _
  | plan answers => exact le_refl _
  | nextMessage =>
      rw [step]
      cases p.call <;> exact le_refl _
  | sendMessage req =>
      rw [step]
      cases p.call <;> exact le_refl _
  | handshake verifier =>
      cases hcall : p.call with
      | some _ =>
          rw [step, hcall]
      | none =>
          obtain ⟨result, side, hstep, hafter⟩ := step_handshake coins hcall verifier
          rw [hafter]
          cases hstep with
          | unreset => exact le_refl _
          | _ => exact Nat.le_succ _
  | poll =>
      rcases hcall : p.call with _ | ⟨call, discard⟩
      · rw [step, hcall]
      rw [step_poll hcall]
      by_cases hready : ∃ packet, Framing.packetOf (p.side.framing.nextPacketLoop discard) = .ready packet
      · obtain ⟨packet, hpacket⟩ := hready
        cases call with
        | nextMessage =>
            obtain ⟨_, side, hstep, hsettle⟩ := poll_message coins p hpacket
            rw [hsettle]
            cases hstep <;> exact le_refl _
        | handshake wait =>
            obtain ⟨_, side, hstep, hsettle⟩ := poll_handshake coins p wait hpacket
            rw [hsettle]
            cases hstep with
            | failed => exact le_refl _
            | skipped => exact le_refl _
            | gaveUp => exact le_refl _
            | _ => exact Nat.le_succ _
      · obtain ⟨_, _, _, hside⟩ :=
          poll_waits coins p call fun packet hpacket => hready ⟨packet, hpacket⟩
        rw [hside]

end HostProc

end DarkbioWire
