import DarkbioWire.Endpoint.Ark

/-!
# An Ark waiting for bytes

A waiting Ark in front of a stream: the frames ahead of it are those its framer will still keep of what is unread and of
what is to come. A turn of its driver, which polls the call and calls `next_message` again after each message or
malformed message, either takes the first of them or, without a complete one, changes none.
-/

namespace DarkbioWire

open Delimited Framing

variable {c : Crypto (List UInt8)} {proto : Protocol (List UInt8)} {A : Type} [Attester c A] {cobs : Cobs}
  {maxFrameSize : Nat}

namespace ArkProc

/-- A turn of the device's driver. It stops only when a call returns an error that is not `PacketDecodingFailed`. -/
def turn (coins : Nat → Coins c) (p : ArkProc c proto A cobs maxFrameSize) : ArkProc c proto A cobs maxFrameSize :=
  match p.call with
  | none => p
  | some (point, discard) =>
    match p.poll coins point discard with
    | (some result, p') => if reports result then p'.step coins .nextMessage else p'
    | (none, p') => p'

variable {coins : Nat → Coins c} {p : ArkProc c proto A cobs maxFrameSize} {point : MessagePoint c} {discard : Nat}

/-- The process waits at a point with no failing read and no failing write in sight. -/
structure Waits (coins : Nat → Coins c) (p : ArkProc c proto A cobs maxFrameSize) (point : MessagePoint c)
    (discard : Nat) : Prop where
  abstracts : ∃ e, p.Abstracts coins e
  call : p.call = some (point, discard)
  stop : p.side.framing.reader.stop = []
  plan : p.side.framing.writer.plan = []

/-- The frames ahead, when these bytes are still to come. -/
def ahead (p : ArkProc c proto A cobs maxFrameSize) (discard : Nat) (coming : List UInt8) : List (List UInt8) :=
  kept 0 maxFrameSize (decide (0 < discard)) (p.side.framing.unread ++ coming)

omit [Attester c A] in
theorem Waits.wfAt (h : p.Waits coins point discard) : p.side.framing.WfAt discard := by
  obtain ⟨e, habstracts⟩ := h.abstracts
  exact habstracts.wf.at h.call

theorem turn_eq_run (coins : Nat → Coins c) (hcall : p.call = some (point, discard)) :
    ∃ actions, p.turn coins = p.run coins actions := by
  rw [turn, hcall]
  dsimp only
  have hpoll : p.step coins .poll = (p.poll coins point discard).2 := step_poll hcall
  rcases hresult : p.poll coins point discard with ⟨_ | result, p'⟩
  · refine ⟨[.poll], ?_⟩
    rw [run, List.foldl_cons, List.foldl_nil, hpoll, hresult]
  · dsimp only
    rw [hresult] at hpoll
    split
    · refine ⟨[.poll, .nextMessage], ?_⟩
      rw [run, List.foldl_cons, List.foldl_cons, List.foldl_nil, hpoll]
    · refine ⟨[.poll], ?_⟩
      rw [run, List.foldl_cons, List.foldl_nil, hpoll]

theorem turn_blocked (hcobs : cobs.Lawful) (h : p.Waits coins point discard)
    (hnext : next 0 maxFrameSize (decide (0 < discard)) p.side.framing.unread = none) :
    ∃ discard', (p.turn coins).Waits coins point discard' ∧
      (∃ f, (p.turn coins).side = { p.side with framing := f } ∧ f.writer = p.side.framing.writer) ∧
      residue 0 maxFrameSize (decide (0 < discard)) p.side.framing.unread =
        (decide (0 < discard'), (p.turn coins).side.framing.unread) := by
  obtain ⟨actions, hrun⟩ := turn_eq_run coins h.call
  obtain ⟨discard', hpoll, _, hwriter, hreader, hresidue⟩ := nextPacketLoop_blocked h.wfAt h.stop hnext
  have hturn : p.turn coins =
      { p with
        side := { p.side with framing := (p.side.framing.nextPacketLoop discard).2 }
        call := some (point, discard') } := by
    rw [turn, h.call]
    dsimp only
    rw [poll_pending coins p point hpoll]
  obtain ⟨e, habstracts⟩ := h.abstracts
  obtain ⟨e', _, habstracts'⟩ := run_abstracts hcobs habstracts actions
  refine ⟨discard', ⟨⟨e', hrun ▸ habstracts'⟩, by rw [hturn], ?_, ?_⟩, ⟨_, by rw [hturn], hwriter⟩, ?_⟩
  · rw [hturn]
    dsimp only
    rw [hreader, Reader.stop_nil]
  · rw [hturn]
    dsimp only
    rw [hwriter, h.plan]
  · rw [hturn, hresidue]

omit [Attester c A] in
theorem done_reports [Attester c A] (hcobs : cobs.Lawful) {side side' : ArkSide c A (Framing cobs maxFrameSize)}
    (hf : side.framing.Wf) {coins : Coins c} {frame : List UInt8} {flow : Flow (MessagePoint c) proto.HostToArk}
    (hstep : ArkSide.Step proto coins side point (decodeFrame cobs maxFrameSize frame) flow side') :
    (∃ point', flow = .wait point') ∨ ∃ result, flow = .done result ∧ reports result = true := by
  have habort : ∀ err : Error, (∀ cause, err ≠ .recvFailed cause) → err ≠ .terminated →
      ∃ point', (ArkSide.abort err : Flow (MessagePoint c) proto.HostToArk) = .wait point' := by
    intro err hrecv hterm
    cases err <;> first | exact ⟨_, rfl⟩ | exact absurd rfl (hrecv _) | exact absurd rfl hterm
  generalize hpacket : decodeFrame cobs maxFrameSize frame = packet at hstep
  have herror : ∀ err, packet = .error err → (∀ cause, err ≠ .recvFailed cause) ∧ err ≠ .terminated := by
    intro err herr
    rcases @decodeFrame_cases cobs maxFrameSize frame with ⟨_, hok⟩ | ⟨cause, hfailed⟩
    · rw [hpacket, herr] at hok
      cases hok
    · rw [hpacket, herr] at hfailed
      injection hfailed with hfailed
      rw [hfailed]
      exact ⟨by simp, by simp⟩
  cases hstep with
  | terminated => exact absurd rfl (herror _ rfl).2
  | recvFailed => exact absurd rfl ((herror _ rfl).1 _)
  | opened => exact Or.inr ⟨_, rfl, Endpoint.reports_deliver _⟩
  | aborted => exact Or.inl (habort _ (herror _ rfl).1 (herror _ rfl).2)
  | unanswered _ _ hsend =>
      refine Or.inl (habort _ ?_ ?_)
      · rcases sendPacket_error_kind hcobs hf hsend with ⟨_, rfl⟩ | ⟨_, rfl⟩ | ⟨_, rfl⟩ <;> simp
      · rcases sendPacket_error_kind hcobs hf hsend with ⟨_, rfl⟩ | ⟨_, rfl⟩ | ⟨_, rfl⟩ <;> simp
  | _ => exact Or.inl ⟨_, rfl⟩

theorem step_framing {side side' : ArkSide c A (Framing cobs maxFrameSize)} {coins : Coins c}
    {packet : Except Error (Option (List UInt8))} {flow : Flow (MessagePoint c) proto.HostToArk}
    (hstep : ArkSide.Step proto coins side point packet flow side') :
    side'.framing = side.framing ∨ ∃ answer result, side.framing.sendPacket answer = (result, side'.framing) := by
  cases hstep with
  | refused _ hframing => exact Or.inl hframing
  | answered _ _ hsend => exact Or.inr ⟨_, _, hsend⟩
  | unanswered _ _ hsend => exact Or.inr ⟨_, _, hsend⟩
  | _ => exact Or.inl rfl

/-- With a complete frame a turn does what the side does with it, and waits again. -/
theorem turn_frame (hcobs : cobs.Lawful) (h : p.Waits coins point discard) {frame rest : List UInt8}
    (hnext : next 0 maxFrameSize (decide (0 < discard)) p.side.framing.unread = some (frame, rest)) :
    ∃ f flow point', f.Wf ∧ f.writer = p.side.framing.writer ∧
      ArkSide.Step proto (coins p.side.draws) { p.side with framing := f } point (decodeFrame cobs maxFrameSize frame) flow
        (p.turn coins).side ∧
      (flow = .wait point' ∨ (∃ result, flow = .done result) ∧ point' = .packet) ∧
      (p.turn coins).Waits coins point' 0 ∧ (p.turn coins).side.framing.unread = rest := by
  obtain ⟨actions, hrun⟩ := turn_eq_run coins h.call
  obtain ⟨hpacket, hwf, hwriter, hunread, hstop⟩ := nextPacketLoop_frame h.wfAt hnext
  obtain ⟨e, habstracts⟩ := h.abstracts
  obtain ⟨e', _, habstracts'⟩ := run_abstracts hcobs habstracts actions
  obtain ⟨flow, side', hstep, hpoll⟩ := poll_ready coins p point hpacket
  generalize (p.side.framing.nextPacketLoop discard).2 = f at hwf hwriter hunread hstop hstep
  -- the framer after the step: what was unread stays so, and nothing is planned to fail
  have hafter : side'.framing.unread = rest ∧ side'.framing.reader.stop = [] ∧ side'.framing.writer.plan = [] := by
    rcases step_framing hstep with hsame | ⟨answer, result, hsend⟩
    · rw [hsame]
      exact ⟨hunread, hstop.trans h.stop, by dsimp only; rw [hwriter, h.plan]⟩
    · obtain ⟨_, _, hreceiver⟩ := sendPacket_wire hcobs hwf hsend
      have hplan := sendPacket_plan hcobs hwf (by rw [hwriter, h.plan]) answer
      rw [hsend] at hplan
      exact ⟨hreceiver.unread.trans hunread, by rw [hreceiver.reader]; exact hstop.trans h.stop, hplan⟩
  rcases done_reports hcobs hwf hstep with ⟨point', rfl⟩ | ⟨result, rfl, hreports⟩
  · have hturn : p.turn coins = (settle (noteOpen p.history p.side.session point
        (decodeFrame cobs maxFrameSize frame)) p.side.session (.wait point', side')).2 := by
      rw [turn, h.call]
      dsimp only
      rw [hpoll, settle]
    rw [hrun] at hturn
    refine ⟨f, .wait point', point', hwf, hwriter, ?_, Or.inl rfl, ⟨⟨e', hrun ▸ habstracts'⟩, ?_, ?_, ?_⟩, ?_⟩ <;>
      rw [hrun, hturn]
    · exact hstep
    · rfl
    · exact hafter.2.1
    · exact hafter.2.2
    · exact hafter.1
  · have hturn : p.turn coins = ((settle (noteOpen p.history p.side.session point
        (decodeFrame cobs maxFrameSize frame)) p.side.session (.done result, side')).2.step coins .nextMessage) := by
      rw [turn, h.call]
      dsimp only
      rw [hpoll, settle]
      dsimp only
      rw [if_pos hreports]
    rw [hrun] at hturn
    refine ⟨f, .done result, .packet, hwf, hwriter, ?_, Or.inr ⟨⟨result, rfl⟩, rfl⟩,
      ⟨⟨e', hrun ▸ habstracts'⟩, ?_, ?_, ?_⟩, ?_⟩ <;> rw [hrun, hturn]
    · exact hstep
    · rfl
    · exact hafter.2.1
    · exact hafter.2.2
    · exact hafter.1

/-! ### Driving -/

/-- What happens to a waiting device: bytes arrive, or its driver takes a turn. -/
inductive Move
  | arrive (bytes : List UInt8)
  | turn

/-- The bytes that arrive. -/
def arrived : List Move → List UInt8
  | [] => []
  | .arrive bytes :: moves => bytes ++ arrived moves
  | .turn :: moves => arrived moves

/-- One move. -/
def move (coins : Nat → Coins c) (p : ArkProc c proto A cobs maxFrameSize) : Move → ArkProc c proto A cobs maxFrameSize
  | .arrive bytes => p.step coins (.arrive (Reader.chunk bytes))
  | .turn => p.turn coins

def drive (coins : Nat → Coins c) (p : ArkProc c proto A cobs maxFrameSize) (moves : List Move) :
    ArkProc c proto A cobs maxFrameSize := moves.foldl (move coins) p

/-- Exactly these frames are ahead, when these bytes are still to come, and nothing after them. -/
structure Faces (p : ArkProc c proto A cobs maxFrameSize) (discard : Nat) (coming : List UInt8)
    (frames : List (List UInt8)) : Prop where
  ahead : p.ahead discard coming = frames
  rest : residue 0 maxFrameSize (decide (0 < discard)) (p.side.framing.unread ++ coming) = (false, [])

/-- Nothing changed but what the framer has buffered. -/
def Idle (p q : ArkProc c proto A cobs maxFrameSize) : Prop :=
  ∃ f, q.side = { p.side with framing := f } ∧ f.writer = p.side.framing.writer

omit [Attester c A] in
theorem Idle.refl (p : ArkProc c proto A cobs maxFrameSize) : Idle p p := ⟨_, rfl, rfl⟩

omit [Attester c A] in
theorem Idle.trans {q r : ArkProc c proto A cobs maxFrameSize} (h : Idle p q) (h' : Idle q r) : Idle p r := by
  obtain ⟨f, hq, hf⟩ := h
  obtain ⟨g, hr, hg⟩ := h'
  refine ⟨g, ?_, ?_⟩
  · rw [hr, hq]
  · rw [hg, hq, hf]

@[simp] theorem arrived_append (moves moves' : List Move) : arrived (moves ++ moves') = arrived moves ++ arrived moves' := by
  induction moves with
  | nil => rfl
  | cons m moves ih => cases m <;> simp [arrived, ih]

@[simp] theorem arrived_turns (n : Nat) : arrived (List.replicate n .turn) = [] := by
  induction n with
  | zero => rfl
  | succ n ih => rw [List.replicate_succ, arrived, ih]

theorem arrive_faces (hcobs : cobs.Lawful) (h : p.Waits coins point discard) {bytes coming : List UInt8}
    {frames : List (List UInt8)} (hfaces : p.Faces discard (bytes ++ coming) frames) :
    (p.move coins (.arrive bytes)).Waits coins point discard ∧ Idle p (p.move coins (.arrive bytes)) ∧
      (p.move coins (.arrive bytes)).Faces discard coming frames := by
  obtain ⟨e, habstracts⟩ := h.abstracts
  obtain ⟨e', _, habstracts'⟩ := step_abstracts hcobs habstracts (.arrive (Reader.chunk bytes))
  obtain ⟨hunread, hstop⟩ := arrive_unread h.stop bytes
  have hsame : (p.move coins (.arrive bytes)).side.framing.unread ++ coming =
      p.side.framing.unread ++ (bytes ++ coming) := by
    change (p.side.framing.arrive (Reader.chunk bytes)).unread ++ coming = _
    rw [hunread, List.append_assoc]
  refine ⟨⟨⟨e', habstracts'⟩, h.call, hstop, h.plan⟩, ⟨_, rfl, rfl⟩, ⟨?_, ?_⟩⟩
  · rw [← hfaces.ahead, ahead, hsame, ahead]
  · rw [hsame, hfaces.rest]

theorem turn_idle (hcobs : cobs.Lawful) (h : p.Waits coins point discard) {coming : List UInt8}
    {frames : List (List UInt8)} (hfaces : p.Faces discard coming frames)
    (hnext : next 0 maxFrameSize (decide (0 < discard)) p.side.framing.unread = none) :
    ∃ discard', (p.turn coins).Waits coins point discard' ∧ Idle p (p.turn coins) ∧
      (p.turn coins).Faces discard' coming frames := by
  obtain ⟨discard', hwaits, hidle, hresidue⟩ := turn_blocked hcobs h hnext
  refine ⟨discard', hwaits, hidle, ⟨?_, ?_⟩⟩
  · rw [← hfaces.ahead, ahead, ahead, residue_settled hnext, hresidue]
  · rw [← hfaces.rest, residue_append p.side.framing.unread coming, hresidue]

/-- What a turn makes of the first frame ahead. -/
structure Takes (coins : Nat → Coins c) (p : ArkProc c proto A cobs maxFrameSize) (point : MessagePoint c)
    (frame : List UInt8) (point' : MessagePoint c) : Prop where
  step : ∃ f flow, f.Wf ∧ f.writer = p.side.framing.writer ∧
    ArkSide.Step proto (coins p.side.draws) { p.side with framing := f } point (decodeFrame cobs maxFrameSize frame) flow
      (p.turn coins).side ∧
    (flow = .wait point' ∨ (∃ result, flow = .done result) ∧ point' = .packet)
  waits : (p.turn coins).Waits coins point' 0

theorem turn_takes (hcobs : cobs.Lawful) (h : p.Waits coins point discard) {coming frame rest : List UInt8}
    {frames : List (List UInt8)} (hfaces : p.Faces discard coming frames)
    (hnext : next 0 maxFrameSize (decide (0 < discard)) p.side.framing.unread = some (frame, rest)) :
    ∃ point' later, frames = frame :: later ∧ p.Takes coins point frame point' ∧
      (p.turn coins).Faces 0 coming later := by
  obtain ⟨f, flow, point', hf, hwriter, hstep, hflow, hwaits, hunread⟩ := turn_frame hcobs h hnext
  have hnext' := next_append_of_some hnext coming
  refine ⟨point', _, ?_, ⟨⟨f, flow, hf, hwriter, hstep, hflow⟩, hwaits⟩, ⟨rfl, ?_⟩⟩
  · rw [← hfaces.ahead, ahead, kept_of_some hnext', ahead, hunread]
    rfl
  · have hrest := hfaces.rest
    rw [residue_of_next hnext'] at hrest
    rw [hunread]
    exact hrest

/-- However the bytes arrive and the turns fall between them, the process takes the first frame ahead in one of the
turns, having done nothing before, and faces the others. -/
theorem drive_first (hcobs : cobs.Lawful) (h : p.Waits coins point discard) {moves : List Move} {frame : List UInt8}
    {frames : List (List UInt8)} {n : Nat} (hn : frames.length < n)
    (hfaces : p.Faces discard (arrived moves) (frame :: frames)) :
    ∃ earlier later n' point' q, moves ++ List.replicate n .turn = earlier ++ .turn :: (later ++ List.replicate n' .turn) ∧
      frames.length ≤ n' ∧ q = p.drive coins earlier ∧ Idle p q ∧
      (∃ discard', q.Waits coins point discard' ∧ q.Faces discard' (arrived later) (frame :: frames)) ∧
      q.Takes coins point frame point' ∧ (q.turn coins).Faces 0 (arrived later) frames := by
  induction moves generalizing p discard with
  | nil =>
      obtain ⟨n, rfl⟩ : ∃ k, n = k + 1 := ⟨n - 1, by omega⟩
      have hahead := hfaces.ahead
      rw [arrived, ahead, List.append_nil] at hahead
      rcases hnext : next 0 maxFrameSize (decide (0 < discard)) p.side.framing.unread with _ | ⟨taken, rest⟩
      · rw [kept_of_none hnext] at hahead
        cases hahead
      · obtain ⟨point', later, hframes, htakes, hfaces'⟩ := turn_takes hcobs h hfaces hnext
        obtain ⟨rfl, rfl⟩ := List.cons.inj hframes
        exact ⟨[], [], n, point', p, rfl, by omega, rfl, .refl p, ⟨discard, h, hfaces⟩, htakes, hfaces'⟩
  | cons m moves ih =>
      cases m with
      | arrive bytes =>
          obtain ⟨hwaits, hidle, hfaces'⟩ := arrive_faces hcobs h hfaces
          obtain ⟨earlier, later, n', point', q, hmoves, hn', hq, hidle', hthere, htakes, hfaces''⟩ := ih hwaits hfaces'
          exact ⟨.arrive bytes :: earlier, later, n', point', q, by rw [List.cons_append, hmoves]; rfl, hn', hq,
            hidle.trans hidle', hthere, htakes, hfaces''⟩
      | turn =>
          rcases hnext : next 0 maxFrameSize (decide (0 < discard)) p.side.framing.unread with _ | ⟨taken, rest⟩
          · obtain ⟨discard', hwaits, hidle, hfaces'⟩ := turn_idle hcobs h hfaces hnext
            obtain ⟨earlier, later, n', point', q, hmoves, hn', hq, hidle', hthere, htakes, hfaces''⟩ := ih hwaits hfaces'
            exact ⟨.turn :: earlier, later, n', point', q, by rw [List.cons_append, hmoves]; rfl, hn', hq,
              hidle.trans hidle', hthere, htakes, hfaces''⟩
          · obtain ⟨point', later, hframes, htakes, hfaces'⟩ := turn_takes hcobs h hfaces hnext
            obtain ⟨rfl, rfl⟩ := List.cons.inj hframes
            exact ⟨[], moves, n, point', p, rfl, by omega, rfl, .refl p, ⟨discard, h, hfaces⟩, htakes, hfaces'⟩

theorem drive_idle (hcobs : cobs.Lawful) (h : p.Waits coins point discard) {moves : List Move}
    (hfaces : p.Faces discard (arrived moves) []) :
    ∃ discard', (p.drive coins moves).Waits coins point discard' ∧ Idle p (p.drive coins moves) ∧
      (p.drive coins moves).Faces discard' [] [] := by
  induction moves generalizing p discard with
  | nil => exact ⟨discard, h, .refl p, hfaces⟩
  | cons m moves ih =>
      cases m with
      | arrive bytes =>
          obtain ⟨hwaits, hidle, hfaces'⟩ := arrive_faces hcobs h hfaces
          obtain ⟨discard', hwaits', hidle', hdone⟩ := ih hwaits hfaces'
          exact ⟨discard', hwaits', hidle.trans hidle', hdone⟩
      | turn =>
          rcases hnext : next 0 maxFrameSize (decide (0 < discard)) p.side.framing.unread with _ | ⟨taken, rest⟩
          · obtain ⟨discard', hwaits, hidle, hfaces'⟩ := turn_idle hcobs h hfaces hnext
            obtain ⟨discard'', hwaits', hidle', hdone⟩ := ih hwaits hfaces'
            exact ⟨discard'', hwaits', hidle.trans hidle', hdone⟩
          · obtain ⟨point', later, hframes, _⟩ := turn_takes hcobs h hfaces hnext
            cases hframes

end ArkProc

end DarkbioWire
