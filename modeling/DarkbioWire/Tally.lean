import DarkbioWire.Serving
import DarkbioWire.Shut

/-!
# Frames taken off the stream

A session opens the packets sealed to it in the order of their sequence numbers, so a receiver that takes a frame off the
stream and does not open it is behind its peer. Here the bytes that a side takes off the stream are kept from the moment it
came into its session, across its calls, beside the frames that the session opened. Every frame that `next_packet` returns
is opened, or the session is dropped; those that `next_frame` discards because they are too long are neither, nor are those
of which it forgets in a failed read that they are.
-/

namespace DarkbioWire

open Delimited Framing

variable {c : Crypto (List UInt8)} {proto : Protocol (List UInt8)} {A Info : Type} [Attester c A] {cobs : Cobs}
  {maxFrameSize : Nat} {hpke : Contexts c}

/-! ### What a poll takes -/

namespace Framing

variable {f : Framing cobs maxFrameSize} {discard : Nat}

/-- The bytes a poll of `next_packet` takes off the stream: all but those unread behind the frame it returns, or pending
where it returns none. -/
def taken (f : Framing cobs maxFrameSize) (discard : Nat) : List UInt8 :=
  let polled := f.nextPacketLoop discard
  let left :=
    match packetOf polled with
    | .ready (.ok _) => polled.2.unread
    | .ready (.error (.frameDecodingFailed _)) => polled.2.unread
    | _ => polled.2.pending
  f.unread.take (f.unread.length - left.length)

/-- The frame a poll of `next_frame` returns. -/
def frame? (f : Framing cobs maxFrameSize) (discard : Nat) : Option (List UInt8) :=
  match f.nextFrameLoop discard with
  | (.ready (.ok (start, stop)), g) => slice? g.readerBuffer start stop
  | _ => none

/-- The discard counter of the call behind a poll, zero where the call is over. -/
def discardAfter (f : Framing cobs maxFrameSize) (discard : Nat) : Nat :=
  match packetOf (f.nextPacketLoop discard) with
  | .pending discard' => discard'
  | _ => 0

theorem taken_append {gone left : List UInt8} (hunread : f.unread = gone ++ left)
    (hleft : left = match packetOf (f.nextPacketLoop discard) with
      | .ready (.ok _) => (f.nextPacketLoop discard).2.unread
      | .ready (.error (.frameDecodingFailed _)) => (f.nextPacketLoop discard).2.unread
      | _ => (f.nextPacketLoop discard).2.pending) : f.taken discard = gone := by
  rw [taken, ← hleft, hunread, List.length_append, Nat.add_sub_cancel, List.take_left]

theorem frame?_of_next (hf : f.WfAt discard) {frame rest : List UInt8}
    (hnext : next 0 maxFrameSize (decide (0 < discard)) f.unread = some (frame, rest)) : f.frame? discard = some frame := by
  have hspec := (nextFrameLoop_spec hf).1
  rw [NextFrameSpec, hnext] at hspec
  obtain ⟨start, stop, hready, hslice, _⟩ := hspec
  rw [frame?]
  rcases hloop : f.nextFrameLoop discard with ⟨poll, g⟩
  rw [hloop] at hready hslice
  obtain rfl := hready
  exact hslice

theorem taken_packet (hf : f.WfAt discard) {packet : List UInt8}
    (hpacket : packetOf (f.nextPacketLoop discard) = .ready (.ok (some packet))) :
    ∃ frame, f.frame? discard = some frame ∧ frame.length ≤ maxFrameSize ∧ 0 ∈ f.taken discard ∧
      unended 0 (f.taken discard) = [] ∧
      (discard = 0 → Long 0 maxFrameSize (f.taken discard) ∨ pieces 0 (f.taken discard) = [frame]) := by
  have hspec := (nextPacketLoop_spec hf).1
  rw [NextPacketSpec, hpacket] at hspec
  rcases hnext : next 0 maxFrameSize (decide (0 < discard)) f.unread with _ | ⟨frame, rest⟩
  · rw [hnext] at hspec
    obtain ⟨_, _, _, hstop⟩ := hspec
    split at hstop <;> cases hstop.1
  · rw [hnext] at hspec
    obtain ⟨hdecode, hrest, _⟩ := hspec
    obtain ⟨gone, hunread, hmem, hended, hpieces⟩ := pieces_of_next hnext
    have hframe : frame ≠ [] := by
      rintro rfl
      rw [decodeFrame, if_pos rfl] at hdecode
      cases hdecode
    rw [if_neg hframe] at hpieces
    rw [taken_append hunread (by rw [hpacket, hrest])]
    exact ⟨frame, frame?_of_next hf hnext, (piece_of_next hnext).2.1, hmem, hended,
      fun hzero => hpieces (by rw [hzero]; rfl)⟩

/-- A poll that returns neither a packet nor a frame that does not decode takes nothing from the head of a frame but frames
too long and at most an empty one, and comes to wait behind what it took unless that is open and too long. -/
theorem taken_other (hf : f.WfAt discard)
    (hpacket : ∀ packet, packetOf (f.nextPacketLoop discard) ≠ .ready (.ok (some packet)))
    (hdecodes : ∀ err, packetOf (f.nextPacketLoop discard) ≠ .ready (.error (.frameDecodingFailed err))) (hzero : discard = 0) :
    Long 0 maxFrameSize (f.taken discard) ∨ pieces 0 (f.taken discard) = [] ∧
      (unended 0 (f.taken discard) = [] ∧ f.discardAfter discard = 0 ∨
        maxFrameSize < (unended 0 (f.taken discard)).length) := by
  have hexcess : decide (0 < discard) = false := by
    rw [hzero]
    rfl
  have hspec := (nextPacketLoop_spec hf).1
  rw [NextPacketSpec] at hspec
  rcases hnext : next 0 maxFrameSize (decide (0 < discard)) f.unread with _ | ⟨frame, rest⟩
  · rw [hnext] at hspec
    obtain ⟨discard', hresidue, _, hstop⟩ := hspec
    obtain ⟨gone, hunread, hpieces⟩ := pieces_of_none hnext
    rw [hresidue] at hunread hpieces
    have hafter : decide (0 < discard') = false → f.discardAfter discard = 0 := by
      intro hdone
      have hnone : ¬ 0 < discard' := of_decide_eq_false hdone
      rw [discardAfter]
      split at hstop
      · rw [hstop.1]
        exact Nat.eq_zero_of_not_pos hnone
      · rw [hstop.1]
      · rw [hstop.1]
    rw [taken_append hunread (by split at hstop <;> rw [hstop.1])]
    exact (hpieces hexcess).imp_right fun hnone => ⟨hnone.1, hnone.2.imp_left fun hdone => ⟨hdone.2, hafter hdone.1⟩⟩
  · rw [hnext] at hspec
    obtain ⟨hdecode, hrest, _⟩ := hspec
    obtain ⟨gone, hunread, _, hended, hpieces⟩ := pieces_of_next hnext
    rw [decodeFrame] at hdecode
    split at hdecode
    · rename_i hframe
      rw [if_pos hframe] at hpieces
      rw [taken_append hunread (by rw [hdecode, hrest])]
      exact (hpieces hexcess).imp_right fun hnone => ⟨hnone, Or.inl ⟨hended, by rw [discardAfter, hdecode]⟩⟩
    · split at hdecode
      · exact absurd hdecode (hdecodes _)
      · exact absurd hdecode (hpacket _)

end Framing

/-- The bytes taken off a stream, and the frames that were opened. -/
structure Tally where
  taken : List UInt8
  opened : List (List UInt8)
  deriving DecidableEq

namespace Tally

/-- Nothing taken yet. -/
def empty : Tally := { taken := [], opened := [] }

/-- The non-empty frames taken off the stream. -/
def frames (tally : Tally) : List (List UInt8) := pieces 0 tally.taken

/-- The frame a poll returns, if the session opens its packet. -/
def opens (f : Framing cobs maxFrameSize) (discard : Nat) (session : Session c) : List (List UInt8) :=
  match packetOf (f.nextPacketLoop discard) with
  | .ready (.ok (some packet)) =>
    match (c.receiverOpen session.receiver packet).1 with
    | .ok _ => (f.frame? discard).toList
    | .error _ => []
  | _ => []

/-- What a poll in a session takes and opens. -/
def poll (tally : Tally) (f : Framing cobs maxFrameSize) (discard : Nat) (session : Session c) : Tally where
  taken := tally.taken ++ f.taken discard
  opened := tally.opened ++ opens f discard session

/-- Behind a session, in a call with this discard counter: a frame too long was taken, or all frames taken were opened and
the bytes behind them are of no frame or of one too long. -/
structure Follows (hpke : Contexts c) (maxFrameSize : Nat) (tally : Tally) (discard : Nat) (session : Session c) : Prop where
  seq : hpke.recvSeq session.receiver = tally.opened.length
  fit : ∀ frame ∈ tally.opened, frame.length ≤ maxFrameSize
  all : Long 0 maxFrameSize tally.taken ∨ tally.opened = tally.frames ∧
    (unended 0 tally.taken = [] ∧ discard = 0 ∨ maxFrameSize < (unended 0 tally.taken).length)

variable {tally : Tally} {f : Framing cobs maxFrameSize} {discard : Nat} {session : Session c}

theorem Follows.start {key : c.XhpkeSecretKey} {encap : List UInt8} {info : List UInt8}
    (hreceiver : c.newReceiver key encap info = .ok session.receiver) :
    empty.Follows hpke maxFrameSize 0 session where
  seq := (hpke.newReceiver_spec hreceiver).2
  fit frame hframe := absurd hframe List.not_mem_nil
  all := by
    refine Or.inr ⟨?_, Or.inl ⟨unended_of_not_mem List.not_mem_nil, rfl⟩⟩
    exact (pieces_of_not_mem List.not_mem_nil).symm

theorem Follows.restart (h : tally.Follows hpke maxFrameSize discard session) : tally.Follows hpke maxFrameSize 0 session where
  seq := h.seq
  fit := h.fit
  all := h.all.imp_right fun hall => ⟨hall.1, hall.2.imp_left fun hdone => ⟨hdone.1, rfl⟩⟩

theorem Follows.waits (h : tally.Follows hpke maxFrameSize discard session) (hf : f.WfAt discard)
    (hpacket : ∀ packet, packetOf (f.nextPacketLoop discard) ≠ .ready (.ok (some packet)))
    (hdecodes : ∀ err, packetOf (f.nextPacketLoop discard) ≠ .ready (.error (.frameDecodingFailed err))) :
    (tally.poll f discard session).Follows hpke maxFrameSize (f.discardAfter discard) session := by
  have hopens : opens f discard session = [] := by
    rw [opens]
    split
    · rename_i packet hready
      exact absurd hready (hpacket packet)
    · rfl
  have hsame : (tally.poll f discard session).opened = tally.opened := by
    rw [poll, hopens, List.append_nil]
  refine ⟨by rw [hsame]; exact h.seq, by rw [hsame]; exact h.fit, ?_⟩
  rw [hsame, frames, poll]
  rcases h.all with hlong | ⟨hall, ⟨hended, hzero⟩ | hopen⟩
  · exact Or.inl (hlong.append _)
  · rw [frames] at hall
    rcases taken_other hf hpacket hdecodes hzero with ⟨frame, hframe, hlong⟩ | ⟨hnone, hrest⟩
    · refine Or.inl ⟨frame, ?_, hlong⟩
      rw [pieces_append, hended]
      exact List.mem_append_right _ hframe
    · rw [pieces_append, unended_append, hended, List.nil_append, hnone, List.append_nil]
      exact Or.inr ⟨hall, hrest⟩
  · rcases long_or_unended hopen (f.taken discard) with hlong | ⟨_, hsame, hopen'⟩
    · exact Or.inl hlong
    · exact Or.inr ⟨hall.trans hsame.symm, Or.inr hopen'⟩

theorem Follows.opens (h : tally.Follows hpke maxFrameSize discard session) (hf : f.WfAt discard)
    {packet payload : List UInt8} {receiver : c.Receiver}
    (hpacket : packetOf (f.nextPacketLoop discard) = .ready (.ok (some packet)))
    (hopen : c.receiverOpen session.receiver packet = (.ok payload, receiver)) :
    (tally.poll f discard session).Follows hpke maxFrameSize 0 { session with receiver } := by
  obtain ⟨frame, hframe, hfit, hmem, hended, hpieces⟩ := taken_packet hf hpacket
  have hopened : (tally.poll f discard session).opened = tally.opened ++ [frame] := by
    rw [poll, Tally.opens, hpacket]
    dsimp only
    rw [hopen, hframe]
    rfl
  constructor
  · rw [hopened, List.length_append, ← h.seq]
    exact (hpke.receiverOpen_spec hopen).2
  · rw [hopened]
    intro other hother
    rcases List.mem_append.mp hother with hother | hother
    · exact h.fit other hother
    · rwa [List.mem_singleton.mp hother]
  · rw [hopened, frames, poll]
    rcases h.all with hlong | ⟨hall, ⟨hstart, hzero⟩ | hopen⟩
    · exact Or.inl (hlong.append _)
    · rw [frames] at hall
      rcases hpieces hzero with ⟨other, hother, hlong⟩ | hone
      · refine Or.inl ⟨other, ?_, hlong⟩
        rw [pieces_append, hstart]
        exact List.mem_append_right _ hother
      · rw [pieces_append, unended_append, hstart, List.nil_append, hone, hall]
        exact Or.inr ⟨rfl, Or.inl ⟨hended, rfl⟩⟩
    · rcases long_or_unended hopen (f.taken discard) with hlong | ⟨hclean, _⟩
      · exact Or.inl hlong
      · exact absurd hmem hclean

/-- What was opened is all that was taken exactly if nothing too long was. -/
theorem Follows.opened_iff (h : tally.Follows hpke maxFrameSize discard session) :
    tally.opened = tally.frames ↔ ∀ frame ∈ tally.frames, frame.length ≤ maxFrameSize := by
  constructor
  · intro hall
    rw [← hall]
    exact h.fit
  · intro hfit
    rcases h.all with ⟨frame, hframe, hlong⟩ | ⟨hall, _⟩
    · exact absurd (hfit frame hframe) (Nat.not_le_of_lt hlong)
    · exact hall

end Tally

/-- What is known of the session there is, if any. -/
def Tally.Tracks (hpke : Contexts c) (maxFrameSize : Nat) (tally : Tally) (discard : Nat) (session : Option (Session c)) :
    Prop := ∀ current, session = some current → tally.Follows hpke maxFrameSize discard current

namespace Tally.Tracks

variable {tally : Tally} {discard : Nat} {session session' : Option (Session c)}

theorem none (tally : Tally) (discard : Nat) : tally.Tracks hpke maxFrameSize discard (Option.none : Option (Session c)) :=
  fun _ hsome => absurd hsome (by simp)

theorem some {current : Session c} (h : tally.Follows hpke maxFrameSize discard current) :
    tally.Tracks hpke maxFrameSize discard (Option.some current) := by
  intro other hother
  rwa [← Option.some.inj hother]

theorem waits {f : Framing cobs maxFrameSize} {current : Session c} (hsome : session = Option.some current)
    (h : tally.Follows hpke maxFrameSize discard current) (hf : f.WfAt discard)
    (hpacket : ∀ packet, packetOf (f.nextPacketLoop discard) ≠ .ready (.ok (Option.some packet)))
    (hdecodes : ∀ err, packetOf (f.nextPacketLoop discard) ≠ .ready (.error (.frameDecodingFailed err))) :
    (tally.poll f discard current).Tracks hpke maxFrameSize (f.discardAfter discard) session := by
  rw [hsome]
  exact .some (h.waits hf hpacket hdecodes)

theorem send {M T : Type} [Transport T (List UInt8)] {codec : Codec (List UInt8) M} {framing framing' : T} {msg : M}
    {result : Except Error Unit} (h : tally.Tracks hpke maxFrameSize discard session)
    (hsend : SendStep codec framing msg session result framing' session') :
    tally.Tracks hpke maxFrameSize discard session' := by
  cases hsend with
  | inactive => exact h
  | tooLarge => exact h
  | unencodable => exact h
  | unsealed => exact .none tally discard
  | lost => exact .none tally discard
  | @sent current =>
      have hcurrent := h current rfl
      exact .some ⟨hcurrent.seq, hcurrent.fit, hcurrent.all⟩

end Tally.Tracks

/-! ### The Ark -/

namespace ArkProc

/-- What an action adds to what was taken and opened since the session was established. -/
def tally (p : ArkProc c proto A cobs maxFrameSize) (tally : Tally) : ArkAction proto → Tally
  | .poll =>
    match p.call, p.side.session with
    | some (_, discard), some session => tally.poll p.side.framing discard session
    | some _, none => .empty
    | none, _ => tally
  | _ => tally

/-- What was taken and opened at the end of a run since the session was established. -/
def tallied (coins : Nat → Coins c) (p : ArkProc c proto A cobs maxFrameSize) (tally : Tally) :
    List (ArkAction proto) → Tally
  | [] => tally
  | action :: actions => (p.step coins action).tallied coins (p.tally tally action) actions

/-- The tally follows the session of an Ark. -/
def Tracked (hpke : Contexts c) (p : ArkProc c proto A cobs maxFrameSize) (tally : Tally) : Prop :=
  tally.Tracks hpke maxFrameSize p.discard p.side.session

variable {coins : Nat → Coins c} {p : ArkProc c proto A cobs maxFrameSize} {e : Endpoint c proto.HostToArk}
  {tally : Tally}

omit [Attester c A] in
theorem settle_discard (history : History c proto.HostToArk) (before : Option (Session c))
    (outcome : Flow (MessagePoint c) proto.HostToArk × ArkSide c A (Framing cobs maxFrameSize)) :
    (settle history before outcome).2.discard = 0 := by
  obtain ⟨flow | result, side⟩ := outcome <;> rfl

theorem poll_tracked_none {point : MessagePoint c} {discard : Nat} (hnone : p.side.session = none) :
    (p.poll coins point discard).2.Tracked hpke .empty := by
  rw [Tracked]
  by_cases hready : ∃ packet, packetOf (p.side.framing.nextPacketLoop discard) = .ready packet
  · obtain ⟨packet, hpacket⟩ := hready
    obtain ⟨flow, side, hstep, hsettle⟩ := poll_ready coins p point hpacket
    rw [hsettle, settle_side, settle_discard]
    have hsame : side.session = p.side.session → Tally.empty.Tracks hpke maxFrameSize 0 side.session := by
      intro hsession
      rw [hsession, hnone]
      exact .none _ _
    cases hstep with
    | undecodable => exact .none _ _
    | reset => exact .none _ _
    | broken => exact .none _ _
    | opened hsome => exact absurd (hnone.symm.trans hsome) (by simp)
    | refused hother => exact hsame hother.session
    | answered hother => exact hsame hother.session
    | unanswered hother => exact hsame hother.session
    | accepted haccept =>
        obtain ⟨_, receiver, _, _, hreceiver, rfl⟩ := ArkSide.acceptAck_ok haccept
        exact .some (.start hreceiver)
    | _ => exact hsame rfl
  · obtain ⟨_, _, framing, hside⟩ := poll_waits coins p point fun packet hpacket => hready ⟨packet, hpacket⟩
    rw [hside, show ({ p.side with framing } : ArkSide c A (Framing cobs maxFrameSize)).session = none from hnone]
    exact .none _ _

theorem poll_tracked_some {discard : Nat} {session : Session c} (hf : p.side.framing.WfAt discard)
    (hsome : p.side.session = some session) (hfollows : tally.Follows hpke maxFrameSize discard session) :
    (p.poll coins .packet discard).2.Tracked hpke (tally.poll p.side.framing discard session) := by
  obtain ⟨_, hpoll⟩ := nextPacketLoop_poll hf
  have hwaits := Tally.Tracks.waits hsome hfollows hf
  rw [Tracked]
  rcases hpacket : packetOf (p.side.framing.nextPacketLoop discard) with packet | discard' | _
  · rw [hpacket, discardAfter, hpacket] at hwaits
    obtain ⟨flow, side, hstep, hsettle⟩ := poll_ready coins p .packet hpacket
    rw [hsettle, settle_side, settle_discard]
    cases hstep with
    | terminated => exact hwaits (by simp) (by simp)
    | recvFailed => exact hwaits (by simp) (by simp)
    | undecodable => exact .none _ _
    | reset => exact .none _ _
    | junk hnone => exact absurd (hsome.symm.trans hnone) (by simp)
    | broken => exact .none _ _
    | opened hother hopen =>
        obtain rfl := Option.some.inj (hsome.symm.trans hother)
        exact .some (hfollows.opens hf hpacket hopen)
  · rw [hpacket, discardAfter, hpacket] at hwaits
    rw [poll_pending coins p .packet hpacket]
    exact hwaits (by simp) (by simp)
  · rw [hpacket] at hpoll
    exact hpoll.elim

theorem step_tracked (h : p.Abstracts coins e) (htracked : p.Tracked hpke tally) (action : ArkAction proto) :
    (p.step coins action).Tracked hpke (p.tally tally action) := by
  cases action with
  | arrive reads => exact htracked
  | plan answers => exact htracked
  | nextMessage =>
      rw [step]
      cases hcall : p.call with
      | none => exact fun current hcurrent => (htracked current hcurrent).restart
      | some call => exact htracked
  | sendMessage res =>
      rw [step]
      cases hcall : p.call with
      | none =>
          have hsent := htracked.send (sendThrough_step proto.arkToHost p.side.framing p.side.session res)
          rw [discard, hcall] at hsent
          exact hsent
      | some call => exact htracked
  | poll =>
      rw [ArkProc.tally]
      cases hcall : p.call with
      | none =>
          rw [step, hcall]
          exact htracked
      | some call =>
          obtain ⟨point, discard⟩ := call
          rw [step_poll hcall]
          cases hsession : p.side.session with
          | none => exact poll_tracked_none hsession
          | some session =>
              have hfollows := htracked session hsession
              rw [ArkProc.discard, hcall] at hfollows
              cases point with
              | packet => exact poll_tracked_some (h.wf.at hcall) hsession hfollows
              | handshake place => exact absurd (hsession.symm.trans (h.inside place discard hcall)) (by simp)

theorem run_tracked (hcobs : cobs.Lawful) (h : p.Abstracts coins e) (htracked : p.Tracked hpke tally)
    (actions : List (ArkAction proto)) : (p.run coins actions).Tracked hpke (p.tallied coins tally actions) := by
  induction actions generalizing p tally e with
  | nil => exact htracked
  | cons action actions ih =>
      obtain ⟨e', _, h'⟩ := step_abstracts hcobs h action
      exact ih h' (step_tracked h htracked action)

end ArkProc

/-! ### The host -/

namespace HostProc

/-- What an action adds to what was taken and opened since the session was established. -/
def tally (p : HostProc c proto Info cobs maxFrameSize) (tally : Tally) : HostAction c proto Info → Tally
  | .poll =>
    match p.call, p.side.session with
    | some (_, discard), some session => tally.poll p.side.framing discard session
    | some _, none => .empty
    | none, _ => tally
  | _ => tally

/-- What was taken and opened at the end of a run since the session was established. -/
def tallied (coins : Nat → Coins c) (p : HostProc c proto Info cobs maxFrameSize) (tally : Tally) :
    List (HostAction c proto Info) → Tally
  | [] => tally
  | action :: actions => (p.step coins action).tallied coins (p.tally tally action) actions

/-- The tally follows the session of a host. -/
def Tracked (hpke : Contexts c) (p : HostProc c proto Info cobs maxFrameSize) (tally : Tally) : Prop :=
  tally.Tracks hpke maxFrameSize p.discard p.side.session

variable {coins : Nat → Coins c} {p : HostProc c proto Info cobs maxFrameSize} {e : Endpoint c proto.ArkToHost}
  {tally : Tally}

theorem poll_tracked_none {call : HostCall c Info} {discard : Nat} (hnone : p.side.session = none) :
    (p.poll coins call discard).2.Tracked hpke .empty := by
  have hsame : ∀ {after : Nat} {session : Option (Session c)}, session = p.side.session →
      Tally.empty.Tracks hpke maxFrameSize after session := by
    intro after session hsession
    rw [hsession, hnone]
    exact .none _ _
  by_cases hready : ∃ packet, packetOf (p.side.framing.nextPacketLoop discard) = .ready packet
  · obtain ⟨packet, hpacket⟩ := hready
    cases call with
    | nextMessage =>
        obtain ⟨_, side, hstep, hsettle⟩ := poll_message coins p hpacket
        rw [hsettle, settleMessage]
        cases hstep with
        | failed => exact .none _ _
        | empty => exact hsame rfl
        | inactive => exact hsame rfl
        | broken => exact .none _ _
        | opened hsome => exact absurd (hnone.symm.trans hsome) (by simp)
    | handshake wait =>
        obtain ⟨flow, side, hstep, hsettle⟩ := poll_handshake coins p wait hpacket
        rw [hsettle]
        cases hstep with
        | answered _ hanswer =>
            obtain ⟨_, _, hcontexts, _⟩ := HelloWait.answer_ok hanswer
            exact .some (.start (HelloWait.contexts_ok hcontexts).2.1)
        | _ => exact hsame rfl
  · obtain ⟨_, _, framing, hside⟩ := poll_waits coins p call fun packet hpacket => hready ⟨packet, hpacket⟩
    exact hsame (by rw [hside])

theorem poll_tracked_some {discard : Nat} {session : Session c} (hf : p.side.framing.WfAt discard)
    (hsome : p.side.session = some session) (hfollows : tally.Follows hpke maxFrameSize discard session) :
    (p.poll coins .nextMessage discard).2.Tracked hpke (tally.poll p.side.framing discard session) := by
  obtain ⟨_, hpoll⟩ := nextPacketLoop_poll hf
  have hwaits := Tally.Tracks.waits hsome hfollows hf
  rcases hpacket : packetOf (p.side.framing.nextPacketLoop discard) with packet | discard' | _
  · rw [hpacket, discardAfter, hpacket] at hwaits
    obtain ⟨_, side, hstep, hsettle⟩ := poll_message coins p hpacket
    rw [hsettle, settleMessage]
    cases hstep with
    | failed => exact .none _ _
    | empty => exact hwaits (by simp) (by simp)
    | inactive hnone => exact absurd (hsome.symm.trans hnone) (by simp)
    | broken => exact .none _ _
    | opened hother hopen =>
        obtain rfl := Option.some.inj (hsome.symm.trans hother)
        exact .some (hfollows.opens hf hpacket hopen)
  · rw [hpacket, discardAfter, hpacket] at hwaits
    rw [poll_pending coins p .nextMessage hpacket]
    exact hwaits (by simp) (by simp)
  · rw [hpacket] at hpoll
    exact hpoll.elim

theorem step_tracked (h : p.Abstracts coins e) (htracked : p.Tracked hpke tally) (action : HostAction c proto Info) :
    (p.step coins action).Tracked hpke (p.tally tally action) := by
  cases action with
  | arrive reads => exact htracked
  | plan answers => exact htracked
  | nextMessage =>
      rw [step]
      cases hcall : p.call with
      | none => exact fun current hcurrent => (htracked current hcurrent).restart
      | some call => exact htracked
  | handshake verifier =>
      cases hcall : p.call with
      | some call =>
          rw [step, hcall]
          exact htracked
      | none =>
          obtain ⟨result, side, hstep, hafter⟩ := step_handshake coins hcall verifier
          rw [hafter]
          cases hstep <;> exact .none _ _
  | sendMessage req =>
      rw [step]
      cases hcall : p.call with
      | none =>
          have hsent := htracked.send (sendThrough_step proto.hostToArk p.side.framing p.side.session req)
          rw [discard, hcall] at hsent
          exact hsent
      | some call => exact htracked
  | poll =>
      rw [HostProc.tally]
      cases hcall : p.call with
      | none =>
          rw [step, hcall]
          exact htracked
      | some call =>
          obtain ⟨call, discard⟩ := call
          rw [step_poll hcall]
          cases hsession : p.side.session with
          | none => exact poll_tracked_none hsession
          | some session =>
              have hfollows := htracked session hsession
              rw [HostProc.discard, hcall] at hfollows
              cases call with
              | nextMessage => exact poll_tracked_some (h.wf.at hcall) hsession hfollows
              | handshake wait => exact absurd (hsession.symm.trans (h.waiting wait discard hcall).1) (by simp)

theorem run_tracked (hcobs : cobs.Lawful) (h : p.Abstracts coins e) (htracked : p.Tracked hpke tally)
    (actions : List (HostAction c proto Info)) : (p.run coins actions).Tracked hpke (p.tallied coins tally actions) := by
  induction actions generalizing p tally e with
  | nil => exact htracked
  | cons action actions ih =>
      obtain ⟨e', _, h'⟩ := step_abstracts hcobs h action
      exact ih h' (step_tracked h htracked action)

end HostProc

/-- A side in a session opened every non-empty frame taken off its stream since the session was established, in order, if
and only if none of these frames was too long; its receiver counts those it opened. -/
theorem opened_all_iff (hcobs : cobs.Lawful) (hpke : Contexts c) :
    (∀ (coins : Nat → Coins c) (reader : Reader) (writer : Writer) (signer : c.XdsaSecretKey) (attester : A)
      (actions : List (ArkAction proto)) (p : ArkProc c proto A cobs maxFrameSize),
      p = .new reader writer signer attester → ∀ session, (p.run coins actions).side.session = some session →
        hpke.recvSeq session.receiver = (p.tallied coins .empty actions).opened.length ∧
          ((p.tallied coins .empty actions).opened = (p.tallied coins .empty actions).frames ↔
            ∀ frame ∈ (p.tallied coins .empty actions).frames, frame.length ≤ maxFrameSize)) ∧
    (∀ (coins : Nat → Coins c) (reader : Reader) (writer : Writer) (actions : List (HostAction c proto Info))
      (p : HostProc c proto Info cobs maxFrameSize),
      p = .new reader writer → ∀ session, (p.run coins actions).side.session = some session →
        hpke.recvSeq session.receiver = (p.tallied coins .empty actions).opened.length ∧
          ((p.tallied coins .empty actions).opened = (p.tallied coins .empty actions).frames ↔
            ∀ frame ∈ (p.tallied coins .empty actions).frames, frame.length ≤ maxFrameSize)) := by
  constructor
  · rintro coins reader writer signer attester actions p rfl session hsession
    have hfollows := ArkProc.run_tracked hcobs (ArkProc.new_abstracts coins reader writer signer attester)
      (.none .empty 0 : Tally.Tracks hpke maxFrameSize .empty 0 none) actions session hsession
    exact ⟨hfollows.seq, hfollows.opened_iff⟩
  · rintro coins reader writer actions p rfl session hsession
    have hfollows := HostProc.run_tracked hcobs (HostProc.new_abstracts coins reader writer)
      (.none .empty 0 : Tally.Tracks hpke maxFrameSize .empty 0 none) actions session hsession
    exact ⟨hfollows.seq, hfollows.opened_iff⟩

open Reference in
theorem opened_all_iff_reference :
    (∃ session, ((ark []).run coins arkReceives).side.session = some session ∧
      contexts.recvSeq session.receiver = ((ark []).tallied coins .empty arkReceives).opened.length ∧
      (((ark []).tallied coins .empty arkReceives).opened = ((ark []).tallied coins .empty arkReceives).frames ↔
        ∀ frame ∈ ((ark []).tallied coins .empty arkReceives).frames, frame.length ≤ 512)) ∧
    (∃ session, (host.run coins hostSends).side.session = some session ∧
      contexts.recvSeq session.receiver = (host.tallied coins .empty hostSends).opened.length ∧
      ((host.tallied coins .empty hostSends).opened = (host.tallied coins .empty hostSends).frames ↔
        ∀ frame ∈ (host.tallied coins .empty hostSends).frames, frame.length ≤ 512)) := by
  obtain ⟨hopenedArk, hopenedHost⟩ := @opened_all_iff crypto protocol (Attestation crypto) (Attestation crypto) _ _ 512
    Cobs.stuffing_lawful contexts
  have hark : ((ark []).run coins arkReceives).side.session.isSome := by decide +kernel
  have hhost : (host.run coins hostSends).side.session.isSome := by decide +kernel
  obtain ⟨session, hsession⟩ := Option.isSome_iff_exists.mp hark
  obtain ⟨session', hsession'⟩ := Option.isSome_iff_exists.mp hhost
  have harkOpened := hopenedArk coins [] ⟨[], []⟩ (7 : Nat) attestation arkReceives (ark []) rfl
  have hhostOpened := hopenedHost coins [] ⟨[], []⟩ hostSends host rfl
  exact ⟨⟨session, hsession, harkOpened session hsession⟩, ⟨session', hsession', hhostOpened session' hsession'⟩⟩

namespace Reference

/-- The Ark in its session is sent a frame that is too long, and waits on. -/
def arkOverrun : List (ArkAction protocol) :=
  arkReceives ++ [.nextMessage, .arrive (Reader.chunk (List.replicate 513 1 ++ [0])), .poll, .poll]

end Reference

open Reference in
/-- A frame too long is taken off the stream in a session, which is kept and is a frame behind. -/
theorem opened_all_iff_discarded :
    (∃ session, ((ark []).run coins arkOverrun).side.session = some session ∧ contexts.recvSeq session.receiver = 2) ∧
      ((ark []).run coins arkOverrun).call.isSome ∧
      ((ark []).tallied coins .empty arkOverrun).opened.length = 2 ∧
      ((ark []).tallied coins .empty arkOverrun).frames =
        ((ark []).tallied coins .empty arkOverrun).opened ++ [List.replicate 513 1] := by
  have hseq : ((ark []).run coins arkOverrun).side.session.map (fun session => contexts.recvSeq session.receiver) =
      some 2 := by
    decide +kernel
  obtain ⟨session, hsession, hrecv⟩ := Option.map_eq_some_iff.mp hseq
  exact ⟨⟨session, hsession, hrecv⟩, by decide +kernel, by decide +kernel, by decide +kernel⟩

end DarkbioWire
