import DarkbioWire.Process

/-!
# What is in front of a framer

The packets and resets the calls of `next_packet` will return, one after the other, of what is unread and of what is still
to come, when that ends with a complete frame. Arriving bytes and waiting calls leave the queue as it is; a call that
returns takes its head; what the peer writes is appended.
-/

namespace DarkbioWire.Framing

open Delimited

variable {cobs : Cobs} {maxFrameSize : Nat} {f f' : Framing cobs maxFrameSize} {discard : Nat}
  {coming bytes : List UInt8} {queue : List (Option (List UInt8))}

/-- This queue is in front of a framer, inside a call with this discard counter, with these bytes still to come. -/
structure Queue (f : Framing cobs maxFrameSize) (discard : Nat) (coming : List UInt8)
    (queue : List (Option (List UInt8))) : Prop where
  wf : f.WfAt discard
  stop : f.reader.stop = []
  frames : (kept 0 maxFrameSize (decide (0 < discard)) (f.unread ++ coming)).map (decodeFrame cobs maxFrameSize) =
    queue.map .ok
  rest : residue 0 maxFrameSize (decide (0 < discard)) (f.unread ++ coming) = (false, [])

theorem Queue.new (writer : Writer) : (new [] writer : Framing cobs maxFrameSize).Queue 0 [] [] where
  wf := (new_wf [] writer).wfAt
  stop := rfl
  frames := by
    rw [List.append_nil, unread, new_pending]
    exact congrArg _ kept_nil
  rest := by
    rw [List.append_nil, unread, new_pending]
    exact residue_nil

theorem Queue.arrive (h : f.Queue discard (bytes ++ coming) queue) :
    (f.arrive (Reader.chunk bytes)).Queue discard coming queue := by
  obtain ⟨hunread, hstop⟩ := arrive_unread h.stop bytes
  refine ⟨h.wf.arrive _, hstop, ?_, ?_⟩
  · rw [hunread, List.append_assoc]
    exact h.frames
  · rw [hunread, List.append_assoc]
    exact h.rest

theorem Queue.sameReceiver (h : f.Queue discard coming queue) (hsame : SameReceiver f f') (hwf : f'.Wf) :
    f'.Queue discard coming queue := by
  refine ⟨⟨hwf, fun hdiscard => ?_⟩, ?_, ?_, ?_⟩
  · rw [hsame.readerOffset, hsame.readerSearch]
    exact h.wf.discarding hdiscard
  · rw [hsame.reader]
    exact h.stop
  · rw [hsame.unread]
    exact h.frames
  · rw [hsame.unread]
    exact h.rest

/-- A poll waits on and leaves the queue, or returns its head. -/
theorem Queue.poll (h : f.Queue discard coming queue) :
    (f.nextPacketLoop discard).2.writer = f.writer ∧
      ((∃ discard', packetOf (f.nextPacketLoop discard) = .pending discard' ∧
          (f.nextPacketLoop discard).2.Queue discard' coming queue) ∨
        ∃ packet rest, packetOf (f.nextPacketLoop discard) = .ready (.ok packet) ∧ queue = packet :: rest ∧
          (f.nextPacketLoop discard).2.Queue 0 coming rest) := by
  rcases hnext : next 0 maxFrameSize (decide (0 < discard)) f.unread with _ | ⟨frame, unread⟩
  · obtain ⟨discard', hpoll, hwf, hwriter, hreader, hresidue⟩ := nextPacketLoop_blocked h.wf h.stop hnext
    refine ⟨hwriter, Or.inl ⟨discard', hpoll, hwf, by rw [hreader, Reader.stop_nil], ?_, ?_⟩⟩
    · rw [← h.frames, residue_settled hnext, hresidue]
    · rw [← h.rest, residue_append f.unread coming, hresidue]
  · obtain ⟨hpoll, hwf, hwriter, hunread, hstop⟩ := nextPacketLoop_frame h.wf hnext
    have hnext' := next_append_of_some hnext coming
    have hframes := h.frames
    rw [kept_of_some hnext', List.map_cons] at hframes
    rcases hqueue : queue with _ | ⟨packet, rest⟩
    · rw [hqueue] at hframes
      cases hframes
    · rw [hqueue, List.map_cons] at hframes
      obtain ⟨hdecode, hrest⟩ := List.cons.inj hframes
      refine ⟨hwriter, Or.inr ⟨packet, rest, by rw [hpoll, hdecode], rfl, hwf.wfAt, by rw [hstop, h.stop], ?_, ?_⟩⟩
      · rw [hunread]
        exact hrest
      · rw [hunread, ← h.rest, residue_of_next hnext']
        rfl

theorem Queue.head {packet : Option (List UInt8)} (h : f.Queue discard [] (packet :: queue)) :
    packetOf (f.nextPacketLoop discard) = .ready (.ok packet) := by
  rcases hnext : next 0 maxFrameSize (decide (0 < discard)) f.unread with _ | ⟨frame, unread⟩
  · have hframes := h.frames
    rw [List.append_nil, kept_of_none hnext] at hframes
    cases hframes
  · obtain ⟨_, ⟨discard', hpending, _⟩ | ⟨head, rest, hready, hqueue, _⟩⟩ := h.poll
    · rw [(nextPacketLoop_frame h.wf hnext).1] at hpending
      cases hpending
    · obtain ⟨rfl, _⟩ := List.cons.inj hqueue
      exact hready

theorem Queue.drained (h : f.Queue discard [] queue) (hclean : 0 ∉ f.unread) : queue = [] := by
  have hframes := h.frames
  rw [List.append_nil, kept_of_none (next_of_not_mem hclean)] at hframes
  exact List.map_eq_nil_iff.mp hframes.symm

/-! ### Writing without failures -/

/-- What a framer whose writes do not fail wrote: complete frames that come out as these packets and resets. -/
structure Wrote (f f' : Framing cobs maxFrameSize) (results : List (Option (List UInt8))) : Prop where
  bytes : ∃ bytes, f'.writer.wire = f.writer.wire ++ bytes ∧
    (kept 0 maxFrameSize false bytes).map (decodeFrame cobs maxFrameSize) = results.map .ok ∧
    residue 0 maxFrameSize false bytes = (false, [])
  plan : f'.writer.plan = []

theorem Wrote.nothing (hwriter : f'.writer = f.writer) (hplan : f.writer.plan = []) : Wrote f f' [] :=
  ⟨⟨[], by rw [hwriter, List.append_nil], congrArg _ kept_nil, residue_nil⟩, by rw [hwriter, hplan]⟩

theorem Wrote.trans {g : Framing cobs maxFrameSize} {results results' : List (Option (List UInt8))}
    (h : Wrote f f' results) (h' : Wrote f' g results') : Wrote f g (results ++ results') := by
  obtain ⟨bytes, hwire, hkept, hrest⟩ := h.bytes
  obtain ⟨bytes', hwire', hkept', hrest'⟩ := h'.bytes
  refine ⟨⟨bytes ++ bytes', by rw [hwire', hwire, List.append_assoc], ?_, ?_⟩, h'.plan⟩
  · rw [kept_append, hrest, List.nil_append, List.map_append, hkept, hkept', List.map_append]
  · rw [residue_append, hrest, List.nil_append, hrest']

theorem Wrote.packet (hcobs : cobs.Lawful) (hf : f.Wf) (hplan : f.writer.plan = []) {packet : List UInt8}
    (hsend : f.sendPacket packet = (.ok (), f')) : Wrote f f' [some packet] := by
  obtain ⟨frame, hframe, hwire, _, _⟩ := sendPacket_ok hcobs hf hsend
  obtain ⟨hclean, hfits, _, hdecode⟩ := frameOf_ok hcobs hframe
  have hafter := sendPacket_plan hcobs hf hplan packet
  rw [hsend] at hafter
  refine ⟨⟨frame ++ [0], hwire, ?_, residue_concat_sep⟩, hafter⟩
  rw [kept_append_sep hclean, if_neg (by simp [hfits]), kept_nil, List.map_singleton, List.map_singleton, hdecode]

theorem Wrote.reset (hf : f.Wf) (hplan : f.writer.plan = []) {result : Except Error Unit}
    (hsend : f.sendReset = (result, f')) : result = .ok () ∧ Wrote f f' [none, none] := by
  obtain ⟨hresult, hwriter, _, _⟩ := sendReset_spec f hf
  rw [hsend, Writer.send_healthy f.writer hplan] at hresult hwriter
  have hempty : kept (0 : UInt8) maxFrameSize false ([] ++ 0 :: ([] ++ 0 :: [])) = [[], []] := by
    rw [kept_append_sep (by simp), if_neg (by simp), kept_append_sep (by simp), if_neg (by simp), kept_nil]
  refine ⟨hresult, ⟨⟨[0, 0], by rw [hwriter], ?_, ?_⟩, by rw [hwriter, hplan]⟩⟩
  · exact congrArg (List.map (decodeFrame cobs maxFrameSize)) hempty
  · change residue (0 : UInt8) maxFrameSize false ([0] ++ [0]) = _
    exact residue_concat_sep

theorem Wrote.reads {g : Framing cobs maxFrameSize} {results : List (Option (List UInt8))} (h : Wrote f f' results)
    {read : Nat} (hread : read ≤ f.writer.wire.length) (hqueue : g.Queue discard (f.writer.wire.drop read) queue) :
    read ≤ f'.writer.wire.length ∧ g.Queue discard (f'.writer.wire.drop read) (queue ++ results) := by
  obtain ⟨bytes, hwire, hkept, hrest⟩ := h.bytes
  rw [hwire, List.drop_append_of_le_length hread]
  refine ⟨by rw [List.length_append]; omega, hqueue.wf, hqueue.stop, ?_, ?_⟩
  · rw [← List.append_assoc, kept_append, hqueue.rest, List.map_append, hqueue.frames, List.nil_append, hkept,
      List.map_append]
  · rw [← List.append_assoc, residue_append, hqueue.rest, List.nil_append, hrest]

theorem sendPacket_refused (hcobs : cobs.Lawful) (hf : f.Wf) (hplan : f.writer.plan = []) {packet : List UInt8} {err : Error}
    (hsend : f.sendPacket packet = (.error err, f')) : f' = f := by
  have hspec := (sendPacket_spec hcobs hf packet).2.2
  rcases hframe : frameOf cobs maxFrameSize packet with refusal | frame
  · rw [hframe, hsend] at hspec
    exact hspec.2
  · have hsent := (sendPacket_healthy hcobs hf hplan hframe).1
    rw [hsend] at hsent
    cases hsent

end DarkbioWire.Framing
