import DarkbioWire.Framing.Queue
import DarkbioWire.Framing.Retry

/-!
# A queue behind reads that fail

While no frame is too long, nothing of what a call of `next_packet` has taken in lives in the call. A read that fails ends
the call and leaves the framer with the queue it had, so that a framer whose reads fail has the queue of the same framer
with the failures taken out of its reads.
-/

namespace DarkbioWire

open Framing Delimited

/-! ### Reads without the failures -/

namespace Reader

theorem bytes_withoutFailures (reader : Reader) :
    bytes (withoutFailures reader) = bytes reader ++ bytes (withoutFailures (stop reader)) := by
  induction reader using stop.induct with
  | case1 b bs reader ih =>
      have hcons : withoutFailures (.data (b :: bs) :: reader) = .data (b :: bs) :: withoutFailures reader := rfl
      rw [hcons, bytes, bytes, stop, ih, List.append_assoc]
  | case2 reader hne => rw [(stopped hne).1, (stopped hne).2, List.nil_append]

theorem stop_withoutFailures (reader : Reader) :
    stop (withoutFailures reader) = stop (withoutFailures (stop reader)) := by
  induction reader using stop.induct with
  | case1 b bs reader ih =>
      have hcons : withoutFailures (.data (b :: bs) :: reader) = .data (b :: bs) :: withoutFailures reader := rfl
      rw [hcons, stop, stop, ih]
  | case2 reader hne => rw [(stopped hne).2]

theorem withoutFailures_chunk (reader : Reader) (bytes : List UInt8) :
    withoutFailures (reader ++ chunk bytes) = withoutFailures reader ++ chunk bytes := by
  cases bytes <;> simp [withoutFailures, chunk]

end Reader

namespace Framing

variable {cobs : Cobs} {maxFrameSize : Nat} {f f' : Framing cobs maxFrameSize} {coming bytes : List UInt8}
  {queue : List (Option (List UInt8))}

/-- The framer with the same reads to come, none of which fails. -/
def steady (f : Framing cobs maxFrameSize) : Framing cobs maxFrameSize := { f with reader := withoutFailures f.reader }

theorem steady_unread (f : Framing cobs maxFrameSize) :
    f.steady.unread = f.unread ++ Reader.bytes (withoutFailures f.reader.stop) := by
  change f.pending ++ Reader.bytes (withoutFailures f.reader) = f.pending ++ f.reader.bytes ++ _
  rw [Reader.bytes_withoutFailures, List.append_assoc]

/-- This queue is in front of a framer whose reads may fail, outside of calls or in one that discards nothing, with these
bytes still to come, and no frame of it is too long. -/
structure Line (f : Framing cobs maxFrameSize) (coming : List UInt8) (queue : List (Option (List UInt8))) : Prop where
  queue : f.steady.Queue 0 coming queue
  within : Within 0 maxFrameSize (f.steady.unread ++ coming)

theorem Line.wf (h : f.Line coming queue) : f.Wf := h.queue.wf.toWf.withReader f.reader

theorem Line.of_unread (h : f.Line coming queue) (hwf : f'.Wf) (hunread : f'.steady.unread = f.steady.unread)
    (hstop : f'.steady.reader.stop = []) : f'.Line coming queue := by
  refine ⟨⟨(hwf.withReader _).wfAt, hstop, ?_, ?_⟩, ?_⟩
  · rw [hunread]
    exact h.queue.frames
  · rw [hunread]
    exact h.queue.rest
  · rw [hunread]
    exact h.within

theorem Line.poll_none (h : f.Line coming queue) (hnext : next 0 maxFrameSize (decide (0 < 0)) f.unread = none) :
    let received := f.nextPacketLoop 0
    0 ∉ f.unread ∧ received.2.Line coming queue ∧ received.2.steady.unread = f.steady.unread ∧
      ((f.reader.stop = [] ∧ packetOf received = .pending 0) ∨
        (f.reader.stop ≠ [] ∧ ∃ cause, packetOf received = .ready (.error (.recvFailed cause)))) := by
  intro received
  have hwithin := h.within
  rw [steady_unread, List.append_assoc] at hwithin
  obtain ⟨hspec, hwf, _⟩ := nextPacketLoop_spec h.wf.wfAt
  change NextPacketSpec f 0 received at hspec
  change received.2.Wf at hwf
  rw [NextPacketSpec, hnext] at hspec
  obtain ⟨discard, hresidue, _, hend⟩ := hspec
  obtain ⟨hclean, hholds⟩ := hwithin.holds hnext
  obtain ⟨hdiscard, hpending⟩ := Prod.mk.inj (hresidue.symm.trans hholds)
  obtain rfl : discard = 0 := by simpa using hdiscard
  refine ⟨hclean, ?_⟩
  have hstop := h.queue.stop
  change Reader.stop (withoutFailures f.reader) = [] at hstop
  rw [Reader.stop_withoutFailures] at hstop
  have hleaves : ∀ reader, received.2.reader = reader → withoutFailures reader = withoutFailures f.reader.stop →
      received.2.Line coming queue ∧ received.2.steady.unread = f.steady.unread := by
    intro reader hreader hsame
    have hunread : received.2.steady.unread = f.steady.unread := by
      rw [steady_unread f, ← hsame, ← hreader, ← hpending]
      rfl
    refine ⟨h.of_unread hwf hunread ?_, hunread⟩
    change Reader.stop (withoutFailures received.2.reader) = []
    rw [hreader, hsame, hstop]
  rcases hreads : f.reader.stop with _ | ⟨read, reader⟩
  · rw [hreads] at hend
    obtain ⟨hline, hunread⟩ := hleaves [] hend.2 (by rw [hreads])
    exact ⟨hline, hunread, Or.inl ⟨rfl, hend.1⟩⟩
  · rw [hreads] at hend hstop
    cases read with
    | data bytes =>
        -- an end of the stream is no failure, it would be there without the failures
        have hbytes := Reader.bytes_stop f.reader
        rw [hreads] at hbytes
        have hempty : bytes = [] := by
          rcases bytes with _ | ⟨b, bs⟩
          · rfl
          · cases hbytes
        subst hempty
        cases hstop
    | fail cause =>
        obtain ⟨hline, hunread⟩ := hleaves reader hend.2 (by rw [hreads]; rfl)
        exact ⟨hline, hunread, Or.inr ⟨by simp, cause, hend.1⟩⟩

theorem Line.poll_some (h : f.Line coming queue) {frame left : List UInt8}
    (hnext : next 0 maxFrameSize (decide (0 < 0)) f.unread = some (frame, left)) :
    let received := f.nextPacketLoop 0
    0 ∈ f.unread ∧ ∃ packet rest, packetOf received = .ready (.ok packet) ∧ queue = packet :: rest ∧
      received.2.Line coming rest ∧ received.2.steady.unread.length ≤ f.steady.unread.length := by
  intro received
  have hwithin := h.within
  rw [steady_unread, List.append_assoc] at hwithin
  obtain ⟨hspec, hwf, _⟩ := nextPacketLoop_spec h.wf.wfAt
  change NextPacketSpec f 0 received at hspec
  change received.2.Wf at hwf
  rw [NextPacketSpec, hnext] at hspec
  obtain ⟨hpacket, hunread, hstop⟩ := hspec
  obtain ⟨hdelimiter, hrest⟩ := hwithin.behind hnext
  have hsteady : received.2.steady.unread = left ++ Reader.bytes (withoutFailures f.reader.stop) := by
    rw [steady_unread, hunread, hstop]
  have hnext' : next 0 maxFrameSize (decide (0 < 0)) (f.steady.unread ++ coming) =
      some (frame, received.2.steady.unread ++ coming) := by
    rw [hsteady, steady_unread, List.append_assoc, List.append_assoc]
    exact next_append_of_some hnext _
  have hframes := h.queue.frames
  rw [kept_of_some hnext', List.map_cons] at hframes
  rcases hqueue : queue with _ | ⟨packet, queue'⟩
  · rw [hqueue] at hframes
    cases hframes
  rw [hqueue, List.map_cons] at hframes
  obtain ⟨hdecode, hframes'⟩ := List.cons.inj hframes
  refine ⟨hdelimiter, packet, queue', by rw [hpacket, hdecode], rfl, ⟨⟨?_, ?_, hframes', ?_⟩, ?_⟩, ?_⟩
  · exact (hwf.withReader _).wfAt
  · change Reader.stop (withoutFailures received.2.reader) = []
    rw [Reader.stop_withoutFailures, hstop, ← Reader.stop_withoutFailures]
    exact h.queue.stop
  · rw [← h.queue.rest, residue_of_next hnext']
    rfl
  · rw [hsteady, List.append_assoc]
    exact hrest
  · have hshorter := (piece_of_next hnext).2.2
    rw [hsteady, steady_unread, List.length_append, List.length_append]
    omega

/-- A poll waits on or fails and leaves the queue, or takes its head. -/
theorem Line.poll (h : f.Line coming queue) :
    let received := f.nextPacketLoop 0
    received.2.writer = f.writer ∧
      ((f.reader.stop = [] ∧ packetOf received = .pending 0 ∧ received.2.Line coming queue ∧
          received.2.steady.unread = f.steady.unread) ∨
        (0 ∉ f.unread ∧ f.reader.stop ≠ [] ∧ (∃ cause, packetOf received = .ready (.error (.recvFailed cause))) ∧
          received.2.Line coming queue ∧ received.2.steady.unread = f.steady.unread) ∨
        (0 ∈ f.unread ∧ ∃ packet rest, packetOf received = .ready (.ok packet) ∧ queue = packet :: rest ∧
          received.2.Line coming rest ∧ received.2.steady.unread.length ≤ f.steady.unread.length)) := by
  intro received
  refine ⟨(nextPacketLoop_spec h.wf.wfAt).2.2.writer, ?_⟩
  rcases hnext : next 0 maxFrameSize (decide (0 < 0)) f.unread with _ | ⟨frame, left⟩
  · obtain ⟨hclean, hline, hunread, ⟨hstop, hpending⟩ | ⟨hstop, hfailed⟩⟩ := h.poll_none hnext
    · exact Or.inl ⟨hstop, hpending, hline, hunread⟩
    · exact Or.inr (Or.inl ⟨hclean, hstop, hfailed, hline, hunread⟩)
  · exact Or.inr (Or.inr (h.poll_some hnext))

/-! ### Writing whole frames -/

/-- What a framer wrote: whole frames, none of them too long. -/
def Adds (f f' : Framing cobs maxFrameSize) : Prop :=
  ∃ bytes, f'.writer.wire = f.writer.wire ++ bytes ∧ Within 0 maxFrameSize bytes ∧
    residue 0 maxFrameSize false bytes = (false, [])

theorem Adds.nothing (hwire : f'.writer.wire = f.writer.wire) : f.Adds f' :=
  ⟨[], by rw [hwire, List.append_nil], within_nil, residue_nil⟩

theorem Adds.trans {g : Framing cobs maxFrameSize} (h : f.Adds f') (h' : f'.Adds g) : f.Adds g := by
  obtain ⟨bytes, hwire, hwithin, hrest⟩ := h
  obtain ⟨bytes', hwire', hwithin', hrest'⟩ := h'
  refine ⟨bytes ++ bytes', by rw [hwire', hwire, List.append_assoc], hwithin.append hrest hwithin', ?_⟩
  rw [residue_append, hrest, List.nil_append, hrest']

theorem Adds.packet (hcobs : cobs.Lawful) (hf : f.Wf) {packet : List UInt8}
    (hsend : f.sendPacket packet = (.ok (), f')) : f.Adds f' := by
  obtain ⟨frame, hframe, hwire, _, _⟩ := sendPacket_ok hcobs hf hsend
  obtain ⟨hclean, hfits, _, _⟩ := frameOf_ok hcobs hframe
  exact ⟨frame ++ [0], hwire, (within_append_sep hclean).mpr ⟨hfits, within_nil⟩, residue_concat_sep⟩

theorem Adds.reset (hf : f.Wf) (hplan : f.writer.plan = []) {result : Except Error Unit}
    (hsend : f.sendReset = (result, f')) : f.Adds f' := by
  obtain ⟨_, hwriter, _, _⟩ := sendReset_spec f hf
  rw [hsend, Writer.send_healthy f.writer hplan] at hwriter
  have hempty : Within (0 : UInt8) maxFrameSize ([] ++ 0 :: ([] ++ 0 :: [])) := by
    apply (within_append_sep List.not_mem_nil).mpr
    refine ⟨Nat.zero_le _, (within_append_sep List.not_mem_nil).mpr ⟨Nat.zero_le _, within_nil⟩⟩
  refine ⟨[0, 0], by rw [hwriter], hempty, ?_⟩
  change residue (0 : UInt8) maxFrameSize false ([0] ++ [0]) = _
  exact residue_concat_sep

end Framing

end DarkbioWire
