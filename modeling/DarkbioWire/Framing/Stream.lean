import DarkbioWire.Framing.Spec
import DarkbioWire.Reference.Codec

/-!
# Whole streams through the framer

What repeated calls return over a stream that is cut into reads in any way, and what comes out of a stream that packets,
resets and interrupted packets were written to. A stream is the bytes and nothing else: how the reads cut it never shows
in the results.
-/

namespace DarkbioWire.Framing

open Delimited

variable {cobs : Cobs} {maxFrameSize : Nat} {f f' : Framing cobs maxFrameSize}

/-- A reader serving these reads and then the end of the stream. -/
def streamOf (reads : List (List UInt8)) : Reader := reads.map .data ++ [.data []]

theorem streamOf_bytes {reads : List (List UInt8)} (hreads : ∀ read ∈ reads, read ≠ []) :
    (streamOf reads).bytes = reads.flatten ∧ (streamOf reads).stop = [.data []] := by
  induction reads with
  | nil => exact ⟨rfl, rfl⟩
  | cons read reads ih =>
      obtain ⟨hbytes, hstop⟩ := ih fun r hr => hreads r (List.mem_cons_of_mem _ hr)
      obtain ⟨b, bs, rfl⟩ := List.exists_cons_of_ne_nil (hreads read List.mem_cons_self)
      constructor
      · rw [List.flatten_cons, ← hbytes]
        rfl
      · rw [← hstop]
        rfl

/-! ### Frames -/

/-- Calling `next_frame` again and again returns these frames and then this error. -/
inductive ReadsFrames : Framing cobs maxFrameSize → List (List UInt8) → Error → Prop
  | frame {f f' start stop frame frames err} : f.nextFrame = (.ready (.ok (start, stop)), f') →
      slice? f'.readerBuffer start stop = some frame → ReadsFrames f' frames err →
      ReadsFrames f (frame :: frames) err
  | stop {f f' err} : f.nextFrame = (.ready (.error err), f') → ReadsFrames f [] err

theorem ReadsFrames.unique {frames frames' : List (List UInt8)} {err err' : Error} (h : ReadsFrames f frames err)
    (h' : ReadsFrames f frames' err') : frames = frames' ∧ err = err' := by
  induction h generalizing frames' err' with
  | frame hcall hslice _ ih =>
      cases h' with
      | frame hcall' hslice' hrest =>
          rw [hcall'] at hcall
          obtain ⟨hrange, rfl⟩ := Prod.mk.inj hcall
          injection hrange with hrange
          injection hrange with hrange
          obtain ⟨rfl, rfl⟩ := Prod.mk.inj hrange
          rw [hslice'] at hslice
          obtain ⟨rfl, rfl⟩ := ih hrest
          exact ⟨by rw [Option.some.inj hslice], rfl⟩
      | stop hcall' =>
          rw [hcall'] at hcall
          cases hcall
  | stop hcall =>
      cases h' with
      | frame hcall' _ _ =>
          rw [hcall'] at hcall
          cases hcall
      | stop hcall' =>
          rw [hcall'] at hcall
          obtain ⟨herr, _⟩ := Prod.mk.inj hcall
          injection herr with herr
          injection herr with herr
          exact ⟨rfl, herr.symm⟩

/-- Over a stream that ends, the calls return the pieces within the limit and then `Terminated`. -/
theorem Wf.readsFrames (hf : f.Wf) {rest : Reader} (hstop : f.reader.stop = .data [] :: rest) :
    ReadsFrames f (accepted 0 maxFrameSize f.unread) .terminated := by
  induction hlen : f.unread.length using Nat.strongRecOn generalizing f with
  | ind n ih =>
    subst hlen
    obtain ⟨hspec, hwf, _⟩ := nextFrameLoop_spec hf.wfAt
    rw [NextFrameSpec] at hspec
    rcases hnext : next 0 maxFrameSize (decide (0 < 0)) f.unread with _ | ⟨frame, unread⟩
    · rw [hnext, hstop] at hspec
      obtain ⟨_, _, _, hpoll, _⟩ := hspec
      rw [accepted_of_next_none hnext]
      exact .stop (Prod.ext hpoll rfl)
    · rw [hnext] at hspec
      obtain ⟨start, stop, hpoll, hslice, hunread, hstop'⟩ := hspec
      rw [accepted_of_next_some hnext, ← hunread]
      refine .frame (Prod.ext hpoll rfl) hslice (ih _ ?_ hwf (hstop'.trans hstop) rfl)
      change (f.nextFrameLoop 0).2.unread.length < _
      rw [hunread]
      exact (piece_of_next hnext).2.2

/-- Framing is exact for every stream and every fragmentation: repeated calls return the zero-terminated segments within
the limit, byte for byte and in order, drop the longer ones, never return the unterminated tail, and end with
`Terminated`. -/
theorem readsFrames_new_iff {reads : List (List UInt8)} (hreads : ∀ read ∈ reads, read ≠ []) (writer : Writer)
    (frames : List (List UInt8)) (err : Error) :
    ReadsFrames (new (streamOf reads) writer : Framing cobs maxFrameSize) frames err ↔
      frames = ((reads.flatten.splitOn 0).dropLast.filter fun segment => decide (segment.length ≤ maxFrameSize)) ∧
        err = .terminated := by
  obtain ⟨hbytes, hstop⟩ := streamOf_bytes hreads
  have hwf : (new (streamOf reads) writer : Framing cobs maxFrameSize).Wf := new_wf _ _
  have hunread : (new (streamOf reads) writer : Framing cobs maxFrameSize).unread = reads.flatten := by
    rw [unread, new_pending, List.nil_append]
    exact hbytes
  have hexact := hwf.readsFrames hstop
  rw [hunread] at hexact
  constructor
  · intro h
    exact h.unique hexact
  · rintro ⟨rfl, rfl⟩
    exact hexact

theorem readsFrames_new_reference :
    ReadsFrames (new (streamOf [[7, 0, 0], [1, 2], [3, 4, 5, 0, 9], [0, 6]]) ⟨[], []⟩ : Framing Cobs.stuffing 4)
      [[7], [], [9]] .terminated :=
  (readsFrames_new_iff (by decide) ⟨[], []⟩ [[7], [], [9]] .terminated).mpr ⟨by decide, rfl⟩

/-! ### Packets -/

/-- What one call of `next_packet` returned, with the packet in place of its size. -/
abbrev PacketResult := Except Error (Option (List UInt8))

/-- Calling `next_packet` again and again returns these results, of which only transport errors end the stream, and then
this error. -/
inductive ReadsPackets : Framing cobs maxFrameSize → List PacketResult → Error → Prop
  | packet {f result results err} : packetOf f.nextPacket = .ready result → result ≠ .error err →
      ReadsPackets f.nextPacket.2 results err → ReadsPackets f (result :: results) err
  | stop {f err} : packetOf f.nextPacket = .ready (.error err) → ReadsPackets f [] err

theorem ReadsPackets.unique {results results' : List PacketResult} {err : Error} (h : ReadsPackets f results err)
    (h' : ReadsPackets f results' err) : results = results' := by
  induction h generalizing results' with
  | packet hcall hne _ ih =>
      cases h' with
      | packet hcall' _ hrest =>
          obtain rfl := Poll.ready.inj (hcall.symm.trans hcall')
          rw [ih hrest]
      | stop hcall' => exact absurd (Poll.ready.inj (hcall.symm.trans hcall')) hne
  | stop hcall =>
      cases h' with
      | packet hcall' hne _ => exact absurd (Poll.ready.inj (hcall'.symm.trans hcall)) hne
      | stop _ => rfl

theorem Wf.readsPackets (hf : f.Wf) {rest : Reader} (hstop : f.reader.stop = .data [] :: rest) :
    ReadsPackets f ((accepted 0 maxFrameSize f.unread).map (decodeFrame cobs maxFrameSize)) .terminated := by
  induction hlen : f.unread.length using Nat.strongRecOn generalizing f with
  | ind n ih =>
    subst hlen
    obtain ⟨hspec, hwf, _⟩ := nextPacketLoop_spec hf.wfAt
    rw [NextPacketSpec] at hspec
    rcases hnext : next 0 maxFrameSize (decide (0 < 0)) f.unread with _ | ⟨frame, unread⟩
    · rw [hnext, hstop] at hspec
      obtain ⟨_, _, _, hpoll, _⟩ := hspec
      rw [accepted_of_next_none hnext]
      exact .stop hpoll
    · rw [hnext] at hspec
      obtain ⟨hpoll, hunread, hstop'⟩ := hspec
      rw [accepted_of_next_some hnext, ← hunread, List.map_cons]
      refine .packet hpoll ?_ (ih _ ?_ hwf (hstop'.trans hstop) rfl)
      · rw [decodeFrame]
        split
        · simp
        · split <;> simp
      · change (f.nextPacketLoop 0).2.unread.length < _
        rw [hunread]
        exact (piece_of_next hnext).2.2

theorem readsPackets_new {reads : List (List UInt8)} (hreads : ∀ read ∈ reads, read ≠ []) (writer : Writer) :
    ReadsPackets (new (streamOf reads) writer : Framing cobs maxFrameSize)
      ((accepted 0 maxFrameSize reads.flatten).map (decodeFrame cobs maxFrameSize)) .terminated := by
  obtain ⟨hbytes, hstop⟩ := streamOf_bytes hreads
  have hwf : (new (streamOf reads) writer : Framing cobs maxFrameSize).Wf := new_wf _ _
  have hunread : (new (streamOf reads) writer : Framing cobs maxFrameSize).unread = reads.flatten := by
    rw [unread, new_pending, List.nil_append]
    exact hbytes
  rw [← hunread]
  exact hwf.readsPackets hstop

/-! ### What was written comes out -/

/-- One thing done to the writing end of a stream. -/
inductive Written
  | packet (packet : List UInt8)
  | reset
  /-- A packet whose write stopped after `count` bytes of its frame, and the reset that follows it. -/
  | interrupted (packet : List UInt8) (count : Nat)

/-- These things were done to the writing end, whatever the writer answered in between: a packet or a reset went out, or a
packet failed after a proper prefix of its frame and the delimiter, and a reset went out next. -/
inductive Writes : Framing cobs maxFrameSize → List Written → Framing cobs maxFrameSize → Prop
  | nil {f : Framing cobs maxFrameSize} : Writes f [] f
  | packet {f f' f'' packet written} : f.sendPacket packet = (.ok (), f') → Writes f' written f'' →
      Writes f (.packet packet :: written) f''
  | reset {f f' f'' written} : f.sendReset = (.ok (), f') → Writes f' written f'' → Writes f (.reset :: written) f''
  | interrupted {f f' g f'' packet frame count err written} : frameOf cobs maxFrameSize packet = .ok frame →
      f.sendPacket packet = (.error err, f') → count < (frame ++ [0]).length →
      f'.writer.wire = f.writer.wire ++ (frame ++ [0]).take count → f'.sendReset = (.ok (), g) →
      Writes g written f'' → Writes f (.interrupted packet count :: written) f''

/-- What the calls of `next_packet` on the other end return for it: the packet, two resets, or one result that is no
reset followed by one reset. -/
inductive Returns : List Written → List PacketResult → Prop
  | nil : Returns [] []
  | packet {packet written results} : Returns written results →
      Returns (.packet packet :: written) (.ok (some packet) :: results)
  | reset {written results} : Returns written results → Returns (.reset :: written) (.ok none :: .ok none :: results)
  | untouched {packet written results} : Returns written results →
      Returns (.interrupted packet 0 :: written) (.ok none :: .ok none :: results)
  | interrupted {packet count written result results} :
      (∃ received, result = .ok (some received)) ∨ (∃ err, result = .error (.frameDecodingFailed err)) →
      Returns written results → Returns (.interrupted packet (count + 1) :: written) (result :: .ok none :: results)

theorem decodeFrame_of_ne_nil {frame : List UInt8} (hne : frame ≠ []) :
    (∃ received, decodeFrame cobs maxFrameSize frame = .ok (some received)) ∨
      ∃ err, decodeFrame cobs maxFrameSize frame = .error (.frameDecodingFailed err) := by
  rw [decodeFrame, if_neg hne]
  split
  · exact Or.inr ⟨_, rfl⟩
  · exact Or.inl ⟨_, rfl⟩

/-- The bytes written from here on, and what they come out as. -/
theorem Writes.stream (hcobs : cobs.Lawful) (hf : f.Wf) {written : List Written} (h : Writes f written f') :
    ∃ bytes, f'.writer.wire = f.writer.wire ++ bytes ∧
      Returns written ((accepted 0 maxFrameSize bytes).map (decodeFrame cobs maxFrameSize)) := by
  have hreset : ∀ bytes : List UInt8,
      (accepted 0 maxFrameSize (0 :: 0 :: bytes)).map (decodeFrame cobs maxFrameSize) =
        .ok none :: .ok none :: (accepted 0 maxFrameSize bytes).map (decodeFrame cobs maxFrameSize) := by
    intro bytes
    rw [accepted_sep_cons, accepted_sep_cons, List.map_cons, List.map_cons]
    simp [decodeFrame]
  induction h with
  | nil => exact ⟨[], by simp, by simpa [accepted_of_not_mem] using Returns.nil⟩
  | @packet f g f'' packet written hsend _ ih =>
      obtain ⟨hg, _, hframe⟩ := sendPacket_spec hcobs hf packet
      rcases hof : frameOf cobs maxFrameSize packet with err | frame
      · rw [hof, hsend] at hframe
        cases hframe.1
      · rw [hof, hsend] at hframe
        dsimp only at hframe
        obtain ⟨hclean, hfit, hne, hdecode⟩ := frameOf_ok hcobs hof
        rw [hsend] at hg
        obtain ⟨bytes, hwire, hreturns⟩ := ih hg
        refine ⟨frame ++ 0 :: bytes, ?_, ?_⟩
        · rcases Writer.send_cases f.writer (frame ++ [0]) with ⟨_, hsent⟩ | ⟨err, _, herr, _⟩
          · rw [hwire, hframe.2, hsent, List.append_assoc, List.append_assoc]
            rfl
          · rw [herr] at hframe
            cases hframe.1
        · rw [accepted_append_sep hclean, if_neg (by omega), List.map_cons, hdecode]
          exact .packet hreturns
  | @reset f g f'' written hsend _ ih =>
      obtain ⟨hok, hwriter, hg, _⟩ := sendReset_spec f hf
      rw [hsend] at hok hwriter hg
      obtain ⟨bytes, hwire, hreturns⟩ := ih hg
      refine ⟨0 :: 0 :: bytes, ?_, ?_⟩
      · rcases Writer.send_cases f.writer [0, 0] with ⟨_, hsent⟩ | ⟨err, _, herr, _⟩
        · rw [hwire, hwriter, hsent, List.append_assoc]
          rfl
        · rw [herr] at hok
          cases hok
      · rw [hreset]
        exact .reset hreturns
  | @interrupted f f' g f'' packet frame count err written hof hsend hcount hcut hresend _ ih =>
      obtain ⟨hf', _, _⟩ := sendPacket_spec hcobs hf packet
      obtain ⟨hclean, hfit, hne, _⟩ := frameOf_ok hcobs hof
      rw [hsend] at hf'
      obtain ⟨hok, hwriter, hg, _⟩ := sendReset_spec f' hf'
      rw [hresend] at hok hwriter hg
      obtain ⟨bytes, hwire, hreturns⟩ := ih hg
      -- a proper prefix of the frame and the delimiter ends before the delimiter
      have htake : (frame ++ [0]).take count = frame.take count := by
        rw [List.length_append, List.length_singleton] at hcount
        rw [List.take_append_of_le_length (by omega)]
      rw [htake] at hcut
      have hwire' : f''.writer.wire = f.writer.wire ++ (frame.take count ++ 0 :: 0 :: bytes) := by
        rcases Writer.send_cases f'.writer [0, 0] with ⟨_, hsent⟩ | ⟨err, _, herr, _⟩
        · rw [hwire, hwriter, hsent, hcut]
          simp
        · rw [herr] at hok
          cases hok
      refine ⟨_, hwire', ?_⟩
      cases count with
      | zero =>
          rw [List.take_zero, List.nil_append, hreset]
          exact .untouched hreturns
      | succ count =>
          have hne' : frame.take (count + 1) ≠ [] := by
            simpa using hne
          have hclean' : 0 ∉ frame.take (count + 1) := fun hmem => hclean (List.mem_of_mem_take hmem)
          have hfit' : ¬ maxFrameSize < (frame.take (count + 1)).length := by
            rw [List.length_take]
            omega
          rw [accepted_append_sep hclean', if_neg hfit', accepted_sep_cons, List.map_cons, List.map_cons,
            show decodeFrame cobs maxFrameSize [] = .ok none from rfl]
          exact .interrupted (decodeFrame_of_ne_nil hne') hreturns

/-- Packets and resets round-trip, also across an interrupted frame, whatever the reads of the other end are. -/
theorem writes_readsPackets (hcobs : cobs.Lawful) {writer : Writer} (hwriter : writer.wire = []) {reader : Reader}
    {written : List Written} {f' : Framing cobs maxFrameSize}
    (hwrites : Writes (new reader writer : Framing cobs maxFrameSize) written f') {reads : List (List UInt8)}
    (hreads : ∀ read ∈ reads, read ≠ []) (hstream : reads.flatten = f'.writer.wire) (sink : Writer) :
    ∃ results, Returns written results ∧
      ReadsPackets (new (streamOf reads) sink : Framing cobs maxFrameSize) results .terminated := by
  obtain ⟨bytes, hwire, hreturns⟩ := hwrites.stream hcobs (new_wf _ _)
  have hbytes : f'.writer.wire = bytes := by
    rw [hwire]
    change writer.wire ++ bytes = bytes
    rw [hwriter, List.nil_append]
  refine ⟨_, hreturns, ?_⟩
  rw [← hbytes, ← hstream]
  exact readsPackets_new hreads sink

/-- A packet, one that is cut after its first byte, the reset behind it, and the empty packet. -/
theorem writes_readsPackets_reference :
    ∃ results, Returns [.packet [7], .interrupted [8, 9] 1, .packet []] results ∧
      ReadsPackets (new (streamOf [[2, 7], [0, 3, 0, 0], [1, 0]]) ⟨[], []⟩ : Framing Cobs.stuffing 16) results .terminated := by
  have hwrites : ∃ f', Writes
      (new [] ⟨[], [.accept 3, .accept 1, .accept 1, .fail (.other "broken")]⟩ : Framing Cobs.stuffing 16)
      [.packet [7], .interrupted [8, 9] 1, .packet []] f' ∧ f'.writer.wire = [2, 7, 0, 3, 0, 0, 1, 0] :=
    ⟨_, .packet rfl (.interrupted rfl rfl (by decide) rfl rfl (.packet rfl .nil)), rfl⟩
  obtain ⟨f', hwrites, hwire⟩ := hwrites
  exact writes_readsPackets Cobs.stuffing_lawful rfl hwrites (by decide) (by rw [hwire]; rfl) ⟨[], []⟩

end DarkbioWire.Framing
