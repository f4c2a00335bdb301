import DarkbioWire.Framing.Readers

/-!
# The fuzz targets

`fuzz/fuzz_targets/next_frame.rs` and `next_packet.rs`: what they build from an input, the readers they feed it through
and the loops with their assertions. A fuzzer runs them on the inputs it comes up with; here it is settled on which inputs
an assertion fails: for frames on none (`nextFrameTarget_passes`), for packets on those with a packet that fits a frame
while the buffer announced for it does not (`nextPacketTarget_passes_iff`). A target is run with fuel, and enough of it
gives the result.
-/

namespace DarkbioWire.Fuzz

open Delimited Framing

/-- Maximum frame size generated by the fuzzer. Anything above `MAX_FRAME_SIZE` should be discarded. -/
def MAX_FUZZ_FRAME_SIZE : UInt32 := 4 * UInt32.ofNat MAX_FRAME_SIZE

/-- Maximum packet size generated by the fuzzer. -/
def MAX_FUZZ_PACKET_SIZE : UInt32 := 4 * UInt32.ofNat MAX_FRAME_SIZE

/-- Maximum total data size to avoid going OOM from too many too large chunks. -/
def MAX_TOTAL_SIZE : Nat := 64 * 1024 * 1024

/-- The `take_while` of both targets: the sizes up to the first one that exceeds the total. -/
def takeWithin (cost : UInt32 → Nat) : Nat → List UInt32 → List UInt32
  | _, [] => []
  | total, size :: sizes =>
      let total := total + (cost size + 1)
      if total ≤ MAX_TOTAL_SIZE then size :: takeWithin cost total sizes else []

/-- The desired sizes, discarding anything above some sanity threshold. -/
def desired (maxSize : UInt32) (cost : UInt32 → Nat) (sizes : List UInt32) : List UInt32 :=
  takeWithin cost 0 (sizes.map (· % (maxSize + 1)))

/-- Specialized reader that returns its input data in smaller chunks to simulate various fragmentation scenarios. -/
structure ChunkedReader where
  data : List UInt8
  pos : Nat
  chunks : List UInt16
  chunkIdx : Nat

def ChunkedReader.new (data : List UInt8) (chunkSizes : List UInt16) : ChunkedReader where
  data := data
  pos := 0
  chunks := chunkSizes
  chunkIdx := 0

/-- The bytes a `ChunkedReader` has not returned yet. -/
def ChunkedReader.rest (reader : ChunkedReader) : List UInt8 := reader.data.drop reader.pos

/-- The next chunk size, defaulting to everything at the end, and the index behind it. -/
def ChunkedReader.nextChunk (reader : ChunkedReader) (room : Nat) : Nat × Nat :=
  if reader.chunks.isEmpty then (room, reader.chunkIdx)
  else
    let size := (reader.chunks.getD (reader.chunkIdx % reader.chunks.length) 0).toNat
    (max size 1, reader.chunkIdx + 1)

instance : Read ChunkedReader where
  read room reader :=
    -- If the reader is exhausted, return EOF
    if reader.pos ≥ reader.data.length then (.ok [], reader)
    else
      let (chunkSize, chunkIdx) := reader.nextChunk room
      let available := reader.data.length - reader.pos
      let toRead := min (min chunkSize available) room
      (.ok (slice reader.data reader.pos (reader.pos + toRead)), { reader with pos := reader.pos + toRead, chunkIdx })

theorem ChunkedReader.nextChunk_pos (reader : ChunkedReader) {room : Nat} (hroom : 0 < room) :
    0 < (reader.nextChunk room).1 := by
  rw [nextChunk]
  split
  · exact hroom
  · exact Nat.lt_of_lt_of_le Nat.zero_lt_one (Nat.le_max_right _ 1)

theorem serves_chunked : Serves ChunkedReader.rest := by
  intro room reader hroom
  by_cases hend : reader.pos ≥ reader.data.length
  · refine ⟨[], reader, if_pos hend, Nat.zero_le room, List.nil_append _, fun _ => ?_⟩
    exact List.drop_eq_nil_of_le hend
  · -- whatever the chunk size, the read takes a byte at least
    obtain ⟨toRead, chunkIdx, hread, hpos, hfit, hlen⟩ : ∃ toRead chunkIdx, Read.read room reader =
        (.ok (slice reader.data reader.pos (reader.pos + toRead)),
          { reader with pos := reader.pos + toRead, chunkIdx }) ∧
        0 < toRead ∧ toRead ≤ room ∧ reader.pos + toRead ≤ reader.data.length := by
      have hchunk := reader.nextChunk_pos hroom
      refine ⟨min (min (reader.nextChunk room).1 (reader.data.length - reader.pos)) room, (reader.nextChunk room).2,
        if_neg hend, ?_, Nat.min_le_right _ _, ?_⟩
      · omega
      · omega
    refine ⟨_, _, hread, ?_, ?_, ?_⟩
    · rw [length_slice hlen]
      omega
    · have hsplit : slice reader.data reader.pos (reader.pos + toRead) ++
          slice reader.data (reader.pos + toRead) reader.data.length =
            slice reader.data reader.pos reader.data.length :=
        slice_append (Nat.le_add_right reader.pos toRead) hlen
      rwa [slice, slice, slice, List.take_length] at hsplit
    · intro hnone
      have hlength := congrArg List.length hnone
      rw [length_slice hlen, List.length_nil] at hlength
      omega

/-- The loop of a target: keeps consuming and checks against the expected sizes. An error is the message of the assertion
that failed. -/
def consume {F R : Type} (what : String) (call : F → R → Option (Poll (Option (List UInt8)) × F × R))
    (expected : List UInt32) : Nat → F → R → Nat → Option (Except String Unit)
  | 0, _, _, _ => none
  | fuel + 1, wire, reader, idx =>
    match call wire reader with
    | none => none
    | some (.pending _, _, _) => none
    | some (.panic, _, _) => some (.error "index out of bounds")
    | some (.ready (.error .terminated), _, _) =>
        if idx = expected.length then some (.ok ()) else some (.error (what ++ " count mismatch"))
    | some (.ready (.error _), wire, reader) => consume what call expected fuel wire reader idx
    | some (.ready (.ok none), wire, reader) => consume what call expected fuel wire reader idx
    | some (.ready (.ok (some bytes)), wire, reader) =>
        match expected[idx]? with
        | none => some (.error ("received more " ++ what ++ "s than expected"))
        | some size =>
            if bytes.length ≠ size.toNat then some (.error (what ++ " " ++ toString idx ++ " size mismatch"))
            else if bytes.all (· == 1) then consume what call expected fuel wire reader (idx + 1)
            else some (.error (what ++ " " ++ toString idx ++ " content mismatch"))

/-- A call takes the next piece of what is in front of it, or finds the end of the stream. -/
def Takes {R : Type} {cobs : Cobs} {maxFrameSize : Nat}
    (call : Framing cobs maxFrameSize → R → Option (Poll (Option (List UInt8)) × Framing cobs maxFrameSize × R))
    (decode : List UInt8 → Except Error (Option (List UInt8))) (rest : R → List UInt8) (bound : Nat) : Prop :=
  ∀ (f : Framing cobs maxFrameSize) (reader : R), f.Wf → (f.pending ++ rest reader).length ≤ bound →
    ∃ poll g reader', call f reader = some (poll, g, reader') ∧ g.Wf ∧
      match next 0 maxFrameSize false (f.pending ++ rest reader) with
      | some (frame, more) => poll = .ready (decode frame) ∧ g.pending ++ rest reader' = more
      | none => poll = .ready (.error .terminated)

/-- The loop passes exactly when the sizes that come out in front of it are those still expected. -/
theorem consume_passes_iff {R : Type} {cobs : Cobs} {maxFrameSize bound idx : Nat} (what : String) (fuel : Nat)
    (expected : List UInt32)
    {call : Framing cobs maxFrameSize → R → Option (Poll (Option (List UInt8)) × Framing cobs maxFrameSize × R)}
    {decode : List UInt8 → Except Error (Option (List UInt8))} {rest : R → List UInt8}
    (htakes : Takes call decode rest bound) {sizes : List UInt32} {f : Framing cobs maxFrameSize} {reader : R}
    (hf : f.Wf) (hbound : (f.pending ++ rest reader).length ≤ bound) (hle : idx ≤ expected.length)
    (hpieces : (accepted 0 maxFrameSize (f.pending ++ rest reader)).map decode =
      sizes.map fun size => .ok (some (List.replicate size.toNat 1)))
    (hfuel : sizes.length < fuel) :
    ∃ result, consume what call expected fuel f reader idx = some result ∧
      (result = .ok () ↔ sizes = expected.drop idx) := by
  induction fuel generalizing f reader idx sizes with
  | zero => omega
  | succ fuel ih =>
      obtain ⟨poll, g, reader', hcall, hg, hnext⟩ := htakes f reader hf hbound
      rw [consume, hcall]
      cases hfront : next 0 maxFrameSize false (f.pending ++ rest reader) with
      | none =>
          rw [hfront] at hnext
          obtain rfl := hnext
          rw [accepted_of_next_none hfront] at hpieces
          obtain rfl : sizes = [] := List.map_eq_nil_iff.mp hpieces.symm
          dsimp only
          split
          · rename_i hlast
            exact ⟨_, rfl, iff_of_true rfl (List.drop_eq_nil_of_le (Nat.le_of_eq hlast.symm)).symm⟩
          · rename_i hmore
            refine ⟨_, rfl, iff_of_false (by simp) fun hdone => hmore ?_⟩
            have hlength := List.drop_eq_nil_iff.mp hdone.symm
            omega
      | some front =>
          obtain ⟨frame, more⟩ := front
          rw [hfront] at hnext
          obtain ⟨rfl, hmore⟩ := hnext
          rw [accepted_of_next_some hfront, List.map_cons] at hpieces
          rcases sizes with _ | ⟨size, sizes⟩
          · cases hpieces
          rw [List.map_cons] at hpieces
          obtain ⟨hdecode, hpieces⟩ := List.cons.inj hpieces
          rw [hdecode]
          dsimp only
          rcases hget : expected[idx]? with _ | wanted
          · -- a packet comes out that is not expected any more
            rw [List.drop_eq_nil_of_le (List.getElem?_eq_none_iff.mp hget)]
            exact ⟨_, rfl, iff_of_false (by simp) (by simp)⟩
          obtain ⟨hlt, hwanted⟩ := List.getElem?_eq_some_iff.mp hget
          rw [List.drop_eq_getElem_cons hlt, hwanted, List.cons_eq_cons]
          dsimp only
          rw [List.length_replicate]
          by_cases hsize : size = wanted
          · have hall : (List.replicate size.toNat (1 : UInt8)).all (· == 1) = true := by simp
            rw [if_neg (not_not_intro (congrArg UInt32.toNat hsize)), if_pos hall]
            obtain ⟨result, hresult, hiff⟩ := ih hg (hmore ▸ Nat.le_trans (Nat.le_of_lt (piece_of_next hfront).2.2) hbound)
              (Nat.succ_le_of_lt hlt) (hmore ▸ hpieces) (Nat.lt_of_succ_lt_succ hfuel)
            exact ⟨result, hresult, hiff.trans (and_iff_right hsize).symm⟩
          · rw [if_pos fun hsame => hsize (UInt32.toNat_inj.mp hsame)]
            exact ⟨_, rfl, iff_of_false (by simp) fun hsame => hsize hsame.1⟩

/-- Fuzz dataset consisting of frame sizes and various chunk sizes to split them into when feeding into the transport.
-/
structure FrameInput where
  frameSizes : List UInt32
  chunkSizes : List UInt16

/-- The frames of an input, each of them 0x01 bytes and its delimiter. -/
def frameData (sizes : List UInt32) : List UInt8 := sizes.flatMap fun size => List.replicate size.toNat 1 ++ [0]

theorem accepted_delimited {limit : Nat} {frames : List (List UInt8)} (hclean : ∀ frame ∈ frames, 0 ∉ frame) :
    accepted 0 limit (frames.flatMap (· ++ [0])) = frames.filter fun frame => decide (frame.length ≤ limit) := by
  induction frames with
  | nil => exact accepted_of_not_mem (by simp)
  | cons frame frames ih =>
      have hrest := ih fun frame hframe => hclean frame (List.mem_cons_of_mem _ hframe)
      rw [List.flatMap_cons, List.append_assoc, List.singleton_append,
        accepted_append_sep (hclean frame List.mem_cons_self), hrest, List.filter_cons]
      by_cases hlong : limit < frame.length
      · rw [if_pos hlong, if_neg (by simpa using hlong)]
      · rw [if_neg hlong, if_pos (by simpa using hlong)]

theorem zero_not_mem_ones (size : Nat) : (0 : UInt8) ∉ List.replicate size (1 : UInt8) := by
  intro hmem
  exact absurd (List.eq_of_mem_replicate hmem) (by decide)

theorem frameData_accepted (limit : Nat) (sizes : List UInt32) :
    accepted 0 limit (frameData sizes) =
      (sizes.filter fun size => decide (size.toNat ≤ limit)).map fun size => List.replicate size.toNat 1 := by
  have hdata : frameData sizes = (sizes.map fun size => List.replicate size.toNat 1).flatMap (· ++ [0]) := by
    rw [frameData, List.flatMap_map]
  have hclean : ∀ frame ∈ sizes.map fun size => List.replicate size.toNat (1 : UInt8), 0 ∉ frame := by
    intro frame hframe
    obtain ⟨size, _, rfl⟩ := List.mem_map.mp hframe
    exact zero_not_mem_ones size.toNat
  rw [hdata, accepted_delimited hclean, List.filter_map]
  congr 1
  apply List.filter_congr
  intro size _
  simp

/-- `next_frame_blob`, its frame where a packet may be missing. -/
def frameCall (cobs : Cobs) (fuel : Nat) (wire : Framing cobs MAX_FRAME_SIZE) (reader : ChunkedReader) :
    Option (Poll (Option (List UInt8)) × Framing cobs MAX_FRAME_SIZE × ChunkedReader) :=
  (nextFrameBlob fuel wire reader).map fun (poll, wire, reader) =>
    match poll with
    | .ready (.ok frame) => (.ready (.ok (some frame)), wire, reader)
    | .ready (.error err) => (.ready (.error err), wire, reader)
    | .pending discard => (.pending discard, wire, reader)
    | .panic => (.panic, wire, reader)

theorem frameCall_takes (cobs : Cobs) {fuel bound : Nat} (hfuel : 2 * bound < fuel) :
    Takes (frameCall cobs fuel) (fun frame => .ok (some frame)) ChunkedReader.rest bound := by
  intro f reader hf hbound
  have hroom : 2 * (f.pending ++ reader.rest).length < fuel := by omega
  obtain ⟨poll, g, reader', hblob, hg, hnext⟩ := nextFrameBlob_serves serves_chunked hf hroom
  rw [frameCall, hblob]
  cases hfront : next 0 MAX_FRAME_SIZE false (f.pending ++ reader.rest) with
  | none =>
      rw [hfront] at hnext
      exact ⟨_, g, reader', by rw [hnext]; rfl, hg, rfl⟩
  | some front =>
      rw [hfront] at hnext
      exact ⟨_, g, reader', by rw [hnext.1]; rfl, hg, rfl, hnext.2⟩

/-- `fuzz_targets/next_frame.rs`. -/
def nextFrameTarget (cobs : Cobs) (fuel : Nat) (input : FrameInput) : Option (Except String Unit) :=
  let frameSizes := desired MAX_FUZZ_FRAME_SIZE UInt32.toNat input.frameSizes
  let reader := ChunkedReader.new (frameData frameSizes) input.chunkSizes
  let wire : Framing cobs MAX_FRAME_SIZE := new [] ⟨[], []⟩
  -- Anything above the wire frame threshold is discarded
  let expectedSizes := frameSizes.filter fun size => decide (size.toNat ≤ MAX_FRAME_SIZE)
  consume "frame" (frameCall cobs fuel) expectedSizes fuel wire reader 0

/-- Whatever the sizes of the frames and of the chunks, no assertion of the target fails. -/
theorem nextFrameTarget_passes (cobs : Cobs) (input : FrameInput) :
    ∃ enough, ∀ fuel, enough ≤ fuel → nextFrameTarget cobs fuel input = some (.ok ()) := by
  obtain ⟨sizes, hsizes⟩ : ∃ sizes, sizes = desired MAX_FUZZ_FRAME_SIZE UInt32.toNat input.frameSizes := ⟨_, rfl⟩
  refine ⟨2 * (frameData sizes).length + sizes.length + 1, fun fuel hfuel => ?_⟩
  rw [nextFrameTarget, ← hsizes]
  have hfront : (new [] ⟨[], []⟩ : Framing cobs MAX_FRAME_SIZE).pending ++
      (ChunkedReader.new (frameData sizes) input.chunkSizes).rest = frameData sizes := by
    rw [new_pending, List.nil_append]
    rfl
  have htakes := frameCall_takes cobs (show 2 * (frameData sizes).length < fuel by omega)
  have hfilter := List.length_filter_le (fun size : UInt32 => decide (size.toNat ≤ MAX_FRAME_SIZE)) sizes
  obtain ⟨result, hresult, hiff⟩ := consume_passes_iff "frame" fuel
    (sizes.filter fun size => decide (size.toNat ≤ MAX_FRAME_SIZE)) htakes (new_wf [] _) (by rw [hfront])
    (Nat.zero_le _) (by rw [hfront, frameData_accepted, List.map_map]; rfl) (by omega)
  rw [hresult, hiff.mpr rfl]

/-- The packets of an input, each of them 0x01 bytes, encoded and delimited. -/
def packetData (cobs : Cobs) (sizes : List UInt32) : Except String (List UInt8) := do
  let frames ← sizes.mapM fun size => do
    let encoded ← cobs.encode (List.replicate size.toNat 1) (cobs.encodeBuffer size.toNat)
    return encoded ++ [0]
  return frames.flatten

/-- `fuzz_targets/next_packet.rs`. -/
def nextPacketTarget (cobs : Cobs) (fuel : Nat) (packetSizes : List UInt32) : Option (Except String Unit) :=
  let packetSizes := desired MAX_FUZZ_PACKET_SIZE (fun size => cobs.encodeBuffer size.toNat) packetSizes
  match packetData cobs packetSizes with
  | .error err => some (.error err)
  | .ok wireData =>
      let wire : Framing cobs MAX_FRAME_SIZE := new [] ⟨[], []⟩
      -- Anything that COBS-encodes above the wire frame threshold is discarded
      let expectedSizes := packetSizes.filter fun size => decide (cobs.encodeBuffer size.toNat ≤ MAX_FRAME_SIZE)
      consume "packet" (nextPacketBlob fuel) expectedSizes fuel wire wireData 0

theorem packetData_ok {cobs : Cobs} (hcobs : cobs.Lawful) (sizes : List UInt32) :
    ∃ frames, packetData cobs sizes = .ok (frames.flatMap (· ++ [0])) ∧ (∀ frame ∈ frames, 0 ∉ frame) ∧
      List.Forall₂ (fun size frame =>
        cobs.encode (List.replicate size.toNat 1) (cobs.encodeBuffer size.toNat) = .ok frame) sizes frames := by
  induction sizes with
  | nil => exact ⟨[], rfl, by simp, .nil⟩
  | cons size sizes ih =>
      obtain ⟨frames, hdata, hclean, hframes⟩ := ih
      have hroom : cobs.encodeBuffer (List.replicate size.toNat (1 : UInt8)).length ≤ cobs.encodeBuffer size.toNat := by
        rw [List.length_replicate]
      obtain ⟨frame, hframe⟩ := hcobs.encode_fits hroom
      refine ⟨frame :: frames, ?_, List.forall_mem_cons.mpr ⟨hcobs.encode_nonzero hframe, hclean⟩, .cons hframe hframes⟩
      rw [packetData] at hdata ⊢
      rw [List.mapM_cons, hframe]
      rcases hmap : sizes.mapM (fun size => do
        let encoded ← cobs.encode (List.replicate size.toNat 1) (cobs.encodeBuffer size.toNat)
        return encoded ++ [0]) with err | delimited
      · rw [hmap] at hdata
        cases hdata
      · rw [hmap] at hdata
        have hflat : delimited.flatten = frames.flatMap (· ++ [0]) := Except.ok.inj hdata
        rw [hmap, List.flatMap_cons, ← hflat]
        rfl

theorem nextPacketBlob_takes (cobs : Cobs) {fuel bound : Nat} (hfuel : 2 * bound < fuel) :
    Takes (nextPacketBlob fuel : Framing cobs MAX_FRAME_SIZE → List UInt8 → _) (decodeFrame cobs MAX_FRAME_SIZE)
      (fun bytes => bytes) bound := by
  intro f reader hf hbound
  have hroom : (f.pending ++ reader).length ≤ bound := hbound
  exact nextPacketBlob_serves serves_list hf (show 2 * (f.pending ++ reader).length < fuel by omega)

/-- A packet of this size fits a frame, whatever the buffer announced for it. -/
def FitsFrame (cobs : Cobs) (size : UInt32) : Prop :=
  ∃ frame, cobs.encode (List.replicate size.toNat 1) (cobs.encodeBuffer size.toNat) = .ok frame ∧ frame.length ≤ MAX_FRAME_SIZE

/-- What comes out of the encodings of packets: the packets that fit a frame, and the expected ones are among them. -/
theorem packets_accepted {cobs : Cobs} (hcobs : cobs.Lawful) {sizes : List UInt32} {frames : List (List UInt8)}
    (hframes : List.Forall₂ (fun size frame =>
      cobs.encode (List.replicate size.toNat 1) (cobs.encodeBuffer size.toNat) = .ok frame) sizes frames) :
    ∃ received : List UInt32, (frames.filter fun frame => decide (frame.length ≤ MAX_FRAME_SIZE)).map
        (decodeFrame cobs MAX_FRAME_SIZE) = received.map (fun size => .ok (some (List.replicate size.toNat 1))) ∧
      received.length ≤ sizes.length ∧
      (received = sizes.filter (fun size => decide (cobs.encodeBuffer size.toNat ≤ MAX_FRAME_SIZE)) ↔
        ∀ size ∈ sizes, FitsFrame cobs size → cobs.encodeBuffer size.toNat ≤ MAX_FRAME_SIZE) ∧
      (sizes.filter fun size => decide (cobs.encodeBuffer size.toNat ≤ MAX_FRAME_SIZE)).length ≤ received.length := by
  induction hframes with
  | nil => exact ⟨[], rfl, Nat.le_refl 0, iff_of_true rfl (by simp), Nat.le_refl 0⟩
  | @cons size frame sizes frames hframe _ ih =>
      obtain ⟨received, hdecoded, hlength, hsame, hmore⟩ := ih
      have hannounced : frame.length ≤ cobs.encodeBuffer size.toNat := by
        have hle := hcobs.encode_length hframe
        rwa [List.length_replicate] at hle
      have hfits : FitsFrame cobs size ↔ frame.length ≤ MAX_FRAME_SIZE := by
        constructor
        · rintro ⟨frame', hframe', hfit⟩
          rwa [← Except.ok.inj (hframe'.symm.trans hframe)]
        · exact fun hfit => ⟨frame, hframe, hfit⟩
      rw [List.filter_cons, List.filter_cons, List.forall_mem_cons, hfits]
      by_cases hfit : frame.length ≤ MAX_FRAME_SIZE
      · have hdecode : decodeFrame cobs MAX_FRAME_SIZE frame = .ok (some (List.replicate size.toNat 1)) := by
          rw [decodeFrame, if_neg (hcobs.encode_ne_nil hframe), hcobs.decode_encode hframe hfit]
        rw [if_pos (decide_eq_true hfit), List.map_cons, hdecode, hdecoded]
        refine ⟨size :: received, rfl, Nat.succ_le_succ hlength, ?_, ?_⟩
        · by_cases hwanted : cobs.encodeBuffer size.toNat ≤ MAX_FRAME_SIZE
          · rw [if_pos (decide_eq_true hwanted), List.cons_eq_cons]
            exact ⟨fun h => ⟨fun _ => hwanted, hsame.mp h.2⟩, fun h => ⟨rfl, hsame.mpr h.2⟩⟩
          · -- more packets come out than are expected
            rw [if_neg (by simpa using hwanted)]
            refine iff_of_false (fun h => ?_) fun h => hwanted (h.1 hfit)
            have hlonger := congrArg List.length h
            rw [List.length_cons] at hlonger
            omega
        · split
          · exact Nat.succ_le_succ hmore
          · exact Nat.le_succ_of_le hmore
      · have hunwanted : ¬ cobs.encodeBuffer size.toNat ≤ MAX_FRAME_SIZE := fun h => hfit (Nat.le_trans hannounced h)
        rw [if_neg (by simpa using hfit), if_neg (by simpa using hunwanted)]
        exact ⟨received, hdecoded, Nat.le_succ_of_le hlength,
          hsame.trans ⟨fun h => ⟨fun hfit' => absurd hfit' hfit, h⟩, fun h => h.2⟩, hmore⟩

/-- The target passes exactly on the inputs without a packet that fits a frame while the buffer announced for it does not:
the target expects a packet by the announced buffer, and the wire keeps it by its frame. -/
theorem nextPacketTarget_passes_iff {cobs : Cobs} (hcobs : cobs.Lawful) (packetSizes : List UInt32) :
    ∃ enough, ∀ fuel, enough ≤ fuel → ∃ result, nextPacketTarget cobs fuel packetSizes = some result ∧
      (result = .ok () ↔ ∀ size ∈ desired MAX_FUZZ_PACKET_SIZE (fun size => cobs.encodeBuffer size.toNat) packetSizes,
        FitsFrame cobs size → cobs.encodeBuffer size.toNat ≤ MAX_FRAME_SIZE) := by
  obtain ⟨sizes, hsizes⟩ : ∃ sizes, sizes =
    desired MAX_FUZZ_PACKET_SIZE (fun size => cobs.encodeBuffer size.toNat) packetSizes := ⟨_, rfl⟩
  obtain ⟨frames, hdata, hclean, hframes⟩ := packetData_ok hcobs sizes
  obtain ⟨received, hreceived, hlength, hsame, _⟩ := packets_accepted hcobs hframes
  refine ⟨2 * (frames.flatMap (· ++ [0])).length + sizes.length + 1, fun fuel hfuel => ?_⟩
  rw [nextPacketTarget, ← hsizes]
  dsimp only
  rw [hdata]
  have hfront : (new [] ⟨[], []⟩ : Framing cobs MAX_FRAME_SIZE).pending ++ frames.flatMap (· ++ [0]) =
      frames.flatMap (· ++ [0]) := by
    rw [new_pending, List.nil_append]
  have htakes := nextPacketBlob_takes cobs (show 2 * (frames.flatMap (· ++ [0])).length < fuel by omega)
  obtain ⟨result, hresult, hiff⟩ := consume_passes_iff "packet" fuel
    (sizes.filter fun size => decide (cobs.encodeBuffer size.toNat ≤ MAX_FRAME_SIZE)) htakes (new_wf [] _)
    (by rw [hfront]) (Nat.zero_le _) (by rw [hfront, accepted_delimited hclean]; exact hreceived) (by omega)
  exact ⟨result, hresult, hiff.trans hsame⟩

theorem stuffing_fitsFrame {size : UInt32} (hsize : size.toNat + max 1 ((size.toNat + 253) / 254) ≤ MAX_FRAME_SIZE) :
    FitsFrame Cobs.stuffing size := by
  have hroom : Cobs.stuffing.encodeBuffer (List.replicate size.toNat (1 : UInt8)).length ≤
      Cobs.stuffing.encodeBuffer size.toNat := by
    rw [List.length_replicate]
  obtain ⟨frame, hframe⟩ := Cobs.stuffing_lawful.encode_fits hroom
  refine ⟨frame, hframe, ?_⟩
  rw [Cobs.stuffing_encode hframe, Stuffing.length_encode_clean (zero_not_mem_ones _), List.length_replicate]
  exact hsize

/-- Packets well below the limit and above it pass; the one whose frame is as long as the limit allows does not. -/
theorem nextPacketTarget_passes_iff_reference :
    (∃ enough, ∀ fuel, enough ≤ fuel → nextPacketTarget Cobs.stuffing fuel [0, 254] = some (.ok ())) ∧
      ∃ enough, ∀ fuel, enough ≤ fuel → ∃ message,
        nextPacketTarget Cobs.stuffing fuel [2088927] = some (.error message) := by
  constructor
  · obtain ⟨enough, henough⟩ := nextPacketTarget_passes_iff Cobs.stuffing_lawful [0, 254]
    refine ⟨enough, fun fuel hfuel => ?_⟩
    obtain ⟨result, hresult, hiff⟩ := henough fuel hfuel
    rw [hresult, hiff.mpr]
    intro size hsize _
    have hdesired : desired MAX_FUZZ_PACKET_SIZE (fun size => Cobs.stuffing.encodeBuffer size.toNat) [0, 254] =
        [0, 254] := by
      decide +kernel
    rw [hdesired, List.mem_pair] at hsize
    rcases hsize with rfl | rfl
    · decide +kernel
    · decide +kernel
  · obtain ⟨enough, henough⟩ := nextPacketTarget_passes_iff Cobs.stuffing_lawful [2088927]
    refine ⟨enough, fun fuel hfuel => ?_⟩
    obtain ⟨result, hresult, hiff⟩ := henough fuel hfuel
    cases result with
    | error message => exact ⟨message, hresult⟩
    | ok done =>
        have hdesired : (2088927 : UInt32) ∈
            desired MAX_FUZZ_PACKET_SIZE (fun size => Cobs.stuffing.encodeBuffer size.toNat) [2088927] := by
          decide +kernel
        have hfits : FitsFrame Cobs.stuffing 2088927 := stuffing_fitsFrame (by decide +kernel)
        have hunannounced : ¬ Cobs.stuffing.encodeBuffer (2088927 : UInt32).toNat ≤ MAX_FRAME_SIZE := by decide +kernel
        exact absurd (hiff.mp rfl _ hdesired hfits) hunannounced

end DarkbioWire.Fuzz
