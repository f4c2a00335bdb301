import DarkbioWire.Framing.Safety

/-!
# The framer over a reader of the caller's own

`Framing<R, W>` is generic in its reader. Elsewhere the environment decides what each read serves; here the reader is
any type with a `read` and a state behind it, which may look at the room it is given and may fail. Its calls are those
over the environment's reader that serves what this one served (`packetsOver_served`), and over a reader that serves
some bytes in order and then the end of the stream a call returns their next piece (`nextFrameOver_serves`).
-/

namespace DarkbioWire

/-- `std::io::Read`, implemented by a type: what a read into `room` bytes returns, and the reader behind it. -/
class Read (R : Type) where
  read : Nat → R → Except IoError (List UInt8) × R

/-- `impl Read for &[u8]`. -/
instance : Read (List UInt8) where
  read room bytes := (.ok (bytes.take room), bytes.drop room)

/-- What a reader served in a row, and the reader behind it. -/
inductive Read.Served {R : Type} [Read R] : R → Reader → R → Prop
  | nil {reader : R} : Served reader [] reader
  | data {reader reader' reader'' : R} {room : Nat} {bytes : List UInt8} {reads : Reader} :
      Read.read room reader = (.ok bytes, reader') → Served reader' reads reader'' →
      Served reader (.data bytes :: reads) reader''
  | fail {reader reader' reader'' : R} {room : Nat} {err : IoError} {reads : Reader} :
      Read.read room reader = (.error err, reader') → Served reader' reads reader'' →
      Served reader (.fail err :: reads) reader''

theorem Read.Served.append {R : Type} [Read R] {reader reader' reader'' : R} {reads reads' : Reader}
    (h : Read.Served reader reads reader') (h' : Read.Served reader' reads' reader'') :
    Read.Served reader (reads ++ reads') reader'' := by
  induction h with
  | nil => exact h'
  | data hread _ ih => exact .data hread (ih h')
  | fail hread _ ih => exact .fail hread (ih h')

/-- What every implementation of `Read` owes its callers: no more bytes than the buffer has room for. -/
def Read.Lawful (R : Type) [Read R] : Prop :=
  ∀ {room : Nat} {reader reader' : R} {bytes : List UInt8}, Read.read room reader = (.ok bytes, reader') →
    bytes.length ≤ room

/-- A reader that serves these bytes in order, some of them with every read that has room, and then the end of the
stream. -/
def Serves {R : Type} [Read R] (rest : R → List UInt8) : Prop :=
  ∀ (room : Nat) (reader : R), 0 < room → ∃ bytes reader', Read.read room reader = (.ok bytes, reader') ∧
    bytes.length ≤ room ∧ bytes ++ rest reader' = rest reader ∧ (bytes = [] → rest reader = [])

theorem serves_list : Serves (fun bytes : List UInt8 => bytes) := by
  intro room bytes hroom
  refine ⟨bytes.take room, bytes.drop room, rfl, List.length_take_le room bytes, List.take_append_drop room bytes, ?_⟩
  intro hnone
  rcases List.take_eq_nil_iff.mp hnone with hzero | hempty
  · omega
  · exact hempty

namespace Framing

open Delimited

variable {R : Type} [Read R] {cobs : Cobs} {maxFrameSize : Nat} {f g : Framing cobs maxFrameSize} {reader reader' : R}
  {discard fuel : Nat}

/-- The loop of `next_frame` over a reader `R`, with fuel: a reader may serve bytes without a delimiter for ever. -/
def nextFrameOver :
    Nat → Framing cobs maxFrameSize → R → Nat → Option (Poll (Nat × Nat) × Framing cobs maxFrameSize × R)
  | 0, _, _, _ => none
  | fuel + 1, f, reader, discard =>
    match slice? f.readerBuffer f.readerSearch f.readerFilled with
    | none => some (.panic, f, reader)
    | some region =>
      match memchr 0 region with
      | some found =>
          -- Found the end of the frame, consume it from the buffer and skip the zero marker
          let start := f.readerOffset
          let stop := f.readerSearch + found
          let f' := { f with readerOffset := stop + 1, readerSearch := stop + 1 }
          if discard > 0 then
            if discard + stop < start then some (.panic, f', reader) else nextFrameOver fuel f' reader 0
          else some (.ready (.ok (start, stop)), f', reader)
      | none =>
        match f.makeRoom discard with
        | none => some (.panic, f, reader)
        | some (f', discard') =>
          -- Read more data to try and find the next frame marker
          match slice? f'.readerBuffer f'.readerFilled f'.readerBuffer.length with
          | none => some (.panic, f', reader)
          | some free =>
            match Read.read free.length reader with
            | (.error err, reader) => some (.ready (.error (.recvFailed err)), f', reader)
            | (.ok [], reader) => some (.ready (.error .terminated), f', reader)
            | (.ok (b :: bs), reader) => nextFrameOver fuel (f'.ingest f'.reader (b :: bs)) reader discard'

/-- `next_frame_blob`: `next_frame` with the raw frame as a slice. -/
def nextFrameBlob (fuel : Nat) (f : Framing cobs maxFrameSize) (reader : R) :
    Option (Poll (List UInt8) × Framing cobs maxFrameSize × R) :=
  (nextFrameOver fuel f reader 0).map fun (poll, f, reader) =>
    match poll with
    | .panic => (.panic, f, reader)
    | .pending discard => (.pending discard, f, reader)
    | .ready (.error err) => (.ready (.error err), f, reader)
    | .ready (.ok (start, stop)) =>
      match slice? f.readerBuffer start stop with
      | none => (.panic, f, reader)
      | some frame => (.ready (.ok frame), f, reader)

/-- `next_packet` over a reader `R`. -/
def nextPacketOver (fuel : Nat) (f : Framing cobs maxFrameSize) (reader : R) :
    Option (Poll (Option Nat) × Framing cobs maxFrameSize × R) :=
  (nextFrameOver fuel f reader 0).map fun (poll, f, reader) =>
    match poll with
    | .panic => (.panic, f, reader)
    | .pending discard => (.pending discard, f, reader)
    | .ready (.error err) => (.ready (.error err), f, reader)
    | .ready (.ok (start, stop)) =>
      let (poll, f) := f.decodeRange start stop
      (poll, f, reader)

/-- `next_packet_blob`: `next_packet` with the decoded packet as a slice. -/
def nextPacketBlob (fuel : Nat) (f : Framing cobs maxFrameSize) (reader : R) :
    Option (Poll (Option (List UInt8)) × Framing cobs maxFrameSize × R) :=
  (nextPacketOver fuel f reader).map fun (poll, f, reader) => (packetOf (poll, f), f, reader)

/-! ### Served by the environment -/

theorem makeRoom_withReader (f : Framing cobs maxFrameSize) (served : Reader) (discard : Nat) :
    ({ f with reader := served } : Framing cobs maxFrameSize).makeRoom discard =
      (f.makeRoom discard).map fun (g, e) => ({ g with reader := served }, e) := by
  have hoverflow : ∀ (g : Framing cobs maxFrameSize) discard,
      ({ g with reader := served } : Framing cobs maxFrameSize).overflow discard =
        ({ (g.overflow discard).1 with reader := served }, (g.overflow discard).2) := by
    intro g discard
    rw [overflow, overflow]
    dsimp only
    split <;> rfl
  have hcompact : ({ f.markScanned with reader := served } : Framing cobs maxFrameSize).compact =
      f.markScanned.compact.map fun g => { g with reader := served } := by
    rw [compact, compact]
    dsimp only
    split
    · cases slice? f.markScanned.readerBuffer f.markScanned.readerOffset f.markScanned.readerFilled <;> rfl
    · rfl
  rw [makeRoom, makeRoom]
  change (if discard = 0 then ({ f.markScanned with reader := served } : Framing cobs maxFrameSize).compact.map _
    else some (({ f.markScanned.clear with reader := served } : Framing cobs maxFrameSize).overflow _)) = _
  split
  · rw [hcompact]
    cases f.markScanned.compact with
    | none => rfl
    | some g => exact congrArg some (hoverflow g discard)
  · exact congrArg some (hoverflow f.markScanned.clear (discard + f.readerFilled))

theorem round_reads {region free : List UInt8} {e : Nat} (event : ReadEvent)
    (hregion : slice? f.readerBuffer f.readerSearch f.readerFilled = some region) (hfound : memchr 0 region = none)
    (hroom : f.makeRoom discard = some (g, e))
    (hfree : slice? g.readerBuffer g.readerFilled g.readerBuffer.length = some free)
    (hfit : ∀ {bytes}, event = .data bytes → bytes.length ≤ free.length) (more : Reader) :
    ({ f with reader := event :: more } : Framing cobs maxFrameSize).round .unbounded discard =
      some (match event with
        | .fail err => .done (.ready (.error (.recvFailed err))) { g with reader := more }
        | .data [] => .done (.ready (.error .terminated)) { g with reader := more }
        | .data (b :: bs) => .again (g.ingest more (b :: bs)) e) := by
  have hroom' := f.makeRoom_withReader (event :: more) discard
  rw [hroom] at hroom'
  rcases event with bytes | err
  · have hread : Reader.read free.length (.data bytes :: more) = (.ok bytes, more) := if_pos (hfit rfl)
    cases bytes with
    | nil => simp [round, hregion, hfound, makeRoomWith_unbounded, hroom', hfree, hread]
    | cons b bs =>
        simp [round, hregion, hfound, makeRoomWith_unbounded, hroom', hfree, hread]
        rfl
  · simp [round, hregion, hfound, makeRoomWith_unbounded, hroom', hfree, Reader.read]

theorem round_found {region : List UInt8} {found : Nat} (served : Reader)
    (hregion : slice? f.readerBuffer f.readerSearch f.readerFilled = some region)
    (hfound : memchr 0 region = some found)
    (hreport : 0 < discard → f.readerOffset ≤ discard + (f.readerSearch + found)) :
    ({ f with reader := served } : Framing cobs maxFrameSize).round .unbounded discard =
      let stop := f.readerSearch + found
      let g := { f with reader := served, readerOffset := stop + 1, readerSearch := stop + 1 }
      some (if discard > 0 then .again g 0 else .done (.ready (.ok (f.readerOffset, stop))) g) := by
  by_cases hpos : 0 < discard
  · simp [round, hregion, hfound, hpos, Usize.unbounded, hreport hpos]
  · simp [round, hregion, hfound, hpos, Usize.unbounded]

/-- A call over any reader, a failing one included, is the call over the environment's reader that serves what this one
served. -/
theorem nextFrameOver_served (hread : Read.Lawful R) (hf : f.WfAt discard) {poll : Poll (Nat × Nat)}
    (h : nextFrameOver fuel f reader discard = some (poll, g, reader')) :
    ∃ reads, Read.Served reader reads reader' ∧ ∀ more,
      ({ f with reader := reads ++ more } : Framing cobs maxFrameSize).nextFrameLoop discard =
        (poll, { g with reader := more }) := by
  have hindexes := Usize.unbounded_indexes (maxFrameSize + 1)
  fun_induction nextFrameOver fuel f reader discard with
  | case1 => cases h
  | case2 fuel f reader discard hregion => cases hf.region.symm.trans hregion
  | case3 fuel f reader discard region hregion found hfound start stop f' hpos hunder =>
      have hoffset := (hf.discarding hpos).1
      exact absurd hunder (by omega)
  | case4 fuel f reader discard region hregion found hfound start stop f' hpos hunder ih =>
      have hround := fun served => round_found served hregion hfound fun _ => Nat.le_of_not_lt hunder
      simp only [if_pos hpos] at hround
      obtain ⟨reads, hserved, hloop⟩ := ih ((hf.withReader f.reader).round_words hindexes (hround f.reader)) h
      refine ⟨reads, hserved, fun more => ?_⟩
      have hagain := ({ f with reader := reads ++ more } : Framing cobs maxFrameSize).nextFrameLoop_round discard
      rw [hround] at hagain
      exact hagain.trans (hloop more)
  | case5 fuel f reader discard region hregion found hfound start stop f' hpos =>
      obtain ⟨rfl, rfl, rfl⟩ : .ready (.ok (start, stop)) = poll ∧ f' = g ∧ reader = reader' := by simpa using h
      refine ⟨[], .nil, fun more => ?_⟩
      have hround := round_found more hregion hfound fun h => absurd h hpos
      simp only [if_neg hpos] at hround
      have hdone := ({ f with reader := [] ++ more } : Framing cobs maxFrameSize).nextFrameLoop_round discard
      rw [List.nil_append] at hdone ⊢
      rw [hround] at hdone
      exact hdone
  | case6 fuel f reader discard region hregion hfound hroom =>
      cases hf.region.symm.trans hregion
      obtain ⟨_, _, hroom', _⟩ := hf.makeRoom (memchr_none hfound)
      cases hroom'.symm.trans hroom
  | case7 fuel f reader discard region hregion hfound f' discard' hroom hfree =>
      cases hf.region.symm.trans hregion
      obtain ⟨_, _, hroom', hf', _, _, hfill, _⟩ := hf.makeRoom (memchr_none hfound)
      cases hroom'.symm.trans hroom
      have hlen := hf'.reader_length
      cases (slice?_eq_some (by omega) (Nat.le_refl _)).symm.trans hfree
  | case8 fuel f reader discard region hregion hfound f' discard' hroom free hfree err reader'' hserve =>
      obtain ⟨rfl, rfl, rfl⟩ : .ready (.error (.recvFailed err)) = poll ∧ f' = g ∧ reader'' = reader' := by
        simpa using h
      refine ⟨[.fail err], .fail hserve .nil, fun more => ?_⟩
      have hdone := ({ f with reader := .fail err :: more } : Framing cobs maxFrameSize).nextFrameLoop_round discard
      rw [round_reads (.fail err) hregion hfound hroom hfree (fun h => by cases h) more] at hdone
      exact hdone
  | case9 fuel f reader discard region hregion hfound f' discard' hroom free hfree reader'' hserve =>
      obtain ⟨rfl, rfl, rfl⟩ : .ready (.error .terminated) = poll ∧ f' = g ∧ reader'' = reader' := by simpa using h
      refine ⟨[.data []], .data hserve .nil, fun more => ?_⟩
      have hdone := ({ f with reader := .data [] :: more } : Framing cobs maxFrameSize).nextFrameLoop_round discard
      rw [round_reads (.data []) hregion hfound hroom hfree (by rintro _ ⟨⟩; exact Nat.zero_le _) more] at hdone
      exact hdone
  | case10 fuel f reader discard region hregion hfound f' discard' hroom free hfree b bs reader'' hserve ih =>
      have hround := round_reads (.data (b :: bs)) hregion hfound hroom hfree (by rintro _ ⟨⟩; exact hread hserve)
      obtain ⟨reads, hserved, hloop⟩ := ih ((hf.withReader _).round_words hindexes (hround f'.reader)) h
      refine ⟨.data (b :: bs) :: reads, .data hserve hserved, fun more => ?_⟩
      have hagain := ({ f with reader := .data (b :: bs) :: (reads ++ more) } :
        Framing cobs maxFrameSize).nextFrameLoop_round discard
      rw [hround] at hagain
      exact hagain.trans (hloop more)

theorem decodeRange_withReader (f : Framing cobs maxFrameSize) (served : Reader) (start stop : Nat) :
    ({ f with reader := served } : Framing cobs maxFrameSize).decodeRange start stop =
      ((f.decodeRange start stop).1, { (f.decodeRange start stop).2 with reader := served }) := by
  rw [decodeRange, decodeRange]
  dsimp only
  split
  · rfl
  split
  · rfl
  split <;> rfl

theorem nextPacketLoop_decodeRange {discard start stop : Nat}
    (hframe : f.nextFrameLoop discard = (.ready (.ok (start, stop)), g)) :
    f.nextPacketLoop discard = g.decodeRange start stop := by
  rw [nextPacketLoop, hframe]
  rfl

theorem nextPacketOver_served (hread : Read.Lawful R) (hf : f.Wf) {poll : Poll (Option Nat)}
    (h : nextPacketOver fuel f reader = some (poll, g, reader')) :
    ∃ reads, Read.Served reader reads reader' ∧ ∀ more,
      ({ f with reader := reads ++ more } : Framing cobs maxFrameSize).nextPacket =
        (poll, { g with reader := more }) := by
  obtain ⟨⟨frame, g', reader''⟩, hframe, hpoll⟩ := Option.map_eq_some_iff.mp h
  obtain ⟨reads, hserved, hloop⟩ := nextFrameOver_served hread hf.wfAt hframe
  rcases frame with (err | ⟨start, stop⟩) | discard | _
  · obtain ⟨rfl, rfl, rfl⟩ : .ready (.error err) = poll ∧ g' = g ∧ reader'' = reader' := by simpa using hpoll
    exact ⟨reads, hserved, fun more => by rw [nextPacket, nextPacketLoop, hloop]⟩
  · obtain ⟨hpair, rfl⟩ : g'.decodeRange start stop = (poll, g) ∧ reader'' = reader' := by
      simpa [Prod.ext_iff, and_assoc] using hpoll
    refine ⟨reads, hserved, fun more => ?_⟩
    rw [nextPacket, nextPacketLoop_decodeRange (hloop more), decodeRange_withReader, hpair]
  · obtain ⟨rfl, rfl, rfl⟩ : .pending discard = poll ∧ g' = g ∧ reader'' = reader' := by simpa using hpoll
    exact ⟨reads, hserved, fun more => by rw [nextPacket, nextPacketLoop, hloop]⟩
  · obtain ⟨rfl, rfl, rfl⟩ : .panic = poll ∧ g' = g ∧ reader'' = reader' := by simpa using hpoll
    exact ⟨reads, hserved, fun more => by rw [nextPacket, nextPacketLoop, hloop]⟩

/-- Calls of `next_packet` in a row over a reader `R`: what they return, and where they leave the framer and the reader.
-/
inductive PacketsOver : Framing cobs maxFrameSize → R → List (Poll (Option (List UInt8))) → Framing cobs maxFrameSize →
    R → Prop
  | nil {f : Framing cobs maxFrameSize} {reader : R} : PacketsOver f reader [] f reader
  | call {f g h : Framing cobs maxFrameSize} {reader reader' reader'' : R} {fuel : Nat}
      {poll : Poll (Option (List UInt8))} {polls : List (Poll (Option (List UInt8)))} :
      nextPacketBlob fuel f reader = some (poll, g, reader') → PacketsOver g reader' polls h reader'' →
      PacketsOver f reader (poll :: polls) h reader''

/-- Calls of `next_packet` in a row over the environment's reader. -/
inductive Packets : Framing cobs maxFrameSize → List (Poll (Option (List UInt8))) → Framing cobs maxFrameSize → Prop
  | nil {f : Framing cobs maxFrameSize} : Packets f [] f
  | call {f g h : Framing cobs maxFrameSize} {poll : Poll (Option Nat)} {polls : List (Poll (Option (List UInt8)))} :
      f.nextPacket = (poll, g) → Packets g polls h → Packets f (packetOf (poll, g) :: polls) h

/-- Calls in a row over any reader, failing reads and all, are the calls over the environment's reader that serves what
this one served. -/
theorem packetsOver_served (hread : Read.Lawful R) (hf : f.Wf) {polls : List (Poll (Option (List UInt8)))}
    (hcalls : PacketsOver f reader polls g reader') :
    ∃ reads, Read.Served reader reads reader' ∧ ∀ more,
      Packets ({ f with reader := reads ++ more } : Framing cobs maxFrameSize) polls { g with reader := more } := by
  induction hcalls with
  | nil => exact ⟨[], .nil, fun more => .nil⟩
  | @call f g h reader reader' reader'' fuel poll polls hcall _ ih =>
      obtain ⟨⟨size, g', _⟩, hover, hpoll⟩ := Option.map_eq_some_iff.mp hcall
      obtain ⟨rfl, rfl, rfl⟩ : packetOf (size, g') = poll ∧ g' = g ∧ _ = reader' := by simpa using hpoll
      obtain ⟨reads, hserved, hpacket⟩ := nextPacketOver_served hread hf hover
      have hg : g'.Wf := by
        have hloop := (nextPacketLoop_spec (hf.withReader reads).wfAt).2.1
        have hwhole := hpacket []
        rw [List.append_nil] at hwhole
        rw [show Framing.nextPacketLoop _ 0 = _ from hwhole] at hloop
        exact hloop.withReader g'.reader
      obtain ⟨reads', hserved', hpackets⟩ := ih hg
      refine ⟨reads ++ reads', hserved.append hserved', fun more => ?_⟩
      have hnext := hpacket (reads' ++ more)
      rw [← List.append_assoc] at hnext
      change Packets _ (packetOf (size, ({ g' with reader := reads' ++ more } : Framing cobs maxFrameSize)) :: polls) _
      exact .call hnext (hpackets more)

/-- A slice with a packet, a reset and its end. -/
theorem packetsOver_served_reference :
    ∃ reads, Read.Served ([2, 7, 0, 0] : List UInt8) reads [] ∧ ∃ g : Framing Cobs.stuffing 4, ∀ more,
      Packets (new (reads ++ more) ⟨[], []⟩ : Framing Cobs.stuffing 4)
        [.ready (.ok (some [7])), .ready (.ok none), .ready (.error .terminated)] { g with reader := more } := by
  have hlawful : Read.Lawful (List UInt8) := by
    intro room reader reader' bytes hread
    cases hread
    exact List.length_take_le room reader
  obtain ⟨reads, hserved, hcalls⟩ := packetsOver_served hlawful
    (new_wf [] ⟨[], []⟩ : (new [] ⟨[], []⟩ : Framing Cobs.stuffing 4).Wf)
    (.call (show nextPacketBlob 9 _ ([2, 7, 0, 0] : List UInt8) = some (.ready (.ok (some [7])), _, _) from rfl)
      (.call (show nextPacketBlob 9 _ _ = some (.ready (.ok none), _, _) from rfl)
        (.call (show nextPacketBlob 9 _ _ = some (.ready (.error .terminated), _, _) from rfl) .nil)))
  exact ⟨reads, hserved, _, hcalls⟩

/-! ### Readers of some bytes -/

theorem nextFrameOver_serves {rest : R → List UInt8} (hserves : Serves rest) (hf : f.WfAt discard)
    (hfuel : 2 * (rest reader).length + (f.readerFilled - f.readerSearch) < fuel) :
    ∃ poll g reader', nextFrameOver fuel f reader discard = some (poll, g, reader') ∧ g.Wf ∧
      match next 0 maxFrameSize (decide (0 < discard)) (f.pending ++ rest reader) with
      | some (frame, more) => ∃ start stop, poll = .ready (.ok (start, stop)) ∧
          slice? g.readerBuffer start stop = some frame ∧ g.pending ++ rest reader' = more
      | none => poll = .ready (.error .terminated) := by
  induction fuel generalizing f reader discard with
  | zero => omega
  | succ fuel ih =>
      rw [nextFrameOver, hf.region]
      dsimp only
      rcases hfound : memchr 0 (slice f.readerBuffer f.readerSearch f.readerFilled) with _ | found
      · obtain ⟨g, e, hroom, hg, hoffset, hsearch, hfill, hreader, hsame, hnext, hresidue⟩ :=
          hf.makeRoom (memchr_none hfound)
        have hlen := hg.reader_length
        obtain ⟨bytes, reader', hread, hfit, hrest, hend⟩ :=
          hserves (slice g.readerBuffer g.readerFilled g.readerBuffer.length).length reader (by
            rw [length_slice (Nat.le_refl _)]
            omega)
        rw [length_slice (Nat.le_refl _)] at hfit
        simp only [hroom, slice?_eq_some (show g.readerFilled ≤ g.readerBuffer.length by omega) (Nat.le_refl _), hread]
        rcases bytes with _ | ⟨b, bs⟩
        · -- the end of the stream: nothing is left, and what is pending holds no delimiter
          have hclean := hf.memchr_iff.mp hfound
          refine ⟨_, g, reader', rfl, hg.toWf, ?_⟩
          rw [hend rfl, List.append_nil, next_of_not_mem hclean]
        · obtain ⟨hingest, hpending⟩ := hg.ingest hsearch g.reader (show (b :: bs).length ≤ _ by omega)
          have hlength := congrArg List.length hrest
          rw [List.length_append, List.length_cons] at hlength
          have hbound : 2 * (rest reader').length + ((g.ingest g.reader (b :: bs)).readerFilled -
              (g.ingest g.reader (b :: bs)).readerSearch) < fuel := by
            simp only [ingest, hsearch, List.length_cons]
            omega
          have hcall := ih hingest hbound
          rwa [hpending, List.append_assoc, hrest, ← hnext] at hcall
      · obtain ⟨hg, hle, hfit, hclean, hpending⟩ := hf.found hfound
        have hlt := (memchr_some hfound).1
        rw [length_slice (by rw [hf.reader_length]; exact hf.filled_le)] at hlt
        rw [hpending, List.append_assoc, List.cons_append, next_append_sep hclean]
        dsimp only
        by_cases hpos : discard > 0
        · have hover : ¬ discard + (f.readerSearch + found) < f.readerOffset := by omega
          rw [if_pos hpos, if_neg hover, if_pos (Or.inl (decide_eq_true hpos))]
          exact ih hg.wfAt (by dsimp only; omega)
        · have hlen := hf.reader_length
          have hshort : ¬ (decide (0 < discard) = true ∨
              maxFrameSize < (slice f.readerBuffer f.readerOffset (f.readerSearch + found)).length) := by
            rw [length_slice (by omega)]
            simp only [decide_eq_true_eq]
            omega
          rw [if_neg hpos, if_neg hshort]
          exact ⟨_, _, _, rfl, hg, _, _, rfl, slice?_eq_some hle (by dsimp only; omega), rfl⟩

theorem nextFrameBlob_serves {rest : R → List UInt8} (hserves : Serves rest) (hf : f.Wf)
    (hfuel : 2 * (f.pending ++ rest reader).length < fuel) :
    ∃ poll g reader', nextFrameBlob fuel f reader = some (poll, g, reader') ∧ g.Wf ∧
      match next 0 maxFrameSize false (f.pending ++ rest reader) with
      | some (frame, more) => poll = .ready (.ok frame) ∧ g.pending ++ rest reader' = more
      | none => poll = .ready (.error .terminated) := by
  have hoffset := hf.offset_le
  rw [List.length_append, hf.wfAt.length_pending.1] at hfuel
  have hbound : 2 * (rest reader).length + (f.readerFilled - f.readerSearch) < fuel := by omega
  obtain ⟨poll, g, reader', hover, hg, hnext⟩ := nextFrameOver_serves hserves hf.wfAt hbound
  rw [nextFrameBlob, hover]
  rw [show decide (0 < 0) = false from rfl] at hnext
  cases hfront : next 0 maxFrameSize false (f.pending ++ rest reader) with
  | none =>
      rw [hfront] at hnext
      exact ⟨_, g, reader', by rw [hnext]; rfl, hg, rfl⟩
  | some front =>
      rw [hfront] at hnext
      obtain ⟨start, stop, hpoll, hslice, hmore⟩ := hnext
      exact ⟨_, g, reader', by simp only [Option.map_some, hpoll, hslice], hg, rfl, hmore⟩

theorem Wf.decodeRange_frame (hf : f.Wf) {start stop : Nat} {frame : List UInt8}
    (hslice : slice? f.readerBuffer start stop = some frame) :
    packetOf (f.decodeRange start stop) = .ready (decodeFrame cobs maxFrameSize frame) ∧
      (f.decodeRange start stop).2.pending = f.pending := by
  have hbounds : start ≤ stop ∧ stop ≤ f.readerBuffer.length := by
    by_contra hout
    rw [slice?, if_neg hout] at hslice
    cases hslice
  have hlength : frame.length = stop - start := by
    rw [slice?, if_pos hbounds] at hslice
    rw [← Option.some.inj hslice, length_slice hbounds.2]
  rw [Framing.decodeRange, decodeFrame]
  by_cases hempty : start = stop
  · have hnil : frame = [] := List.length_eq_zero_iff.mp (by omega)
    rw [if_pos hempty, if_pos hnil]
    exact ⟨rfl, rfl⟩
  · have hne : frame ≠ [] := by
      intro hnil
      rw [hnil, List.length_nil] at hlength
      omega
    rw [if_neg hempty, if_neg hne, hslice]
    simp only [hf.decobs_length]
    rcases hdecode : cobs.decodeNonzero frame maxFrameSize with err | packet
    · exact ⟨rfl, rfl⟩
    · exact ⟨by simp [packetOf, Framing.packet, overwrite], rfl⟩

theorem nextPacketBlob_serves {rest : R → List UInt8} (hserves : Serves rest) (hf : f.Wf)
    (hfuel : 2 * (f.pending ++ rest reader).length < fuel) :
    ∃ poll g reader', nextPacketBlob fuel f reader = some (poll, g, reader') ∧ g.Wf ∧
      match next 0 maxFrameSize false (f.pending ++ rest reader) with
      | some (frame, more) => poll = .ready (decodeFrame cobs maxFrameSize frame) ∧ g.pending ++ rest reader' = more
      | none => poll = .ready (.error .terminated) := by
  have hoffset := hf.offset_le
  rw [List.length_append, hf.wfAt.length_pending.1] at hfuel
  have hbound : 2 * (rest reader).length + (f.readerFilled - f.readerSearch) < fuel := by omega
  obtain ⟨poll, g, reader', hover, hg, hnext⟩ := nextFrameOver_serves hserves hf.wfAt hbound
  rw [nextPacketBlob, nextPacketOver, hover]
  rw [show decide (0 < 0) = false from rfl] at hnext
  cases hfront : next 0 maxFrameSize false (f.pending ++ rest reader) with
  | none =>
      rw [hfront] at hnext
      exact ⟨_, g, reader', by rw [hnext]; rfl, hg, rfl⟩
  | some front =>
      rw [hfront] at hnext
      obtain ⟨start, stop, rfl, hslice, hmore⟩ := hnext
      obtain ⟨hpacket, hpending⟩ := hg.decodeRange_frame hslice
      refine ⟨_, (g.decodeRange start stop).2, reader', by simp only [Option.map_some], hg.decodeRange start stop,
        hpacket, ?_⟩
      rw [hpending]
      exact hmore

end Framing

end DarkbioWire
