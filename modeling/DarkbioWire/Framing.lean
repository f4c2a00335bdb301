import DarkbioWire.Transport

/-!
# The framer

`src/framing.rs`: COBS frames over a raw byte stream, zero delimited. The frame limit and the COBS codec are parameters;
the crate fixes the limit to `MAX_FRAME_SIZE`. A read that blocks suspends the call, so `nextFrame` is written as its
loop `nextFrameLoop` over the framer and the one local variable that lives across reads, the discard counter: a call
starts it with zero and a suspended call goes on with the counter it had.
-/

namespace DarkbioWire

/-- Maximum limit for a frame size, above which it will be discarded from the wire protocol. -/
def MAX_FRAME_SIZE : Nat := 2 * 1024 * 1024

/-- The calls the framer makes into `darkbio_cobs`. A destination buffer is represented by its length, which what is
written into it cannot exceed. -/
structure Cobs where
  encodeBuffer : Nat → Nat
  encode : List UInt8 → Nat → Except String (List UInt8)
  decodeNonzero : List UInt8 → Nat → Except DecodeError (List UInt8)
  encode_room : ∀ {packet room frame}, encode packet room = .ok frame → frame.length ≤ room
  decode_room : ∀ {frame room packet}, decodeNonzero frame room = .ok packet → packet.length ≤ room

/-- What the wire relies on: an encoding fits the buffer announced for it, is a non-empty run of non-zero bytes, and
decodes back into every buffer as long as itself. -/
structure Cobs.Lawful (cobs : Cobs) : Prop where
  encode_fits : ∀ {packet room}, cobs.encodeBuffer packet.length ≤ room → ∃ frame, cobs.encode packet room = .ok frame
  encode_ne_nil : ∀ {packet room frame}, cobs.encode packet room = .ok frame → frame ≠ []
  encode_nonzero : ∀ {packet room frame}, cobs.encode packet room = .ok frame → 0 ∉ frame
  encode_length : ∀ {packet room frame},
    cobs.encode packet room = .ok frame → frame.length ≤ cobs.encodeBuffer packet.length
  decode_encode : ∀ {packet room frame room'},
    cobs.encode packet room = .ok frame → frame.length ≤ room' → cobs.decodeNonzero frame room' = .ok packet

/-- COBS decoding never lengthens: what a frame without a zero decodes to, in whatever room, is no longer than the frame.
-/
def Cobs.NeverLengthens (cobs : Cobs) : Prop :=
  ∀ {frame room packet}, 0 ∉ frame → cobs.decodeNonzero frame room = .ok packet → packet.length ≤ frame.length

/-- COBS framer over a raw byte stream. Bytes of the receive buffer outside the filled part are never looked at. -/
structure Framing (cobs : Cobs) (maxFrameSize : Nat) where
  /-- Byte stream frames are read from. -/
  reader : Reader
  /-- Byte stream frames are written to. -/
  writer : Writer
  /-- Received bytes not yet consumed, partial or multiple frames. -/
  readerBuffer : List UInt8
  /-- Number of received bytes in `readerBuffer`. -/
  readerFilled : Nat
  /-- Start of the unconsumed data, i.e. of the next frame. -/
  readerOffset : Nat
  /-- End of the unconsumed data already scanned for a delimiter. -/
  readerSearch : Nat
  /-- Last decoded packet, consumed by the session layer. -/
  decobsBuffer : List UInt8
  /-- Frame being sent, with a spare slot for the delimiter. -/
  encobsBuffer : List UInt8

/-- Where a call reading frames stands: it returned, it waits for the reader in the middle of the loop, or it ran out of
the bounds of a buffer. -/
inductive Poll (α : Type)
  | ready (result : Except Error α)
  | pending (discard : Nat)
  | panic
  deriving DecidableEq, Repr

namespace Framing

variable {cobs : Cobs} {maxFrameSize : Nat}

/-- Creates a new framed transport around a low level reader and writer. -/
def new (reader : Reader) (writer : Writer) : Framing cobs maxFrameSize where
  reader := reader
  writer := writer
  readerBuffer := List.replicate (maxFrameSize + 1) 0
  readerOffset := 0
  readerFilled := 0
  readerSearch := 0
  decobsBuffer := List.replicate maxFrameSize 0
  encobsBuffer := List.replicate (maxFrameSize + 1) 0

/-- Signals a session reset by writing two frame delimiters, the first terminating any interrupted frame, the second
forming the empty reset frame. -/
def sendReset (f : Framing cobs maxFrameSize) : Except Error Unit × Framing cobs maxFrameSize :=
  let (result, writer) := f.writer.send [0x00, 0x00]
  (result, { f with writer })

/-- `memchr::memchr`. -/
def memchr (needle : UInt8) (haystack : List UInt8) : Option Nat := haystack.findIdx? (· == needle)

/-- Takes everything received as searched. -/
def markScanned (f : Framing cobs maxFrameSize) : Framing cobs maxFrameSize := { f with readerSearch := f.readerFilled }

/-- Throws everything away that was received. -/
def clear (f : Framing cobs maxFrameSize) : Framing cobs maxFrameSize :=
  { f with readerFilled := 0, readerOffset := 0, readerSearch := 0 }

/-- Compacts the buffer to maximise free space. `none` is a range out of bounds, where `used` would underflow too. -/
def compact (f : Framing cobs maxFrameSize) : Option (Framing cobs maxFrameSize) :=
  if f.readerOffset > 0 then
    (slice? f.readerBuffer f.readerOffset f.readerFilled).map fun data =>
      let used := f.readerFilled - f.readerOffset
      { f with
        readerBuffer := overwrite f.readerBuffer 0 data
        readerFilled := used
        readerOffset := 0
        readerSearch := used }
  else some f

/-- If the buffer is already full, we've exceeded our frame size, drop all. -/
def overflow (f : Framing cobs maxFrameSize) (discard : Nat) : Framing cobs maxFrameSize × Nat :=
  if f.readerFilled = maxFrameSize + 1 then (f.clear, discard + (maxFrameSize + 1)) else (f, discard)

/-- The loop body of `next_frame` between a search that found nothing and the next read: waiting compacts the buffer,
discarding empties it, and a full buffer starts discarding. -/
def makeRoom (f : Framing cobs maxFrameSize) (discard : Nat) : Option (Framing cobs maxFrameSize × Nat) :=
  -- The searched region is delimiter free, don't rescan it later
  let f := f.markScanned
  if discard = 0 then f.compact.map (·.overflow discard) else some (f.clear.overflow (discard + f.readerFilled))

/-- Ingests bytes that were read. -/
def ingest (f : Framing cobs maxFrameSize) (reader : Reader) (bytes : List UInt8) : Framing cobs maxFrameSize :=
  { f with
    reader
    readerBuffer := overwrite f.readerBuffer f.readerFilled bytes
    readerFilled := f.readerFilled + bytes.length }

theorem overflow_reader (f : Framing cobs maxFrameSize) (discard : Nat) :
    (f.overflow discard).1.reader = f.reader ∧
      (f.readerSearch = f.readerFilled → (f.overflow discard).1.readerSearch = (f.overflow discard).1.readerFilled) := by
  rw [overflow]
  split
  · exact ⟨rfl, fun _ => rfl⟩
  · exact ⟨rfl, id⟩

theorem makeRoom_reader {f f' : Framing cobs maxFrameSize} {discard discard' : Nat}
    (h : f.makeRoom discard = some (f', discard')) : f'.reader = f.reader ∧ f'.readerSearch = f'.readerFilled := by
  rw [makeRoom] at h
  split at h
  · obtain ⟨g, hg, hout⟩ := Option.map_eq_some_iff.mp h
    have hcompact : g.reader = f.reader ∧ g.readerSearch = g.readerFilled := by
      rw [compact] at hg
      split at hg
      · obtain ⟨data, _, rfl⟩ := Option.map_eq_some_iff.mp hg
        exact ⟨rfl, rfl⟩
      · rw [← Option.some.inj hg]
        exact ⟨rfl, rfl⟩
    obtain ⟨hreader, hsearch⟩ := g.overflow_reader discard
    rw [hout] at hreader hsearch
    exact ⟨hreader.trans hcompact.1, hsearch hcompact.2⟩
  · obtain ⟨hreader, hsearch⟩ := f.markScanned.clear.overflow_reader (discard + f.markScanned.readerFilled)
    rw [Option.some.inj h] at hreader hsearch
    exact ⟨hreader, hsearch rfl⟩

/-- The loop of `next_frame`, from its head. -/
def nextFrameLoop (f : Framing cobs maxFrameSize) (discard : Nat) : Poll (Nat × Nat) × Framing cobs maxFrameSize :=
  match _hregion : slice? f.readerBuffer f.readerSearch f.readerFilled with
  | none => (.panic, f)
  | some region =>
    match _hfound : memchr 0 region with
    | some found =>
        -- Found the end of the frame, consume it from the buffer and skip the zero marker
        let start := f.readerOffset
        let stop := f.readerSearch + found
        let f' := { f with readerOffset := stop + 1, readerSearch := stop + 1 }
        if discard > 0 then
          -- The size reported is `discard + stop - start`
          if discard + stop < start then (.panic, f') else nextFrameLoop f' 0
        else (.ready (.ok (start, stop)), f')
    | none =>
      match _hroom : f.makeRoom discard with
      | none => (.panic, f)
      | some (f', discard') =>
        -- Read more data to try and find the next frame marker
        match slice? f'.readerBuffer f'.readerFilled f'.readerBuffer.length with
        | none => (.panic, f')
        | some free =>
          match _hread : f'.reader.read free.length with
          | (.blocked, reader) => (.pending discard', { f' with reader })
          | (.failed err, reader) => (.ready (.error (.recvFailed err)), { f' with reader })
          | (.ok [], reader) => (.ready (.error .terminated), { f' with reader })
          | (.ok (b :: bs), reader) => nextFrameLoop (f'.ingest reader (b :: bs)) discard'
-- a read turns bytes of the reader into unsearched ones, a frame that is found only takes unsearched ones
termination_by 2 * f.reader.bytes.length + (f.readerFilled - f.readerSearch)
decreasing_by
  · have hle : f.readerSearch ≤ f.readerFilled ∧ f.readerFilled ≤ f.readerBuffer.length := by
      by_contra hout
      rw [slice?, if_neg hout] at _hregion
      cases _hregion
    have hlt : found < f.readerFilled - f.readerSearch := by
      rw [slice?, if_pos hle] at _hregion
      rw [← length_slice hle.2, Option.some.inj _hregion]
      exact (List.findIdx?_eq_some_iff_getElem.mp _hfound).1
    omega
  · obtain ⟨hreader, hsearch⟩ := makeRoom_reader _hroom
    have hbytes := congrArg List.length (Reader.read_bytes _hread).2.1
    rw [hreader, List.length_append] at hbytes
    rw [ingest, hsearch]
    dsimp only
    simp only [List.length_cons] at hbytes ⊢
    omega

/-- Reads the next zero delimited frame, returning its range within `readerBuffer`. Frames exceeding the limit are
discarded, resynchronizing on the next delimiter. -/
def nextFrame (f : Framing cobs maxFrameSize) : Poll (Nat × Nat) × Framing cobs maxFrameSize := f.nextFrameLoop 0

/-- `next_packet` with its `next_frame` at the head of the loop. -/
def nextPacketLoop (f : Framing cobs maxFrameSize) (discard : Nat) :
    Poll (Option Nat) × Framing cobs maxFrameSize :=
  -- Retrieve the next 0-bounded frame and pull out the data
  match f.nextFrameLoop discard with
  | (.panic, f) => (.panic, f)
  | (.pending discard, f) => (.pending discard, f)
  | (.ready (.error err), f) => (.ready (.error err), f)
  | (.ready (.ok (start, stop)), f) =>
      -- Empty frame is a session reset signal, it's not valid COBS
      if start = stop then (.ready (.ok none), f)
      else
        match slice? f.readerBuffer start stop with
        | none => (.panic, f)
        | some frame =>
          match cobs.decodeNonzero frame f.decobsBuffer.length with
          | .error err => (.ready (.error (.frameDecodingFailed err)), f)
          | .ok packet =>
              (.ready (.ok (some packet.length)), { f with decobsBuffer := overwrite f.decobsBuffer 0 packet })

/-- Reads the next frame and COBS decodes it into `decobsBuffer`, returning the packet size. An empty frame is not COBS
but a session reset signal and yields `none`; a genuinely empty packet decodes to `some 0`. -/
def nextPacket (f : Framing cobs maxFrameSize) : Poll (Option Nat) × Framing cobs maxFrameSize := f.nextPacketLoop 0

/-- Writes the first `size` bytes of `encobsBuffer` as a frame, placing the delimiter in the buffer's spare slot so the
frame goes out in one write. -/
def sendFrame (f : Framing cobs maxFrameSize) (size : Nat) : Except Error Unit × Framing cobs maxFrameSize :=
  let encobsBuffer := f.encobsBuffer.set size 0
  let (result, writer) := f.writer.send (slice encobsBuffer 0 (size + 1))
  (result, { f with encobsBuffer, writer })

/-- COBS encodes a packet and sends it as a delimited frame. Packets whose encoding would exceed the limit are rejected.
-/
def sendPacket (f : Framing cobs maxFrameSize) (packet : List UInt8) :
    Except Error Unit × Framing cobs maxFrameSize :=
  -- Encode the packet with COBS and send it as a frame
  let len := cobs.encodeBuffer packet.length
  if len > maxFrameSize then (.error (.frameTooLarge len), f)
  else
    match cobs.encode packet f.encobsBuffer.length with
    | .error err => (.error (.frameEncodingFailed err), f)
    -- Send the frame into the 0-bounded stream
    | .ok frame => { f with encobsBuffer := overwrite f.encobsBuffer 0 frame }.sendFrame frame.length

/-- The last packet decoded, as its readers slice it out of `decobsBuffer`. -/
def packet (f : Framing cobs maxFrameSize) (size : Nat) : List UInt8 := f.decobsBuffer.take size

end Framing

end DarkbioWire
