import DarkbioWire.Framing.Retry
import DarkbioWire.Framing.Words

/-!
# The framer's buffers in every run

A run of `next_frame` and `next_packet` calls is followed from one head of the loop of `next_frame` to the next, whatever
is read, however the reads are cut and wherever they fail, in the arithmetic of `usize`. At every head and between the
calls the cursors are in order and nothing scanned is a delimiter (`Wf`). So every access of the next round stays in
bounds, the reader is handed a buffer with room, and the decoder a frame that decodes into its buffer. Only the sum
with the discard counter can be too long for a word, and the cursors do not depend on it.
-/

namespace DarkbioWire

namespace Usize

/-- Words that count the bytes of a buffer of this length, and whose differences panic in an underflow only. -/
structure Indexes (usize : Usize) (length : Nat) : Prop where
  counts : usize.Counts (length + 1)
  sub_ne_none : ∀ {a b}, b ≤ a → usize.sub a b ≠ none

theorem Counts.mono {usize : Usize} {limit limit' : Nat} (h : usize.Counts limit) (hle : limit' ≤ limit) :
    usize.Counts limit' :=
  ⟨fun hfit => h.add (Nat.lt_of_lt_of_le hfit hle), fun hsub hfit => h.sub hsub (Nat.lt_of_lt_of_le hfit hle)⟩

theorem unbounded_indexes (length : Nat) : unbounded.Indexes length :=
  ⟨unbounded_counts (length + 1), fun hle => by simp [unbounded, hle]⟩

theorem checked_indexes {length w : Nat} (hw : length < 2 ^ w) : (checked w).Indexes length :=
  ⟨(checked_counts w).mono hw, fun hle => by simp [checked, hle]⟩

theorem wrapping_indexes {length w : Nat} (hw : length < 2 ^ w) : (wrapping w).Indexes length :=
  ⟨(wrapping_counts w).mono hw, fun _ => Option.some_ne_none _⟩

end Usize

namespace Framing

open Delimited

variable {cobs : Cobs} {maxFrameSize : Nat} {usize : Usize} {f g : Framing cobs maxFrameSize} {discard e : Nat}

/-! ### Runs of calls -/

/-- The calls that read. -/
inductive Call
  | nextFrame
  | nextPacket
  deriving DecidableEq, Repr

/-- Where a run stands: between two calls, or at the head of the loop of `next_frame` with its discard counter. -/
inductive Place
  | between
  | head (call : Call) (discard : Nat)
  deriving DecidableEq, Repr

/-- What `next_packet` does with the range its `next_frame` returned. -/
def decodeRange (f : Framing cobs maxFrameSize) (start stop : Nat) : Poll (Option Nat) × Framing cobs maxFrameSize :=
  -- Empty frame is a session reset signal, it's not valid COBS
  if start = stop then (.ready (.ok none), f)
  else
    match slice? f.readerBuffer start stop with
    | none => (.panic, f)
    | some frame =>
      match cobs.decodeNonzero frame f.decobsBuffer.length with
      | .error err => (.ready (.error (.frameDecodingFailed err)), f)
      | .ok packet =>
          (.ready (.ok (some packet.length)), { f with decobsBuffer := overwrite f.decobsBuffer 0 packet })

/-- The places of the runs of calls of a framer, one round of the loop at a time. A round that panics goes nowhere. -/
inductive Run (usize : Usize) : Framing cobs maxFrameSize → Place → Prop
  | new (reader : Reader) (writer : Writer) : Run usize (new reader writer) .between
  | call {f : Framing cobs maxFrameSize} (call : Call) (hrun : Run usize f .between) : Run usize f (.head call 0)
  | again {f g : Framing cobs maxFrameSize} {call : Call} {discard e : Nat} (hrun : Run usize f (.head call discard))
      (hround : f.round usize discard = some (.again g e)) : Run usize g (.head call e)
  -- the read blocks: the call is still where it was when more can be read
  | wait {f g : Framing cobs maxFrameSize} {call : Call} {discard e : Nat} (hrun : Run usize f (.head call discard))
      (hround : f.round usize discard = some (.done (.pending e) g)) : Run usize g (.head call e)
  | arrive {f : Framing cobs maxFrameSize} {place : Place} (more : Reader) (hrun : Run usize f place) :
      Run usize ({ f with reader := f.reader ++ more } : Framing cobs maxFrameSize) place
  | fail {f g : Framing cobs maxFrameSize} {call : Call} {discard : Nat} {err : Error}
      (hrun : Run usize f (.head call discard))
      (hround : f.round usize discard = some (.done (.ready (.error err)) g)) : Run usize g .between
  | frame {f g : Framing cobs maxFrameSize} {discard : Nat} {range : Nat × Nat}
      (hrun : Run usize f (.head .nextFrame discard))
      (hround : f.round usize discard = some (.done (.ready (.ok range)) g)) : Run usize g .between
  | packet {f g h : Framing cobs maxFrameSize} {discard start stop : Nat} {result : Except Error (Option Nat)}
      (hrun : Run usize f (.head .nextPacket discard))
      (hround : f.round usize discard = some (.done (.ready (.ok (start, stop))) g))
      (hdecode : g.decodeRange start stop = (.ready result, h)) : Run usize h .between
  -- sending between the calls
  | sendPacket {f g : Framing cobs maxFrameSize} {packet : List UInt8} {result : Except Error Unit}
      (hrun : Run usize f .between) (hsend : f.sendPacket packet = (result, g)) : Run usize g .between
  | sendReset {f g : Framing cobs maxFrameSize} {result : Except Error Unit}
      (hrun : Run usize f .between) (hsend : f.sendReset = (result, g)) : Run usize g .between

/-! ### One round -/

/-- What a round adds to the discard counter while discarding: the bytes in front of the delimiter, or all there are. -/
def thrown (f : Framing cobs maxFrameSize) : Nat :=
  match memchr 0 (slice f.readerBuffer f.readerSearch f.readerFilled) with
  | some found => f.readerSearch + found
  | none => f.readerFilled

/-- Where a round leads from a head of the loop, its sum with the discard counter apart. -/
def RoundSpec (usize : Usize) (f : Framing cobs maxFrameSize) (discard : Nat) :
    Option (Round cobs maxFrameSize) → Prop
  | none => 0 < discard ∧ usize.add discard f.thrown = none
  | some (.again g e) => g.WfAt e
  | some (.done .panic _) => False
  | some (.done (.pending e) g) => g.WfAt e
  | some (.done (.ready (.error err)) g) => g.Wf ∧ (err = .terminated → f.reader = .data [] :: g.reader)
  | some (.done (.ready (.ok (start, stop))) g) =>
      g.Wf ∧ start ≤ stop ∧ stop ≤ maxFrameSize ∧ 0 ∉ slice g.readerBuffer start stop

theorem WfAt.withReader (hf : f.WfAt discard) (reader : Reader) :
    ({ f with reader } : Framing cobs maxFrameSize).WfAt discard := ⟨hf.toWf.withReader reader, hf.discarding⟩

/-- Making room leaves a buffer with room, unless the discard counter is too long for a word. -/
theorem WfAt.makeRoomWith (husize : usize.Indexes (maxFrameSize + 1)) (hf : f.WfAt discard)
    (hfound : memchr 0 (slice f.readerBuffer f.readerSearch f.readerFilled) = none) :
    match f.makeRoomWith usize discard with
    | none => 0 < discard ∧ usize.add discard f.thrown = none
    | some (g, e) => g.WfAt e ∧ g.readerSearch = g.readerFilled ∧ g.readerFilled ≤ maxFrameSize ∧ g.reader = f.reader := by
  have hfill := hf.filled_le
  have hthrown : f.thrown = f.readerFilled := by
    rw [thrown, hfound]
  by_cases hdiscard : discard = 0
  · subst hdiscard
    have hlength := hf.length_pending.1
    obtain ⟨g, e, hroom, hg, _, hsearch, hroomy, hreader, _⟩ := hf.makeRoom (memchr_none hfound)
    rw [makeRoomWith_counts husize.counts (Nat.lt_succ_self _) hf (by omega), hroom]
    exact ⟨hg, hsearch, hroomy, hreader⟩
  · have hpos : 0 < discard := Nat.pos_of_ne_zero hdiscard
    have hempty : ¬ f.markScanned.clear.readerFilled = maxFrameSize + 1 := Nat.zero_ne_add_one maxFrameSize
    have hscanned := hf.markScanned (hf.memchr_iff.mp hfound)
    rw [Framing.makeRoomWith, if_neg hdiscard, hthrown]
    change match (usize.add discard f.readerFilled).bind fun sum => f.markScanned.clear.overflowWith usize sum with
      | none => _
      | some (g, e) => _
    cases hsum : usize.add discard f.readerFilled with
    | none => exact ⟨hpos, rfl⟩
    | some sum =>
        rw [Option.bind_some, overflowWith, if_neg hempty]
        exact ⟨⟨hscanned.clear, fun _ => ⟨rfl, rfl⟩⟩, rfl, Nat.zero_le _, rfl⟩

theorem read_ended {room : Nat} {reader reader' : Reader} (hroom : 0 < room)
    (hread : reader.read room = (.ok [], reader')) : reader = .data [] :: reader' := by
  obtain ⟨hbytes, _, hserved⟩ := Reader.read_stop hroom hread (by simp)
  rcases reader with _ | ⟨served | err, rest⟩
  · cases hserved.1
  · cases served with
    | nil => rw [hserved.2]
    | cons b bs => cases hbytes
  · cases hserved.1

/-- A round from a head of the loop leads where it should, out of the call or back to a head of the loop. -/
theorem WfAt.round_words (husize : usize.Indexes (maxFrameSize + 1)) (hf : f.WfAt discard)
    {result : Option (Round cobs maxFrameSize)} (hround : f.round usize discard = result) :
    RoundSpec usize f discard result := by
  have hoff := hf.offset_le
  have hfill := hf.filled_le
  rw [← hround, round, hf.region]
  simp only [Option.bind_eq_bind, Option.bind_some]
  cases hfound : memchr 0 (slice f.readerBuffer f.readerSearch f.readerFilled) with
  | some found =>
      obtain ⟨hg, hle, hfit, hclean, _⟩ := hf.found hfound
      have hthrown : f.thrown = f.readerSearch + found := by
        rw [thrown, hfound]
      simp only [husize.counts.add (show f.readerSearch + found < maxFrameSize + 1 + 1 by omega),
        husize.counts.add (show f.readerSearch + found + 1 < maxFrameSize + 1 + 1 by omega), Option.bind_some]
      split
      · rename_i hpos
        -- the size that is reported: nothing is subtracted from a sum that fits
        cases hsum : usize.add discard (f.readerSearch + found) with
        | none => exact ⟨hpos, hthrown ▸ hsum⟩
        | some sum =>
            rw [Option.bind_some]
            cases hsize : usize.sub sum f.readerOffset with
            | none =>
                rw [(hf.discarding hpos).1] at hsize
                exact absurd hsize (husize.sub_ne_none (Nat.zero_le sum))
            | some size => exact hg.wfAt
      · exact ⟨hg, hle, hfit, hclean⟩
  | none =>
      have hspec := hf.makeRoomWith husize hfound
      cases hroom : f.makeRoomWith usize discard with
      | none =>
          rw [hroom] at hspec
          exact hspec
      | some room =>
          obtain ⟨g, e⟩ := room
          rw [hroom] at hspec
          obtain ⟨hg, hsearch, hroomy, hreader⟩ := hspec
          have hlen := hg.reader_length
          have hlength : (slice g.readerBuffer g.readerFilled g.readerBuffer.length).length =
              maxFrameSize + 1 - g.readerFilled := by
            rw [length_slice (Nat.le_refl _), hlen]
          simp only [Option.bind_some,
            slice?_eq_some (show g.readerFilled ≤ g.readerBuffer.length by omega) (Nat.le_refl _)]
          rw [hlength, hreader]
          cases hread : f.reader.read (maxFrameSize + 1 - g.readerFilled) with
          | mk result reader =>
              rcases result with (_ | ⟨b, bs⟩) | err | _
              · exact ⟨hg.toWf.withReader reader, fun _ => read_ended (by omega) hread⟩
              · have hfit := (Reader.read_bytes hread).1
                dsimp only
                rw [husize.counts.add (show g.readerFilled + (b :: bs).length < maxFrameSize + 1 + 1 by omega)]
                exact (hg.ingest hsearch reader hfit).1
              · exact ⟨hg.toWf.withReader reader, by simp⟩
              · exact hg.withReader reader

theorem WfAt.round_ne_none (hf : f.WfAt discard) : f.round .unbounded discard ≠ none := by
  intro hpanic
  cases (hf.round_words (Usize.unbounded_indexes (maxFrameSize + 1)) hpanic).2

/-! ### Every run -/

theorem Wf.decodeRange (hf : f.Wf) (start stop : Nat) : (f.decodeRange start stop).2.Wf := by
  rw [Framing.decodeRange]
  split
  · exact hf
  split
  · exact hf
  split
  · exact hf
  · rename_i packet hdecode
    exact ⟨hf.offset_le, hf.search_le, hf.filled_le, hf.reader_length, hf.scanned,
      length_overwrite_decobs hf hdecode, hf.encobs_length⟩

/-- The invariant at a place of a run. -/
def Sound (f : Framing cobs maxFrameSize) : Place → Prop
  | .between => f.Wf
  | .head _ discard => f.WfAt discard

theorem Sound.wf {place : Place} (h : f.Sound place) : f.Wf := by
  cases place with
  | between => exact h
  | head call discard => exact h.toWf

theorem Run.sound {place : Place} (husize : usize.Indexes (maxFrameSize + 1)) (hrun : Run usize f place) :
    f.Sound place := by
  induction hrun with
  | new reader writer => exact new_wf reader writer
  | call call _ ih => exact Wf.wfAt ih
  | again _ hround ih => exact WfAt.round_words husize ih hround
  | wait _ hround ih => exact WfAt.round_words husize ih hround
  | @arrive f place more _ ih =>
      cases place with
      | between => exact Wf.withReader ih _
      | head call discard => exact WfAt.withReader ih _
  | fail _ hround ih => exact (WfAt.round_words husize ih hround).1
  | frame _ hround ih => exact (WfAt.round_words husize ih hround).1
  | @packet f g h discard start stop result _ hround hdecode ih =>
      have hwf := (WfAt.round_words husize ih hround).1.decodeRange start stop
      rw [hdecode] at hwf
      exact hwf
  | @sendPacket f g packet result _ hsend ih =>
      have hwf := (Wf.sendPacket ih packet).1
      rw [hsend] at hwf
      exact hwf
  | sendReset _ hsend ih => exact (sendReset_wire ih hsend).2.1

/-! ### Safety -/

/-- The next round, and what `next_packet` makes of the frame it returns, are safe. -/
structure SafeAt (usize : Usize) (f : Framing cobs maxFrameSize) (discard : Nat) : Prop where
  /-- On numbers nothing panics: no slice and no copy is out of bounds, no difference underflows. -/
  bounds : f.round .unbounded discard ≠ none
  /-- In words a round panics only where the sum with the discard counter does not fit. -/
  counter : f.round usize discard = none → 0 < discard ∧ usize.add discard f.thrown = none
  /-- Reporting the size of a frame that was thrown away does not underflow, whatever the counter has become. -/
  report : ∀ {sum}, 0 < discard → usize.add discard f.thrown = some sum → f.readerOffset ≤ sum
  /-- The buffer that is handed to the reader is not empty. -/
  room : ∀ {g e}, memchr 0 (slice f.readerBuffer f.readerSearch f.readerFilled) = none →
    f.makeRoomWith usize discard = some (g, e) → g.readerFilled < g.readerBuffer.length
  /-- A read of no bytes is the end of the stream. -/
  ended : ∀ {g}, f.round usize discard = some (.done (.ready (.error .terminated)) g) →
    f.reader = .data [] :: g.reader
  /-- The range that is returned is one of the buffer, of no delimiter and at most the limit long. -/
  range : ∀ {start stop g}, f.round usize discard = some (.done (.ready (.ok (start, stop))) g) →
    start ≤ stop ∧ stop ≤ g.readerBuffer.length ∧ 0 ∉ slice g.readerBuffer start stop ∧ stop - start ≤ maxFrameSize
  /-- The decoder gets a frame that is not empty, of no delimiter, and decodes into the buffer at hand. -/
  decode : ∀ {start stop g}, f.round usize discard = some (.done (.ready (.ok (start, stop))) g) → start ≠ stop →
    ∃ frame, slice? g.readerBuffer start stop = some frame ∧ frame ≠ [] ∧ 0 ∉ frame ∧
      frame.length ≤ g.decobsBuffer.length ∧
      ∀ {room packet}, cobs.decodeNonzero frame room = .ok packet → packet.length ≤ g.decobsBuffer.length

theorem WfAt.safeAt (husize : usize.Indexes (maxFrameSize + 1)) (hcobs : cobs.NeverLengthens) (hf : f.WfAt discard) :
    f.SafeAt usize discard := by
  constructor
  · exact hf.round_ne_none
  · intro hpanic
    exact hf.round_words husize hpanic
  · intro sum hpos _
    rw [(hf.discarding hpos).1]
    exact Nat.zero_le sum
  · intro g e hfound hroom
    have hspec := hf.makeRoomWith husize hfound
    rw [hroom] at hspec
    rw [hspec.1.reader_length]
    exact Nat.lt_succ_of_le hspec.2.2.1
  · intro g hdone
    exact (hf.round_words husize hdone).2 rfl
  · intro start stop g hdone
    obtain ⟨hg, hle, hfit, hclean⟩ := hf.round_words husize hdone
    refine ⟨hle, ?_, hclean, by omega⟩
    rw [hg.reader_length]
    omega
  · intro start stop g hdone hne
    obtain ⟨hg, hle, hfit, hclean⟩ := hf.round_words husize hdone
    have hin : stop ≤ g.readerBuffer.length := by
      rw [hg.reader_length]
      omega
    have hlength : (slice g.readerBuffer start stop).length = stop - start := length_slice hin
    refine ⟨_, slice?_eq_some hle hin, ?_, hclean, ?_, ?_⟩
    · intro hnil
      rw [hnil, List.length_nil] at hlength
      omega
    · rw [hlength, hg.decobs_length]
      omega
    · intro room packet hdecode
      have hshort := hcobs hclean hdecode
      rw [hg.decobs_length]
      omega

/-- In every run of calls, at every head of the loop and between the calls, the cursors are in order, nothing scanned is a
delimiter, and the next round is safe. The words are long enough for the length of the buffer. -/
theorem runs_safe {w : Nat} {place : Place} (hw : maxFrameSize + 1 < 2 ^ w)
    (husize : usize ∈ [Usize.unbounded, Usize.checked w, Usize.wrapping w]) (hcobs : cobs.NeverLengthens)
    (hrun : Run usize f place) :
    f.Wf ∧ ∀ {call discard}, place = .head call discard → f.SafeAt usize discard := by
  have hindexes : usize.Indexes (maxFrameSize + 1) := by
    simp only [List.mem_cons, List.not_mem_nil, or_false] at husize
    rcases husize with rfl | rfl | rfl
    · exact Usize.unbounded_indexes (maxFrameSize + 1)
    · exact Usize.checked_indexes hw
    · exact Usize.wrapping_indexes hw
  have hsound := hrun.sound hindexes
  refine ⟨hsound.wf, ?_⟩
  rintro call discard rfl
  exact WfAt.safeAt hindexes hcobs hsound

/-- A framer in the middle of a frame of six bytes, the limit being four. -/
def tooLong : Framing Cobs.stuffing 4 where
  reader := []
  writer := ⟨[], []⟩
  readerBuffer := [6, 0, 7, 0, 5]
  readerFilled := 4
  readerOffset := 0
  readerSearch := 0
  decobsBuffer := List.replicate 4 0
  encobsBuffer := List.replicate 5 0

theorem tooLong_run : Run (.checked 32) tooLong (.head .nextPacket 5) :=
  have hnew := Run.new [.data [1, 2, 3, 4, 5], .data [6, 0, 7, 0]] ⟨[], []⟩
  ((hnew.call .nextPacket).again rfl).again rfl

theorem runs_safe_reference : tooLong.Wf ∧ tooLong.SafeAt (.checked 32) 5 :=
  have hsafe := runs_safe (w := 32) (by decide) (by simp) Cobs.stuffing_neverLengthens tooLong_run
  ⟨hsafe.1, hsafe.2 rfl⟩

end Framing

end DarkbioWire
