import DarkbioWire.Framing.Safety

/-!
# The work of the framer

Bytes taken from the reader, bytes looked at for a delimiter, bytes copied to compact the buffer and bytes handed to the
COBS decoder, counted beside any run of calls. The cursors pay for it: the searched region is not searched again, and a
buffer is only compacted where all that is copied was searched in the same round (`Settled`). So the work of a run is
linear in what it received, however the stream is cut and whatever frames are in it (`run_linear`).
-/

namespace DarkbioWire.Framing

open Delimited

variable {cobs : Cobs} {maxFrameSize : Nat} {f g : Framing cobs maxFrameSize} {discard e : Nat}

/-- The bytes a run has worked on. -/
structure Work where
  received : Nat
  searched : Nat
  moved : Nat
  decoded : Nat
  deriving DecidableEq, Repr

def Work.none : Work := ⟨0, 0, 0, 0⟩

instance : Add Work where
  add w w' := ⟨w.received + w'.received, w.searched + w'.searched, w.moved + w'.moved, w.decoded + w'.decoded⟩

/-- What a round of `next_frame` works on. -/
def roundWork (f : Framing cobs maxFrameSize) (discard : Nat) : Work :=
  match memchr 0 (slice f.readerBuffer f.readerSearch f.readerFilled) with
  | some found => ⟨0, found + 1, 0, 0⟩
  | none =>
      let searched := f.readerFilled - f.readerSearch
      -- the `copy_within` of a waiting call
      let moved := if discard = 0 ∧ f.readerOffset > 0 then f.readerFilled - f.readerOffset else 0
      match f.makeRoom discard with
      | none => ⟨0, searched, moved, 0⟩
      | some (f, _) =>
          match f.reader.read (f.readerBuffer.length - f.readerFilled) with
          | (.ok bytes, _) => ⟨bytes.length, searched, moved, 0⟩
          | _ => ⟨0, searched, moved, 0⟩

/-- The runs of calls of a framer, with the work they have done. -/
inductive Spends : Framing cobs maxFrameSize → Place → Work → Prop
  | new (reader : Reader) (writer : Writer) : Spends (new reader writer) .between .none
  | call {f : Framing cobs maxFrameSize} {work : Work} (call : Call) (hrun : Spends f .between work) :
      Spends f (.head call 0) work
  | again {f g : Framing cobs maxFrameSize} {call : Call} {discard e : Nat} {work : Work}
      (hrun : Spends f (.head call discard) work) (hround : f.round .unbounded discard = some (.again g e)) :
      Spends g (.head call e) (work + f.roundWork discard)
  | wait {f g : Framing cobs maxFrameSize} {call : Call} {discard e : Nat} {work : Work}
      (hrun : Spends f (.head call discard) work)
      (hround : f.round .unbounded discard = some (.done (.pending e) g)) :
      Spends g (.head call e) (work + f.roundWork discard)
  | arrive {f : Framing cobs maxFrameSize} {place : Place} {work : Work} (more : Reader) (hrun : Spends f place work) :
      Spends ({ f with reader := f.reader ++ more } : Framing cobs maxFrameSize) place work
  | fail {f g : Framing cobs maxFrameSize} {call : Call} {discard : Nat} {err : Error} {work : Work}
      (hrun : Spends f (.head call discard) work)
      (hround : f.round .unbounded discard = some (.done (.ready (.error err)) g)) :
      Spends g .between (work + f.roundWork discard)
  | frame {f g : Framing cobs maxFrameSize} {discard : Nat} {range : Nat × Nat} {work : Work}
      (hrun : Spends f (.head .nextFrame discard) work)
      (hround : f.round .unbounded discard = some (.done (.ready (.ok range)) g)) :
      Spends g .between (work + f.roundWork discard)
  | packet {f g h : Framing cobs maxFrameSize} {discard start stop : Nat} {result : Except Error (Option Nat)}
      {work : Work} (hrun : Spends f (.head .nextPacket discard) work)
      (hround : f.round .unbounded discard = some (.done (.ready (.ok (start, stop))) g))
      (hdecode : g.decodeRange start stop = (.ready result, h)) :
      Spends h .between (work + f.roundWork discard + ⟨0, 0, 0, stop - start⟩)
  | sendPacket {f g : Framing cobs maxFrameSize} {packet : List UInt8} {result : Except Error Unit} {work : Work}
      (hrun : Spends f .between work) (hsend : f.sendPacket packet = (result, g)) : Spends g .between work
  | sendReset {f g : Framing cobs maxFrameSize} {result : Except Error Unit} {work : Work}
      (hrun : Spends f .between work) (hsend : f.sendReset = (result, g)) : Spends g .between work

/-- A framer that has bytes to compact has searched none of them. -/
def Settled (f : Framing cobs maxFrameSize) : Prop := 0 < f.readerOffset → f.readerSearch = f.readerOffset

/-- The framer a round leaves. -/
def Round.framing : Round cobs maxFrameSize → Framing cobs maxFrameSize
  | .done _ g => g
  | .again g _ => g

/-- What a round does to the cursors, for the work it does: it takes `frame` bytes as a frame. -/
structure Pays (f g : Framing cobs maxFrameSize) (work : Work) (frame : Nat) : Prop where
  searched : work.searched + (g.readerFilled - g.readerSearch) = work.received + (f.readerFilled - f.readerSearch)
  moved : work.moved ≤ work.searched
  held : g.readerSearch - g.readerOffset + frame ≤ f.readerSearch - f.readerOffset + work.searched
  decoded : work.decoded = 0
  settled : g.Settled

/-- The bytes a round returns as a frame. -/
def Round.frame : Round cobs maxFrameSize → Nat
  | .done (.ready (.ok (start, stop))) _ => stop - start
  | _ => 0

/-- Making room copies nothing that waits to be searched, and keeps no more than was pending. -/
theorem WfAt.makeRoom_held (hf : f.WfAt discard)
    (hfound : memchr 0 (slice f.readerBuffer f.readerSearch f.readerFilled) = none)
    (hroom : f.makeRoom discard = some (g, e)) :
    g.WfAt e ∧ g.readerOffset = 0 ∧ g.readerSearch = g.readerFilled ∧ g.readerFilled ≤ maxFrameSize ∧
      g.readerFilled ≤ f.readerFilled - f.readerOffset := by
  have hclean := hf.memchr_iff.mp hfound
  obtain ⟨g', e', hroom', hg, hoffset, hsearch, hfill, _, _, _, hresidue⟩ := hf.makeRoom (memchr_none hfound)
  cases hroom'.symm.trans hroom
  refine ⟨hg, hoffset, hsearch, hfill, ?_⟩
  have hkept : g.pending.length ≤ f.pending.length := by
    rw [residue_of_not_mem hclean] at hresidue
    split at hresidue
    · rw [← (Prod.mk.inj hresidue).2]
      exact Nat.zero_le _
    · rw [← (Prod.mk.inj hresidue).2]
  rw [hf.length_pending.1, hg.length_pending.1, hoffset] at hkept
  omega

/-- Every round pays for its work. -/
theorem WfAt.round_pays (hf : f.WfAt discard) (hsettled : f.Settled) {result : Round cobs maxFrameSize}
    (hround : f.round .unbounded discard = some result) :
    Pays f result.framing (f.roundWork discard) result.frame := by
  have hoff := hf.offset_le
  have hsearch := hf.search_le
  rw [round, hf.region, makeRoomWith_unbounded] at hround
  simp only [Option.bind_eq_bind, Option.bind_some] at hround
  cases hfound : memchr 0 (slice f.readerBuffer f.readerSearch f.readerFilled) with
  | some found =>
      have hlt := (memchr_some hfound).1
      rw [length_slice (hf.reader_length ▸ hf.filled_le)] at hlt
      have hwork : f.roundWork discard = ⟨0, found + 1, 0, 0⟩ := by
        rw [roundWork, hfound]
      rw [hwork]
      simp only [hfound, Usize.unbounded, Option.bind_some] at hround
      split at hround
      · obtain ⟨_, _, hround⟩ := Option.bind_eq_some_iff.mp hround
        cases hround
        refine ⟨?_, Nat.zero_le _, ?_, rfl, fun _ => rfl⟩
        · simp only [Round.framing]
          omega
        · simp only [Round.framing, Round.frame]
          omega
      · cases hround
        refine ⟨?_, Nat.zero_le _, ?_, rfl, fun _ => rfl⟩
        · simp only [Round.framing]
          omega
        · simp only [Round.framing, Round.frame]
          omega
  | none =>
      obtain ⟨g, e, hroom, _⟩ := hf.makeRoom (memchr_none hfound)
      obtain ⟨hg, hoffset, hscanned, hfill, hheld⟩ := hf.makeRoom_held hfound hroom
      have hlen := hg.reader_length
      have hmoved : (if discard = 0 ∧ f.readerOffset > 0 then f.readerFilled - f.readerOffset else 0) ≤
          f.readerFilled - f.readerSearch := by
        split
        · rename_i hcompact
          rw [hsettled hcompact.2]
        · exact Nat.zero_le _
      have hfree : (slice g.readerBuffer g.readerFilled g.readerBuffer.length).length =
          g.readerBuffer.length - g.readerFilled := length_slice (Nat.le_refl _)
      have hsettled' : ∀ reader, ({ g with reader } : Framing cobs maxFrameSize).Settled :=
        fun _ hpos => absurd hpos (by rw [hoffset]; exact Nat.lt_irrefl 0)
      simp only [hfound, hroom, Option.bind_some, slice?_eq_some (show g.readerFilled ≤ g.readerBuffer.length by omega)
        (Nat.le_refl _), hfree] at hround
      rw [roundWork, hfound]
      simp only [hroom]
      -- a read of no bytes leaves nothing to search
      have hstopped : ∀ reader, Pays f ({ g with reader } : Framing cobs maxFrameSize)
          ⟨0, f.readerFilled - f.readerSearch,
            if discard = 0 ∧ f.readerOffset > 0 then f.readerFilled - f.readerOffset else 0, 0⟩ 0 := by
        intro reader
        refine ⟨?_, hmoved, ?_, rfl, hsettled' reader⟩
        · dsimp only
          omega
        · dsimp only
          omega
      rcases hread : g.reader.read (g.readerBuffer.length - g.readerFilled) with ⟨bytes | err | _, reader⟩
      · rw [hread] at hround
        rcases bytes with _ | ⟨b, bs⟩
        · cases hround
          exact hstopped reader
        · simp only [Usize.unbounded, Option.bind_some] at hround
          cases hround
          refine ⟨?_, hmoved, ?_, rfl, hsettled' reader⟩
          · change f.readerFilled - f.readerSearch + (g.readerFilled + (b :: bs).length - g.readerSearch) =
              (b :: bs).length + (f.readerFilled - f.readerSearch)
            omega
          · change g.readerSearch - g.readerOffset + 0 ≤ _ + (f.readerFilled - f.readerSearch)
            omega
      · rw [hread] at hround
        cases hround
        exact hstopped reader
      · rw [hread] at hround
        cases hround
        exact hstopped reader

/-- What a run has paid for: every byte received was searched or waits to be, and what was searched pays for what was
moved and, but for the part of a frame still held, for what was decoded. -/
structure Paid (f : Framing cobs maxFrameSize) (work : Work) : Prop where
  searched : work.searched + (f.readerFilled - f.readerSearch) = work.received
  moved : work.moved ≤ work.searched
  decoded : work.decoded + (f.readerSearch - f.readerOffset) ≤ work.searched
  settled : f.Settled

theorem Paid.round {work : Work} (hpaid : Paid f work) (hf : f.WfAt discard) {result : Round cobs maxFrameSize}
    (hround : f.round .unbounded discard = some result) :
    Paid result.framing (work + f.roundWork discard + ⟨0, 0, 0, result.frame⟩) := by
  obtain ⟨hsearched, hmoved, hheld, hdecoded, hsettled⟩ := hf.round_pays hpaid.settled hround
  have hpast := hpaid.searched
  have hpast' := hpaid.moved
  have hpast'' := hpaid.decoded
  refine ⟨?_, ?_, ?_, hsettled⟩
  · change work.searched + (f.roundWork discard).searched + 0 + _ = work.received + (f.roundWork discard).received + 0
    omega
  · change work.moved + (f.roundWork discard).moved + 0 ≤ work.searched + (f.roundWork discard).searched + 0
    omega
  · change work.decoded + (f.roundWork discard).decoded + result.frame + _ ≤
      work.searched + (f.roundWork discard).searched + 0
    omega

theorem Paid.undecoded {work : Work} {more : Nat} (hpaid : Paid f (work + ⟨0, 0, 0, more⟩)) : Paid f work := by
  have hdecoded : work.decoded + more + (f.readerSearch - f.readerOffset) ≤ work.searched := hpaid.decoded
  exact ⟨hpaid.searched, hpaid.moved, by omega, hpaid.settled⟩

theorem Paid.decodeRange {work : Work} (hpaid : Paid f work) (start stop : Nat) :
    Paid (f.decodeRange start stop).2 work := by
  rw [Framing.decodeRange]
  split
  · exact hpaid
  split
  · exact hpaid
  split
  · exact hpaid
  · exact ⟨hpaid.searched, hpaid.moved, hpaid.decoded, hpaid.settled⟩

theorem SameReceiver.paid {work : Work} (hsame : SameReceiver f g) (hpaid : Paid f work) : Paid g work where
  searched := by
    rw [hsame.readerFilled, hsame.readerSearch]
    exact hpaid.searched
  moved := hpaid.moved
  decoded := by
    rw [hsame.readerSearch, hsame.readerOffset]
    exact hpaid.decoded
  settled := by
    rw [Settled, hsame.readerSearch, hsame.readerOffset]
    exact hpaid.settled

theorem Spends.run {place : Place} {work : Work} (hrun : Spends f place work) : Run .unbounded f place := by
  induction hrun with
  | new reader writer => exact .new reader writer
  | call call _ ih => exact ih.call call
  | again _ hround ih => exact ih.again hround
  | wait _ hround ih => exact ih.wait hround
  | arrive more _ ih => exact ih.arrive more
  | fail _ hround ih => exact ih.fail hround
  | frame _ hround ih => exact ih.frame hround
  | packet _ hround hdecode ih => exact ih.packet hround hdecode
  | sendPacket _ hsend ih => exact ih.sendPacket hsend
  | sendReset _ hsend ih => exact ih.sendReset hsend

theorem Spends.paid {place : Place} {work : Work} (hrun : Spends f place work) : Paid f work := by
  have hindexes := Usize.unbounded_indexes (maxFrameSize + 1)
  induction hrun with
  | new reader writer => exact ⟨rfl, Nat.le_refl 0, Nat.le_refl 0, fun _ => rfl⟩
  | call _ _ ih => exact ih
  | again hrun hround ih => exact (ih.round (hrun.run.sound hindexes) hround).undecoded
  | wait hrun hround ih => exact (ih.round (hrun.run.sound hindexes) hround).undecoded
  | arrive _ _ ih => exact ⟨ih.searched, ih.moved, ih.decoded, ih.settled⟩
  | fail hrun hround ih => exact (ih.round (hrun.run.sound hindexes) hround).undecoded
  | frame hrun hround ih => exact (ih.round (hrun.run.sound hindexes) hround).undecoded
  | @packet f g h discard start stop result work hrun hround hdecode ih =>
      have hpaid : Paid (g.decodeRange start stop).2 (work + f.roundWork discard + ⟨0, 0, 0, stop - start⟩) :=
        (ih.round (hrun.run.sound hindexes) hround).decodeRange start stop
      rw [hdecode] at hpaid
      exact hpaid
  | @sendPacket f g packet result work hrun hsend ih =>
      have hsame := (Wf.sendPacket (hrun.run.sound hindexes) packet).2
      rw [hsend] at hsame
      exact hsame.paid ih
  | sendReset hrun hsend ih => exact (sendReset_wire (hrun.run.sound hindexes) hsend).2.2.paid ih

/-- The work of every run of calls, over every reader, is linear in the bytes it received: none is searched, moved or
decoded more than once. -/
theorem run_linear {place : Place} {work : Work} (hrun : Spends f place work) :
    work.searched ≤ work.received ∧ work.moved ≤ work.received ∧ work.decoded ≤ work.received := by
  obtain ⟨hsearched, hmoved, hdecoded, _⟩ := hrun.paid
  omega

/-- A packet and the start of the next one, in one read: the call that waits for the rest of it has moved one byte. -/
theorem run_linear_reference :
    ∃ (f : Framing Cobs.stuffing 4) (work : Work), Spends f (.head .nextPacket 0) work ∧ work = ⟨4, 4, 1, 2⟩ ∧
      work.searched ≤ work.received ∧ work.moved ≤ work.received ∧ work.decoded ≤ work.received := by
  have hnew : Spends (new [.data [2, 7, 0, 9]] ⟨[], []⟩ : Framing Cobs.stuffing 4) .between .none := .new _ _
  have hpacket := Spends.packet ((hnew.call .nextPacket).again rfl) rfl rfl
  have hwait := (hpacket.call .nextPacket).wait rfl
  exact ⟨_, _, hwait, rfl, run_linear hwait⟩

end DarkbioWire.Framing
