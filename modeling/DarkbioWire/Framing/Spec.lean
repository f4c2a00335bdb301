import DarkbioWire.Framing
import DarkbioWire.Lib.Delimited

/-!
# What the framer's calls do

`Wf` is the representation invariant of the receive buffer. The framer is read through `unread`, the bytes in front of
the next frame: those still in the buffer and those the reader serves before it fails, ends or blocks. One loop of
`next_frame` consumes from them exactly what `Delimited.next` says (`nextFrameLoop_spec`), whatever the buffer cursors
and the read sizes are, and never leaves the bounds of a buffer.
-/

namespace DarkbioWire.Framing

open Delimited

variable {cobs : Cobs} {maxFrameSize : Nat} {f f' : Framing cobs maxFrameSize} {discard discard' : Nat}

/-- The representation invariant of the framer. -/
structure Wf (f : Framing cobs maxFrameSize) : Prop where
  offset_le : f.readerOffset ≤ f.readerSearch
  search_le : f.readerSearch ≤ f.readerFilled
  filled_le : f.readerFilled ≤ maxFrameSize + 1
  reader_length : f.readerBuffer.length = maxFrameSize + 1
  scanned : 0 ∉ slice f.readerBuffer f.readerOffset f.readerSearch
  decobs_length : f.decobsBuffer.length = maxFrameSize
  encobs_length : f.encobsBuffer.length = maxFrameSize + 1

/-- The invariant at the head of the loop of `next_frame`: while discarding, everything before what was just read is
gone. -/
structure WfAt (f : Framing cobs maxFrameSize) (discard : Nat) : Prop extends f.Wf where
  discarding : 0 < discard → f.readerOffset = 0 ∧ f.readerSearch = 0

/-- Reading changes nothing on the sending side. -/
structure SameSender (f f' : Framing cobs maxFrameSize) : Prop where
  writer : f'.writer = f.writer
  encobs : f'.encobsBuffer = f.encobsBuffer

/-- Reading a frame changes the receive buffer only. -/
structure SameRest (f f' : Framing cobs maxFrameSize) : Prop extends SameSender f f' where
  decobs : f'.decobsBuffer = f.decobsBuffer

/-- The bytes received and not yet consumed. -/
def pending (f : Framing cobs maxFrameSize) : List UInt8 := slice f.readerBuffer f.readerOffset f.readerFilled

/-- The bytes in front of the next frame, as far as the reader serves any. -/
def unread (f : Framing cobs maxFrameSize) : List UInt8 := f.pending ++ f.reader.bytes

theorem new_wf (reader : Reader) (writer : Writer) : (new reader writer : Framing cobs maxFrameSize).Wf := by
  constructor <;> simp [new]

@[simp] theorem new_pending (reader : Reader) (writer : Writer) :
    (new reader writer : Framing cobs maxFrameSize).pending = [] := by
  simp [pending, new]

theorem Wf.wfAt (hf : f.Wf) : f.WfAt 0 := ⟨hf, fun h => absurd h (Nat.lt_irrefl 0)⟩

theorem SameRest.refl (f : Framing cobs maxFrameSize) : SameRest f f := ⟨⟨rfl, rfl⟩, rfl⟩

theorem SameRest.trans {f'' : Framing cobs maxFrameSize} (h : SameRest f f') (h' : SameRest f' f'') : SameRest f f'' :=
  ⟨⟨h'.writer.trans h.writer, h'.encobs.trans h.encobs⟩, h'.decobs.trans h.decobs⟩

theorem SameRest.withReader (h : SameRest f f') (reader : Reader) :
    SameRest f ({ f' with reader } : Framing cobs maxFrameSize) := ⟨⟨h.writer, h.encobs⟩, h.decobs⟩

/-! ### The search -/

theorem memchr_none {needle : UInt8} {haystack : List UInt8} (h : memchr needle haystack = none) :
    needle ∉ haystack := by
  intro hmem
  simpa using List.findIdx?_eq_none_iff.mp h needle hmem

theorem memchr_some {needle : UInt8} {haystack : List UInt8} {found : Nat} (h : memchr needle haystack = some found) :
    found < haystack.length ∧ needle ∉ haystack.take found ∧
      haystack = haystack.take found ++ needle :: haystack.drop (found + 1) := by
  obtain ⟨hlt, hat, hbefore⟩ := List.findIdx?_eq_some_iff_getElem.mp h
  refine ⟨hlt, ?_, ?_⟩
  · intro hmem
    obtain ⟨i, hi, heq⟩ := List.mem_iff_getElem.mp hmem
    rw [List.length_take] at hi
    have hne := hbefore i (by omega)
    rw [List.getElem_take] at heq
    simp [heq] at hne
  · have heq : haystack[found] = needle := by simpa using hat
    calc haystack = haystack.take found ++ haystack.drop found := (List.take_append_drop found haystack).symm
      _ = haystack.take found ++ needle :: haystack.drop (found + 1) := by
        rw [List.drop_eq_getElem_cons hlt, heq]

theorem Wf.region (hf : f.Wf) :
    slice? f.readerBuffer f.readerSearch f.readerFilled =
      some (slice f.readerBuffer f.readerSearch f.readerFilled) :=
  slice?_eq_some hf.search_le (hf.reader_length ▸ hf.filled_le)

theorem Wf.pending_split (hf : f.Wf) :
    slice f.readerBuffer f.readerOffset f.readerSearch ++ slice f.readerBuffer f.readerSearch f.readerFilled =
      f.pending :=
  slice_append hf.offset_le hf.search_le

/-! ### Consuming a frame -/

theorem Wf.found (hf : f.Wf) {found : Nat}
    (hfound : memchr 0 (slice f.readerBuffer f.readerSearch f.readerFilled) = some found) :
    let stop := f.readerSearch + found
    let f' : Framing cobs maxFrameSize := { f with readerOffset := stop + 1, readerSearch := stop + 1 }
    f'.Wf ∧ f.readerOffset ≤ stop ∧ stop ≤ maxFrameSize ∧ 0 ∉ slice f.readerBuffer f.readerOffset stop ∧
      f.pending = slice f.readerBuffer f.readerOffset stop ++ 0 :: f'.pending := by
  obtain ⟨hlt, hclean, hsplit⟩ := memchr_some hfound
  have hlen := hf.reader_length ▸ hf.filled_le
  rw [length_slice hlen] at hlt
  have hoff := hf.offset_le
  have hfill := hf.filled_le
  intro stop f'
  have htake : (slice f.readerBuffer f.readerSearch f.readerFilled).take found = slice f.readerBuffer f.readerSearch stop := by
    rw [slice, slice, List.take_drop, List.take_take, Nat.min_eq_left (by omega)]
  have hdrop : (slice f.readerBuffer f.readerSearch f.readerFilled).drop (found + 1) = f'.pending := by
    rw [pending, slice, slice, List.drop_drop]
    rfl
  rw [htake] at hclean hsplit
  rw [hdrop] at hsplit
  have hfront : slice f.readerBuffer f.readerOffset f.readerSearch ++ slice f.readerBuffer f.readerSearch stop =
      slice f.readerBuffer f.readerOffset stop := slice_append hf.offset_le (by omega)
  refine ⟨⟨le_refl _, by change stop + 1 ≤ f.readerFilled; omega, hf.filled_le, hf.reader_length, by simp [f'],
    hf.decobs_length, hf.encobs_length⟩, by omega, by omega, ?_, ?_⟩
  · rw [← hfront, List.mem_append]
    exact fun hmem => hmem.elim hf.scanned hclean
  · rw [← hf.pending_split, hsplit, ← hfront, List.append_assoc]

/-! ### Making room -/

theorem pending_clear (f : Framing cobs maxFrameSize) : f.clear.pending = [] := by
  simp [clear, pending]

theorem Wf.clear (hf : f.Wf) : f.clear.Wf :=
  ⟨le_refl _, le_refl _, Nat.zero_le _, hf.reader_length, by simp [Framing.clear], hf.decobs_length, hf.encobs_length⟩

theorem Wf.markScanned (hf : f.Wf) (hclean : 0 ∉ f.pending) : f.markScanned.Wf :=
  ⟨Nat.le_trans hf.offset_le hf.search_le, le_refl _, hf.filled_le, hf.reader_length, hclean, hf.decobs_length,
    hf.encobs_length⟩

theorem Wf.compact (hf : f.Wf) (hsearch : f.readerSearch = f.readerFilled) :
    ∃ f', f.compact = some f' ∧ f'.Wf ∧ f'.readerOffset = 0 ∧ f'.readerSearch = f'.readerFilled ∧
      f'.pending = f.pending ∧ f'.reader = f.reader ∧ SameRest f f' := by
  rw [Framing.compact]
  have hoff := hf.offset_le
  have hfill := hf.filled_le
  have hlen := hf.reader_length
  have hlength : f.pending.length = f.readerFilled - f.readerOffset := length_slice (by omega)
  split
  · rename_i hpos
    have hmoved : slice (overwrite f.readerBuffer 0 f.pending) 0 (f.readerFilled - f.readerOffset) = f.pending := by
      have := @slice_overwrite_at f.readerBuffer f.pending 0 (Nat.zero_le _)
      rwa [Nat.zero_add, hlength] at this
    rw [slice?_eq_some (by omega) (by omega)]
    refine ⟨_, rfl, ⟨Nat.zero_le _, le_refl _, by dsimp only; omega, ?_, ?_, hf.decobs_length, hf.encobs_length⟩, rfl,
      rfl, hmoved, rfl, ⟨⟨rfl, rfl⟩, rfl⟩⟩
    · change (overwrite f.readerBuffer 0 f.pending).length = _
      rw [length_overwrite (by omega), hlen]
    · change 0 ∉ slice (overwrite f.readerBuffer 0 f.pending) 0 (f.readerFilled - f.readerOffset)
      rw [hmoved, pending, ← hsearch]
      exact hf.scanned
  · exact ⟨f, rfl, hf, by omega, hsearch, rfl, rfl, .refl f⟩

/-- After a search that found nothing there is room for a read, and what was thrown away belongs to a frame that is too
long. -/
theorem WfAt.makeRoom (hf : f.WfAt discard) (hclean : 0 ∉ slice f.readerBuffer f.readerSearch f.readerFilled) :
    ∃ f' discard', f.makeRoom discard = some (f', discard') ∧ f'.WfAt discard' ∧ f'.readerOffset = 0 ∧
      f'.readerSearch = f'.readerFilled ∧ f'.readerFilled ≤ maxFrameSize ∧ f'.reader = f.reader ∧ SameRest f f' ∧
      (∀ u, next 0 maxFrameSize (decide (0 < discard)) (f.pending ++ u) =
        next 0 maxFrameSize (decide (0 < discard')) (f'.pending ++ u)) ∧
      residue 0 maxFrameSize (decide (0 < discard)) f.pending = (decide (0 < discard'), f'.pending) := by
  have hpending : 0 ∉ f.pending := by
    rw [← hf.pending_split, List.mem_append]
    exact fun hmem => hmem.elim hf.scanned hclean
  have hg := hf.markScanned hpending
  have hpendingg : f.markScanned.pending = f.pending := rfl
  by_cases hdiscard : discard = 0
  · subst hdiscard
    obtain ⟨f', hcompact, hf', hoff, hsearch, hpend, hreader, hrest⟩ := hg.compact rfl
    have hfill := hf'.filled_le
    have hlength : f'.pending.length = f'.readerFilled := by
      rw [pending, length_slice (hf'.reader_length ▸ hf'.filled_le), hoff, Nat.sub_zero]
    rw [hpendingg] at hpend
    have hroom : f.makeRoom 0 = some (f'.overflow 0) := by
      rw [Framing.makeRoom, if_pos rfl, hcompact]
      rfl
    by_cases hfull : f'.readerFilled = maxFrameSize + 1
    · rw [overflow, if_pos hfull] at hroom
      have hlong : maxFrameSize < f.pending.length := by
        rw [← hpend, hlength]
        omega
      refine ⟨_, _, hroom, ⟨hf'.clear, fun _ => ⟨rfl, rfl⟩⟩, rfl, rfl, Nat.zero_le _, hreader, ⟨⟨hrest.writer, hrest.encobs⟩, hrest.decobs⟩,
        fun u => ?_, ?_⟩
      · rw [next_long_append hpending hlong, pending_clear]
        simp
      · rw [residue_of_not_mem hpending, if_pos (Or.inr hlong), pending_clear]
        simp
    · rw [overflow, if_neg hfull] at hroom
      have hshort : ¬ maxFrameSize < f.pending.length := by
        rw [← hpend, hlength]
        omega
      refine ⟨_, _, hroom, hf'.wfAt, hoff, hsearch, by omega, hreader, ⟨⟨hrest.writer, hrest.encobs⟩, hrest.decobs⟩,
        fun u => ?_, ?_⟩
      · rw [hpend]
      · rw [residue_of_not_mem hpending, if_neg (by simp [hshort]), hpend]
        simp
  · have hpos : 0 < discard := Nat.pos_of_ne_zero hdiscard
    have hempty : ¬ f.markScanned.clear.readerFilled = maxFrameSize + 1 := Nat.zero_ne_add_one maxFrameSize
    have hroom : f.makeRoom discard = some (f.markScanned.clear, discard + f.readerFilled) := by
      rw [Framing.makeRoom, if_neg hdiscard, overflow, if_neg hempty]
      rfl
    refine ⟨_, _, hroom, ⟨hg.clear, fun _ => ⟨rfl, rfl⟩⟩, rfl, rfl, Nat.zero_le _, rfl, ⟨⟨rfl, rfl⟩, rfl⟩, fun u => ?_, ?_⟩
    · rw [decide_eq_true hpos, next_over_append hpending, pending_clear, decide_eq_true (by omega)]
      rfl
    · rw [decide_eq_true hpos, residue_of_not_mem hpending, pending_clear, decide_eq_true (by omega)]
      simp

theorem WfAt.ingest (hf : f.WfAt discard) (hsearch : f.readerSearch = f.readerFilled) (reader : Reader)
    {bytes : List UInt8} (hfit : bytes.length ≤ maxFrameSize + 1 - f.readerFilled) :
    (f.ingest reader bytes).WfAt discard ∧ (f.ingest reader bytes).pending = f.pending ++ bytes := by
  have hoff := hf.offset_le
  have hfill := hf.filled_le
  have hlen := hf.reader_length
  have hstart : f.readerFilled ≤ f.readerBuffer.length := by omega
  have hbefore : slice (overwrite f.readerBuffer f.readerFilled bytes) f.readerOffset f.readerFilled =
      slice f.readerBuffer f.readerOffset f.readerFilled := slice_overwrite_before hstart
  refine ⟨⟨⟨hoff, ?_, ?_, ?_, ?_, hf.decobs_length, hf.encobs_length⟩, hf.discarding⟩, ?_⟩
  · change f.readerSearch ≤ f.readerFilled + bytes.length
    omega
  · change f.readerFilled + bytes.length ≤ maxFrameSize + 1
    omega
  · change (overwrite f.readerBuffer f.readerFilled bytes).length = maxFrameSize + 1
    rw [length_overwrite (by omega), hlen]
  · change 0 ∉ slice (overwrite f.readerBuffer f.readerFilled bytes) f.readerOffset f.readerSearch
    rw [hsearch, hbefore, ← hsearch]
    exact hf.scanned
  · change slice (overwrite f.readerBuffer f.readerFilled bytes) f.readerOffset (f.readerFilled + bytes.length) = _
    rw [← slice_append (show f.readerOffset ≤ f.readerFilled by omega) (Nat.le_add_right _ _), hbefore,
      slice_overwrite_at hstart]
    rfl

/-! ### The loop -/

/-- How a call in the loop of `next_frame` ends, given the bytes in front of it and what stops them. -/
def NextFrameSpec (f : Framing cobs maxFrameSize) (discard : Nat) (result : Poll (Nat × Nat) × Framing cobs maxFrameSize) :
    Prop :=
  match next 0 maxFrameSize (decide (0 < discard)) f.unread with
  | some (frame, rest) =>
      ∃ start stop, result.1 = .ready (.ok (start, stop)) ∧ slice? result.2.readerBuffer start stop = some frame ∧
        result.2.unread = rest ∧ result.2.reader.stop = f.reader.stop
  | none =>
      ∃ discard', residue 0 maxFrameSize (decide (0 < discard)) f.unread = (decide (0 < discard'), result.2.pending) ∧
        result.2.WfAt discard' ∧
        match f.reader.stop with
        | [] => result.1 = .pending discard' ∧ result.2.reader = []
        | .data _ :: reader => result.1 = .ready (.error .terminated) ∧ result.2.reader = reader
        | .fail err :: reader => result.1 = .ready (.error (.recvFailed err)) ∧ result.2.reader = reader

/-- The specification of a state the loop passes on to is the specification of the state it came from. -/
theorem NextFrameSpec.of_step {result : Poll (Nat × Nat) × Framing cobs maxFrameSize}
    (h : NextFrameSpec f' discard' result)
    (hnext : next 0 maxFrameSize (decide (0 < discard)) f.unread = next 0 maxFrameSize (decide (0 < discard')) f'.unread)
    (hresidue : residue 0 maxFrameSize (decide (0 < discard)) f.unread =
      residue 0 maxFrameSize (decide (0 < discard')) f'.unread)
    (hstop : f'.reader.stop = f.reader.stop) : NextFrameSpec f discard result := by
  rw [NextFrameSpec, hnext, hresidue, ← hstop]
  exact h

theorem NextFrameSpec.of_stop {poll : Poll (Nat × Nat)} {reader : Reader} (hclean : 0 ∉ f.pending)
    (hbytes : f.reader.bytes = []) (hf' : f'.WfAt discard')
    (hresidue : residue 0 maxFrameSize (decide (0 < discard)) f.pending = (decide (0 < discard'), f'.pending))
    (hstop : match f.reader.stop with
      | [] => poll = .pending discard' ∧ reader = []
      | .data _ :: rest => poll = .ready (.error .terminated) ∧ reader = rest
      | .fail err :: rest => poll = .ready (.error (.recvFailed err)) ∧ reader = rest) :
    NextFrameSpec f discard (poll, { f' with reader }) := by
  have hunread : f.unread = f.pending := by
    rw [unread, hbytes, List.append_nil]
  rw [NextFrameSpec, hunread, next_of_not_mem hclean]
  exact ⟨discard', hresidue, ⟨⟨hf'.offset_le, hf'.search_le, hf'.filled_le, hf'.reader_length, hf'.scanned,
    hf'.decobs_length, hf'.encobs_length⟩, hf'.discarding⟩, hstop⟩

theorem Wf.withReader (hf : f.Wf) (reader : Reader) : ({ f with reader } : Framing cobs maxFrameSize).Wf :=
  ⟨hf.offset_le, hf.search_le, hf.filled_le, hf.reader_length, hf.scanned, hf.decobs_length, hf.encobs_length⟩

/-- The loop body up to its read: the state it reads in, and that there is room to read into. -/
theorem WfAt.wait {region free : List UInt8} (hf : f.WfAt discard)
    (hregion : slice? f.readerBuffer f.readerSearch f.readerFilled = some region) (hfound : memchr 0 region = none)
    (hroom : f.makeRoom discard = some (f', discard'))
    (hfree : slice? f'.readerBuffer f'.readerFilled f'.readerBuffer.length = some free) :
    0 ∉ f.pending ∧ f'.WfAt discard' ∧ f'.readerSearch = f'.readerFilled ∧
      free.length = maxFrameSize + 1 - f'.readerFilled ∧ 0 < free.length ∧ f'.reader = f.reader ∧ SameRest f f' ∧
      (∀ u, next 0 maxFrameSize (decide (0 < discard)) (f.pending ++ u) =
        next 0 maxFrameSize (decide (0 < discard')) (f'.pending ++ u)) ∧
      residue 0 maxFrameSize (decide (0 < discard)) f.pending = (decide (0 < discard'), f'.pending) := by
  rw [hf.region] at hregion
  obtain rfl := Option.some.inj hregion
  have hclean := memchr_none hfound
  obtain ⟨g, d, hroom', hg, _, hsearch, hfill, hreader, hrest, hnext, hresidue⟩ := hf.makeRoom hclean
  rw [hroom] at hroom'
  obtain ⟨rfl, rfl⟩ := Prod.mk.inj (Option.some.inj hroom')
  have hlen := hg.reader_length
  rw [slice?_eq_some (by omega) (le_refl _)] at hfree
  have hlength : free.length = maxFrameSize + 1 - f'.readerFilled := by
    rw [← Option.some.inj hfree, length_slice (le_refl _), hlen]
  refine ⟨?_, hg, hsearch, hlength, by omega, hreader, hrest, hnext, hresidue⟩
  rw [← hf.pending_split, List.mem_append]
  exact fun hmem => hmem.elim hf.scanned hclean

theorem WfAt.ends {region free : List UInt8} {result : ReadResult} {reader : Reader} {poll : Poll (Nat × Nat)}
    (hf : f.WfAt discard) (hregion : slice? f.readerBuffer f.readerSearch f.readerFilled = some region)
    (hfound : memchr 0 region = none) (hroom : f.makeRoom discard = some (f', discard'))
    (hfree : slice? f'.readerBuffer f'.readerFilled f'.readerBuffer.length = some free)
    (hpoll : match result with
      | .blocked => poll = .pending discard'
      | .failed err => poll = .ready (.error (.recvFailed err))
      | .ok _ => poll = .ready (.error .terminated))
    (hread : f'.reader.read free.length = (result, reader)) (hresult : ∀ b bs, result ≠ .ok (b :: bs)) :
    NextFrameSpec f discard (poll, { f' with reader }) ∧ ({ f' with reader } : Framing cobs maxFrameSize).Wf ∧
      SameRest f ({ f' with reader } : Framing cobs maxFrameSize) := by
  obtain ⟨hclean, hf', _, _, hpos, hreader, hrest, _, hresidue⟩ := hf.wait hregion hfound hroom hfree
  rw [hreader] at hread
  obtain ⟨hbytes, hstop, hserved⟩ := Reader.read_stop hpos hread hresult
  refine ⟨.of_stop hclean hbytes hf' hresidue ?_, hf'.withReader reader, hrest.withReader reader⟩
  rw [hstop]
  rcases hfront : f.reader with _ | ⟨served | err, rest⟩
  all_goals
    rw [hfront] at hserved
    obtain ⟨rfl, hnext⟩ := hserved
    exact ⟨hpoll, hnext⟩

theorem nextFrameLoop_spec (hf : f.WfAt discard) :
    NextFrameSpec f discard (f.nextFrameLoop discard) ∧ (f.nextFrameLoop discard).2.Wf ∧
      SameRest f (f.nextFrameLoop discard).2 := by
  fun_induction nextFrameLoop f discard with
  | case1 f discard hregion =>
      rw [hf.region] at hregion
      cases hregion
  | case2 f discard region hregion found hfound start stop f' hdiscard hunder =>
      -- reporting the size does not underflow: the frame starts before its delimiter
      have hoff := hf.offset_le
      omega
  | case3 f discard region hregion found hfound start stop f' hdiscard _ ih =>
      -- the delimiter of a frame that is too long ends the discarding
      rw [hf.region] at hregion
      obtain rfl := Option.some.inj hregion
      obtain ⟨hf', hle, hfit, hclean, hpending⟩ := hf.found hfound
      obtain ⟨hspec, hwf, hrest⟩ := ih hf'.wfAt
      have hunread : f.unread = slice f.readerBuffer start stop ++ 0 :: f'.unread := by
        rw [unread, hpending, List.append_assoc]
        rfl
      refine ⟨hspec.of_step ?_ ?_ rfl, hwf, ⟨⟨hrest.writer, hrest.encobs⟩, hrest.decobs⟩⟩
      · rw [hunread, next_append_sep hclean, if_pos (Or.inl (decide_eq_true hdiscard))]
        rfl
      · rw [hunread, residue_append_sep hclean]
        rfl
  | case4 f discard region hregion found hfound start stop f' hdiscard =>
      rw [hf.region] at hregion
      obtain rfl := Option.some.inj hregion
      obtain ⟨hf', hle, hfit, hclean, hpending⟩ := hf.found hfound
      have hunread : f.unread = slice f.readerBuffer start stop ++ 0 :: f'.unread := by
        rw [unread, hpending, List.append_assoc]
        rfl
      have hlen := hf.reader_length
      have hshort : ¬ (decide (0 < discard) = true ∨ maxFrameSize < (slice f.readerBuffer start stop).length) := by
        rw [length_slice (by omega)]
        simp only [decide_eq_true_eq]
        omega
      refine ⟨?_, hf', ⟨⟨rfl, rfl⟩, rfl⟩⟩
      rw [NextFrameSpec, hunread, next_append_sep hclean, if_neg hshort]
      have hstop : stop ≤ f'.readerBuffer.length := by
        change stop ≤ f.readerBuffer.length
        omega
      exact ⟨start, stop, rfl, slice?_eq_some hle hstop, rfl, rfl⟩
  | case5 f discard region hregion hfound hroom =>
      rw [hf.region] at hregion
      obtain rfl := Option.some.inj hregion
      obtain ⟨f', discard', hroom', _⟩ := hf.makeRoom (memchr_none hfound)
      rw [hroom] at hroom'
      cases hroom'
  | case6 f discard region hregion hfound f' discard' hroom hfree =>
      rw [hf.region] at hregion
      obtain rfl := Option.some.inj hregion
      obtain ⟨g, d, hroom', hg, _, _, hfill, _⟩ := hf.makeRoom (memchr_none hfound)
      rw [hroom] at hroom'
      obtain ⟨rfl, rfl⟩ := Prod.mk.inj (Option.some.inj hroom')
      have hlen := hg.reader_length
      rw [slice?_eq_some (by omega) (le_refl _)] at hfree
      cases hfree
  | case7 f discard region hregion hfound f' discard' hroom free hfree reader hread =>
      exact hf.ends hregion hfound hroom hfree rfl hread (by simp)
  | case8 f discard region hregion hfound f' discard' hroom free hfree err reader hread =>
      exact hf.ends hregion hfound hroom hfree rfl hread (by simp)
  | case9 f discard region hregion hfound f' discard' hroom free hfree reader hread =>
      exact hf.ends hregion hfound hroom hfree rfl hread (by simp)
  | case10 f discard region hregion hfound f' discard' hroom free hfree b bs reader hread ih =>
      -- bytes were read: the stream in front of the call is the same, seen from the next round
      obtain ⟨hclean, hf', hsearch, hlength, hpos, hreader, hrest, hnext, hresidue⟩ :=
        hf.wait hregion hfound hroom hfree
      rw [hreader] at hread
      obtain ⟨hfit, hbytes, hstop⟩ := Reader.read_bytes hread
      obtain ⟨hg, hpending⟩ := hf'.ingest hsearch reader
        (show (b :: bs).length ≤ maxFrameSize + 1 - f'.readerFilled by omega)
      obtain ⟨hspec, hwf, hrest'⟩ := ih hg
      have hunread : (f'.ingest reader (b :: bs)).unread = f'.pending ++ f.reader.bytes := by
        rw [unread, hpending, List.append_assoc, ← hbytes]
        rfl
      refine ⟨hspec.of_step ?_ ?_ hstop, hwf, hrest.trans ⟨⟨hrest'.writer, hrest'.encobs⟩, hrest'.decobs⟩⟩
      · rw [hunread, unread, hnext]
      · have hnone := @next_of_not_mem _ _ _ maxFrameSize (decide (0 < discard)) _ hclean
        rw [hunread, unread, residue_append_of_none hnone, hresidue]

/-! ### Packets -/

/-- What `next_packet` makes of a frame. -/
def decodeFrame (cobs : Cobs) (maxFrameSize : Nat) (frame : List UInt8) : Except Error (Option (List UInt8)) :=
  if frame = [] then .ok none
  else
    match cobs.decodeNonzero frame maxFrameSize with
    | .error err => .error (.frameDecodingFailed err)
    | .ok packet => .ok (some packet)

/-- A poll of `next_packet` with the packet itself in place of its size. -/
def packetOf (result : Poll (Option Nat) × Framing cobs maxFrameSize) : Poll (Option (List UInt8)) :=
  match result.1 with
  | .ready (.ok size) => .ready (.ok (size.map result.2.packet))
  | .ready (.error err) => .ready (.error err)
  | .pending discard => .pending discard
  | .panic => .panic

/-- How a call of `next_packet` ends, given the bytes in front of it and what stops them. -/
def NextPacketSpec (f : Framing cobs maxFrameSize) (discard : Nat) (result : Poll (Option Nat) × Framing cobs maxFrameSize) :
    Prop :=
  match next 0 maxFrameSize (decide (0 < discard)) f.unread with
  | some (frame, rest) =>
      packetOf result = .ready (decodeFrame cobs maxFrameSize frame) ∧ result.2.unread = rest ∧
        result.2.reader.stop = f.reader.stop
  | none =>
      ∃ discard', residue 0 maxFrameSize (decide (0 < discard)) f.unread = (decide (0 < discard'), result.2.pending) ∧
        result.2.WfAt discard' ∧
        match f.reader.stop with
        | [] => packetOf result = .pending discard' ∧ result.2.reader = []
        | .data _ :: reader => packetOf result = .ready (.error .terminated) ∧ result.2.reader = reader
        | .fail err :: reader => packetOf result = .ready (.error (.recvFailed err)) ∧ result.2.reader = reader

theorem length_overwrite_decobs (hf : f.Wf) {frame packet : List UInt8}
    (hdecode : cobs.decodeNonzero frame f.decobsBuffer.length = .ok packet) :
    (overwrite f.decobsBuffer 0 packet).length = maxFrameSize := by
  rw [length_overwrite (by have := cobs.decode_room hdecode; omega), hf.decobs_length]

theorem nextPacketLoop_spec (hf : f.WfAt discard) :
    NextPacketSpec f discard (f.nextPacketLoop discard) ∧ (f.nextPacketLoop discard).2.Wf ∧
      SameSender f (f.nextPacketLoop discard).2 := by
  obtain ⟨hspec, hwf, hrest⟩ := nextFrameLoop_spec hf
  rw [NextFrameSpec] at hspec
  rw [NextPacketSpec]
  rcases hframe : f.nextFrameLoop discard with ⟨poll, g⟩
  rw [hframe] at hspec hwf hrest
  rcases hnext : next 0 maxFrameSize (decide (0 < discard)) f.unread with _ | ⟨frame, rest⟩
  · rw [hnext] at hspec
    obtain ⟨discard', hresidue, hwfAt, hstop⟩ := hspec
    have hpoll : f.nextPacketLoop discard =
        (match poll with
          | .panic => (.panic, g)
          | .pending discard => (.pending discard, g)
          | .ready (.error err) => (.ready (.error err), g)
          | .ready (.ok _) => f.nextPacketLoop discard) := by
      rcases poll with (err | range) | d | _ <;> simp [nextPacketLoop, hframe]
    split at hstop <;> obtain ⟨hkind, hreader⟩ := hstop <;> dsimp only at hkind <;> subst hkind <;>
      rw [hpoll] <;> exact ⟨⟨discard', hresidue, hwfAt, rfl, hreader⟩, hwf, hrest.toSameSender⟩
  · rw [hnext] at hspec
    obtain ⟨start, stop, hkind, hslice, hunread, hstop⟩ := hspec
    dsimp only at hkind hslice hunread hstop hwf
    subst hkind
    have hbounds : start ≤ stop ∧ stop ≤ g.readerBuffer.length := by
      by_contra hout
      rw [slice?, if_neg hout] at hslice
      cases hslice
    have hlength : frame.length = stop - start := by
      rw [slice?, if_pos hbounds] at hslice
      rw [← Option.some.inj hslice, length_slice hbounds.2]
    by_cases hempty : start = stop
    · have hnil : frame = [] := by
        rw [← List.length_eq_zero_iff, hlength]
        omega
      have hpoll : f.nextPacketLoop discard = (.ready (.ok none), g) := by
        simp [nextPacketLoop, hframe, hempty]
      rw [hpoll, hnil]
      exact ⟨⟨rfl, hunread, hstop⟩, hwf, hrest.toSameSender⟩
    · have hne : frame ≠ [] := by
        intro hnil
        rw [hnil, List.length_nil] at hlength
        omega
      rcases hdecode : cobs.decodeNonzero frame g.decobsBuffer.length with err | packet
      · have hdecoded : decodeFrame cobs maxFrameSize frame = .error (.frameDecodingFailed err) := by
          rw [decodeFrame, if_neg hne, ← hwf.decobs_length, hdecode]
        have hpoll : f.nextPacketLoop discard = (.ready (.error (.frameDecodingFailed err)), g) := by
          simp [nextPacketLoop, hframe, hempty, hslice, hdecode]
        rw [hpoll]
        exact ⟨⟨hdecoded ▸ rfl, hunread, hstop⟩, hwf, hrest.toSameSender⟩
      · have hdecoded : decodeFrame cobs maxFrameSize frame = .ok (some packet) := by
          rw [decodeFrame, if_neg hne, ← hwf.decobs_length, hdecode]
        have hpoll : f.nextPacketLoop discard = (.ready (.ok (some packet.length)),
            { g with decobsBuffer := overwrite g.decobsBuffer 0 packet }) := by
          simp [nextPacketLoop, hframe, hempty, hslice, hdecode]
        rw [hpoll]
        have hpacket : (overwrite g.decobsBuffer 0 packet).take packet.length = packet := by
          simp [overwrite]
        refine ⟨⟨?_, hunread, hstop⟩, ⟨hwf.offset_le, hwf.search_le, hwf.filled_le, hwf.reader_length, hwf.scanned,
          length_overwrite_decobs hwf hdecode, hwf.encobs_length⟩, ⟨hrest.writer, hrest.encobs⟩⟩
        simp [packetOf, Framing.packet, hpacket, hdecoded]

/-! ### Sending -/

/-- A frame goes out as its bytes and the delimiter. -/
theorem sendFrame_bytes {buffer frame : List UInt8} (hfit : frame.length < buffer.length) :
    slice ((overwrite buffer 0 frame).set frame.length 0) 0 (frame.length + 1) = frame ++ [0] := by
  obtain ⟨b, rest, hrest⟩ : ∃ b rest, buffer.drop frame.length = b :: rest := by
    apply List.exists_cons_of_length_pos
    rw [List.length_drop]
    omega
  have hover : overwrite buffer 0 frame = frame ++ b :: rest := by
    simp [overwrite, hrest]
  have htake : (frame ++ 0 :: rest).take (frame.length + 1) = frame ++ [0] := by
    rw [List.take_append, List.take_of_length_le (Nat.le_succ _)]
    simp
  rw [hover, List.set_append_right _ _ (le_refl _), Nat.sub_self, List.set_cons_zero, slice, htake]
  rfl

/-- Sending changes nothing on the receiving side. -/
structure SameReceiver (f f' : Framing cobs maxFrameSize) : Prop where
  reader : f'.reader = f.reader
  readerBuffer : f'.readerBuffer = f.readerBuffer
  readerFilled : f'.readerFilled = f.readerFilled
  readerOffset : f'.readerOffset = f.readerOffset
  readerSearch : f'.readerSearch = f.readerSearch
  decobs : f'.decobsBuffer = f.decobsBuffer

theorem SameReceiver.refl (f : Framing cobs maxFrameSize) : SameReceiver f f := ⟨rfl, rfl, rfl, rfl, rfl, rfl⟩

theorem SameReceiver.pending (h : SameReceiver f f') : f'.pending = f.pending := by
  rw [Framing.pending, Framing.pending, h.readerBuffer, h.readerFilled, h.readerOffset]

theorem SameReceiver.unread (h : SameReceiver f f') : f'.unread = f.unread := by
  rw [Framing.unread, Framing.unread, h.pending, h.reader]

theorem SameReceiver.wf (h : SameReceiver f f') (hf : f.Wf) (hencobs : f'.encobsBuffer.length = maxFrameSize + 1) :
    f'.Wf where
  offset_le := by rw [h.readerOffset, h.readerSearch]; exact hf.offset_le
  search_le := by rw [h.readerSearch, h.readerFilled]; exact hf.search_le
  filled_le := by rw [h.readerFilled]; exact hf.filled_le
  reader_length := by rw [h.readerBuffer]; exact hf.reader_length
  scanned := by rw [h.readerBuffer, h.readerOffset, h.readerSearch]; exact hf.scanned
  decobs_length := by rw [h.decobs]; exact hf.decobs_length
  encobs_length := hencobs

theorem sendReset_spec (f : Framing cobs maxFrameSize) (hf : f.Wf) :
    f.sendReset.1 = (f.writer.send [0, 0]).1 ∧ f.sendReset.2.writer = (f.writer.send [0, 0]).2 ∧
      f.sendReset.2.Wf ∧ SameReceiver f f.sendReset.2 :=
  have hsame : SameReceiver f f.sendReset.2 := ⟨rfl, rfl, rfl, rfl, rfl, rfl⟩
  ⟨rfl, rfl, hsame.wf hf hf.encobs_length, hsame⟩

/-- The frame `send_packet` writes for a packet, if it writes one. -/
def frameOf (cobs : Cobs) (maxFrameSize : Nat) (packet : List UInt8) : Except Error (List UInt8) :=
  if cobs.encodeBuffer packet.length > maxFrameSize then .error (.frameTooLarge (cobs.encodeBuffer packet.length))
  else
    match cobs.encode packet (maxFrameSize + 1) with
    | .error err => .error (.frameEncodingFailed err)
    | .ok frame => .ok frame

theorem frameOf_cases (hcobs : cobs.Lawful) (packet : List UInt8) :
    (maxFrameSize < cobs.encodeBuffer packet.length ∧
      frameOf cobs maxFrameSize packet = .error (.frameTooLarge (cobs.encodeBuffer packet.length))) ∨
    (cobs.encodeBuffer packet.length ≤ maxFrameSize ∧ ∃ frame, frameOf cobs maxFrameSize packet = .ok frame ∧
      0 ∉ frame ∧ frame.length ≤ maxFrameSize ∧ frame ≠ [] ∧
      decodeFrame cobs maxFrameSize frame = .ok (some packet)) := by
  by_cases hlarge : cobs.encodeBuffer packet.length > maxFrameSize
  · exact Or.inl ⟨hlarge, by rw [frameOf, if_pos hlarge]⟩
  · obtain ⟨frame, hframe⟩ := hcobs.encode_fits (show cobs.encodeBuffer packet.length ≤ maxFrameSize + 1 by omega)
    have hlen := hcobs.encode_length hframe
    refine Or.inr ⟨by omega, frame, by rw [frameOf, if_neg hlarge, hframe], hcobs.encode_nonzero hframe, by omega,
      hcobs.encode_ne_nil hframe, ?_⟩
    rw [decodeFrame, if_neg (hcobs.encode_ne_nil hframe), hcobs.decode_encode hframe (by omega)]

theorem frameOf_ok (hcobs : cobs.Lawful) {packet frame : List UInt8}
    (hframe : frameOf cobs maxFrameSize packet = .ok frame) :
    0 ∉ frame ∧ frame.length ≤ maxFrameSize ∧ frame ≠ [] ∧
      decodeFrame cobs maxFrameSize frame = .ok (some packet) := by
  rcases @frameOf_cases cobs maxFrameSize hcobs packet with ⟨_, herr⟩ | ⟨_, frame', hframe', hfacts⟩
  · rw [herr] at hframe
    cases hframe
  · rw [hframe'] at hframe
    obtain rfl : frame' = frame := by injection hframe
    exact hfacts

theorem Wf.sendPacket (hf : f.Wf) (packet : List UInt8) :
    (f.sendPacket packet).2.Wf ∧ SameReceiver f (f.sendPacket packet).2 := by
  rw [Framing.sendPacket]
  split
  · exact ⟨hf, .refl f⟩
  split
  · exact ⟨hf, .refl f⟩
  · rename_i frame hencode
    have hroom := cobs.encode_room hencode
    have hsame : SameReceiver f ({ f with encobsBuffer := overwrite f.encobsBuffer 0 frame }.sendFrame frame.length).2 :=
      ⟨rfl, rfl, rfl, rfl, rfl, rfl⟩
    refine ⟨hsame.wf hf ?_, hsame⟩
    change ((overwrite f.encobsBuffer 0 frame).set frame.length 0).length = _
    rw [List.length_set, length_overwrite (by omega), hf.encobs_length]

/-- `send_packet` refuses a packet without touching the wire, or hands its frame and the delimiter to the writer. -/
theorem sendPacket_spec (hcobs : cobs.Lawful) (hf : f.Wf) (packet : List UInt8) :
    (f.sendPacket packet).2.Wf ∧ SameReceiver f (f.sendPacket packet).2 ∧
      match frameOf cobs maxFrameSize packet with
      | .error err => (f.sendPacket packet).1 = .error err ∧ (f.sendPacket packet).2 = f
      | .ok frame =>
          (f.sendPacket packet).1 = (f.writer.send (frame ++ [0])).1 ∧
            (f.sendPacket packet).2.writer = (f.writer.send (frame ++ [0])).2 := by
  obtain ⟨hwf, hsame⟩ := hf.sendPacket packet
  refine ⟨hwf, hsame, ?_⟩
  rw [sendPacket, frameOf]
  by_cases hlarge : cobs.encodeBuffer packet.length > maxFrameSize
  · rw [if_pos hlarge, if_pos hlarge]
    exact ⟨rfl, rfl⟩
  · rw [if_neg hlarge, if_neg hlarge, ← hf.encobs_length]
    rcases hencode : cobs.encode packet f.encobsBuffer.length with err | frame
    · exact ⟨rfl, rfl⟩
    · have hlen := hcobs.encode_length hencode
      have hencobs := hf.encobs_length
      have hbytes := @sendFrame_bytes f.encobsBuffer frame (by omega)
      constructor
      · rw [← hbytes]
        rfl
      · rw [← hbytes]
        rfl

theorem sendPacket_ok (hcobs : cobs.Lawful) (hf : f.Wf) {packet : List UInt8} (hsend : f.sendPacket packet = (.ok (), f')) :
    ∃ frame, frameOf cobs maxFrameSize packet = .ok frame ∧ f'.writer.wire = f.writer.wire ++ (frame ++ [0]) ∧
      f'.Wf ∧ SameReceiver f f' := by
  obtain ⟨hwf, hsame, hframe⟩ := sendPacket_spec hcobs hf packet
  rw [hsend] at hwf hsame hframe
  rcases hof : frameOf cobs maxFrameSize packet with err | frame
  · rw [hof] at hframe
    cases hframe.1
  · rw [hof] at hframe
    dsimp only at hframe
    rcases Writer.send_cases f.writer (frame ++ [0]) with ⟨_, hsent⟩ | ⟨err, _, herr, _⟩
    · exact ⟨frame, rfl, hframe.2 ▸ hsent, hwf, hsame⟩
    · rw [herr] at hframe
      cases hframe.1

theorem sendPacket_error (hcobs : cobs.Lawful) (hf : f.Wf) {packet : List UInt8} {err : Error}
    (hsend : f.sendPacket packet = (.error err, f')) :
    (f' = f ∨ ∃ frame count, frameOf cobs maxFrameSize packet = .ok frame ∧ count ≤ (frame ++ [0]).length ∧
      f'.writer.wire = f.writer.wire ++ (frame ++ [0]).take count) ∧ f'.Wf ∧ SameReceiver f f' := by
  obtain ⟨hwf, hsame, hframe⟩ := sendPacket_spec hcobs hf packet
  rw [hsend] at hwf hsame hframe
  refine ⟨?_, hwf, hsame⟩
  rcases hof : frameOf cobs maxFrameSize packet with _ | frame
  · rw [hof] at hframe
    exact Or.inl hframe.2
  · rw [hof] at hframe
    dsimp only at hframe
    rcases Writer.send_cases f.writer (frame ++ [0]) with ⟨hok, _⟩ | ⟨_, count, _, hcount, hsent⟩
    · rw [hok] at hframe
      cases hframe.1
    · exact Or.inr ⟨frame, count, rfl, hcount, hframe.2 ▸ hsent⟩

theorem sendPacket_error_kind (hcobs : cobs.Lawful) (hf : f.Wf) {packet : List UInt8} {err : Error}
    (hsend : f.sendPacket packet = (.error err, f')) :
    (∃ size, err = .frameTooLarge size) ∨ (∃ cause, err = .frameEncodingFailed cause) ∨ ∃ cause, err = .sendFailed cause := by
  have hframe := (sendPacket_spec hcobs hf packet).2.2
  rw [hsend] at hframe
  rcases hof : frameOf cobs maxFrameSize packet with refusal | frame
  · rw [hof] at hframe
    obtain ⟨herr, _⟩ := hframe
    injection herr with herr
    subst herr
    rw [frameOf] at hof
    split at hof
    · injection hof with hof
      exact Or.inl ⟨_, hof.symm⟩
    split at hof
    · injection hof with hof
      exact Or.inr (Or.inl ⟨_, hof.symm⟩)
    · cases hof
  · rw [hof] at hframe
    dsimp only at hframe
    rcases Writer.send_cases f.writer (frame ++ [0]) with ⟨hok, _⟩ | ⟨cause, _, hcause, _⟩
    · rw [hok] at hframe
      cases hframe.1
    · rw [hcause] at hframe
      obtain ⟨herr, _⟩ := hframe
      injection herr with herr
      exact Or.inr (Or.inr ⟨cause, herr⟩)

/-- Whatever a `send_packet` returns, it appends to the wire and leaves the receiving side alone. -/
theorem sendPacket_wire (hcobs : cobs.Lawful) (hf : f.Wf) {packet : List UInt8} {result : Except Error Unit}
    (hsend : f.sendPacket packet = (result, f')) :
    f.writer.wire <+: f'.writer.wire ∧ f'.Wf ∧ SameReceiver f f' := by
  rcases result with err | _
  · obtain ⟨rfl | ⟨_, _, _, _, hwire⟩, hwf, hsame⟩ := sendPacket_error hcobs hf hsend
    · exact ⟨List.prefix_rfl, hwf, hsame⟩
    · exact ⟨⟨_, hwire.symm⟩, hwf, hsame⟩
  · obtain ⟨_, _, hwire, hwf, hsame⟩ := sendPacket_ok hcobs hf hsend
    exact ⟨⟨_, hwire.symm⟩, hwf, hsame⟩

theorem sendReset_wire (hf : f.Wf) {result : Except Error Unit} (hsend : f.sendReset = (result, f')) :
    f.writer.wire <+: f'.writer.wire ∧ f'.Wf ∧ SameReceiver f f' := by
  obtain ⟨_, hwriter, hwf, hsame⟩ := sendReset_spec f hf
  rw [hsend] at hwriter hwf hsame
  refine ⟨?_, hwf, hsame⟩
  rw [hwriter]
  rcases Writer.send_cases f.writer [0, 0] with ⟨_, hsent⟩ | ⟨_, _, _, _, hsent⟩
  · exact ⟨_, hsent.symm⟩
  · exact ⟨_, hsent.symm⟩

/-- A poll of `next_packet` stays within the bounds of the buffers and sends nothing. -/
theorem nextPacketLoop_poll (hf : f.WfAt discard) :
    (f.nextPacketLoop discard).2.writer = f.writer ∧
      match packetOf (f.nextPacketLoop discard) with
      | .panic => False
      | .pending discard' => (f.nextPacketLoop discard).2.WfAt discard'
      | .ready _ => (f.nextPacketLoop discard).2.Wf := by
  obtain ⟨hspec, hwf, hsame⟩ := nextPacketLoop_spec hf
  refine ⟨hsame.writer, ?_⟩
  rw [NextPacketSpec] at hspec
  split at hspec
  · rw [hspec.1]
    exact hwf
  · obtain ⟨discard', _, hwfAt, hstop⟩ := hspec
    split at hstop
    · rw [hstop.1]
      exact hwfAt
    · rw [hstop.1]
      exact hwf
    · rw [hstop.1]
      exact hwf

theorem nextPacketLoop_error (hf : f.WfAt discard) {err : Error}
    (h : packetOf (f.nextPacketLoop discard) = .ready (.error err)) :
    err = .terminated ∨ (∃ cause, err = .recvFailed cause) ∨ ∃ cause, err = .frameDecodingFailed cause := by
  have hspec := (nextPacketLoop_spec hf).1
  rw [NextPacketSpec, h] at hspec
  split at hspec
  · obtain ⟨hdecode, _⟩ := hspec
    rw [decodeFrame] at hdecode
    split at hdecode
    · cases hdecode
    split at hdecode
    · injection hdecode with hdecode
      injection hdecode with hdecode
      exact Or.inr (Or.inr ⟨_, hdecode⟩)
    · cases hdecode
  · obtain ⟨discard', _, _, hstop⟩ := hspec
    split at hstop
    · cases hstop.1
    · obtain ⟨hpoll, _⟩ := hstop
      injection hpoll with hpoll
      injection hpoll with hpoll
      exact Or.inl hpoll
    · obtain ⟨hpoll, _⟩ := hstop
      injection hpoll with hpoll
      injection hpoll with hpoll
      exact Or.inr (Or.inl ⟨_, hpoll⟩)

theorem sendPacket_healthy (hcobs : cobs.Lawful) (hf : f.Wf) (hplan : f.writer.plan = []) {packet frame : List UInt8}
    (hframe : frameOf cobs maxFrameSize packet = .ok frame) :
    (f.sendPacket packet).1 = .ok () ∧
      (f.sendPacket packet).2.writer = { f.writer with wire := f.writer.wire ++ (frame ++ [0]) } := by
  have hspec := (sendPacket_spec hcobs hf packet).2.2
  rw [hframe] at hspec
  dsimp only at hspec
  rw [Writer.send_healthy f.writer hplan] at hspec
  exact hspec

theorem sendPacket_plan (hcobs : cobs.Lawful) (hf : f.Wf) (hplan : f.writer.plan = []) (packet : List UInt8) :
    (f.sendPacket packet).2.writer.plan = [] := by
  rcases hframe : frameOf cobs maxFrameSize packet with err | frame
  · have hspec := (sendPacket_spec hcobs hf packet).2.2
    rw [hframe] at hspec
    rw [hspec.2]
    exact hplan
  · rw [(sendPacket_healthy hcobs hf hplan hframe).2]
    exact hplan

/-! ### Calls in front of a stream that is not done -/

theorem nextPacketLoop_blocked (hf : f.WfAt discard) (hstop : f.reader.stop = [])
    (hnext : next 0 maxFrameSize (decide (0 < discard)) f.unread = none) :
    ∃ discard', packetOf (f.nextPacketLoop discard) = .pending discard' ∧
      (f.nextPacketLoop discard).2.WfAt discard' ∧ (f.nextPacketLoop discard).2.writer = f.writer ∧
      (f.nextPacketLoop discard).2.reader = [] ∧
      residue 0 maxFrameSize (decide (0 < discard)) f.unread =
        (decide (0 < discard'), (f.nextPacketLoop discard).2.unread) := by
  obtain ⟨hspec, _, hsame⟩ := nextPacketLoop_spec hf
  rw [NextPacketSpec, hnext] at hspec
  dsimp only at hspec
  rw [hstop] at hspec
  obtain ⟨discard', hresidue, hwfAt, hpoll, hreader⟩ := hspec
  refine ⟨discard', hpoll, hwfAt, hsame.writer, hreader, ?_⟩
  rw [hresidue, unread, hreader, Reader.bytes_nil, List.append_nil]

/-- A complete frame to keep is decoded and consumed. -/
theorem nextPacketLoop_frame (hf : f.WfAt discard) {frame rest : List UInt8}
    (hnext : next 0 maxFrameSize (decide (0 < discard)) f.unread = some (frame, rest)) :
    packetOf (f.nextPacketLoop discard) = .ready (decodeFrame cobs maxFrameSize frame) ∧
      (f.nextPacketLoop discard).2.Wf ∧ (f.nextPacketLoop discard).2.writer = f.writer ∧
      (f.nextPacketLoop discard).2.unread = rest ∧ (f.nextPacketLoop discard).2.reader.stop = f.reader.stop := by
  obtain ⟨hspec, hwf, hsame⟩ := nextPacketLoop_spec hf
  rw [NextPacketSpec, hnext] at hspec
  exact ⟨hspec.1, hwf, hsame.writer, hspec.2.1, hspec.2.2⟩

theorem decodeFrame_cases (frame : List UInt8) :
    (∃ packet, decodeFrame cobs maxFrameSize frame = .ok packet) ∨
      ∃ err, decodeFrame cobs maxFrameSize frame = .error (.frameDecodingFailed err) := by
  rw [decodeFrame]
  split
  · exact Or.inl ⟨_, rfl⟩
  split
  · exact Or.inr ⟨_, rfl⟩
  · exact Or.inl ⟨_, rfl⟩

theorem nextPacketLoop_reset (hf : f.WfAt discard) :
    packetOf (f.nextPacketLoop discard) = .ready (.ok none) ↔
      ∃ rest, next 0 maxFrameSize (decide (0 < discard)) f.unread = some ([], rest) := by
  constructor
  · intro hreset
    have hspec := (nextPacketLoop_spec hf).1
    rw [NextPacketSpec, hreset] at hspec
    rcases hnext : next 0 maxFrameSize (decide (0 < discard)) f.unread with _ | ⟨frame, rest⟩
    · rw [hnext] at hspec
      obtain ⟨_, _, _, hstop⟩ := hspec
      split at hstop <;> cases hstop.1
    · rw [hnext] at hspec
      obtain ⟨hdecode, _⟩ := hspec
      by_cases hframe : frame = []
      · exact ⟨rest, by rw [hframe]⟩
      · rw [decodeFrame, if_neg hframe] at hdecode
        split at hdecode <;> cases hdecode
  · rintro ⟨rest, hempty⟩
    rw [(nextPacketLoop_frame hf hempty).1]
    rfl

end DarkbioWire.Framing
