import DarkbioWire.Framing.Spec
import DarkbioWire.Reference.Codec
import Mathlib.Algebra.Group.Nat.Defs

/-!
# The discard counter as a machine word

`next_frame` counts the bytes it throws away in a `usize`, and takes the counter for the flag of being in discard mode.
Here its loop is run one round at a time with the arithmetic of `usize` as a parameter: a build that checks it panics
where a sum does not fit the word, one that does not wraps around. As long as the bytes behind the call are fewer than
the word can count, every round does what it does on numbers (`round_unbounded`). A run as long as that is too long for
the counter however it is read.
-/

namespace DarkbioWire

/-- Sums and differences of `usize`, as a build of the crate makes them: `none` is a panic. -/
structure Usize where
  add : Nat → Nat → Option Nat
  sub : Nat → Nat → Option Nat

namespace Usize

/-- No word at all: the numbers themselves. -/
def unbounded : Usize where
  add a b := some (a + b)
  sub a b := if b ≤ a then some (a - b) else none

/-- Words of `w` bits, with overflow checks. -/
def checked (w : Nat) : Usize where
  add a b := if a + b < 2 ^ w then some (a + b) else none
  sub a b := if b ≤ a then some (a - b) else none

/-- Words of `w` bits, without overflow checks. -/
def wrapping (w : Nat) : Usize where
  add a b := some ((a + b) % 2 ^ w)
  sub a b := some ((a + 2 ^ w - b) % 2 ^ w)

/-- Below a limit the words are numbers. -/
structure Counts (usize : Usize) (limit : Nat) : Prop where
  add : ∀ {a b}, a + b < limit → usize.add a b = some (a + b)
  sub : ∀ {a b}, b ≤ a → a < limit → usize.sub a b = some (a - b)

theorem unbounded_counts (limit : Nat) : unbounded.Counts limit := ⟨fun _ => rfl, fun hle _ => if_pos hle⟩

theorem checked_counts (w : Nat) : (checked w).Counts (2 ^ w) := ⟨fun hfit => if_pos hfit, fun hle _ => if_pos hle⟩

theorem wrapping_counts (w : Nat) : (wrapping w).Counts (2 ^ w) := by
  constructor
  · intro a b hfit
    exact congrArg some (Nat.mod_eq_of_lt hfit)
  · intro a b hle hfit
    change some ((a + 2 ^ w - b) % 2 ^ w) = some (a - b)
    rw [show a + 2 ^ w - b = a - b + 2 ^ w by omega, Nat.add_mod_right, Nat.mod_eq_of_lt (by omega)]

end Usize

namespace Framing

open Delimited

variable {cobs : Cobs} {maxFrameSize : Nat} {usize : Usize} {limit : Nat} {f g h : Framing cobs maxFrameSize}
  {discard e d : Nat}

/-- Where a round of the loop of `next_frame` leads: out of the call, or back to the head of the loop. -/
inductive Round (cobs : Cobs) (maxFrameSize : Nat)
  | done (poll : Poll (Nat × Nat)) (f : Framing cobs maxFrameSize)
  | again (f : Framing cobs maxFrameSize) (discard : Nat)

/-- `compact` with its difference made in `usize`. -/
def compactWith (usize : Usize) (f : Framing cobs maxFrameSize) : Option (Framing cobs maxFrameSize) :=
  if f.readerOffset > 0 then do
    let used ← usize.sub f.readerFilled f.readerOffset
    let data ← slice? f.readerBuffer f.readerOffset f.readerFilled
    return { f with
      readerBuffer := overwrite f.readerBuffer 0 data
      readerFilled := used
      readerOffset := 0
      readerSearch := used }
  else some f

/-- `overflow` with its sum made in `usize`. -/
def overflowWith (usize : Usize) (f : Framing cobs maxFrameSize) (discard : Nat) :
    Option (Framing cobs maxFrameSize × Nat) :=
  if f.readerFilled = maxFrameSize + 1 then do
    let discard ← usize.add discard (maxFrameSize + 1)
    return (f.clear, discard)
  else some (f, discard)

/-- `makeRoom` in `usize`. -/
def makeRoomWith (usize : Usize) (f : Framing cobs maxFrameSize) (discard : Nat) :
    Option (Framing cobs maxFrameSize × Nat) :=
  let f := f.markScanned
  if discard = 0 then do
    let f ← f.compactWith usize
    f.overflowWith usize discard
  else do
    let discard ← usize.add discard f.readerFilled
    f.clear.overflowWith usize discard

/-- One round of the loop of `next_frame` with the cursors and the discard counter in `usize`. `none` is a panic. -/
def round (usize : Usize) (f : Framing cobs maxFrameSize) (discard : Nat) : Option (Round cobs maxFrameSize) := do
  let region ← slice? f.readerBuffer f.readerSearch f.readerFilled
  match memchr 0 region with
  | some found =>
      let start := f.readerOffset
      let stop ← usize.add f.readerSearch found
      let skip ← usize.add stop 1
      let f := { f with readerOffset := skip, readerSearch := skip }
      if discard > 0 then
        -- The size reported is `discard + stop - start`
        let sum ← usize.add discard stop
        let _size ← usize.sub sum start
        return .again f 0
      else return .done (.ready (.ok (start, stop))) f
  | none =>
      let (f, discard) ← f.makeRoomWith usize discard
      let free ← slice? f.readerBuffer f.readerFilled f.readerBuffer.length
      match f.reader.read free.length with
      | (.blocked, reader) => return .done (.pending discard) { f with reader }
      | (.failed err, reader) => return .done (.ready (.error (.recvFailed err))) { f with reader }
      | (.ok [], reader) => return .done (.ready (.error .terminated)) { f with reader }
      | (.ok (b :: bs), reader) =>
          let filled ← usize.add f.readerFilled (b :: bs).length
          return .again { f.ingest reader (b :: bs) with readerFilled := filled } discard

/-! ### Rounds on numbers -/

theorem compactWith_counts (hcounts : usize.Counts limit) (hle : f.readerOffset ≤ f.readerFilled)
    (hlimit : f.readerFilled < limit) : f.compactWith usize = f.compact := by
  rw [compactWith, compact, hcounts.sub hle hlimit]
  split
  · cases slice? f.readerBuffer f.readerOffset f.readerFilled <;> rfl
  · rfl

theorem overflowWith_counts (hcounts : usize.Counts limit)
    (hlimit : f.readerFilled = maxFrameSize + 1 → discard + (maxFrameSize + 1) < limit) :
    f.overflowWith usize discard = some (f.overflow discard) := by
  rw [overflowWith, overflow]
  split
  · rename_i hfull
    rw [hcounts.add (hlimit hfull)]
    rfl
  · rfl

theorem WfAt.length_pending (hf : f.WfAt discard) :
    f.pending.length = f.readerFilled - f.readerOffset ∧ (0 < discard → f.pending.length = f.readerFilled) := by
  have hlength : f.pending.length = f.readerFilled - f.readerOffset := length_slice (hf.reader_length ▸ hf.filled_le)
  refine ⟨hlength, fun hpos => ?_⟩
  rw [hlength, (hf.discarding hpos).1, Nat.sub_zero]

theorem makeRoomWith_counts (hcounts : usize.Counts limit) (hlimit : maxFrameSize + 1 < limit) (hf : f.WfAt discard)
    (hfit : discard + f.pending.length < limit) : f.makeRoomWith usize discard = f.makeRoom discard := by
  have hoff := hf.offset_le
  have hsearch := hf.search_le
  have hfill := hf.filled_le
  rw [makeRoomWith, makeRoom]
  by_cases hdiscard : discard = 0
  · have hcompact : f.markScanned.compactWith usize = f.markScanned.compact := by
      apply compactWith_counts hcounts
      · exact Nat.le_trans hoff hsearch
      · change f.readerFilled < limit
        omega
    rw [if_pos hdiscard, if_pos hdiscard, hcompact]
    cases f.markScanned.compact with
    | none => rfl
    | some g => exact overflowWith_counts hcounts fun _ => by omega
  · have hlength := hf.length_pending.2 (Nat.pos_of_ne_zero hdiscard)
    rw [if_neg hdiscard, if_neg hdiscard]
    change (usize.add discard f.readerFilled).bind _ = _
    rw [hcounts.add (by omega)]
    exact overflowWith_counts hcounts fun hfull => absurd hfull (Nat.zero_ne_add_one maxFrameSize)

theorem makeRoomWith_unbounded (f : Framing cobs maxFrameSize) (discard : Nat) :
    f.makeRoomWith .unbounded discard = f.makeRoom discard := by
  have hoverflow : ∀ (g : Framing cobs maxFrameSize) discard, g.overflowWith .unbounded discard = some (g.overflow discard) :=
    fun g discard => overflowWith_counts (Usize.unbounded_counts (discard + (maxFrameSize + 2))) fun _ => by omega
  have hcompact : f.markScanned.compactWith .unbounded = f.markScanned.compact := by
    by_cases hle : f.readerOffset ≤ f.readerFilled
    · exact compactWith_counts (Usize.unbounded_counts (f.readerFilled + 1)) hle (Nat.lt_succ_self f.readerFilled)
    · have hout : slice? f.readerBuffer f.readerOffset f.readerFilled = none := if_neg fun h => hle h.1
      have hsub : Usize.unbounded.sub f.readerFilled f.readerOffset = none := if_neg hle
      change (if f.readerOffset > 0 then _ else _) = (if f.readerOffset > 0 then _ else _)
      split
      · change (Usize.unbounded.sub f.readerFilled f.readerOffset).bind _ =
          (slice? f.readerBuffer f.readerOffset f.readerFilled).map _
        rw [hout, hsub]
        rfl
      · rfl
  rw [makeRoomWith, makeRoom, hcompact]
  split
  · cases f.markScanned.compact with
    | none => rfl
    | some g => exact hoverflow g discard
  · exact hoverflow f.markScanned.clear (discard + f.readerFilled)

theorem Wf.memchr_iff (hf : f.Wf) :
    memchr 0 (slice f.readerBuffer f.readerSearch f.readerFilled) = none ↔ 0 ∉ f.pending := by
  constructor
  · intro hfound
    rw [← hf.pending_split, List.mem_append]
    exact fun hmem => hmem.elim hf.scanned (memchr_none hfound)
  · intro hclean
    cases hfound : memchr 0 (slice f.readerBuffer f.readerSearch f.readerFilled) with
    | none => rfl
    | some found =>
        have hpending := (hf.found hfound).2.2.2.2
        rw [hpending] at hclean
        exact absurd (by simp) hclean

/-- As long as the counter and what is pending in front of a delimiter stay below the limit, a round does what it does on
numbers. -/
theorem round_counts (hcounts : usize.Counts limit) (hlimit : maxFrameSize + 1 < limit) (hf : f.WfAt discard)
    (hfit : ∀ {front back}, f.pending = front ++ back → 0 ∉ front → discard + front.length < limit) :
    f.round usize discard = f.round .unbounded discard := by
  have hunbounded := Usize.unbounded_counts limit
  rw [round, round, makeRoomWith_unbounded, hf.region]
  simp only [Option.bind_eq_bind, Option.bind_some]
  cases hfound : memchr 0 (slice f.readerBuffer f.readerSearch f.readerFilled) with
  | some found =>
      obtain ⟨_, hle, hstop, hclean, hpending⟩ := hf.found hfound
      have hin : 0 < discard → discard + (f.readerSearch + found) < limit := by
        intro hpos
        have hfront := hfit hpending hclean
        rw [length_slice (by rw [hf.reader_length]; omega), (hf.discarding hpos).1] at hfront
        exact hfront
      simp only [hcounts.add (show f.readerSearch + found < limit by omega),
        hcounts.add (show f.readerSearch + found + 1 < limit by omega),
        hunbounded.add (show f.readerSearch + found < limit by omega),
        hunbounded.add (show f.readerSearch + found + 1 < limit by omega), Option.bind_some]
      split
      · rename_i hpos
        have hsum := hin hpos
        rw [hcounts.add hsum, hunbounded.add hsum, Option.bind_some, Option.bind_some,
          hcounts.sub (by omega) hsum, hunbounded.sub (by omega) hsum]
      · rfl
  | none =>
      have hclean := hf.memchr_iff.mp hfound
      have hsum : discard + f.pending.length < limit := hfit (List.append_nil f.pending).symm hclean
      obtain ⟨g, e, hroom, hg, _, hsearch, hfill, _⟩ := hf.makeRoom (memchr_none hfound)
      have hlen := hg.reader_length
      simp only [makeRoomWith_counts hcounts hlimit hf hsum, hroom, Option.bind_some,
        slice?_eq_some (show g.readerFilled ≤ g.readerBuffer.length by omega) (Nat.le_refl _)]
      split
      · rfl
      · rfl
      · rfl
      · rename_i b bs reader hread
        have hfit' := (Reader.read_bytes hread).1
        rw [length_slice (Nat.le_refl _)] at hfit'
        rw [hcounts.add (by omega), hunbounded.add (by omega)]

theorem nextFrameLoop_round (f : Framing cobs maxFrameSize) (discard : Nat) :
    match f.round .unbounded discard with
    | none => (f.nextFrameLoop discard).1 = .panic
    | some (.done poll g) => f.nextFrameLoop discard = (poll, g)
    | some (.again g e) => f.nextFrameLoop discard = g.nextFrameLoop e := by
  rw [round, makeRoomWith_unbounded]
  fun_cases nextFrameLoop f discard with
  | case1 hregion => simp [hregion]
  | case2 region hregion found hfound start stop g hpos hunder =>
      have hsub : ¬ f.readerOffset ≤ discard + (f.readerSearch + found) := Nat.not_le_of_lt hunder
      simp [hregion, hfound, hpos, Usize.unbounded, hsub]
  | case3 region hregion found hfound start stop g hpos hunder =>
      have hsub : f.readerOffset ≤ discard + (f.readerSearch + found) := Nat.le_of_not_lt hunder
      simp [hregion, hfound, hpos, Usize.unbounded, hsub, g, stop]
  | case4 region hregion found hfound start stop g hpos =>
      simp [hregion, hfound, hpos, Usize.unbounded, g, stop, start]
  | case5 region hregion hfound hroom => simp [hregion, hfound, hroom]
  | case6 region hregion hfound g e hroom hfree => simp [hregion, hfound, hroom, hfree]
  | case7 region hregion hfound g e hroom free hfree reader hread => simp [hregion, hfound, hroom, hfree, hread]
  | case8 region hregion hfound g e hroom free hfree err reader hread =>
      simp [hregion, hfound, hroom, hfree, hread]
  | case9 region hregion hfound g e hroom free hfree reader hread => simp [hregion, hfound, hroom, hfree, hread]
  | case10 region hregion hfound g e hroom free hfree b bs reader hread =>
      simp [hregion, hfound, hroom, hfree, hread, Usize.unbounded, ingest]

/-! ### What a round does -/

/-- What is left to do for the loop: a read turns bytes of the reader into unsearched ones. -/
def left (f : Framing cobs maxFrameSize) : Nat := 2 * f.reader.bytes.length + (f.readerFilled - f.readerSearch)

/-- Making room either keeps what is pending, or starts or goes on discarding and counts all of it. -/
theorem makeRoom_cases (hf : f.WfAt discard) (hcount : discard = 0 ∨ maxFrameSize < discard)
    (hclean : 0 ∉ f.pending) (hroom : f.makeRoom discard = some (g, e)) :
    discard = 0 ∧ e = 0 ∧ g.pending = f.pending ∨
      maxFrameSize < e ∧ e = discard + f.pending.length ∧ g.pending = [] := by
  have hg := hf.markScanned hclean
  rw [makeRoom] at hroom
  by_cases hdiscard : discard = 0
  · rw [if_pos hdiscard] at hroom
    obtain ⟨k, hcompact, hk, hoffset, _, hpending, _⟩ := hg.compact rfl
    rw [hcompact] at hroom
    have hroom' : k.overflow discard = (g, e) := Option.some.inj hroom
    have hlength := hk.wfAt.length_pending.1
    rw [overflow] at hroom'
    by_cases hfull : k.readerFilled = maxFrameSize + 1
    · rw [if_pos hfull] at hroom'
      cases hroom'
      rw [hpending, hfull, hoffset] at hlength
      change f.pending.length = _ at hlength
      exact Or.inr ⟨by omega, by omega, pending_clear k⟩
    · rw [if_neg hfull] at hroom'
      cases hroom'
      exact Or.inl ⟨hdiscard, hdiscard, hpending⟩
  · have hlength := hf.length_pending.2 (Nat.pos_of_ne_zero hdiscard)
    have hempty : ¬ f.markScanned.clear.readerFilled = maxFrameSize + 1 := Nat.zero_ne_add_one maxFrameSize
    rw [if_neg hdiscard, overflow, if_neg hempty] at hroom
    have hfilled : f.markScanned.readerFilled = f.readerFilled := rfl
    cases hroom
    rw [hfilled]
    exact Or.inr ⟨by omega, by omega, pending_clear f.markScanned⟩

theorem WfAt.round_found (hf : f.WfAt discard) (hdelim : 0 ∈ f.pending) :
    ∃ frame g, 0 ∉ frame ∧ frame.length ≤ maxFrameSize ∧ f.unread = frame ++ 0 :: g.unread ∧ g.Wf ∧
      (0 < discard → f.round .unbounded discard = some (.again g 0)) := by
  cases hfound : memchr 0 (slice f.readerBuffer f.readerSearch f.readerFilled) with
  | none => exact absurd hdelim (hf.memchr_iff.mp hfound)
  | some found =>
      obtain ⟨hg, hle, hfit, hclean, hpending⟩ := hf.found hfound
      refine ⟨_, _, hclean, ?_, ?_, hg, ?_⟩
      · rw [length_slice]
        · omega
        · rw [hf.reader_length]
          omega
      · rw [unread, hpending, List.append_assoc]
        rfl
      · intro hpos
        have hsub : f.readerOffset ≤ discard + (f.readerSearch + found) := by omega
        rw [round, hf.region]
        simp [hfound, hpos, Usize.unbounded, hsub]

theorem WfAt.round_wait (hf : f.WfAt discard) (hclean : 0 ∉ f.pending) :
    ∃ g e, f.makeRoom discard = some (g, e) ∧ g.WfAt e ∧ g.readerFilled ≤ maxFrameSize ∧ g.reader = f.reader ∧
      ((f.reader.bytes = [] ∧ ∃ poll h, f.round .unbounded discard = some (.done poll h)) ∨
        ∃ h, f.round .unbounded discard = some (.again h e) ∧ h.WfAt e ∧ h.unread = g.unread ∧ h.left < f.left) := by
  have hfound := hf.memchr_iff.mpr hclean
  obtain ⟨g, e, hroom, hg, _, hsearch, hfill, hreader, _⟩ := hf.makeRoom (memchr_none hfound)
  have hlen := hg.reader_length
  have hfree : slice? g.readerBuffer g.readerFilled g.readerBuffer.length =
      some (slice g.readerBuffer g.readerFilled g.readerBuffer.length) := slice?_eq_some (by omega) (Nat.le_refl _)
  have hlength : (slice g.readerBuffer g.readerFilled g.readerBuffer.length).length = maxFrameSize + 1 - g.readerFilled := by
    rw [length_slice (Nat.le_refl _), hlen]
  refine ⟨g, e, hroom, hg, hfill, hreader, ?_⟩
  rw [round, hf.region, makeRoomWith_unbounded]
  simp only [Option.bind_eq_bind, Option.bind_some, hfound, hroom, hfree]
  rw [hlength, hreader]
  cases hread : f.reader.read (maxFrameSize + 1 - g.readerFilled) with
  | mk result reader =>
      by_cases hserved : ∃ b bs, result = .ok (b :: bs)
      · obtain ⟨b, bs, rfl⟩ := hserved
        obtain ⟨hfit, hbytes, _⟩ := Reader.read_bytes hread
        obtain ⟨hh, hpending⟩ := hg.ingest hsearch reader hfit
        refine Or.inr ⟨g.ingest reader (b :: bs), rfl, hh, ?_, ?_⟩
        · rw [unread, unread, hpending, hreader, ← hbytes, List.append_assoc]
          rfl
        · have hcount := congrArg List.length hbytes
          rw [List.length_append, List.length_cons] at hcount
          change 2 * reader.bytes.length + (g.readerFilled + (b :: bs).length - g.readerSearch) < _
          rw [left, hsearch, List.length_cons]
          omega
      · have hnone : ∀ b bs, result ≠ .ok (b :: bs) := fun b bs heq => hserved ⟨b, bs, heq⟩
        obtain ⟨hbytes, _, _⟩ := Reader.read_stop (show 0 < maxFrameSize + 1 - g.readerFilled by omega) hread hnone
        refine Or.inl ⟨hbytes, ?_⟩
        rcases result with (_ | ⟨b, bs⟩) | err | _
        · exact ⟨_, _, rfl⟩
        · exact absurd rfl (hnone b bs)
        · exact ⟨_, _, rfl⟩
        · exact ⟨_, _, rfl⟩

theorem overflowWith_reader (hroom : f.overflowWith usize discard = some (g, e)) : g.reader = f.reader := by
  rw [overflowWith] at hroom
  split at hroom
  · obtain ⟨_, _, hg⟩ := Option.bind_eq_some_iff.mp hroom
    cases hg
    rfl
  · cases hroom
    rfl

theorem makeRoomWith_reader (hroom : f.makeRoomWith usize discard = some (g, e)) : g.reader = f.reader := by
  rw [makeRoomWith] at hroom
  split at hroom
  · obtain ⟨k, hcompact, hover⟩ := Option.bind_eq_some_iff.mp hroom
    rw [overflowWith_reader hover]
    rw [compactWith] at hcompact
    split at hcompact
    · obtain ⟨_, _, hcompact⟩ := Option.bind_eq_some_iff.mp hcompact
      obtain ⟨_, _, hk⟩ := Option.bind_eq_some_iff.mp hcompact
      cases hk
      rfl
    · cases hcompact
      rfl
  · obtain ⟨_, _, hover⟩ := Option.bind_eq_some_iff.mp hroom
    rw [overflowWith_reader hover]
    rfl

/-- A round only takes bytes from the reader, whatever the arithmetic makes of its cursors. -/
theorem round_reader (hround : f.round usize discard = some (.again g e)) :
    g.reader.bytes.length ≤ f.reader.bytes.length := by
  obtain ⟨region, _, hround⟩ := Option.bind_eq_some_iff.mp hround
  split at hround
  · obtain ⟨stop, _, hround⟩ := Option.bind_eq_some_iff.mp hround
    obtain ⟨skip, _, hround⟩ := Option.bind_eq_some_iff.mp hround
    split at hround
    · obtain ⟨_, _, hround⟩ := Option.bind_eq_some_iff.mp hround
      obtain ⟨_, _, hround⟩ := Option.bind_eq_some_iff.mp hround
      cases hround
      exact Nat.le_refl _
    · cases hround
  · obtain ⟨⟨k, d⟩, hroom, hround⟩ := Option.bind_eq_some_iff.mp hround
    obtain ⟨free, _, hround⟩ := Option.bind_eq_some_iff.mp hround
    dsimp only at hround
    split at hround
    · cases hround
    · cases hround
    · cases hround
    · rename_i b bs reader hread
      obtain ⟨filled, _, hround⟩ := Option.bind_eq_some_iff.mp hround
      have hbytes := congrArg List.length (Reader.read_bytes hread).2.1
      rw [makeRoomWith_reader hroom, List.length_append] at hbytes
      cases hround
      change reader.bytes.length ≤ _
      omega

/-! ### Runs -/

/-- The heads of the loop a call passes without returning. -/
inductive Reached (usize : Usize) : Framing cobs maxFrameSize → Nat → Framing cobs maxFrameSize → Nat → Prop
  | head {f : Framing cobs maxFrameSize} {discard : Nat} : Reached usize f discard f discard
  | round {f g h : Framing cobs maxFrameSize} {discard e d : Nat} (hround : f.round usize discard = some (.again g e))
      (hreached : Reached usize g e h d) : Reached usize f discard h d

theorem Reached.reader (hreached : Reached usize f discard g e) :
    g.reader.bytes.length ≤ f.reader.bytes.length := by
  induction hreached with
  | head => exact Nat.le_refl _
  | round hround _ ih => exact Nat.le_trans ih (round_reader hround)

/-- A head of the loop inside a run without a delimiter: what was thrown away of it is counted, and is more than a
frame if there is any. -/
structure Inside (f : Framing cobs maxFrameSize) (discard : Nat) (run rest : List UInt8) : Prop extends f.WfAt discard where
  count : discard = 0 ∨ maxFrameSize < discard
  clean : 0 ∉ run
  front : f.unread = run ++ rest

theorem Inside.pending {run rest : List UInt8} (hf : f.Inside discard run rest)
    (hleft : rest.length ≤ f.reader.bytes.length) : ∃ more, run = f.pending ++ more := by
  have hfront := hf.front
  rw [unread] at hfront
  have hlength := congrArg List.length hfront
  rw [List.length_append, List.length_append] at hlength
  have hprefix : f.pending <+: run := by
    apply List.prefix_of_prefix_length_le (List.prefix_append f.pending f.reader.bytes)
    · rw [hfront]
      exact List.prefix_append run rest
    · omega
  obtain ⟨more, hmore⟩ := hprefix
  exact ⟨more, hmore.symm⟩

theorem Inside.round {run rest : List UInt8} (hcounts : usize.Counts limit) (hlimit : maxFrameSize + 1 < limit)
    (hf : f.Inside discard run rest) (hleft : rest.length ≤ f.reader.bytes.length)
    (hfit : discard + f.pending.length < limit) :
    ∃ g e, f.makeRoomWith usize discard = some (g, e) ∧ (e = 0 ∨ maxFrameSize < e) ∧
      (e = 0 → g.pending.length ≤ maxFrameSize) ∧ g.reader = f.reader ∧
      e + g.pending.length = discard + f.pending.length ∧
      ((f.reader.bytes = [] ∧ ∃ poll h, f.round usize discard = some (.done poll h)) ∨
        ∃ h run', f.round usize discard = some (.again h e) ∧ h.Inside e run' rest ∧
          e + run'.length = discard + run.length ∧ h.left < f.left) := by
  obtain ⟨more, hrun⟩ := hf.pending hleft
  have hclean : 0 ∉ f.pending := by
    intro hmem
    apply hf.clean
    rw [hrun]
    exact List.mem_append_left more hmem
  have hmore : 0 ∉ more := by
    intro hmem
    apply hf.clean
    rw [hrun]
    exact List.mem_append_right f.pending hmem
  have hsame : f.round usize discard = f.round .unbounded discard := by
    apply round_counts hcounts hlimit hf.toWfAt
    intro front back hfront _
    have hlength := congrArg List.length hfront
    rw [List.length_append] at hlength
    omega
  have hbytes : f.reader.bytes = more ++ rest := by
    have hfront := hf.front
    rw [unread, hrun, List.append_assoc] at hfront
    exact List.append_cancel_left hfront
  obtain ⟨g, e, hroom, hg, hfill, hreader, hnext⟩ := hf.toWfAt.round_wait hclean
  have hcases := makeRoom_cases hf.toWfAt hf.count hclean hroom
  have hlength := hg.length_pending.1
  have hlengthf := congrArg List.length hrun
  rw [List.length_append] at hlengthf
  refine ⟨g, e, ?_, ?_, ?_, hreader, ?_, ?_⟩
  · rw [makeRoomWith_counts hcounts hlimit hf.toWfAt hfit, hroom]
  · omega
  · omega
  · rcases hcases with ⟨hzero, hzero', hpending⟩ | ⟨_, hsum, hpending⟩
    · rw [hpending, hzero, hzero']
    · rw [hpending, hsum, List.length_nil, Nat.add_zero]
  · rw [hsame]
    rcases hnext with hdone | ⟨h, hround, hh, hunread, hless⟩
    · exact Or.inl hdone
    · rw [unread, unread, hreader, hbytes, ← List.append_assoc] at hunread
      refine Or.inr ⟨h, g.pending ++ more, hround, ⟨hh, by omega, ?_, hunread⟩, ?_, hless⟩
      · rcases hcases with ⟨_, _, hpending⟩ | ⟨_, _, hpending⟩
        · rw [hpending, ← hrun]
          exact hf.clean
        · rw [hpending]
          exact hmore
      · rw [List.length_append, hlengthf]
        rcases hcases with ⟨hzero, hzero', hpending⟩ | ⟨_, hsum, hpending⟩
        · rw [hpending, hzero, hzero']
        · rw [hpending, hsum, List.length_nil]
          omega

/-- Inside a run shorter than the word counts, every head of the loop has everything thrown away on the counter. -/
theorem Reached.inside {run rest : List UInt8} (hcounts : usize.Counts limit) (hlimit : maxFrameSize + 1 < limit)
    (hreached : Reached usize f discard g e) (hf : f.Inside discard run rest) (hfit : discard + run.length < limit)
    (hleft : rest.length ≤ g.reader.bytes.length) :
    ∃ run', g.Inside e run' rest ∧ e + run'.length = discard + run.length := by
  induction hreached generalizing run with
  | head => exact ⟨run, hf, rfl⟩
  | round hround hreached ih =>
      have hleft' := Nat.le_trans hleft (Nat.le_trans hreached.reader (round_reader hround))
      obtain ⟨more, hrun⟩ := hf.pending hleft'
      have hlength := congrArg List.length hrun
      rw [List.length_append] at hlength
      obtain ⟨_, _, _, _, _, _, _, hnext⟩ := hf.round hcounts hlimit hleft' (by omega)
      rcases hnext with ⟨_, poll, k, hdone⟩ | ⟨k, run', hagain, hk, hsum, _⟩
      · rw [hdone] at hround
        cases hround
      · rw [hagain] at hround
        cases hround
        obtain ⟨run'', hg, hsum'⟩ := ih hk (by omega) hleft
        exact ⟨run'', hg, by omega⟩

theorem length_front {front back run rest : List UInt8} (hfront : front ++ back = run ++ 0 :: rest) (hclean : 0 ∉ front) :
    front.length ≤ run.length := by
  by_contra hlong
  apply hclean
  have hprefix : run ++ [0] <+: front := by
    have hrun : run ++ [0] <+: front ++ back := ⟨rest, by rw [hfront, List.append_assoc]; rfl⟩
    apply List.prefix_of_prefix_length_le hrun
    · exact List.prefix_append front back
    · rw [List.length_append, List.length_singleton]
      omega
  exact hprefix.subset (by simp)

/-- A frame that is too long, but shorter than the word counts, ends with its delimiter: the loop goes on behind it. -/
theorem Inside.delimited {run rest : List UInt8} (hcounts : usize.Counts limit) (hlimit : maxFrameSize + 1 < limit)
    (hf : f.Inside discard run (0 :: rest)) (hlong : maxFrameSize < discard + run.length)
    (hfit : discard + run.length < limit) : ∃ g, Reached usize f discard g 0 ∧ g.unread = rest := by
  induction hleft : f.left using Nat.strongRecOn generalizing f discard run with
  | ind left ih =>
    subst hleft
    by_cases hdelim : 0 ∈ f.pending
    · obtain ⟨frame, g, hclean, hlength, hunread, _, hround⟩ := hf.toWfAt.round_found hdelim
      have hcut : some (frame, g.unread) = some (run, rest) := by
        rw [← cut_append_sep hclean, ← hunread, hf.front, cut_append_sep hf.clean]
      obtain ⟨rfl, hrest⟩ := Prod.mk.inj (Option.some.inj hcut)
      have hpos : 0 < discard := by omega
      have hsame : f.round usize discard = f.round .unbounded discard := by
        apply round_counts hcounts hlimit hf.toWfAt
        intro front back hfront hfree
        have hfront' : front ++ (back ++ f.reader.bytes) = frame ++ 0 :: rest := by
          rw [← List.append_assoc, ← hfront, ← hf.front]
          rfl
        have := length_front hfront' hfree
        omega
      exact ⟨g, .round (hsame.trans (hround hpos)) .head, hrest⟩
    · have hlength := length_front hf.front hdelim
      have hcount := congrArg List.length hf.front
      rw [unread, List.length_append, List.length_append] at hcount
      obtain ⟨_, _, _, _, _, _, _, hnext⟩ := hf.round hcounts hlimit (by omega) (by omega)
      rcases hnext with ⟨hstop, _⟩ | ⟨h, run', hagain, hh, hsum, hless⟩
      · rw [hstop, List.length_nil, List.length_cons] at hcount
        omega
      · obtain ⟨g, hreached, hrest⟩ := ih h.left hless hh (by omega) (by omega) rfl
        exact ⟨g, .round hagain hreached, hrest⟩

theorem Inside.overflows {run : List UInt8} {w : Nat} (hlimit : maxFrameSize + 1 < 2 ^ w)
    (hf : f.Inside discard run []) (hlong : 2 ^ w ≤ discard + run.length) :
    ∃ g e, Reached (.checked w) f discard g e ∧ g.round (.checked w) e = none := by
  induction hleft : f.left using Nat.strongRecOn generalizing f discard run with
  | ind left ih =>
    subst hleft
    by_cases hfit : discard + f.pending.length < 2 ^ w
    · obtain ⟨_, _, _, _, _, _, _, hnext⟩ := hf.round (Usize.checked_counts w) hlimit (Nat.zero_le _) hfit
      rcases hnext with ⟨hstop, _⟩ | ⟨h, run', hagain, hh, hsum, hless⟩
      · have hfront := congrArg List.length hf.front
        rw [unread, hstop, List.append_nil, List.append_nil] at hfront
        omega
      · obtain ⟨g, e, hreached, hnone⟩ := ih h.left hless hh (by omega) rfl
        exact ⟨g, e, .round hagain hreached, hnone⟩
    · obtain ⟨more, hrun⟩ := hf.pending (Nat.zero_le _)
      have hclean : 0 ∉ f.pending := by
        intro hmem
        apply hf.clean
        rw [hrun]
        exact List.mem_append_left more hmem
      have hlength := hf.toWfAt.length_pending
      have hfill := hf.filled_le
      have hpos : 0 < discard := by omega
      have hfilled := hlength.2 hpos
      have hover : (Usize.checked w).add discard f.readerFilled = none := if_neg (by omega)
      refine ⟨f, discard, .head, ?_⟩
      rw [Framing.round, hf.region, makeRoomWith, if_neg (Nat.ne_of_gt hpos)]
      simp only [Option.bind_eq_bind, Option.bind_some, hf.toWf.memchr_iff.mpr hclean]
      change (((Usize.checked w).add discard f.readerFilled).bind _).bind _ = none
      rw [hover]
      rfl

/-! ### Discarding -/

/-- Discarding works for a run: while its bytes are read no sum overflows and the counter tells whether they are known
to be too many, and a run that is too long goes with its delimiter, nothing of it being returned. -/
structure Discards (cobs : Cobs) (maxFrameSize w : Nat) (run : List UInt8) : Prop where
  fits : ∀ {f : Framing cobs maxFrameSize} {rest}, f.Wf → f.unread = run ++ rest →
    ∀ {g discard}, Reached (.checked w) f 0 g discard → rest.length ≤ g.reader.bytes.length →
      g.round (.checked w) discard ≠ none
  flag : ∀ {f : Framing cobs maxFrameSize} {rest}, f.Wf → f.unread = run ++ rest →
    ∀ {g discard}, Reached (.wrapping w) f 0 g discard → rest.length ≤ g.reader.bytes.length →
      ∀ {h discard'}, g.makeRoomWith (.wrapping w) discard = some (h, discard') →
        (0 < discard' ↔ maxFrameSize < f.unread.length - h.reader.bytes.length)
  tail : ∀ {f : Framing cobs maxFrameSize} {rest}, f.Wf → f.unread = run ++ 0 :: rest → maxFrameSize < run.length →
    ∀ usize ∈ [Usize.checked w, Usize.wrapping w], ∃ g, Reached usize f 0 g 0 ∧ g.unread = rest

theorem Wf.inside {run rest : List UInt8} (hf : f.Wf) (hclean : 0 ∉ run) (hfront : f.unread = run ++ rest) :
    f.Inside 0 run rest := ⟨hf.wfAt, Or.inl rfl, hclean, hfront⟩

theorem discards_of_lt {run : List UInt8} {w : Nat} (hlimit : maxFrameSize + 1 < 2 ^ w) (hclean : 0 ∉ run)
    (hfit : run.length < 2 ^ w) : Discards cobs maxFrameSize w run := by
  have hwrapping := Usize.wrapping_counts w
  have hchecked := Usize.checked_counts w
  constructor
  · intro f rest hf hfront g discard hreached hleft
    obtain ⟨run', hg, hsum⟩ := hreached.inside hchecked hlimit (hf.inside hclean hfront) (by omega) hleft
    obtain ⟨more, hrun⟩ := hg.pending hleft
    have hlength := congrArg List.length hrun
    rw [List.length_append] at hlength
    obtain ⟨_, _, _, _, _, _, _, hnext⟩ := hg.round hchecked hlimit hleft (by omega)
    rcases hnext with ⟨_, poll, h, hdone⟩ | ⟨h, _, hagain, _⟩
    · rw [hdone]
      exact Option.some_ne_none _
    · rw [hagain]
      exact Option.some_ne_none _
  · intro f rest hf hfront g discard hreached hleft h discard' hroom
    obtain ⟨run', hg, hsum⟩ := hreached.inside hwrapping hlimit (hf.inside hclean hfront) (by omega) hleft
    obtain ⟨more, hrun⟩ := hg.pending hleft
    have hlength := congrArg List.length hrun
    rw [List.length_append] at hlength
    obtain ⟨_, _, hroom', hcount, hshort, hreader, hthrown, _⟩ := hg.round hwrapping hlimit hleft (by omega)
    rw [hroom] at hroom'
    cases hroom'
    have hfrontg := congrArg List.length hg.front
    rw [unread, List.length_append, List.length_append] at hfrontg
    rw [hfront, hreader, List.length_append]
    constructor
    · intro hpos
      omega
    · intro hlong
      by_contra hzero
      have := hshort (by omega)
      omega
  · intro f rest hf hfront hlong usize husize
    have hcounts : usize.Counts (2 ^ w) := by
      simp only [List.mem_cons, List.not_mem_nil, or_false] at husize
      rcases husize with rfl | rfl
      · exact hchecked
      · exact hwrapping
    exact (hf.inside hclean hfront).delimited hcounts hlimit (by omega) (by omega)

/-- However a run as long as the word counts is read, it overflows the counter. -/
theorem Wf.overflows {run : List UInt8} {w : Nat} (hlimit : maxFrameSize + 1 < 2 ^ w) (hf : f.Wf) (hclean : 0 ∉ run)
    (hlong : 2 ^ w ≤ run.length) (hfront : f.unread = run) :
    ∃ g discard, Reached (.checked w) f 0 g discard ∧ g.round (.checked w) discard = none :=
  (hf.inside hclean (hfront.trans (List.append_nil run).symm)).overflows hlimit (by omega)

theorem not_discards {run : List UInt8} {w : Nat} (hlimit : maxFrameSize + 1 < 2 ^ w) (hclean : 0 ∉ run)
    (hlong : 2 ^ w ≤ run.length) : ¬ Discards cobs maxFrameSize w run := by
  intro hdiscards
  have hf : (new (Reader.chunk run) ⟨[], []⟩ : Framing cobs maxFrameSize).Wf := new_wf _ _
  have hfront : (new (Reader.chunk run) ⟨[], []⟩ : Framing cobs maxFrameSize).unread = run := by
    rw [unread, new_pending, List.nil_append]
    exact Reader.bytes_chunk run
  obtain ⟨g, discard, hreached, hnone⟩ := hf.overflows hlimit hclean hlong hfront
  exact hdiscards.fits hf (hfront.trans (List.append_nil run).symm) hreached (Nat.zero_le _) hnone

/-- Discarding works for exactly the runs that are shorter than the word counts. -/
theorem discards_iff {w : Nat} (hw : w = 32 ∨ w = 64) {run : List UInt8} (hclean : 0 ∉ run) :
    Discards cobs MAX_FRAME_SIZE w run ↔ run.length < 2 ^ w := by
  have hlimit : MAX_FRAME_SIZE + 1 < 2 ^ w := by
    rcases hw with rfl | rfl <;> decide
  constructor
  · intro hdiscards
    by_contra hlong
    exact not_discards hlimit hclean (Nat.le_of_not_lt hlong) hdiscards
  · exact discards_of_lt hlimit hclean

theorem discards_iff_reference : Discards Cobs.stuffing MAX_FRAME_SIZE 32 (List.replicate (MAX_FRAME_SIZE + 2) 1) := by
  refine (discards_iff (Or.inl rfl) fun hmem => ?_).mpr ?_
  · exact absurd (List.eq_of_mem_replicate hmem) (by decide)
  · rw [List.length_replicate]
    decide

theorem not_discards_replicate {w n : Nat} (hlimit : maxFrameSize + 1 < 2 ^ w) (hlong : 2 ^ w ≤ n) :
    ¬ Discards cobs maxFrameSize w (List.replicate n 1) := by
  apply not_discards hlimit
  · intro hmem
    exact absurd (List.eq_of_mem_replicate hmem) (by decide)
  · rw [List.length_replicate]
    exact hlong

/-- On a 32 bit target: 4 GiB without a delimiter. -/
theorem discards_iff_overflow : ¬ Discards Cobs.stuffing MAX_FRAME_SIZE 32 (List.replicate (2 ^ 32) 1) :=
  not_discards_replicate (by decide) (Nat.le_refl _)

end Framing

end DarkbioWire
