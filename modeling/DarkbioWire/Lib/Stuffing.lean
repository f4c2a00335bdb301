import Mathlib.Data.List.Basic
import Mathlib.Tactic.Common

/-!
# Consistent overhead byte stuffing

A packet is cut at its zeros, and where 254 bytes go by without one; a block is the code byte of its length and the bytes
between. A code byte of 255 stands for a block that no zero follows, and a packet that ends with such a block ends there. So
a frame has no zero byte and at most one byte more than its packet for each 254 begun, or one more than none.
-/

namespace Stuffing

/-- The blocks of what is left of a packet, behind a run of bytes that are in no block yet. -/
def blocks (run : List UInt8) : List UInt8 → List UInt8
  | [] => UInt8.ofNat (run.length + 1) :: run
  | b :: rest =>
      if b = 0 then UInt8.ofNat (run.length + 1) :: (run ++ blocks [] rest)
      else if run.length + 1 = 254 then 255 :: (run ++ b :: if rest = [] then [] else blocks [] rest)
      else blocks (run ++ [b]) rest

/-- The frame of a packet. -/
def encode (packet : List UInt8) : List UInt8 := blocks [] packet

/-- Reads on in a block of which `left` bytes are left, and which is a full one or not. -/
def unblock : Nat → Bool → List UInt8 → Option (List UInt8)
  | 0, _, [] => some []
  | _ + 1, _, [] => none
  | 0, full, code :: rest =>
      if code = 0 then none
      else
        (unblock (code.toNat - 1) (decide (code = 255)) rest).map fun packet => if full then packet else 0 :: packet
  | left + 1, full, b :: rest => if b = 0 then none else (unblock left full rest).map (b :: ·)

/-- The packet of a frame. -/
def decode (frame : List UInt8) : Option (List UInt8) :=
  if frame = [] then none else unblock 0 true frame

variable {run packet rest : List UInt8} {full : Bool}

theorem unblock_run (hrun : 0 ∉ run) : unblock run.length full (run ++ rest) = (unblock 0 full rest).map (run ++ ·) := by
  induction run with
  | nil => simp
  | cons b run ih =>
      have hb : b ≠ 0 := fun h => hrun (h ▸ List.mem_cons_self)
      have hrun' : 0 ∉ run := fun h => hrun (List.mem_cons_of_mem b h)
      rw [List.length_cons, List.cons_append, unblock, if_neg hb, ih hrun', Option.map_map]
      rfl

theorem code_ne_zero (hlength : run.length ≤ 253) : (0 : UInt8) ≠ UInt8.ofNat (run.length + 1) := by
  intro h
  have := congrArg UInt8.toNat h
  rw [UInt8.toNat_ofNat'] at this
  have hzero : (0 : UInt8).toNat = 0 := rfl
  omega

theorem unblock_code (hrun : 0 ∉ run) (hlength : run.length ≤ 253) :
    unblock 0 full (UInt8.ofNat (run.length + 1) :: (run ++ rest)) =
      (unblock 0 false rest).map fun packet => if full then run ++ packet else 0 :: (run ++ packet) := by
  have hnat : (UInt8.ofNat (run.length + 1)).toNat = run.length + 1 := by
    rw [UInt8.toNat_ofNat']
    omega
  have hzero : UInt8.ofNat (run.length + 1) ≠ 0 := (code_ne_zero hlength).symm
  have hfull : UInt8.ofNat (run.length + 1) ≠ 255 := by
    intro h
    have := congrArg UInt8.toNat h
    rw [hnat] at this
    have h255 : (255 : UInt8).toNat = 255 := rfl
    omega
  rw [unblock, if_neg hzero, decide_eq_false hfull, hnat, Nat.add_sub_cancel, unblock_run hrun, Option.map_map]
  rfl

theorem unblock_blocks (hrun : 0 ∉ run) (hlength : run.length ≤ 253) :
    unblock 0 full (blocks run packet) = some (if full then run ++ packet else 0 :: (run ++ packet)) := by
  induction packet generalizing run full with
  | nil =>
      have hblocks : blocks run [] = UInt8.ofNat (run.length + 1) :: (run ++ []) := by
        rw [blocks, List.append_nil]
      rw [hblocks, unblock_code hrun hlength, unblock]
      simp
  | cons b packet ih =>
      rw [blocks]
      split
      · rename_i hb
        rw [unblock_code hrun hlength, ih (by simp) (by simp), hb]
        simp
      · rename_i hb
        have hrun' : 0 ∉ run ++ [b] := by
          simp only [List.mem_append, List.mem_singleton, not_or]
          exact ⟨hrun, fun h => hb h.symm⟩
        split
        · rename_i hmax
          have hfull : (255 : UInt8).toNat - 1 = (run ++ [b]).length := by
            rw [List.length_append, List.length_singleton, hmax]
            rfl
          have hcut : (run ++ b :: if packet = [] then [] else blocks [] packet) =
              (run ++ [b]) ++ if packet = [] then [] else blocks [] packet := by
            rw [List.append_assoc, List.singleton_append]
          rw [unblock, if_neg (by decide), hfull, hcut, unblock_run hrun', decide_eq_true rfl]
          by_cases hlast : packet = []
          · rw [if_pos hlast, unblock, hlast]
            simp
          · rw [if_neg hlast, ih (by simp) (by simp)]
            simp
        · rw [ih hrun' (by simp; omega)]
          simp

theorem blocks_ne_nil : blocks run packet ≠ [] := by
  induction packet generalizing run with
  | nil => simp [blocks]
  | cons b packet ih =>
      rw [blocks]
      split
      · simp
      · split
        · simp
        · exact ih

theorem decode_encode (packet : List UInt8) : decode (encode packet) = some packet := by
  rw [decode, encode, if_neg blocks_ne_nil, unblock_blocks (by simp) (by simp)]
  simp

theorem encode_ne_nil (packet : List UInt8) : encode packet ≠ [] := blocks_ne_nil

theorem zero_not_mem_blocks (hrun : 0 ∉ run) (hlength : run.length ≤ 253) : 0 ∉ blocks run packet := by
  induction packet generalizing run with
  | nil =>
      rw [blocks, List.mem_cons, not_or]
      exact ⟨code_ne_zero hlength, hrun⟩
  | cons b packet ih =>
      rw [blocks]
      split
      · rw [List.mem_cons, List.mem_append, not_or, not_or]
        exact ⟨code_ne_zero hlength, hrun, ih (by simp) (by simp)⟩
      · rename_i hb
        split
        · rw [List.mem_cons, List.mem_append, List.mem_cons, not_or, not_or, not_or]
          refine ⟨by decide, hrun, fun h => hb h.symm, ?_⟩
          split
          · exact List.not_mem_nil
          · exact ih (by simp) (by simp)
        · refine ih ?_ (by simp; omega)
          rw [List.mem_append, List.mem_singleton, not_or]
          exact ⟨hrun, fun h => hb h.symm⟩

theorem zero_not_mem_encode (packet : List UInt8) : 0 ∉ encode packet := zero_not_mem_blocks (by simp) (by simp)

theorem length_blocks (hlength : run.length ≤ 253) :
    run.length + packet.length < (blocks run packet).length ∧
      (blocks run packet).length ≤ run.length + packet.length + max 1 ((run.length + packet.length + 253) / 254) := by
  induction packet generalizing run with
  | nil =>
      rw [blocks]
      simp only [List.length_cons, List.length_nil]
      omega
  | cons b packet ih =>
      rw [blocks]
      have hempty := ih (show ([] : List UInt8).length ≤ 253 by simp)
      rw [List.length_nil] at hempty
      split
      · simp only [List.length_cons, List.length_append]
        omega
      · split
        · split
          · rename_i hlast
            simp only [hlast, List.length_cons, List.length_append, List.length_nil]
            omega
          · rename_i hmore
            have hpos := List.length_pos_iff.mpr hmore
            simp only [List.length_cons, List.length_append]
            omega
        · have hnext := ih (show (run ++ [b]).length ≤ 253 by simp; omega)
          simp only [List.length_append, List.length_singleton] at hnext
          simp only [List.length_cons]
          omega

/-- A frame is longer than its packet, by one byte for each 254 bytes begun at most. -/
theorem length_encode (packet : List UInt8) :
    packet.length < (encode packet).length ∧
      (encode packet).length ≤ packet.length + max 1 ((packet.length + 253) / 254) := by
  simpa [encode] using length_blocks (show ([] : List UInt8).length ≤ 253 by simp)

theorem length_blocks_clean (hclean : 0 ∉ packet) (hlength : run.length ≤ 253) :
    run.length + packet.length + (run.length + packet.length + 253) / 254 ≤ (blocks run packet).length := by
  induction packet generalizing run with
  | nil =>
      rw [blocks]
      simp only [List.length_cons, List.length_nil]
      omega
  | cons b packet ih =>
      have hb : b ≠ 0 := fun h => hclean (h ▸ List.mem_cons_self)
      have hclean' : 0 ∉ packet := fun h => hclean (List.mem_cons_of_mem b h)
      rw [blocks, if_neg hb]
      split
      · rename_i hfull
        have hrest := ih hclean' (show ([] : List UInt8).length ≤ 253 by simp)
        rw [List.length_nil] at hrest
        split
        · rename_i hlast
          simp only [hlast, List.length_cons, List.length_append, List.length_nil]
          omega
        · simp only [List.length_cons, List.length_append]
          omega
      · have hrest := ih hclean' (show (run ++ [b]).length ≤ 253 by rw [List.length_append, List.length_singleton]; omega)
        simp only [List.length_cons, List.length_append, List.length_nil] at hrest ⊢
        omega

/-- A packet without a zero takes a code byte for each 254 bytes begun. -/
theorem length_encode_clean (hclean : 0 ∉ packet) :
    (encode packet).length = packet.length + max 1 ((packet.length + 253) / 254) := by
  obtain ⟨hlonger, hmost⟩ := length_encode packet
  have hleast := length_blocks_clean hclean (show ([] : List UInt8).length ≤ 253 by simp)
  rw [List.length_nil, Nat.zero_add] at hleast
  rw [encode] at hlonger hmost ⊢
  omega

theorem length_unblock {left : Nat} {frame : List UInt8} (h : unblock left full frame = some packet) :
    packet.length ≤ frame.length := by
  fun_induction unblock left full frame generalizing packet with
  | case1 => exact Option.some.inj h ▸ Nat.le_refl _
  | case2 => cases h
  | case3 => cases h
  | case4 full code rest _ ih =>
      -- a code byte goes, and at most the zero of its block comes
      obtain ⟨inner, hinner, rfl⟩ := Option.map_eq_some_iff.mp h
      have hle := ih hinner
      rw [List.length_cons]
      split
      · omega
      · rw [List.length_cons]
        omega
  | case5 => cases h
  | case6 left full b rest _ ih =>
      obtain ⟨inner, hinner, rfl⟩ := Option.map_eq_some_iff.mp h
      rw [List.length_cons, List.length_cons]
      exact Nat.succ_le_succ (ih hinner)

theorem length_decode {frame : List UInt8} (h : decode frame = some packet) : packet.length ≤ frame.length := by
  rw [decode] at h
  split at h
  · cases h
  · exact length_unblock h

end Stuffing
