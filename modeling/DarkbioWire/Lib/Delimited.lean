import Mathlib.Data.List.Basic
import Mathlib.Tactic.Common

/-!
# Delimited streams

A stream over any alphabet, cut into pieces at a separator. A receiver with a limit keeps the pieces of at most `limit`
symbols and drops the longer ones whole; `excess` says that the piece at the front of the stream is already known to be
too long, its beginning having been thrown away. `next` is the first piece kept, `residue` is what is left in front of
the next symbols when no piece is complete, and `accepted` is the whole answer, read off `List.splitOn`.
-/

namespace Delimited

variable {α : Type*} [DecidableEq α] {sep : α} {limit : Nat} {excess : Bool} {s z u piece rest : List α}

/-- The stream up to its first separator, and what follows that separator. -/
def cut (sep : α) : List α → Option (List α × List α)
  | [] => none
  | a :: s => if a = sep then some ([], s) else (cut sep s).map fun (piece, rest) => (a :: piece, rest)

@[simp] theorem cut_nil : cut sep [] = none := rfl

@[simp] theorem cut_cons_sep : cut sep (sep :: s) = some ([], s) := by
  simp [cut]

theorem cut_append (hz : sep ∉ z) : cut sep (z ++ u) = (cut sep u).map fun (piece, rest) => (z ++ piece, rest) := by
  induction z with
  | nil =>
      rw [List.nil_append]
      cases cut sep u <;> rfl
  | cons a z ih =>
      have ha : a ≠ sep := fun h => hz (h ▸ List.mem_cons_self)
      have htail : sep ∉ z := fun h => hz (List.mem_cons_of_mem a h)
      rw [List.cons_append, cut, if_neg ha, ih htail, Option.map_map]
      rfl

theorem cut_of_not_mem (hs : sep ∉ s) : cut sep s = none := by
  simpa using cut_append (u := []) hs

theorem cut_append_sep (hz : sep ∉ z) : cut sep (z ++ sep :: u) = some (z, u) := by
  rw [cut_append hz, cut_cons_sep]
  simp

theorem eq_of_cut (h : cut sep s = some (piece, rest)) : sep ∉ piece ∧ s = piece ++ sep :: rest := by
  by_cases hs : sep ∈ s
  · obtain ⟨z, u, rfl, hz⟩ := List.eq_append_cons_of_mem hs
    rw [cut_append_sep hz] at h
    obtain ⟨rfl, rfl⟩ := Prod.mk.inj (Option.some.inj h)
    exact ⟨hz, rfl⟩
  · rw [cut_of_not_mem hs] at h
    cases h

theorem length_of_cut (h : cut sep s = some (piece, rest)) : rest.length < s.length := by
  obtain ⟨_, rfl⟩ := eq_of_cut h
  simp only [List.length_append, List.length_cons]
  omega

/-- The first piece a receiver with this limit keeps, and the stream behind it. -/
def next (sep : α) (limit : Nat) (excess : Bool) (s : List α) : Option (List α × List α) :=
  match _h : cut sep s with
  | none => none
  | some (piece, rest) =>
      if excess = true ∨ limit < piece.length then next sep limit false rest else some (piece, rest)
termination_by s.length
decreasing_by exact length_of_cut (by assumption)

/-- What waits in front of the next symbols once no complete piece is left: a piece too long, of which nothing is kept,
or the beginning of one that may still fit. -/
def residue (sep : α) (limit : Nat) (excess : Bool) (s : List α) : Bool × List α :=
  match _h : cut sep s with
  | none => if excess = true ∨ limit < s.length then (true, []) else (false, s)
  | some (_, rest) => residue sep limit false rest
termination_by s.length
decreasing_by exact length_of_cut (by assumption)

theorem next_eq (sep : α) (limit : Nat) (excess : Bool) (s : List α) :
    next sep limit excess s =
      match cut sep s with
      | none => none
      | some (piece, rest) =>
          if excess = true ∨ limit < piece.length then next sep limit false rest else some (piece, rest) := by
  rw [next]
  split
  · rename_i h
    rw [h]
  · rename_i h
    rw [h]

theorem residue_eq (sep : α) (limit : Nat) (excess : Bool) (s : List α) :
    residue sep limit excess s =
      match cut sep s with
      | none => if excess = true ∨ limit < s.length then (true, []) else (false, s)
      | some (_, rest) => residue sep limit false rest := by
  rw [residue]
  split
  · rename_i h
    rw [h]
  · rename_i h
    rw [h]

theorem next_of_not_mem (hs : sep ∉ s) : next sep limit excess s = none := by
  rw [next_eq, cut_of_not_mem hs]

theorem next_append_sep (hz : sep ∉ z) :
    next sep limit excess (z ++ sep :: u) =
      if excess = true ∨ limit < z.length then next sep limit false u else some (z, u) := by
  rw [next_eq, cut_append_sep hz]

theorem residue_of_not_mem (hs : sep ∉ s) :
    residue sep limit excess s = if excess = true ∨ limit < s.length then (true, []) else (false, s) := by
  rw [residue_eq, cut_of_not_mem hs]

theorem residue_append_sep (hz : sep ∉ z) :
    residue sep limit excess (z ++ sep :: u) = residue sep limit false u := by
  rw [residue_eq, cut_append_sep hz]

/-- A stream either holds no separator or starts with a separator-free piece. -/
theorem cases_first (sep : α) (s : List α) : sep ∉ s ∨ ∃ z u, sep ∉ z ∧ s = z ++ sep :: u := by
  by_cases hs : sep ∈ s
  · obtain ⟨z, u, rfl, hz⟩ := List.eq_append_cons_of_mem hs
    exact Or.inr ⟨z, u, hz, rfl⟩
  · exact Or.inl hs

/-- Induction over a stream piece by piece. -/
theorem induction_pieces {motive : List α → Prop} (sep : α) (tail : ∀ s, sep ∉ s → motive s)
    (head : ∀ z u, sep ∉ z → motive u → motive (z ++ sep :: u)) (s : List α) : motive s := by
  induction hlen : s.length using Nat.strongRecOn generalizing s with
  | ind n ih =>
    subst hlen
    rcases cases_first sep s with hs | ⟨z, u, hz, rfl⟩
    · exact tail s hs
    · have hlt : u.length < (z ++ sep :: u).length := by
        simp only [List.length_append, List.length_cons]
        omega
      exact head z u hz (ih u.length hlt u rfl)

theorem next_over_append (hz : sep ∉ z) : next sep limit true (z ++ u) = next sep limit true u := by
  rcases cases_first sep u with hu | ⟨y, v, hy, rfl⟩
  · rw [next_of_not_mem hu, next_of_not_mem (by simp [hz, hu])]
  · rw [← List.append_assoc, next_append_sep (by simp [hz, hy]), next_append_sep hy]
    simp

theorem next_long_append (hz : sep ∉ z) (hlong : limit < z.length) :
    next sep limit excess (z ++ u) = next sep limit true u := by
  rcases cases_first sep u with hu | ⟨y, v, hy, rfl⟩
  · rw [next_of_not_mem hu, next_of_not_mem (by simp [hz, hu])]
  · have hlen : limit < (z ++ y).length := by
      rw [List.length_append]
      omega
    rw [← List.append_assoc, next_append_sep (by simp [hz, hy]), next_append_sep hy, if_pos (Or.inr hlen),
      if_pos (Or.inl rfl)]

theorem residue_over_append (hz : sep ∉ z) : residue sep limit true (z ++ u) = residue sep limit true u := by
  rcases cases_first sep u with hu | ⟨y, v, hy, rfl⟩
  · rw [residue_of_not_mem hu, residue_of_not_mem (by simp [hz, hu])]
    simp
  · rw [← List.append_assoc, residue_append_sep (by simp [hz, hy]), residue_append_sep hy]

theorem residue_long_append (hz : sep ∉ z) (hlong : limit < z.length) :
    residue sep limit excess (z ++ u) = residue sep limit true u := by
  rcases cases_first sep u with hu | ⟨y, v, hy, rfl⟩
  · rw [residue_of_not_mem hu, residue_of_not_mem (by simp [hz, hu])]
    have hlen : limit < (z ++ u).length := by
      rw [List.length_append]
      omega
    simp only [hlen, or_true, true_or, if_true]
  · rw [← List.append_assoc, residue_append_sep (by simp [hz, hy]), residue_append_sep hy]

/-- Waiting for more symbols loses nothing: a stream without a complete piece goes on like its residue. -/
theorem next_append_of_none (h : next sep limit excess s = none) (u : List α) :
    next sep limit excess (s ++ u) =
      next sep limit (residue sep limit excess s).1 ((residue sep limit excess s).2 ++ u) := by
  induction s using induction_pieces sep generalizing excess with
  | tail s hs =>
      rw [residue_of_not_mem hs]
      split
      · rename_i hover
        rw [List.nil_append]
        rcases hover with rfl | hlong
        · exact next_over_append hs
        · exact next_long_append hs hlong
      · rename_i hover
        rw [show excess = false by simpa using fun h => hover (Or.inl h)]
  | head z v hz ih =>
      rw [next_append_sep hz] at h
      split at h
      · rename_i hover
        rw [List.append_assoc, List.cons_append, next_append_sep hz, if_pos hover, residue_append_sep hz]
        exact ih h
      · cases h

theorem residue_append_of_none (h : next sep limit excess s = none) (u : List α) :
    residue sep limit excess (s ++ u) =
      residue sep limit (residue sep limit excess s).1 ((residue sep limit excess s).2 ++ u) := by
  induction s using induction_pieces sep generalizing excess with
  | tail s hs =>
      rw [residue_of_not_mem hs]
      split
      · rename_i hover
        rw [List.nil_append]
        rcases hover with rfl | hlong
        · exact residue_over_append hs
        · exact residue_long_append hs hlong
      · rename_i hover
        rw [show excess = false by simpa using fun h => hover (Or.inl h)]
  | head z v hz ih =>
      rw [next_append_sep hz] at h
      split at h
      · rw [List.append_assoc, List.cons_append, residue_append_sep hz, residue_append_sep hz]
        exact ih h
      · cases h

/-! ### The whole answer -/

/-- The complete pieces of a stream that a receiver with this limit keeps. What follows the last separator is no
piece. -/
def accepted (sep : α) (limit : Nat) (s : List α) : List (List α) :=
  (s.splitOn sep).dropLast.filter fun piece => decide (piece.length ≤ limit)

theorem accepted_of_not_mem (hs : sep ∉ s) : accepted sep limit s = [] := by
  simp [accepted, List.splitOn_eq_singleton hs]

theorem accepted_append_sep (hz : sep ∉ z) :
    accepted sep limit (z ++ sep :: u) =
      if limit < z.length then accepted sep limit u else z :: accepted sep limit u := by
  have hsplit : (z ++ sep :: u).splitOn sep = z :: u.splitOn sep :=
    List.splitOn_append_cons_self_of_not_mem hz u
  rw [accepted, hsplit, List.dropLast_cons_of_ne_nil (List.splitOn_ne_nil sep u), List.filter_cons, accepted]
  by_cases hlong : limit < z.length
  · simp [hlong, Nat.not_le.mpr hlong]
  · simp [hlong, Nat.not_lt.mp hlong]

theorem accepted_sep_cons (sep : α) (limit : Nat) (s : List α) :
    accepted sep limit (sep :: s) = [] :: accepted sep limit s :=
  (accepted_append_sep (z := []) List.not_mem_nil).trans (if_neg (Nat.not_lt_zero limit))

theorem accepted_of_next_none (h : next sep limit false s = none) : accepted sep limit s = [] := by
  induction s using induction_pieces sep with
  | tail s hs => exact accepted_of_not_mem hs
  | head z v hz ih =>
      rw [next_append_sep hz] at h
      split at h
      · rename_i hlong
        rw [accepted_append_sep hz, if_pos (by simpa using hlong)]
        exact ih h
      · cases h

theorem accepted_of_next_some (h : next sep limit false s = some (piece, rest)) :
    accepted sep limit s = piece :: accepted sep limit rest := by
  induction s using induction_pieces sep with
  | tail s hs =>
      rw [next_of_not_mem hs] at h
      cases h
  | head z v hz ih =>
      rw [next_append_sep hz] at h
      split at h
      · rename_i hlong
        rw [accepted_append_sep hz, if_pos (by simpa using hlong)]
        exact ih h
      · rename_i hshort
        obtain ⟨rfl, rfl⟩ := Prod.mk.inj (Option.some.inj h)
        rw [accepted_append_sep hz, if_neg (by simpa using hshort)]

theorem piece_of_next (h : next sep limit excess s = some (piece, rest)) :
    sep ∉ piece ∧ piece.length ≤ limit ∧ rest.length < s.length := by
  induction s using induction_pieces sep generalizing excess with
  | tail s hs =>
      rw [next_of_not_mem hs] at h
      cases h
  | head z v hz ih =>
      rw [next_append_sep hz] at h
      have hv : v.length < (z ++ sep :: v).length := by
        simp only [List.length_append, List.length_cons]
        omega
      split at h
      · obtain ⟨hpiece, hlimit, hlen⟩ := ih h
        exact ⟨hpiece, hlimit, Nat.lt_trans hlen hv⟩
      · rename_i hshort
        obtain ⟨rfl, rfl⟩ := Prod.mk.inj (Option.some.inj h)
        exact ⟨hz, by simpa using fun h => hshort (Or.inr h), hv⟩

/-! ### Streams in parts -/

theorem next_append_of_some (h : next sep limit excess s = some (piece, rest)) (u : List α) :
    next sep limit excess (s ++ u) = some (piece, rest ++ u) := by
  induction s using induction_pieces sep generalizing excess with
  | tail s hs =>
      rw [next_of_not_mem hs] at h
      cases h
  | head z v hz ih =>
      rw [next_append_sep hz] at h
      rw [List.append_assoc, List.cons_append, next_append_sep hz]
      split at h
      · rename_i hover
        rw [if_pos hover]
        exact ih h
      · rename_i hover
        rw [if_neg hover]
        obtain ⟨rfl, rfl⟩ := Prod.mk.inj (Option.some.inj h)
        rfl

/-- The pieces kept from a stream whose first piece may be known to be too long. -/
def kept (sep : α) (limit : Nat) (excess : Bool) (s : List α) : List (List α) :=
  match _h : next sep limit excess s with
  | none => []
  | some (piece, rest) => piece :: kept sep limit false rest
termination_by s.length
decreasing_by exact (piece_of_next (by assumption)).2.2

theorem kept_of_none (h : next sep limit excess s = none) : kept sep limit excess s = [] := by
  rw [kept]
  split
  · rfl
  · rename_i hsome
    rw [h] at hsome
    cases hsome

theorem kept_of_some (h : next sep limit excess s = some (piece, rest)) :
    kept sep limit excess s = piece :: kept sep limit false rest := by
  rw [kept]
  split
  · rename_i hnone
    rw [h] at hnone
    cases hnone
  · rename_i hsome
    rw [h] at hsome
    obtain ⟨rfl, rfl⟩ := Prod.mk.inj (Option.some.inj hsome)
    rfl

theorem kept_congr {excess' : Bool} {s' : List α} (h : next sep limit excess s = next sep limit excess' s') :
    kept sep limit excess s = kept sep limit excess' s' := by
  rcases hnext : next sep limit excess s with _ | ⟨piece, rest⟩
  · rw [kept_of_none hnext, kept_of_none (h.symm.trans hnext)]
  · rw [kept_of_some hnext, kept_of_some (h.symm.trans hnext)]

theorem kept_append_sep (hz : sep ∉ z) :
    kept sep limit excess (z ++ sep :: u) =
      if excess = true ∨ limit < z.length then kept sep limit false u else z :: kept sep limit false u := by
  split
  · rename_i hover
    exact kept_congr (by rw [next_append_sep hz, if_pos hover])
  · rename_i hover
    exact kept_of_some (by rw [next_append_sep hz, if_neg hover])

theorem kept_eq_nil : kept sep limit excess s = [] ↔ next sep limit excess s = none := by
  constructor
  · intro h
    rcases hnext : next sep limit excess s with _ | ⟨piece, rest⟩
    · rfl
    · rw [kept_of_some hnext] at h
      cases h
  · exact kept_of_none

theorem kept_append_within (hlimit : s.length ≤ limit) (u : List α) :
    kept sep limit false (s ++ sep :: u) = s.splitOn sep ++ kept sep limit false u := by
  induction s using induction_pieces sep with
  | tail s hs =>
      rw [kept_append_sep hs, if_neg (by simpa using hlimit), List.splitOn_eq_singleton hs]
      rfl
  | head z v hz ih =>
      rw [List.length_append, List.length_cons] at hlimit
      have hshort : ¬ (false = true ∨ limit < z.length) := by
        simp only [Bool.false_eq_true, false_or]
        omega
      rw [List.append_assoc, List.cons_append, kept_append_sep hz, if_neg hshort, ih (by omega),
        List.splitOn_append_cons_self_of_not_mem hz, List.cons_append]

/-- The pieces of a stream are those of its beginning and those of the rest behind what the beginning left. -/
theorem kept_append (s u : List α) :
    kept sep limit excess (s ++ u) =
      kept sep limit excess s ++
        kept sep limit (residue sep limit excess s).1 ((residue sep limit excess s).2 ++ u) := by
  induction s using induction_pieces sep generalizing excess with
  | tail s hs =>
      rw [kept_of_none (next_of_not_mem hs), List.nil_append]
      exact kept_congr (next_append_of_none (next_of_not_mem hs) u)
  | head z v hz ih =>
      rw [List.append_assoc, List.cons_append, kept_append_sep hz, kept_append_sep hz, residue_append_sep hz, ih]
      split <;> rfl

theorem residue_append (s u : List α) :
    residue sep limit excess (s ++ u) =
      residue sep limit (residue sep limit excess s).1 ((residue sep limit excess s).2 ++ u) := by
  induction s using induction_pieces sep generalizing excess with
  | tail s hs => exact residue_append_of_none (next_of_not_mem hs) u
  | head z v hz ih => rw [List.append_assoc, List.cons_append, residue_append_sep hz, residue_append_sep hz, ih]

theorem residue_of_next (h : next sep limit excess s = some (piece, rest)) :
    residue sep limit excess s = residue sep limit false rest := by
  induction s using induction_pieces sep generalizing excess with
  | tail s hs =>
      rw [next_of_not_mem hs] at h
      cases h
  | head z v hz ih =>
      rw [next_append_sep hz] at h
      rw [residue_append_sep hz]
      split at h
      · exact ih h
      · obtain ⟨rfl, rfl⟩ := Prod.mk.inj (Option.some.inj h)
        rfl

theorem residue_nil : residue sep limit false [] = (false, []) := by
  simp [residue_of_not_mem]

theorem kept_nil : kept sep limit excess [] = [] := kept_of_none (next_of_not_mem (by simp))

theorem residue_suffix (sep : α) (limit : Nat) (excess : Bool) (s : List α) :
    ∃ gone, s = gone ++ (residue sep limit excess s).2 := by
  induction s using induction_pieces sep generalizing excess with
  | tail s hs =>
      rw [residue_of_not_mem hs]
      split
      · exact ⟨s, (List.append_nil s).symm⟩
      · exact ⟨[], rfl⟩
  | head z v hz ih =>
      obtain ⟨gone, hgone⟩ := ih false
      refine ⟨z ++ sep :: gone, ?_⟩
      rw [residue_append_sep hz, List.append_assoc, List.cons_append, ← hgone]

theorem residue_concat_sep : residue sep limit excess (s ++ [sep]) = (false, []) := by
  induction s using induction_pieces sep generalizing excess with
  | tail s hs => rw [residue_append_sep hs, residue_nil]
  | head z v hz ih => rw [List.append_assoc, List.cons_append, residue_append_sep hz, ih]

theorem residue_settled (h : next sep limit excess s = none) (u : List α) :
    kept sep limit excess (s ++ u) =
      kept sep limit (residue sep limit excess s).1 ((residue sep limit excess s).2 ++ u) := by
  rw [kept_append, kept_of_none h, List.nil_append]

/-! ### Streams whose receiver forgets -/

/-- The pieces kept of a stream that comes in segments, by a receiver that forgets between two of them that the piece at the
front is too long. -/
def forgetful (sep : α) (limit : Nat) (s : List α) : List (List α) → List (List α)
  | [] => kept sep limit false s
  | segment :: segments =>
      kept sep limit false s ++ forgetful sep limit ((residue sep limit false s).2 ++ segment) segments

/-- Between no two segments it forgets about a piece of which the rest would pass for a piece of its own. -/
def NoneLost (sep : α) (limit : Nat) (s : List α) : List (List α) → Prop
  | [] => True
  | segment :: segments =>
      ((residue sep limit false s).1 = true →
        ∀ piece rest, cut sep (segment :: segments).flatten = some (piece, rest) → limit < piece.length) ∧
      NoneLost sep limit ((residue sep limit false s).2 ++ segment) segments

theorem forgetful_of_next {segments : List (List α)} (h : next sep limit false s = some (piece, rest)) :
    forgetful sep limit s segments = piece :: forgetful sep limit rest segments := by
  cases segments with
  | nil => exact kept_of_some h
  | cons segment segments => rw [forgetful, forgetful, kept_of_some h, residue_of_next h, List.cons_append]

theorem residue_excess : (residue sep limit excess s).1 = true → (residue sep limit excess s).2 = [] := by
  induction s using induction_pieces sep generalizing excess with
  | tail s hs =>
      rw [residue_of_not_mem hs]
      split
      · exact fun _ => rfl
      · exact fun h => absurd h Bool.false_ne_true
  | head z v hz ih =>
      rw [residue_append_sep hz]
      exact ih

/-- Forgetting that the first piece is too long keeps its rest where that is within the limit. -/
theorem kept_forgotten (sep : α) (limit : Nat) (s : List α) :
    (kept sep limit true s = kept sep limit false s ∧ ∀ piece rest, cut sep s = some (piece, rest) → limit < piece.length) ∨
      ((kept sep limit true s).length < (kept sep limit false s).length ∧
        ∃ piece rest, cut sep s = some (piece, rest) ∧ piece.length ≤ limit) := by
  rcases cases_first sep s with hs | ⟨z, u, hz, rfl⟩
  · refine Or.inl ⟨?_, fun piece rest hcut => ?_⟩
    · rw [kept_of_none (next_of_not_mem hs), kept_of_none (next_of_not_mem hs)]
    · rw [cut_of_not_mem hs] at hcut
      cases hcut
  · rw [kept_append_sep hz, kept_append_sep hz, if_pos (Or.inl rfl), cut_append_sep hz]
    by_cases hlong : limit < z.length
    · rw [if_pos (Or.inr hlong)]
      refine Or.inl ⟨rfl, fun piece rest hcut => ?_⟩
      obtain ⟨rfl, _⟩ := Prod.mk.inj (Option.some.inj hcut)
      exact hlong
    · rw [if_neg (by simp [hlong])]
      exact Or.inr ⟨Nat.lt_succ_self _, z, u, rfl, Nat.le_of_not_lt hlong⟩

theorem length_forgetful (s : List α) (segments : List (List α)) :
    (kept sep limit false (s ++ segments.flatten)).length ≤ (forgetful sep limit s segments).length := by
  induction segments generalizing s with
  | nil =>
      rw [List.flatten_nil, List.append_nil]
      exact Nat.le_refl _
  | cons segment segments ih =>
      have hlater := ih ((residue sep limit false s).2 ++ segment)
      rw [forgetful, kept_append, List.length_append, List.length_append, List.flatten_cons]
      rw [List.append_assoc] at hlater
      apply Nat.add_le_add_left
      rcases hexcess : (residue sep limit false s).1 with _ | _
      · exact hlater
      · rw [residue_excess hexcess, List.nil_append] at hlater ⊢
        rcases kept_forgotten sep limit (segment ++ segments.flatten) with ⟨hsame, _⟩ | ⟨hfewer, _⟩
        · rw [hsame]
          exact hlater
        · exact Nat.le_trans (Nat.le_of_lt hfewer) hlater

/-- A receiver that forgets keeps the pieces of the whole stream exactly if it never loses one. -/
theorem forgetful_eq_iff (s : List α) (segments : List (List α)) :
    forgetful sep limit s segments = kept sep limit false (s ++ segments.flatten) ↔ NoneLost sep limit s segments := by
  induction segments generalizing s with
  | nil =>
      rw [List.flatten_nil, List.append_nil]
      exact iff_of_true rfl trivial
  | cons segment segments ih =>
      have hlater := ih ((residue sep limit false s).2 ++ segment)
      rw [forgetful, kept_append, List.append_cancel_left_eq, NoneLost, List.flatten_cons]
      rw [List.append_assoc] at hlater
      rcases hexcess : (residue sep limit false s).1 with _ | _
      · rw [hlater]
        simp
      rw [residue_excess hexcess, List.nil_append] at hlater ⊢
      rw [List.nil_append] at hlater ⊢
      have hlength := @length_forgetful α _ sep limit segment segments
      rcases kept_forgotten sep limit (segment ++ segments.flatten) with ⟨hsame, hlong⟩ | ⟨hfewer, piece, rest, hcut, hshort⟩
      · rw [hsame, hlater]
        exact ⟨fun h => ⟨fun _ => hlong, h⟩, fun h => h.2⟩
      · constructor
        · intro heq
          rw [heq] at hlength
          exact absurd hlength (Nat.not_le_of_lt hfewer)
        · intro hlost
          exact absurd (hlost.1 rfl piece rest hcut) (Nat.not_lt_of_le hshort)

theorem accepted_eq_kept (s : List α) : accepted sep limit s = kept sep limit false s := by
  induction hlen : s.length using Nat.strongRecOn generalizing s with
  | ind n ih =>
    subst hlen
    rcases hnext : next sep limit false s with _ | ⟨piece, rest⟩
    · rw [accepted_of_next_none hnext, kept_of_none hnext]
    · rw [accepted_of_next_some hnext, kept_of_some hnext, ih _ (piece_of_next hnext).2.2 rest rfl]

/-! ### Complete pieces -/

/-- The non-empty pieces that end in a stream. -/
def pieces (sep : α) (s : List α) : List (List α) := (s.splitOn sep).dropLast.filter fun piece => !piece.isEmpty

/-- What follows the last separator of a stream. -/
def unended (sep : α) (s : List α) : List α := (s.splitOn sep).getLastD []

theorem pieces_of_not_mem (hs : sep ∉ s) : pieces sep s = [] := by
  simp [pieces, List.splitOn_eq_singleton hs]

theorem unended_of_not_mem (hs : sep ∉ s) : unended sep s = s := by
  simp [unended, List.splitOn_eq_singleton hs]

theorem pieces_append_sep (hz : sep ∉ z) :
    pieces sep (z ++ sep :: u) = if z = [] then pieces sep u else z :: pieces sep u := by
  have hsplit : (z ++ sep :: u).splitOn sep = z :: u.splitOn sep :=
    List.splitOn_append_cons_self_of_not_mem hz u
  rw [pieces, hsplit, List.dropLast_cons_of_ne_nil (List.splitOn_ne_nil sep u), List.filter_cons, pieces]
  cases z <;> simp

theorem unended_append_sep (hz : sep ∉ z) : unended sep (z ++ sep :: u) = unended sep u := by
  have hsplit : (z ++ sep :: u).splitOn sep = z :: u.splitOn sep :=
    List.splitOn_append_cons_self_of_not_mem hz u
  rw [unended, hsplit, unended]
  rcases hu : u.splitOn sep with _ | ⟨piece, more⟩
  · exact absurd hu (List.splitOn_ne_nil sep u)
  · rfl

theorem not_mem_unended (sep : α) (s : List α) : sep ∉ unended sep s := by
  induction s using induction_pieces sep with
  | tail s hs => rwa [unended_of_not_mem hs]
  | head z v hz ih => rwa [unended_append_sep hz]

/-- The pieces of a stream that goes on are those of its beginning and those that end behind what the beginning left open.
-/
theorem pieces_append (s u : List α) : pieces sep (s ++ u) = pieces sep s ++ pieces sep (unended sep s ++ u) := by
  induction s using induction_pieces sep with
  | tail s hs => rw [pieces_of_not_mem hs, unended_of_not_mem hs, List.nil_append]
  | head z v hz ih =>
      rw [List.append_assoc, List.cons_append, pieces_append_sep hz, pieces_append_sep hz, unended_append_sep hz, ih]
      split <;> rfl

theorem unended_append (s u : List α) : unended sep (s ++ u) = unended sep (unended sep s ++ u) := by
  induction s using induction_pieces sep with
  | tail s hs => rw [unended_of_not_mem hs]
  | head z v hz ih => rw [List.append_assoc, List.cons_append, unended_append_sep hz, unended_append_sep hz, ih]

/-- A piece too long ends in a stream. -/
def Long (sep : α) (limit : Nat) (s : List α) : Prop := ∃ piece ∈ pieces sep s, limit < piece.length

theorem long_append_sep (hz : sep ∉ z) (hlong : limit < z.length) : Long sep limit (z ++ sep :: u) := by
  have hz' : z ≠ [] := List.ne_nil_of_length_pos (Nat.lt_of_le_of_lt (Nat.zero_le limit) hlong)
  refine ⟨z, ?_, hlong⟩
  rw [pieces_append_sep hz, if_neg hz']
  exact List.mem_cons_self

theorem Long.append (h : Long sep limit s) (u : List α) : Long sep limit (s ++ u) := by
  obtain ⟨piece, hpiece, hlong⟩ := h
  refine ⟨piece, ?_, hlong⟩
  rw [pieces_append]
  exact List.mem_append_left _ hpiece

theorem long_or_unended (hopen : limit < (unended sep s).length) (u : List α) :
    Long sep limit (s ++ u) ∨ sep ∉ u ∧ pieces sep (s ++ u) = pieces sep s ∧ limit < (unended sep (s ++ u)).length := by
  have hclean := not_mem_unended sep s
  rcases cases_first sep u with hu | ⟨z, v, hz, rfl⟩
  · have hmore : sep ∉ unended sep s ++ u := by simp [hclean, hu]
    refine Or.inr ⟨hu, by rw [pieces_append, pieces_of_not_mem hmore, List.append_nil], ?_⟩
    rw [unended_append, unended_of_not_mem hmore, List.length_append]
    omega
  · have hends : sep ∉ unended sep s ++ z := by simp [hclean, hz]
    have hlonger : limit < (unended sep s ++ z).length := by
      rw [List.length_append]
      omega
    obtain ⟨piece, hpiece, hlong⟩ := long_append_sep (u := v) hends hlonger
    refine Or.inl ⟨piece, ?_, hlong⟩
    rw [pieces_append, ← List.append_assoc]
    exact List.mem_append_right _ hpiece

/-- Up to the first piece kept, a piece too long ends in a stream or there is only this one. -/
theorem pieces_of_next (h : next sep limit excess s = some (piece, rest)) :
    ∃ gone, s = gone ++ rest ∧ sep ∈ gone ∧ unended sep gone = [] ∧
      (excess = false → Long sep limit gone ∨ pieces sep gone = if piece = [] then [] else [piece]) := by
  induction s using induction_pieces sep generalizing excess with
  | tail s hs =>
      rw [next_of_not_mem hs] at h
      cases h
  | head z v hz ih =>
      rw [next_append_sep hz] at h
      split at h
      · rename_i hpassed
        obtain ⟨gone, rfl, hmem, hended, _⟩ := ih h
        refine ⟨z ++ sep :: gone, by simp, by simp, by rw [unended_append_sep hz, hended], fun hexcess => Or.inl ?_⟩
        exact long_append_sep hz (hpassed.resolve_left (by simp [hexcess]))
      · obtain ⟨rfl, rfl⟩ := Prod.mk.inj (Option.some.inj h)
        refine ⟨z ++ [sep], by simp, by simp, by rw [unended_append_sep hz, unended_of_not_mem (by simp)], fun _ => Or.inr ?_⟩
        rw [pieces_append_sep hz, pieces_of_not_mem (by simp)]

/-- With no piece to keep, a piece too long ends in front of the residue, or none ends there and the one that is open is
too long or not begun. -/
theorem pieces_of_none (h : next sep limit excess s = none) :
    ∃ gone, s = gone ++ (residue sep limit excess s).2 ∧
      (excess = false → Long sep limit gone ∨ pieces sep gone = [] ∧
        ((residue sep limit excess s).1 = false ∧ unended sep gone = [] ∨ limit < (unended sep gone).length)) := by
  rcases cases_first sep s with hs | ⟨z, v, hz, rfl⟩
  · rw [residue_of_not_mem hs]
    split
    · rename_i hpassed
      refine ⟨s, (List.append_nil s).symm, fun hexcess => Or.inr ⟨pieces_of_not_mem hs, Or.inr ?_⟩⟩
      rw [unended_of_not_mem hs]
      exact hpassed.resolve_left (by simp [hexcess])
    · exact ⟨[], rfl, fun _ => Or.inr ⟨pieces_of_not_mem (by simp), Or.inl ⟨rfl, unended_of_not_mem (by simp)⟩⟩⟩
  · rw [next_append_sep hz] at h
    split at h
    · rename_i hpassed
      obtain ⟨gone, hgone⟩ := residue_suffix sep limit false v
      refine ⟨z ++ sep :: gone, ?_, fun hexcess => Or.inl ?_⟩
      · rw [residue_append_sep hz, List.append_assoc, List.cons_append, ← hgone]
      · exact long_append_sep hz (hpassed.resolve_left (by simp [hexcess]))
    · cases h

/-! ### Streams with no piece too long -/

/-- Every piece of a stream is within the limit, and so is what follows the last separator. -/
def Within (sep : α) (limit : Nat) (s : List α) : Prop := ∀ piece ∈ s.splitOn sep, piece.length ≤ limit

theorem within_of_not_mem (hs : sep ∉ s) : Within sep limit s ↔ s.length ≤ limit := by
  simp [Within, List.splitOn_eq_singleton hs]

theorem within_append_sep (hz : sep ∉ z) :
    Within sep limit (z ++ sep :: u) ↔ z.length ≤ limit ∧ Within sep limit u := by
  simp [Within, List.splitOn_append_cons_self_of_not_mem hz]

theorem within_nil : Within sep limit [] := (within_of_not_mem List.not_mem_nil).mpr (Nat.zero_le limit)

theorem Within.left (h : Within sep limit (s ++ u)) (hs : sep ∉ s) : s.length ≤ limit := by
  rcases cases_first sep u with hu | ⟨z, v, hz, rfl⟩
  · rw [within_of_not_mem (by simp [hs, hu]), List.length_append] at h
    omega
  · rw [← List.append_assoc, within_append_sep (by simp [hs, hz]), List.length_append] at h
    omega

theorem Within.append (h : Within sep limit s) (hrest : residue sep limit false s = (false, [])) (hu : Within sep limit u) :
    Within sep limit (s ++ u) := by
  induction s using induction_pieces sep with
  | tail s hs =>
      rw [residue_of_not_mem hs, if_neg (by simp [(within_of_not_mem hs).mp h])] at hrest
      obtain ⟨_, rfl⟩ := Prod.mk.inj hrest
      exact hu
  | head z v hz ih =>
      rw [residue_append_sep hz] at hrest
      obtain ⟨hlength, hv⟩ := (within_append_sep hz).mp h
      rw [List.append_assoc, List.cons_append]
      exact (within_append_sep hz).mpr ⟨hlength, ih hv hrest⟩

theorem Within.holds (h : Within sep limit (s ++ u)) (hnext : next sep limit false s = none) :
    sep ∉ s ∧ residue sep limit false s = (false, s) := by
  rcases cases_first sep s with hs | ⟨z, v, hz, rfl⟩
  · refine ⟨hs, ?_⟩
    rw [residue_of_not_mem hs, if_neg (by simp [h.left hs])]
  · rw [List.append_assoc, List.cons_append, within_append_sep hz] at h
    rw [next_append_sep hz, if_neg (by simp [h.1])] at hnext
    cases hnext

theorem Within.behind (h : Within sep limit (s ++ u)) (hnext : next sep limit false s = some (piece, rest)) :
    sep ∈ s ∧ Within sep limit (rest ++ u) := by
  rcases cases_first sep s with hs | ⟨z, v, hz, rfl⟩
  · rw [next_of_not_mem hs] at hnext
    cases hnext
  · rw [List.append_assoc, List.cons_append, within_append_sep hz] at h
    rw [next_append_sep hz, if_neg (by simp [h.1])] at hnext
    obtain ⟨rfl, rfl⟩ := Prod.mk.inj (Option.some.inj hnext)
    exact ⟨by simp, h.2⟩

/-! ### Receivers alike -/

/-- Where a receiver stands in front of a stream, its dropped pieces gone. -/
def settled (sep : α) (limit : Nat) (excess : Bool) (s : List α) : Bool × List α :=
  match _h : cut sep s with
  | none => if excess = true ∨ limit < s.length then (true, []) else (false, s)
  | some (piece, rest) =>
      if excess = true ∨ limit < piece.length then settled sep limit false rest else (false, s)
termination_by s.length
decreasing_by exact length_of_cut (by assumption)

theorem settled_of_not_mem (hs : sep ∉ s) :
    settled sep limit excess s = if excess = true ∨ limit < s.length then (true, []) else (false, s) := by
  rw [settled]
  split
  · rfl
  · rename_i hcut
    rw [cut_of_not_mem hs] at hcut
    cases hcut

theorem settled_append_sep (hz : sep ∉ z) :
    settled sep limit excess (z ++ sep :: u) =
      if excess = true ∨ limit < z.length then settled sep limit false u else (false, z ++ sep :: u) := by
  rw [settled]
  split
  · rename_i hcut
    rw [cut_append_sep hz] at hcut
    cases hcut
  · rename_i hcut
    rw [cut_append_sep hz] at hcut
    obtain ⟨rfl, rfl⟩ := Prod.mk.inj (Option.some.inj hcut)
    rfl

theorem next_settled (sep : α) (limit : Nat) (excess : Bool) (s : List α) :
    next sep limit (settled sep limit excess s).1 (settled sep limit excess s).2 = next sep limit excess s := by
  induction s using induction_pieces sep generalizing excess with
  | tail s hs =>
      rw [settled_of_not_mem hs, next_of_not_mem hs]
      split
      · exact next_of_not_mem List.not_mem_nil
      · exact next_of_not_mem hs
  | head z v hz ih =>
      rw [settled_append_sep hz, next_append_sep hz]
      split
      · exact ih false
      · rename_i hover
        rw [next_append_sep hz, if_neg (fun h => hover (Or.inr (h.resolve_left Bool.false_ne_true)))]

theorem settled_of_none (h : next sep limit excess s = none) :
    settled sep limit excess s = residue sep limit excess s := by
  induction s using induction_pieces sep generalizing excess with
  | tail s hs => rw [settled_of_not_mem hs, residue_of_not_mem hs]
  | head z v hz ih =>
      rw [next_append_sep hz] at h
      split at h
      · rename_i hover
        rw [settled_append_sep hz, if_pos hover, residue_append_sep hz]
        exact ih h
      · cases h

theorem settled_settled (sep : α) (limit : Nat) (excess : Bool) (s : List α) :
    settled sep limit (settled sep limit excess s).1 (settled sep limit excess s).2 = settled sep limit excess s := by
  induction s using induction_pieces sep generalizing excess with
  | tail s hs =>
      rw [settled_of_not_mem hs]
      split
      · rw [settled_of_not_mem List.not_mem_nil, if_pos (Or.inl rfl)]
      · rename_i hover
        rw [settled_of_not_mem hs, if_neg (fun h => hover (Or.inr (h.resolve_left Bool.false_ne_true)))]
  | head z v hz ih =>
      rw [settled_append_sep hz]
      split
      · exact ih false
      · rename_i hover
        rw [settled_append_sep hz, if_neg (fun h => hover (Or.inr (h.resolve_left Bool.false_ne_true)))]

theorem settled_over_append (hz : sep ∉ z) (hover : excess = true ∨ limit < z.length) :
    settled sep limit excess (z ++ u) = settled sep limit true u := by
  have hlong : ∀ y : List α, excess = true ∨ limit < (z ++ y).length := by
    intro y
    rw [List.length_append]
    exact hover.imp_right fun hlong => Nat.lt_of_lt_of_le hlong (Nat.le_add_right _ _)
  rcases cases_first sep u with hu | ⟨y, v, hy, rfl⟩
  · rw [settled_of_not_mem (by simp [hz, hu]), settled_of_not_mem hu, if_pos (hlong u), if_pos (Or.inl rfl)]
  · rw [← List.append_assoc, settled_append_sep (by simp [hz, hy]), settled_append_sep hy, if_pos (hlong y),
      if_pos (Or.inl rfl)]

/-- More symbols come behind where the receiver stands. -/
theorem settled_append (sep : α) (limit : Nat) (excess : Bool) (s u : List α) :
    settled sep limit excess (s ++ u) =
      settled sep limit (settled sep limit excess s).1 ((settled sep limit excess s).2 ++ u) := by
  induction s using induction_pieces sep generalizing excess with
  | tail s hs =>
      rw [settled_of_not_mem hs]
      split
      · rename_i hover
        rw [List.nil_append]
        exact settled_over_append hs hover
      · rename_i hover
        rw [show excess = false by simpa using fun h => hover (Or.inl h)]
  | head z v hz ih =>
      rw [List.append_assoc, List.cons_append, settled_append_sep hz, settled_append_sep hz]
      split
      · exact ih false
      · rename_i hover
        rw [List.append_assoc, List.cons_append, settled_append_sep hz,
          if_neg (fun h => hover (Or.inr (h.resolve_left Bool.false_ne_true)))]

/-! ### Empty pieces -/

/-- How many empty pieces end in a stream, that begins a piece or goes on with one. -/
def empties (sep : α) : Bool → List α → Nat
  | _, [] => 0
  | begins, a :: s => if a = sep then (if begins then 1 else 0) + empties sep true s else empties sep false s

/-- Whether what comes behind the stream begins a piece. -/
def begins (sep : α) : Bool → List α → Bool
  | start, [] => start
  | _, a :: s => begins sep (decide (a = sep)) s

theorem empties_append (sep : α) (start : Bool) (s u : List α) :
    empties sep start (s ++ u) = empties sep start s + empties sep (begins sep start s) u := by
  induction s generalizing start with
  | nil => exact (Nat.zero_add _).symm
  | cons a s ih =>
      rw [List.cons_append, empties, empties, begins]
      by_cases ha : a = sep
      · rw [if_pos ha, if_pos ha, decide_eq_true ha, ih, Nat.add_assoc]
      · rw [if_neg ha, if_neg ha, decide_eq_false ha, ih]

theorem empties_of_not_mem (start : Bool) (hs : sep ∉ s) : empties sep start s = 0 := by
  induction s generalizing start with
  | nil => rfl
  | cons a s ih =>
      have ha : a ≠ sep := fun h => hs (h ▸ List.mem_cons_self)
      rw [empties, if_neg ha, ih false fun h => hs (List.mem_cons_of_mem a h)]

theorem begins_of_not_mem (start : Bool) (hs : sep ∉ s) : begins sep start s = (start && s.isEmpty) := by
  induction s generalizing start with
  | nil => simp [begins]
  | cons a s ih =>
      have ha : a ≠ sep := fun h => hs (h ▸ List.mem_cons_self)
      rw [begins, decide_eq_false ha, ih false fun h => hs (List.mem_cons_of_mem a h)]
      simp

theorem empties_append_sep (start : Bool) (hz : sep ∉ z) :
    empties sep start (z ++ sep :: u) = (if start && z.isEmpty then 1 else 0) + empties sep true u := by
  rw [empties_append, empties_of_not_mem start hz, begins_of_not_mem start hz, empties, if_pos rfl, Nat.zero_add]

/-- No empty piece ends in a part of one that is not empty. -/
theorem empties_take (start : Bool) (hz : sep ∉ z) (hne : z ≠ []) (count : Nat) :
    empties sep start ((z ++ [sep]).take count) = 0 := by
  rcases Nat.lt_or_ge z.length count with hall | hpart
  · rw [List.take_of_length_le (by simpa using Nat.succ_le_of_lt hall), empties_append_sep start hz]
    simp [hne, empties]
  · rw [List.take_append_of_le_length hpart]
    exact empties_of_not_mem start fun h => hz (List.mem_of_mem_take h)

theorem empties_le_length (sep : α) (start : Bool) (s : List α) : empties sep start s ≤ s.length := by
  induction s generalizing start with
  | nil => exact Nat.le_refl 0
  | cons a s ih =>
      have htrue := ih true
      have hfalse := ih false
      rw [empties, List.length_cons]
      split
      · split <;> omega
      · omega

theorem count_accepted (sep : α) (limit : Nat) (s : List α) :
    (accepted sep limit s).countP List.isEmpty = empties sep true s := by
  induction s using induction_pieces sep with
  | tail s hs => rw [accepted_of_not_mem hs, empties_of_not_mem true hs, List.countP_nil]
  | head z u hz ih =>
      rw [accepted_append_sep hz, empties_append_sep true hz]
      rcases z with _ | ⟨a, z⟩
      · simp [ih, Nat.add_comm]
      · split <;> simp [ih]

end Delimited
