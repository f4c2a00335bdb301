/-!
# Where a condition comes from

A machine does an action after another. A condition that holds of it now and did not hold at its start began with one of the
actions, and has held since (`exists_since`).
-/

universe u

namespace Onset

variable {S Action : Type u} {step : S → Action → S} {start : S} {actions : List Action} {P : S → Prop} {m n : Nat}

/-- The state in front of the action of this number. -/
def stateAt (step : S → Action → S) (start : S) (actions : List Action) (n : Nat) : S := (actions.take n).foldl step start

theorem stateAt_length : stateAt step start actions actions.length = actions.foldl step start := by
  rw [stateAt, List.take_length]

theorem stateAt_succ (h : m < actions.length) :
    stateAt step start actions (m + 1) = step (stateAt step start actions m) actions[m] := by
  rw [stateAt, List.take_succ_eq_append_getElem h, List.foldl_append]
  rfl

/-- The condition begins with the action of the first number and holds up to the second. -/
structure Since (step : S → Action → S) (start : S) (actions : List Action) (P : S → Prop) (m n : Nat) : Prop where
  lt : m < n
  begins : ¬ P (stateAt step start actions m)
  holds : ∀ i, m < i → i ≤ n → P (stateAt step start actions i)

theorem exists_since (hstart : ¬ P start) (hnow : P (stateAt step start actions n)) :
    ∃ m, Since step start actions P m n := by
  induction n with
  | zero => exact absurd hnow hstart
  | succ n ih =>
      by_cases hbefore : P (stateAt step start actions n)
      · obtain ⟨m, hlt, hbegins, hholds⟩ := ih hbefore
        refine ⟨m, Nat.lt_succ_of_lt hlt, hbegins, ?_⟩
        intro i hmi hin
        rcases Nat.lt_or_eq_of_le hin with hlater | rfl
        · exact hholds i hmi (Nat.le_of_lt_succ hlater)
        · exact hnow
      · refine ⟨n, Nat.lt_succ_self n, hbefore, ?_⟩
        intro i hni hin
        obtain rfl : i = n + 1 := Nat.le_antisymm hin hni
        exact hnow

namespace Since

theorem action (h : Since step start actions P m n) (hn : n ≤ actions.length) :
    ∃ hm : m < actions.length, P (step (stateAt step start actions m) actions[m]) := by
  have hm : m < actions.length := Nat.lt_of_lt_of_le h.lt hn
  have hbegun := h.holds (m + 1) (Nat.lt_succ_self m) h.lt
  rw [stateAt_succ hm] at hbegun
  exact ⟨hm, hbegun⟩

end Since

end Onset
