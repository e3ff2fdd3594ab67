import Mathlib.Tactic.Common

/-!
# Delay lines

A shift register takes one level in each step and moves all others on by one place. What stands in a
place is the level of some steps before, or what the register held at first.
-/

namespace Reactive

variable {α : Type*}

/-- The level `n` steps before step `m`; before the first step, what the register held. -/
def delayed (held x : ℕ → α) (n m : ℕ) : α := if n ≤ m then x (m - n) else held (n - 1 - m)

/-- The places of a shift register of `w` places in the course of time. -/
structure Shifts (w : ℕ) (line : ℕ → ℕ → α) (x : ℕ → α) : Prop where
  first : ∀ m, line (m + 1) 0 = x m
  move : ∀ m i, i + 1 < w → line (m + 1) (i + 1) = line m i

lemma Shifts.eq_delayed {w : ℕ} {line : ℕ → ℕ → α} {x : ℕ → α} (h : Shifts w line x) {i : ℕ}
    (hi : i < w) (m : ℕ) : line m i = delayed (line 0) x (i + 1) m := by
  induction m generalizing i with
  | zero => exact (if_neg (Nat.not_succ_le_zero i)).symm
  | succ m ih =>
    cases i with
    | zero =>
      rw [h.first, delayed, if_pos (Nat.le_add_left 1 m)]
      rfl
    | succ i =>
      rw [h.move m i hi, ih (Nat.lt_of_succ_lt hi), delayed, delayed]
      by_cases hle : i + 1 ≤ m
      · rw [if_pos hle, if_pos (Nat.succ_le_succ hle), Nat.add_sub_add_right]
      · rw [if_neg hle, if_neg fun h => hle (Nat.le_of_succ_le_succ h)]
        congr 1
        omega

end Reactive
