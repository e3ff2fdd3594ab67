import Mathlib.Tactic.IntervalCases
import Mathlib.Tactic.Common
import Wren7.Bits.Words

/-!
# Placing fields in a word

Instruction words are made by shifting fields to their places. What a field or a bit of the result
is follows from where each of the parts lies.
-/

namespace Bits

variable {m n : ℕ} {w v : Word} {lo k i : ℕ}

/-- The vector `x` shifted to bit `k` of a word. -/
def place (x : BitVec m) (k : ℕ) : Word := x.setWidth 32 <<< k

lemma bit_or : bit (w ||| v) i = (bit w i || bit v i) := BitVec.getLsbD_or

lemma bit_place (x : BitVec m) : bit (place x k) i =
    (decide (i < 32) && decide (k ≤ i) && decide (i < k + m) && bit x (i - k)) := by
  rw [bit, place, BitVec.getLsbD_shiftLeft, BitVec.getLsbD_setWidth, bit]
  by_cases h32 : i < 32
  · by_cases hk : k ≤ i
    · by_cases h : i < k + m
      · simp [h32, hk, h, show i - k < 32 by omega]
      · simp [h, BitVec.getLsbD_of_ge x (i - k) (by omega)]
    · simp [hk, show i < k by omega]
  · simp [h32]

lemma field_or : field (w ||| v) lo n = field w lo n ||| field v lo n := by
  apply BitVec.eq_of_getLsbD_eq
  intro j hj
  simp [field, hj]

/-- The field of which the vector is the contents. -/
lemma field_place (x : BitVec n) (h : k + n ≤ 32) : field (place x k) k n = x := by
  apply BitVec.eq_of_getLsbD_eq
  intro j hj
  rw [field, BitVec.getLsbD_extractLsb', ← bit, bit_place]
  simp [hj, bit]
  omega

/-- A field below the vector, or above it. -/
lemma field_place_of_disjoint (x : BitVec m) (h : lo + n ≤ k ∨ k + m ≤ lo) :
    field (place x k) lo n = 0 := by
  apply BitVec.eq_of_getLsbD_eq
  intro j hj
  rw [field, BitVec.getLsbD_extractLsb', ← bit, bit_place]
  rcases h with h | h
  · simp [show ¬k ≤ lo + j by omega]
  · simp [show ¬lo + j < k + m by omega]

end Bits
