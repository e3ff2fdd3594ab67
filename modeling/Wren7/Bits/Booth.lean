import Mathlib.Data.BitVec
import Mathlib.Data.Int.ModEq
import Mathlib.Tactic.Ring
import Mathlib.Tactic.Common

/-!
# Booth recoding

A natural number as a sum of signed radix-4 digits. A digit is made of two bits of the number and
the borrow that the digit below has left; cut off after any number of digits, the sum misses the
number by the last borrow only.
-/

namespace Bits

/-- The digit of two bits and the borrow from below. -/
def recode (b1 b0 borrow : Bool) : ℤ := (b0.toNat + borrow.toNat : ℕ) - 2 * (b1.toNat : ℕ)

/-- The borrow into digit `k`: the upper bit of the digit below. -/
def borrowAt (n : ℕ) : ℕ → Bool
  | 0 => false
  | k + 1 => n.testBit (2 * k + 1)

def boothDigit (n k : ℕ) : ℤ := recode (n.testBit (2 * k + 1)) (n.testBit (2 * k)) (borrowAt n k)

/-- The sum of the first `k` digits. -/
def boothSum (n : ℕ) : ℕ → ℤ
  | 0 => 0
  | k + 1 => boothSum n k + boothDigit n k * 4 ^ k

lemma testBit_toNat (n i : ℕ) : (n.testBit i).toNat = n / 2 ^ i % 2 := by
  rw [Nat.testBit_eq_decide_div_mod_eq]
  rcases Nat.mod_two_eq_zero_or_one (n / 2 ^ i) with h | h <;> simp [h]

/-- The two bits of a digit. -/
lemma div_four_pow_mod (n k : ℕ) :
    n / 4 ^ k % 4 = 2 * (n.testBit (2 * k + 1)).toNat + (n.testBit (2 * k)).toNat := by
  have h4 : (4 : ℕ) ^ k = 2 ^ (2 * k) := by rw [Nat.pow_mul]
  rw [testBit_toNat, testBit_toNat, h4, Nat.pow_succ, ← Nat.div_div_eq_div_mul]
  omega

/-- The digits below position `k` sum up to the number below it, less the borrow. -/
theorem boothSum_eq (n k : ℕ) :
    boothSum n k = (n % 4 ^ k : ℕ) - ((borrowAt n k).toNat : ℕ) * 4 ^ k := by
  induction k with
  | zero => simp [boothSum, borrowAt, Nat.mod_one]
  | succ k ih =>
    have hmod : (n % 4 ^ (k + 1) : ℕ) = n % 4 ^ k + 4 ^ k * (n / 4 ^ k % 4) := Nat.mod_pow_succ
    rw [boothSum, ih, hmod, div_four_pow_mod, boothDigit, recode, borrowAt]
    push_cast
    ring

/-- Modulo the weight of the next digit nothing is missing. -/
lemma boothSum_modEq (n k : ℕ) : boothSum n k ≡ n [ZMOD 4 ^ k] := by
  rw [boothSum_eq]
  calc ((n % 4 ^ k : ℕ) : ℤ) - ((borrowAt n k).toNat : ℕ) * 4 ^ k
      ≡ (n % 4 ^ k : ℕ) - 0 [ZMOD 4 ^ k] :=
        Int.ModEq.sub_left _ (Int.modEq_zero_iff_dvd.mpr (Dvd.intro_left _ rfl))
    _ ≡ n [ZMOD 4 ^ k] := by
        rw [sub_zero, Int.natCast_mod]
        exact_mod_cast Nat.mod_modEq n (4 ^ k)

/-- A number without a bit from the upper one of digit `k` on is the sum of its digits up to it. -/
lemma boothSum_of_lt {n k : ℕ} (h : n < 2 ^ (2 * k + 1)) : boothSum n (k + 1) = n := by
  have hpow : (4 : ℕ) ^ (k + 1) = 2 ^ (2 * k + 1) * 2 := by
    rw [← Nat.pow_succ, show (4 : ℕ) = 2 ^ 2 by rfl, ← Nat.pow_mul]
    congr 1
  have hb : borrowAt n (k + 1) = false := Nat.testBit_lt_two_pow h
  rw [boothSum_eq, hb, Nat.mod_eq_of_lt (by omega)]
  simp

/-! ### Products -/

lemma shiftLeft_eq_mul_pow {w : ℕ} (x : BitVec w) (n : ℕ) : x <<< n = x * 2 ^ n := by
  induction n with
  | zero => simp
  | succ n ih =>
    have h : ∀ y : BitVec w, y <<< 1 = y * 2 := fun y => by
      apply BitVec.eq_of_toNat_eq
      rw [BitVec.toNat_shiftLeft, BitVec.toNat_mul, Nat.shiftLeft_eq, pow_one]
      simp [Nat.mul_mod]
    rw [BitVec.shiftLeft_add, h, ih, pow_succ, mul_assoc]

lemma intCast_eq_of_modEq {w : ℕ} {y : BitVec w} {z : ℤ} (h : z ≡ y.toNat [ZMOD (2 ^ w : ℕ)]) :
    (z : BitVec w) = y := by
  apply BitVec.eq_of_toInt_eq
  rw [BitVec.toInt_intCast, BitVec.toInt_eq_toNat_bmod, Int.bmod_eq_bmod_iff_bmod_sub_eq_zero,
    ← Int.dvd_iff_bmod_eq_zero]
  exact Int.modEq_iff_dvd.mp h.symm

/-- The digits give back a vector if they reach its width, or the upper bit of the last one and
all bits above are clear. -/
theorem boothSum_cast {w k : ℕ} (y : BitVec w) (h : w ≤ 2 * k ∨ 1 ≤ k ∧ y.toNat < 2 ^ (2 * k - 1)) :
    (boothSum y.toNat k : BitVec w) = y := by
  refine intCast_eq_of_modEq ?_
  rcases h with h | ⟨hk, h⟩
  · refine (boothSum_modEq y.toNat k).of_dvd ?_
    have hpow : (4 : ℕ) ^ k = 2 ^ (2 * k) := by rw [Nat.pow_mul]
    exact_mod_cast hpow ▸ Nat.pow_dvd_pow 2 h
  · obtain ⟨j, rfl⟩ := Nat.exists_eq_add_of_le' hk
    rw [boothSum_of_lt (by rwa [show 2 * (j + 1) - 1 = 2 * j + 1 by omega] at h)]

end Bits
