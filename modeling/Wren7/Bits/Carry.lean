import Mathlib.Algebra.BigOperators.Intervals
import Mathlib.Tactic.Linarith
import Mathlib.Tactic.Ring
import Wren7.Bits.Words

/-!
# Carry chains

An adder with a carry input over words of any width, and numbers of several words. Adding word by
word, the carry out of one word being the carry into the next, adds the numbers; with one operand
complemented and the carry set at the start it subtracts them.
-/

namespace Bits

open Finset

variable {k n : ℕ}

/-! ### One word -/

section Word

variable (x y r : BitVec k) (c : Bool)

/-- The sum of two words and a carry. -/
def addc : BitVec k := x + y + BitVec.ofNat k c.toNat

/-- Two operands of one sign and a result of the other. -/
def signFlip : Bool := x.msb == y.msb && !(r.msb == x.msb)

/-- An integer does not fit in `k` bits with a sign. -/
def Overflows (k : ℕ) (z : ℤ) : Prop := 2 ^ (k - 1) ≤ z ∨ z < -2 ^ (k - 1)

lemma addc_false : addc x y false = x + y := BitVec.add_zero _

/-- Subtraction is the addition of the complement, and of one. -/
lemma addc_not : addc x (~~~y) true = x - y := by
  rw [BitVec.sub_eq_add_neg, BitVec.neg_eq_not_add, ← BitVec.add_assoc]
  rfl

lemma toNat_addc : (addc x y c).toNat + (BitVec.carry k x y c).toNat * 2 ^ k =
    x.toNat + y.toNat + c.toNat := by
  have hx := x.isLt
  have hy := y.isLt
  have hc : c.toNat ≤ 1 := Bool.toNat_le c
  have hsum : (addc x y c).toNat = (x.toNat + y.toNat + c.toNat) % 2 ^ k := by
    simp [addc, BitVec.toNat_add]
  rw [hsum, BitVec.carry_width]
  by_cases h : 2 ^ k ≤ x.toNat + y.toNat + c.toNat
  · rw [decide_eq_true h, Nat.mod_eq_sub_mod h, Nat.mod_eq_of_lt (by omega), Bool.toNat_true]
    omega
  · rw [decide_eq_false h, Nat.mod_eq_of_lt (by omega), Bool.toNat_false]
    omega

variable {x y r c} in
/-- The value with its carry determines both. -/
lemma eq_addc {c' : Bool}
    (h : r.toNat + c'.toNat * 2 ^ k = x.toNat + y.toNat + c.toNat) :
    r = addc x y c ∧ c' = BitVec.carry k x y c := by
  have hr := r.isLt
  have hs := (addc x y c).isLt
  rw [← toNat_addc] at h
  cases c' <;> cases hc : BitVec.carry k x y c <;>
    simp only [hc, Bool.toNat_true, Bool.toNat_false] at h
  · exact ⟨BitVec.eq_of_toNat_eq (by omega), rfl⟩
  · omega
  · omega
  · exact ⟨BitVec.eq_of_toNat_eq (by omega), rfl⟩

lemma carry_add_iff : BitVec.carry k x y false = true ↔ 2 ^ k ≤ x.toNat + y.toNat := by
  rw [BitVec.carry_width, decide_eq_true_iff]
  rfl

/-- No borrow. -/
lemma carry_not_iff : BitVec.carry k x (~~~y) true = true ↔ y ≤ x := by
  rw [← BitVec.ule_eq_carry, BitVec.ule, decide_eq_true_iff, BitVec.le_def]

lemma signFlip_add_iff : signFlip x y (x + y) = true ↔ Overflows k (x.toInt + y.toInt) := by
  rw [signFlip, ← BitVec.saddOverflow_eq]
  simp [BitVec.saddOverflow, Overflows]

variable (hk : 0 < k)

include hk

lemma signFlip_sub : signFlip x (~~~y) (x - y) = BitVec.ssubOverflow x y := by
  rw [signFlip, BitVec.ssubOverflow_eq, BitVec.msb_not, decide_eq_true hk, Bool.true_and]
  cases x.msb <;> cases y.msb <;> simp

lemma signFlip_sub_iff : signFlip x (~~~y) (x - y) = true ↔ Overflows k (x.toInt - y.toInt) := by
  rw [signFlip_sub x y hk]
  simp [BitVec.ssubOverflow, Overflows]

/-- A difference that overflows has the wrong sign. -/
lemma slt_iff : x.toInt < y.toInt ↔ (x - y).msb ≠ signFlip x (~~~y) (x - y) := by
  rw [signFlip_sub x y hk]
  cases h : BitVec.ssubOverflow x y with
  | false =>
    rw [Bool.ne_false_iff, BitVec.msb_eq_toInt, decide_eq_true_iff,
      BitVec.toInt_sub_of_not_ssubOverflow (by simp [h])]
    omega
  | true =>
    have hx : x.msb = true ↔ x.toInt < 0 := by simp [BitVec.msb_eq_toInt]
    have hy : y.msb = true ↔ y.toInt < 0 := by simp [BitVec.msb_eq_toInt]
    rw [BitVec.ssubOverflow_eq] at h
    cases hxm : x.msb <;> cases hym : y.msb <;> simp [hxm, hym] at h hx hy ⊢ <;> rw [h] <;> simp
    · omega
    · omega

end Word

/-! ### Numbers of several words -/

section Number

/-- The number whose words are `d 0`, `d 1` and so on, the least significant first. -/
def number (d : ℕ → BitVec k) (n : ℕ) : BitVec (k * n) :=
  BitVec.ofNat _ (∑ i ∈ range n, (d i).toNat * 2 ^ (k * i))

variable (x y r : ℕ → BitVec k) (c : ℕ → Bool)

lemma sum_words_lt (n : ℕ) : ∑ i ∈ range n, (x i).toNat * 2 ^ (k * i) < 2 ^ (k * n) := by
  induction n with
  | zero => simp
  | succ n ih =>
    have hx : (x n).toNat + 1 ≤ 2 ^ k := (x n).isLt
    calc ∑ i ∈ range (n + 1), (x i).toNat * 2 ^ (k * i)
        < ((x n).toNat + 1) * 2 ^ (k * n) := by
          rw [sum_range_succ, Nat.succ_mul, Nat.add_comm]
          exact Nat.add_lt_add_left ih _
      _ ≤ 2 ^ k * 2 ^ (k * n) := Nat.mul_le_mul_right _ hx
      _ = 2 ^ (k * (n + 1)) := by rw [← pow_add, Nat.mul_succ, Nat.add_comm]

lemma toNat_number : (number x n).toNat = ∑ i ∈ range n, (x i).toNat * 2 ^ (k * i) := by
  rw [number, BitVec.toNat_ofNat, Nat.mod_eq_of_lt (sum_words_lt x n)]

lemma toNat_number_succ :
    (number x (n + 1)).toNat = (number x n).toNat + (x n).toNat * 2 ^ (k * n) := by
  rw [toNat_number, toNat_number, sum_range_succ]

/-- The sign of a number is that of its last word. -/
lemma msb_number (hk : 0 < k) : (number x (n + 1)).msb = (x n).msb := by
  have hlt : (number x n).toNat < 2 ^ (k * n) := (number x n).isLt
  have hpow : 2 ^ (k * (n + 1) - 1) = 2 ^ (k - 1) * 2 ^ (k * n) := by
    rw [← pow_add]
    congr 1
    rw [Nat.mul_succ]
    omega
  rw [BitVec.msb_eq_decide, BitVec.msb_eq_decide, toNat_number_succ, hpow, decide_eq_decide]
  constructor
  · intro h
    by_contra hx
    have hle : ((x n).toNat + 1) * 2 ^ (k * n) ≤ 2 ^ (k - 1) * 2 ^ (k * n) :=
      Nat.mul_le_mul_right _ (by omega)
    rw [Nat.succ_mul] at hle
    omega
  · intro h
    exact (Nat.mul_le_mul_right _ h).trans (Nat.le_add_left _ _)

/-- Complementing every word complements the number. -/
lemma number_not : number (fun i => ~~~(x i)) n = ~~~(number x n) := by
  suffices h : (number (fun i => ~~~(x i)) n).toNat + (number x n).toNat + 1 = 2 ^ (k * n) by
    apply BitVec.eq_of_toNat_eq
    rw [BitVec.toNat_not]
    omega
  induction n with
  | zero => simp [toNat_number]
  | succ n ih =>
    have hx : (~~~(x n)).toNat + (x n).toNat + 1 = 2 ^ k := by
      have := (x n).isLt
      rw [BitVec.toNat_not]
      omega
    calc (number (fun i => ~~~(x i)) (n + 1)).toNat + (number x (n + 1)).toNat + 1
        = (number (fun i => ~~~(x i)) n).toNat + (number x n).toNat + 1 +
          ((~~~(x n)).toNat + (x n).toNat) * 2 ^ (k * n) := by
          rw [toNat_number_succ, toNat_number_succ]
          ring
      _ = ((~~~(x n)).toNat + (x n).toNat + 1) * 2 ^ (k * n) := by rw [ih]; ring
      _ = 2 ^ (k * (n + 1)) := by rw [hx, Nat.mul_succ, pow_add, Nat.mul_comm]

variable {x y r c}

lemma toNat_number_addc (hr : ∀ i < n, r i = addc (x i) (y i) (c i))
    (hc : ∀ i < n, c (i + 1) = BitVec.carry k (x i) (y i) (c i)) :
    (number r n).toNat + (c n).toNat * 2 ^ (k * n) =
      (number x n).toNat + (number y n).toNat + (c 0).toNat := by
  induction n with
  | zero => simp [toNat_number]
  | succ n ih =>
    have hn := toNat_addc (x n) (y n) (c n)
    rw [← hr n (Nat.lt_succ_self n), ← hc n (Nat.lt_succ_self n)] at hn
    have hih := ih (fun i hi => hr i (by omega)) (fun i hi => hc i (by omega))
    calc (number r (n + 1)).toNat + (c (n + 1)).toNat * 2 ^ (k * (n + 1))
        = (number r n).toNat + ((r n).toNat + (c (n + 1)).toNat * 2 ^ k) * 2 ^ (k * n) := by
          rw [toNat_number_succ, Nat.mul_succ, pow_add]
          ring
      _ = (number r n).toNat + (c n).toNat * 2 ^ (k * n) +
          ((x n).toNat + (y n).toNat) * 2 ^ (k * n) := by
          rw [hn]
          ring
      _ = (number x n).toNat + (number y n).toNat + (c 0).toNat +
          ((x n).toNat + (y n).toNat) * 2 ^ (k * n) := by rw [hih]
      _ = (number x (n + 1)).toNat + (number y (n + 1)).toNat + (c 0).toNat := by
          rw [toNat_number_succ, toNat_number_succ]
          ring

/-- A carry chain adds the numbers, and its last carry is theirs. -/
theorem number_addc (hr : ∀ i < n, r i = addc (x i) (y i) (c i))
    (hc : ∀ i < n, c (i + 1) = BitVec.carry k (x i) (y i) (c i)) :
    number r n = addc (number x n) (number y n) (c 0) ∧
      c n = BitVec.carry (k * n) (number x n) (number y n) (c 0) :=
  eq_addc (toNat_number_addc hr hc)

lemma signFlip_number (hk : 0 < k) : signFlip (number x (n + 1)) (number y (n + 1))
    (number r (n + 1)) = signFlip (x n) (y n) (r n) := by
  simp only [signFlip, msb_number _ hk]

end Number

end Bits
