import Mathlib.Tactic.Common
import Wren7.Bits.Words

/-!
# The set bits of a vector

The positions of the ones of a vector in ascending order, walked in two ways: by shifting the part
that is done out of the vector, and by clearing the lowest one.
-/

namespace Bits

variable {n : ℕ} {l : BitVec n} {r k : ℕ}

/-- The positions of the ones from `r` on. -/
def setBitsFrom (l : BitVec n) (r : ℕ) : List ℕ := (List.range' r (n - r)).filter fun i => bit l i

/-- The positions of the ones. -/
def setBits (l : BitVec n) : List ℕ := setBitsFrom l 0

/-- The lowest position of a one; the width of the vector if there is none. -/
def lowest (l : BitVec n) : ℕ := l.ctz.toNat

lemma mem_setBitsFrom {i : ℕ} : i ∈ setBitsFrom l r ↔ r ≤ i ∧ i < n ∧ bit l i = true := by
  simp only [setBitsFrom, List.mem_filter, List.mem_range'_1]
  refine ⟨fun h => ⟨h.1.1, by omega, h.2⟩, fun h => ⟨⟨h.1, by omega⟩, h.2.2⟩⟩

lemma mem_setBits {i : ℕ} : i ∈ setBits l ↔ i < n ∧ bit l i = true := by
  simp [setBits, mem_setBitsFrom]

lemma setBitsFrom_eq_nil (h : ∀ i, r ≤ i → i < n → bit l i = false) : setBitsFrom l r = [] := by
  rw [List.eq_nil_iff_forall_not_mem]
  intro i hi
  obtain ⟨hr, hn, hb⟩ := mem_setBitsFrom.mp hi
  simp [h i hr hn] at hb

/-- The list from `r` on begins with the first one found there. -/
lemma setBitsFrom_eq_cons (hr : r ≤ k) (hk : k < n) (hb : bit l k = true)
    (h : ∀ i, r ≤ i → i < k → bit l i = false) : setBitsFrom l r = k :: setBitsFrom l (k + 1) := by
  have hsplit : List.range' r (n - r) = List.range' r (k - r) ++ List.range' k (n - k) := by
    rw [show n - r = (k - r) + (n - k) by omega, ← List.range'_append_1]
    congr 2
    omega
  have hnil : (List.range' r (k - r)).filter (fun i => bit l i) = [] := by
    rw [List.filter_eq_nil_iff]
    intro i hi
    have := List.mem_range'_1.mp hi
    simp [h i (by omega) (by omega)]
  have hcons : List.range' k (n - k) = k :: List.range' (k + 1) (n - (k + 1)) := by
    rw [show n - k = (n - (k + 1)) + 1 by omega, List.range'_succ]
  rw [setBitsFrom, hsplit, List.filter_append, hnil, List.nil_append, hcons, List.filter_cons]
  simp [hb, setBitsFrom]

/-! ### The lowest one -/

lemma lowest_lt (h : l ≠ 0) : lowest l < n := by
  have := BitVec.ctz_lt_iff_ne_zero.mpr h
  rw [BitVec.lt_def] at this
  simp only [BitVec.natCast_eq_ofNat, BitVec.toNat_ofNat] at this
  exact Nat.lt_of_lt_of_le this (Nat.mod_le _ _)

lemma bit_lowest (h : l ≠ 0) : bit l (lowest l) = true := BitVec.getLsbD_true_ctz_of_ne_zero h

lemma bit_of_lt_lowest {i : ℕ} (h : i < lowest l) : bit l i = false :=
  BitVec.getLsbD_false_of_lt_ctz h

lemma lowest_le {i : ℕ} (h : bit l i = true) : lowest l ≤ i := by
  by_contra hlt
  rw [bit_of_lt_lowest (by omega)] at h
  cases h

/-- The lowest one is the only one with none below it. -/
lemma eq_lowest (hb : bit l k = true) (h : ∀ i < k, bit l i = false) : lowest l = k := by
  have hle := lowest_le hb
  rcases Nat.lt_or_ge (lowest l) k with hlt | hge
  · have h0 : l ≠ 0 := by rintro rfl; simp [bit] at hb
    have := h _ hlt
    rw [bit_lowest h0] at this
    cases this
  · omega

lemma setBits_eq_cons (h : l ≠ 0) : setBits l = lowest l :: setBitsFrom l (lowest l + 1) :=
  setBitsFrom_eq_cons (Nat.zero_le _) (lowest_lt h) (bit_lowest h) fun _ _ => bit_of_lt_lowest

/-! ### Walking by shifts -/

lemma bit_ushiftRight (i : ℕ) : bit (l >>> r) i = bit l (r + i) := by
  simp [bit]

lemma setBitsFrom_of_shift_eq_zero (h : l >>> r = 0) : setBitsFrom l r = [] := by
  refine setBitsFrom_eq_nil fun i hr _ => ?_
  obtain ⟨j, rfl⟩ := Nat.exists_eq_add_of_le hr
  rw [← bit_ushiftRight, h]
  simp [bit]

lemma bit_add_lowest (h : l >>> r ≠ 0) : bit l (r + lowest (l >>> r)) = true := by
  rw [← bit_ushiftRight]
  exact bit_lowest h

lemma add_lowest_lt (h : l >>> r ≠ 0) : r + lowest (l >>> r) < n := by
  by_contra hge
  have hb := bit_add_lowest h
  rw [bit, BitVec.getLsbD_of_ge _ _ (by omega)] at hb
  cases hb

/-- If anything is left after the shift, the next one is found by its trailing zeros. -/
lemma setBitsFrom_of_shift_ne_zero (h : l >>> r ≠ 0) :
    setBitsFrom l r = (r + lowest (l >>> r)) :: setBitsFrom l (r + lowest (l >>> r) + 1) := by
  refine setBitsFrom_eq_cons (by omega) (add_lowest_lt h) (bit_add_lowest h) fun i hr hi => ?_
  obtain ⟨j, rfl⟩ := Nat.exists_eq_add_of_le hr
  rw [← bit_ushiftRight]
  exact bit_of_lt_lowest (by omega)

/-! ### Walking by clearing -/

/-- The ones below position `c`. -/
lemma bit_twoPow_sub_one {c i : ℕ} (hc : c < n) :
    bit (BitVec.twoPow n c - 1) i = decide (i < c) := by
  have h1 : (1 : BitVec n).toNat = 1 := Nat.mod_eq_of_lt (Nat.one_lt_two_pow (by omega))
  have hpow := BitVec.toNat_twoPow_of_lt hc
  have hle : (1 : BitVec n) ≤ BitVec.twoPow n c := by
    rw [BitVec.le_def, h1, hpow]
    exact Nat.one_le_two_pow
  rw [bit, BitVec.getLsbD, BitVec.toNat_sub_of_le hle, hpow, h1, Nat.testBit_two_pow_sub_one]

/-- Subtracting one clears the lowest one and sets every bit below it. -/
lemma bit_sub_one (h : l ≠ 0) (i : ℕ) :
    bit (l - 1) i = (bit l i && decide (i ≠ lowest l) || decide (i < lowest l)) := by
  set c := lowest l with hcdef
  have hc : c < n := lowest_lt h
  -- the word without its lowest one
  set y := l &&& ~~~(BitVec.twoPow n c)
  have hy : ∀ j, bit y j = (bit l j && decide (j ≠ c)) := by
    intro j
    rcases Nat.lt_or_ge j n with hj | hj
    · by_cases hjc : j = c <;> simp [y, bit, hj, hjc, hc]
    · simp [y, bit, BitVec.getLsbD_of_ge _ _ hj]
  have hrest : y + BitVec.twoPow n c = l := by
    rw [BitVec.add_eq_or_of_and_eq_zero]
    · apply BitVec.eq_of_getLsbD_eq
      intro j hj
      have hb : l.getLsbD c = true := bit_lowest h
      rw [BitVec.getLsbD_or, ← bit_eq_getLsbD y, hy, BitVec.getLsbD_twoPow]
      by_cases hjc : j = c
      · subst hjc; simp [hb, hc]
      · simp [hjc, Ne.symm hjc, bit]
    · rw [BitVec.and_assoc, BitVec.not_and_self]
      simp
  have hsub : l - 1 = y ||| (BitVec.twoPow n c - 1) := by
    have hassoc : y + (BitVec.twoPow n c - 1) = l - 1 := by
      rw [BitVec.sub_eq_add_neg, ← BitVec.add_assoc, hrest, ← BitVec.sub_eq_add_neg]
    rw [← hassoc]
    apply BitVec.add_eq_or_of_and_eq_zero
    apply BitVec.eq_of_getLsbD_eq
    intro j hj
    rw [BitVec.getLsbD_and, ← bit_eq_getLsbD, ← bit_eq_getLsbD, hy, bit_twoPow_sub_one hc]
    by_cases hjc : j < c
    · simp [bit_of_lt_lowest hjc]
    · simp [hjc]
  rw [hsub, bit, BitVec.getLsbD_or, ← bit_eq_getLsbD, ← bit_eq_getLsbD, hy, bit_twoPow_sub_one hc]

/-- `l & (l - 1)` clears the lowest one. -/
lemma bit_and_sub_one (h : l ≠ 0) (i : ℕ) :
    bit (l &&& (l - 1)) i = (bit l i && decide (i ≠ lowest l)) := by
  rw [bit, BitVec.getLsbD_and, ← bit_eq_getLsbD, ← bit_eq_getLsbD, bit_sub_one h]
  by_cases hi : i < lowest l
  · simp [bit_of_lt_lowest hi]
  · simp [hi]

/-- The vector is zero exactly if it has no ones. -/
lemma eq_zero_iff : l = 0 ↔ ∀ i < n, bit l i = false := by
  constructor
  · rintro rfl i _
    simp [bit]
  · intro h
    apply BitVec.eq_of_getLsbD_eq
    intro i hi
    rw [← bit_eq_getLsbD, h i hi]
    simp

/-- `xl` is what is left of `l` from its one at `r` on, in a walk along the ones of `l`. -/
structure IsRest (l xl : BitVec n) (r : ℕ) : Prop where
  ne_zero : xl ≠ 0
  lowest_eq : lowest xl = r
  bits : ∀ i, bit xl i = (bit l i && decide (r ≤ i))

lemma isRest_self (h : l ≠ 0) : IsRest l l (lowest l) where
  ne_zero := h
  lowest_eq := rfl
  bits i := by
    by_cases hi : lowest l ≤ i
    · simp [hi]
    · simp [bit_of_lt_lowest (l := l) (show i < lowest l by omega)]

namespace IsRest

variable {xl : BitVec n}

lemma lt (h : IsRest l xl r) : r < n := h.lowest_eq ▸ lowest_lt h.ne_zero

lemma bit_clear (h : IsRest l xl r) (i : ℕ) :
    bit (xl &&& (xl - 1)) i = (bit l i && decide (r + 1 ≤ i)) := by
  rw [bit_and_sub_one h.ne_zero, h.bits, h.lowest_eq, Bool.and_assoc]
  congr 1
  rw [Bool.eq_iff_iff]
  simp only [Bool.and_eq_true, decide_eq_true_eq]
  omega

/-- The two walks end together. -/
lemma clear_eq_zero_iff (h : IsRest l xl r) : xl &&& (xl - 1) = 0 ↔ l >>> (r + 1) = 0 := by
  rw [eq_zero_iff, eq_zero_iff]
  constructor
  · intro h0 i hi
    rw [bit_ushiftRight]
    rcases Nat.lt_or_ge (r + 1 + i) n with hlt | hge
    · have := h0 _ hlt
      rw [h.bit_clear] at this
      simpa using this
    · rw [bit, BitVec.getLsbD_of_ge _ _ hge]
  · intro h0 i hi
    rw [h.bit_clear]
    by_cases hr : r + 1 ≤ i
    · obtain ⟨j, rfl⟩ := Nat.exists_eq_add_of_le hr
      have := h0 j (by omega)
      rw [bit_ushiftRight] at this
      simp [this]
    · simp [hr]

/-- Clearing the lowest one is going on to the next one behind it. -/
lemma clear (h : IsRest l xl r) (hne : l >>> (r + 1) ≠ 0) :
    IsRest l (xl &&& (xl - 1)) (r + 1 + lowest (l >>> (r + 1))) := by
  have hnext : bit l (r + 1 + lowest (l >>> (r + 1))) = true := bit_add_lowest hne
  -- there is no one between the two
  have hgap : ∀ i, r + 1 ≤ i → i < r + 1 + lowest (l >>> (r + 1)) → bit l i = false := by
    intro i hr hi
    obtain ⟨j, rfl⟩ := Nat.exists_eq_add_of_le hr
    rw [← bit_ushiftRight]
    exact bit_of_lt_lowest (by omega)
  refine ⟨fun h0 => hne (h.clear_eq_zero_iff.mp h0), eq_lowest ?_ fun i hi => ?_, fun i => ?_⟩
  · rw [h.bit_clear, hnext]
    simp
  · rw [h.bit_clear]
    by_cases hr : r + 1 ≤ i
    · simp [hgap i hr hi]
    · simp [hr]
  · rw [h.bit_clear]
    by_cases hr : r + 1 ≤ i
    · by_cases hi : i < r + 1 + lowest (l >>> (r + 1))
      · simp [hgap i hr hi]
      · simp [hr, show r + 1 + lowest (l >>> (r + 1)) ≤ i by omega]
    · simp [hr, show ¬ r + 1 + lowest (l >>> (r + 1)) ≤ i by omega]

end IsRest

/-! ### Counting -/

/-- The number of ones is the length of their list. -/
lemma length_setBits : (setBits l).length = l.cpopNatRec n 0 := by
  have key : ∀ k ≤ n, ((List.range' 0 k).filter fun i => bit l i).length = l.cpopNatRec k 0 := by
    intro k
    induction k with
    | zero => intro _; rfl
    | succ k ih =>
      intro hk
      rw [List.range'_concat, List.filter_append, List.length_append, ih (by omega),
        BitVec.cpopNatRec_succ, BitVec.cpopNatRec_eq (0 + _)]
      cases hb : l.getLsbD k <;> simp [bit, hb]
  exact key n (Nat.le_refl n)

end Bits
