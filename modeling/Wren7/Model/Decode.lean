import Mathlib.Tactic.IntervalCases
import Wren7.Model.BlockTransfer
import Wren7.Model.Multiply

/-!
# Classes of instruction words

The sequencer of a word from its fields, where `decode` compares masked words.
-/

namespace Wren7

open Bits

lemma bit_of_field {w : Word} {lo n i : ℕ} {v : BitVec n} (h : field w lo n = v) (h1 : lo ≤ i)
    (h2 : i < lo + n) : bit w i = bit v (i - lo) := by
  rw [← h, bit, bit, field, BitVec.getLsbD_extractLsb', decide_eq_true (by omega), Bool.true_and,
    Nat.add_sub_cancel' h1]

/-- A masked word is compared bit by bit. -/
lemma and_eq_of_bits {w m c : Word} (h1 : ∀ i < 32, bit m i = true → bit w i = bit c i)
    (h0 : c &&& m = c) : w &&& m = c := by
  apply BitVec.eq_of_getLsbD_eq
  intro i hi
  have h := congrArg (BitVec.getLsbD · i) h0
  rw [BitVec.getLsbD_and] at h ⊢
  cases hm : m.getLsbD i with
  | true =>
    rw [Bool.and_true]
    exact h1 i hi hm
  | false =>
    rw [hm, Bool.and_false] at h
    rw [Bool.and_false, ← h]

lemma and_ne_of_bit {w m c : Word} {i : ℕ} (hm : bit m i = true) (h : bit w i ≠ bit c i) :
    w &&& m ≠ c := by
  intro he
  have h' := congrArg (bit · i) he
  simp only [bit, BitVec.getLsbD_and] at h' hm h
  rw [hm, Bool.and_true] at h'
  exact h h'

namespace Arm7DI

variable {op : Word}

lemma seqOf_eq_sdt : seqOf op = .sdt ↔ field op 25 3 = 2 ∨ field op 25 3 = 3 ∧ bit op 4 = false := by
  rcases class_cases (field op 25 3) with h | h | h | h | h | h | h | h <;>
    simp only [seqOf, h] <;> split_ifs <;> simp_all

/-- The two classes of data operations. -/
lemma class_of_low (h : field op 26 2 = 0) :
    field op 25 3 = if bit op 25 then 1 else 0 := by
  have h26 := bit_of_field h (Nat.le_refl 26) (by decide)
  have h27 := bit_of_field (i := 27) h (by decide) (by decide)
  apply BitVec.eq_of_getLsbD_eq
  intro i hi
  rw [field, BitVec.getLsbD_extractLsb', ← bit]
  interval_cases i
  · cases bit op 25 <;> rfl
  · rw [h26]
    cases bit op 25 <;> rfl
  · rw [h27]
    cases bit op 25 <;> rfl

/-- A data operation: not a multiplication or swap, and a comparison only with the S bit. -/
lemma seqOf_eq_dp (h : field op 26 2 = 0)
    (hs : bit op 25 = true ∨ bit op 4 = false ∨ bit op 7 = false)
    (ht : bit op 24 = true → bit op 23 = false → bit op 20 = true) : seqOf op = .dp := by
  have hpsr : op &&& 0x01900000 ≠ 0x01000000 := by
    by_cases h24 : bit op 24 = true
    · by_cases h23 : bit op 23 = true
      · exact and_ne_of_bit (i := 23) rfl (by rw [h23]; decide)
      · exact and_ne_of_bit (i := 20) rfl (by
          rw [ht h24 (Bool.eq_false_iff.mpr h23)]; decide)
    · exact and_ne_of_bit (i := 24) rfl (by rw [Bool.eq_false_iff.mpr h24]; decide)
  unfold seqOf
  rw [class_of_low h]
  cases h25 : bit op 25 with
  | true => exact if_neg hpsr
  | false =>
    have h90 : op &&& 0x90 ≠ 0x90 := by
      rcases hs with h' | h' | h'
      · rw [h25] at h'
        cases h'
      · exact and_ne_of_bit (i := 4) rfl (by rw [h']; decide)
      · exact and_ne_of_bit (i := 7) rfl (by rw [h']; decide)
    exact (if_neg h90).trans (if_neg hpsr)

lemma isMul_of_fields (h1 : field op 22 6 = 0) (h2 : field op 4 4 = 9) : IsMul op := by
  refine and_eq_of_bits (fun i hi hm => ?_) rfl
  have hr : ∀ i < 32, bit (0x0FC000F0 : Word) i = true → 4 ≤ i ∧ i < 8 ∨ 22 ≤ i ∧ i < 28 := by
    decide
  obtain ⟨ha, hb⟩ | ⟨ha, hb⟩ := hr i hi hm
  · rw [bit_of_field h2 ha hb]
    interval_cases i <;> rfl
  · rw [bit_of_field h1 ha hb]
    interval_cases i <;> rfl

/-- The word that selects SWP and SWPB. -/
lemma seqOf_of_swap (h : op &&& 0x0FB00FF0 = 0x01000090) : seqOf op = .swp := by
  have h24 : bit op 24 = true := by
    have := congrArg (bit · 24) h
    simpa [bit] using this
  have hmul : op &&& 0x0FC000F0 ≠ 0x00000090 :=
    and_ne_of_bit (i := 24) rfl (by rw [h24]; decide)
  have h90 : op &&& 0x90 = 0x90 := by
    have h' := congrArg (· &&& (0x90 : Word)) h
    simpa [BitVec.and_assoc] using h'
  have hf : field op 25 3 = 0 := by
    have hm : field (op &&& 0x0FB00FF0) 25 3 = field op 25 3 := by
      rw [field, BitVec.extractLsb'_and]
      exact BitVec.and_allOnes
    rw [← hm, h]
    rfl
  unfold seqOf
  rw [hf]
  exact (if_pos h90).trans ((if_neg hmul).trans (if_pos h))

lemma seqOf_eq_swp (h1 : field op 23 5 = 2) (h2 : field op 20 2 = 0) (h3 : field op 4 8 = 9) :
    seqOf op = .swp := by
  refine seqOf_of_swap (and_eq_of_bits (fun i hi hm => ?_) rfl)
  have hr : ∀ i < 32, bit (0x0FB00FF0 : Word) i = true →
      4 ≤ i ∧ i < 12 ∨ 20 ≤ i ∧ i < 22 ∨ 23 ≤ i ∧ i < 28 := by
    decide
  obtain ⟨ha, hb⟩ | ⟨ha, hb⟩ | ⟨ha, hb⟩ := hr i hi hm
  · rw [bit_of_field h3 ha hb]
    interval_cases i <;> rfl
  · rw [bit_of_field h2 ha hb]
    interval_cases i <;> rfl
  · rw [bit_of_field h1 ha hb]
    interval_cases i <;> rfl

end Arm7DI

end Wren7
