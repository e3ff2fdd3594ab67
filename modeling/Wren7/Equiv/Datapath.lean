import Wren7.Bits.SetBits
import Wren7.Equiv.Psr
import Wren7.Equiv.Shifter

/-!
# The shared datapath

The adder, the register numbers, the load and store lanes and the register list: each piece of the
RTL's datapath against the expression of the model it stands for.
-/

namespace Wren7

open Bits Rtl

/-! ### Fields of the instruction word -/

lemma and_FF (w : Word) : w &&& 0xFF = (field w 0 8).setWidth 32 := by
  apply BitVec.eq_of_getLsbD_eq
  intro i hi
  interval_cases i <;> simp [field]

lemma and_FFF (w : Word) : w &&& 0xFFF = (field w 0 12).setWidth 32 := by
  apply BitVec.eq_of_getLsbD_eq
  intro i hi
  interval_cases i <;> simp [field]

lemma setWidth_eq_field (w : Word) (n : ℕ) : w.setWidth n = field w 0 n := by
  apply BitVec.eq_of_getLsbD_eq
  intro i hi
  simp [field, hi]

lemma bit_field (w : Word) (lo n i : ℕ) : bit (field w lo n) i = (decide (i < n) && bit w (lo + i)) := by
  simp [bit, field]

lemma field_field (w : Word) {lo n i m : ℕ} (h : i + m ≤ n) :
    (field w lo n).extractLsb' i m = field w (lo + i) m := by
  apply BitVec.eq_of_getLsbD_eq
  intro j hj
  simp [field, hj, show i + j < n by omega, Nat.add_assoc]

/-- The test operations: `opc[3:2] == 2`. -/
lemma test_eq (w : Word) : (field w 21 4 &&& 0xC == 0x8) = test w := by
  have key : ∀ o : BitVec 4, (o &&& 0xC == 0x8) = (o.extractLsb' 2 2 == 2) := by decide
  rw [key, field_field w (by omega)]
  rfl

/-- The branch offset: `(int32_t)(op << 8) >> 6`. -/
lemma branch_offset (w : Word) : (w <<< 8).sshiftRight 6 = boff w := by
  apply BitVec.eq_of_getLsbD_eq
  intro i hi
  simp only [boff, field, BitVec.getLsbD_sshiftRight, BitVec.getLsbD_shiftLeft,
    BitVec.getLsbD_setWidth, BitVec.getLsbD_signExtend]
  interval_cases i <;> simp [BitVec.msb, BitVec.getMsbD]

/-! ### The adder -/

lemma add_eq_sum (a b : Word) (cin : Bool) :
    let s : BitVec 33 := a.setWidth 33 + b.setWidth 33 + (BitVec.ofBool cin).setWidth 33
    add a b cin = (s.setWidth 32, bit s 32,
      !(bit a 31 ^^ bit b 31) && (bit a 31 ^^ bit s 31)) := by
  intro s
  have hc : cin.toNat < 2 := Bool.toNat_lt cin
  have h33 : s.toNat = a.toNat + b.toNat + cin.toNat := by
    simp only [s, BitVec.toNat_add, BitVec.toNat_setWidth, BitVec.toNat_ofBool]
    omega
  have h64 : (a.setWidth 64 + b.setWidth 64 + BitVec.ofNat 64 cin.toNat).toNat = s.toNat := by
    simp only [h33, BitVec.toNat_add, BitVec.toNat_setWidth, BitVec.toNat_ofNat]
    omega
  have hsum : (a.setWidth 64 + b.setWidth 64 + BitVec.ofNat 64 cin.toNat).setWidth 32 =
      s.setWidth 32 := by
    apply BitVec.eq_of_toNat_eq
    rw [BitVec.toNat_setWidth, BitVec.toNat_setWidth, h64]
  simp only [add, hsum, Prod.mk.injEq, true_and]
  refine ⟨?_, ?_⟩
  · rw [bit, bit, BitVec.getLsbD, BitVec.getLsbD, h64]
  · simp [bit]

/-! ### Registers -/

/-- Where a register of the model stands in the register file. -/
def slot (p : Fin 31) : BitVec 5 := BitVec.ofNat 5 p.val

lemma slot_injective : Function.Injective slot := by
  intro p q h
  revert p q
  decide

lemma slot_phys {r : Reg} (h : r ≠ 15) (b : Bank) : slot (Wren7.phys r b) = Rtl.phys r b := by
  cases b <;> revert r <;> decide

lemma bankOf_eq (m : BitVec 5) : Rtl.bankOf m = Wren7.bankOf m := rfl

/-! ### Load and store lanes -/

lemma laneWord_eq_ror32 (d : Word) (u : BitVec 2) : laneWord d u = ror32 d (8 * u.toNat) := by
  apply BitVec.eq_of_getLsbD_eq
  intro i hi
  rw [getLsbD_ror32 _ _ hi]
  have hlane : ∀ u : BitVec 2, u = 0 ∨ u = 1 ∨ u = 2 ∨ u = 3 := by decide
  rcases hlane u with rfl | rfl | rfl | rfl
  · simp [laneWord, Nat.mod_eq_of_lt hi]
  all_goals
    refine BitVec.getLsbD_append.trans ?_
    interval_cases i <;> simp

lemma loadVal_eq (d a : Word) (b : Bool) :
    Rtl.loadVal d (a.setWidth 2) b = Wren7.loadVal b d a := by
  simp only [Rtl.loadVal, laneWord_eq_ror32, Wren7.loadVal, setWidth_eq_field a]
  cases b
  · rfl
  simp only [if_true, and_FF, setWidth_eq_field]
  congr 1
  apply BitVec.eq_of_getLsbD_eq
  intro i hi
  have hu := (field a 0 2).isLt
  have hmod : (i + 8 * (field a 0 2).toNat) % 32 = 8 * (field a 0 2).toNat + i := by omega
  rw [← bit_eq_getLsbD, ← bit_eq_getLsbD, bit_field, bit_field, Nat.zero_add, bit, bit,
    getLsbD_ror32 _ _ (by omega), BitVec.getLsbD_ushiftRight, hmod]

/-- A byte on all four lanes is a multiple of it. -/
lemma replicate_byte (u : BitVec 8) : (u ++ u ++ u ++ u : BitVec 32) = u.setWidth 32 * 0x01010101 := by
  have hu := u.isLt
  apply BitVec.eq_of_toNat_eq
  have h1 : (u ++ u).toNat = u.toNat * 0x101 := by
    rw [BitVec.toNat_append, ← Nat.shiftLeft_add_eq_or_of_lt hu, Nat.shiftLeft_eq]
    omega
  have h2 : (u ++ u ++ u).toNat = u.toNat * 0x10101 := by
    rw [BitVec.toNat_append, ← Nat.shiftLeft_add_eq_or_of_lt hu, Nat.shiftLeft_eq, h1]
    omega
  rw [BitVec.toNat_append, ← Nat.shiftLeft_add_eq_or_of_lt hu, Nat.shiftLeft_eq, h2,
    BitVec.toNat_mul, BitVec.toNat_setWidth]
  have h3 : (0x01010101 : Word).toNat = 0x01010101 := rfl
  rw [h3]
  omega

lemma storeVal_eq (b : Bool) (v : Word) :
    (if b then
      (v.setWidth 8 ++ v.setWidth 8 ++ v.setWidth 8 ++ v.setWidth 8 : BitVec 32) else v) =
      storeVal b v := by
  cases b
  · simp only [storeVal, Bool.false_eq_true, if_false]
  · simp only [storeVal, if_true, replicate_byte, and_FF, setWidth_eq_field]

/-! ### Register lists -/

lemma list_eq (w : Word) : Rtl.list w = Arm7DI.effList w := rfl

lemma ctz16_eq {l : BitVec 16} (h : l ≠ 0) : (ctz16 l).toNat = lowest l := by
  have hlt := lowest_lt h
  unfold ctz16
  by_cases h15 : lowest l < 15
  · have hfind : (List.range 15).find? (fun i => bit l i) = some (lowest l) := by
      rw [List.find?_range_eq_some]
      exact ⟨bit_lowest h, List.mem_range.mpr h15, fun j hj => by simp [bit_of_lt_lowest hj]⟩
    rw [hfind, Option.getD_some, BitVec.toNat_ofNat]
    omega
  · have hfind : (List.range 15).find? (fun i => bit l i) = none := by
      rw [List.find?_range_eq_none]
      exact fun i hi => by simp [bit_of_lt_lowest (l := l) (show i < lowest l by omega)]
    rw [hfind, Option.getD_none, BitVec.toNat_ofNat]
    omega

lemma pop16_eq (l : BitVec 16) : (pop16 l).toNat = l.cpopNatRec 16 0 := by
  have key : ∀ k ≤ 16, ((List.range k).foldl
      (fun n i => n + if bit l i then 1 else 0) (0 : BitVec 5)).toNat = l.cpopNatRec k 0 := by
    intro k
    induction k with
    | zero => intro _; rfl
    | succ k ih =>
      intro hk
      have hle : l.cpopNatRec k 0 ≤ 0 + k := BitVec.cpopNatRec_le k
      rw [List.range_succ, List.foldl_append, List.foldl_cons, List.foldl_nil, BitVec.toNat_add,
        ih (by omega), BitVec.cpopNatRec_succ, BitVec.cpopNatRec_eq (0 + _)]
      cases hb : l.getLsbD k <;> simp [bit, hb] <;> omega
  exact key 16 (by omega)

lemma bytes_eq (w : Word) : (bytes w).setWidth 32 = Arm7DI.listBytes w := by
  unfold bytes Arm7DI.listBytes
  split_ifs with h
  · rfl
  · have hle : (field w 0 16).cpopNatRec 16 0 ≤ 0 + 16 := BitVec.cpopNatRec_le 16
    have h4 : (4 : Word).toNat = 4 := rfl
    apply BitVec.eq_of_toNat_eq
    simp only [BitVec.toNat_setWidth, BitVec.toNat_shiftLeft, pop16_eq, BitVec.toNat_mul,
      BitVec.cpop, BitVec.toNat_ofNat, Nat.shiftLeft_eq, h4]
    omega

end Wren7
