import Wren7.Model.Shifter
import Wren7.Rtl.Shifter

/-!
# The single-rotator shifter and the model's shifter

The rotator is read one bit at a time: bit `i` of its output is bit `i + r` of its input, modulo 32.
The immediate forms of the model are first reduced to its register forms, as `effAmount` does.
-/

namespace Wren7

open Bits

/-! ### The rotator -/

namespace Rtl

lemma getLsbD_rotStage (sel : Bool) {k : ℕ} (v : Word) {i : ℕ} (hk : k < 32) (hi : i < 32) :
    (rotStage sel k v).getLsbD i = v.getLsbD ((i + sel.toNat * k) % 32) := by
  cases sel with
  | false => simp [rotStage, Nat.mod_eq_of_lt hi]
  | true =>
    simp only [rotStage, if_true, BitVec.getLsbD_setWidth, BitVec.getLsbD_append,
      BitVec.getLsbD_extractLsb', Bool.toNat_true, Nat.one_mul, hi, decide_true, Bool.true_and]
    by_cases h : i < 32 - k
    · rw [Nat.mod_eq_of_lt (by omega)]
      simp [h, Nat.add_comm]
    · have hmod : (i + k) % 32 = i - (32 - k) := by omega
      rw [hmod]
      simp [h, show i - (32 - k) < k by omega]

lemma toNat_eq_bits (r : BitVec 5) : r.toNat = (bit r 0).toNat * 1 + (bit r 1).toNat * 2 +
    (bit r 2).toNat * 4 + (bit r 3).toNat * 8 + (bit r 4).toNat * 16 := by
  revert r
  decide

lemma getLsbD_rotator (v : Word) (r : BitVec 5) {i : ℕ} (hi : i < 32) :
    (rotator v r).getLsbD i = v.getLsbD ((i + r.toNat) % 32) := by
  simp only [rotator]
  rw [getLsbD_rotStage _ _ (by omega) hi, getLsbD_rotStage _ _ (by omega) (Nat.mod_lt _ (by omega)),
    getLsbD_rotStage _ _ (by omega) (Nat.mod_lt _ (by omega)),
    getLsbD_rotStage _ _ (by omega) (Nat.mod_lt _ (by omega)),
    getLsbD_rotStage _ _ (by omega) (Nat.mod_lt _ (by omega)), toNat_eq_bits r]
  congr 1
  omega

lemma getLsbD_loMask (n : BitVec 5) {i : ℕ} (hi : i < 32) :
    (loMask n).getLsbD i = decide (i < n.toNat) := getLsbD_genBits _ hi

lemma getLsbD_hiMask (n : BitVec 5) {i : ℕ} (hi : i < 32) :
    (hiMask n).getLsbD i = decide (31 - i < n.toNat) := getLsbD_genBits _ hi

end Rtl

lemma getLsbD_ror32 (v : Word) (n : ℕ) {i : ℕ} (hi : i < 32) :
    (ror32 v n).getLsbD i = v.getLsbD ((i + n) % 32) := by
  unfold ror32
  rcases Nat.eq_zero_or_pos (n % 32) with h | h
  · simp [h, Nat.add_mod i n 32, Nat.mod_eq_of_lt hi]
  · have hlt : n % 32 < 32 := Nat.mod_lt _ (by omega)
    simp only [ne_eq, Nat.pos_iff_ne_zero.mp h, not_false_eq_true, if_true, BitVec.getLsbD_or,
      BitVec.getLsbD_ushiftRight, BitVec.getLsbD_shiftLeft, hi, decide_true, Bool.true_and]
    by_cases hw : i + n % 32 < 32
    · have hmod : (i + n) % 32 = n % 32 + i := by omega
      simp [hmod, show i < 32 - n % 32 by omega]
    · have hmod : (i + n) % 32 = i - (32 - n % 32) := by omega
      rw [hmod, BitVec.getLsbD_of_ge v (n % 32 + i) (by omega)]
      simp [show ¬ i < 32 - n % 32 by omega]

/-! ### Immediate amounts as register amounts -/

lemma shiftType_cases (t : BitVec 2) : t = 0 ∨ t = 1 ∨ t = 2 ∨ t = 3 := by
  revert t
  decide

/-- LSR #32, ASR #32 and RRX apart, an immediate amount is a register amount below 32. -/
lemma shiftImm_eq_shiftReg (v : Word) (t : BitVec 2) {n : ℕ} (hn : n < 32) (cin : Bool) :
    shiftImm v t n cin =
      if t = 3 ∧ n = 0 then (maskIf cin 0x80000000 ||| v >>> 1, bit v 0)
      else shiftReg v t (if n = 0 ∧ (t = 1 ∨ t = 2) then 32 else n) cin := by
  rcases Nat.eq_zero_or_pos n with rfl | h
  · rcases shiftType_cases t with rfl | rfl | rfl | rfl <;> simp [shiftImm, shiftReg]
  · have hn0 : n ≠ 0 := by omega
    rcases shiftType_cases t with rfl | rfl | rfl | rfl <;>
      simp [shiftImm, shiftReg, hn0, hn, Nat.mod_eq_of_lt hn]

namespace Rtl

variable (v : Word) (t : BitVec 2) (n : BitVec 8) (cin : Bool)

/-- The RTL shifter on an effective amount: everything but RRX. -/
def shiftEff (ne : BitVec 9) : Word × Bool :=
  let lt32 : Bool := ne < 32
  let n5 : BitVec 5 := ne.setWidth 5
  let rot := rotator v (if t = 0 then 0 - n5 else n5)
  if ne = 0 then (v, cin) else
  match t with
  | 0 => (if lt32 then rot &&& ~~~loMask n5 else 0,
      if lt32 then bit rot 0 else ne == 32 && bit v 0)
  | 1 => (if lt32 then rot &&& ~~~hiMask n5 else 0,
      if lt32 then bit rot 31 else ne == 32 && bit v 31)
  | 2 =>
    (if lt32 then (rot &&& ~~~hiMask n5) ||| (if bit v 31 then hiMask n5 else 0)
      else if bit v 31 then 0xFFFFFFFF else 0,
     if lt32 then bit rot 31 else bit v 31)
  | _ => (rot, bit rot 31)

lemma wren7Shifter_eq_shiftEff (imm : Bool) :
    wren7Shifter v t n imm cin =
      if imm ∧ t = 3 ∧ n.setWidth 5 = 0#5 then (maskIf cin 0x80000000 ||| v >>> 1, bit v 0)
      else shiftEff v t cin (effAmount t n imm) := by
  unfold wren7Shifter shiftEff
  rcases shiftType_cases t with rfl | rfl | rfl | rfl <;> cases imm <;> simp [ite_not]

variable {v} {ne : BitVec 9}

/-- Below 32, an LSL is the rotation by the complement with the low bits cleared. -/
lemma rotator_neg_and_loMask (h0 : ne.toNat ≠ 0) (h : ne.toNat < 32) :
    rotator v (-ne.setWidth 5) &&& ~~~loMask (ne.setWidth 5) = v <<< ne.toNat := by
  have h5 : (ne.setWidth 5).toNat = ne.toNat := by simp; omega
  have hr : (-ne.setWidth 5).toNat = 32 - ne.toNat := by
    rw [BitVec.toNat_neg, h5]; omega
  apply BitVec.eq_of_getLsbD_eq
  intro i hi
  simp only [BitVec.getLsbD_and, BitVec.getLsbD_not, BitVec.getLsbD_shiftLeft, getLsbD_loMask _ hi,
    getLsbD_rotator _ _ hi, hr, h5, hi, decide_true, Bool.true_and]
  by_cases hlt : i < ne.toNat
  · simp [hlt]
  · simp [hlt, show (i + (32 - ne.toNat)) % 32 = i - ne.toNat by omega]

lemma rotator_and_hiMask (h : ne.toNat < 32) :
    rotator v (ne.setWidth 5) &&& ~~~hiMask (ne.setWidth 5) = v >>> ne.toNat := by
  have h5 : (ne.setWidth 5).toNat = ne.toNat := by simp; omega
  apply BitVec.eq_of_getLsbD_eq
  intro i hi
  simp only [BitVec.getLsbD_and, BitVec.getLsbD_not, BitVec.getLsbD_ushiftRight, getLsbD_hiMask _ hi,
    getLsbD_rotator _ _ hi, h5, hi, decide_true, Bool.true_and]
  by_cases hlt : i + ne.toNat < 32
  · simp [show ¬ 31 - i < ne.toNat by omega, Nat.mod_eq_of_lt hlt, Nat.add_comm]
  · simp [show 31 - i < ne.toNat by omega, BitVec.getLsbD_of_ge v (ne.toNat + i) (by omega)]

lemma rotator_and_hiMask_or (h : ne.toNat < 32) :
    (rotator v (ne.setWidth 5) &&& ~~~hiMask (ne.setWidth 5)) |||
      (if bit v 31 then hiMask (ne.setWidth 5) else 0) = v.sshiftRight ne.toNat := by
  have h5 : (ne.setWidth 5).toNat = ne.toNat := by simp; omega
  rw [rotator_and_hiMask h]
  apply BitVec.eq_of_getLsbD_eq
  intro i hi
  rw [BitVec.getLsbD_or, BitVec.getLsbD_ushiftRight, BitVec.getLsbD_sshiftRight]
  have hsign : v.msb = bit v 31 := rfl
  have hmask : (if bit v 31 then hiMask (ne.setWidth 5) else 0).getLsbD i =
      (bit v 31 && decide (31 - i < ne.toNat)) := by
    cases bit v 31 <;> simp [getLsbD_hiMask _ hi, h5, -BitVec.getLsbD_eq_getElem]
  rw [hmask, hsign]
  by_cases hlt : ne.toNat + i < 32
  · simp [hlt, show ¬ 32 ≤ i by omega, show ¬ 31 - i < ne.toNat by omega]
  · rw [BitVec.getLsbD_of_ge v _ (by omega)]
    simp [hlt, show ¬ 32 ≤ i by omega, show 31 - i < ne.toNat by omega]

lemma rotator_eq_ror32 : rotator v (ne.setWidth 5) = ror32 v (ne.toNat % 32) := by
  apply BitVec.eq_of_getLsbD_eq
  intro i hi
  rw [getLsbD_rotator _ _ hi, getLsbD_ror32 _ _ hi]
  simp

/-- The carry out of a right shift is the top bit of the rotation. -/
lemma bit_rotator_31 (h0 : ne.toNat % 32 ≠ 0) :
    bit (rotator v (ne.setWidth 5)) 31 = bit v (ne.toNat % 32 - 1) := by
  rw [bit, bit, getLsbD_rotator _ _ (by omega)]
  congr 1
  simp
  omega

lemma bit_rotator_neg_0 (h0 : ne.toNat ≠ 0) (h : ne.toNat < 32) :
    bit (rotator v (-ne.setWidth 5)) 0 = bit v (32 - ne.toNat) := by
  have h5 : (ne.setWidth 5).toNat = ne.toNat := by simp; omega
  rw [bit, bit, getLsbD_rotator _ _ (by omega), BitVec.toNat_neg, h5]
  congr 1
  omega

/-- On an effective amount the RTL shifter is the model's register-specified shift. -/
lemma shiftEff_eq_shiftReg (v : Word) (t : BitVec 2) (cin : Bool) (ne : BitVec 9) :
    shiftEff v t cin ne = shiftReg v t ne.toNat cin := by
  have hz : ne = 0#9 ↔ ne.toNat = 0 := by rw [← BitVec.toNat_inj]; rfl
  have hlt : ne < 32#9 ↔ ne.toNat < 32 := by rw [BitVec.lt_def]; rfl
  have h32 : (ne == 32#9) = decide (ne.toNat = 32) := by
    rw [Bool.beq_eq_decide_eq]
    exact decide_eq_decide.mpr (by rw [← BitVec.toNat_inj]; rfl)
  unfold shiftEff shiftReg
  by_cases h0 : ne.toNat = 0
  · simp [hz.mpr h0]
  rcases shiftType_cases t with rfl | rfl | rfl | rfl
  · by_cases h : ne.toNat < 32
    · simp [hz, h0, hlt, h, rotator_neg_and_loMask h0 h, bit_rotator_neg_0 h0 h]
    · by_cases h' : ne.toNat = 32 <;> simp [hz, h0, hlt, h, h32, h']
  · by_cases h : ne.toNat < 32
    · have h1 : ne.toNat % 32 = ne.toNat := Nat.mod_eq_of_lt h
      simp [hz, h0, hlt, h, rotator_and_hiMask h, bit_rotator_31 (h1 ▸ h0), h1]
    · by_cases h' : ne.toNat = 32 <;> simp [hz, h0, hlt, h, h32, h']
  · by_cases h : ne.toNat < 32
    · have h1 : ne.toNat % 32 = ne.toNat := Nat.mod_eq_of_lt h
      have hval := rotator_and_hiMask_or (v := v) h
      simp only [BitVec.ofNat_eq_ofNat] at hval
      simp [hz, h0, hlt, h, hval, bit_rotator_31 (h1 ▸ h0), h1]
    · simp [hz, h0, hlt, h, signFill]
  · by_cases h : ne.toNat % 32 = 0
    · simp [hz, h0, h, rotator_eq_ror32, ror32]
    · simp [hz, h0, h, ← bit_rotator_31 h]
      exact rotator_eq_ror32

/-! ### The two uses of the shifter -/

/-- `imm = 1`: the immediate shift amounts. -/
theorem wren7Shifter_imm (v : Word) (t : BitVec 2) (n : BitVec 8) (cin : Bool) :
    wren7Shifter v t n true cin = shiftImm v t (n.setWidth 5).toNat cin := by
  have hn : (n.setWidth 5).toNat < 32 := (n.setWidth 5).isLt
  have hz : n.setWidth 5 = 0#5 ↔ (n.setWidth 5).toNat = 0 := by rw [← BitVec.toNat_inj]; rfl
  have heff : (effAmount t n true).toNat =
      if (n.setWidth 5).toNat = 0 ∧ (t = 1 ∨ t = 2) then 32 else (n.setWidth 5).toNat := by
    unfold effAmount
    simp only [if_true, BitVec.ofNat_eq_ofNat, hz]
    split_ifs with h
    · rfl
    · exact BitVec.toNat_setWidth_of_le (by omega)
  rw [wren7Shifter_eq_shiftEff, shiftEff_eq_shiftReg, shiftImm_eq_shiftReg v t hn, heff]
  simp only [hz, true_and]

/-- `imm = 0`: the amount is the bottom byte of a register. -/
theorem wren7Shifter_reg (v : Word) (t : BitVec 2) (n : BitVec 8) (cin : Bool) :
    wren7Shifter v t n false cin = shiftReg v t n.toNat cin := by
  rw [wren7Shifter_eq_shiftEff, shiftEff_eq_shiftReg]
  simp [effAmount, Nat.mod_eq_of_lt (show n.toNat < 512 by omega)]

/-- `t = ROR`, `imm = 0` and an even amount: the rotated constant of a data operation. -/
theorem wren7Shifter_rot (v : Word) (rot : BitVec 4) (cin : Bool) :
    wren7Shifter v 3 (rot.setWidth 8 <<< 1) false cin =
      (ror32 v (2 * rot.toNat), if 2 * rot.toNat ≠ 0 then bit (ror32 v (2 * rot.toNat)) 31 else cin) := by
  have hn : (rot.setWidth 8 <<< 1).toNat = 2 * rot.toNat := by
    simp [Nat.shiftLeft_eq]; omega
  rw [wren7Shifter_reg, hn]
  rcases Nat.eq_zero_or_pos rot.toNat with h | h
  · simp [shiftReg, ror32, h]
  · have hmod : 2 * rot.toNat % 32 = 2 * rot.toNat := by omega
    have hne : ¬ 2 * rot.toNat = 0 := by omega
    have hcarry : bit (ror32 v (2 * rot.toNat)) 31 = bit v (2 * rot.toNat - 1) := by
      rw [bit, bit, getLsbD_ror32 _ _ (by omega)]
      congr 1
      omega
    simp only [shiftReg, hmod, hne, if_false, ne_eq, not_false_eq_true, if_true, hcarry]
    rfl

/-- The shifter of the RTL is the model's, in all its uses: an immediate amount, the bottom byte of a
register, and the rotated constant of a data operation. -/
theorem single_rotator (v : Word) (t : BitVec 2) (n : BitVec 8) (cin : Bool) (rot : BitVec 4) :
    wren7Shifter v t n true cin = shiftImm v t (n.setWidth 5).toNat cin ∧
      wren7Shifter v t n false cin = shiftReg v t n.toNat cin ∧
      wren7Shifter v 3 (rot.setWidth 8 <<< 1) false cin = (ror32 v (2 * rot.toNat),
        if rot.toNat ≠ 0 then bit (ror32 v (2 * rot.toNat)) 31 else cin) := by
  refine ⟨wren7Shifter_imm v t n cin, wren7Shifter_reg v t n cin, ?_⟩
  have hrot : 2 * rot.toNat ≠ 0 ↔ rot.toNat ≠ 0 := by omega
  rw [wren7Shifter_rot]
  simp only [hrot]

end Rtl

end Wren7
