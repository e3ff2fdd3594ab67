import Wren7.Tools.Contained

/-!
# Every class of case

Data operations, multiplications, block transfers and swaps, and the batches made of them.
-/

namespace Wren7

open Bits Draws Reactive Arm7DI

namespace QemuDiff

/-! ### SWP -/

section Swp

variable {cc rn rd rm : Reg} {B : Bool}

/-- The instruction word of `gen_swp`. -/
def swpWord (cc rn rd rm : Reg) (B : Bool) : Word :=
  place cc 28 ||| 0x01000090 ||| place (BitVec.ofBool B) 22 ||| place rn 16 ||| place rd 12 |||
    place rm 0

lemma swpWord_fields : field (swpWord cc rn rd rm B) 28 4 = cc ∧
    field (swpWord cc rn rd rm B) 16 4 = rn ∧ field (swpWord cc rn rd rm B) 12 4 = rd ∧
    field (swpWord cc rn rd rm B) 0 4 = rm := by
  have h28 : field 0x01000090#32 28 4 = 0#4 := rfl
  have h16 : field 0x01000090#32 16 4 = 0#4 := rfl
  have h12 : field 0x01000090#32 12 4 = 0#4 := rfl
  have h0 : field 0x01000090#32 0 4 = 0#4 := rfl
  unfold swpWord
  refine ⟨?_, ?_, ?_, ?_⟩ <;>
    simp (disch := decide) [field_or, field_place_of_disjoint, field_place, h28, h16, h12, h0]

lemma seqOf_swpWord : seqOf (swpWord cc rn rd rm B) = .swp := by
  have h23 : field 0x01000090#32 23 5 = 2#5 := rfl
  have h20 : field 0x01000090#32 20 2 = 0#2 := rfl
  have h4 : field 0x01000090#32 4 8 = 9#8 := rfl
  unfold swpWord
  apply seqOf_eq_swp <;>
    simp (disch := decide) [field_or, field_place_of_disjoint, h23, h20, h4]

/-- What a case of `gen_swp` in region `k` is. -/
structure SwpCase (cc rn rd rm : Reg) (B : Bool) (k : ℕ) (c : Case) : Prop where
  op : c.op = swpWord cc rn rd rm B
  cond : cc ≠ 15
  usableN : Usable rn
  usableD : Usable rd
  usableM : Usable rm
  region : c.region = some k
  input : ∃ j < 4, c.input (slot rn) = if B then BitVec.ofNat 32 (regionBytes * k + 64 + j)
    else BitVec.ofNat 32 (regionBytes * k + 64 + j) &&& ~~~3

lemma SwpCase.selfContained {k : ℕ} {c : Case} (h : SwpCase cc rn rd rm B k c)
    (hc : c.cls = .swp) : SelfContained c := by
  obtain ⟨hcc, hn, hd, hm⟩ := h.op ▸ @swpWord_fields cc rn rd rm B
  have hseq : seqOf c.op = .swp := h.op ▸ seqOf_swpWord
  have hnamed : ∀ r ∈ named c.op, Usable r := by
    simp only [named, hseq, hn, hd, hm]
    intro r hr
    obtain rfl | rfl | rfl : r = rn ∨ r = rd ∨ r = rm := by simpa using hr
    · exact h.usableN
    · exact h.usableD
    · exact h.usableM
  refine ⟨hseq.trans (by rw [hc]; rfl), hcc ▸ h.cond, fun h13 => (hnamed 13 h13).1 rfl,
    fun h15 => absurd rfl (hnamed 15 h15).2, ?_, ?_, ?_, ?_, fun k' hk' => ?_⟩
  · simp [hc]
  · simp [hc]
  · simp [hc]
  · simp [hc, h.region]
  · obtain rfl : k = k' := Option.some.inj (h.region.symm.trans hk')
    refine staysIn_of (Or.inr (Or.inl hseq)) (hn ▸ h.usableN.2) ?_
      fun s inp scratch hs hl j _ _ => ?_
    · rintro ⟨-, ⟨hb, -⟩ | ⟨hb, -⟩⟩ <;> exact Seq.noConfusion (hseq.symm.trans hb)
    · obtain ⟨i, hi, hA⟩ := h.input
      rw [transferAddr, hseq]
      rw [hn, hl.rd h.usableN, linked_base h.region hn]
      exact inRegion_masked hs hi hA

end Swp

/-! ### LDM and STM -/

section Bdt

variable {cc rn : Reg} {P U W L : Bool} {list : Word}

/-- The instruction word of `gen_bdt`. -/
def bdtWord (cc rn : Reg) (P U W L : Bool) (list : Word) : Word :=
  place cc 28 ||| place (4 : BitVec 3) 25 ||| place (BitVec.ofBool P) 24 |||
    place (BitVec.ofBool U) 23 ||| place (BitVec.ofBool W) 21 ||| place (BitVec.ofBool L) 20 |||
    place rn 16 ||| list

/-- A drawn list: only r0 to r12 and r14, and without the base if that is written back. -/
structure DrawnList (W : Bool) (rn : Reg) (list : Word) : Prop where
  regs : ∀ i, bit list i = true → bit (0x5FFF : Word) i = true
  base : W = true → bit list rn.toNat = false

lemma ensures_listRound (W : Bool) (rn : Reg) : Ensures (listRound W rn) (DrawnList W rn) := by
  have hsub (x y : Word) (i : ℕ) : bit (x &&& y) i = true → bit x i = true := fun h => by
    rw [bit, BitVec.getLsbD_and, Bool.and_eq_true] at h
    exact h.1
  have hsub' (x y : Word) (i : ℕ) : bit (x &&& y) i = true → bit y i = true := fun h => by
    rw [bit, BitVec.getLsbD_and, Bool.and_eq_true] at h
    exact h.2
  unfold listRound
  refine .bind_any fun x => .bind_any fun thin => ?_
  have hthin : Ensures (if thin = 0 then do
      let a ← u32
      let b ← u32
      return (x &&& 0x5FFF) &&& (a &&& b)
    else pure (x &&& 0x5FFF)) fun l => ∀ i, bit l i = true → bit (0x5FFF : Word) i = true := by
    refine .ite (fun _ => .bind_any fun a => .bind_any fun b => .pure fun i h => ?_)
      fun _ => .pure fun i h => hsub' _ _ i h
    exact hsub' _ _ i (hsub _ _ i h)
  refine hthin.bind fun l hl => .pure ?_
  cases W with
  | false => exact ⟨hl, fun h => Bool.noConfusion h⟩
  | true =>
    refine ⟨fun i h => hl i (hsub _ _ i h), fun _ => ?_⟩
    simp [bit, BitVec.getLsbD_and]

variable (h : DrawnList W rn list) (h0 : list ≠ 0)

include h

lemma DrawnList.high {i : ℕ} (hi : 16 ≤ i) : bit list i = false := by
  by_contra hb
  have hlt : (0x5FFF : Word).getLsbD i = false :=
    Nat.testBit_lt_two_pow (Nat.lt_of_lt_of_le (by decide : _ < 2 ^ 16)
      (Nat.pow_le_pow_right (by decide) hi))
  exact Bool.false_ne_true (hlt.symm.trans (h.regs i (Bool.not_eq_false _ ▸ hb)))

lemma DrawnList.field_high {lo n : ℕ} (hlo : 16 ≤ lo) : field list lo n = 0 := by
  apply BitVec.eq_of_getLsbD_eq
  intro i hi
  rw [field, BitVec.getLsbD_extractLsb', ← bit, h.high (by omega)]
  simp

lemma bdtWord_fields : field (bdtWord cc rn P U W L list) 28 4 = cc ∧
    field (bdtWord cc rn P U W L list) 25 3 = 4 ∧
    field (bdtWord cc rn P U W L list) 16 4 = rn ∧
    field (bdtWord cc rn P U W L list) 0 16 = field list 0 16 := by
  have h28 : field list 28 4 = 0 := h.field_high (by decide)
  have h25 : field list 25 3 = 0 := h.field_high (by decide)
  have h16 : field list 16 4 = 0 := h.field_high (by decide)
  unfold bdtWord
  refine ⟨?_, ?_, ?_, ?_⟩ <;>
    simp (disch := decide) [field_or, field_place_of_disjoint, field_place, h28, h25, h16]

lemma bdtWord_bits : bit (bdtWord cc rn P U W L list) 24 = P ∧
    bit (bdtWord cc rn P U W L list) 23 = U ∧ bit (bdtWord cc rn P U W L list) 21 = W := by
  unfold bdtWord
  refine ⟨?_, ?_, ?_⟩ <;> simp [bit_or, bit_place, h.high, bit_ofBool]

omit h in
lemma bit_field_list {i : ℕ} (hi : i < 16) : bit (field list 0 16) i = bit list i := by
  rw [bit, bit, field, BitVec.getLsbD_extractLsb', decide_eq_true hi, Bool.true_and, Nat.zero_add]

include h0 in
lemma mem_blockList {i : ℕ} :
    i ∈ blockList (bdtWord cc rn P U W L list) ↔ i < 16 ∧ bit list i = true := by
  have hne : field (bdtWord cc rn P U W L list) 0 16 ≠ 0 := by
    rw [(bdtWord_fields h).2.2.2]
    intro hf
    apply h0
    apply BitVec.eq_of_getLsbD_eq
    intro i hi
    rcases Nat.lt_or_ge i 16 with h16 | h16
    · have hb := @bit_field_list list i h16
      rw [hf] at hb
      exact hb.symm.trans (by simp [bit])
    · exact (h.high h16).trans (by simp)
  rw [blockList, if_neg hne, (bdtWord_fields h).2.2.2, List.mem_filter, List.mem_range]
  exact and_congr_right fun hi => by rw [bit_field_list hi]

include h0 in
/-- At most fourteen registers. -/
lemma length_blockList : (blockList (bdtWord cc rn P U W L list)).length ≤ 14 := by
  have hsub : blockList (bdtWord cc rn P U W L list) ⊆
      (List.range 16).filter fun i => bit (0x5FFF : Word) i := fun i hi => by
    obtain ⟨h16, hb⟩ := (mem_blockList h h0).mp hi
    exact List.mem_filter.mpr ⟨List.mem_range.mpr h16, h.regs i hb⟩
  have hnodup : (blockList (bdtWord cc rn P U W L list)).Nodup := by
    rw [← regList_eq]
    exact (regList_pairwise _).imp Nat.ne_of_lt
  exact (hnodup.subperm hsub).length_le

end Bdt

/-- What a case of `gen_bdt` in region `k` is. -/
structure BdtCase (cc rn : Reg) (P U W L : Bool) (list : Word) (k : ℕ) (c : Case) : Prop where
  op : c.op = bdtWord cc rn P U W L list
  cond : cc ≠ 15
  usableN : Usable rn
  drawn : DrawnList W rn list
  nonempty : list ≠ 0
  region : c.region = some k
  input : c.input (slot rn) = BitVec.ofNat 32 (regionBytes * k + 64)

namespace BdtCase

variable {cc rn : Reg} {P U W L : Bool} {list : Word} {k : ℕ} {c : Case}
  (h : BdtCase cc rn P U W L list k c)

include h

lemma fields : field c.op 28 4 = cc ∧ field c.op 25 3 = 4 ∧ field c.op 16 4 = rn := by
  obtain ⟨h1, h2, h3, -⟩ := h.op ▸ @bdtWord_fields cc rn P U W L list h.drawn
  exact ⟨h1, h2, h3⟩

lemma mem_list {i : ℕ} (hi : i ∈ blockList c.op) : i < 16 ∧ bit list i = true := by
  rw [h.op] at hi
  exact (mem_blockList h.drawn h.nonempty).mp hi

/-- Every word of the block is in the region. -/
lemma inRegion {s : Arm7DI} {inp : ℕ → Input} {scratch : Word} (hs : field scratch 0 2 = 0)
    (hl : Loaded s inp c scratch) {i : ℕ} (hi : i < (blockList c.op).length) :
    InRegion scratch k (s.blockLow c.op + 4 * BitVec.ofNat 32 i) := by
  obtain ⟨-, -, hn⟩ := h.fields
  obtain ⟨hP, hU, -⟩ := h.op ▸ @bdtWord_bits cc rn P U W L list h.drawn
  have hlen : (blockList c.op).length ≤ 14 := by
    rw [h.op]
    exact length_blockList h.drawn h.nonempty
  have hbase : s.blockBase c.op = scratch + BitVec.ofNat 32 (regionBytes * k + 64) := by
    rw [blockBase, hn, hl.regs rn h.usableN.1 h.usableN.2, linked_base h.region hn, h.input]
  have hne : field c.op 0 16 ≠ 0 := fun hf => by
    have h15 : blockList c.op = [15] := by rw [blockList, if_pos hf]
    exact absurd (h.drawn.regs 15 (h.mem_list (h15 ▸ List.mem_singleton_self 15)).2) (by decide)
  have hbytes : blockBytes c.op = 4 * BitVec.ofNat 32 (blockList c.op).length := by
    rw [blockBytes, if_neg hne]
  obtain ⟨o, ho, heq⟩ : ∃ o < 128, s.blockLow c.op + 4 * BitVec.ofNat 32 i =
      scratch + BitVec.ofNat 32 (regionBytes * k + o) := by
    unfold blockLow
    rw [hP, hU, hbase, hbytes]
    have h4 : (4 : Word).toNat = 4 := rfl
    cases U <;> cases P
    · refine ⟨64 - 4 * (blockList c.op).length + 4 + 4 * i, by omega, BitVec.eq_of_toNat_eq ?_⟩
      simp only [BitVec.toNat_add, BitVec.toNat_sub, BitVec.toNat_mul, BitVec.toNat_ofNat, h4]
      omega
    · refine ⟨64 - 4 * (blockList c.op).length + 4 * i, by omega, BitVec.eq_of_toNat_eq ?_⟩
      simp only [BitVec.toNat_add, BitVec.toNat_sub, BitVec.toNat_mul, BitVec.toNat_ofNat, h4]
      omega
    · refine ⟨64 + 4 * i, by omega, BitVec.eq_of_toNat_eq ?_⟩
      simp only [BitVec.toNat_add, BitVec.toNat_mul, BitVec.toNat_ofNat, h4]
      omega
    · refine ⟨64 + 4 + 4 * i, by omega, BitVec.eq_of_toNat_eq ?_⟩
      simp only [BitVec.toNat_add, BitVec.toNat_mul, BitVec.toNat_ofNat, h4]
      omega
  rw [heq]
  exact inRegion_of hs ho

lemma selfContained (hc : c.cls = .bdt) : SelfContained c := by
  obtain ⟨hcc, h25, hn⟩ := h.fields
  obtain ⟨-, -, hW⟩ := h.op ▸ @bdtWord_bits cc rn P U W L list h.drawn
  have hseq : seqOf c.op = .bdt := seqOf_eq_bdt.mpr h25
  have hlist : ∀ i ∈ blockList c.op, i ≠ 13 ∧ i ≠ 15 := fun i hi => by
    have hb := h.drawn.regs i (h.mem_list hi).2
    constructor <;> rintro rfl <;> exact absurd hb (by decide)
  have hnamed : ∀ r ∈ named c.op, Usable r := by
    simp only [named, hseq, hn]
    intro r hr
    rcases List.mem_cons.mp hr with rfl | hr
    · exact h.usableN
    · obtain ⟨i, hi, rfl⟩ := List.mem_map.mp hr
      have h16 := (h.mem_list hi).1
      obtain ⟨h13, h15⟩ := hlist i hi
      have hnat : (BitVec.ofNat 4 i).toNat = i := by
        rw [BitVec.toNat_ofNat]
        omega
      exact ⟨fun he => h13 (hnat.symm.trans (congrArg BitVec.toNat he)),
        fun he => h15 (hnat.symm.trans (congrArg BitVec.toNat he))⟩
  refine ⟨hseq.trans (by rw [hc]; rfl), hcc ▸ h.cond, fun h13 => (hnamed 13 h13).1 rfl,
    fun h15 => absurd rfl (hnamed 15 h15).2, ?_, fun _ hwb hmem => ?_, ?_, ?_, fun k' hk' => ?_⟩
  · simp [hc]
  · rw [hW] at hwb
    rw [hn] at hmem
    exact Bool.false_ne_true ((h.drawn.base hwb).symm.trans (h.mem_list hmem).2)
  · simp [hc]
  · simp [hc, h.region]
  · obtain rfl : k = k' := Option.some.inj (h.region.symm.trans hk')
    refine staysIn_of (Or.inr (Or.inr hseq)) (hn ▸ h.usableN.2) ?_
      fun s inp scratch hs hl j h1 hj => ?_
    · rintro ⟨-, ⟨hb, -⟩ | ⟨-, hmem⟩⟩
      · exact Seq.noConfusion (hseq.symm.trans hb)
      · exact (hlist 15 hmem).2 rfl
    · rw [dataCycles, hseq] at hj
      rw [transferAddr, hseq]
      exact h.inRegion hs hl (by dsimp only at hj; omega)

end BdtCase

/-! ### MUL and MLA -/

section Mul

variable {cc rd rn rs rm : Reg} {A S : Bool} {c : Case}

/-- The instruction word of `gen_mul`. -/
def mulWord (cc rd rn rs rm : Reg) (A S : Bool) : Word :=
  place cc 28 ||| place (BitVec.ofBool A) 21 ||| place (BitVec.ofBool S) 20 ||| place rd 16 |||
    place rn 12 ||| place rs 8 ||| 0x90 ||| place rm 0

lemma mulWord_fields : field (mulWord cc rd rn rs rm A S) 28 4 = cc ∧
    field (mulWord cc rd rn rs rm A S) 16 4 = rd ∧ field (mulWord cc rd rn rs rm A S) 12 4 = rn ∧
    field (mulWord cc rd rn rs rm A S) 8 4 = rs ∧ field (mulWord cc rd rn rs rm A S) 0 4 = rm := by
  have h28 : field 0x90#32 28 4 = 0#4 := rfl
  have h16 : field 0x90#32 16 4 = 0#4 := rfl
  have h12 : field 0x90#32 12 4 = 0#4 := rfl
  have h8 : field 0x90#32 8 4 = 0#4 := rfl
  have h0 : field 0x90#32 0 4 = 0#4 := rfl
  unfold mulWord
  refine ⟨?_, ?_, ?_, ?_, ?_⟩ <;>
    simp (disch := decide) [field_or, field_place_of_disjoint, field_place, h28, h16, h12, h8, h0]

lemma isMul_mulWord : IsMul (mulWord cc rd rn rs rm A S) := by
  have h22 : field 0x90#32 22 6 = 0#6 := rfl
  have h4 : field 0x90#32 4 4 = 9#4 := rfl
  unfold mulWord
  apply isMul_of_fields <;> simp (disch := decide) [field_or, field_place_of_disjoint, h22, h4]

/-- What a case of `gen_mul` is. -/
structure MulCase (cc rd rn rs rm : Reg) (A S : Bool) (c : Case) : Prop where
  op : c.op = mulWord cc rd rn rs rm A S
  cond : cc ≠ 15
  usable : Usable rd ∧ Usable rn ∧ Usable rs ∧ Usable rm
  base : rd ≠ rm
  region : c.region = none

lemma MulCase.selfContained (h : MulCase cc rd rn rs rm A S c) (hc : c.cls = .mul) :
    SelfContained c := by
  obtain ⟨hcc, hd, hn, hs, hm⟩ := h.op ▸ @mulWord_fields cc rd rn rs rm A S
  have hseq : seqOf c.op = .mul := h.op ▸ isMul_mulWord.seqOf_eq
  have hnamed : ∀ r ∈ named c.op, Usable r := by
    simp only [named, hseq, hn, hd, hm, hs]
    intro r hr
    obtain rfl | rfl | rfl | rfl : r = rd ∨ r = rn ∨ r = rs ∨ r = rm := by simpa using hr
    · exact h.usable.1
    · exact h.usable.2.1
    · exact h.usable.2.2.1
    · exact h.usable.2.2.2
  refine ⟨hseq.trans (by rw [hc]; rfl), hcc ▸ h.cond, fun h13 => (hnamed 13 h13).1 rfl,
    fun h15 => absurd rfl (hnamed 15 h15).2, ?_, ?_, fun _ => ?_, ?_, fun k hk => ?_⟩
  · simp [hc]
  · simp [hc]
  · rw [hd, hm]
    exact h.base
  · simp [hc, h.region]
  · exact absurd (hk.symm.trans h.region) (Option.some_ne_none k)

end Mul

/-! ### Data operations -/

section Dp

variable {cc opc rn rd : BitVec 4} {I S : Bool} {op2 : Word} {c : Case}

/-- The instruction word of `gen_dp`. -/
def dpWord (cc opc rn rd : BitVec 4) (I S : Bool) (op2 : Word) : Word :=
  place cc 28 ||| place (BitVec.ofBool I) 25 ||| place opc 21 ||| place (BitVec.ofBool S) 20 |||
    place rn 16 ||| place rd 12 ||| op2

section Word

variable (h2 : ∀ i, 12 ≤ i → bit op2 i = false)

include h2

lemma dpWord_fields : field (dpWord cc opc rn rd I S op2) 28 4 = cc ∧
    field (dpWord cc opc rn rd I S op2) 26 2 = 0 ∧ field (dpWord cc opc rn rd I S op2) 16 4 = rn ∧
    field (dpWord cc opc rn rd I S op2) 12 4 = rd ∧
    field (dpWord cc opc rn rd I S op2) 8 4 = field op2 8 4 ∧
    field (dpWord cc opc rn rd I S op2) 0 4 = field op2 0 4 := by
  unfold dpWord
  refine ⟨?_, ?_, ?_, ?_, ?_, ?_⟩ <;>
    simp (disch := decide) [field_or, field_place_of_disjoint, field_place, field_high h2]

lemma dpWord_bits : bit (dpWord cc opc rn rd I S op2) 25 = I ∧
    bit (dpWord cc opc rn rd I S op2) 24 = bit opc 3 ∧
    bit (dpWord cc opc rn rd I S op2) 23 = bit opc 2 ∧
    bit (dpWord cc opc rn rd I S op2) 20 = S ∧
    bit (dpWord cc opc rn rd I S op2) 7 = bit op2 7 ∧
    bit (dpWord cc opc rn rd I S op2) 4 = bit op2 4 := by
  unfold dpWord
  refine ⟨?_, ?_, ?_, ?_, ?_, ?_⟩ <;> simp [bit_or, bit_place, h2, bit_ofBool]

end Word

/-- The operand field of a data operation. -/
structure DpOperand (I : Bool) (op2 : Word) : Prop where
  high : ∀ i, 12 ≤ i → bit op2 i = false
  rm : I = false → field op2 0 4 ≠ 13 ∧ (field op2 0 4 = 15 → bit op2 4 = false)
  rs : I = false → bit op2 4 = true → bit op2 7 = false ∧ Usable (field op2 8 4)

/-- What a case of `gen_dp` is. -/
structure DpCase (cc opc rn rd : BitVec 4) (I S : Bool) (op2 : Word) (c : Case) : Prop where
  op : c.op = dpWord cc opc rn rd I S op2
  cond : cc ≠ 15
  operand : DpOperand I op2
  rn13 : rn ≠ 13
  rn15 : rn = 15 → I = true ∨ bit op2 4 = false
  usableD : Usable rd
  test : (opc &&& 0xC == 0x8) = true → S = true
  region : c.region = none

lemma DpCase.selfContained (h : DpCase cc opc rn rd I S op2 c) (hc : c.cls = .dp) :
    SelfContained c := by
  obtain ⟨hcc, h26, hn, hd, hs, hm⟩ := h.op ▸ @dpWord_fields cc opc rn rd I S op2 h.operand.high
  obtain ⟨h25, h24, h23, h20, h7, h4⟩ := h.op ▸ @dpWord_bits cc opc rn rd I S op2 h.operand.high
  have hseq : seqOf c.op = .dp := by
    refine seqOf_eq_dp h26 ?_ fun ht ht' => ?_
    · rw [h25, h4, h7]
      cases hI : I with
      | true => exact Or.inl rfl
      | false =>
        cases hb : bit op2 4 with
        | false => exact Or.inr (Or.inl rfl)
        | true => exact Or.inr (Or.inr (h.operand.rs hI hb).1)
    · rw [h20]
      refine h.test ?_
      rw [h24] at ht
      rw [h23] at ht'
      revert ht ht'
      have key : ∀ o : BitVec 4, bit o 3 = true → bit o 2 = false → (o &&& 0xC == 0x8) = true := by
        decide
      exact key opc
  have hnamed : named c.op = [rn, rd] ++ (if I then [] else
      field op2 0 4 :: if bit op2 4 then [field op2 8 4] else []) := by
    simp only [named, hseq, hn, hd, hm, hs, h25, h4]
  have hmem : ∀ r ∈ named c.op, r = rn ∨ r = rd ∨ I = false ∧
      (r = field op2 0 4 ∨ bit op2 4 = true ∧ r = field op2 8 4) := by
    rw [hnamed]
    intro r hr
    cases hI : I <;> cases hb : bit op2 4 <;> simpa [hI, hb, or_assoc] using hr
  have h13 : ∀ r ∈ named c.op, r ≠ 13 := fun r hr => by
    obtain rfl | rfl | ⟨hI, rfl | ⟨hb, rfl⟩⟩ := hmem r hr
    · exact h.rn13
    · exact h.usableD.1
    · exact (h.operand.rm hI).1
    · exact (h.operand.rs hI hb).2.1
  have h15 : ∀ r ∈ named c.op, r = 15 → I = true ∨ bit op2 4 = false := fun r hr he => by
    obtain rfl | rfl | ⟨hI, rfl | ⟨hb, rfl⟩⟩ := hmem r hr
    · exact h.rn15 he
    · exact absurd he h.usableD.2
    · exact Or.inr ((h.operand.rm hI).2 he)
    · exact absurd he (h.operand.rs hI hb).2.2
  refine ⟨hseq.trans (by rw [hc]; rfl), hcc ▸ h.cond, fun hr => h13 13 hr rfl,
    fun hr => ⟨hc, ?_, hd ▸ h.usableD.2⟩, ?_, ?_, ?_, ?_, fun k hk => ?_⟩
  · rw [regShift, h25, h4]
    rcases h15 15 hr rfl with h' | h'
    · rw [h']
      rfl
    · rw [h', Bool.and_false]
  · simp [hc]
  · simp [hc]
  · simp [hc]
  · simp [hc, h.region]
  · exact absurd (hk.symm.trans h.region) (Option.some_ne_none k)

end Dp

/-! ### Batches -/

section Batch

variable {g : Gen}

lemma ensures_baseCase (cls : Cls) :
    Ensures (baseCase cls) fun c => c.cls = cls ∧ c.region = none :=
  .bind_any fun _ => .bind_any fun _ => .pure ⟨rfl, rfl⟩

/-- A new region is the next one. -/
structure Extends (g : Gen) (x : ℕ × Gen) : Prop where
  region : x.1 = g.regions
  cases : x.2.cases = g.cases
  regions : x.2.regions = g.regions + 1
  scratch : x.2.scratchInit.length = g.scratchInit.length + regionBytes

lemma ensures_newRegion (g : Gen) : Ensures (newRegion g) (Extends g) := by
  refine (Ensures.length_mapM _ _).bind fun bytes hb => .pure ⟨rfl, rfl, rfl, ?_⟩
  simp [hb]

lemma Gen.Ok.push (h : g.Ok) {c : Case} (hc : SelfContained c) (hr : c.region = none) :
    (g.push c).Ok := by
  refine ⟨fun c' hc' => ?_, ?_, h.scratch⟩
  · rcases List.mem_append.mp hc' with hc' | hc'
    · exact h.cases c' hc'
    · exact List.mem_singleton.mp hc' ▸ hc
  · simp [Gen.push, h.regions, hr]

lemma Gen.Ok.pushRegion (h : g.Ok) {x : ℕ × Gen} (hx : Extends g x) {c : Case}
    (hc : SelfContained c) (hr : c.region = some x.1) : (x.2.push c).Ok := by
  refine ⟨fun c' hc' => ?_, ?_, ?_⟩
  · rcases List.mem_append.mp hc' with hc' | hc'
    · exact h.cases c' (hx.cases ▸ hc')
    · exact List.mem_singleton.mp hc' ▸ hc
  · change (x.2.cases ++ [c]).filterMap (·.region) = List.range x.2.regions
    rw [List.filterMap_append, hx.cases, h.regions, hx.regions, List.range_succ]
    simp [hr, hx.region]
  · change x.2.scratchInit.length = regionBytes * x.2.regions
    rw [hx.scratch, h.scratch, hx.regions, Nat.mul_succ]

lemma ensures_genSdt (h : g.Ok) : Ensures (genSdt g) Gen.Ok := by
  refine (ensures_baseCase .sdt).bind fun c hc => (ensures_newRegion g).bind fun x hx =>
    (ensures_sdtCase c x.1).bind fun y hy => .pure ?_
  obtain ⟨⟨cc, rn, rd, I, P, U, B, W, L, off, op2, hcase⟩, hcls⟩ := hy
  exact h.pushRegion hx (hcase.selfContained (hcls.trans hc.1)) hcase.region

lemma ensures_genBdt (h : g.Ok) : Ensures (genBdt g) Gen.Ok := by
  refine (ensures_baseCase .bdt).bind fun c hc => (ensures_newRegion g).bind fun x hx =>
    .bind_any fun P => .bind_any fun U => .bind_any fun W => .bind_any fun L =>
    ensures_reg.bind fun rn hrn => (ensures_listRound W rn).repeatUntil.bind fun list hlist =>
    ensures_cond.bind fun cc hcc => .pure ?_
  have hcase : BdtCase cc rn P U W L list x.1 { c.setInput (slot rn)
      (BitVec.ofNat 32 (regionBytes * x.1 + 64)) with
      region := some x.1, op := bdtWord cc rn P U W L list } :=
    ⟨rfl, hcc, hrn, hlist.1, by simpa using hlist.2, rfl, Function.update_self ..⟩
  exact h.pushRegion hx (hcase.selfContained hc.1) rfl

lemma ensures_genSwp (h : g.Ok) : Ensures (genSwp g) Gen.Ok := by
  refine (ensures_baseCase .swp).bind fun c hc => (ensures_newRegion g).bind fun x hx =>
    .bind_any fun B => ensures_reg.bind fun rn hrn => (ensures_regNot [rn]).bind fun rd hrd =>
    (ensures_regNot [rn]).bind fun rm hrm => (ensures_below (by decide)).bind fun j hj =>
    ensures_cond.bind fun cc hcc => .pure ?_
  set A := if B then BitVec.ofNat 32 (regionBytes * x.1 + 64 + j)
    else BitVec.ofNat 32 (regionBytes * x.1 + 64 + j) &&& ~~~3 with hA
  have hcase : SwpCase cc rn rd rm B x.1 { c.setInput (slot rn) A with
      region := some x.1, op := swpWord cc rn rd rm B } :=
    ⟨rfl, hcc, hrn, hrd.1, hrm.1, rfl, j, hj, Function.update_self ..⟩
  exact h.pushRegion hx (hcase.selfContained hc.1) rfl

lemma ensures_genMul (h : g.Ok) : Ensures (genMul g) Gen.Ok := by
  refine (ensures_baseCase .mul).bind fun c hc => ensures_reg.bind fun rm hrm =>
    (ensures_regNot [rm]).bind fun rd hrd => ensures_reg.bind fun rs hrs =>
    ensures_reg.bind fun rn hrn => .bind_any fun A => .bind_any fun S =>
    ensures_cond.bind fun cc hcc => .bind_any fun k => ?_
  have hrn' : Usable (if A then rn else 0) := by
    split_ifs
    · exact hrn
    · exact ⟨by decide, by decide⟩
  have hcase (c' : Case) (hc' : c'.cls = .mul) (hr : c'.region = none) :
      SelfContained { c' with op := mulWord cc rd (if A then rn else 0) rs rm A S } :=
    MulCase.selfContained ⟨rfl, hcc, ⟨hrd.1, hrn', hrs, hrm⟩, by simpa using hrd.2, hr⟩ hc'
  refine .ite (fun _ => .bind_any fun small => .bind_any fun v => .pure ?_) fun _ => .pure ?_
  · exact h.push (hcase { c.setInput (slot rs) v with cpsrMask := 0xD0000000 } hc.1 hc.2) hc.2
  · exact h.push (hcase { c with cpsrMask := 0xD0000000 } hc.1 hc.2) hc.2

lemma ensures_dpOperand (c : Case) {form : ℕ} {rm rs : Reg} (hrm : rm ≠ 13)
    (hrm15 : rm = 15 → form = 1) (hrs : Usable rs) : Ensures (dpOperand c form rm rs) fun x =>
      DpOperand (decide (form = 0)) x.1 ∧ (form = 1 → bit x.1 4 = false) ∧
        x.2.cls = c.cls ∧ x.2.region = c.region := by
  unfold dpOperand
  refine .ite (fun h0 => ?_) fun h0 => .ite (fun h1 => ?_) fun h1 => ?_
  · refine .bind_any fun rot => .bind_any fun imm => .pure ⟨⟨fun i hi => ?_, ?_, ?_⟩, ?_, rfl, rfl⟩
    · simp [bit_or, bit_place, show ¬i < 12 by omega, show ¬i < 8 by omega]
    · simp [h0]
    · simp [h0]
    · simp [h0]
  · refine .bind_any fun amt => .bind_any fun type => .pure ?_
    have hrm0 : field (place amt 7 ||| place type 5 ||| place rm 0) 0 4 = rm := by
      simp (disch := decide) [field_or, field_place_of_disjoint, field_place]
    have h4 : bit (place amt 7 ||| place type 5 ||| place rm 0) 4 = false := by
      simp [bit_or, bit_place]
    refine ⟨⟨fun i hi => ?_, fun _ => ⟨fun h => hrm (hrm0.symm.trans h), fun _ => h4⟩,
      fun _ hb => ?_⟩, fun _ => h4,
      rfl, rfl⟩
    · simp [bit_or, bit_place, show ¬i < 12 by omega, show ¬i < 7 by omega, show ¬i < 4 by omega]
    · exact nomatch h4.symm.trans hb
  · refine .bind_any fun type => .bind_any fun plain => ?_
    set op2 := place rs 8 ||| place type 5 ||| 0x10 ||| place rm 0 with hop2
    have hfour : (0x10 : Word) = place (1 : BitVec 1) 4 := rfl
    have hrm0 : field op2 0 4 = rm := by
      rw [hop2, hfour]
      simp (disch := decide) [field_or, field_place_of_disjoint, field_place]
    have hrs0 : field op2 8 4 = rs := by
      rw [hop2, hfour]
      simp (disch := decide) [field_or, field_place_of_disjoint, field_place]
    have hoperand : DpOperand (decide (form = 0)) op2 := by
      refine ⟨fun i hi => ?_, fun _ => ⟨fun h => hrm (hrm0.symm.trans h), fun hr => ?_⟩, fun _ _ => ⟨?_, hrs0 ▸ hrs⟩⟩
      · rw [hop2, hfour]
        simp [bit_or, bit_place, show ¬i < 12 by omega, show ¬i < 7 by omega,
          show ¬i < 5 by omega, show ¬i < 4 by omega]
      · exact absurd (hrm15 (hrm0 ▸ hr)) h1
      · rw [hop2, hfour]
        simp [bit_or, bit_place]
    refine .ite (fun _ => .bind_any fun high => .bind_any fun table => .bind_any fun low => .pure ?_)
      fun _ => .pure ?_
    · exact ⟨hoperand, fun h => absurd h h1, rfl, rfl⟩
    · exact ⟨hoperand, fun h => absurd h h1, rfl, rfl⟩

lemma ensures_genDp (h : g.Ok) : Ensures (genDp g) Gen.Ok := by
  refine (ensures_baseCase .dp).bind fun c hc => .bind_any fun opc => ?_
  have hS : Ensures (if (opc &&& 0xC == 0x8) = true then pure true else coin) fun S =>
      (opc &&& 0xC == 0x8) = true → S = true :=
    .ite (fun _ => .pure fun _ => rfl) fun ht _ _ _ _ ht' => absurd ht' ht
  refine hS.bind fun S hS => (ensures_below (by decide)).bind fun form hform =>
    ensures_reg.bind fun rn hrn => ensures_reg.bind fun rd hrd => ensures_reg.bind fun rm hrm =>
    ensures_reg.bind fun rs hrs => ?_
  have hrn' : Ensures (if form ≠ 2 then do return if (← below 12) = 0 then 15 else rn
      else pure rn : Rng Reg) fun r => r ≠ 13 ∧ (r = 15 → form ≠ 2) := by
    refine .ite (fun hf => .bind_any fun k => .pure ⟨?_, fun _ => hf⟩)
      fun _ => .pure ⟨hrn.1, fun h15 => absurd h15 hrn.2⟩
    split_ifs
    · decide
    · exact hrn.1
  have hrm' : Ensures (if form = 1 then do return if (← below 12) = 0 then 15 else rm
      else pure rm : Rng Reg) fun r => r ≠ 13 ∧ (r = 15 → form = 1) := by
    refine .ite (fun hf => .bind_any fun k => .pure ⟨?_, fun _ => hf⟩)
      fun _ => .pure ⟨hrm.1, fun h15 => absurd h15 hrm.2⟩
    split_ifs
    · decide
    · exact hrm.1
  refine hrn'.bind fun rn hrn => hrm'.bind fun rm hrm =>
    (ensures_dpOperand c hrm.1 hrm.2 hrs).bind fun x hx => ensures_cond.bind fun cc hcc => .pure ?_
  obtain ⟨hop, h4, hcls, hreg⟩ := hx
  have hrd' : Usable (if (opc &&& 0xC == 0x8) = true then 0 else rd) := by
    split_ifs
    · exact ⟨by decide, by decide⟩
    · exact hrd
  have hzero : ∀ r : Reg, r ≠ 13 → (if opc = 0xD ∨ opc = 0xF then 0 else r) ≠ 13 := fun r hr => by
    split_ifs
    · decide
    · exact hr
  refine h.push (DpCase.selfContained ⟨rfl, hcc, hop, hzero rn hrn.1, fun h15 => ?_, hrd', hS,
    hreg.trans hc.2⟩ (hcls.trans hc.1)) (hreg.trans hc.2)
  split_ifs at h15 with hmov
  · exact absurd h15 (by decide)
  · have hne := hrn.2 h15
    by_cases h0 : form = 0
    · exact Or.inl (decide_eq_true h0)
    · exact Or.inr (h4 (by omega))

lemma ensures_genOne (h : g.Ok) : Ensures (genOne g) Gen.Ok :=
  .bind_any fun _ => .ite (fun _ => ensures_genDp h) fun _ => .ite (fun _ => ensures_genMul h)
    fun _ => .ite (fun _ => ensures_genSdt h) fun _ => .ite (fun _ => ensures_genBdt h)
      fun _ => ensures_genSwp h

/-- A batch of any number of cases, drawn from any random numbers. -/
lemma ensures_generate (n : ℕ) : Ensures (generate n) Gen.Ok :=
  .iterate (fun _ => ensures_genOne) n ⟨nofun, rfl, rfl⟩

/-- The single data access of a case of `gen_sdt` is at the address meant. -/
lemma SdtCase.access {cc rn rd : Reg} {I P U B W L : Bool} {off op2 : Word} {k : ℕ} {c : Case}
    {A : Word} (h : SdtCase cc rn rd I P U B W L off op2 k c A) {s : Arm7DI} {inp : ℕ → Input}
    {scratch : Word} (hl : Loaded s inp c scratch) :
    TransferCycles s inp c.op ∧ dataCycles c.op = 1 ∧ s.transferAddr c.op 1 = scratch + A := by
  obtain ⟨-, hn, hd⟩ := h.fields
  have hseq : seqOf c.op = .sdt := by
    rw [h.op]
    exact seqOf_sdtWord h.operand.high h.operand.bit4
  have hpc : ¬LoadsPc c.op := by
    rintro ⟨-, ⟨-, h15⟩ | ⟨hb, -⟩⟩
    · exact h.usableD.2 (hd ▸ h15)
    · exact Seq.noConfusion (hseq.symm.trans hb)
  refine ⟨transfer_cycles hl.quiet hl.word hl.passes (Or.inl hseq) (hn ▸ h.usableN.2) hpc, ?_, ?_⟩
  · rw [dataCycles, hseq]
  · rw [transferAddr, hseq]
    exact h.sdtAddr hl

/-- Every batch that the generator makes, on any stream, keeps its promises, and a single transfer
accesses the address it was made for. -/
theorem self_contained :
    (∀ (n : ℕ) (draws rest : List (BitVec 64)) (g : Gen),
      generate n draws = some (g, rest) → g.Ok) ∧
    ∀ (c c' : Case) (k : ℕ) (A : Word) (draws rest : List (BitVec 64)),
      sdtCase c k draws = some ((c', A), rest) →
      ∀ (s : Arm7DI) (inp : ℕ → Input) (scratch : Word), Loaded s inp c' scratch →
        TransferCycles s inp c'.op ∧ dataCycles c'.op = 1 ∧
          s.transferAddr c'.op 1 = scratch + A := by
  refine ⟨fun n draws rest g hg => ensures_generate n draws g rest hg, ?_⟩
  intro c c' k A draws rest hdraw s inp scratch hl
  obtain ⟨⟨cc, rn, rd, I, P, U, B, W, L, off, op2, hcase⟩, -⟩ :=
    ensures_sdtCase c k draws (c', A) rest hdraw
  exact hcase.access hl

/-- A stream that makes one LDR. -/
theorem self_contained_ldr :
    let stream := (List.range 180).map fun i => BitVec.ofNat 64 (7 * i * i + 3 * i + 73)
    ∃ g rest, generate 1 stream = some (g, rest) ∧ g.cases.map (·.cls) = [.sdt] ∧ g.Ok := by
  intro stream
  have hsome : (generate 1 stream).isSome = true := by decide +kernel
  obtain ⟨x, hx⟩ := Option.isSome_iff_exists.mp hsome
  have hcls : (generate 1 stream).map (fun x => x.1.cases.map (·.cls)) = some [.sdt] := by
    decide +kernel
  rw [hx] at hcls
  exact ⟨x.1, x.2, hx, Option.some.inj hcls, self_contained.1 1 stream x.2 x.1 hx⟩

end Batch

/-! ### Loops -/

lemma consumes_reg : Consumes 1 reg :=
  (Consumes.draw.bind fun _ => .pure).bind fun _ => .pure

/-- The loop of `reg_not`: a register is drawn, and if it is excluded the loop goes on. -/
lemma regNot_eq (ex : List Reg) :
    regNot ex = reg >>= fun r => if !ex.contains r then pure r else regNot ex :=
  repeatUntil_eq consumes_reg _

lemma consumes_listRound (W : Bool) (rn : Reg) : Consumes 1 (listRound W rn) :=
  ((Consumes.draw.bind fun _ => .pure).bind fun _ => .bind (j := 0) (k := 0)
    (Consumes.mono (Consumes.draw.bind fun _ => .pure) (Nat.zero_le 1)) fun _ => .bind (j := 0) (k := 0) (.ite (Consumes.mono
      ((Consumes.draw.bind fun _ => .pure).bind fun _ => (Consumes.draw.bind fun _ => .pure).bind
        fun _ => .pure) (Nat.zero_le _)) .pure) fun _ => .pure)

/-- The loop of `gen_bdt`: lists are drawn until one is not empty. -/
lemma drawList_eq (W : Bool) (rn : Reg) :
    repeatUntil (listRound W rn) (fun list => list != 0) = listRound W rn >>= fun list =>
      if list != 0 then pure list else repeatUntil (listRound W rn) fun list => list != 0 :=
  repeatUntil_eq (consumes_listRound W rn) _

end QemuDiff

end Wren7
