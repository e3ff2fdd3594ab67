import Wren7.Equiv.Shifter
import Wren7.Model.Accesses
import Wren7.Model.Decode
import Wren7.Tools.Gen

/-!
# The generated cases are self-contained

Whatever the random numbers are, a case keeps to its own scratch region, does not touch R13, and is
none of the cases that the architecture leaves open.
-/

namespace Wren7

open Bits Draws Reactive Arm7DI

namespace QemuDiff

/-! ### Instruction words -/

lemma bit_ofBool (b : Bool) : bit (BitVec.ofBool b) 0 = b := by
  simp [bit]

/-- The registers an instruction word names. -/
def named (op : Word) : List Reg :=
  match seqOf op with
  | .dp => [field op 16 4, field op 12 4] ++ (if bit op 25 then [] else
      field op 0 4 :: if bit op 4 then [field op 8 4] else [])
  | .mul => [field op 16 4, field op 12 4, field op 8 4, field op 0 4]
  | .swp => [field op 16 4, field op 12 4, field op 0 4]
  | .sdt => [field op 16 4, field op 12 4] ++ if bit op 25 then [field op 0 4] else []
  | .bdt => field op 16 4 :: (blockList op).map (BitVec.ofNat 4)
  | _ => []

/-- The sequencer of a class. -/
def Cls.seq : Cls → Seq
  | .dp => .dp
  | .mul => .mul
  | .sdt => .sdt
  | .bdt => .bdt
  | .swp => .swp

/-! ### The input record -/

/-- `base_slot`: the place of the base register of a memory case. -/
def Case.baseSlot (c : Case) : Option (Fin 16) :=
  if c.region = none then none else some (slot (field c.op 16 4))

/-- The record after linking: the base is relocated by the scratch label. -/
def Case.linked (c : Case) (scratch : Word) (i : Fin 16) : Word :=
  if c.baseSlot = some i then scratch + c.input i else c.input i

/-- The instruction of the case begins, its condition true, with the registers and the flags of its
record. -/
structure Loaded (s : Arm7DI) (inp : ℕ → Input) (c : Case) (scratch : Word) : Prop where
  quiet : (s.poke (inp 0).lines).Quiet
  word : s.ex.word = c.op
  passes : s.condPass c.op = true
  regs : ∀ r : Reg, r ≠ 13 → r ≠ 15 → s.gpr (phys r s.bank) = c.linked scratch (slot r)
  flags : field s.cpsr 28 4 = field (c.input 15) 28 4

/-- The word at the address is one of the region's 32. -/
def InRegion (scratch : Word) (k : ℕ) (addr : Word) : Prop :=
  ∃ o < 32, addr &&& ~~~3 = scratch + BitVec.ofNat 32 (regionBytes * k + 4 * o)

/-- The data accesses of the case, until the next boundary, are in region `k`; the scratch label is
aligned (`.align 4`). -/
def StaysIn (c : Case) (k : ℕ) : Prop :=
  ∀ (s : Arm7DI) (inp : ℕ → Input) (scratch : Word), field scratch 0 2 = 0 →
    Loaded s inp c scratch → ∃ N, s.NextBoundary inp N ∧ ∀ j < N,
      (core.outs s inp j).type.isMem = true → (core.outs s inp j).flags.opc = false →
      InRegion scratch k (core.outs s inp j).addr

/-- What every case promises. -/
structure SelfContained (c : Case) : Prop where
  seq : seqOf c.op = c.cls.seq
  cond : field c.op 28 4 ≠ 15
  r13 : 13 ∉ named c.op
  /-- R15 is at most a source of a data operation without a register-specified shift. -/
  r15 : 15 ∈ named c.op → c.cls = .dp ∧ regShift c.op = false ∧ field c.op 12 4 ≠ 15
  sdt : c.cls = .sdt → sdtWb c.op = true → field c.op 12 4 ≠ field c.op 16 4
  bdt : c.cls = .bdt → bit c.op 21 = true → (field c.op 16 4).toNat ∉ blockList c.op
  mul : c.cls = .mul → field c.op 16 4 ≠ field c.op 0 4
  region : c.region = none ↔ c.cls = .dp ∨ c.cls = .mul
  stays : ∀ k, c.region = some k → StaysIn c k

/-- What every batch promises: each memory case has a region of its own. -/
structure Gen.Ok (g : Gen) : Prop where
  cases : ∀ c ∈ g.cases, SelfContained c
  regions : g.cases.filterMap (·.region) = List.range g.regions
  scratch : g.scratchInit.length = regionBytes * g.regions

/-! ### Draws -/

lemma ensures_below {n : ℕ} (hn : 0 < n) : Ensures (below n) (· < n) :=
  .bind_any fun _ => .pure (Nat.mod_lt _ hn)

/-- A register that a case may use. -/
def Usable (r : Reg) : Prop := r ≠ 13 ∧ r ≠ 15

lemma ensures_reg : Ensures reg Usable := by
  refine (ensures_below (by decide)).bind fun r hr => .pure ?_
  have key : ∀ r < 14, Usable (if r = 13 then 14 else BitVec.ofNat 4 r) := by
    unfold Usable
    decide
  exact key r hr

lemma ensures_regNot (ex : List Reg) : Ensures (regNot ex) fun r => Usable r ∧ r ∉ ex :=
  ensures_reg.repeatUntil.mono fun r hr => ⟨hr.1, by simpa using hr.2⟩

lemma ensures_cond : Ensures cond (· ≠ 15) := by
  refine .bind_any fun c => .ite (fun _ => .pure (by decide)) fun hc => .bind_any fun k => .pure ?_
  split_ifs
  · decide
  · exact hc

/-! ### Single transfers -/

section Sdt

variable (cc rn rd : BitVec 4) (I P U B W L : Bool) (op2 : Word)

/-- The instruction word of `gen_sdt`. -/
def sdtWord : Word :=
  place cc 28 ||| place (1 : BitVec 1) 26 ||| place (BitVec.ofBool I) 25 |||
    place (BitVec.ofBool P) 24 ||| place (BitVec.ofBool U) 23 ||| place (BitVec.ofBool B) 22 |||
    place (BitVec.ofBool W) 21 ||| place (BitVec.ofBool L) 20 ||| place rn 16 ||| place rd 12 |||
    op2

variable {cc rn rd I P U B W L op2}

/-- The bits of the offset field are those of the operand. -/
lemma bit_sdtWord {i : ℕ} (hi : i < 12) : bit (sdtWord cc rn rd I P U B W L op2) i = bit op2 i := by
  simp [sdtWord, bit_or, bit_place, show ¬28 ≤ i by omega, show ¬26 ≤ i by omega,
    show ¬25 ≤ i by omega, show ¬24 ≤ i by omega, show ¬23 ≤ i by omega, show ¬22 ≤ i by omega,
    show ¬21 ≤ i by omega, show ¬20 ≤ i by omega, show ¬16 ≤ i by omega, show ¬12 ≤ i by omega]

variable (h2 : ∀ i, 12 ≤ i → bit op2 i = false)

include h2

lemma field_high {lo n : ℕ} (hlo : 12 ≤ lo) : field op2 lo n = 0 := by
  apply BitVec.eq_of_getLsbD_eq
  intro i hi
  rw [field, BitVec.getLsbD_extractLsb', ← bit, h2 _ (by omega)]
  simp

lemma sdtWord_fields : field (sdtWord cc rn rd I P U B W L op2) 28 4 = cc ∧
    field (sdtWord cc rn rd I P U B W L op2) 16 4 = rn ∧
    field (sdtWord cc rn rd I P U B W L op2) 12 4 = rd := by
  unfold sdtWord
  refine ⟨?_, ?_, ?_⟩ <;>
    simp (disch := decide) [field_or, field_place_of_disjoint, field_place, field_high h2]

lemma sdtWord_bits : bit (sdtWord cc rn rd I P U B W L op2) 25 = I ∧
    bit (sdtWord cc rn rd I P U B W L op2) 24 = P ∧
    bit (sdtWord cc rn rd I P U B W L op2) 23 = U ∧
    bit (sdtWord cc rn rd I P U B W L op2) 22 = B ∧
    bit (sdtWord cc rn rd I P U B W L op2) 21 = W ∧
    bit (sdtWord cc rn rd I P U B W L op2) 20 = L := by
  unfold sdtWord
  refine ⟨?_, ?_, ?_, ?_, ?_, ?_⟩ <;> simp [bit_or, bit_place, h2, bit_ofBool]

lemma seqOf_sdtWord (h4 : I = true → bit op2 4 = false) :
    seqOf (sdtWord cc rn rd I P U B W L op2) = .sdt := by
  have hf : field (sdtWord cc rn rd I P U B W L op2) 25 3 = if I then 3 else 2 := by
    apply BitVec.eq_of_getLsbD_eq
    intro i hi
    rw [field, BitVec.getLsbD_extractLsb', ← bit, sdtWord]
    interval_cases i <;> simp [bit_or, bit_place, h2, bit_ofBool] <;> cases I <;> rfl
  rw [seqOf_eq_sdt, hf, bit_sdtWord (by decide)]
  cases I with
  | false => exact Or.inl rfl
  | true => exact Or.inr ⟨rfl, h4 rfl⟩

end Sdt

/-! ### Offsets -/

/-- The shift undoes what the generator did to the value of Rm. -/
lemma ror32_rotated {off : Word} {amt : ℕ} (h0 : 0 < amt) (h : amt < 32) :
    ror32 ((off <<< amt) ||| (off >>> (32 - amt))) amt = off := by
  apply BitVec.eq_of_getLsbD_eq
  intro i hi
  rw [getLsbD_ror32 _ _ hi, BitVec.getLsbD_or, BitVec.getLsbD_shiftLeft,
    BitVec.getLsbD_ushiftRight]
  by_cases hw : i + amt < 32
  · rw [Nat.mod_eq_of_lt hw, Nat.add_sub_cancel,
      BitVec.getLsbD_of_ge off (32 - amt + (i + amt)) (by omega)]
    simp [hw]
  · have hm : (i + amt) % 32 = i + amt - 32 := by omega
    rw [hm, show 32 - amt + (i + amt - 32) = i by omega]
    simp [show i + amt - 32 < amt by omega]

section Shift

variable (v : Word) (n : ℕ) (cin : Bool)

lemma shiftImm_lsl : (shiftImm v 0 n cin).1 = v <<< n := by
  change (if n = 0 then (v, cin) else (v <<< n, bit v (32 - n))).1 = v <<< n
  split_ifs with h
  · rw [h]
    exact (BitVec.shiftLeft_zero v).symm
  · rfl

lemma shiftImm_lsr : (shiftImm v 1 n cin).1 = if n = 0 then 0 else v >>> n := by
  change (if n = 0 then (0, bit v 31) else (v >>> n, bit v (n - 1))).1 = _
  split_ifs <;> rfl

lemma shiftImm_asr (hv : v.msb = false) :
    (shiftImm v 2 n cin).1 = if n = 0 then 0 else v >>> n := by
  have hbit : bit v 31 = false := hv ▸ (BitVec.msb_eq_getLsbD_last v).symm
  change (if n = 0 then (signFill v, bit v 31) else (v.sshiftRight n, bit v (n - 1))).1 = _
  rw [signFill, hbit, if_neg Bool.false_ne_true, BitVec.sshiftRight_eq_of_msb_false hv]
  split_ifs <;> rfl

lemma shiftImm_ror (hn : n ≠ 0) : (shiftImm v 3 n cin).1 = ror32 v n :=
  congrArg Prod.fst (if_neg hn)

lemma shiftImm_rrx : (shiftImm v 3 0 false).1 = v >>> 1 := by
  simp [shiftImm]

end Shift

/-- The offset is what the shifter makes of Rm; for RRX the carry must be clear. -/
lemma ensures_sdtOffset (type : BitVec 2) : Ensures (sdtOffset type) fun x =>
    ∀ cin, (type = 3 ∧ x.2.2 = 0 → cin = false) →
      (shiftImm x.2.1 type (BitVec.ofNat 5 (x.2.2 &&& 31)).toNat cin).1 = x.1 := by
  have h5 (n : ℕ) : (BitVec.ofNat 5 (n &&& 31)).toNat = n % 32 := by
    rw [BitVec.toNat_ofNat, show n &&& 31 = n % 32 from Nat.and_two_pow_sub_one_eq_mod n 5,
      Nat.mod_mod]
  have htype : type = 0 ∨ type = 1 ∨ type = 2 ∨ type = 3 := by
    revert type
    decide
  simp only [h5]
  rcases htype with rfl | rfl | rfl | rfl
  · refine (ensures_below (by decide)).bind fun amt ha => .bind_any fun v => .pure fun cin _ => ?_
    dsimp only
    rw [shiftImm_lsl, Nat.mod_eq_of_lt (by omega)]
  · refine (ensures_below (by decide)).bind fun amt ha => .bind_any fun v => .pure fun cin _ => ?_
    dsimp only
    rw [shiftImm_lsr]
    by_cases h32 : 26 + amt = 32
    · rw [if_pos h32, h32]
      rfl
    · rw [if_neg h32, Nat.mod_eq_of_lt (by omega), if_neg (by omega)]
  · refine (ensures_below (by decide)).bind fun amt ha => .bind_any fun v => .pure fun cin _ => ?_
    have hsign : (v &&& 0x7FFFFFFF).msb = false := by
      rw [BitVec.msb_and]
      exact Bool.and_false _
    dsimp only
    rw [shiftImm_asr _ _ _ hsign]
    by_cases h32 : 26 + amt = 32
    · rw [if_pos h32, h32]
      rfl
    · rw [if_neg h32, Nat.mod_eq_of_lt (by omega), if_neg (by omega)]
  · refine (ensures_below (by decide)).bind fun amt ha => .ite (fun h0 => ?_) fun h0 => ?_
    · subst h0
      refine .bind_any fun v => .pure fun cin hc => ?_
      rw [hc ⟨rfl, rfl⟩]
      exact shiftImm_rrx _
    · refine .bind_any fun v => .pure fun cin _ => ?_
      dsimp only
      rw [Nat.mod_eq_of_lt ha, shiftImm_ror _ _ _ h0]
      exact ror32_rotated (Nat.pos_of_ne_zero h0) ha

/-! ### The operand of a single transfer -/

/-- The operand field is one of the drawn offset, given the drawn record. -/
structure Operand (I : Bool) (rn : Reg) (off op2 : Word) (c : Case) : Prop where
  high : ∀ i, 12 ≤ i → bit op2 i = false
  bit4 : I = true → bit op2 4 = false
  rm : I = true → Usable (field op2 0 4) ∧ field op2 0 4 ≠ rn
  imm : I = false → op2 &&& 0xFFF = off
  shift : I = true → (shiftImm (c.input (slot (field op2 0 4))) (field op2 5 2)
    (field op2 7 5).toNat (bit (c.input 15) 29)).1 = off

lemma slot_ne_15 (r : Reg) (h : r ≠ 15) : slot r ≠ 15 := by
  revert r
  decide

lemma slot_inj {r r' : Reg} (h : Usable r) (h' : Usable r') (hs : slot r = slot r') : r = r' := by
  unfold Usable at h h'
  revert r r'
  decide

lemma ensures_sdtOperand (c : Case) (I : Bool) (rn rd : Reg) :
    Ensures (sdtOperand c I rn rd) fun x => Operand I rn x.1 x.2.1 x.2.2 ∧ x.2.2.cls = c.cls := by
  unfold sdtOperand
  refine .ite (fun hI => ?_) fun hI => ?_
  · refine (ensures_below (by decide)).bind fun n hn => .pure ⟨⟨fun i hi => ?_, ?_, ?_, ?_, ?_⟩, rfl⟩
    · have hlt : (BitVec.ofNat 32 n).toNat < 2 ^ i := by
        have : 2 ^ 12 ≤ 2 ^ i := Nat.pow_le_pow_right (by decide) hi
        simp only [BitVec.toNat_ofNat]
        omega
      exact Nat.testBit_lt_two_pow hlt
    · simp_all
    · simp_all
    · intro _
      apply BitVec.eq_of_toNat_eq
      rw [BitVec.toNat_and]
      change _ &&& (2 ^ 12 - 1) = _
      rw [Nat.and_two_pow_sub_one_eq_mod, BitVec.toNat_ofNat]
      omega
    · simp_all
  · refine (ensures_regNot _).bind fun rm hrm => .bind_any fun type =>
      (ensures_sdtOffset type).bind fun x hx => .pure ?_
    have hrm0 : field (place (BitVec.ofNat 5 (x.2.2 &&& 31)) 7 ||| place type 5 ||| place rm 0) 0 4 =
        rm := by
      simp (disch := decide) [field_or, field_place_of_disjoint, field_place]
    have h15 : slot rm ≠ 15 := slot_ne_15 rm hrm.1.2
    refine ⟨⟨fun i hi => ?_, fun _ => ?_, fun _ => ?_, fun hI' => absurd hI' (by simpa using hI),
      fun _ => ?_⟩, ?_⟩
    · simp [bit_or, bit_place, show ¬i < 12 by omega, show ¬i < 7 by omega,
        show ¬i < 4 by omega]
    · simp [bit_or, bit_place]
    · rw [hrm0]
      exact ⟨hrm.1, fun h => hrm.2 (by simp [h])⟩
    · have htype : field (place (BitVec.ofNat 5 (x.2.2 &&& 31)) 7 ||| place type 5 |||
          place rm 0) 5 2 = type := by
        simp (disch := decide) [field_or, field_place_of_disjoint, field_place]
      have hamt : field (place (BitVec.ofNat 5 (x.2.2 &&& 31)) 7 ||| place type 5 |||
          place rm 0) 7 5 = BitVec.ofNat 5 (x.2.2 &&& 31) := by
        simp (disch := decide) [field_or, field_place_of_disjoint, field_place]
      rw [hrm0, htype, hamt]
      simp only [Case.setInput, Function.update_self, Function.update_of_ne h15.symm]
      refine hx _ fun h => ?_
      rw [if_pos h]
      simp [bit, psrC]
    · dsimp only
      split_ifs <;> rfl

/-- The value of the base register leaves the operand alone. -/
lemma Operand.setInput {I : Bool} {rn : Reg} {off op2 : Word} {c : Case}
    (h : Operand I rn off op2 c) (hrn : Usable rn) (v : Word) :
    Operand I rn off op2 (c.setInput (slot rn) v) := by
  refine { h with shift := fun hI => ?_ }
  have hne : slot (field op2 0 4) ≠ slot rn := fun he =>
    (h.rm hI).2 (slot_inj (h.rm hI).1 hrn he)
  have h15 : (15 : Fin 16) ≠ slot rn := (slot_ne_15 rn hrn.2).symm
  simp only [Case.setInput, Function.update_of_ne hne, Function.update_of_ne h15]
  exact h.shift hI

/-- What a case of `gen_sdt` in region `k` is, with the address `A` it means. -/
structure SdtCase (cc rn rd : Reg) (I P U B W L : Bool) (off op2 : Word) (k : ℕ) (c : Case)
    (A : Word) : Prop where
  op : c.op = sdtWord cc rn rd I P U B W L op2
  cond : cc ≠ 15
  usableN : Usable rn
  usableD : Usable rd
  base : (!P || W) = true → rd ≠ rn
  operand : Operand I rn off op2 c
  input : c.input (slot rn) = if P then (if U then A - off else A + off) else A
  region : c.region = some k
  addr : ∃ j < 4, A = if B then BitVec.ofNat 32 (regionBytes * k + 64 + j)
    else BitVec.ofNat 32 (regionBytes * k + 64 + j) &&& ~~~3

lemma ensures_sdtCase (c : Case) (k : ℕ) : Ensures (sdtCase c k) fun x =>
    (∃ cc rn rd I P U B W L off op2, SdtCase cc rn rd I P U B W L off op2 k x.1 x.2) ∧
      x.1.cls = c.cls := by
  unfold sdtCase
  refine .bind_any fun P => .bind_any fun U => .bind_any fun B => .bind_any fun L =>
    .bind_any fun I => .bind_any fun W => ensures_reg.bind fun rn hrn => ?_
  have hrd : Ensures (if (!P || W) = true then regNot [rn] else reg) fun rd =>
      Usable rd ∧ ((!P || W) = true → rd ≠ rn) := by
    refine .ite (fun _ => (ensures_regNot [rn]).mono fun rd h => ⟨h.1, fun _ => by simpa using h.2⟩)
      fun hw => ensures_reg.mono fun rd h => ⟨h, fun hw' => absurd hw' hw⟩
  refine hrd.bind fun rd hrd => (ensures_sdtOperand c I rn rd).bind fun x hx =>
    (ensures_below (by decide)).bind fun j hj => ensures_cond.bind fun cc hcc => .pure ?_
  refine ⟨⟨cc, rn, rd, I, P, U, B, W, L, x.1, x.2.1, ?_⟩, hx.2⟩
  exact {
    op := rfl
    cond := hcc
    usableN := hrn
    usableD := hrd.1
    base := hrd.2
    operand := { hx.1.setInput hrn _ with }
    input := Function.update_self ..
    region := rfl
    addr := ⟨j, hj, rfl⟩ }

/-! ### Registers of the record -/

section Loaded

variable {s : Arm7DI} {inp : ℕ → Input} {c : Case} {scratch : Word} {k : ℕ} {r rn : Reg}

lemma Loaded.rd (hl : Loaded s inp c scratch) (hr : Usable r) (v : Word) :
    s.rd r v = c.linked scratch (slot r) := by
  rw [Arm7DI.rd, if_neg hr.2, hl.regs r hr.1 hr.2]

lemma Loaded.carry (hl : Loaded s inp c scratch) : bit s.cpsr 29 = bit (c.input 15) 29 := by
  have h := congrArg (bit · 1) hl.flags
  simpa [bit, field] using h

variable (hk : c.region = some k) (hrn : field c.op 16 4 = rn)

include hk hrn

lemma linked_base : c.linked scratch (slot rn) = scratch + c.input (slot rn) := by
  rw [Case.linked, Case.baseSlot, hk, hrn, if_neg (Option.some_ne_none k), if_pos rfl]

lemma linked_other (hr : Usable r) (hu : Usable rn) (hne : r ≠ rn) :
    c.linked scratch (slot r) = c.input (slot r) := by
  rw [Case.linked, Case.baseSlot, hk, hrn, if_neg (Option.some_ne_none k), if_neg]
  intro h
  exact hne (slot_inj hu hr (Option.some.inj h)).symm

end Loaded

/-! ### Regions -/

lemma toNat_aligned (v : Word) : (v &&& ~~~3).toNat = v.toNat / 4 * 4 := by
  have hm : (~~~3 : Word) = 0xFFFFFFFC := rfl
  have h : v &&& (~~~3 : Word) = (v >>> 2) <<< 2 := by
    rw [hm]
    apply BitVec.eq_of_getLsbD_eq
    intro i hi
    interval_cases i <;> simp
  have hv := v.isLt
  rw [h, BitVec.toNat_shiftLeft, BitVec.toNat_ushiftRight, Nat.shiftRight_eq_div_pow,
    Nat.shiftLeft_eq]
  omega

lemma aligned_add {scratch : Word} (hs : field scratch 0 2 = 0) (n : ℕ) :
    (scratch + BitVec.ofNat 32 n) &&& ~~~3 = scratch + BitVec.ofNat 32 (n / 4 * 4) := by
  have h4 : scratch.toNat % 4 = 0 := by
    have h := congrArg BitVec.toNat hs
    simpa [field] using h
  apply BitVec.eq_of_toNat_eq
  rw [toNat_aligned]
  simp only [BitVec.toNat_add, BitVec.toNat_ofNat]
  omega

lemma inRegion_of {scratch : Word} (hs : field scratch 0 2 = 0) {k o : ℕ} (ho : o < 128) :
    InRegion scratch k (scratch + BitVec.ofNat 32 (regionBytes * k + o)) := by
  refine ⟨o / 4, by omega, ?_⟩
  rw [aligned_add hs]
  unfold regionBytes
  congr 2
  omega

/-- An address that is aligned in the region unless the access is a byte's. -/
lemma inRegion_masked {scratch A : Word} (hs : field scratch 0 2 = 0) {k j : ℕ} (hj : j < 4)
    {B : Bool} (hA : A = if B then BitVec.ofNat 32 (regionBytes * k + 64 + j)
      else BitVec.ofNat 32 (regionBytes * k + 64 + j) &&& ~~~3) :
    InRegion scratch k (scratch + A) := by
  cases B with
  | true =>
    rw [hA, if_pos rfl, Nat.add_assoc]
    exact inRegion_of hs (by omega)
  | false =>
    have h := @aligned_add 0#32 rfl (regionBytes * k + 64 + j)
    rw [BitVec.zero_add, BitVec.zero_add] at h
    rw [hA, if_neg Bool.false_ne_true, h,
      show (regionBytes * k + 64 + j) / 4 * 4 = regionBytes * k + 64 by unfold regionBytes; omega]
    exact inRegion_of hs (by decide)

lemma staysIn_of {c : Case} {k : ℕ} (htr : IsTransfer c.op) (hrn : field c.op 16 4 ≠ 15)
    (hpc : ¬LoadsPc c.op) (haddr : ∀ (s : Arm7DI) (inp : ℕ → Input) (scratch : Word),
      field scratch 0 2 = 0 → Loaded s inp c scratch → ∀ j, 1 ≤ j → j ≤ dataCycles c.op →
        InRegion scratch k (s.transferAddr c.op j)) : StaysIn c k := by
  intro s inp scratch hs hl
  have hcyc := transfer_cycles hl.quiet hl.word hl.passes htr hrn hpc
  refine ⟨_, hcyc.next, fun j hj hmem hopc => ?_⟩
  by_cases hdata : j = 0 ∨ dataCycles c.op < j
  · rcases hcyc.only j hj hdata with h | h
    · rw [h] at hopc
      cases hopc
    · rw [h] at hmem
      cases hmem
  · rw [hcyc.addr j (by omega) (by omega)]
    exact haddr s inp scratch hs hl j (by omega) (by omega)

/-! ### The address of a single transfer -/

namespace SdtCase

variable {cc rn rd : Reg} {I P U B W L : Bool} {off op2 : Word} {k : ℕ} {c : Case} {A : Word}
  (h : SdtCase cc rn rd I P U B W L off op2 k c A)

include h

lemma fields : field c.op 28 4 = cc ∧ field c.op 16 4 = rn ∧ field c.op 12 4 = rd := by
  rw [h.op]
  exact sdtWord_fields h.operand.high

lemma bits : bit c.op 25 = I ∧ bit c.op 24 = P ∧ bit c.op 23 = U ∧ bit c.op 22 = B ∧
    bit c.op 21 = W ∧ bit c.op 20 = L := by
  rw [h.op]
  exact sdtWord_bits h.operand.high

lemma low {lo n : ℕ} (hlo : lo + n ≤ 12) : field c.op lo n = field op2 lo n := by
  apply BitVec.eq_of_getLsbD_eq
  intro i hi
  rw [field, field, BitVec.getLsbD_extractLsb', BitVec.getLsbD_extractLsb', ← bit, ← bit, h.op,
    bit_sdtWord (by omega)]

lemma low12 : c.op &&& 0xFFF = op2 &&& 0xFFF := by
  apply BitVec.eq_of_getLsbD_eq
  intro i hi
  rw [BitVec.getLsbD_and, BitVec.getLsbD_and]
  by_cases h12 : i < 12
  · rw [← bit_eq_getLsbD, ← bit_eq_getLsbD op2, h.op, bit_sdtWord h12]
  · have hz : (0xFFF : Word).getLsbD i = false := by
      refine Nat.testBit_lt_two_pow (Nat.lt_of_lt_of_le (?_ : _ < 2 ^ 12) ?_)
      · decide
      · exact Nat.pow_le_pow_right (by decide) (by omega)
    rw [hz, Bool.and_false, Bool.and_false]

variable {s : Arm7DI} {inp : ℕ → Input} {scratch : Word} (hl : Loaded s inp c scratch)

include hl

lemma offset : s.sdtOffset c.op = off := by
  obtain ⟨hI, -⟩ := h.bits
  obtain ⟨-, hn, -⟩ := h.fields
  unfold Arm7DI.sdtOffset
  rw [hI]
  cases I with
  | false =>
    rw [if_neg Bool.false_ne_true, h.low12]
    exact h.operand.imm rfl
  | true =>
    obtain ⟨hm, hne⟩ := h.operand.rm rfl
    rw [if_pos rfl, h.low (by decide), h.low (by decide), h.low (by decide), hl.rd hm, hl.carry,
      linked_other h.region hn hm h.usableN hne]
    exact h.operand.shift rfl

/-- The effective address is the one meant. -/
lemma sdtAddr : s.sdtAddr c.op = scratch + A := by
  obtain ⟨-, hP, hU, -⟩ := h.bits
  obtain ⟨-, hn, -⟩ := h.fields
  rw [Arm7DI.sdtAddr, Arm7DI.sdtCalc, h.offset hl, hP, hU, hn, hl.rd h.usableN,
    linked_base h.region hn, h.input]
  cases P <;> cases U <;>
    simp only [if_true, if_false, Bool.false_eq_true]
  · bv_omega
  · bv_omega

omit hl in
lemma selfContained (hc : c.cls = .sdt) : SelfContained c := by
  obtain ⟨hcc, hn, hd⟩ := h.fields
  obtain ⟨hI, hP, hU, hB, hW, hL⟩ := h.bits
  have hseq : seqOf c.op = .sdt := by
    rw [h.op]
    exact seqOf_sdtWord h.operand.high h.operand.bit4
  have hnamed : ∀ r ∈ named c.op, Usable r := by
    simp only [named, hseq, hn, hd, hI]
    intro r hr
    cases I with
    | false =>
      obtain rfl | rfl : r = rn ∨ r = rd := by simpa using hr
      · exact h.usableN
      · exact h.usableD
    | true =>
      obtain rfl | rfl | rfl : r = rn ∨ r = rd ∨ r = field c.op 0 4 := by simpa using hr
      · exact h.usableN
      · exact h.usableD
      · rw [h.low (by decide)]
        exact (h.operand.rm rfl).1
  refine ⟨hseq.trans (by rw [hc]; rfl), hcc ▸ h.cond, fun h13 => (hnamed 13 h13).1 rfl,
    fun h15 => absurd rfl (hnamed 15 h15).2, fun _ hwb => ?_, ?_, ?_, ?_, fun k' hk' => ?_⟩
  · rw [hn, hd]
    rw [sdtWb, hP, hW] at hwb
    exact h.base hwb
  · simp [hc]
  · simp [hc]
  · simp [hc, h.region]
  · obtain rfl : k = k' := Option.some.inj (h.region.symm.trans hk')
    refine staysIn_of (Or.inl hseq) (hn ▸ h.usableN.2) ?_ fun s inp scratch hs hl j _ _ => ?_
    · rintro ⟨-, ⟨-, h15⟩ | ⟨hb, -⟩⟩
      · exact h.usableD.2 (hd ▸ h15)
      · rw [hseq] at hb
        cases hb
    · obtain ⟨i, hi, hA⟩ := h.addr
      rw [transferAddr, hseq]
      rw [h.sdtAddr hl]
      exact inRegion_masked hs hi hA

end SdtCase

end QemuDiff

end Wren7
