import Mathlib.Tactic.IntervalCases
import Mathlib.Tactic.Ring
import Wren7.Bits.Booth
import Wren7.Model.Instr

/-!
# Multiplication

The Booth steps of MUL and MLA as a machine of their own, what it computes, and the bus cycles of
the sequence with what they leave.
-/

namespace Wren7

open Bits

/-- The data of a multiplication between two Booth steps. -/
structure Booth where
  gpr : Fin 31 → Word
  acc : Word
  mul : Word
  borrow : Bool
  aluC : Bool
  shC : Bool

/-- The digit that the next Booth step takes from the multiplier. -/
def Booth.digit (b : Booth) : ℤ := Wren7.digit (bit b.mul 1) (bit b.mul 0) b.borrow

namespace Arm7DI

variable (q : Arm7DI)

/-- The data of the state. -/
def boothData : Booth := ⟨q.gpr, q.x.acc, q.x.mul, q.x.borrow, q.x.aluC, q.x.shC⟩

/-- The data after the first cycle of the multiplication that begins in `q`. -/
def boothInit : Booth where
  gpr := (q.wr (field q.x.op 16 4)
    (if bit q.x.op 21 then q.rd (field q.x.op 12 4) q.pc else 0)).gpr
  acc := if bit q.x.op 21 then q.rd (field q.x.op 12 4) q.pc else 0
  mul := q.rd (field q.x.op 8 4) q.pc
  borrow := false
  aluC := false
  shC := false

/-- A state of the multiplication that begins in `q`, with its data. -/
def withBooth (b : Booth) : Arm7DI :=
  { q with
    gpr := b.gpr
    pc := q.pc + 4
    x := { q.x with
      acc := b.acc, mul := b.mul, borrow := b.borrow, aluC := b.aluC, shC := b.shC } }

/-- Booth step `k`. -/
def boothNext (k : ℕ) (b : Booth) : Booth :=
  let s := (q.withBooth b)
  (mulStep (s.setX { s.x with borrow := bit b.mul 1, mul := b.mul >>> 2 }) k
    (s.rd (field q.x.op 0 4) s.pc) (digit (bit b.mul 1) (bit b.mul 0) b.borrow)).boothData

/-- The data after `k` Booth steps. -/
def booth : ℕ → Booth
  | 0 => q.boothInit
  | k + 1 => q.boothNext k (booth k)

/-- The number of Booth steps. -/
def boothSteps : ℕ := mulSteps (q.rd (field q.x.op 8 4) q.pc)

/-- The flags that a multiplication leaves. -/
def mulCpsr (b : Booth) : Word :=
  if bit q.x.op 20 then
    (q.cpsr &&& 0x1FFFFFFF) ||| (b.acc &&& psrN) ||| maskIf (b.acc == 0) psrZ |||
      maskIf (match q.mulCarry with
        | .keep => bit q.cpsr 29
        | .aluLast => b.aluC
        | .shifterLast => b.shC) psrC
  else q.cpsr

variable {q} {as : ℕ → Answer} {i : ℕ} {u : Arm7DI} {row : List Signals} {A : Arch}

/-! ### The cycles -/

lemma sequence_mul (hq : u.seq = .mul) : u.sequence = u.cMul := by rw [sequence, hq]

/-- The multiplication that began in `q` is before Booth step `k`. -/
structure MulAt (q : Arm7DI) (a : Answer) (k : ℕ) (u : Arm7DI) : Prop where
  seq : u.seq = .mul
  step : u.k = k + 1
  nextType : u.nextType = .I
  op : u.x.op = q.x.op
  m : u.x.m = q.boothSteps
  data : u.boothData = q.booth k
  pc : u.pc = q.pc + 4
  cpsr : u.cpsr = q.cpsr
  mulCarry : u.mulCarry = q.mulCarry
  arch : { (u.arch.announce .S).slide u.de u.f1 with gpr := q.gpr } = q.stepped a .S

/-- The state after the bus cycle of Booth step `k` and its work. -/
def boothed (u : Arm7DI) (a : Answer) (next : CycleType) : Arm7DI :=
  mulStep ((u.setX { u.x with borrow := bit u.x.mul 1, mul := u.x.mul >>> 2 }).sampled a next)
    (u.k - 1) (u.rd (field u.x.op 0 4) u.pc) (digit (bit u.x.mul 1) (bit u.x.mul 0) u.x.borrow)

lemma cMul_step (hk : u.k ≠ 0) : u.cMul =
    (u.setX { u.x with borrow := bit u.x.mul 1, mul := u.x.mul >>> 2 }).cyc u.pc u.idleFlags 0
      (if u.k - 1 == u.x.m - 1 then .S else .I) fun _ t =>
        if !(u.k - 1 == u.x.m - 1) then
          (t.mulStep (u.k - 1) (u.rd (field u.x.op 0 4) u.pc)
            (digit (bit u.x.mul 1) (bit u.x.mul 0) u.x.borrow)).setK (u.k + 1)
        else (t.mulStep (u.k - 1) (u.rd (field u.x.op 0 4) u.pc)
          (digit (bit u.x.mul 1) (bit u.x.mul 0) u.x.borrow)).mulFlags.advance.done := by
  unfold cMul
  rw [if_neg hk]
  rfl

/-- A Booth step reads the data, the instruction and the CPSR only. -/
lemma mulStep_data {s t : Arm7DI} (hop : s.x.op = t.x.op) (hc : s.cpsr = t.cpsr)
    (hd : s.boothData = t.boothData) (k : ℕ) (M : Word) (d : ℤ) :
    (s.mulStep k M d).boothData = (t.mulStep k M d).boothData := by
  simp only [boothData, Booth.mk.injEq] at hd
  obtain ⟨hg, ha, hm, hb, -, -⟩ := hd
  simp only [mulStep, boothData, wr, bank, wrBank_gpr, wrBank_x, setX_gpr, setX_x, setX_cpsr, hop, hc,
    hg, ha, hm, hb]

variable {a : Answer} {k : ℕ} {next : CycleType}

/-- The step of the data in a state of the run. -/
lemma MulAt.boothed_data (h : MulAt q a k u) :
    (u.boothed (as i) next).boothData = q.booth (k + 1) := by
  have hM : u.rd (field u.x.op 0 4) u.pc =
      (q.withBooth u.boothData).rd (field q.x.op 0 4) (q.pc + 4) := by
    simp only [rd, bank, h.op, h.pc, h.cpsr, withBooth, boothData]
  rw [booth, ← h.data, boothed, h.step, hM, boothNext]
  refine mulStep_data ?_ ?_ ?_ _ _ _
  · exact h.op
  · exact h.cpsr
  · rfl

lemma MulAt.idle (h : MulAt q a k u) :
    (⟨u.nextType, u.pc, 0, u.idleFlags⟩ : Signals) = q.idleCycle := by
  rw [h.nextType, h.pc, idleCycle, idleFlags, idleFlags, userFlag, userFlag, h.cpsr]

lemma MulAt.boothed (h : MulAt q a k u) : MulAt q a (k + 1) ((u.boothed (as i) .I).setK (u.k + 1)) where
  seq := h.seq
  step := congrArg (· + 1) h.step
  nextType := rfl
  op := h.op
  m := h.m
  data := h.boothed_data
  pc := h.pc
  cpsr := h.cpsr
  mulCarry := h.mulCarry
  arch := h.arch

lemma mulFlags_slide : u.mulFlags.arch.slide u.mulFlags.de u.mulFlags.f1 =
    (u.arch.slide u.de u.f1).setCpsr (u.mulCpsr u.boothData) := by
  unfold mulFlags mulCpsr
  split_ifs <;> rfl

lemma mulCpsr_congr {b : Booth} (hop : u.x.op = q.x.op) (hc : u.cpsr = q.cpsr)
    (hm : u.mulCarry = q.mulCarry) : u.mulCpsr b = q.mulCpsr b := by
  unfold mulCpsr
  rw [hop, hc, hm]

/-- The rest of a multiplication. -/
lemma finishes_booth {n : ℕ} (hn : k + n + 1 = q.boothSteps) (h : MulAt q a k u) :
    Finishes as i u (List.replicate (n + 1) q.idleCycle)
      { q.stepped a .S with
        gpr := (q.booth q.boothSteps).gpr, cpsr := q.mulCpsr (q.booth q.boothSteps) } := by
  induction n generalizing i u k with
  | zero =>
    have hk : u.k ≠ 0 := by rw [h.step]; exact Nat.succ_ne_zero k
    have hlast : (u.k - 1 == u.x.m - 1) = true := by
      rw [h.step, h.m, ← hn]
      exact beq_self_eq_true _
    have hd := (sequence_mul h.seq).trans (cMul_step hk)
    simp only [hlast, if_true, Bool.not_true, Bool.false_eq_true, if_false] at hd
    refine .cons (by simp [h.seq]) hd h.idle (finishes_done (u := (u.boothed (as i) .S).mulFlags) ?_)
    have hb : (u.boothed (as i) .S).boothData = q.booth (k + 1) := h.boothed_data
    rw [mulFlags_slide, hb, mulCpsr_congr (u := u.boothed (as i) .S) h.op h.cpsr h.mulCarry, ← hn,
      ← hb, ← h.arch]
    rfl
  | succ n ih =>
    have hk : u.k ≠ 0 := by rw [h.step]; exact Nat.succ_ne_zero k
    have hlast : (u.k - 1 == u.x.m - 1) = false := by
      rw [h.step, h.m, ← hn, beq_eq_false_iff_ne]
      omega
    have hd := (sequence_mul h.seq).trans (cMul_step hk)
    simp only [hlast, if_true, Bool.not_false, Bool.false_eq_true, if_false] at hd
    exact .cons (by simp [h.seq]) hd h.idle (ih (by omega) h.boothed)

lemma boothSteps_pos : 1 ≤ q.boothSteps := (mulSteps_spec _).1

/-- The latches of a multiplication in its first cycle. -/
def mulLatches (q : Arm7DI) : InFlight :=
  { q.x with mul := q.boothInit.mul, acc := q.boothInit.acc, m := q.boothSteps }

lemma cMul_first (hk : q.k = 0) : q.cMul = (q.setX q.mulLatches).cycle1Fetch .I fun t =>
    ((t.wr (field t.x.op 16 4) t.x.acc).setX
      { t.x with borrow := false, aluC := false, shC := false }).setK 1 := by
  unfold cMul
  rw [if_pos hk]
  rfl

/-- MUL and MLA. -/
lemma finishes_mul (hq : q.seq = .mul) (hk : q.k = 0) :
    Finishes as i q (q.fetchCycle :: List.replicate q.boothSteps q.idleCycle)
      { q.stepped (as i) .S with
        gpr := (q.booth q.boothSteps).gpr, cpsr := q.mulCpsr (q.booth q.boothSteps) } := by
  obtain ⟨n, hn⟩ := Nat.exists_eq_add_of_le' (boothSteps_pos (q := q))
  refine .cycle1 (by simp [hq]) ((sequence_mul hq).trans (cMul_first hk)) rfl ?_
  have hsteps : List.replicate q.boothSteps q.idleCycle = List.replicate (n + 1) q.idleCycle := by
    rw [hn]
  rw [hsteps]
  refine finishes_booth (k := 0) (by omega) ?_
  exact ⟨hq, rfl, rfl, rfl, rfl, rfl, rfl, rfl, rfl, rfl⟩

/-! ### What the steps compute -/

lemma add_fst (a b : Word) (cin : Bool) :
    (add a b cin).1 = a + b + BitVec.ofNat 32 cin.toNat := by
  apply BitVec.eq_of_toNat_eq
  simp only [add, BitVec.toNat_setWidth, BitVec.toNat_add, BitVec.toNat_ofNat]
  omega

lemma sub_fst (a b : Word) : (add a (~~~b) true).1 = a - b := by
  rw [add_fst, BitVec.sub_eq_add_neg, BitVec.neg_eq_not_add, add_assoc]
  rfl

lemma boothAdd_fst (d : ℤ) (acc m : Word) : (boothAdd d acc m).1 = acc + (d.sign : Word) * m := by
  rcases lt_trichotomy d 0 with h | rfl | h
  · rw [boothAdd, if_neg (by omega), if_pos h, Int.sign_eq_neg_one_of_neg h, sub_fst,
      Int.cast_neg, Int.cast_one, neg_one_mul, sub_eq_add_neg]
  · simp [boothAdd]
  · rw [boothAdd, if_pos h, Int.sign_eq_one_of_pos h, add_fst]
    simp

/-- The shift of Booth step `k`: an even digit shifts once more. -/
def boothShift (d : ℤ) (k : ℕ) : ℕ := 2 * k + (if d = 2 ∨ d = -2 then 1 else 0)

lemma digit_eq (b1 b0 br : Bool) : digit b1 b0 br = recode b1 b0 br := by
  cases b1 <;> cases b0 <;> cases br <;> rfl

/-- A Booth step adds the digit's share of the product. -/
lemma boothAdd_digit (b1 b0 br : Bool) (acc M : Word) (k : ℕ) :
    (boothAdd (digit b1 b0 br) acc (M <<< boothShift (digit b1 b0 br) k)).1 =
      acc + M * ((recode b1 b0 br * 4 ^ k : ℤ) : Word) := by
  have hpow : ((2 : Word) ^ (2 * k)) = ((4 ^ k : ℤ) : Word) := by
    push_cast
    rw [pow_mul]
    rfl
  have hd : ((digit b1 b0 br).sign : Word) *
      2 ^ (if digit b1 b0 br = 2 ∨ digit b1 b0 br = -2 then 1 else 0) =
        (recode b1 b0 br : Word) := by
    cases b1 <;> cases b0 <;> cases br <;> rfl
  rw [boothAdd_fst, shiftLeft_eq_mul_pow, boothShift, pow_add, hpow, Int.cast_mul, ← hd]
  ring

/-- The multiplier is used up two bits a step. -/
lemma booth_multiplier (q : Arm7DI) (k : ℕ) :
    (q.booth k).mul = (q.rd (field q.x.op 8 4) q.pc) >>> (2 * k) ∧
      (q.booth k).borrow = borrowAt (q.rd (field q.x.op 8 4) q.pc).toNat k := by
  induction k with
  | zero => exact ⟨rfl, rfl⟩
  | succ k ih =>
    have hmul : (q.booth (k + 1)).mul = (q.booth k).mul >>> 2 := rfl
    have hb : (q.booth (k + 1)).borrow = bit (q.booth k).mul 1 := rfl
    refine ⟨?_, ?_⟩
    · rw [hmul, ih.1, ← BitVec.shiftRight_add]
      rfl
    · rw [hb, ih.1, bit, BitVec.getLsbD_ushiftRight]
      rfl

lemma booth_digit (q : Arm7DI) (k : ℕ) :
    (q.booth k).digit = boothDigit (q.rd (field q.x.op 8 4) q.pc).toNat k := by
  obtain ⟨hmul, hb⟩ := q.booth_multiplier k
  rw [Booth.digit, digit_eq, hmul, hb, bit, bit, BitVec.getLsbD_ushiftRight,
    BitVec.getLsbD_ushiftRight]
  rfl

/-- The partial sum of the product after `k` steps. -/
def partialProduct (q : Arm7DI) (k : ℕ) : Word :=
  q.boothInit.acc + q.gpr (phys (field q.x.op 0 4) q.bank) *
    (boothSum (q.rd (field q.x.op 8 4) q.pc).toNat k : Word)

lemma partialProduct_succ (q : Arm7DI) (k : ℕ) : q.partialProduct (k + 1) =
    q.partialProduct k + q.gpr (phys (field q.x.op 0 4) q.bank) *
      ((boothDigit (q.rd (field q.x.op 8 4) q.pc).toNat k * 4 ^ k : ℤ) : Word) := by
  rw [partialProduct, partialProduct, boothSum, Int.cast_add]
  ring

/-- Nothing of the product is lost by the early end. -/
lemma partialProduct_boothSteps (q : Arm7DI) : q.partialProduct q.boothSteps = q.boothInit.acc +
    q.gpr (phys (field q.x.op 0 4) q.bank) * q.rd (field q.x.op 8 4) q.pc := by
  obtain ⟨h1, -, -, hend⟩ := mulSteps_spec (q.rd (field q.x.op 8 4) q.pc)
  rw [partialProduct, boothSum_cast]
  rcases hend with h | h
  · exact Or.inl (by rw [boothSteps, h])
  · refine Or.inr ⟨h1, ?_⟩
    have := congrArg BitVec.toNat h
    rw [BitVec.toNat_ushiftRight, Nat.shiftRight_eq_div_pow] at this
    exact Nat.lt_of_div_eq_zero (Nat.two_pow_pos _) this

section Value

variable (hd : field q.x.op 16 4 ≠ 15) (hm : field q.x.op 0 4 ≠ 15)

include hd hm

lemma boothNext_eq {b : Booth} : q.boothNext k b =
    let M := b.gpr (phys (field q.x.op 0 4) q.bank)
    let r := boothAdd b.digit (b.gpr (phys (field q.x.op 16 4) q.bank)) (M <<< boothShift b.digit k)
    { gpr := Function.update b.gpr (phys (field q.x.op 16 4) q.bank) r.1
      acc := r.1
      mul := b.mul >>> 2
      borrow := bit b.mul 1
      aluC := r.2
      shC := if boothShift b.digit k ≠ 0 then bit M (32 - boothShift b.digit k)
        else bit q.cpsr 29 } := by
  have hM : (q.withBooth b).rd (field q.x.op 0 4) (q.withBooth b).pc =
      b.gpr (phys (field q.x.op 0 4) q.bank) := if_neg hm
  have hop : (q.withBooth b).x.op = q.x.op := rfl
  rw [boothNext, hM]
  simp only [mulStep, boothData, wr, wrBank_gpr, wrBank_x, setX_gpr, setX_x, setX_bank, hop,
    if_neg hd]
  rfl

section Distinct

variable (hne : field q.x.op 16 4 ≠ field q.x.op 0 4)

include hne

/-- After `k` Booth steps Rd and the accumulator hold the partial sum, Rm its value. -/
lemma booth_eq (k : ℕ) :
    (q.booth k).gpr =
        Function.update q.gpr (phys (field q.x.op 16 4) q.bank) (q.partialProduct k) ∧
      (q.booth k).acc = q.partialProduct k := by
  have hphys : phys (field q.x.op 0 4) q.bank ≠ phys (field q.x.op 16 4) q.bank :=
    fun h => hne (phys_inj hd hm _ _ h.symm)
  induction k with
  | zero =>
    have hinit : q.partialProduct 0 = q.boothInit.acc := by simp [partialProduct, boothSum]
    rw [hinit]
    exact ⟨if_neg hd, rfl⟩
  | succ k ih =>
    have hstep : (boothAdd (q.booth k).digit (q.partialProduct k)
        (q.gpr (phys (field q.x.op 0 4) q.bank) <<< boothShift (q.booth k).digit k)).1 =
          q.partialProduct (k + 1) := by
      rw [partialProduct_succ, ← booth_digit, Booth.digit, boothAdd_digit, ← digit_eq]
    rw [booth, boothNext_eq hd hm, ih.1]
    simp only [Function.update_self, Function.update_of_ne hphys, Function.update_idem, hstep,
      and_self]

/-- The carry of the barrel shifter in Booth step `k`. -/
lemma booth_shC (k : ℕ) : (q.booth (k + 1)).shC =
    let sh := boothShift (boothDigit (q.rd (field q.x.op 8 4) q.pc).toNat k) k
    if sh ≠ 0 then bit (q.gpr (phys (field q.x.op 0 4) q.bank)) (32 - sh) else bit q.cpsr 29 := by
  have hphys : phys (field q.x.op 0 4) q.bank ≠ phys (field q.x.op 16 4) q.bank :=
    fun h => hne (phys_inj hd hm _ _ h.symm)
  rw [booth, boothNext_eq hd hm, (booth_eq hd hm hne k).1, booth_digit]
  simp only [Function.update_of_ne hphys]

end Distinct

/-- With Rd = Rm, MUL works on the zero that its first cycle stores. -/
lemma booth_same (heq : field q.x.op 16 4 = field q.x.op 0 4) (hA : bit q.x.op 21 = false) (k : ℕ) :
    (q.booth k).gpr = Function.update q.gpr (phys (field q.x.op 16 4) q.bank) 0 ∧
      (q.booth k).acc = 0 := by
  induction k with
  | zero =>
    have hinit : q.boothInit.acc = 0 := by simp [boothInit, hA]
    have hg : (q.booth 0).gpr = Function.update q.gpr (phys (field q.x.op 16 4) q.bank)
        q.boothInit.acc := if_neg hd
    exact ⟨hinit ▸ hg, hinit⟩
  | succ k ih =>
    have hstep : ∀ (d : ℤ) (n : ℕ), (boothAdd d (0 : Word) ((0 : Word) <<< n)).1 = 0 := fun d n => by
      simp [boothAdd_fst]
    rw [booth, boothNext_eq hd hm, ih.1, ← heq]
    simp only [Function.update_self, Function.update_idem, hstep, and_self]

end Value

/-! ### The data sheet's count -/

/-- `datasheet_m` of `timing_check.cpp`: the number of internal cycles for an operand Rs. -/
def DatasheetM (rs m : ℕ) : Prop :=
  rs ≤ 1 ∧ m = 1 ∨ 2 ^ 29 ≤ rs ∧ m = 16 ∨
    1 < rs ∧ rs < 2 ^ 29 ∧ 2 ^ (2 * m - 3) ≤ rs ∧ rs < 2 ^ (2 * m - 1)

lemma ushiftRight_eq_zero_iff {v : Word} {n : ℕ} : v >>> n = 0 ↔ v.toNat < 2 ^ n := by
  rw [← BitVec.toNat_inj, BitVec.toNat_ushiftRight, Nat.shiftRight_eq_div_pow]
  simp [Nat.div_eq_zero_iff]

lemma datasheetM_mulSteps (v : Word) : DatasheetM v.toNat (mulSteps v) := by
  obtain ⟨h1, h16, hne, hend⟩ := mulSteps_spec v
  simp only [ne_eq, ushiftRight_eq_zero_iff, Nat.not_lt] at hne hend
  have hmono : ∀ {a b : ℕ}, a ≤ b → 2 ^ a ≤ 2 ^ b := Nat.pow_le_pow_right Nat.two_pos
  rcases Nat.lt_or_ge 1 v.toNat with hv | hv
  · rcases Nat.lt_or_ge v.toNat (2 ^ 29) with hv' | hv'
    · have hm : v.toNat < 2 ^ (2 * mulSteps v - 1) := by
        rcases hend with h | h
        · exact Nat.lt_of_lt_of_le hv' (hmono (by omega))
        · exact h
      have h2 : 2 ≤ mulSteps v := by
        by_contra hlt
        rw [show mulSteps v = 1 by omega] at hm
        omega
      have hlow := hne (mulSteps v - 1) (by omega) (by omega)
      rw [show 2 * (mulSteps v - 1) - 1 = 2 * mulSteps v - 3 by omega] at hlow
      exact Or.inr (Or.inr ⟨hv, hv', hlow, hm⟩)
    · refine Or.inr (Or.inl ⟨hv', ?_⟩)
      rcases hend with h | h
      · exact h
      · by_contra h16'
        have := hmono (show 2 * mulSteps v - 1 ≤ 29 by omega)
        omega
  · refine Or.inl ⟨hv, ?_⟩
    by_contra h1'
    have := hne 1 (Nat.le_refl 1) (by omega)
    omega

/-- The data sheet gives one number for each operand. -/
lemma DatasheetM.unique {rs m m' : ℕ} (h : DatasheetM rs m) (h' : DatasheetM rs m') : m = m' := by
  have hmono : ∀ {a b : ℕ}, a ≤ b → 2 ^ a ≤ 2 ^ b := Nat.pow_le_pow_right Nat.two_pos
  rcases h with ⟨h, rfl⟩ | ⟨h, rfl⟩ | ⟨h, hlt, hl, hu⟩ <;>
    rcases h' with ⟨h', rfl⟩ | ⟨h', rfl⟩ | ⟨h', hlt', hl', hu'⟩ <;> try omega
  rcases Nat.lt_trichotomy m m' with h | h | h
  · have := hmono (show 2 * m - 1 ≤ 2 * m' - 3 by omega)
    omega
  · exact h
  · have := hmono (show 2 * m' - 1 ≤ 2 * m - 3 by omega)
    omega


/-! ### Multiplications in a run -/

section Flags

/-- The CPSR that MULS and MLAS leave. -/
def mulWord (old res : Word) (c : Bool) : Word :=
  (old &&& 0x1FFFFFFF) ||| (res &&& psrN) ||| maskIf (res == 0) psrZ ||| maskIf c psrC

variable {old res : Word} {c : Bool}

lemma bit_mulWord (j : ℕ) : bit (mulWord old res c) j =
    (bit old j && bit (0x1FFFFFFF : Word) j || bit res j && bit psrN j || (res == 0) && bit psrZ j ||
      c && bit psrC j) := by
  simp only [mulWord, bit, BitVec.getLsbD_or, BitVec.getLsbD_and, getLsbD_maskIf]

/-- Only the four flags differ. -/
lemma mulWord_control : mulWord old res c &&& 0x0FFFFFFF = old &&& 0x0FFFFFFF := by
  apply BitVec.eq_of_getLsbD_eq
  intro j hj
  rw [BitVec.getLsbD_and, BitVec.getLsbD_and, ← bit_eq_getLsbD, ← bit_eq_getLsbD, bit_mulWord]
  interval_cases j <;> simp [bit, psrN, psrZ, psrC]

/-- N and Z describe the result, V is kept, C is the given carry. -/
lemma mulWord_flags : bit (mulWord old res c) 31 = bit res 31 ∧
    bit (mulWord old res c) 30 = (res == 0) ∧ bit (mulWord old res c) 29 = c ∧
    bit (mulWord old res c) 28 = bit old 28 := by
  simp only [bit_mulWord]
  simp [bit, psrN, psrZ, psrC]

end Flags

/-- Where MULS takes its carry from. -/
def mulC (q : Arm7DI) (b : Booth) : Bool :=
  match q.mulCarry with
  | .keep => bit q.cpsr 29
  | .aluLast => b.aluC
  | .shifterLast => b.shC

lemma mulCpsr_eq {b : Booth} (hS : bit q.x.op 20 = true) :
    q.mulCpsr b = mulWord q.cpsr b.acc (q.mulC b) := by
  rw [mulCpsr, if_pos hS]
  rfl

lemma mulCpsr_keep {b : Booth} (hS : bit q.x.op 20 = false) : q.mulCpsr b = q.cpsr := by
  rw [mulCpsr, hS]
  rfl

/-- The instruction is a MUL or MLA. -/
def IsMul (op : Word) : Prop := op &&& 0x0FC000F0 = 0x00000090

lemma IsMul.seqOf_eq {op : Word} (h : IsMul op) : seqOf op = .mul := by
  have hf : field op 25 3 = 0 := by
    have hm : field (op &&& 0x0FC000F0) 25 3 = field op 25 3 := by
      rw [field, BitVec.extractLsb'_and]
      exact BitVec.and_allOnes
    rw [← hm, h]
    rfl
  have h90 : op &&& 0x90 = 0x90 := by
    have hm : op &&& 0x0FC000F0 &&& 0x90 = op &&& 0x90 := BitVec.and_assoc ..
    rw [← hm, h]
    rfl
  have h' : op &&& 0x0FC000F0 = 0x00000090 := h
  unfold seqOf
  rw [hf]
  exact (if_pos h90).trans (if_pos h')

section Run

variable {s : Arm7DI} {inp : ℕ → Input}

/-- A multiplication in a run. -/
lemma performs_mul {op : Word} (hs : (s.poke (inp 0).lines).Quiet) (hop : s.ex.word = op)
    (hc : s.condPass op = true) (hseq : seqOf op = .mul) :
    let q := (s.poke (inp 0).lines).issued .mul
    Performs s inp (q.fetchCycle :: List.replicate q.boothSteps q.idleCycle)
      { q.stepped (inp 0).ans .S with
        gpr := (q.booth q.boothSteps).gpr, cpsr := q.mulCpsr (q.booth q.boothSteps) } := by
  subst hop
  refine Finishes.performs ?_
  rw [hs.start_seq (by simpa using hc) (by simpa using hseq) (by decide)]
  exact finishes_mul rfl rfl

/-- A multiplication takes one internal cycle for each step of the data sheet's count, leaves
`Rm * Rs + Rn` in Rd, and with S the flags of that result, the old V and the carry of the last
step's shift. -/
theorem multiply {op : Word} (hs : (s.poke (inp 0).lines).Quiet) (hop : s.ex.word = op)
    (hc : s.condPass op = true) (hmul : IsMul op) (hd : field op 16 4 ≠ 15)
    (hm : field op 0 4 ≠ 15) (hrs : field op 8 4 ≠ 15)
    (hrn : bit op 21 = true → field op 12 4 ≠ 15) :
    ∃ m : ℕ,
      let rm := s.gpr (phys (field op 0 4) s.bank)
      let rs := s.gpr (phys (field op 8 4) s.bank)
      let rn := if bit op 21 then s.gpr (phys (field op 12 4) s.bank) else 0
      let sh := boothShift (boothDigit rs.toNat (m - 1)) (m - 1)
      let t := core.after s inp (m + 1)
      DatasheetM rs.toNat m ∧ NextBoundary s inp (m + 1) ∧
      (∀ j, 1 ≤ j → j ≤ m → (core.outs s inp j).type = .I) ∧
      t.pc = s.pc + 4 ∧ t.spsr = s.spsr ∧
      (field op 16 4 ≠ field op 0 4 →
        t.gpr = Function.update s.gpr (phys (field op 16 4) s.bank) (rm * rs + rn) ∧
        (bit op 20 = false → t.cpsr = s.cpsr) ∧
        (bit op 20 = true →
          bit t.cpsr 31 = bit (rm * rs + rn) 31 ∧ bit t.cpsr 30 = (rm * rs + rn == 0) ∧
          bit t.cpsr 28 = bit s.cpsr 28 ∧
          (s.mulCarry = .shifterLast →
            bit t.cpsr 29 = if sh = 0 then bit s.cpsr 29 else bit rm (32 - sh)) ∧
          t.cpsr &&& 0x0FFFFFFF = s.cpsr &&& 0x0FFFFFFF)) ∧
      (field op 16 4 = field op 0 4 → bit op 21 = false →
        t.gpr = Function.update s.gpr (phys (field op 16 4) s.bank) 0) := by
  have h := performs_mul hs hop hc hmul.seqOf_eq
  set q := (s.poke (inp 0).lines).issued .mul with hqdef
  have hqop : q.x.op = op := (congrArg Slot.word (poke_ex s _)).trans hop
  have hqb : q.bank = s.bank := poke_bank s _
  have hqg : q.gpr = s.gpr := poke_gpr s _
  have hqc : q.cpsr = s.cpsr := poke_cpsr s _
  have hrd : ∀ r v, r ≠ 15 → q.rd r v = s.gpr (phys r s.bank) := fun r v hr => by
    rw [rd, if_neg hr, hqg, hqb]
  have hm1 : 1 ≤ q.boothSteps := boothSteps_pos
  obtain ⟨n, hn⟩ := Nat.exists_eq_add_of_le' hm1
  have hrs' : q.rd (field q.x.op 8 4) q.pc = s.gpr (phys (field op 8 4) s.bank) := by
    rw [hqop, hrd _ _ hrs]
  have hacc : q.boothInit.acc = if bit op 21 then s.gpr (phys (field op 12 4) s.bank) else 0 := by
    rw [boothInit]
    dsimp only
    rw [hqop]
    split_ifs with hA
    · exact hrd _ _ (hrn hA)
    · rfl
  have hgpr := congrArg Arch.gpr h.arch
  have hcpsr := congrArg Arch.cpsr h.arch
  have hpc := congrArg Arch.pc h.arch
  have hspsr := congrArg Arch.spsr h.arch
  have hnext := h.next
  simp only [arch_gpr, arch_cpsr, arch_pc, arch_spsr, List.length_cons, List.length_replicate]
    at hgpr hcpsr hpc hspsr hnext
  refine ⟨q.boothSteps, ?_⟩
  dsimp only
  rw [← hrs', ← hacc, hgpr, hcpsr, hpc, hspsr]
  refine ⟨datasheetM_mulSteps _, hnext, fun j h1 hj => ?_, ?_, ?_, fun hne => ?_, fun heq hA => ?_⟩
  · obtain ⟨j, rfl⟩ := Nat.exists_eq_add_of_le' h1
    have hsig := h.signals (j + 1) (by simp; omega)
    rw [List.getElem_cons_succ, List.getElem_replicate] at hsig
    exact congrArg Signals.type hsig
  · exact congrArg (· + 4) (poke_pc s _)
  · exact poke_spsr s _
  · rw [← hqop] at hd hm hne
    obtain ⟨hval, hvacc⟩ := booth_eq hd hm hne q.boothSteps
    have hprod : q.partialProduct q.boothSteps =
        s.gpr (phys (field op 0 4) s.bank) * q.rd (field q.x.op 8 4) q.pc + q.boothInit.acc := by
      rw [partialProduct_boothSteps, hqop, hqg, hqb, BitVec.add_comm]
    rw [hprod] at hval hvacc
    refine ⟨?_, fun hS => ?_, fun hS => ?_⟩
    · rw [hval, hqop, hqg, hqb]
    · rw [mulCpsr_keep (by rwa [hqop]), hqc]
    · obtain ⟨hN, hZ, hC, hV⟩ := @mulWord_flags q.cpsr (q.booth q.boothSteps).acc
        (q.mulC (q.booth q.boothSteps))
      rw [mulCpsr_eq (by rwa [hqop]), ← hvacc, ← hqc]
      refine ⟨hN, hZ, hV, fun hmc => ?_, mulWord_control⟩
      have hmc' : q.mulCarry = .shifterLast := (poke_mulCarry s _).trans hmc
      rw [hC, mulC, hmc', hn]
      dsimp only
      rw [booth_shC hd hm hne, hqop, hqg, hqb, Nat.add_sub_cancel]
      exact ite_not ..
  · rw [← hqop] at hd hm heq hA
    rw [(booth_same hd hm heq hA _).1, hqop, hqg, hqb]

/-- `MUL r1, r3, r2` with all registers zero. -/
theorem multiply_mul : ∃ m : ℕ, DatasheetM 0 m ∧ NextBoundary (resting 0xE0010293) (calm 0) (m + 1) ∧
    (core.after (resting 0xE0010293) (calm 0) (m + 1)).gpr =
      Function.update (fun _ => 0) 1 (0 * 0 + 0) := by
  have hs : ((resting 0xE0010293).poke (calm 0 0).lines).Quiet := resting_quiet _
  obtain ⟨m, hm, hnext, -, -, -, hval, -⟩ := multiply hs rfl (by decide)
    (by unfold IsMul; decide) (by decide) (by decide) (by decide) (by decide)
  exact ⟨m, hm, hnext, (hval (by decide)).1⟩

end Run

end Arm7DI

end Wren7
