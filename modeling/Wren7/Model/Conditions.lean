import Mathlib.Tactic.IntervalCases
import Wren7.Bits.Carry
import Wren7.Model.Instr

/-!
# What the flags mean

The four flags after a comparison decide how its operands are related, and a chain of additions or
subtractions that hand on the carry works on numbers of any number of words.
-/

namespace Wren7

open Bits Reactive

/-! ### The adder -/

/-- The adder of the model is an adder of words with a carry. -/
lemma add_eq (a b : Word) (c : Bool) :
    add a b c = (addc a b c, BitVec.carry 32 a b c, signFlip a b (addc a b c)) := by
  have hc : c.toNat ≤ 1 := Bool.toNat_le c
  have h64 : (a.setWidth 64 + b.setWidth 64 + BitVec.ofNat 64 c.toNat).toNat =
      a.toNat + b.toNat + c.toNat := by
    simp only [BitVec.toNat_add, BitVec.toNat_setWidth, BitVec.toNat_ofNat]
    omega
  have hsum : (a.setWidth 64 + b.setWidth 64 + BitVec.ofNat 64 c.toNat).setWidth 32 =
      addc a b c := by
    apply BitVec.eq_of_toNat_eq
    rw [BitVec.toNat_setWidth, h64]
    simp [addc, BitVec.toNat_add]
  simp only [add, hsum, Prod.mk.injEq, true_and]
  refine ⟨?_, ?_⟩
  · rw [bit, BitVec.getLsbD, h64, BitVec.carry_width, Nat.testBit_eq_decide_div_mod_eq,
      decide_eq_decide]
    omega
  · rw [signFlip, BitVec.msb_eq_getLsbD_last, BitVec.msb_eq_getLsbD_last,
      BitVec.msb_eq_getLsbD_last]
    simp only [bit, BitVec.getLsbD_and, BitVec.getLsbD_not, BitVec.getLsbD_xor]
    cases a.getLsbD 31 <;> cases b.getLsbD 31 <;> cases (addc a b c).getLsbD 31 <;> rfl

/-! ### Flags and conditions -/

structure Flags where
  n : Bool
  z : Bool
  c : Bool
  v : Bool
  deriving DecidableEq, Repr

/-- The flags of a PSR. -/
def flagsOf (psr : Word) : Flags := ⟨bit psr 31, bit psr 30, bit psr 29, bit psr 28⟩

/-- The flags that a data operation sets. -/
def Flags.ofAlu (alu : Word × Bool × Bool) : Flags := ⟨alu.1.msb, alu.1 == 0, alu.2.1, alu.2.2⟩

lemma flagsOf_setFlags (psr res : Word) (c v : Bool) :
    flagsOf ((psr &&& 0x0FFFFFFF) ||| (res &&& psrN) ||| maskIf (res == 0) psrZ |||
      maskIf c psrC ||| maskIf v psrV) = ⟨res.msb, res == 0, c, v⟩ := by
  simp only [flagsOf, bit, BitVec.getLsbD_or, BitVec.getLsbD_and, getLsbD_maskIf,
    BitVec.msb_eq_getLsbD_last, Flags.mk.injEq]
  simp [psrN, psrZ, psrC, psrV]

/-- What a condition says about `a` and `b` after `a - b`. -/
def Compares (cc : BitVec 4) (a b : Word) : Prop :=
  match cc with
  | 0x0 => a = b
  | 0x1 => a ≠ b
  | 0x2 => a ≥ b
  | 0x3 => a < b
  | 0x4 => (a - b).toInt < 0
  | 0x5 => 0 ≤ (a - b).toInt
  | 0x6 => Overflows 32 (a.toInt - b.toInt)
  | 0x7 => ¬Overflows 32 (a.toInt - b.toInt)
  | 0x8 => a > b
  | 0x9 => a ≤ b
  | 0xA => a.toInt ≥ b.toInt
  | 0xB => a.toInt < b.toInt
  | 0xC => a.toInt > b.toInt
  | 0xD => a.toInt ≤ b.toInt
  | 0xE => True
  | _ => False

namespace Arm7DI

variable {s : Arm7DI}

/-- The condition decoder on the flags of a difference. -/
lemma condPass_sub {a b op : Word} (h : flagsOf s.cpsr = .ofAlu (add a (~~~b) true)) :
    s.condPass op = true ↔ Compares (field op 28 4) a b := by
  rw [add_eq, addc_not, flagsOf, Flags.ofAlu, Flags.mk.injEq] at h
  obtain ⟨hn, hz, hc, hv⟩ := h
  have hz' : (a - b == 0) = true ↔ a = b := by
    simp [BitVec.sub_eq_iff_eq_add]
  have hn' : (a - b).msb = true ↔ (a - b).toInt < 0 := by simp [BitVec.msb_eq_toInt]
  have hc' := carry_not_iff a b
  have hv' := signFlip_sub_iff a b (Nat.succ_pos 31)
  have hlt := slt_iff a b (Nat.succ_pos 31)
  have heq : a = b ↔ a.toInt = b.toInt := BitVec.toInt_inj.symm
  have hle : a ≤ b ↔ ¬b ≤ a ∨ a = b := by
    rw [BitVec.le_def, BitVec.le_def, BitVec.toNat_inj.symm]
    omega
  unfold condPass
  simp only [hn, hz, hc, hv]
  generalize (a - b).msb = N, (a - b == 0) = Z, BitVec.carry 32 a (~~~b) true = C,
    signFlip a (~~~b) (a - b) = V at hn' hz' hc' hv' hlt
  have hcc : ∀ cc : BitVec 4, cc = 0 ∨ cc = 1 ∨ cc = 2 ∨ cc = 3 ∨ cc = 4 ∨ cc = 5 ∨ cc = 6 ∨
      cc = 7 ∨ cc = 8 ∨ cc = 9 ∨ cc = 10 ∨ cc = 11 ∨ cc = 12 ∨ cc = 13 ∨ cc = 14 ∨ cc = 15 := by
    decide
  rcases hcc (field op 28 4) with e | e | e | e | e | e | e | e | e | e | e | e | e | e | e | e <;>
    rw [e]
  · exact hz'
  · change (!Z) = true ↔ a ≠ b
    grind
  · exact hc'
  · change (!C) = true ↔ a < b
    grind
  · exact hn'
  · change (!N) = true ↔ 0 ≤ (a - b).toInt
    grind
  · exact hv'
  · change (!V) = true ↔ ¬Overflows 32 (a.toInt - b.toInt)
    grind
  · change (C && !Z) = true ↔ b < a
    grind
  · change (!C || Z) = true ↔ a ≤ b
    grind
  · change (N == V) = true ↔ b.toInt ≤ a.toInt
    grind
  · change (N != V) = true ↔ a.toInt < b.toInt
    grind
  · change (!Z && N == V) = true ↔ b.toInt < a.toInt
    grind
  · change (Z || N != V) = true ↔ a.toInt ≤ b.toInt
    grind
  · exact iff_of_true rfl trivial
  · exact iff_of_false Bool.false_ne_true not_false

/-! ### A data operation in a run -/

section Run

/-- The operands of a data operation, and the shifter's carry. -/
def operands (s : Arm7DI) (op : Word) : Word × Word × Bool :=
  if regShift op then (s.rd (field op 16 4) (s.pc + 4), s.dpShifted op)
  else (s.rd (field op 16 4) s.pc, s.dpOperand op (bit s.cpsr 29))

/-- What the ALU makes of them. -/
def aluOut (s : Arm7DI) (op : Word) : Word × Bool × Bool :=
  dpAlu (field op 21 4) (s.operands op).1 (s.operands op).2.1 (bit s.cpsr 29) (s.operands op).2.2
    (bit s.cpsr 28)

/-- The bus cycles of a data operation that does not write R15. -/
def dpCycles (op : Word) : ℕ := if regShift op then 2 else 1

/-- At this boundary the data operation `op` begins, and its condition holds. -/
structure IssuesDp (s : Arm7DI) (inp : ℕ → Input) (op : Word) : Prop where
  quiet : (s.poke (inp 0).lines).Quiet
  word : s.ex.word = op
  seq : seqOf op = .dp
  passes : s.condPass op = true

variable {inp : ℕ → Input} {op : Word} {first next : BitVec 4}

/-- In the run the data operation takes its cycles, and what it leaves follows from its operands. -/
lemma IssuesDp.performs (h : s.IssuesDp inp op) (hw : writesPc op = false) :
    (core.after s inp (dpCycles op)).atBoundary ∧ (core.after s inp (dpCycles op)).arch =
      (((s.begun inp .dp).stepped (inp 0).ans .S).wrIf (!isTest (s.begun inp .dp).x.op)
        (field (s.begun inp .dp).x.op 12 4) ((s.begun inp .dp).dpLatched.dpValue
          (s.operands op).1 (s.operands op).2.1 (s.operands op).2.2).1).setCpsr
        ((s.begun inp .dp).dpLatched.dpCpsr (s.operands op).1 (s.operands op).2.1
          (s.operands op).2.2) := by
  have hop : (s.begun inp .dp).x.op = op := begun_op h.word
  have hseq : (s.begun inp .dp).seq = .dp := rfl
  have hk : (s.begun inp .dp).k = 0 := rfl
  unfold operands dpCycles
  rcases Bool.eq_false_or_eq_true (regShift op) with hr | hr
  · have ha : (s.begun inp .dp).rd (field (s.begun inp .dp).x.op 16 4) ((s.begun inp .dp).pc + 4) =
        s.rd (field op 16 4) (s.pc + 4) := by rw [hop, begun_rd, begun_pc]
    have hb : (s.begun inp .dp).dpShifted (s.begun inp .dp).x.op = s.dpShifted op := by
      simp only [hop, dpShifted, begun_rd, begun_pc, begun_cpsr]
    have hp := h.quiet.performs h.word h.passes h.seq (by decide)
      (finishes_dpShift hseq hk (by rw [hop, hr]) ha hb (by rw [hop, hw]))
    rw [hr]
    exact ⟨hp.boundary, hp.arch⟩
  · have ha : (s.begun inp .dp).rd (field (s.begun inp .dp).x.op 16 4) (s.begun inp .dp).pc =
        s.rd (field op 16 4) s.pc := by rw [hop, begun_rd, begun_pc]
    have hb : (s.begun inp .dp).dpOperand (s.begun inp .dp).x.op (bit (s.begun inp .dp).cpsr 29) =
        s.dpOperand op (bit s.cpsr 29) := by
      simp only [hop, dpOperand, begun_rd, begun_pc, begun_cpsr]
    have hp := h.quiet.performs h.word h.passes h.seq (by decide)
      (finishes_dp hseq hk (by rw [hop, hr]) (by rw [hop, hw]) ha hb)
    rw [hr]
    exact ⟨hp.boundary, hp.arch⟩

/-- The flags and the result after a data operation that sets the flags. -/
lemma IssuesDp.ends (h : s.IssuesDp inp op) (hrd : field op 12 4 ≠ 15) (hS : bit op 20 = true) :
    (core.after s inp (dpCycles op)).atBoundary ∧
      flagsOf (core.after s inp (dpCycles op)).cpsr = .ofAlu (s.aluOut op) ∧
      (isTest op = false →
        (core.after s inp (dpCycles op)).gpr (phys (field op 12 4) s.bank) = (s.aluOut op).1) := by
  have hrd' : (field op 12 4 == 15) = false := beq_false_of_ne hrd
  obtain ⟨hb, ht⟩ := h.performs (by rw [writesPc, hrd', Bool.false_and])
  have hop : (s.begun inp .dp).x.op = op := begun_op h.word
  have hval : (s.begun inp .dp).dpLatched.dpValue (s.operands op).1 (s.operands op).2.1
      (s.operands op).2.2 = s.aluOut op := by
    simp only [dpValue, dpLatched, aluOut, setX_x, setX_cpsr, hop, begun_cpsr]
  refine ⟨hb, ?_, fun htest => ?_⟩
  · have hc := congrArg Arch.cpsr ht
    rw [arch_cpsr] at hc
    rw [hc]
    change flagsOf ((s.begun inp .dp).dpLatched.dpCpsr _ _ _) = _
    rw [dpCpsr, hval]
    simp only [dpLatched, setX_x, hop, hS, hrd']
    exact flagsOf_setFlags _ _ _ _
  · have hg := congrArg Arch.gpr ht
    rw [arch_gpr] at hg
    rw [hg, hop, htest, hval]
    have hbank : ((s.begun inp .dp).stepped (inp 0).ans .S).bank = s.bank :=
      begun_bank (r := .dp)
    simp only [Bool.not_false, Arch.wrIf, Arch.wr, Arch.wrBank, Arch.setCpsr, if_true, if_neg hrd,
      hbank, Function.update_self]

/-- Without the S bit the opcode of a comparison is a PSR transfer. -/
lemma sets_of_cmp (hseq : seqOf op = .dp) (hopc : field op 21 4 = 0xA) : bit op 20 = true := by
  by_contra hS
  have hbits : ∀ i < 4, bit op (21 + i) = bit (0xA : BitVec 4) i := fun i hi => by
    rw [← hopc, bit, bit, field, BitVec.getLsbD_extractLsb', decide_eq_true hi, Bool.true_and]
  have hpsr : op &&& 0x01900000 = 0x01000000 := by
    have h23 := hbits 2 (by decide)
    have h24 := hbits 3 (by decide)
    simp only [bit] at h23 h24 hS
    apply BitVec.eq_of_getLsbD_eq
    intro i hi
    rw [BitVec.getLsbD_and]
    interval_cases i <;> simp_all
  revert hseq
  unfold seqOf
  rw [if_pos hpsr]
  split <;> (try split_ifs) <;> simp

/-- The conditions after a comparison. -/
lemma IssuesDp.compares (h : s.IssuesDp inp op) (hopc : field op 21 4 = 0xA)
    (hrd : field op 12 4 ≠ 15) (w : Word) :
    (core.after s inp (dpCycles op)).condPass w = true ↔
      Compares (field w 28 4) (s.operands op).1 (s.operands op).2.1 := by
  refine condPass_sub ?_
  rw [(h.ends hrd (sets_of_cmp h.seq hopc)).2.1, aluOut, hopc]
  rfl

/-! ### Chains -/

variable {ops : ℕ → Word} {time : ℕ → ℕ} {n : ℕ}

/-- The state in which the `k`-th operation of a chain begins. -/
def before (s : Arm7DI) (inp : ℕ → Input) (time : ℕ → ℕ) (k : ℕ) : Arm7DI :=
  core.after s inp (time k)

/-- The state at the boundary after it. -/
def behind (s : Arm7DI) (inp : ℕ → Input) (ops : ℕ → Word) (time : ℕ → ℕ) (k : ℕ) : Arm7DI :=
  core.after s inp (time k + dpCycles (ops k))

/-- In the run `n` operations that set the flags, the first with the opcode `first` and the others
with `next`, begin at the given times. Each finds the flags that the one before it left; whatever
else happens in between does not matter. -/
structure Chain (s : Arm7DI) (inp : ℕ → Input) (first next : BitVec 4) (ops : ℕ → Word)
    (time : ℕ → ℕ) (n : ℕ) : Prop where
  issues : ∀ k < n, (s.before inp time k).IssuesDp (fun j => inp (time k + j)) (ops k)
  opcode : ∀ k < n, field (ops k) 21 4 = if k = 0 then first else next
  sets : ∀ k < n, bit (ops k) 20 = true
  rd : ∀ k < n, field (ops k) 12 4 ≠ 15
  flags : ∀ k, k + 1 < n →
    flagsOf (s.before inp time (k + 1)).cpsr = flagsOf (s.behind inp ops time k).cpsr

section Words

variable (s inp ops time)

/-- The `k`-th word of Rn. -/
def wordA (k : ℕ) : Word := ((s.before inp time k).operands (ops k)).1

/-- The `k`-th word of operand 2. -/
def wordB (k : ℕ) : Word := ((s.before inp time k).operands (ops k)).2.1

/-- The `k`-th word of the result. -/
def wordR (k : ℕ) : Word :=
  (s.behind inp ops time k).gpr (phys (field (ops k) 12 4) (s.before inp time k).bank)

end Words

/-- The carry that comes into the `k`-th word. -/
def carryIn (s : Arm7DI) (inp : ℕ → Input) (ops : ℕ → Word) (time : ℕ → ℕ) (c0 : Bool) : ℕ → Bool
  | 0 => c0
  | k + 1 => bit (s.behind inp ops time k).cpsr 29

/-- A chain whose operations add the words that `g` makes of their operands. -/
lemma Chain.sum (h : Chain s inp first next ops time (n + 1)) {g : Word → Word → Word × Word}
    {c0 : Bool} (htest : (first &&& 0xC == 0x8) = false ∧ (next &&& 0xC == 0x8) = false)
    (hfirst : ∀ a b cin sc v, dpAlu first a b cin sc v = add (g a b).1 (g a b).2 c0)
    (hnext : ∀ a b cin sc v, dpAlu next a b cin sc v = add (g a b).1 (g a b).2 cin) :
    let X := number (fun k => (g (wordA s inp ops time k) (wordB s inp ops time k)).1) (n + 1)
    let Y := number (fun k => (g (wordA s inp ops time k) (wordB s inp ops time k)).2) (n + 1)
    let f := flagsOf (s.behind inp ops time n).cpsr
    let R := number (wordR s inp ops time) (n + 1)
    R = addc X Y c0 ∧ f.n = R.msb ∧ f.c = BitVec.carry (32 * (n + 1)) X Y c0 ∧
      f.v = signFlip X Y (addc X Y c0) := by
  intro X Y f R
  set x := fun k => (g (wordA s inp ops time k) (wordB s inp ops time k)).1
  set y := fun k => (g (wordA s inp ops time k) (wordB s inp ops time k)).2
  have halu (k : ℕ) (hk : k < n + 1) : (s.before inp time k).aluOut (ops k) =
      add (x k) (y k) (s.carryIn inp ops time c0 k) := by
    rw [aluOut, h.opcode k hk]
    cases k with
    | zero => exact hfirst _ _ _ _ _
    | succ k =>
      have hc : bit (s.before inp time (k + 1)).cpsr 29 = bit (s.behind inp ops time k).cpsr 29 :=
        congrArg Flags.c (h.flags k hk)
      rw [if_neg (Nat.succ_ne_zero k), hnext, hc]
      rfl
  have hends (k : ℕ) (hk : k < n + 1) :
      flagsOf (s.behind inp ops time k).cpsr =
        .ofAlu (add (x k) (y k) (s.carryIn inp ops time c0 k)) ∧
      wordR s inp ops time k = (add (x k) (y k) (s.carryIn inp ops time c0 k)).1 := by
    obtain ⟨-, hf, hr⟩ := (h.issues k hk).ends (h.rd k hk) (h.sets k hk)
    have hstate : core.after (s.before inp time k) (fun j => inp (time k + j)) (dpCycles (ops k)) =
        s.behind inp ops time k := (core.after_add s inp _ _).symm
    rw [hstate, halu k hk] at hf hr
    refine ⟨hf, hr ?_⟩
    rw [isTest, h.opcode k hk]
    split_ifs
    · exact htest.1
    · exact htest.2
  have hR (k : ℕ) (hk : k < n + 1) : wordR s inp ops time k =
      addc (x k) (y k) (s.carryIn inp ops time c0 k) := by
    rw [(hends k hk).2, add_eq]
  have hC (k : ℕ) (hk : k < n + 1) : s.carryIn inp ops time c0 (k + 1) =
      BitVec.carry 32 (x k) (y k) (s.carryIn inp ops time c0 k) := by
    have := congrArg Flags.c (hends k hk).1
    rwa [add_eq] at this
  obtain ⟨hnum, hcarry⟩ := number_addc hR hC
  change R = addc X Y c0 at hnum
  have hf := (hends n (Nat.lt_succ_self n)).1
  rw [add_eq, ← hR n (Nat.lt_succ_self n)] at hf
  refine ⟨hnum, ?_, hcarry, ?_⟩
  · rw [msb_number _ (by decide)]
    exact congrArg Flags.n hf
  · rw [← hnum, signFlip_number (by decide)]
    exact congrArg Flags.v hf

/-- After subtracting `B` from `A`: the difference, its carry and overflow, and the conditions that
compare numbers of any number of words. -/
structure Subtracts (t : Arm7DI) {m : ℕ} (R A B : BitVec m) : Prop where
  value : R = A - B
  carry : bit t.cpsr 29 = true ↔ A ≥ B
  overflow : bit t.cpsr 28 = true ↔ Overflows m (A.toInt - B.toInt)
  hs : ∀ w, field w 28 4 = 0x2 → (t.condPass w = true ↔ A ≥ B)
  lo : ∀ w, field w 28 4 = 0x3 → (t.condPass w = true ↔ A < B)
  ge : ∀ w, field w 28 4 = 0xA → (t.condPass w = true ↔ A.toInt ≥ B.toInt)
  lt : ∀ w, field w 28 4 = 0xB → (t.condPass w = true ↔ A.toInt < B.toInt)

/-- The flags of a difference of any width, and its sign, decide the comparisons. -/
lemma subtracts {t : Arm7DI} {m : ℕ} {R A B : BitVec m} (hm : 0 < m) (hR : R = addc A (~~~B) true)
    (hc : bit t.cpsr 29 = BitVec.carry m A (~~~B) true)
    (hv : bit t.cpsr 28 = signFlip A (~~~B) (addc A (~~~B) true))
    (hn : bit t.cpsr 31 = R.msb) : Subtracts t R A B := by
  rw [addc_not] at hR hv
  have hcarry := carry_not_iff A B
  have hlt := slt_iff A B hm
  rw [← hc] at hcarry
  rw [← hR, ← hn, hR, ← hv] at hlt
  have hlow : A < B ↔ ¬B ≤ A := BitVec.not_le.symm
  refine ⟨hR, hcarry, by rw [hv]; exact signFlip_sub_iff A B hm, ?_, ?_, ?_, ?_⟩ <;> intro w hw <;>
    unfold condPass <;> rw [hw]
  · exact hcarry
  · change (!bit t.cpsr 29) = true ↔ A < B
    rw [hlow, ← hcarry, Bool.not_eq_true', Bool.not_eq_true]
  · change (bit t.cpsr 31 == bit t.cpsr 28) = true ↔ A.toInt ≥ B.toInt
    rw [beq_iff_eq, ge_iff_le, ← not_lt, hlt, not_not]
  · change (bit t.cpsr 31 != bit t.cpsr 28) = true ↔ A.toInt < B.toInt
    rw [bne_iff_ne, hlt]

/-- Additions: ADDS and then ADCS. -/
lemma Chain.adds (h : Chain s inp 0x4 0x5 ops time (n + 1)) :
    let A := number (wordA s inp ops time) (n + 1)
    let B := number (wordB s inp ops time) (n + 1)
    let t := s.behind inp ops time n
    number (wordR s inp ops time) (n + 1) = A + B ∧
      (bit t.cpsr 29 = true ↔ 2 ^ (32 * (n + 1)) ≤ A.toNat + B.toNat) ∧
      (bit t.cpsr 28 = true ↔ Overflows (32 * (n + 1)) (A.toInt + B.toInt)) := by
  intro A B t
  obtain ⟨hr, -, hc, hv⟩ := h.sum (g := fun a b => (a, b)) ⟨rfl, rfl⟩
    (fun _ _ _ _ _ => rfl) (fun _ _ _ _ _ => rfl)
  rw [addc_false] at hr hv
  exact ⟨hr, by rw [← carry_add_iff, ← hc]; rfl, by rw [← signFlip_add_iff, ← hv]; rfl⟩

/-- Subtractions: SUBS and then SBCS. -/
lemma Chain.subs (h : Chain s inp 0x2 0x6 ops time (n + 1)) :
    Subtracts (s.behind inp ops time n) (number (wordR s inp ops time) (n + 1))
      (number (wordA s inp ops time) (n + 1)) (number (wordB s inp ops time) (n + 1)) := by
  obtain ⟨hr, hn, hc, hv⟩ := h.sum (g := fun a b => (a, ~~~b)) ⟨rfl, rfl⟩
    (fun _ _ _ _ _ => rfl) (fun _ _ _ _ _ => rfl)
  rw [number_not] at hr hc hv
  exact subtracts (by omega) hr hc hv hn

/-- Reversed subtractions: RSBS and then RSCS. -/
lemma Chain.rsbs (h : Chain s inp 0x3 0x7 ops time (n + 1)) :
    Subtracts (s.behind inp ops time n) (number (wordR s inp ops time) (n + 1))
      (number (wordB s inp ops time) (n + 1)) (number (wordA s inp ops time) (n + 1)) := by
  obtain ⟨hr, hn, hc, hv⟩ := h.sum (g := fun a b => (b, ~~~a)) ⟨rfl, rfl⟩
    (fun _ _ _ _ _ => rfl) (fun _ _ _ _ _ => rfl)
  rw [number_not] at hr hc hv
  exact subtracts (by omega) hr hc hv hn

end Run

end Arm7DI

end Wren7
