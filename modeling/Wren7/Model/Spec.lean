import Wren7.Bits.SetBits
import Wren7.Model.Run

/-!
# What the sequencers do

The cycle a state drives, and the shared endings of the sequences, each in one equation.
-/

namespace Wren7

open Bits

namespace Arm7DI

variable (s : Arm7DI)

lemma setCpsr_self : s.setCpsr s.cpsr = s := rfl

lemma bank_eq_usr_of_mode (h : modeOf s.cpsr = mUsr) : s.bank = .usr := by
  rw [bank, h]
  rfl

lemma wrBank_setCpsr_self (r : Reg) (b : Bank) (v : Word) :
    (s.wrBank r b v).setCpsr s.cpsr = s.wrBank r b v := rfl

@[simp] lemma wrBank_bank (r : Reg) (b : Bank) (v : Word) : (s.wrBank r b v).bank = s.bank := rfl

/-- A physical register belongs to one register number, whatever the banks. -/
lemma phys_inj {r r' : Reg} (h : r ≠ 15) (h' : r' ≠ 15) (b b' : Bank)
    (he : phys r b = phys r' b') : r = r' := by
  revert r r'
  cases b <;> cases b' <;> decide

/-! ### Fields of a conditional state -/

section Ite

variable {p : Prop} [Decidable p] (s t : Arm7DI)

@[simp] lemma ite_seq : (if p then s else t).seq = if p then s.seq else t.seq :=
  apply_ite seq p s t

@[simp] lemma ite_k : (if p then s else t).k = if p then s.k else t.k :=
  apply_ite k p s t

@[simp] lemma ite_x : (if p then s else t).x = if p then s.x else t.x :=
  apply_ite x p s t

@[simp] lemma ite_gpr : (if p then s else t).gpr = if p then s.gpr else t.gpr :=
  apply_ite gpr p s t

@[simp] lemma ite_pc : (if p then s else t).pc = if p then s.pc else t.pc :=
  apply_ite pc p s t

@[simp] lemma ite_cpsr : (if p then s else t).cpsr = if p then s.cpsr else t.cpsr :=
  apply_ite cpsr p s t

@[simp] lemma ite_spsr : (if p then s else t).spsr = if p then s.spsr else t.spsr :=
  apply_ite spsr p s t

@[simp] lemma ite_ex : (if p then s else t).ex = if p then s.ex else t.ex :=
  apply_ite ex p s t

@[simp] lemma ite_de : (if p then s else t).de = if p then s.de else t.de :=
  apply_ite de p s t

@[simp] lemma ite_f1 : (if p then s else t).f1 = if p then s.f1 else t.f1 :=
  apply_ite f1 p s t

@[simp] lemma ite_nextType : (if p then s else t).nextType = if p then s.nextType else t.nextType :=
  apply_ite nextType p s t

@[simp] lemma ite_dabortPending : (if p then s else t).dabortPending = if p then s.dabortPending else t.dabortPending :=
  apply_ite dabortPending p s t

@[simp] lemma ite_inReset : (if p then s else t).inReset = if p then s.inReset else t.inReset :=
  apply_ite inReset p s t

@[simp] lemma ite_resetExit : (if p then s else t).resetExit = if p then s.resetExit else t.resetExit :=
  apply_ite resetExit p s t

@[simp] lemma ite_irqSyncStages : (if p then s else t).irqSyncStages = if p then s.irqSyncStages else t.irqSyncStages :=
  apply_ite irqSyncStages p s t

@[simp] lemma ite_mulCarry : (if p then s else t).mulCarry = if p then s.mulCarry else t.mulCarry :=
  apply_ite mulCarry p s t

@[simp] lemma ite_bank : (if p then s else t).bank = if p then s.bank else t.bank :=
  apply_ite bank p s t

end Ite

/-! ### What the latches of the sequencer do not touch -/

section Reads

@[simp] lemma idleFlags_write : s.idleFlags.write = false := rfl

@[simp] lemma fetchFlags_write : s.fetchFlags.write = false := rfl

variable (x : InFlight) (k : ℕ) (q : Seq) (a : Answer) (t : CycleType) (f f' : Slot) (r : Reg)
  (v : Word) (d : Bool)

@[simp] lemma setX_bank : (s.setX x).bank = s.bank := rfl

@[simp] lemma setX_userFlag : (s.setX x).userFlag = s.userFlag := rfl

@[simp] lemma setX_fetchFlags : (s.setX x).fetchFlags = s.fetchFlags := rfl

@[simp] lemma setX_idleFlags : (s.setX x).idleFlags = s.idleFlags := rfl

@[simp] lemma setX_rd : (s.setX x).rd r v = s.rd r v := rfl

@[simp] lemma setK_bank : (s.setK k).bank = s.bank := rfl

@[simp] lemma setK_userFlag : (s.setK k).userFlag = s.userFlag := rfl

@[simp] lemma setK_fetchFlags : (s.setK k).fetchFlags = s.fetchFlags := rfl

@[simp] lemma setK_idleFlags : (s.setK k).idleFlags = s.idleFlags := rfl

@[simp] lemma setK_rd : (s.setK k).rd r v = s.rd r v := rfl

@[simp] lemma setSeq_bank : (s.setSeq q).bank = s.bank := rfl

@[simp] lemma setSeq_userFlag : (s.setSeq q).userFlag = s.userFlag := rfl

@[simp] lemma setSeq_fetchFlags : (s.setSeq q).fetchFlags = s.fetchFlags := rfl

@[simp] lemma setSeq_idleFlags : (s.setSeq q).idleFlags = s.idleFlags := rfl

@[simp] lemma setSeq_rd : (s.setSeq q).rd r v = s.rd r v := rfl

@[simp] lemma sampled_bank : (s.sampled a t).bank = s.bank := rfl

@[simp] lemma sampled_userFlag : (s.sampled a t).userFlag = s.userFlag := rfl

@[simp] lemma sampled_fetchFlags : (s.sampled a t).fetchFlags = s.fetchFlags := rfl

@[simp] lemma sampled_idleFlags : (s.sampled a t).idleFlags = s.idleFlags := rfl

@[simp] lemma sampled_rd : (s.sampled a t).rd r v = s.rd r v := rfl

@[simp] lemma capture_bank : (s.capture f).bank = s.bank := rfl

@[simp] lemma capture_userFlag : (s.capture f).userFlag = s.userFlag := rfl

@[simp] lemma capture_fetchFlags : (s.capture f).fetchFlags = s.fetchFlags := rfl

@[simp] lemma capture_idleFlags : (s.capture f).idleFlags = s.idleFlags := rfl

@[simp] lemma capture_rd : (s.capture f).rd r v = s.rd r v := rfl

@[simp] lemma setDabort_bank : (s.setDabort d).bank = s.bank := rfl

@[simp] lemma setDabort_userFlag : (s.setDabort d).userFlag = s.userFlag := rfl

@[simp] lemma setDabort_fetchFlags : (s.setDabort d).fetchFlags = s.fetchFlags := rfl

@[simp] lemma setDabort_idleFlags : (s.setDabort d).idleFlags = s.idleFlags := rfl

@[simp] lemma setPipe_bank : (s.setPipe f f').bank = s.bank := rfl

@[simp] lemma setPipe_userFlag : (s.setPipe f f').userFlag = s.userFlag := rfl

@[simp] lemma setPipe_fetchFlags : (s.setPipe f f').fetchFlags = s.fetchFlags := rfl

@[simp] lemma setPipe_idleFlags : (s.setPipe f f').idleFlags = s.idleFlags := rfl

@[simp] lemma setPc_bank : (s.setPc v).bank = s.bank := rfl

@[simp] lemma setPc_userFlag : (s.setPc v).userFlag = s.userFlag := rfl

@[simp] lemma setPc_fetchFlags : (s.setPc v).fetchFlags = s.fetchFlags := rfl

@[simp] lemma setPc_idleFlags : (s.setPc v).idleFlags = s.idleFlags := rfl

end Reads

/-! ### The cycle a state drives -/

variable {s}

lemma busCycle_of_ne (h : s.seq ≠ .idle) : s.busCycle = s.sequence := by
  simp [busCycle, start, h]

lemma busCycle_idle (h : s.seq = .idle) : s.busCycle = s.begin.sequence := by
  simp [busCycle, start, h]

lemma sequence_eq (h : s.seq ≠ .idle) : s.busCycle =
    match s.seq with
    | .reset => s.cReset
    | .skip => s.cSkip
    | .dp => s.cDp
    | .psr => s.cPsr
    | .mul => s.cMul
    | .swp => s.cSwp
    | .sdt => s.cSdt
    | .bdt => s.cBdt
    | .branch => s.cBranch
    | .undefTrap => s.cUndef
    | .exc => s.cExc
    | _ => s.cRefill := busCycle_of_ne h

/-! ### Decoding -/

/-- The sequence of an instruction word whose condition passes. -/
def seqOf (op : Word) : Seq :=
  match field op 25 3 with
  | 0 =>
    if op &&& 0x90 = 0x90 then
      if op &&& 0x0FC000F0 = 0x00000090 then .mul
      else if op &&& 0x0FB00FF0 = 0x01000090 then .swp
      else if bit op 24 then .swp else .mul
    else if op &&& 0x01900000 = 0x01000000 then .psr else .dp
  | 1 => if op &&& 0x01900000 = 0x01000000 then .psr else .dp
  | 2 => .sdt
  | 3 => if bit op 4 then .undefTrap else .sdt
  | 4 => .bdt
  | 5 => .branch
  | 6 => .undefTrap
  | _ => if bit op 24 then .exc else .undefTrap

/-- The class of an instruction field, by its three bits. -/
lemma class_cases (c : BitVec 3) : c = 0 ∨ c = 1 ∨ c = 2 ∨ c = 3 ∨ c = 4 ∨ c = 5 ∨ c = 6 ∨ c = 7 := by
  revert c
  decide

/-- The sequences of instructions; SWI is an exception entry. -/
lemma seqOf_cases (op : Word) : seqOf op = .dp ∨ seqOf op = .psr ∨ seqOf op = .mul ∨
    seqOf op = .swp ∨ seqOf op = .sdt ∨ seqOf op = .bdt ∨ seqOf op = .branch ∨
    seqOf op = .undefTrap ∨ seqOf op = .exc := by
  rcases class_cases (field op 25 3) with h | h | h | h | h | h | h | h <;>
    simp only [seqOf, h] <;> split_ifs <;> simp

section Decode

variable (s) (op : Word)

lemma decode_eq : s.decode op =
    let t := s.setX { s.x with op := op }
    if t.condPass op then
      if seqOf op = .exc then t.startExc 0x08 mSvc false else t.setSeq (seqOf op)
    else t.setSeq .skip := by
  unfold decode
  generalize s.setX { s.x with op := op } = t
  dsimp only
  rcases Bool.eq_false_or_eq_true (t.condPass op) with hc | hc
  · simp only [hc, Bool.not_true, Bool.false_eq_true, if_true, if_false]
    rcases class_cases (field op 25 3) with h | h | h | h | h | h | h | h <;>
      simp [-startExc, seqOf, h] <;> split_ifs <;> first | rfl | contradiction | exact False.elim
  · simp only [hc, Bool.not_false, if_true, Bool.false_eq_true, if_false]

end Decode

/-! ### The priorities of a boundary -/

section Boundary

variable (s)

/-- An FIQ is requested and not masked. -/
def takesFiq : Bool := s.fiqSeen && !bit s.cpsr 6

/-- An IRQ is requested and not masked. -/
def takesIrq : Bool := s.irqSeen && !bit s.cpsr 7

variable {s} (hq : s.seq = .idle)

include hq

lemma start_reset (hr : s.inReset = true) : s.start = (s.setK 0).setSeq .reset := by
  simp only [start, if_pos hq, begin, setK_inReset, hr, if_true]

variable (hr : s.inReset = false)

include hr

lemma start_resetExit (he : s.resetExit = true) :
    s.start = ((s.setK 0).setResetExit false).startExc 0x00 mSvc true := by
  simp only [start, if_pos hq, begin, setK_inReset, setK_resetExit, hr, he, if_true,
    Bool.false_eq_true, if_false]

variable (he : s.resetExit = false)

include he

lemma start_dabort (hd : s.dabortPending = true) :
    s.start = ((s.setK 0).setDabort false).startExc 0x10 mAbt false := by
  simp only [start, if_pos hq, begin, setK_inReset, setK_resetExit, setK_dabortPending, hr, he, hd,
    if_true, Bool.false_eq_true, if_false]

variable (hd : s.dabortPending = false)

include hd

lemma start_fiq (hf : s.takesFiq = true) : s.start = (s.setK 0).startExc 0x1C mFiq true := by
  have hf' : ((s.setK 0).fiqSeen && !bit (s.setK 0).cpsr 6) = true := hf
  simp only [start, if_pos hq, begin, setK_inReset, setK_resetExit, setK_dabortPending, hr, he, hd,
    hf', if_true, Bool.false_eq_true, if_false]

variable (hf : s.takesFiq = false)

include hf

lemma start_irq (hi : s.takesIrq = true) : s.start = (s.setK 0).startExc 0x18 mIrq false := by
  have hf' : ((s.setK 0).fiqSeen && !bit (s.setK 0).cpsr 6) = false := hf
  have hi' : ((s.setK 0).irqSeen && !bit (s.setK 0).cpsr 7) = true := hi
  simp only [start, if_pos hq, begin, setK_inReset, setK_resetExit, setK_dabortPending, hr, he, hd,
    hf', hi', if_true, Bool.false_eq_true, if_false]

/-- Nothing of higher priority: the execute slot decides. -/
lemma start_slot (hi : s.takesIrq = false) : s.start =
    if s.ex.abort then (s.setK 0).startExc 0x0C mAbt false else (s.setK 0).decode s.ex.word := by
  have hf' : ((s.setK 0).fiqSeen && !bit (s.setK 0).cpsr 6) = false := hf
  have hi' : ((s.setK 0).irqSeen && !bit (s.setK 0).cpsr 7) = false := hi
  simp only [start, if_pos hq, begin, setK_inReset, setK_resetExit, setK_dabortPending, hr, he, hd,
    hf', hi', Bool.false_eq_true, if_false]
  rfl

end Boundary

/-! ### What a boundary leaves alone -/

section Start

variable {β : Type*} (f : Arm7DI → β) (hx : ∀ s x, f (setX s x) = f s)
  (hk : ∀ s k, f (setK s k) = f s) (hq : ∀ s q, f (setSeq s q) = f s)

include hx hk hq

lemma decode_field (s : Arm7DI) (op : Word) : f (s.decode op) = f s := by
  rw [decode_eq]
  dsimp only
  split_ifs <;> simp only [startExc, hx, hk, hq]

lemma start_field (hd : ∀ s d, f (setDabort s d) = f s) (hr : ∀ s r, f (setResetExit s r) = f s)
    (s : Arm7DI) : f s.start = f s := by
  unfold start begin
  dsimp only
  split_ifs <;> simp only [startExc, hx, hk, hq, hd, hr, decode_field f hx hk hq]

end Start

section StartFields

variable (s)

@[simp] lemma start_gpr : s.start.gpr = s.gpr :=
  start_field gpr (fun _ _ => rfl) (fun _ _ => rfl) (fun _ _ => rfl) (fun _ _ => rfl)
    (fun _ _ => rfl) s

@[simp] lemma start_pc : s.start.pc = s.pc :=
  start_field pc (fun _ _ => rfl) (fun _ _ => rfl) (fun _ _ => rfl) (fun _ _ => rfl)
    (fun _ _ => rfl) s

@[simp] lemma start_cpsr : s.start.cpsr = s.cpsr :=
  start_field cpsr (fun _ _ => rfl) (fun _ _ => rfl) (fun _ _ => rfl) (fun _ _ => rfl)
    (fun _ _ => rfl) s

@[simp] lemma start_spsr : s.start.spsr = s.spsr :=
  start_field spsr (fun _ _ => rfl) (fun _ _ => rfl) (fun _ _ => rfl) (fun _ _ => rfl)
    (fun _ _ => rfl) s

@[simp] lemma start_nextType : s.start.nextType = s.nextType :=
  start_field nextType (fun _ _ => rfl) (fun _ _ => rfl) (fun _ _ => rfl) (fun _ _ => rfl)
    (fun _ _ => rfl) s

lemma start_k (hq : s.seq = .idle) : s.start.k = 0 := by
  rw [start, if_pos hq]
  unfold begin
  dsimp only
  split_ifs
  all_goals first | rfl | (rw [decode_eq]; dsimp only; split_ifs <;> rfl)

/-- The sequences that a boundary can begin. -/
lemma start_seq_ne (hq : s.seq = .idle) : s.start.seq ≠ .idle ∧ s.start.seq ≠ .refill := by
  have hdec : ∀ (t : Arm7DI) op, (t.decode op).seq ≠ .idle ∧ (t.decode op).seq ≠ .refill := by
    intro t op
    rw [decode_eq]
    dsimp only
    split_ifs
    · exact ⟨Seq.noConfusion, Seq.noConfusion⟩
    · have h := seqOf_cases op
      constructor <;> intro h' <;> rw [setSeq_seq] at h' <;> simp [h'] at h
    · exact ⟨Seq.noConfusion, Seq.noConfusion⟩
  rw [start, if_pos hq]
  unfold begin
  dsimp only
  split_ifs
  all_goals first | exact hdec _ _ | exact ⟨Seq.noConfusion, Seq.noConfusion⟩

end StartFields

/-! ### The end of a data operation -/

section DpFinish

/-- The test operations TST, TEQ, CMP and CMN. -/
def isTest (op : Word) : Bool := field op 21 4 &&& 0xC == 0x8

/-- A data operation that writes R15. -/
def writesPc (op : Word) : Bool := field op 12 4 == 15 && !isTest op

variable (s)

/-- The CPSR that takes its value from the SPSR of the current mode. -/
def restored : Word := if s.bank = .usr then s.cpsr
  else ((s.cpsr &&& ~~~psrImpl) ||| (s.spsr s.bank &&& psrImpl)) &&& psrImpl

variable (a b : Word) (sc : Bool)

/-- Value, carry and overflow of the data operation in flight. -/
def dpValue : Word × Bool × Bool :=
  dpAlu (field s.x.op 21 4) a b s.x.cin sc (bit s.cpsr 28)

/-- The CPSR after a data operation. -/
def dpCpsr : Word :=
  if !bit s.x.op 20 then s.cpsr
  else if field s.x.op 12 4 == 15 then s.restored
  else (s.cpsr &&& 0x0FFFFFFF) ||| ((s.dpValue a b sc).1 &&& psrN) |||
    maskIf ((s.dpValue a b sc).1 == 0) psrZ ||| maskIf (s.dpValue a b sc).2.1 psrC |||
    maskIf (s.dpValue a b sc).2.2 psrV

/-- `dp_finish` with its effect on each part of the state in one place. -/
lemma dpFinish_eq : s.dpFinish a b sc =
    if writesPc s.x.op then
      (s.setCpsr (s.dpCpsr a b sc)).startRefill ((s.dpValue a b sc).1 &&& ~~~3)
    else
      ((if isTest s.x.op then s else s.wr (field s.x.op 12 4) (s.dpValue a b sc).1).setCpsr
        (s.dpCpsr a b sc)).advance.done := by
  have hmode : s.bank ≠ .usr → (modeOf s.cpsr != mUsr) = true := fun h => by
    simpa using fun h' => h (s.bank_eq_usr_of_mode h')
  have hbne : s.bank ≠ .usr → (s.bank != .usr) = true := bne_iff_ne.mpr
  simp only [dpFinish, dpCpsr, dpValue, restored, writesPc, isTest]
  rcases Bool.eq_false_or_eq_true (bit s.x.op 20) with hS | hS <;>
    rcases Bool.eq_false_or_eq_true (field s.x.op 12 4 == 15) with hr | hr <;>
    rcases Bool.eq_false_or_eq_true (field s.x.op 21 4 &&& 0xC == 0x8) with ht | ht <;>
    by_cases hb : s.bank = .usr
  all_goals
    simp only [hS, hr, ht, hb, hmode, hbne, ne_eq, not_false_eq_true, bne_self_eq_false, wr,
      writeCpsr, setFlags, wrBank_bank, wrBank_cpsr, wrBank_spsr, setCpsr_self, wrBank_setCpsr_self,
      Bool.and_false, Bool.false_and, Bool.and_true, Bool.not_true, Bool.not_false,
      Bool.false_eq_true, if_true, if_false]

@[simp] lemma dpFinish_nextType : (s.dpFinish a b sc).nextType = s.nextType := by
  rw [dpFinish_eq]
  split_ifs <;> rfl

/-- The type announced before the last cycle of a data operation. -/
def dpNext (op : Word) : CycleType := if writesPc op then .N else .S

/-- Operand 2 of a data operation that reads it in cycle 1, with the shifter's carry. -/
def dpOperand (op : Word) (cin : Bool) : Word × Bool :=
  if bit op 25 then
    (ror32 (op &&& 0xFF) (2 * (field op 8 4).toNat),
      if 2 * (field op 8 4).toNat ≠ 0 then bit (ror32 (op &&& 0xFF) (2 * (field op 8 4).toNat)) 31
      else cin)
  else shiftImm (s.rd (field op 0 4) s.pc) (field op 5 2) (field op 7 5).toNat cin

/-- The shift amount is in a register. -/
def regShift (op : Word) : Bool := !bit op 25 && bit op 4

variable {s}

/-- The only cycle of a data operation that needs none to read a shift amount. -/
lemma cDp_single (hk : s.k = 0) (hr : regShift s.x.op = false) : s.cDp =
    (s.setX { s.x with cin := bit s.cpsr 29 }).cycle1Fetch (dpNext s.x.op) fun t =>
      t.dpFinish (s.rd (field s.x.op 16 4) s.pc) (s.dpOperand s.x.op (bit s.cpsr 29)).1
        (s.dpOperand s.x.op (bit s.cpsr 29)).2 := by
  have hr' : (!bit s.x.op 25 && bit s.x.op 4) = false := hr
  simp only [cDp, hk, hr', if_true, Bool.not_false]
  rfl

/-- The cycle of a data operation that reads its shift amount. -/
lemma cDp_amount (hk : s.k = 0) (hr : regShift s.x.op = true) : s.cDp =
    (s.setX { s.x with
      cin := bit s.cpsr 29
      amt := (field (s.rd (field s.x.op 8 4) s.pc) 0 8).toNat }).cycle1Fetch .I fun t =>
        t.setK 1 := by
  have hr' : (!bit s.x.op 25 && bit s.x.op 4) = true := hr
  simp only [cDp, hk, hr', if_true, Bool.not_true, Bool.false_eq_true, if_false]
  rfl

/-- The internal cycle of a register-specified shift. -/
lemma cDp_shift (hk : s.k ≠ 0) : s.cDp =
    s.cyc s.pc s.idleFlags 0 (dpNext s.x.op) fun _ t =>
      t.dpFinish (t.rd (field s.x.op 16 4) t.pc)
        (shiftReg (t.rd (field s.x.op 0 4) t.pc) (field s.x.op 5 2) t.x.amt t.x.cin).1
        (shiftReg (t.rd (field s.x.op 0 4) t.pc) (field s.x.op 5 2) t.x.amt t.x.cin).2 := by
  have hw : (field s.x.op 12 4 == 15 && !(field s.x.op 21 4 &&& 0xC == 0x8)) =
    writesPc s.x.op := rfl
  simp only [cDp, hk, if_false]
  rw [hw, dpNext]

end DpFinish

/-! ### MRS and MSR -/

section Psr

variable (s)

/-- The value MRS reads. -/
def mrsValue (op : Word) : Word := if bit op 22 then s.spsrCur else s.cpsr

/-- The operand of MSR. -/
def msrSource (op : Word) : Word :=
  if bit op 25 then ror32 (op &&& 0xFF) (2 * (field op 8 4).toNat) else s.rd (field op 0 4) s.pc

/-- The PSR bits that an MSR names. -/
def msrMask (op : Word) : Word := maskIf (bit op 19) 0xF0000000 ||| maskIf (bit op 16) 0x000000DF

/-- The state after MSR wrote a PSR; the control bits of the CPSR are protected in user mode. -/
def msrWrite (p : Bool) (v mask : Word) : Arm7DI :=
  if p then s.setSpsrCur v mask
  else s.writeCpsr v (if modeOf s.cpsr = mUsr then mask &&& 0xF0000000 else mask)

variable {s}

lemma cPsr_mrs (h : bit s.x.op 21 = false) : s.cPsr =
    if field s.x.op 12 4 = 15 then
      s.cycle1Fetch .N fun u => u.startRefill (s.mrsValue s.x.op &&& ~~~3)
    else s.cycle1Fetch .S fun u => (u.wr (field s.x.op 12 4) (s.mrsValue s.x.op)).advance.done := by
  simp only [cPsr, h, Bool.not_false, if_true]
  rfl

lemma cPsr_msr (h : bit s.x.op 21 = true) : s.cPsr = s.cycle1Fetch .S fun u =>
    (u.msrWrite (bit s.x.op 22) (s.msrSource s.x.op) (msrMask s.x.op)).advance.done := by
  simp only [cPsr, h, Bool.not_true, Bool.false_eq_true, if_false]
  rfl

end Psr

/-! ### Refills -/

section Refill

lemma cRefill_first (hk : s.k = 0) : s.cRefill = s.cyc s.x.target s.fetchFlags 0 .S fun w u =>
    (u.setX { u.x with fa := ⟨w, u.lastAbort⟩ }).setK 1 := by
  unfold cRefill
  rw [if_pos hk]

lemma cRefill_second (hk : s.k ≠ 0) : s.cRefill =
    s.cyc (s.x.target + 4) s.fetchFlags 0 .S fun w u =>
      ((u.setPipe u.x.fa ⟨w, u.lastAbort⟩).setPc (s.x.target + 8)).done := by
  unfold cRefill
  rw [if_neg hk]

end Refill

/-! ### Single transfers and swaps -/

section Transfers

variable (s)

/-- The flags of the two locked cycles. -/
def swpFlags (write : Bool) : BusFlags :=
  { write := write, byte := bit s.x.op 22, lock := true, user := s.userFlag }

variable {s}

lemma cSwp_start (hk : s.k = 0) : s.cSwp =
    ((s.setK 1).setX { s.x with addr := s.rd (field s.x.op 16 4) s.pc }).cycle1Fetch .N id := by
  unfold cSwp
  rw [hk]
  rfl

lemma cSwp_read (hk : s.k = 1) : s.cSwp =
    (s.setK 2).cyc s.x.addr (s.swpFlags false) 0 .N fun w u =>
      u.setX { u.x with data := w, ab := u.lastAbort } := by
  unfold cSwp
  rw [hk]
  rfl

lemma cSwp_write (hk : s.k = 2) : s.cSwp =
    (s.setK 3).cyc s.x.addr (s.swpFlags true)
      (storeVal (bit s.x.op 22) (s.rd (field s.x.op 0 4) s.pc)) .I fun _ u =>
        u.setX { u.x with ab := u.x.ab || u.lastAbort } := by
  unfold cSwp
  rw [hk]
  rfl

/-- The state after a swap's last cycle. -/
def swpEnd (s : Arm7DI) (op : Word) : Arm7DI :=
  if s.x.ab then s.setDabort true
  else s.wr (field op 12 4) (loadVal (bit op 22) s.x.data s.x.addr)

lemma cSwp_end (hk : 3 ≤ s.k) : s.cSwp =
    (s.setK (s.k + 1)).cyc s.pc s.idleFlags 0 .S fun _ u => (u.swpEnd s.x.op).advance.done := by
  obtain ⟨n, hn⟩ := Nat.exists_eq_add_of_le' hk
  unfold cSwp
  rw [hn]
  rfl

section Sdt

variable (s) (op : Word)

/-- The offset of LDR and STR. -/
def sdtOffset : Word :=
  if bit op 25 then
    (shiftImm (s.rd (field op 0 4) s.pc) (field op 5 2) (field op 7 5).toNat (bit s.cpsr 29)).1
  else op &&& 0xFFF

/-- The base plus or minus the offset. -/
def sdtCalc : Word :=
  if bit op 23 then s.rd (field op 16 4) s.pc + s.sdtOffset op
  else s.rd (field op 16 4) s.pc - s.sdtOffset op

/-- The address of the transfer. -/
def sdtAddr : Word := if bit op 24 then s.sdtCalc op else s.rd (field op 16 4) s.pc

/-- The flags of the transfer as a read. -/
def sdtFlags : BusFlags :=
  { byte := bit op 22, user := (!bit op 24 && bit op 21) || s.userFlag }

end Sdt

lemma cSdt_start (hk : s.k = 0) : s.cSdt =
    (s.setX { s.x with
      calcAddr := s.sdtCalc s.x.op
      addr := s.sdtAddr s.x.op
      wb := !bit s.x.op 24 || bit s.x.op 21
      bf := s.sdtFlags s.x.op }).cycle1Fetch .N fun u => u.setK 1 := by
  unfold cSdt
  rw [if_pos hk]
  rfl

/-- The base write-back of a single transfer. -/
def sdtBase (s : Arm7DI) (op : Word) : Arm7DI :=
  if s.x.wb then s.wr (field op 16 4) s.x.calcAddr else s

lemma cSdt_store (hk : s.k ≠ 0) (hL : bit s.x.op 20 = false) : s.cSdt =
    s.cyc s.x.addr { s.x.bf with write := true }
      (storeVal (bit s.x.op 22) (s.rd (field s.x.op 12 4) s.pc)) .N fun _ u =>
        ((if u.lastAbort then u.setDabort true else u).sdtBase s.x.op).advance.done := by
  unfold cSdt
  rw [if_neg hk, hL]
  rfl

lemma cSdt_load (hk : s.k = 1) (hL : bit s.x.op 20 = true) : s.cSdt =
    s.cyc s.x.addr s.x.bf 0 .I fun w u =>
      ((u.setX { u.x with data := w, ab := u.lastAbort }).sdtBase s.x.op).setK 2 := by
  unfold cSdt
  rw [if_neg (by rw [hk]; decide), hL, if_pos hk]
  rfl

/-- The loaded value goes to R15. -/
def sdtRefills (op : Word) (ab : Bool) : Bool := field op 12 4 == 15 && !ab

/-- The end of a load. -/
def sdtEnd (s : Arm7DI) (op : Word) : Arm7DI :=
  if s.x.ab then (s.setDabort true).advance.done
  else if field op 12 4 = 15 then
    s.startRefill (loadVal (bit op 22) s.x.data s.x.addr &&& ~~~3)
  else (s.wr (field op 12 4) (loadVal (bit op 22) s.x.data s.x.addr)).advance.done

lemma cSdt_end (hk : 2 ≤ s.k) (hL : bit s.x.op 20 = true) : s.cSdt =
    s.cyc s.pc s.idleFlags 0 (if sdtRefills s.x.op s.x.ab then .N else .S) fun _ u =>
      u.sdtEnd s.x.op := by
  unfold cSdt
  rw [if_neg (show ¬s.k = 0 by omega), hL, if_neg (show ¬s.k = 1 by omega), sdtRefills]
  rfl

end Transfers

/-! ### The transfers of an LDM or STM -/

section Bdt

lemma effList_ne_zero (op : Word) : effList op ≠ 0 := by
  unfold effList
  split_ifs with h
  · decide
  · exact h

variable (s) (x : InFlight)

/-- The register after the current one. -/
def bdtNext : ℕ := s.x.r + 1 + ctz (s.x.list >>> (s.x.r + 1))

lemma bdtNext_lt (h : s.bdtLast = false) : s.bdtNext < 16 :=
  add_lowest_lt (by simpa [bdtLast] using h)

/-- The bank of the transferred registers. -/
def bdtBank : Bank := if s.x.userbank then .usr else s.bank

/-- The base write-back of the first transfer. -/
def wrBase : Arm7DI :=
  if s.x.first && bit s.x.op 21 then s.wr (field s.x.op 16 4) s.x.wbv else s

lemma wrBase_gpr : s.wrBase.gpr =
    if s.x.first = true ∧ bit s.x.op 21 = true then
      if field s.x.op 16 4 = 15 then s.gpr
      else Function.update s.gpr (phys (field s.x.op 16 4) s.bank) s.x.wbv
    else s.gpr := by
  unfold wrBase
  by_cases hf : s.x.first = true <;> by_cases hW : bit s.x.op 21 = true <;> simp [hf, hW]

@[simp] lemma sampled_bdtLast (a : Answer) (next : CycleType) :
    (s.sampled a next).bdtLast = s.bdtLast := rfl

@[simp] lemma sampled_bdtBank (a : Answer) (next : CycleType) :
    (s.sampled a next).bdtBank = s.bdtBank := rfl

/-- A field that a register write does not touch is the same after the base write-back. -/
lemma wrBase_field {β : Type*} (f : Arm7DI → β) (hf : ∀ r b v, f (s.wrBank r b v) = f s) :
    f s.wrBase = f s := by
  unfold wrBase
  split_ifs
  · exact hf _ _ _
  · rfl

@[simp] lemma wrBase_k : s.wrBase.k = s.k := s.wrBase_field k fun _ _ _ => rfl

@[simp] lemma wrBase_bank : s.wrBase.bank = s.bank := s.wrBase_field bank fun _ _ _ => rfl

@[simp] lemma wrBase_seq : s.wrBase.seq = s.seq := s.wrBase_field seq fun _ _ _ => rfl

@[simp] lemma wrBase_pc : s.wrBase.pc = s.pc := s.wrBase_field pc fun _ _ _ => rfl

@[simp] lemma wrBase_de : s.wrBase.de = s.de := s.wrBase_field de fun _ _ _ => rfl

@[simp] lemma wrBase_f1 : s.wrBase.f1 = s.f1 := s.wrBase_field f1 fun _ _ _ => rfl

@[simp] lemma wrBase_nextType : s.wrBase.nextType = s.nextType :=
  s.wrBase_field nextType fun _ _ _ => rfl

lemma bdtBase_eq : s.bdtBase =
    s.wrBase.setX { s.x with ab := s.x.ab || s.lastAbort, first := false } := by
  simp only [bdtBase, wrBase, setX_x]
  split_ifs <;> rfl

lemma bdtLoad_setX (data : Word) : (s.setX x).bdtLoad data =
    (if x.ab || x.r == 15 then s
      else s.wrBank (BitVec.ofNat 4 x.r) (if x.userbank then .usr else s.bank) data).setX
      { x with
        newpc := if !x.ab && x.r == 15 then data else x.newpc
        pcLoaded := x.pcLoaded || !x.ab && x.r == 15 } := by
  simp only [bdtLoad, setX_x]
  by_cases hab : x.ab = true
  · have hload : (!x.ab && x.r == 15) = false := by simp [hab]
    rw [if_pos hab, if_pos (by simp [hab]), hload, Bool.or_false]
    rfl
  by_cases h15 : x.r = 15
  · have hload : (!x.ab && x.r == 15) = true := by simp [hab, h15]
    rw [if_neg hab, if_pos h15, if_pos (by simp [h15]), hload, Bool.or_true]
    rfl
  · have hload : (!x.ab && x.r == 15) = false := by simp [h15]
    have hkeep : (x.ab || x.r == 15) = false := by simpa [h15] using hab
    rw [if_neg hab, if_neg h15, hkeep, hload, Bool.or_false]
    by_cases hu : x.userbank = true
    · rw [if_pos hu, if_pos hu]; rfl
    · rw [if_neg hu, if_neg hu]; rfl

lemma bdtAdvance_load (hL : bit x.op 20 = true) : (s.setX x).bdtAdvance =
    (s.setX { x with
      addr := x.addr + 4
      r := if x.list >>> (x.r + 1) == 0 then 16 else x.r + 1 + ctz (x.list >>> (x.r + 1)) }).setK
      (s.k + 1) := by
  simp only [bdtAdvance, bdtLast, setK_x, setX_x, hL, if_true]
  rcases Bool.eq_false_or_eq_true (x.list >>> (x.r + 1) == 0) with h | h <;> rw [h] <;> rfl

lemma bdtAdvance_store (hL : bit x.op 20 = false) : (s.setX x).bdtAdvance =
    let u := (s.setX { x with
      addr := x.addr + 4
      r := if x.list >>> (x.r + 1) == 0 then x.r else x.r + 1 + ctz (x.list >>> (x.r + 1)) }).setK
      (s.k + 1)
    if x.list >>> (x.r + 1) == 0 then (if x.ab then u.setDabort true else u).advance.done
    else u := by
  simp only [bdtAdvance, bdtLast, setK_x, setX_x, hL, if_false, Bool.false_eq_true]
  rcases Bool.eq_false_or_eq_true (x.list >>> (x.r + 1) == 0) with h | h <;> rw [h] <;> rfl

variable {s}

/-- What a transfer of an LDM does: the base and the register are written, the latches move on. -/
lemma bdt_load_eq (data : Word) (hL : bit s.x.op 20 = true) :
    (s.bdtBase.bdtLoad data).bdtAdvance =
      let ab := s.x.ab || s.lastAbort
      let pc := !ab && s.x.r == 15
      ((if ab || s.x.r == 15 then s.wrBase
        else s.wrBase.wrBank (BitVec.ofNat 4 s.x.r) s.bdtBank data).setX { s.x with
          ab := ab, first := false, addr := s.x.addr + 4
          r := if s.bdtLast then 16 else s.x.r + 1 + ctz (s.x.list >>> (s.x.r + 1))
          newpc := if pc then data else s.x.newpc
          pcLoaded := s.x.pcLoaded || pc }).setK (s.k + 1) := by
  have hk : ∀ (c : Prop) [Decidable c] (r : Reg) (b : Bank) (v : Word),
      (if c then s.wrBase else s.wrBase.wrBank r b v).k = s.k := by
    intro c _ r b v
    split_ifs <;> exact wrBase_k s
  rw [bdtBase_eq, bdtLoad_setX, bdtAdvance_load, wrBase_bank, hk]
  · rfl
  · exact hL

/-- What a transfer of an STM does. -/
lemma bdt_store_eq (hL : bit s.x.op 20 = false) : s.bdtBase.bdtAdvance =
    let ab := s.x.ab || s.lastAbort
    let u := (s.wrBase.setX { s.x with
      ab := ab, first := false, addr := s.x.addr + 4
      r := if s.bdtLast then s.x.r else s.x.r + 1 + ctz (s.x.list >>> (s.x.r + 1)) }).setK
      (s.k + 1)
    if s.bdtLast then (if ab then u.setDabort true else u).advance.done else u := by
  rw [bdtBase_eq, bdtAdvance_store, wrBase_k]
  · rfl
  · exact hL

/-- The end of an LDM: the base is restored after an abort, to the written-back value if W. -/
def bdtEnd (s : Arm7DI) (op : Word) : Arm7DI :=
  if s.x.ab then
    ((s.wr (field op 16 4) (if bit op 21 then s.x.wbv else s.x.base)).setDabort true).advance.done
  else if s.x.pcLoaded then
    (s.setCpsr (if bit op 22 then s.restored else s.cpsr)).startRefill (s.x.newpc &&& ~~~3)
  else s.advance.done

lemma cBdt_final (hk : s.k ≠ 0) (hr : s.x.r = 16) : s.cBdt =
    s.cyc s.pc s.idleFlags 0 (if s.x.pcLoaded then .N else .S) fun _ u => u.bdtEnd s.x.op := by
  unfold cBdt cBdtFinal
  rw [if_neg hk, if_pos hr]
  dsimp only
  congr 1
  funext _ u
  unfold bdtEnd restored
  by_cases hS : bit s.x.op 22 = true
  · by_cases hb : u.bank = .usr
    · simp [hS, hb, setCpsr_self]
    · simp [hS, hb]
  · simp [hS, setCpsr_self]

lemma bdt_store_gpr (hL : bit s.x.op 20 = false) : s.bdtBase.bdtAdvance.gpr = s.wrBase.gpr := by
  rw [bdt_store_eq hL]
  dsimp only
  split_ifs <;> rfl

lemma bdtStored_eq (hr : s.x.r < 16) : s.bdtStored =
    if s.x.r = 15 then s.pc else s.gpr (phys (BitVec.ofNat 4 s.x.r) s.bdtBank) := by
  have h15 : s.x.r ≠ 15 → BitVec.ofNat 4 s.x.r ≠ 15 := by
    intro hne h
    have := congrArg BitVec.toNat h
    simp at this
    omega
  unfold bdtStored bdtBank rd
  by_cases hr15 : s.x.r = 15
  · simp [hr15]
  · rw [if_neg hr15, if_neg hr15, if_neg (h15 hr15)]
    split_ifs <;> rfl

end Bdt

/-! ### The number of Booth steps -/

section MulSteps

variable {v : Word}

lemma mulLoop_spec (v : Word) : ∀ fuel m, 1 ≤ m → m ≤ 16 → 16 ≤ fuel + m →
    m ≤ mulLoop v fuel m ∧ mulLoop v fuel m ≤ 16 ∧
      (∀ j, m ≤ j → j < mulLoop v fuel m → v >>> (2 * j - 1) ≠ 0) ∧
      (mulLoop v fuel m = 16 ∨ v >>> (2 * mulLoop v fuel m - 1) = 0)
  | 0, m, _, h16, hf => by
    have : m = 16 := by omega
    subst this
    exact ⟨le_refl _, le_refl _, fun j h h' => by simp [mulLoop] at h'; omega, Or.inl rfl⟩
  | fuel + 1, m, h1, h16, hf => by
    rw [mulLoop]
    split_ifs with h
    · obtain ⟨hle, hle16, hne, hend⟩ := mulLoop_spec v fuel (m + 1) (by omega) (by omega) (by omega)
      refine ⟨by omega, hle16, fun j hj hj' => ?_, hend⟩
      rcases Nat.eq_or_lt_of_le hj with rfl | hlt
      · exact h.2
      · exact hne j hlt hj'
    · refine ⟨le_refl _, h16, fun j hj hj' => absurd hj' (by omega), ?_⟩
      rcases Nat.lt_or_ge m 16 with hm | hm
      · exact Or.inr (by_contra fun h0 => h ⟨hm, h0⟩)
      · exact Or.inl (by omega)

/-- `m` is the least number of steps after which the multiplier is used up, 16 at most. -/
lemma mulSteps_spec (v : Word) : 1 ≤ mulSteps v ∧ mulSteps v ≤ 16 ∧
    (∀ j, 1 ≤ j → j < mulSteps v → v >>> (2 * j - 1) ≠ 0) ∧
    (mulSteps v = 16 ∨ v >>> (2 * mulSteps v - 1) = 0) :=
  mulLoop_spec v 15 1 (by omega) (by omega) (by omega)

/-- The test for the last step, from the multiplier shifted so far. -/
lemma mulSteps_eq_iff {k : ℕ} (hk : k < mulSteps v) :
    k + 1 = mulSteps v ↔ k = 15 ∨ (v >>> (2 * k)) >>> 1 = 0 := by
  obtain ⟨h1, h16, hne, hend⟩ := mulSteps_spec v
  have hshift : (v >>> (2 * k)) >>> 1 = v >>> (2 * (k + 1) - 1) := by
    rw [← BitVec.shiftRight_add]
    congr 1
  rw [hshift]
  constructor
  · intro h
    rcases hend with h' | h'
    · exact Or.inl (by omega)
    · exact Or.inr (h ▸ h')
  · rintro (rfl | h0)
    · omega
    · by_contra hne'
      exact hne (k + 1) (by omega) (by omega) h0

end MulSteps

end Arm7DI

end Wren7
