import Wren7.Model.Multiply
import Wren7.Model.MultiTransfer
import Wren7.Model.Transfer

/-!
# What begins at a boundary

The bus cycles of every sequence and what it leaves, in one function of the state in which it begins:
instructions, aborted or not, and exception entries. It holds of every boundary, and an instruction
takes at most 20 bus cycles.
-/

namespace Wren7

open Bits Reactive

namespace Arm7DI

section Outcome

variable (q : Arm7DI) (as : ℕ → Answer)

/-- Data operations; a register-specified shift reads its operands a cycle later. -/
def dpOutcome : List Signals × Arch :=
  let op := q.x.op
  let a := q.rd (field op 16 4) (if regShift op then q.pc + 4 else q.pc)
  let b := if regShift op then q.dpShifted op else q.dpOperand op (bit q.cpsr 29)
  let row := if regShift op then [q.fetchCycle, q.idleCycle] else [q.fetchCycle]
  let r := (q.dpLatched.dpValue a b.1 b.2).1
  let cpsr := q.dpLatched.dpCpsr a b.1 b.2
  if writesPc op then
    (row ++ refillRow (r &&& ~~~3) (q.setCpsr cpsr).fetchFlags,
      (q.arch.setCpsr cpsr).refill (r &&& ~~~3) (as row.length) (as (row.length + 1)))
  else (row, ((q.stepped (as 0) .S).wrIf (!isTest op) (field op 12 4) r).setCpsr cpsr)

/-- MRS and MSR. -/
def psrOutcome : List Signals × Arch :=
  let op := q.x.op
  if bit op 21 then
    ([q.fetchCycle], (q.msrWrite (bit op 22) (q.msrSource op) (msrMask op)).stepped (as 0) .S)
  else if field op 12 4 = 15 then
    (q.fetchCycle :: refillRow (q.mrsValue op &&& ~~~3) q.fetchFlags,
      q.arch.refill (q.mrsValue op &&& ~~~3) (as 1) (as 2))
  else ([q.fetchCycle], (q.stepped (as 0) .S).wr (field op 12 4) (q.mrsValue op))

/-- MUL and MLA. -/
def mulOutcome : List Signals × Arch :=
  (q.fetchCycle :: List.replicate q.boothSteps q.idleCycle,
    { q.stepped (as 0) .S with
      gpr := (q.booth q.boothSteps).gpr, cpsr := q.mulCpsr (q.booth q.boothSteps) })

/-- SWP. -/
def swpOutcome : List Signals × Arch :=
  let op := q.x.op
  (q.swpRow op,
    if (as 1).abort || (as 2).abort then (q.stepped (as 0) .S).abortIf true
    else (q.stepped (as 0) .S).wr (field op 12 4)
      (loadVal (bit op 22) (as 1).rdata (q.swpAddr op)))

/-- STR. -/
def strOutcome : List Signals × Arch :=
  let op := q.x.op
  ([q.fetchCycle, ⟨.N, q.sdtAddr op, storeVal (bit op 22) (q.rd (field op 12 4) (q.pc + 4)),
      { q.sdtFlags op with write := true }⟩],
    ((q.stepped (as 0) .N).abortIf (as 1).abort).wrIf (sdtWb op) (field op 16 4) (q.sdtCalc op))

/-- LDR. -/
def ldrOutcome : List Signals × Arch :=
  let op := q.x.op
  let row := [q.fetchCycle, ⟨.N, q.sdtAddr op, 0, q.sdtFlags op⟩, q.idleCycle]
  let v := loadVal (bit op 22) (as 1).rdata (q.sdtAddr op)
  let based := (q.stepped (as 0) .S).wrIf (sdtWb op) (field op 16 4) (q.sdtCalc op)
  if (as 1).abort then (row, based.abortIf true)
  else if field op 12 4 = 15 then
    (row ++ refillRow (v &&& ~~~3) q.fetchFlags,
      (q.arch.refill (v &&& ~~~3) (as 3) (as 4)).wrIf (sdtWb op) (field op 16 4) (q.sdtCalc op))
  else (row, based.wr (field op 12 4) v)

/-- STM. -/
def stmOutcome : List Signals × Arch :=
  let op := q.x.op
  let n := (regList op).length
  (q.fetchCycle :: (List.range n).map (q.storeCycle op),
    ((q.stepped (as 0) .N).setGpr (q.wroteBack op q.gpr)).abortIf (aborted (answers as 0) n))

/-- LDM. -/
def ldmOutcome : List Signals × Arch :=
  let op := q.x.op
  let n := (regList op).length
  let row := q.ldmRow op ++ [q.idleCycle]
  let loaded := q.ldmGpr op (answers as 0) n
  let cpsr := if bit op 22 then q.restored else q.cpsr
  let target := (answers as 0 (n - 1)).rdata &&& ~~~3
  if aborted (answers as 0) n then
    (row, (((q.stepped (as 0) .S).setGpr loaded).wr (field op 16 4)
      (if bit op 21 then q.bdtWbv op else q.bdtBaseVal op)).abortIf true)
  else if bit (effList op) 15 then
    (row ++ refillRow target (q.setCpsr cpsr).fetchFlags,
      ((q.arch.setGpr loaded).setCpsr cpsr).refill target (as (n + 2)) (as (n + 3)))
  else (row, (q.stepped (as 0) .S).setGpr loaded)

/-- B and BL. -/
def branchOutcome : List Signals × Arch :=
  let op := q.x.op
  (q.fetchCycle :: refillRow (q.branchTarget op) q.fetchFlags,
    (q.arch.wrIf (bit op 24) 14 (q.pc - 4)).refill (q.branchTarget op) (as 1) (as 2))

/-- The undefined instruction trap. -/
def undefOutcome : List Signals × Arch :=
  (⟨q.nextType, q.pc, 0, q.fetchFlags⟩ :: ⟨.I, q.pc, 0, q.fetchFlags⟩ ::
      refillRow 0x04 (q.enter .und mUnd false (q.pc - 4)).fetchFlags,
    (q.arch.enter .und mUnd false (q.pc - 4)).refill 0x04 (as 2) (as 3))

/-- Exception entries and SWI. -/
def excOutcome : List Signals × Arch :=
  let b := bankOf q.x.mode
  (⟨q.nextType, q.pc, 0, q.fetchFlags⟩ ::
      refillRow q.x.vector (q.enter b q.x.mode q.x.setF (q.pc - 4)).fetchFlags,
    (q.arch.enter b q.x.mode q.x.setF (q.pc - 4)).refill q.x.vector (as 1) (as 2))

/-- The dummy fetch while nRESET is low. -/
def resetOutcome : List Signals × Arch :=
  ([⟨q.nextType, q.pc, 0, q.fetchFlags⟩], { q.arch with pc := q.pc + 4, nextType := .S })

/-- The bus cycles of the sequence that begins in `q` and what it leaves, if the bus answers `as`. -/
def outcome : List Signals × Arch :=
  match q.seq with
  | .reset => q.resetOutcome
  | .dp => q.dpOutcome as
  | .psr => q.psrOutcome as
  | .mul => q.mulOutcome as
  | .swp => q.swpOutcome as
  | .sdt => if bit q.x.op 20 then q.ldrOutcome as else q.strOutcome as
  | .bdt => if bit q.x.op 20 then q.ldmOutcome as else q.stmOutcome as
  | .branch => q.branchOutcome as
  | .undefTrap => q.undefOutcome as
  | .exc => q.excOutcome as
  | _ => ([q.fetchCycle], q.stepped (as 0) .S)

end Outcome

variable {q : Arm7DI} {as : ℕ → Answer}

/-! ### The sequences do what the function says -/

section Classes

variable (hk : q.k = 0)

include hk

lemma finishes_dpOutcome (hq : q.seq = .dp) :
    Finishes as 0 q (q.dpOutcome as).1 (q.dpOutcome as).2 := by
  unfold dpOutcome
  dsimp only
  cases hs : regShift q.x.op <;> cases hw : writesPc q.x.op
  · exact finishes_dp hq hk hs hw rfl Prod.mk.eta.symm
  · exact finishes_dpPc hq hk hs hw rfl Prod.mk.eta.symm
  · exact finishes_dpShift hq hk hs rfl Prod.mk.eta.symm hw
  · exact finishes_dpShiftPc hq hk hs rfl Prod.mk.eta.symm hw

lemma finishes_ldrOutcome (hq : q.seq = .sdt) (hL : bit q.x.op 20 = true) :
    Finishes as 0 q (q.ldrOutcome as).1 (q.ldrOutcome as).2 := by
  unfold ldrOutcome
  dsimp only
  cases hab : (as 1).abort with
  | true => exact finishes_ldrAborted hq hk hL hab
  | false =>
    by_cases h15 : field q.x.op 12 4 = 15
    · simp only [if_pos h15, Bool.false_eq_true, if_false]
      exact finishes_ldrPc hq hk hL hab h15 rfl
    · simp only [if_neg h15, Bool.false_eq_true, if_false]
      exact finishes_ldr hq hk hL hab h15

lemma finishes_ldmOutcome (hq : q.seq = .bdt) (hL : bit q.x.op 20 = true) :
    Finishes as 0 q (q.ldmOutcome as).1 (q.ldmOutcome as).2 := by
  unfold ldmOutcome
  dsimp only
  cases hab : aborted (answers as 0) (regList q.x.op).length with
  | true => exact finishes_ldmAbort hq hk hL hab
  | false =>
    cases h15 : bit (effList q.x.op) 15 with
    | false => exact finishes_ldmDone hq hk hL hab h15
    | true =>
      have h := finishes_ldmBranch hq hk hL hab h15 rfl
      simp only [Bool.false_eq_true, if_false, if_true, List.append_assoc, List.singleton_append]
      rwa [show 0 + 1 + (regList q.x.op).length + 1 = (regList q.x.op).length + 2 by omega,
        show 0 + 1 + (regList q.x.op).length + 2 = (regList q.x.op).length + 3 by omega] at h

lemma finishes_swpOutcome (hq : q.seq = .swp) :
    Finishes as 0 q (q.swpOutcome as).1 (q.swpOutcome as).2 := by
  unfold swpOutcome
  dsimp only
  cases hab : (as 1).abort || (as 2).abort with
  | true => exact finishes_swpAbort hq hk hab
  | false => exact finishes_swp hq hk hab

omit hk in
lemma finishes_psrOutcome (hq : q.seq = .psr) :
    Finishes as 0 q (q.psrOutcome as).1 (q.psrOutcome as).2 := by
  unfold psrOutcome
  dsimp only
  cases hop : bit q.x.op 21 with
  | true => exact finishes_msr hq hop
  | false =>
    by_cases h15 : field q.x.op 12 4 = 15
    · simp only [if_pos h15, Bool.false_eq_true, if_false]
      exact finishes_mrsPc hq hop h15
    · simp only [if_neg h15, Bool.false_eq_true, if_false]
      exact finishes_mrs hq hop h15

/-- A sequence that begins in `q`, for every answer of the bus. -/
theorem finishes_outcome (hi : q.seq ≠ .idle) (hr : q.seq ≠ .refill) :
    Finishes as 0 q (q.outcome as).1 (q.outcome as).2 := by
  unfold outcome
  cases hq : q.seq with
  | idle => exact absurd hq hi
  | refill => exact absurd hq hr
  | reset => exact finishes_reset hq
  | skip => exact finishes_skip hq
  | dp => exact finishes_dpOutcome hk hq
  | psr => exact finishes_psrOutcome hq
  | mul => exact finishes_mul hq hk
  | swp => exact finishes_swpOutcome hk hq
  | sdt =>
    cases hL : bit q.x.op 20 with
    | true => exact finishes_ldrOutcome hk hq hL
    | false => exact finishes_str hq hk hL
  | bdt =>
    cases hL : bit q.x.op 20 with
    | true => exact finishes_ldmOutcome hk hq hL
    | false => exact finishes_stm hq hk hL
  | branch => exact finishes_branch hq
  | undefTrap => exact finishes_undef hq hk
  | exc => exact finishes_exc hq

end Classes

/-! ### At a boundary -/

lemma regList_length_le (op : Word) : (regList op).length ≤ 16 :=
  (List.length_filter_le _ _).trans (by simp)

/-- Every sequence begins with a fetch at R15 and takes at most 20 cycles. -/
lemma outcome_row (q : Arm7DI) (as : ℕ → Answer) :
    ∃ row, (q.outcome as).1 = q.fetchCycle :: row ∧ row.length ≤ 19 := by
  have hl := regList_length_le q.x.op
  have hm : q.boothSteps ≤ 16 := (mulSteps_spec _).2.1
  unfold outcome dpOutcome psrOutcome ldrOutcome ldmOutcome
  dsimp only
  split <;> try split_ifs
  all_goals
    refine ⟨_, rfl, ?_⟩
    simp only [refillRow, List.append_eq, List.length_append, List.length_cons, List.length_nil,
      List.length_map, List.length_range, List.length_replicate]
    omega

end Arm7DI

/-- The answers of the bus in a run. -/
def answersOf (inp : ℕ → Input) (j : ℕ) : Answer := (inp j).ans

namespace Arm7DI

/-- From every boundary of a run, what happens up to the next one. -/
theorem performs_outcome {s : Arm7DI} {inp : ℕ → Input} (hb : s.atBoundary) :
    Performs s inp ((s.poke (inp 0).lines).start.outcome (answersOf inp)).1
      ((s.poke (inp 0).lines).start.outcome (answersOf inp)).2 := by
  have hq : (s.poke (inp 0).lines).seq = .idle := (poke_seq s _).trans hb
  obtain ⟨hi, hr⟩ := start_seq_ne _ hq
  have h := @finishes_outcome _ (answersOf inp) (start_k _ hq) hi hr
  obtain ⟨row, hrow, -⟩ := outcome_row (s.poke (inp 0).lines).start (answersOf inp)
  rw [hrow] at h ⊢
  exact h.performs

end Arm7DI

end Wren7
