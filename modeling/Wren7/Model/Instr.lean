import Wren7.Model.Exec

/-!
# What an instruction does

For each class of instructions: the bus cycles of its sequence and the state it leaves, for every
answer of the bus. The latches of the sequencer are dead at a boundary; `Arch` is the rest.
-/

namespace Wren7

open Bits Reactive

/-- What a boundary state has for the instructions that follow. -/
@[ext]
structure Arch where
  gpr : Fin 31 → Word
  pc : Word
  cpsr : Word
  spsr : Bank → Word
  ex : Slot
  de : Slot
  nextType : CycleType
  dabort : Bool

namespace Arch

variable (A : Arch)

def bank : Bank := bankOf (modeOf A.cpsr)

def wrBank (r : Reg) (b : Bank) (v : Word) : Arch :=
  { A with gpr := if r = 15 then A.gpr else Function.update A.gpr (phys r b) v }

/-- A register of the current mode is written; R15 is not. -/
def wr (r : Reg) (v : Word) : Arch := A.wrBank r A.bank v

/-- The same if the condition holds. -/
def wrIf (c : Bool) (r : Reg) (v : Word) : Arch := if c then A.wr r v else A

def setCpsr (v : Word) : Arch := { A with cpsr := v }

def setGpr (g : Fin 31 → Word) : Arch := { A with gpr := g }

lemma wrIf_eq_setGpr {c : Bool} {r : Reg} {v : Word} (hr : r ≠ 15) :
    A.wrIf c r v = A.setGpr (if c then Function.update A.gpr (phys r A.bank) v else A.gpr) := by
  cases c
  · rfl
  · simp only [wrIf, wr, wrBank, setGpr, if_true, if_neg hr]

/-- The pipeline moves on. -/
def slide (ex de : Slot) : Arch := { A with ex := ex, de := de }

lemma wrIf_slide (c : Bool) (r : Reg) (v : Word) (e d : Slot) :
    (A.wrIf c r v).slide e d = (A.slide e d).wrIf c r v := by
  cases c <;> rfl

/-- The type of the next cycle is announced. -/
def announce (n : CycleType) : Arch := { A with nextType := n }

lemma wrIf_announce (c : Bool) (r : Reg) (v : Word) (n : CycleType) :
    (A.wrIf c r v).announce n = (A.announce n).wrIf c r v := by
  cases c <;> rfl

/-- An exception entry, as far as the registers go. -/
def enter (b : Bank) (mode : BitVec 5) (setF : Bool) (r14 : Word) : Arch :=
  { A with
    spsr := Function.update A.spsr b A.cpsr
    cpsr := (A.cpsr &&& ~~~psrM) ||| mode.setWidth 32 ||| psrI ||| maskIf setF psrF
    gpr := Function.update A.gpr (phys 14 b) r14 }

/-- The pipeline refilled from a branch target, with the two words fetched there. -/
def refill (target : Word) (a b : Answer) : Arch :=
  { A with
    pc := target + 8, ex := ⟨a.rdata, a.abort⟩, de := ⟨b.rdata, b.abort⟩, nextType := .S }

/-- A data abort waits for the next boundary. -/
def abortIf (c : Bool) : Arch := { A with dabort := c || A.dabort }

end Arch

namespace Arm7DI

@[simps -fullyApplied]
def arch (s : Arm7DI) : Arch where
  gpr := s.gpr
  pc := s.pc
  cpsr := s.cpsr
  spsr := s.spsr
  ex := s.ex
  de := s.de
  nextType := s.nextType
  dabort := s.dabortPending

/-- The rest of a sequence, with the answers from position `i` on: its cycles, and what it
leaves at the boundary that ends it. -/
def Finishes (as : ℕ → Answer) (i : ℕ) (s : Arm7DI) (row : List Signals) (A : Arch) : Prop :=
  ∃ t, Steps as i s row t ∧ t.seq = .idle ∧ t.arch = A

variable {as : ℕ → Answer} {i : ℕ} {s u q : Arm7DI} {row : List Signals} {A : Arch}

lemma Finishes.cons {d : Drive} {r : Signals} (hs : s.seq ≠ .idle) (hd : s.sequence = d)
    (hr : d.bus.signals = r) (h : Finishes as (i + 1) (d.next (as i)) row A) :
    Finishes as i s (r :: row) A := by
  obtain ⟨t, ht, hq, hA⟩ := h
  exact ⟨t, ht.step hs hd hr, hq, hA⟩

/-- The same for a cycle whose outcome is known in other words. -/
lemma Finishes.cons_eq {d : Drive} {r : Signals} {v : Arm7DI} (hs : s.seq ≠ .idle)
    (hd : s.sequence = d) (hr : d.bus.signals = r) (hv : d.next (as i) = v)
    (h : Finishes as (i + 1) v row A) : Finishes as i s (r :: row) A :=
  .cons hs hd hr (hv ▸ h)

/-- The end of a sequence that moves the pipeline on. -/
lemma finishes_done (hA : u.arch.slide u.de u.f1 = A) :
    Finishes as i u.advance.done [] A :=
  ⟨_, .nil _ _, rfl, hA⟩

lemma abortIf_arch (c : Bool) :
    (if c then u.setDabort true else u).arch = u.arch.abortIf c := by
  cases c <;> rfl

/-- The end of a sequence whose data may have been aborted. -/
lemma finishes_doneIf (c : Bool) (hA : (u.arch.slide u.de u.f1).abortIf c = A) :
    Finishes as i (if c then u.setDabort true else u).advance.done [] A := by
  cases c
  · exact finishes_done hA
  · exact finishes_done (u := u.setDabort true) hA

/-- The fetches from a branch target. -/
def refillRow (target : Word) (f : BusFlags) : List Signals :=
  [⟨.N, target, 0, f⟩, ⟨.S, target + 4, 0, f⟩]

/-- The second fetch of a refill. -/
lemma finishes_fetch (hq : u.seq = .refill) (hk : u.k = 1) (hn : u.nextType = .S)
    (hA : { u.arch with
      pc := u.x.target + 8, ex := u.x.fa, de := ⟨(as i).rdata, (as i).abort⟩ } = A) :
    Finishes as i u [⟨.S, u.x.target + 4, 0, u.fetchFlags⟩] A := by
  have hd : u.sequence = u.cRefill := by rw [sequence, hq]
  refine .cons (by simp [hq]) (hd.trans (cRefill_second (by simp [hk]))) ?_ ?_
  · simp [BusCycle.signals, hn]
  · refine ⟨_, .nil _ _, rfl, hA ▸ ?_⟩
    simp [arch, hn, CycleType.isMem]

/-- The end of a sequence that refills the pipeline. -/
lemma finishes_refill {t : Word} (hn : u.nextType = .N)
    (hA : u.arch.refill t (as i) (as (i + 1)) = A) :
    Finishes as i (u.startRefill t) (refillRow t u.fetchFlags) A := by
  refine .cons (by simp) (cRefill_first (s := u.startRefill t) rfl) ?_ ?_
  · simp [BusCycle.signals, hn]
  · refine finishes_fetch rfl rfl rfl (hA ▸ ?_)
    simp [arch, Arch.refill, hn, CycleType.isMem]

/-! ### The first cycle -/

/-- The opcode fetch of a first cycle. -/
def fetchCycle (s : Arm7DI) : Signals := ⟨s.nextType, s.pc, 0, s.fetchFlags⟩

/-- An internal cycle of a sequence whose first cycle is done. -/
def idleCycle (s : Arm7DI) : Signals := ⟨.I, s.pc + 4, 0, s.idleFlags⟩

/-- The slot that a first cycle fills; only a memory cycle can abort. -/
def fetchSlot (s : Arm7DI) (a : Answer) : Slot := ⟨a.rdata, a.abort && s.nextType.isMem⟩

/-- The state after a first cycle. -/
def fetched (s : Arm7DI) (a : Answer) (next : CycleType) : Arm7DI :=
  (s.sampled a next).capture (s.fetchSlot a)

lemma Finishes.cycle1 {p : Arm7DI} {r : Signals} {next : CycleType} {K : Arm7DI → Arm7DI}
    (hs : s.seq ≠ .idle) (hd : s.sequence = p.cycle1Fetch next K) (hr : p.fetchCycle = r)
    (h : Finishes as (i + 1) (K (p.fetched (as i) next)) row A) :
    Finishes as i s (r :: row) A :=
  .cons hs hd hr h

/-- The boundary after an instruction that fetched one word and changed nothing else. -/
def stepped (q : Arm7DI) (a : Answer) (next : CycleType) : Arch :=
  { q.arch with pc := q.pc + 4, ex := q.de, de := q.fetchSlot a, nextType := next }

lemma finishes_skip (hq : q.seq = .skip) :
    Finishes as i q [q.fetchCycle] (q.stepped (as i) .S) :=
  .cycle1 (by simp [hq]) (by rw [sequence, hq]; rfl) rfl (finishes_done rfl)

/-! ### MRS and MSR -/

section Psr

variable (hq : q.seq = .psr)

include hq

lemma sequence_psr : q.sequence = q.cPsr := by rw [sequence, hq]

lemma finishes_mrs (hop : bit q.x.op 21 = false) (hr : field q.x.op 12 4 ≠ 15) :
    Finishes as i q [q.fetchCycle]
      ((q.stepped (as i) .S).wr (field q.x.op 12 4) (q.mrsValue q.x.op)) :=
  .cycle1 (by simp [hq]) ((sequence_psr hq).trans ((cPsr_mrs hop).trans (if_neg hr))) rfl
    (finishes_done rfl)

lemma finishes_mrsPc (hop : bit q.x.op 21 = false) (hr : field q.x.op 12 4 = 15) :
    Finishes as i q (q.fetchCycle :: refillRow (q.mrsValue q.x.op &&& ~~~3) q.fetchFlags)
      (q.arch.refill (q.mrsValue q.x.op &&& ~~~3) (as (i + 1)) (as (i + 2))) :=
  .cycle1 (by simp [hq]) ((sequence_psr hq).trans ((cPsr_mrs hop).trans (if_pos hr))) rfl
    (finishes_refill (u := q.fetched (as i) .N) rfl rfl)

lemma finishes_msr (hop : bit q.x.op 21 = true) :
    Finishes as i q [q.fetchCycle]
      ((q.msrWrite (bit q.x.op 22) (q.msrSource q.x.op) (msrMask q.x.op)).stepped (as i) .S) := by
  refine .cycle1 (by simp [hq]) ((sequence_psr hq).trans (cPsr_msr hop)) rfl (finishes_done ?_)
  unfold msrWrite setSpsrCur
  rw [show (q.fetched (as i) .S).bank = q.bank from rfl,
    show (q.fetched (as i) .S).cpsr = q.cpsr from rfl]
  split_ifs <;> rfl

end Psr

/-! ### Data operations -/

section Dp

/-- The state whose operands a data operation works on: the carry is latched. -/
def dpLatched (q : Arm7DI) : Arm7DI := q.setX { q.x with cin := bit q.cpsr 29 }

/-- The second operand of a data operation that reads its shift amount from a register. -/
def dpShifted (q : Arm7DI) (op : Word) : Word × Bool :=
  shiftReg (q.rd (field op 0 4) (q.pc + 4)) (field op 5 2) (field (q.rd (field op 8 4) q.pc) 0 8).toNat
    (bit q.cpsr 29)

variable {a b : Word} {sc : Bool}

lemma dpNext_S {op : Word} (hw : writesPc op = false) : dpNext op = .S := by
  rw [dpNext, hw]
  rfl

lemma dpNext_N {op : Word} (hw : writesPc op = true) : dpNext op = .N := if_pos hw

lemma finishes_dpFinish (hw : writesPc u.x.op = false) (hA : ((u.arch.slide u.de u.f1).wrIf (!isTest u.x.op)
      (field u.x.op 12 4) (u.dpValue a b sc).1).setCpsr (u.dpCpsr a b sc) = A) :
    Finishes as i (u.dpFinish a b sc) [] A := by
  rw [dpFinish_eq, if_neg (by rw [hw]; decide)]
  refine finishes_done (hA ▸ ?_)
  cases isTest u.x.op <;> rfl

lemma finishes_dpFinishPc (hw : writesPc u.x.op = true) (hn : u.nextType = .N)
    (hA : (u.arch.setCpsr (u.dpCpsr a b sc)).refill ((u.dpValue a b sc).1 &&& ~~~3)
      (as i) (as (i + 1)) = A) :
    Finishes as i (u.dpFinish a b sc)
      (refillRow ((u.dpValue a b sc).1 &&& ~~~3) (u.setCpsr (u.dpCpsr a b sc)).fetchFlags) A := by
  rw [dpFinish_eq, if_pos hw]
  exact finishes_refill (u := u.setCpsr _) hn hA

lemma sequence_dp (hq : q.seq = .dp) : q.sequence = q.cDp := by rw [sequence, hq]

section Single

variable (hq : q.seq = .dp) (hk : q.k = 0) (hs : regShift q.x.op = false)

include hq hk hs

lemma finishes_dp (hw : writesPc q.x.op = false)
    (ha : q.rd (field q.x.op 16 4) q.pc = a)
    (hb : q.dpOperand q.x.op (bit q.cpsr 29) = (b, sc)) :
    Finishes as i q [q.fetchCycle] (((q.stepped (as i) .S).wrIf (!isTest q.x.op)
      (field q.x.op 12 4) (q.dpLatched.dpValue a b sc).1).setCpsr (q.dpLatched.dpCpsr a b sc)) := by
  have hd := (sequence_dp hq).trans (cDp_single hk hs)
  rw [ha, hb, dpNext_S hw] at hd
  exact .cycle1 (by simp [hq]) hd rfl
    (finishes_dpFinish (u := q.dpLatched.fetched (as i) .S) hw rfl)

lemma finishes_dpPc (hw : writesPc q.x.op = true)
    (ha : q.rd (field q.x.op 16 4) q.pc = a)
    (hb : q.dpOperand q.x.op (bit q.cpsr 29) = (b, sc)) :
    Finishes as i q (q.fetchCycle :: refillRow ((q.dpLatched.dpValue a b sc).1 &&& ~~~3)
        (q.setCpsr (q.dpLatched.dpCpsr a b sc)).fetchFlags)
      ((q.arch.setCpsr (q.dpLatched.dpCpsr a b sc)).refill
        ((q.dpLatched.dpValue a b sc).1 &&& ~~~3) (as (i + 1)) (as (i + 2))) := by
  have hd := (sequence_dp hq).trans (cDp_single hk hs)
  rw [ha, hb, dpNext_N hw] at hd
  exact .cycle1 (by simp [hq]) hd rfl
    (finishes_dpFinishPc (u := q.dpLatched.fetched (as i) .N) hw rfl rfl)

end Single

section Shifted

/-- The internal cycle of a register-specified shift. -/
lemma finishes_dpSecond (hq : u.seq = .dp) (hk : u.k ≠ 0) (hn : u.nextType = .I)
    (ha : u.rd (field u.x.op 16 4) u.pc = a)
    (hb : shiftReg (u.rd (field u.x.op 0 4) u.pc) (field u.x.op 5 2) u.x.amt u.x.cin = (b, sc))
    {next : CycleType} (hd : dpNext u.x.op = next)
    (h : Finishes as (i + 1) ((u.sampled (as i) next).dpFinish a b sc) row A) :
    Finishes as i u (⟨.I, u.pc, 0, u.idleFlags⟩ :: row) A := by
  subst hd
  refine .cons_eq (by simp [hq]) ((sequence_dp hq).trans (cDp_shift hk)) ?_ ?_ h
  · simp [BusCycle.signals, hn]
  · simp only [cyc_next, sampled_rd, sampled_pc, sampled_x, ha, hb]

variable (hq : q.seq = .dp) (hk : q.k = 0) (hs : regShift q.x.op = true)
  (ha : q.rd (field q.x.op 16 4) (q.pc + 4) = a) (hb : q.dpShifted q.x.op = (b, sc))

include hq hk hs ha hb

lemma finishes_dpShift (hw : writesPc q.x.op = false) :
    Finishes as i q [q.fetchCycle, q.idleCycle] (((q.stepped (as i) .S).wrIf (!isTest q.x.op)
      (field q.x.op 12 4) (q.dpLatched.dpValue a b sc).1).setCpsr (q.dpLatched.dpCpsr a b sc)) := by
  refine .cycle1 (by simp [hq]) ((sequence_dp hq).trans (cDp_amount hk hs)) rfl ?_
  exact finishes_dpSecond hq Nat.one_ne_zero rfl ha hb (dpNext_S hw) (finishes_dpFinish hw rfl)

lemma finishes_dpShiftPc (hw : writesPc q.x.op = true) :
    Finishes as i q (q.fetchCycle :: q.idleCycle ::
        refillRow ((q.dpLatched.dpValue a b sc).1 &&& ~~~3)
          (q.setCpsr (q.dpLatched.dpCpsr a b sc)).fetchFlags)
      ((q.arch.setCpsr (q.dpLatched.dpCpsr a b sc)).refill
        ((q.dpLatched.dpValue a b sc).1 &&& ~~~3) (as (i + 2)) (as (i + 3))) := by
  refine .cycle1 (by simp [hq]) ((sequence_dp hq).trans (cDp_amount hk hs)) rfl ?_
  exact finishes_dpSecond hq Nat.one_ne_zero rfl ha hb (dpNext_N hw)
    (finishes_dpFinishPc hw rfl rfl)

end Shifted

end Dp

/-! ### Branches and exceptions -/

lemma finishes_reset (hq : q.seq = .reset) : Finishes as i q [⟨q.nextType, q.pc, 0, q.fetchFlags⟩]
    { q.arch with pc := q.pc + 4, nextType := .S } := by
  have hd : q.sequence = q.cReset := by rw [sequence, hq]
  exact .cons (by simp [hq]) hd rfl ⟨_, .nil _ _, rfl, rfl⟩

/-- The target of a branch. -/
def branchTarget (q : Arm7DI) (op : Word) : Word := q.pc + (op <<< 8).sshiftRight 6

lemma finishes_branch (hq : q.seq = .branch) :
    Finishes as i q (q.fetchCycle :: refillRow (q.branchTarget q.x.op) q.fetchFlags)
      ((q.arch.wrIf (bit q.x.op 24) 14 (q.pc - 4)).refill (q.branchTarget q.x.op)
        (as (i + 1)) (as (i + 2))) := by
  have hd : q.sequence = q.cycle1Fetch .N fun t =>
      (if bit q.x.op 24 then t.wr 14 (q.pc - 4) else t).startRefill (q.branchTarget q.x.op) := by
    rw [sequence, hq]
    rfl
  refine .cycle1 (by simp [hq]) hd rfl ?_
  cases bit q.x.op 24 with
  | true => exact finishes_refill (u := (q.fetched (as i) .N).wr 14 (q.pc - 4)) rfl rfl
  | false => exact finishes_refill (u := q.fetched (as i) .N) rfl rfl

lemma finishes_undef (hq : q.seq = .undefTrap) (hk : q.k = 0) :
    Finishes as i q (⟨q.nextType, q.pc, 0, q.fetchFlags⟩ :: ⟨.I, q.pc, 0, q.fetchFlags⟩ ::
        refillRow 0x04 (q.enter .und mUnd false (q.pc - 4)).fetchFlags)
      ((q.arch.enter .und mUnd false (q.pc - 4)).refill 0x04 (as (i + 2)) (as (i + 3))) := by
  have hseq : ∀ {u : Arm7DI}, u.seq = .undefTrap → u.sequence = u.cUndef := fun h => by
    rw [sequence, h]
  have hsecond : ∀ {u : Arm7DI}, u.k ≠ 0 → u.cUndef =
      u.cyc u.x.addr u.fetchFlags 0 .N fun _ t =>
        (t.enter .und mUnd false (u.x.addr - 4)).startRefill 0x04 := fun h => if_neg h
  refine .cons (by simp [hq]) ((hseq hq).trans (if_pos hk)) rfl ?_
  set p := q.setX { q.x with addr := q.pc }
  have hp : p.seq = .undefTrap := hq
  refine .cons (s := (p.sampled (as i) .I).setK 1) (by simp [hp])
    ((hseq (by exact hp)).trans (hsecond Nat.one_ne_zero)) rfl ?_
  exact finishes_refill (u := enter _ .und mUnd false (q.pc - 4)) rfl rfl

lemma finishes_exc (hq : q.seq = .exc) :
    Finishes as i q (⟨q.nextType, q.pc, 0, q.fetchFlags⟩ :: refillRow q.x.vector
        (q.enter (bankOf q.x.mode) q.x.mode q.x.setF (q.pc - 4)).fetchFlags)
      ((q.arch.enter (bankOf q.x.mode) q.x.mode q.x.setF (q.pc - 4)).refill q.x.vector
        (as (i + 1)) (as (i + 2))) := by
  have hd : q.sequence = q.cExc := by rw [sequence, hq]
  refine .cons (by simp [hq]) hd rfl ?_
  exact finishes_refill
    (u := (q.sampled (as i) .N).enter (bankOf q.x.mode) q.x.mode q.x.setF (q.pc - 4)) rfl rfl

/-! ### Instructions in a run -/

/-- A boundary at which only the execute slot decides what comes next. -/
structure Quiet (s : Arm7DI) : Prop where
  idle : s.seq = .idle
  inReset : s.inReset = false
  resetExit : s.resetExit = false
  dabort : s.dabortPending = false
  fiq : s.takesFiq = false
  irq : s.takesIrq = false
  slot : s.ex.abort = false

/-- The sequence `r` begins with the word in the execute slot. -/
def issued (s : Arm7DI) (r : Seq) : Arm7DI :=
  ((s.setK 0).setX { s.x with op := s.ex.word }).setSeq r

lemma Quiet.start_eq (h : s.Quiet) : s.start = (s.setK 0).decode s.ex.word := by
  rw [start_slot h.idle h.inReset h.resetExit h.dabort h.fiq h.irq, h.slot]
  rfl

/-- The condition fails. -/
lemma Quiet.start_skip (h : s.Quiet) (hc : s.condPass s.ex.word = false) :
    s.start = s.issued .skip := by
  have hc' : ((s.setK 0).setX { s.x with op := s.ex.word }).condPass s.ex.word = false := hc
  rw [h.start_eq, decode_eq]
  dsimp only
  rw [setK_x, hc']
  rfl

section Passes

variable (h : s.Quiet) (hc : s.condPass s.ex.word = true)

include h hc

lemma Quiet.start_seq {r : Seq} (hr : seqOf s.ex.word = r) (hne : r ≠ .exc) :
    s.start = s.issued r := by
  subst hr
  have hc' : ((s.setK 0).setX { s.x with op := s.ex.word }).condPass s.ex.word = true := hc
  rw [h.start_eq, decode_eq]
  dsimp only
  rw [setK_x, hc', if_pos rfl, if_neg hne]
  rfl

/-- SWI. -/
lemma Quiet.start_swi (hr : seqOf s.ex.word = .exc) :
    s.start = (s.issued .exc).startExc 0x08 mSvc false := by
  have hc' : ((s.setK 0).setX { s.x with op := s.ex.word }).condPass s.ex.word = true := hc
  rw [h.start_eq, decode_eq]
  dsimp only
  rw [setK_x, hc', if_pos rfl, if_pos hr]
  rfl

end Passes

/-- In the run these are the next bus cycles, with no boundary in between; they end at a boundary
and leave `A` there. -/
structure Performs (s : Arm7DI) (inp : ℕ → Input) (row : List Signals) (A : Arch) : Prop where
  signals : ∀ j (hj : j < row.length), (core.outs s inp j).signals = row[j]
  busy : ∀ j, 0 < j → j < row.length → ¬(core.after s inp j).atBoundary
  boundary : (core.after s inp row.length).atBoundary
  arch : (core.after s inp row.length).arch = A

/-- The run's next boundary comes after `n` bus cycles. -/
structure NextBoundary (s : Arm7DI) (inp : ℕ → Input) (n : ℕ) : Prop where
  pos : 0 < n
  busy : ∀ j, 0 < j → j < n → ¬(core.after s inp j).atBoundary
  boundary : (core.after s inp n).atBoundary

lemma Performs.next {inp : ℕ → Input} {r : Signals} (h : Performs s inp (r :: row) A) :
    NextBoundary s inp (row.length + 1) :=
  ⟨Nat.succ_pos _, h.busy, h.boundary⟩

lemma Finishes.performs {inp : ℕ → Input} {r : Signals}
    (h : Finishes (fun n => (inp n).ans) 0 (s.poke (inp 0).lines).start (r :: row) A) :
    Performs s inp (r :: row) A := by
  obtain ⟨t, hrow, hidle, rfl⟩ := h
  obtain ⟨⟨τ, hτ⟩, hsig, hbusy⟩ := run_of_steps hrow
  refine ⟨hsig, hbusy, ?_, ?_⟩
  · rw [List.length_cons, hτ]
    exact hidle
  · rw [List.length_cons, hτ]
    rfl

/-! ### The beginning of an instruction -/

section Begun

variable {inp : ℕ → Input} {r : Seq} {op : Word}

/-- The state in which the sequence `r` begins with the instruction in the execute slot. -/
def begun (s : Arm7DI) (inp : ℕ → Input) (r : Seq) : Arm7DI := (s.poke (inp 0).lines).issued r

@[simp] lemma begun_gpr : (s.begun inp r).gpr = s.gpr := poke_gpr s _

@[simp] lemma begun_pc : (s.begun inp r).pc = s.pc := poke_pc s _

@[simp] lemma begun_cpsr : (s.begun inp r).cpsr = s.cpsr := poke_cpsr s _

@[simp] lemma begun_spsr : (s.begun inp r).spsr = s.spsr := poke_spsr s _

@[simp] lemma begun_bank : (s.begun inp r).bank = s.bank := poke_bank s _

@[simp] lemma begun_rd (x : Reg) (v : Word) : (s.begun inp r).rd x v = s.rd x v := poke_rd s _ x v

@[simp] lemma begun_userFlag : (s.begun inp r).userFlag = s.userFlag := by
  rw [userFlag, userFlag, begun_cpsr]

lemma begun_op (hop : s.ex.word = op) : (s.begun inp r).x.op = op :=
  (congrArg Slot.word (poke_ex s _)).trans hop

/-- An instruction whose condition holds, in a run. -/
lemma Quiet.performs {c : Signals} (hs : (s.poke (inp 0).lines).Quiet) (hop : s.ex.word = op)
    (hc : s.condPass op = true) (hr : seqOf op = r) (hne : r ≠ .exc)
    (h : Finishes (fun n => (inp n).ans) 0 (s.begun inp r) (c :: row) A) :
    Performs s inp (c :: row) A := by
  subst hop
  have hstart : (s.poke (inp 0).lines).start = s.begun inp r :=
    hs.start_seq (by simpa using hc) (by simpa using hr) hne
  rw [← hstart] at h
  exact h.performs

end Begun

/-! ### A sample boundary -/

/-- The boundary after reset with the word `op` in the execute slot, at address 0. -/
def resting (op : Word) : Arm7DI :=
  { powerOn 0 .shifterLast with resetExit := false, ex := ⟨op, false⟩, pc := 8 }

/-- A bus that answers at once, always the same word. -/
def calm (w : Word) (_ : ℕ) : Input := ⟨[], ⟨⟨w, 0, false⟩, false, false⟩⟩

lemma resting_quiet (op : Word) : (resting op).Quiet := ⟨rfl, rfl, rfl, rfl, rfl, rfl, rfl⟩

end Arm7DI

end Wren7
