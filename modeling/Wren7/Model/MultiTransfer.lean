import Wren7.Model.Instr

/-!
# LDM and STM

The transfers of a register list one by one, the bus cycles of the two sequences and what they
leave, for every answer of the bus.
-/

namespace Wren7

open Bits

namespace Arm7DI

/-- The registers that are transferred, in ascending order. -/
def regList (op : Word) : List ℕ := setBits (effList op)

/-- An abort among the first `j` answers. -/
def aborted (ans : ℕ → Answer) : ℕ → Bool
  | 0 => false
  | j + 1 => aborted ans j || (ans j).abort

section Data

variable (q : Arm7DI) (op : Word) (ans : ℕ → Answer)

/-- The base register's value. -/
def bdtBaseVal : Word := q.rd (field op 16 4) q.pc

/-- The value written back to the base. -/
def bdtWbv : Word :=
  if bit op 23 then q.bdtBaseVal op + listBytes op else q.bdtBaseVal op - listBytes op

/-- The address of the first transfer, which is the lowest. -/
def bdtAddr : Word :=
  if bit op 23 then (if bit op 24 then q.bdtBaseVal op + 4 else q.bdtBaseVal op)
  else if bit op 24 then q.bdtBaseVal op - listBytes op else q.bdtBaseVal op - listBytes op + 4

/-- The bank of the transferred registers: the user bank with S, but for an LDM with R15. -/
def listBank : Bank :=
  if bit op 22 && !(bit op 20 && bit (effList op) 15) then .usr else q.bank

/-- The registers after the base write-back. -/
def wroteBack (g : Fin 31 → Word) : Fin 31 → Word :=
  if bit op 21 then
    if field op 16 4 = 15 then g
    else Function.update g (phys (field op 16 4) q.bank) (q.bdtWbv op)
  else g

/-- The registers after the first `j` transfers of an LDM. -/
def ldmGpr : ℕ → Fin 31 → Word
  | 0 => q.gpr
  | j + 1 =>
    let g := if j = 0 then q.wroteBack op (ldmGpr j) else ldmGpr j
    let r := (regList op).getD j 16
    if aborted ans (j + 1) || r == 15 then g
    else Function.update g (phys (BitVec.ofNat 4 r) (q.listBank op)) (ans j).rdata

/-- The registers after the first `j` transfers of an STM. -/
def stmGpr (j : ℕ) : Fin 31 → Word := if j = 0 then q.gpr else q.wroteBack op q.gpr

end Data

variable {as ans : ℕ → Answer} {i j : ℕ} {a : Answer} {q u : Arm7DI} {row : List Signals}
  {A : Arch} {g : Fin 31 → Word}

/-! ### One transfer -/

lemma sequence_bdt (hq : u.seq = .bdt) : u.sequence = u.cBdt := by rw [sequence, hq]

lemma cBdt_load (hk : u.k ≠ 0) (hr : u.x.r ≠ 16) (hL : bit u.x.op 20 = true) : u.cBdt =
    u.cyc u.x.addr u.idleFlags 0 (if u.bdtLast then .I else .S) fun d t =>
      (t.bdtBase.bdtLoad d).bdtAdvance := by
  unfold cBdt
  rw [if_neg hk, if_neg hr, if_pos hL]

lemma cBdt_store (hk : u.k ≠ 0) (hr : u.x.r ≠ 16) (hL : bit u.x.op 20 = false) : u.cBdt =
    u.cyc u.x.addr { u.idleFlags with write := true } u.bdtStored (if u.bdtLast then .N else .S)
      fun _ t => t.bdtBase.bdtAdvance := by
  unfold cBdt
  rw [if_neg hk, if_neg hr, if_neg (Bool.eq_false_iff.mp hL)]

/-- The LDM or STM that began in `q` is before transfer `j`, with the registers `g`. -/
structure BdtAt (q : Arm7DI) (ans : ℕ → Answer) (a : Answer) (j : ℕ) (g : Fin 31 → Word)
    (u : Arm7DI) : Prop where
  seq : u.seq = .bdt
  step : u.k = j + 1
  nextType : u.nextType = if j = 0 then .N else .S
  op : u.x.op = q.x.op
  list : u.x.list = effList q.x.op
  rest : (regList q.x.op).drop j = u.x.r :: setBitsFrom (effList q.x.op) (u.x.r + 1)
  addr : u.x.addr = q.bdtAddr q.x.op + 4 * BitVec.ofNat 32 j
  wbv : u.x.wbv = q.bdtWbv q.x.op
  base : u.x.base = q.bdtBaseVal q.x.op
  bank : u.bdtBank = q.listBank q.x.op
  first : u.x.first = decide (j = 0)
  ab : u.x.ab = aborted ans j
  pcLoaded : u.x.pcLoaded = false
  gpr : u.gpr = g
  pc : u.pc = q.pc + 4
  cpsr : u.cpsr = q.cpsr
  arch : ((u.arch.announce .S).slide u.de u.f1).setGpr q.gpr = q.stepped a .S

namespace BdtAt

variable (h : BdtAt q ans a j g u)

include h

lemma getD_eq : (regList q.x.op).getD j 16 = u.x.r := by
  have := congrArg List.head? h.rest
  rw [List.head?_drop, List.head?_cons] at this
  rw [List.getD_eq_getElem?_getD, this]
  rfl

lemma lt_length : j < (regList q.x.op).length := by
  have := congrArg List.length h.rest
  rw [List.length_drop, List.length_cons] at this
  omega

lemma reg_lt : u.x.r < 16 := by
  have hmem : u.x.r ∈ regList q.x.op := List.mem_of_mem_drop (h.rest ▸ List.mem_cons_self)
  exact (mem_setBits.mp hmem).1

lemma rest_succ : (regList q.x.op).drop (j + 1) = setBitsFrom (effList q.x.op) (u.x.r + 1) := by
  rw [← List.tail_drop, h.rest, List.tail_cons]

/-- The last transfer is the one of the last register. -/
lemma last_iff : u.bdtLast = true ↔ j + 1 = (regList q.x.op).length := by
  have hlen := h.lt_length
  rw [bdtLast, h.list, beq_iff_eq]
  constructor
  · intro h0
    have hnil := h.rest_succ
    rw [setBitsFrom_of_shift_eq_zero h0, List.drop_eq_nil_iff] at hnil
    omega
  · intro hj
    by_contra h0
    have hcons := h.rest_succ
    rw [setBitsFrom_of_shift_ne_zero h0, hj, List.drop_length] at hcons
    cases hcons

lemma bank_eq : u.bank = q.bank := by
  rw [Arm7DI.bank, h.cpsr, Arm7DI.bank]

lemma idle : u.idleFlags = q.idleFlags := by
  rw [idleFlags, idleFlags, userFlag, userFlag, h.cpsr]

/-- The registers after the base write-back. -/
lemma wrBase_gpr_eq : u.wrBase.gpr = if j = 0 then q.wroteBack q.x.op g else g := by
  rw [wrBase_gpr, h.first, h.op, h.wbv, h.gpr, h.bank_eq, wroteBack]
  by_cases hj : j = 0 <;> simp [hj]

lemma isMem : u.nextType.isMem = true := by
  rw [h.nextType]
  split_ifs <;> rfl

lemma sampled_abort (b : Answer) (n : CycleType) : (u.sampled b n).lastAbort = b.abort := by
  rw [sampled_lastAbort, h.isMem, Bool.and_true]

end BdtAt

/-! ### The transfers of an LDM -/

/-- The state after the bus cycle of a load: the base and the register are written. -/
def afterLoad (u : Arm7DI) (b : Answer) (n : CycleType) : Arm7DI :=
  if u.x.ab || b.abort || u.x.r == 15 then (u.sampled b n).wrBase
  else (u.sampled b n).wrBase.wrBank (BitVec.ofNat 4 u.x.r) u.bdtBank b.rdata

lemma afterLoad_field {β : Type*} (f : Arm7DI → β) (hf : ∀ s r b v, f (wrBank s r b v) = f s)
    (u : Arm7DI) (b : Answer) (n : CycleType) : f (u.afterLoad b n) = f (u.sampled b n) := by
  unfold afterLoad
  split_ifs
  · exact wrBase_field _ f fun _ _ _ => hf _ _ _ _
  · rw [hf]
    exact wrBase_field _ f fun _ _ _ => hf _ _ _ _

/-- The latches after a load. -/
def loadLatches (u : Arm7DI) (b : Answer) : InFlight :=
  { u.x with
    ab := u.x.ab || b.abort, first := false, addr := u.x.addr + 4
    r := if u.bdtLast then 16 else u.x.r + 1 + ctz (u.x.list >>> (u.x.r + 1))
    newpc := if !(u.x.ab || b.abort) && u.x.r == 15 then b.rdata else u.x.newpc
    pcLoaded := u.x.pcLoaded || !(u.x.ab || b.abort) && u.x.r == 15 }

lemma wrBase_sampled_gpr (b : Answer) (n : CycleType) :
    (u.sampled b n).wrBase.gpr = u.wrBase.gpr := by
  rw [wrBase_gpr, wrBase_gpr]
  rfl

/-- The LDM that began in `q` is before its final cycle. -/
structure LdmEnd (q : Arm7DI) (ans : ℕ → Answer) (a : Answer) (u : Arm7DI) : Prop where
  seq : u.seq = .bdt
  step : u.k ≠ 0
  nextType : u.nextType = .I
  op : u.x.op = q.x.op
  r : u.x.r = 16
  wbv : u.x.wbv = q.bdtWbv q.x.op
  base : u.x.base = q.bdtBaseVal q.x.op
  ab : u.x.ab = aborted ans (regList q.x.op).length
  pcLoaded : u.x.pcLoaded = (!u.x.ab && bit (effList q.x.op) 15)
  newpc : u.x.pcLoaded = true → u.x.newpc = (ans ((regList q.x.op).length - 1)).rdata
  gpr : u.gpr = q.ldmGpr q.x.op ans (regList q.x.op).length
  pc : u.pc = q.pc + 4
  cpsr : u.cpsr = q.cpsr
  spsr : u.spsr = q.spsr
  arch : ((u.arch.announce .S).slide u.de u.f1).setGpr q.gpr = q.stepped a .S

namespace BdtAt

variable (h : BdtAt q ans a j g u) (hL : bit q.x.op 20 = true) (b : Answer)

include h hL

/-- The bus cycle of a load and what it leads to. -/
lemma load : u.sequence.bus.signals = ⟨if j = 0 then .N else .S, u.x.addr, 0, q.idleFlags⟩ ∧
    u.sequence.next b =
      ((u.afterLoad b (if u.bdtLast then .I else .S)).setX (u.loadLatches b)).setK (u.k + 1) := by
  have hk : u.k ≠ 0 := by rw [h.step]; exact Nat.succ_ne_zero j
  have hr : u.x.r ≠ 16 := Nat.ne_of_lt h.reg_lt
  have hLu : bit u.x.op 20 = true := h.op ▸ hL
  rw [sequence_bdt h.seq, cBdt_load hk hr hLu]
  refine ⟨?_, ?_⟩
  · simp [BusCycle.signals, h.nextType, h.idle]
  · have hd : (if u.idleFlags.write then (0 : Word) else b.rdata) = b.rdata := rfl
    rw [cyc_next, hd, bdt_load_eq (s := u.sampled b _) _ hLu, h.sampled_abort]
    rfl

omit hL

/-- Another register follows: what is left of the list. -/
lemma rest_next (hl : u.bdtLast = false) : (regList q.x.op).drop (j + 1) =
    u.bdtNext :: setBitsFrom (effList q.x.op) (u.bdtNext + 1) := by
  have h0 : effList q.x.op >>> (u.x.r + 1) ≠ 0 := by
    rwa [bdtLast, h.list, beq_eq_false_iff_ne] at hl
  rw [h.rest_succ, setBitsFrom_of_shift_ne_zero h0, bdtNext, h.list]
  rfl

omit h in
/-- R15 is the last register of every list. -/
lemma ne_15 (hl : u.bdtLast = false) : u.x.r ≠ 15 := by
  intro h15
  rw [bdtLast, h15, beq_eq_false_iff_ne] at hl
  exact hl (BitVec.ushiftRight_eq_zero (Nat.le_refl 16))

lemma addr_succ : u.x.addr + 4 = q.bdtAddr q.x.op + 4 * BitVec.ofNat 32 (j + 1) := by
  rw [h.addr, BitVec.ofNat_add, BitVec.mul_add, BitVec.add_assoc]
  rfl

lemma ab_succ : (u.x.ab || (ans j).abort) = aborted ans (j + 1) := by rw [h.ab, aborted]

lemma spsr : u.spsr = q.spsr := congrArg Arch.spsr h.arch

/-- The last register is R15 exactly if the list has it. -/
lemma last_reg (hl : u.bdtLast = true) : (u.x.r == 15) = bit (effList q.x.op) 15 := by
  by_cases h15 : u.x.r = 15
  · have hmem : u.x.r ∈ regList q.x.op := List.mem_of_mem_drop (h.rest ▸ List.mem_cons_self)
    rw [← h15, (mem_setBits.mp hmem).2, beq_self_eq_true]
  · have hlt := h.reg_lt
    rw [bdtLast, h.list, beq_iff_eq] at hl
    have hb := bit_ushiftRight (l := effList q.x.op) (r := u.x.r + 1) (15 - (u.x.r + 1))
    rw [hl, show u.x.r + 1 + (15 - (u.x.r + 1)) = 15 by omega] at hb
    rw [← hb, beq_false_of_ne h15]
    simp [bit]

omit h

lemma afterLoad_gpr (h : BdtAt q ans a j (q.ldmGpr q.x.op ans j) u) (n : CycleType) :
    (u.afterLoad (ans j) n).gpr = q.ldmGpr q.x.op ans (j + 1) := by
  have hr15 : u.x.r ≠ 15 → BitVec.ofNat 4 u.x.r ≠ 15 := by
    intro hne h15
    have := congrArg BitVec.toNat h15
    have hlt := h.reg_lt
    simp at this
    omega
  rw [afterLoad, ldmGpr, h.getD_eq, h.ab_succ, ite_gpr, wrBank_gpr, wrBase_sampled_gpr,
    h.wrBase_gpr_eq, h.bank]
  by_cases h15 : u.x.r = 15
  · simp [h15]
  · rw [if_neg (hr15 h15)]

/-- A load that is not the last one leads to the next. -/
lemma load_next (h : BdtAt q ans a j (q.ldmGpr q.x.op ans j) u) (hl : u.bdtLast = false) :
    BdtAt q ans a (j + 1) (q.ldmGpr q.x.op ans (j + 1))
      (((u.afterLoad (ans j) .S).setX (u.loadLatches (ans j))).setK (u.k + 1)) where
  seq := (afterLoad_field Arm7DI.seq (fun _ _ _ _ => rfl) ..).trans h.seq
  step := congrArg (· + 1) h.step
  nextType := afterLoad_field Arm7DI.nextType (fun _ _ _ _ => rfl) ..
  op := h.op
  list := h.list
  rest := by
    have hr : (u.loadLatches (ans j)).r = u.bdtNext := if_neg (Bool.eq_false_iff.mp hl)
    rw [setK_x, setX_x, hr]
    exact h.rest_next hl
  addr := h.addr_succ
  wbv := h.wbv
  base := h.base
  bank := by
    have hb : (u.afterLoad (ans j) .S).bank = u.bank := afterLoad_field Arm7DI.bank (fun _ _ _ _ => rfl) ..
    rw [← h.bank]
    exact congrArg (fun b => if u.x.userbank then Bank.usr else b) hb
  first := rfl
  ab := h.ab_succ
  pcLoaded := by
    have hr : (u.x.r == 15) = false := beq_false_of_ne (ne_15 hl)
    simp [loadLatches, h.pcLoaded, hr]
  gpr := h.afterLoad_gpr .S
  pc := (afterLoad_field Arm7DI.pc (fun _ _ _ _ => rfl) ..).trans h.pc
  cpsr := (afterLoad_field Arm7DI.cpsr (fun _ _ _ _ => rfl) ..).trans h.cpsr
  arch := (afterLoad_field (fun t : Arm7DI =>
    ((t.arch.announce .S).slide t.de t.f1).setGpr q.gpr) (fun _ _ _ _ => rfl) ..).trans
      h.arch

/-- The last load leads to the final cycle. -/
lemma load_last (h : BdtAt q ans a j (q.ldmGpr q.x.op ans j) u) (hl : u.bdtLast = true) :
    LdmEnd q ans a (((u.afterLoad (ans j) .I).setX (u.loadLatches (ans j))).setK (u.k + 1)) where
  seq := (afterLoad_field Arm7DI.seq (fun _ _ _ _ => rfl) ..).trans h.seq
  step := Nat.succ_ne_zero _
  nextType := afterLoad_field Arm7DI.nextType (fun _ _ _ _ => rfl) ..
  op := h.op
  r := if_pos hl
  wbv := h.wbv
  base := h.base
  ab := by rw [← h.last_iff.mp hl]; exact h.ab_succ
  pcLoaded := by
    rw [setK_x, setX_x, loadLatches, h.pcLoaded, h.last_reg hl]
    rfl
  newpc := by
    intro hpc
    rw [setK_x, setX_x, loadLatches, h.pcLoaded, Bool.false_or] at hpc
    have hj : (regList q.x.op).length - 1 = j := by
      rw [← h.last_iff.mp hl]
      exact Nat.add_sub_cancel j 1
    rw [hj]
    exact if_pos hpc
  gpr := by rw [← h.last_iff.mp hl]; exact h.afterLoad_gpr .I
  pc := (afterLoad_field Arm7DI.pc (fun _ _ _ _ => rfl) ..).trans h.pc
  cpsr := (afterLoad_field Arm7DI.cpsr (fun _ _ _ _ => rfl) ..).trans h.cpsr
  spsr := (afterLoad_field Arm7DI.spsr (fun _ _ _ _ => rfl) ..).trans h.spsr
  arch := (afterLoad_field (fun t : Arm7DI =>
    ((t.arch.announce .S).slide t.de t.f1).setGpr q.gpr) (fun _ _ _ _ => rfl) ..).trans
      h.arch

end BdtAt

/-- The read of transfer `j`. -/
def loadCycle (q : Arm7DI) (op : Word) (j : ℕ) : Signals :=
  ⟨if j = 0 then .N else .S, q.bdtAddr op + 4 * BitVec.ofNat 32 j, 0, q.idleFlags⟩

/-- The answers to the transfers of a sequence that begins at position `i`. -/
def answers (as : ℕ → Answer) (i j : ℕ) : Answer := as (i + 1 + j)

/-- One load, followed by the rest of the sequence. -/
lemma BdtAt.finishes_load (h : BdtAt q (answers as i) a j g u) (hL : bit q.x.op 20 = true)
    {n : CycleType} (hn : (if u.bdtLast then CycleType.I else .S) = n)
    (hrest : Finishes as (i + 1 + (j + 1)) (((u.afterLoad (answers as i j) n).setX
      (u.loadLatches (answers as i j))).setK (u.k + 1)) row A) :
    Finishes as (i + 1 + j) u (q.loadCycle q.x.op j :: row) A := by
  obtain ⟨hsig, hnext⟩ := h.load hL (answers as i j)
  rw [h.addr] at hsig
  rw [hn] at hnext
  exact .cons_eq (by simp [h.seq]) rfl hsig hnext hrest

/-- The transfers from `j` on, one cycle each. -/
lemma finishes_loads (hL : bit q.x.op 20 = true) {m : ℕ}
    (hend : ∀ t, LdmEnd q (answers as i) a t →
      Finishes as (i + 1 + (regList q.x.op).length) t row A)
    (hj : j + m + 1 = (regList q.x.op).length)
    (h : BdtAt q (answers as i) a j (q.ldmGpr q.x.op (answers as i) j) u) :
    Finishes as (i + 1 + j) u ((List.range' j (m + 1)).map (q.loadCycle q.x.op) ++ row) A := by
  induction m generalizing j u with
  | zero =>
    have hl : u.bdtLast = true := h.last_iff.mpr hj
    have hrest := hend _ (h.load_last hl)
    rw [← hj] at hrest
    exact h.finishes_load hL (by rw [hl]; rfl) hrest
  | succ m ih =>
    have hl : u.bdtLast = false := by
      rw [Bool.eq_false_iff, ne_eq, h.last_iff]
      omega
    exact h.finishes_load hL (by rw [hl]; rfl) (ih (by omega) (h.load_next hl))

/-! ### The end of an LDM -/

namespace LdmEnd

variable {t : Arm7DI} {k : ℕ} (h : LdmEnd q ans a t)

include h

lemma sequence : t.sequence = t.cyc t.pc t.idleFlags 0 (if t.x.pcLoaded then .N else .S)
    fun _ v => v.bdtEnd t.x.op :=
  (sequence_bdt h.seq).trans (cBdt_final h.step h.r)

lemma idle : (⟨t.nextType, t.pc, 0, t.idleFlags⟩ : Signals) = q.idleCycle := by
  rw [h.nextType, h.pc, idleCycle, idleFlags, idleFlags, userFlag, userFlag, h.cpsr]

lemma slide : (t.arch.announce .S).slide t.de t.f1 =
    (q.stepped a .S).setGpr (q.ldmGpr q.x.op ans (regList q.x.op).length) := by
  rw [← h.gpr, ← h.arch]
  rfl

lemma restored_eq : t.restored = q.restored := by
  rw [restored, restored, Arm7DI.bank, Arm7DI.bank, h.cpsr, h.spsr]

/-- An aborted LDM restores its base. -/
lemma abort (hab : aborted ans (regList q.x.op).length = true) : Finishes as k t [q.idleCycle]
    ((((q.stepped a .S).setGpr (q.ldmGpr q.x.op ans (regList q.x.op).length)).wr
      (field q.x.op 16 4) (if bit q.x.op 21 then q.bdtWbv q.x.op else q.bdtBaseVal q.x.op)).abortIf
        true) := by
  have habt : t.x.ab = true := h.ab.trans hab
  have hpc : t.x.pcLoaded = false := by rw [h.pcLoaded, habt]; rfl
  have hd := h.sequence
  rw [hpc] at hd
  refine .cons_eq (by simp [h.seq]) hd h.idle (if_pos habt) (finishes_done ?_)
  rw [← h.slide, ← h.wbv, ← h.base, ← h.op]
  rfl

variable (hab : aborted ans (regList q.x.op).length = false)

include hab

/-- An LDM without R15. -/
lemma done (h15 : bit (effList q.x.op) 15 = false) : Finishes as k t [q.idleCycle]
    ((q.stepped a .S).setGpr (q.ldmGpr q.x.op ans (regList q.x.op).length)) := by
  have habt : ¬t.x.ab = true := by rw [h.ab, hab]; decide
  have hpc : t.x.pcLoaded = false := by rw [h.pcLoaded, h15, Bool.and_false]
  have hd := h.sequence
  rw [hpc] at hd
  refine .cons_eq (by simp [h.seq]) hd h.idle
    ((if_neg habt).trans (if_neg (Bool.eq_false_iff.mp hpc)))
    (finishes_done (u := t.sampled _ .S) ?_)
  rw [← h.slide]
  rfl

/-- An LDM with R15. -/
lemma branch (h15 : bit (effList q.x.op) 15 = true) {target : Word}
    (ht : (ans ((regList q.x.op).length - 1)).rdata &&& ~~~3 = target) :
    Finishes as k t (q.idleCycle ::
        refillRow target (q.setCpsr (if bit q.x.op 22 then q.restored else q.cpsr)).fetchFlags)
      (((q.arch.setGpr (q.ldmGpr q.x.op ans (regList q.x.op).length)).setCpsr
        (if bit q.x.op 22 then q.restored else q.cpsr)).refill target
          (as (k + 1)) (as (k + 2))) := by
  have habt : ¬t.x.ab = true := by rw [h.ab, hab]; decide
  have hpc : t.x.pcLoaded = true := by rw [h.pcLoaded, h15, h.ab, hab]; rfl
  have hd := h.sequence
  rw [hpc] at hd
  subst ht
  have hcpsr : (if bit t.x.op 22 then (t.sampled (as k) .N).restored
      else (t.sampled (as k) .N).cpsr) = if bit q.x.op 22 then q.restored else q.cpsr := by
    rw [h.op, ← h.restored_eq, ← h.cpsr]
    rfl
  have hnext : (t.sampled (as k) .N).bdtEnd t.x.op =
      ((t.sampled (as k) .N).setCpsr (if bit q.x.op 22 then q.restored else q.cpsr)).startRefill
        ((ans ((regList q.x.op).length - 1)).rdata &&& ~~~3) := by
    rw [← hcpsr, ← h.newpc hpc]
    exact (if_neg habt).trans (if_pos hpc)
  have hdabort : t.dabortPending = q.dabortPending := congrArg Arch.dabort h.arch
  exact .cons_eq (by simp [h.seq]) hd h.idle hnext (finishes_refill rfl
    (Arch.ext h.gpr rfl rfl h.spsr rfl rfl rfl hdabort))

end LdmEnd

/-! ### The whole sequence -/

lemma regList_pos (op : Word) : 0 < (regList op).length := by
  rw [regList, setBits_eq_cons (effList_ne_zero op)]
  exact Nat.succ_pos _

/-- The latches of an LDM or STM in its first cycle. -/
def bdtLatches (q : Arm7DI) : InFlight :=
  { q.x with
    base := q.bdtBaseVal q.x.op
    list := effList q.x.op
    addr := q.bdtAddr q.x.op
    wbv := q.bdtWbv q.x.op
    userbank := bit q.x.op 22 && !(bit q.x.op 20 && bit (effList q.x.op) 15) }

lemma cBdt_first (hk : q.k = 0) : q.cBdt = (q.setX q.bdtLatches).cycle1Fetch .N fun t =>
    (t.setX { t.x with
      first := true, ab := false, newpc := 0, pcLoaded := false
      r := ctz (effList q.x.op) }).setK 1 := by
  unfold cBdt
  rw [if_pos hk]
  rfl

/-- The first cycle leads to the first transfer. -/
lemma finishes_bdt (hq : q.seq = .bdt) (hk : q.k = 0)
    (h : ∀ t, BdtAt q (answers as i) (as i) 0 q.gpr t → Finishes as (i + 1) t row A) :
    Finishes as i q (q.fetchCycle :: row) A := by
  refine .cycle1 (by simp [hq]) ((sequence_bdt hq).trans (cBdt_first hk)) rfl (h _ ?_)
  have hrest : (regList q.x.op).drop 0 =
      ctz (effList q.x.op) :: setBitsFrom (effList q.x.op) (ctz (effList q.x.op) + 1) :=
    setBits_eq_cons (effList_ne_zero _)
  have haddr : q.bdtAddr q.x.op = q.bdtAddr q.x.op + 4 * BitVec.ofNat 32 0 := by simp
  exact ⟨hq, rfl, rfl, rfl, rfl, hrest, haddr, rfl, rfl, rfl, rfl, rfl, rfl, rfl, rfl, rfl, rfl⟩

/-- The cycles of an LDM up to its last one. -/
def ldmRow (q : Arm7DI) (op : Word) : List Signals :=
  q.fetchCycle :: (List.range (regList op).length).map (q.loadCycle op)

section Ldm

variable (hq : q.seq = .bdt) (hk : q.k = 0) (hL : bit q.x.op 20 = true)

include hq hk hL

lemma finishes_ldm (hend : ∀ t, LdmEnd q (answers as i) (as i) t →
      Finishes as (i + 1 + (regList q.x.op).length) t row A) :
    Finishes as i q (q.ldmRow q.x.op ++ row) A := by
  refine finishes_bdt hq hk fun t ht => ?_
  obtain ⟨m, hm⟩ := Nat.exists_eq_add_of_le' (regList_pos q.x.op)
  have hrow : List.range (regList q.x.op).length = List.range' 0 (m + 1) := by
    rw [hm, List.range_eq_range']
  rw [hrow]
  exact finishes_loads hL hend (by omega) ht

/-- LDM with an abort. -/
lemma finishes_ldmAbort (hab : aborted (answers as i) (regList q.x.op).length = true) :
    Finishes as i q (q.ldmRow q.x.op ++ [q.idleCycle])
      ((((q.stepped (as i) .S).setGpr (q.ldmGpr q.x.op (answers as i) (regList q.x.op).length)).wr
        (field q.x.op 16 4) (if bit q.x.op 21 then q.bdtWbv q.x.op else q.bdtBaseVal q.x.op)).abortIf
          true) :=
  finishes_ldm hq hk hL fun _ ht => ht.abort hab

variable (hab : aborted (answers as i) (regList q.x.op).length = false)

include hab

/-- LDM without R15. -/
lemma finishes_ldmDone (h15 : bit (effList q.x.op) 15 = false) :
    Finishes as i q (q.ldmRow q.x.op ++ [q.idleCycle])
      ((q.stepped (as i) .S).setGpr
        (q.ldmGpr q.x.op (answers as i) (regList q.x.op).length)) :=
  finishes_ldm hq hk hL fun _ ht => ht.done hab h15

/-- LDM with R15. -/
lemma finishes_ldmBranch (h15 : bit (effList q.x.op) 15 = true) {target : Word}
    (ht : (answers as i ((regList q.x.op).length - 1)).rdata &&& ~~~3 = target) :
    Finishes as i q (q.ldmRow q.x.op ++ q.idleCycle ::
        refillRow target (q.setCpsr (if bit q.x.op 22 then q.restored else q.cpsr)).fetchFlags)
      (((q.arch.setGpr (q.ldmGpr q.x.op (answers as i) (regList q.x.op).length)).setCpsr
        (if bit q.x.op 22 then q.restored else q.cpsr)).refill target
          (as (i + 1 + (regList q.x.op).length + 1)) (as (i + 1 + (regList q.x.op).length + 2))) :=
  finishes_ldm hq hk hL fun _ h => h.branch hab h15 ht

end Ldm

/-! ### STM -/

/-- The word that transfer `j` of an STM stores. -/
def stmWord (q : Arm7DI) (op : Word) (j : ℕ) : Word :=
  if (regList op).getD j 16 = 15 then q.pc + 4
  else q.stmGpr op j (phys (BitVec.ofNat 4 ((regList op).getD j 16)) (q.listBank op))

/-- The write of transfer `j`. -/
def storeCycle (q : Arm7DI) (op : Word) (j : ℕ) : Signals :=
  ⟨if j = 0 then .N else .S, q.bdtAddr op + 4 * BitVec.ofNat 32 j, q.stmWord op j,
    { q.idleFlags with write := true }⟩

lemma stmGpr_succ (q : Arm7DI) (op : Word) (j : ℕ) : q.stmGpr op (j + 1) =
    if j = 0 then q.wroteBack op (q.stmGpr op j) else q.stmGpr op j := by
  rw [stmGpr, stmGpr, if_neg (Nat.succ_ne_zero j)]
  split_ifs <;> rfl

/-- The latches after a store. -/
def storeLatches (u : Arm7DI) (b : Answer) : InFlight :=
  { u.x with
    ab := u.x.ab || b.abort, first := false, addr := u.x.addr + 4
    r := if u.bdtLast then u.x.r else u.bdtNext }

/-- The state after a store, but for the end of the sequence. -/
def afterStore (u : Arm7DI) (b : Answer) (n : CycleType) : Arm7DI :=
  ((u.sampled b n).wrBase.setX (u.storeLatches b)).setK (u.k + 1)

lemma afterStore_field {β : Type*} (f : Arm7DI → β) (hf : ∀ s r b v, f (wrBank s r b v) = f s)
    (hx : ∀ s x, f (setX s x) = f s) (hk : ∀ s k, f (setK s k) = f s) (u : Arm7DI) (b : Answer)
    (n : CycleType) : f (u.afterStore b n) = f (u.sampled b n) := by
  rw [afterStore, hk, hx]
  exact wrBase_field _ f fun _ _ _ => hf _ _ _ _

namespace BdtAt

variable (h : BdtAt q ans a j (q.stmGpr q.x.op j) u) (hL : bit q.x.op 20 = false)

include h hL

/-- The bus cycle of a store and what it leads to. -/
lemma store (b : Answer) : u.sequence.bus.signals = q.storeCycle q.x.op j ∧
    u.sequence.next b =
      let t := u.afterStore b (if u.bdtLast then .N else .S)
      if u.bdtLast then
        (if u.x.ab || b.abort then t.setDabort true else t).advance.done
      else t := by
  have hk : u.k ≠ 0 := by rw [h.step]; exact Nat.succ_ne_zero j
  have hr : u.x.r ≠ 16 := Nat.ne_of_lt h.reg_lt
  have hLu : bit u.x.op 20 = false := h.op ▸ hL
  rw [sequence_bdt h.seq, cBdt_store hk hr hLu]
  refine ⟨?_, ?_⟩
  · have hw : u.bdtStored = q.stmWord q.x.op j := by
      rw [bdtStored_eq h.reg_lt, stmWord, h.getD_eq, h.gpr, h.pc, h.bank]
    simp [BusCycle.signals, storeCycle, h.nextType, h.addr, h.idle, hw]
  · rw [cyc_next, bdt_store_eq (s := u.sampled b _) hLu, h.sampled_abort]
    rfl

omit hL

lemma afterStore_gpr (b : Answer) (n : CycleType) :
    (u.afterStore b n).gpr = q.stmGpr q.x.op (j + 1) := by
  rw [stmGpr_succ, ← h.wrBase_gpr_eq, ← wrBase_sampled_gpr b n]
  rfl

/-- What a store leaves alone. -/
lemma afterStore_arch (b : Answer) (n m : CycleType) :
    (((u.afterStore b n).arch.announce m).slide (u.afterStore b n).de (u.afterStore b n).f1).setGpr
      q.gpr = q.stepped a m := by
  have hs : q.stepped a m = (q.stepped a .S).announce m := rfl
  rw [hs, ← h.arch]
  exact afterStore_field (fun t => ((t.arch.announce m).slide t.de t.f1).setGpr q.gpr)
    (fun _ _ _ _ => rfl) (fun _ _ => rfl) (fun _ _ => rfl) u b n

/-- A store that is not the last one leads to the next. -/
lemma store_next {b : Answer} (hb : ans j = b) (hl : u.bdtLast = false) :
    BdtAt q ans a (j + 1) (q.stmGpr q.x.op (j + 1)) (u.afterStore b .S) where
  seq := (afterStore_field Arm7DI.seq (fun _ _ _ _ => rfl) (fun _ _ => rfl) (fun _ _ => rfl)
    u b .S).trans h.seq
  step := congrArg (· + 1) h.step
  nextType := afterStore_field Arm7DI.nextType (fun _ _ _ _ => rfl) (fun _ _ => rfl)
    (fun _ _ => rfl) u b .S
  op := h.op
  list := h.list
  rest := by
    have hr : (u.storeLatches b).r = u.bdtNext := if_neg (Bool.eq_false_iff.mp hl)
    rw [afterStore, setK_x, setX_x, hr]
    exact h.rest_next hl
  addr := h.addr_succ
  wbv := h.wbv
  base := h.base
  bank := by
    have hbank : (u.afterStore b .S).bank = u.bank := afterStore_field Arm7DI.bank
      (fun _ _ _ _ => rfl) (fun _ _ => rfl) (fun _ _ => rfl) u b .S
    rw [← h.bank]
    exact congrArg (fun c => if u.x.userbank then Bank.usr else c) hbank
  first := rfl
  ab := hb ▸ h.ab_succ
  pcLoaded := h.pcLoaded
  gpr := h.afterStore_gpr b .S
  pc := (afterStore_field Arm7DI.pc (fun _ _ _ _ => rfl) (fun _ _ => rfl) (fun _ _ => rfl)
    u b .S).trans h.pc
  cpsr := (afterStore_field Arm7DI.cpsr (fun _ _ _ _ => rfl) (fun _ _ => rfl) (fun _ _ => rfl)
    u b .S).trans h.cpsr
  arch := h.afterStore_arch b .S .S

end BdtAt

/-- The stores from `j` on, one cycle each, to the end of the STM. -/
lemma finishes_stores (hL : bit q.x.op 20 = false) {m : ℕ}
    (hj : j + m + 1 = (regList q.x.op).length)
    (h : BdtAt q (answers as i) (as i) j (q.stmGpr q.x.op j) u) :
    Finishes as (i + 1 + j) u ((List.range' j (m + 1)).map (q.storeCycle q.x.op))
      (((q.stepped (as i) .N).setGpr (q.wroteBack q.x.op q.gpr)).abortIf
        (aborted (answers as i) (regList q.x.op).length)) := by
  induction m generalizing j u with
  | zero =>
    have hl : u.bdtLast = true := h.last_iff.mpr hj
    obtain ⟨hsig, hnext⟩ := h.store hL (answers as i j)
    simp only [hl, if_true] at hnext
    refine .cons_eq (by simp [h.seq]) rfl hsig hnext (finishes_doneIf _ ?_)
    have hgpr : (u.afterStore (answers as i j) .N).gpr = q.wroteBack q.x.op q.gpr :=
      h.afterStore_gpr _ _
    have htype : (u.afterStore (answers as i j) .N).nextType = .N :=
      afterStore_field Arm7DI.nextType (fun _ _ _ _ => rfl) (fun _ _ => rfl) (fun _ _ => rfl) ..
    rw [h.ab_succ, hj, ← h.afterStore_arch (answers as i j) .N .N]
    exact congrArg (fun B : Arch => B.abortIf _) (Arch.ext hgpr rfl rfl rfl rfl rfl htype rfl)
  | succ m ih =>
    have hl : u.bdtLast = false := by
      rw [Bool.eq_false_iff, ne_eq, h.last_iff]
      omega
    obtain ⟨hsig, hnext⟩ := h.store hL (answers as i j)
    simp only [hl, Bool.false_eq_true, if_false] at hnext
    exact .cons_eq (by simp [h.seq]) rfl hsig hnext (ih (by omega) (h.store_next rfl hl))

/-- STM. -/
lemma finishes_stm (hq : q.seq = .bdt) (hk : q.k = 0) (hL : bit q.x.op 20 = false) :
    Finishes as i q
      (q.fetchCycle :: (List.range (regList q.x.op).length).map (q.storeCycle q.x.op))
      (((q.stepped (as i) .N).setGpr (q.wroteBack q.x.op q.gpr)).abortIf
        (aborted (answers as i) (regList q.x.op).length)) := by
  refine finishes_bdt hq hk fun t ht => ?_
  obtain ⟨m, hm⟩ := Nat.exists_eq_add_of_le' (regList_pos q.x.op)
  have hrow : List.range (regList q.x.op).length = List.range' 0 (m + 1) := by
    rw [hm, List.range_eq_range']
  rw [hrow]
  exact finishes_stores hL (by omega) ht

end Arm7DI

end Wren7
