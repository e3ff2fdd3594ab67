import Wren7.Aica.Harness
import Wren7.Equiv.LockStep
import Wren7.Rtl.Aica

/-!
# The memory map of the wrapper

A little-endian access with byte enables behind the port of `wren7_aica`, against the bus cycle of
`DcArmBus` for the same core cycle.
-/

namespace Wren7

open Bits Rtl

/-! ### The wave RAM, as bytes of words -/

/-- The byte of a word with a given lane. -/
def byteAt (w : BitVec 19) (lane : BitVec 2) : BitVec 21 := w ++ lane

lemma byteAt_fields (i : BitVec 21) : byteAt (i.extractLsb' 2 19) (i.extractLsb' 0 2) = i := by
  apply BitVec.eq_of_getLsbD_eq
  intro k hk
  simp only [byteAt, BitVec.getLsbD_append, BitVec.getLsbD_extractLsb']
  by_cases h : k < 2
  · simp [h]
  · simp [h, show k - 2 < 19 by omega, show 2 + (k - 2) = k by omega]

lemma toNat_byteAt (w : BitVec 19) (l : BitVec 2) :
    (byteAt w l).toNat = 4 * w.toNat + l.toNat := by
  rw [byteAt, BitVec.toNat_append, ← Nat.shiftLeft_add_eq_or_of_lt l.isLt, Nat.shiftLeft_eq]
  omega

lemma byteAt_inj {w w' : BitVec 19} {l l' : BitVec 2} :
    byteAt w l = byteAt w' l' ↔ w = w' ∧ l = l' := by
  refine ⟨fun h => ?_, fun h => by rw [h.1, h.2]⟩
  have h := congrArg BitVec.toNat h
  rw [toNat_byteAt, toNat_byteAt] at h
  have hl := l.isLt
  have hl' := l'.isLt
  exact ⟨BitVec.eq_of_toNat_eq (by omega), BitVec.eq_of_toNat_eq (by omega)⟩

@[simp] lemma byteAt_word (w : BitVec 19) (l : BitVec 2) : (byteAt w l).extractLsb' 2 19 = w :=
  (byteAt_inj.mp (byteAt_fields (byteAt w l))).1

@[simp] lemma byteAt_lane (w : BitVec 19) (l : BitVec 2) : (byteAt w l).extractLsb' 0 2 = l :=
  (byteAt_inj.mp (byteAt_fields (byteAt w l))).2

namespace DcArmBus

/-- The wave RAM word of an address. -/
def ramWord (addr : Word) : BitVec 19 := field addr 2 19

lemma ramIndex_eq (addr : Word) : ramIndex addr = byteAt (ramWord addr) (field addr 0 2) := by
  have h := byteAt_fields (ramIndex addr)
  rw [← h]
  congr 1 <;> apply BitVec.eq_of_getLsbD_eq <;> intro k hk <;>
    simp [ramIndex, ramWord, field, hk] <;> omega

lemma wordIndex_add (addr : Word) (l : BitVec 2) :
    wordIndex addr + l.setWidth 21 = byteAt (ramWord addr) l := by
  have hmask : ∀ k < 21, (~~~3 : BitVec 21).getLsbD k = decide (2 ≤ k) := by decide
  have h0 : wordIndex addr = byteAt (ramWord addr) 0 := by
    apply BitVec.eq_of_getLsbD_eq
    intro k hk
    rw [wordIndex, BitVec.getLsbD_and, hmask k hk]
    simp only [ramIndex, byteAt, BitVec.getLsbD_append]
    by_cases h : k < 2
    · simp [h]
    · simp [h, ramWord, field, hk, show k - 2 < 19 by omega, show 2 + (k - 2) = k by omega,
        show 2 ≤ k by omega]
  apply BitVec.eq_of_toNat_eq
  have hl := l.isLt
  have hw := (ramWord addr).isLt
  have hz : (0 : BitVec 2).toNat = 0 := rfl
  rw [h0, BitVec.toNat_add, toNat_byteAt, toNat_byteAt, BitVec.toNat_setWidth, hz]
  omega

section Ram

variable {ρ : Type*} (b : DcArmBus ρ)

lemma rd32_eq (addr : Word) : b.rd32 addr =
    b.ram (byteAt (ramWord addr) 3) ++ b.ram (byteAt (ramWord addr) 2) ++
      b.ram (byteAt (ramWord addr) 1) ++ b.ram (byteAt (ramWord addr) 0) := by
  rw [← wordIndex_add addr 3, ← wordIndex_add addr 2, ← wordIndex_add addr 1,
    ← wordIndex_add addr 0]
  simp [rd32]

lemma wr32_eq (addr v : Word) : b.wr32 addr v = b.setRam fun i =>
    if i.extractLsb' 2 19 = ramWord addr then v.extractLsb' (8 * (i.extractLsb' 0 2).toNat) 8
    else b.ram i := by
  have h0 : wordIndex addr = byteAt (ramWord addr) 0 := by simpa using wordIndex_add addr 0
  have h1 : wordIndex addr + 1 = byteAt (ramWord addr) 1 := wordIndex_add addr 1
  have h2 : wordIndex addr + 2 = byteAt (ramWord addr) 2 := wordIndex_add addr 2
  have h3 : wordIndex addr + 3 = byteAt (ramWord addr) 3 := wordIndex_add addr 3
  have hlane : ∀ u : BitVec 2, u = 0 ∨ u = 1 ∨ u = 2 ∨ u = 3 := by decide
  refine congrArg b.setRam (funext fun i => ?_)
  rw [h3, h2, h1, h0, ← byteAt_fields i]
  simp only [wr8, setRam_ram, Function.update_apply, byteAt_inj, byteAt_word, byteAt_lane]
  by_cases hw : i.extractLsb' 2 19 = ramWord addr
  · rcases hlane (i.extractLsb' 0 2) with hl | hl | hl | hl <;> simp [hw, hl] <;> rfl
  · simp [hw]

end Ram

end DcArmBus

/-! ### What the bus records for the harness -/

section Record

variable {ρ : Type*}

/-- The registers without the record of the interrupt to the SH4. -/
def RegBlock.unrecorded (s : RegBlock ρ) : RegBlock ρ := { s with scpuRaised := false, scpuT := 0 }

/-- The bus without what it records for the harness: that and the number of register accesses. -/
def DcArmBus.unrecorded (b : DcArmBus ρ) : DcArmBus ρ :=
  { b with regAccesses := 0, block := b.block.unrecorded }

variable {s t : RegBlock ρ} {b : DcArmBus ρ}

lemma DcArmBus.unrecorded_count (h : s.unrecorded = t.unrecorded) :
    (b.countAccess.setBlock s).unrecorded = (b.setBlock t).unrecorded :=
  congrArg (fun s => { b with regAccesses := 0, block := s }) h

namespace RegBlock

lemma updateInterrupts_raiseScpu (n : ℕ) :
    (s.raiseScpu n).updateInterrupts = s.updateInterrupts.raiseScpu n := by
  by_cases h : s.ready
  · rw [updateInterrupts_of_ready h, updateInterrupts_of_ready (s := s.raiseScpu n) h]
    rfl
  · rw [updateInterrupts_of_not_ready h, updateInterrupts_of_not_ready (s := s.raiseScpu n) h]
    rfl

variable [AicaRegs ρ]

/-- The record is not part of the work of a write. -/
lemma wreg_raiseScpu (n : ℕ) (r : RegNo) (v mask : BitVec 16) :
    (s.raiseScpu n).wreg r v mask = (s.wreg r v mask).raiseScpu n := by
  by_cases hL : r = regL
  · rw [wreg, wreg, if_pos hL, if_pos hL]
  rw [wreg, wreg, if_neg hL, if_neg hL]
  by_cases hM : r = regM
  · rw [if_pos hM, if_pos hM]
    split_ifs
    · exact updateInterrupts_raiseScpu (s := s.setOut false) n
    · rfl
  rw [if_neg hM, if_neg hM]
  cases hr : s.regs <;> simp only [raiseScpu_regs, hr]
  all_goals
    rw [← updateInterrupts_raiseScpu]
    congr 1
  split_ifs <;> rfl

/-- A cycle that writes a register is its access, up to the record. -/
lemma regCycle_unrecorded (s : RegBlock ρ) {c : BusCycle} (hw : c.flags.write = true) :
    (s.regCycle c).2.unrecorded = (s.perform (Call.arm c).access).unrecorded := by
  obtain ⟨t, rfl | ⟨n, rfl⟩, h⟩ := s.call_eq (.arm c)
  · exact congrArg unrecorded h
  · refine (congrArg unrecorded h).trans ?_
    simp only [Call.access, hw, if_true]
    split_ifs <;> first
      | rfl
      | exact (congrArg unrecorded (wreg_raiseScpu n _ _ _)).trans rfl

end RegBlock

end Record

/-! ### An access through the port -/

section Port

variable {ρ : Type*} [AicaRegs ρ] (p : ArmPort) (b : DcArmBus ρ)

/-- The word that the port addresses in the wave RAM. -/
def armWord : BitVec 19 := p.addr.extractLsb' 2 19

/-- The register that it addresses. -/
def armReg : RegNo := p.addr.extractLsb' 2 13

/-- The byte enables of a register, as a mask of its 16 bits. -/
def armMask : BitVec 16 := (if bit p.be 0 then 0x00FF else 0) ||| (if bit p.be 1 then 0xFF00 else 0)

/-- The port writes a byte of the wave RAM. -/
def armWrites (i : BitVec 21) : Prop :=
  i.extractLsb' 2 19 = armWord p ∧ bit p.be (i.extractLsb' 0 2).toNat = true

instance (i : BitVec 21) : Decidable (armWrites p i) := inferInstanceAs (Decidable (_ ∧ _))

/-- A little-endian access with byte enables: to the wave RAM, or to the registers, which are 16 bits
in the low half of each word. -/
def armAccess : Word × DcArmBus ρ :=
  if p.ram then
    if p.we then
      (0, b.setRam fun i =>
        if armWrites p i then p.wdata.extractLsb' (8 * (i.extractLsb' 0 2).toNat) 8 else b.ram i)
    else
      (b.ram (byteAt (armWord p) 3) ++ b.ram (byteAt (armWord p) 2) ++
        b.ram (byteAt (armWord p) 1) ++ b.ram (byteAt (armWord p) 0), b)
  else if p.we then
    (0, if armMask p = 0 then b
      else b.setBlock (b.block.wreg (armReg p) (p.wdata.setWidth 16 &&& armMask p) (armMask p)))
  else
    ((b.block.rreg (armReg p)).1.setWidth 32, b.setBlock (b.block.rreg (armReg p)).2)

end Port

/-! ### The port of a core cycle -/

section Cycle

variable (ty : CycleType) (addr : Word) (f : BusFlags) (v : Word)

/-- The outputs of the core in a cycle: a stored byte is on all four lanes. -/
def cycleOutputs : Core.Outputs where
  type := ty
  req := !bit ty.code 1
  addr := addr
  flags := f
  wdata := if f.byte then
    (v.setWidth 8 ++ v.setWidth 8 ++ v.setWidth 8 ++ v.setWidth 8 : BitVec 32) else v

/-- The outputs are those of some core cycle in every state. -/
lemma outputs_eq (c : Core) : c.outputs =
    cycleOutputs (busType c.regs) (busAddr c.regs) (busFlags c.regs) c.vb := rfl

/-- The cycle of the model at time `t`; nothing looks at the data `w` of a read. -/
def cycleOf (w : Word) (t : ℕ) : BusCycle :=
  ⟨t, addr, if f.write then storeVal f.byte v else w, ty, f⟩

/-- What the two machines drive in lock step is one cycle. -/
lemma Agree.cycle {c : Core} {s : Arm7DI} {b : BusCycle} (h : Agree c s b) :
    c.outputs = cycleOutputs b.type b.addr b.flags c.vb ∧
      b = cycleOf b.type b.addr b.flags c.vb b.wdata b.t := by
  have ho := outputs_eq c
  rw [show busType c.regs = b.type from h.type, show busAddr c.regs = b.addr from h.addr,
    show busFlags c.regs = b.flags from h.flags] at ho
  refine ⟨ho, ?_⟩
  have hdata : (if b.flags.write then storeVal b.flags.byte c.vb else b.wdata) = b.wdata := by
    split_ifs with hw
    · have hd := h.wdata hw
      rw [ho, cycleOutputs, storeVal_eq] at hd
      exact hd
    · rfl
  rw [cycleOf, hdata]

variable {ty addr f v}

lemma armWord_eq (h : armRam addr = true) :
    armWord (cycleOutputs ty addr f v).arm = DcArmBus.ramWord addr := by
  have ha : armAddr addr = (field addr 2 19 ++ 0#2 : BitVec 21) := if_pos h
  change (armAddr addr).extractLsb' 2 19 = _
  rw [ha]
  apply BitVec.eq_of_getLsbD_eq
  intro k hk
  rw [BitVec.getLsbD_extractLsb', decide_eq_true hk, Bool.true_and]
  refine BitVec.getLsbD_append.trans ?_
  rw [if_neg (by omega), Nat.add_sub_cancel_left]
  rfl

lemma armReg_eq (h : armRam addr = false) :
    armReg (cycleOutputs ty addr f v).arm = regNo addr := by
  have ha : armAddr addr = (0#6 ++ field addr 2 13 ++ 0#2 : BitVec 21) := if_neg (by simp [h])
  change (armAddr addr).extractLsb' 2 13 = _
  rw [ha]
  apply BitVec.eq_of_getLsbD_eq
  intro k hk
  rw [BitVec.getLsbD_extractLsb', decide_eq_true hk, Bool.true_and]
  refine BitVec.getLsbD_append.trans ?_
  rw [if_neg (by omega)]
  refine BitVec.getLsbD_append.trans ?_
  simp [regNo, hk]

lemma arm_be (h : f.byte = true) :
    (cycleOutputs ty addr f v).arm.be = 1#4 <<< (field addr 0 2).toNat := by
  change armBe addr f.byte = _
  rw [h, armBe, if_pos rfl, setWidth_eq_field]

lemma arm_be_word (h : f.byte = false) : (cycleOutputs ty addr f v).arm.be = 0xF := by
  change armBe addr f.byte = _
  rw [h]
  rfl

/-- A byte on all four lanes. -/
lemma getLsbD_lanes (u : BitVec 8) {k : ℕ} (hk : k < 32) :
    (u ++ u ++ u ++ u : BitVec 32).getLsbD k = u.getLsbD (k % 8) := by
  refine BitVec.getLsbD_append.trans ?_
  split_ifs with h0
  · rw [Nat.mod_eq_of_lt h0]
  refine BitVec.getLsbD_append.trans ?_
  split_ifs with h1
  · congr 1; omega
  refine BitVec.getLsbD_append.trans ?_
  split_ifs with h2 <;> congr 1 <;> omega

lemma getLsbD_storeVal (v : Word) {k : ℕ} (hk : k < 32) :
    (storeVal true v).getLsbD k = v.getLsbD (k % 8) := by
  rw [← storeVal_eq, if_pos rfl, getLsbD_lanes _ hk, BitVec.getLsbD_setWidth,
    decide_eq_true (by omega), Bool.true_and]

/-- Every lane of a stored byte. -/
lemma lane_storeVal (v : Word) (l : BitVec 2) :
    (storeVal true v).extractLsb' (8 * l.toNat) 8 = v.setWidth 8 := by
  apply BitVec.eq_of_getLsbD_eq
  intro k hk
  have hl := l.isLt
  rw [BitVec.getLsbD_extractLsb', BitVec.getLsbD_setWidth, getLsbD_storeVal _ (by omega)]
  congr 2
  omega

section Access

variable {ρ : Type*} [AicaRegs ρ] (b : DcArmBus ρ) (w : Word) (t : ℕ)

/-- A write of the wave RAM. -/
lemma ram_write (hr : armRam addr = true) (hw : f.write = true) :
    (armAccess (cycleOutputs ty addr f v).arm b).2 = (b.access (cycleOf ty addr f v w t)).2 := by
  have hin : DcArmBus.inRam addr = true := hr
  have hport : (armAccess (cycleOutputs ty addr f v).arm b).2 = b.setRam fun i =>
      if armWrites (cycleOutputs ty addr f v).arm i then
        (storeVal f.byte v).extractLsb' (8 * (i.extractLsb' 0 2).toNat) 8 else b.ram i := by
    unfold armAccess
    rw [if_pos (show (cycleOutputs ty addr f v).arm.ram = true from hr),
      if_pos (show (cycleOutputs ty addr f v).arm.we = true from hw), ← storeVal_eq]
    rfl
  have hbus : (b.access (cycleOf ty addr f v w t)).2 =
      if f.byte then b.wr8 (DcArmBus.ramIndex addr)
        ((storeVal f.byte v >>> (8 * (field addr 0 2).toNat)).setWidth 8)
      else b.wr32 addr (storeVal f.byte v) := by
    unfold DcArmBus.access
    rw [if_pos (show DcArmBus.inRam (cycleOf ty addr f v w t).addr = true from hin),
      if_pos (show (cycleOf ty addr f v w t).flags.write = true from hw)]
    simp only [cycleOf, if_pos hw]
  have hone : ∀ l m : BitVec 2, bit (1#4 <<< m.toNat) l.toNat = decide (l = m) := by decide
  have hall : ∀ l : BitVec 2, bit (0xF : BitVec 4) l.toNat = true := by decide
  rw [hport, hbus]
  cases hb : f.byte with
  | true =>
    rw [if_pos rfl, DcArmBus.wr8, DcArmBus.ramIndex_eq]
    refine congrArg b.setRam (funext fun i => ?_)
    rw [← byteAt_fields i]
    simp only [armWrites, armWord_eq hr, arm_be hb, hone, byteAt_word, byteAt_lane, byteAt_inj,
      Function.update_apply, lane_storeVal, decide_eq_true_eq]
    rw [← lane_storeVal v (field addr 0 2)]
    rfl
  | false =>
    rw [if_neg (by decide), DcArmBus.wr32_eq]
    refine congrArg b.setRam (funext fun i => ?_)
    simp only [armWrites, armWord_eq hr, arm_be_word hb, hall, and_true]

/-- A read of the wave RAM. -/
lemma ram_read (hr : armRam addr = true) (hw : f.write = false) :
    armAccess (cycleOutputs ty addr f v).arm b = b.access (cycleOf ty addr f v w t) := by
  have hin : DcArmBus.inRam addr = true := hr
  unfold armAccess DcArmBus.access
  rw [if_pos (show (cycleOutputs ty addr f v).arm.ram = true from hr),
    if_neg (show ¬(cycleOutputs ty addr f v).arm.we = true by simp [Core.Outputs.arm, cycleOutputs, hw]),
    if_pos (show DcArmBus.inRam (cycleOf ty addr f v w t).addr = true from hin),
    if_neg (show ¬(cycleOf ty addr f v w t).flags.write = true by simp [cycleOf, hw]),
    DcArmBus.rd32_eq, armWord_eq hr]
  rfl

/-- A read of a register. -/
lemma reg_read (hr : armRam addr = false) (hw : f.write = false) :
    (armAccess (cycleOutputs ty addr f v).arm b).1 = (b.access (cycleOf ty addr f v w t)).1 ∧
      (b.access (cycleOf ty addr f v w t)).2.unrecorded =
        (armAccess (cycleOutputs ty addr f v).arm b).2.unrecorded := by
  have hin : DcArmBus.inRam addr = false := hr
  have hport : armAccess (cycleOutputs ty addr f v).arm b =
      ((b.block.rreg (regNo addr)).1.setWidth 32, b.setBlock (b.block.rreg (regNo addr)).2) := by
    unfold armAccess
    rw [if_neg (show ¬(cycleOutputs ty addr f v).arm.ram = true by
        simp [Core.Outputs.arm, cycleOutputs, hr]),
      if_neg (show ¬(cycleOutputs ty addr f v).arm.we = true by
        simp [Core.Outputs.arm, cycleOutputs, hw]), armReg_eq hr]
  have hreg : b.block.regCycle (cycleOf ty addr f v w t) = b.block.rreg (regNo addr) :=
    if_neg (show ¬(cycleOf ty addr f v w t).flags.write = true by simp [cycleOf, hw])
  rw [hport, DcArmBus.access,
    if_neg (show ¬DcArmBus.inRam (cycleOf ty addr f v w t).addr = true by simp [cycleOf, hin]), hreg]
  exact ⟨rfl, rfl⟩

lemma armMask_word (hb : f.byte = false) : armMask (cycleOutputs ty addr f v).arm = 0xFFFF := by
  rw [armMask, arm_be_word hb]
  rfl

lemma armMask_byte (hb : f.byte = true) : armMask (cycleOutputs ty addr f v).arm =
    if field addr 0 2 = 0 then 0xFF else if field addr 0 2 = 1 then 0xFF00 else 0 := by
  rw [armMask, arm_be hb]
  generalize field addr 0 2 = l
  revert l
  decide

/-- The byte lanes that the bus gives a register access are the byte enables of the port. -/
lemma reg_lanes (hw : f.write = true) : (Call.arm (cycleOf ty addr f v w t)).access =
    if armMask (cycleOutputs ty addr f v).arm = 0 then .dropped
    else .write (regNo addr)
      ((storeVal f.byte v).setWidth 16 &&& armMask (cycleOutputs ty addr f v).arm)
      (armMask (cycleOutputs ty addr f v).arm) := by
  have hall : ∀ w : BitVec 16, w &&& 65535#16 = w := fun w => BitVec.and_allOnes
  simp only [Call.access, cycleOf, hw, if_true]
  by_cases hb : f.byte = true
  · rw [armMask_byte hb]
    simp only [hb]
    have hlane : ∀ u : BitVec 2, u = 0 ∨ u = 1 ∨ u = 2 ∨ u = 3 := by decide
    have hrep : ∀ k (h : k < 8), (storeVal true v)[k] = (storeVal true v)[k + 8] := by
      intro k h
      rw [← BitVec.getLsbD_eq_getElem, ← BitVec.getLsbD_eq_getElem, getLsbD_storeVal _ (by omega),
        getLsbD_storeVal _ (by omega), Nat.add_mod_right]
    rcases hlane (field addr 0 2) with hl | hl | hl | hl <;> simp [hl]
    all_goals
      apply BitVec.eq_of_getLsbD_eq
      intro k hk
      interval_cases k <;> simp [hrep]
  · rw [Bool.not_eq_true] at hb
    rw [armMask_word hb]
    simp [hb, hall, storeVal, setWidth_eq_field]

/-- A write of a register. -/
lemma reg_write (hr : armRam addr = false) (hw : f.write = true) :
    (b.access (cycleOf ty addr f v w t)).2.unrecorded =
      (armAccess (cycleOutputs ty addr f v).arm b).2.unrecorded := by
  have hin : DcArmBus.inRam addr = false := hr
  have hport : (armAccess (cycleOutputs ty addr f v).arm b).2 =
      let p := (cycleOutputs ty addr f v).arm
      if armMask p = 0 then b else b.setBlock (b.block.wreg (regNo addr)
        ((storeVal f.byte v).setWidth 16 &&& armMask p) (armMask p)) := by
    unfold armAccess
    rw [if_neg (show ¬(cycleOutputs ty addr f v).arm.ram = true by
        simp [Core.Outputs.arm, cycleOutputs, hr]),
      if_pos (show (cycleOutputs ty addr f v).arm.we = true from hw), armReg_eq hr, ← storeVal_eq]
    rfl
  rw [DcArmBus.access,
    if_neg (show ¬DcArmBus.inRam (cycleOf ty addr f v w t).addr = true by simp [cycleOf, hin])]
  have hrec := RegBlock.regCycle_unrecorded b.block
    (show (cycleOf ty addr f v w t).flags.write = true from hw)
  refine (DcArmBus.unrecorded_count hrec).trans (congrArg DcArmBus.unrecorded ?_)
  rw [hport, reg_lanes w t hw]
  dsimp only
  split_ifs <;> rfl

/-- The wave RAM is mirrored every 2 MB, the registers every 32 KB; A[31:24] are not looked at. -/
lemma arm_mirror {addr' : Word} (h23 : bit addr' 23 = bit addr 23)
    (h : if armRam addr then field addr' 0 21 = field addr 0 21 else field addr' 0 15 = field addr 0 15) :
    (cycleOutputs ty addr' f v).arm = (cycleOutputs ty addr f v).arm := by
  have hram : armRam addr' = armRam addr := by rw [armRam, armRam, h23]
  have hfield : ∀ {n lo m : ℕ}, lo + m ≤ n → field addr' 0 n = field addr 0 n →
      field addr' lo m = field addr lo m := by
    intro n lo m hle h
    rw [← Nat.zero_add lo, ← field_field addr' hle, ← field_field addr hle, h]
  have hlanes : addr'.setWidth 2 = addr.setWidth 2 ∧ armAddr addr' = armAddr addr := by
    simp only [setWidth_eq_field, armAddr, hram]
    split_ifs at h ⊢
    · rw [hfield (by decide) h, hfield (by decide) h]
      exact ⟨rfl, rfl⟩
    · rw [hfield (by decide) h, hfield (by decide) h]
      exact ⟨rfl, rfl⟩
  have hbe : armBe addr' f.byte = armBe addr f.byte := by rw [armBe, armBe, hlanes.1]
  rw [Core.Outputs.arm, Core.Outputs.arm]
  simp only [cycleOutputs, hram, hlanes.2, hbe]

lemma arm_align (hb : f.byte = false) :
    (cycleOutputs ty (addr &&& ~~~3) f v).arm = (cycleOutputs ty addr f v).arm := by
  have hmask : ∀ k < 32, (~~~3 : Word).getLsbD k = decide (2 ≤ k) := by decide
  have hbit : ∀ k < 30, (addr &&& ~~~3).getLsbD (2 + k) = addr.getLsbD (2 + k) := by
    intro k hk
    rw [BitVec.getLsbD_and, hmask _ (by omega), decide_eq_true (by omega), Bool.and_true]
  have hfield : ∀ m ≤ 30, field (addr &&& ~~~3) 2 m = field addr 2 m := by
    intro m hm
    apply BitVec.eq_of_getLsbD_eq
    intro k hk
    rw [field, field, BitVec.getLsbD_extractLsb', BitVec.getLsbD_extractLsb', hbit k (by omega)]
  have hram : armRam (addr &&& ~~~3) = armRam addr := by
    rw [armRam, armRam, bit, bit, hbit 21 (by decide)]
  have haddr : armAddr (addr &&& ~~~3) = armAddr addr := by
    rw [armAddr, armAddr, hram, hfield 19 (by decide), hfield 13 (by decide)]
  have hbe : armBe (addr &&& ~~~3) f.byte = armBe addr f.byte := by rw [hb]; rfl
  rw [Core.Outputs.arm, Core.Outputs.arm]
  simp only [cycleOutputs, hram, haddr, hbe]

/-- The access through the port is the access of the bus. -/
lemma access_port : (f.write = false →
      (armAccess (cycleOutputs ty addr f v).arm b).1 = (b.access (cycleOf ty addr f v w t)).1) ∧
    (b.access (cycleOf ty addr f v w t)).2.unrecorded =
      (armAccess (cycleOutputs ty addr f v).arm b).2.unrecorded := by
  cases hr : armRam addr <;> cases hw : f.write
  · exact ⟨fun _ => (reg_read b w t hr hw).1, (reg_read b w t hr hw).2⟩
  · exact ⟨fun h => Bool.noConfusion h, reg_write b w t hr hw⟩
  · rw [ram_read b w t hr hw]
    exact ⟨fun _ => rfl, rfl⟩
  · exact ⟨fun h => Bool.noConfusion h, congrArg _ (ram_write b w t hr hw).symm⟩

/-- The two memory maps are one. In a memory cycle the access that the port of the wrapper asks for
returns the word of `DcArmBus::cycle`, from which both cores extract the same value, and leaves the
same state, the harness's records apart; an internal cycle asks for none. So the map has the mirrors
of the port, word accesses go to the aligned word, and a byte written to lane 2 or 3 of a register is
dropped. -/
theorem memory_map (ty : CycleType) (addr : Word) (f : BusFlags) (v w : Word) (t : ℕ)
    (b : DcArmBus ρ) :
    let c := cycleOf ty addr f v w t
    let p := (cycleOutputs ty addr f v).arm
    let b' := (b.tick t).arbitrated c
    p.req = ty.isMem ∧
    (p.req = false → (b.cycle c).2 = b.tick t) ∧
    (p.req = true →
      p.ram = DcArmBus.inRam addr ∧
      (f.write = false → (armAccess p b').1 = (b.cycle c).1.rdata ∧
        Rtl.loadVal (armAccess p b').1 (addr.setWidth 2) f.byte =
          Wren7.loadVal f.byte (b.cycle c).1.rdata addr) ∧
      (b.cycle c).2.unrecorded = (armAccess p b').2.unrecorded) ∧
    (∀ addr', bit addr' 23 = bit addr 23 →
      (if p.ram then field addr' 0 21 = field addr 0 21 else field addr' 0 15 = field addr 0 15) →
      (cycleOutputs ty addr' f v).arm = p) ∧
    (f.byte = false → (cycleOutputs ty (addr &&& ~~~3) f v).arm = p) ∧
    (p.ram = false → f.write = true → f.byte = true → 2 ≤ (field addr 0 2).toNat →
      (armAccess p b').2 = b') := by
  intro c p b'
  have hreq : p.req = ty.isMem := by cases ty <;> rfl
  refine ⟨hreq, fun h => DcArmBus.cycle_internal (hreq ▸ h), fun h => ?_,
    fun addr' => arm_mirror, fun hb => ?_, fun hr hw hb hl => ?_⟩
  · have hm : c.type.isMem = true := hreq ▸ h
    have hc : b.cycle c = (⟨(b'.access c).1, b'.waitOf c, false⟩, (b'.access c).2) := by
      unfold DcArmBus.cycle
      rw [if_neg (by rw [hm]; decide)]
      rfl
    obtain ⟨hread, hstate⟩ := @access_port ty addr f v ρ _ b' w t
    rw [hc]
    refine ⟨rfl, fun hw => ⟨hread hw, ?_⟩, hstate⟩
    rw [loadVal_eq, hread hw]
  · exact arm_align hb
  · have hmask : armMask p = 0 := by
      rw [armMask_byte hb, if_neg (by rintro h; simp [h] at hl), if_neg (by rintro h; simp [h] at hl)]
    have hwe : p.we = true := hw
    rw [armAccess, if_neg (by rw [hr]; decide), if_pos hwe, if_pos hmask]

end Access

end Cycle

end Wren7
