import Wren7.Equiv.Datapath
import Wren7.Model.Spec
import Wren7.Rtl.Cycle

/-!
# The simulation relation

`Common` relates the architectural state and the pipeline of the two machines, `InFlightSim` what the
sequencer state of the RTL has in flight to the model's latches. A register loaded by an LDM is in
the model's file at once, in the RTL one cycle later: until then it is the pending word.
-/

namespace Wren7

open Bits Rtl Reactive

/-- Architectural state and pipeline. -/
structure Common (r : CoreRegs) (mem : BitVec 5 → Word) (s : Arm7DI) : Prop where
  stages : s.irqSyncStages = 0
  carry : s.mulCarry = .shifterLast
  pc : s.pc = r.pc
  cpsr : s.cpsr = psr32 r.psr
  spsr : ∀ b, b ≠ .usr → s.spsr b = psr32 (r.spsr b)
  ex : s.ex = ⟨r.exW, r.exA⟩
  de : s.de = ⟨r.deW, r.deA⟩
  f1 : s.f1 = ⟨r.f1W, r.f1A⟩
  dab : s.dabortPending = r.dab
  inReset : s.inReset = r.inRst
  resetExit : s.resetExit = r.rstExit
  gpr : ∀ p, s.gpr p = if r.pwV && r.pwIdx == slot p then r.xData else mem (slot p)

/-- The multiplier after `mulK` Booth steps. -/
structure MulSim (r : CoreRegs) (s : Arm7DI) : Prop where
  k : s.k = r.mulK.toNat + 1
  borrow : s.x.borrow = r.xBorrow
  acc : s.x.acc = r.xCalc
  rd : field r.exW 16 4 ≠ 15 → s.gpr (Wren7.phys (field r.exW 16 4) s.bank) = r.xCalc
  mul : s.x.mul = r.xBase
  /-- The multiplier register is `Rs` shifted out, and its length is still ahead. -/
  rs : ∃ v : Word, s.x.m = mulSteps v ∧ r.xBase = v >>> (2 * r.mulK.toNat) ∧
    r.mulK.toNat < mulSteps v

/-- The running LDM or STM, before the transfer of the lowest register of `xList`. -/
structure BdtSim (r : CoreRegs) (s : Arm7DI) : Prop where
  k : s.k ≠ 0
  base : s.x.base = r.xBase
  wbv : s.x.wbv = r.xCalc
  ab : s.x.ab = r.xAb
  userbank : s.x.userbank = r.xUb

/-- What is in flight in each state of the RTL's sequencer. -/
def InFlightSim (r : CoreRegs) (s : Arm7DI) : Prop :=
  match r.st with
  | .bound => s.seq = .idle ∧ r.pwV = false
  | .dp2 => s.seq = .dp ∧ s.k = 1 ∧ s.x.op = r.exW ∧ s.x.amt = r.xAmt.toNat ∧ s.x.cin = r.xCin ∧
      dpRs r.exW = true ∧ r.pwV = false
  | .mul => s.seq = .mul ∧ s.x.op = r.exW ∧ MulSim r s ∧ r.pwV = false
  | .swp1 => s.seq = .swp ∧ s.k = 1 ∧ s.x.op = r.exW ∧ s.x.addr = r.xAddr ∧ r.pwV = false
  | .swp2 => s.seq = .swp ∧ s.k = 2 ∧ s.x.op = r.exW ∧ s.x.addr = r.xAddr ∧ s.x.data = r.xData ∧
      s.x.ab = r.xAb ∧ r.pwV = false
  | .swp3 => s.seq = .swp ∧ s.k = 3 ∧ s.x.op = r.exW ∧ s.x.addr = r.xAddr ∧ s.x.data = r.xData ∧
      s.x.ab = r.xAb ∧ r.pwV = false
  | .sdt2 => s.seq = .sdt ∧ s.k = 1 ∧ s.x.op = r.exW ∧ s.x.addr = r.xAddr ∧ s.x.calcAddr = r.xCalc ∧
      s.x.wb = r.xWb ∧ s.x.bf = { byte := r.xBbyte, user := r.xBuser } ∧
      r.xBbyte = bB r.exW ∧ r.pwV = false
  | .sdt3 => s.seq = .sdt ∧ s.k = 2 ∧ s.x.op = r.exW ∧ s.x.addr = r.xAddr ∧ s.x.data = r.xData ∧
      s.x.ab = r.xAb ∧ bL r.exW = true ∧ r.pwV = false
  | .bdtx => s.seq = .bdt ∧ s.x.op = r.exW ∧ BdtSim r s ∧ s.x.addr = r.xAddr ∧
      s.x.first = r.xFirst ∧ IsRest s.x.list r.xList s.x.r ∧ s.x.pcLoaded = false ∧
      r.xPcl = false ∧ (r.pwV = true → bL r.exW = true ∧ r.xFirst = false ∧ r.xAb = false)
  | .bdtf => s.seq = .bdt ∧ s.x.op = r.exW ∧ BdtSim r s ∧ s.x.r = 16 ∧
      s.x.pcLoaded = r.xPcl ∧ (r.xPcl = true → s.x.newpc = r.xData ∧ r.pwV = false) ∧
      (r.pwV = true → r.xAb = false)
  | .und2 => s.seq = .undefTrap ∧ s.k = 1 ∧ s.x.addr = r.pc ∧ r.pwV = false
  | .ref0 => s.seq = .refill ∧ s.k = 0 ∧ s.x.target = r.xAddr ∧ r.pwV = false
  | .ref1 => s.seq = .refill ∧ s.k = 1 ∧ s.x.target + 4 = r.xAddr ∧
      s.x.fa = ⟨r.xData, r.xFab⟩ ∧ r.pwV = false

/-- The two machines before a bus cycle. -/
structure Sim (r : CoreRegs) (mem : BitVec 5 → Word) (s : Arm7DI) : Prop where
  common : Common r mem s
  type : s.nextType = r.ctype
  req : busReq r = r.st.isMem
  inFlight : InFlightSim r s

/-! ### Reads -/

variable {r : CoreRegs} {mem : BitVec 5 → Word} {s : Arm7DI}

namespace Common

variable (h : Common r mem s)

include h

lemma mode : modeOf s.cpsr = r.psr.m := by rw [h.cpsr, modeOf_psr32]

lemma bank_eq : s.bank = Rtl.bank r := by rw [Arm7DI.bank, h.mode]; rfl

lemma userFlag : s.userFlag = umode r := by rw [Arm7DI.userFlag, h.mode]; rfl

lemma fetchFlags : s.fetchFlags = { opc := true, user := umode r } := by
  rw [Arm7DI.fetchFlags, h.userFlag]

lemma idleFlags : s.idleFlags = { user := umode r } := by rw [Arm7DI.idleFlags, h.userFlag]

lemma gpr_eq (hpw : r.pwV = false) (p : Fin 31) : s.gpr p = mem (slot p) := by
  simp [h.gpr, hpw]

/-- A register of any bank as the RTL reads it. -/
lemma gpr_phys (hpw : r.pwV = false) {x : Reg} (hx : x ≠ 15) (b : Bank) :
    s.gpr (Wren7.phys x b) = mem (Rtl.phys x b) := by
  rw [h.gpr_eq hpw, slot_phys hx]

lemma rd_eq (hpw : r.pwV = false) (x : Reg) :
    s.rd x s.pc = if x = 15 then r.pc else mem (Rtl.phys x (Rtl.bank r)) := by
  unfold Arm7DI.rd
  split_ifs with hx
  · exact h.pc
  · rw [h.gpr_phys hpw hx, h.bank_eq]

/-- Port A. -/
lemma rd_raR (hpw : r.pwV = false) : s.rd (raR r) s.pc = portA r (mem (raIdx r)) := h.rd_eq hpw _

/-- Port B, when it reads the current bank. -/
lemma rd_rbR (hpw : r.pwV = false) (hb : ¬ (r.st = .bdtx ∧ r.xUb = true)) :
    s.rd (rbR r) s.pc = portB r (mem (rbIdx r)) := by
  rw [h.rd_eq hpw, portB, rbIdx, if_neg hb]

lemma sampled (a : Answer) (next : CycleType) : Common r mem (s.sampled a next) := by
  constructor <;> simp [h.stages, h.carry, h.pc, h.cpsr, h.ex, h.de, h.f1, h.dab, h.inReset,
    h.resetExit, h.gpr]
  exact h.spsr

lemma spsrCur_eq : s.spsrCur = psr32 (Rtl.spsrCur r) := by
  unfold Arm7DI.spsrCur Rtl.spsrCur
  rw [h.bank_eq]
  split_ifs with hb
  · exact h.cpsr
  · exact h.spsr _ hb

lemma restored_eq : s.restored = psr32 (Rtl.spsrCur r) := by
  unfold Arm7DI.restored Rtl.spsrCur
  rw [h.bank_eq]
  split_ifs with hb
  · exact h.cpsr
  · rw [h.spsr _ hb, h.cpsr, psr32_write]

lemma condPass_eq : s.condPass r.exW = Rtl.cond r := by
  unfold Arm7DI.condPass Rtl.cond
  simp only [h.cpsr, bit_psr32_n, bit_psr32_z, bit_psr32_c, bit_psr32_v] <;> rfl

end Common

/-! ### Writes -/

/-- A write through the port, with R15 dropped, is the model's register write. -/
lemma update_eq {g : Fin 31 → Word} (hg : ∀ p, g p = mem (slot p)) (x : Reg) (b : Bank) (v : Word)
    (p : Fin 31) :
    (if x = 15 then g else Function.update g (Wren7.phys x b) v) p =
      (if x = 15 then mem else Function.update mem (Rtl.phys x b) v) (slot p) := by
  by_cases hx : x = 15
  · rw [if_pos hx, if_pos hx, hg]
  · rw [if_neg hx, if_neg hx, ← slot_phys hx, Function.update_apply, Function.update_apply, hg]
    simp only [slot_injective.eq_iff]

/-- Without a capture, an advance or a refill only the `n_*` registers move. -/
lemma regs_dflt (hst : r.st ≠ .ref1) (rdata : Word) (ab : Bool) :
    (Comb.dflt r).regs r rdata ab = r := by
  simp [Comb.regs, Comb.dflt, hst]

/-- The abort that the model notes is the one the RTL takes with the acknowledge. -/
lemma Sim.isMem_eq (h : Sim r mem s) : s.nextType.isMem = r.st.isMem := by
  rw [← h.req, h.type, isMem_eq_req, busReq]

/-! ### One cycle -/

/-- The cycle the model drives is the RTL's, and whatever the answer, both work with it alike. -/
structure StepSim (r : CoreRegs) (mem : BitVec 5 → Word) (l : Levels) (d : Drive) : Prop where
  type : d.bus.type = busType r
  addr : d.bus.addr = busAddr r
  flags : d.bus.flags = busFlags r
  wdata : d.bus.flags.write = true → d.bus.wdata = busWdata r (portB r (mem (rbIdx r)))
  next : ∀ (a : Answer) (rdata : Word), (r.st.isMem = true → rdata = a.rdata) →
    let c := comb r (portA r (mem (raIdx r))) (portB r (mem (rbIdx r))) l rdata
      (r.st.isMem && a.abort)
    Sim (c.regs r rdata (r.st.isMem && a.abort)) (c.mem r mem) (d.next a)

end Wren7
