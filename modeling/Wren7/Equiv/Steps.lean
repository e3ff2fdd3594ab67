import Wren7.Equiv.Sim

/-!
# The cycles after the first

Each state of the RTL's sequencer but the boundary, against the cycle of the model's sequence that
it stands for.
-/

namespace Wren7

open Bits Rtl Reactive

variable {r : CoreRegs} {mem : BitVec 5 → Word} {s : Arm7DI} {l : Levels}

attribute [local simp] Comb.dflt Comb.wreg Comb.regs Comb.mem Comb.wEn Comb.wIdx
attribute [local simp] fRn fRd bP bU bB bW bL bS

/-! ### Shared pieces -/

lemma spsr_update {f : Bank → Word} {g : Bank → Psr} (h : ∀ b, b ≠ .usr → f b = psr32 (g b))
    (c : Bank) {v : Word} {p : Psr} (hv : v = psr32 p) :
    ∀ b, b ≠ .usr → Function.update f c v b = psr32 (Function.update g c p b) := by
  intro b hb
  by_cases hbc : b = c
  · subst hbc; simp [hv]
  · simp [hbc, h b hb]

/-- A write of a register other than R15. -/
lemma gpr_update {g : Fin 31 → Word} (hg : ∀ p, g p = mem (slot p)) {x : Reg} (hx : x ≠ 15)
    (b : Bank) (v : Word) (p : Fin 31) :
    Function.update g (Wren7.phys x b) v p =
      Function.update mem (Rtl.phys x b) v (slot p) := by
  have := update_eq hg x b v p
  rwa [if_neg hx, if_neg hx] at this

/-- A write that is requested only under a condition. -/
lemma update_eq_if {g : Fin 31 → Word} (hg : ∀ p, g p = mem (slot p)) (c : Prop) [Decidable c]
    (x : Reg) (b : Bank) (v : Word) (p : Fin 31) :
    (if c then if x = 15 then g else Function.update g (Wren7.phys x b) v else g) p =
      (if c ∧ ¬ x = 15 then Function.update mem (Rtl.phys x b) v else mem) (slot p) := by
  have := update_eq hg x b v p
  by_cases hc : c <;> by_cases hx : x = 15 <;> simp_all

/-! ### Data operations -/

section DataOp

variable {va vb : Word} {w : Word} {c v cin : Bool}

/-- The three operands of the adder in a data operation. -/
lemma addIn_dataOp (hmul : r.st ≠ .mul) (hsdt : ¬ (r.st = .bound ∧ isSdt r.exW = true))
    (hbdt : ¬ (r.st = .bound ∧ isBdt r.exW = true)) :
    addIn r va vb =
      (if opc r.exW = 0x3 ∨ opc r.exW = 0x7 then shO r vb else va,
       if opc r.exW = 0x2 ∨ opc r.exW = 0x6 ∨ opc r.exW = 0xA then ~~~(shO r vb)
        else if opc r.exW = 0x3 ∨ opc r.exW = 0x7 then ~~~va
        else shO r vb,
       if opc r.exW = 0x2 ∨ opc r.exW = 0x3 ∨ opc r.exW = 0xA then true
        else if opc r.exW = 0x5 ∨ opc r.exW = 0x6 ∨ opc r.exW = 0x7 then dpCin r
        else false) := by
  rw [addIn, if_neg hmul, if_neg hsdt, if_neg hbdt]

/-- The adder's outputs are the model's `add` of its inputs. -/
lemma add_addIn : add (addIn r va vb).1 (addIn r va vb).2.1 (addIn r va vb).2.2 =
    (sum r va vb, addC r va vb, addV r va vb) := add_eq_sum _ _ _

lemma opc_cases (o : BitVec 4) : o = 0 ∨ o = 1 ∨ o = 2 ∨ o = 3 ∨ o = 4 ∨ o = 5 ∨ o = 6 ∨ o = 7 ∨
    o = 8 ∨ o = 9 ∨ o = 10 ∨ o = 11 ∨ o = 12 ∨ o = 13 ∨ o = 14 ∨ o = 15 := by
  revert o
  decide

/-- Result, carry and overflow of a data operation. -/
lemma dpAlu_eq (hmul : r.st ≠ .mul) (hsdt : ¬ (r.st = .bound ∧ isSdt r.exW = true))
    (hbdt : ¬ (r.st = .bound ∧ isBdt r.exW = true)) :
    dpAlu (opc r.exW) va (shO r vb) (dpCin r) (shC r vb) r.psr.v =
      (dpRes r va vb, dpC r va vb, dpV r va vb) := by
  have hadd := @add_addIn r va vb
  rw [addIn_dataOp hmul hsdt hbdt] at hadd
  simp only [dpRes, dpC, dpV, arith]
  rcases opc_cases (opc r.exW) with h | h | h | h | h | h | h | h | h | h | h | h | h | h | h | h <;>
    simp [h, dpAlu] at hadd ⊢ <;> exact hadd

/-- The new CPSR of a data operation. -/
lemma dpCpsr_eq {a b : Word} {sc : Bool} (hcpsr : s.cpsr = psr32 r.psr)
    (hrest : s.restored = psr32 (Rtl.spsrCur r)) (hop : s.x.op = r.exW)
    (halu : s.dpValue a b sc = (dpRes r va vb, dpC r va vb, dpV r va vb)) :
    s.dpCpsr a b sc = psr32 (dpfCpsr r va vb) := by
  have hwpc : wpc r.exW = (fRd r.exW == 15 && !test r.exW) := rfl
  have hbank : bank r = .usr → Rtl.spsrCur r = r.psr := fun h => by rw [Rtl.spsrCur, if_pos h]
  have hbne : bank r ≠ .usr → (bank r != .usr) = true := bne_iff_ne.mpr
  rw [Arm7DI.dpCpsr, halu, hrest, hop, hcpsr, psr32_setFlags]
  simp only [dpfCpsr, hwpc, show bit r.exW 20 = bS r.exW from rfl,
    show field r.exW 12 4 = fRd r.exW from rfl]
  rcases Bool.eq_false_or_eq_true (bS r.exW) with hS | hS <;>
    rcases Bool.eq_false_or_eq_true (fRd r.exW == 15) with hrd | hrd <;>
    rcases Bool.eq_false_or_eq_true (test r.exW) with ht | ht <;>
    by_cases hb : bank r = .usr
  all_goals
    simp only [hS, hrd, ht, hb, hbne, hbank, ne_eq, not_false_eq_true, bne_self_eq_false,
      Bool.and_false, Bool.and_true, Bool.not_true, Bool.not_false, Bool.false_eq_true, if_true,
      if_false]

/-- The last cycle of a data operation, whether it fetches (`c₀` captures) or not. -/
lemma dpTail_common {c₀ : Comb} {rdata : Word} {ab : Bool} {a b : Word} {sc : Bool}
    (href : r.st ≠ .ref1) (hc : Common (c₀.regs r rdata ab) mem s) (hpw : c₀.n.pwV = false)
    (hreq : c₀.wReq = false) (hsp : c₀.spWe = false) (hadv : c₀.adv = false)
    (hpsr : c₀.n.psr = r.psr) (hop : s.x.op = r.exW)
    (halu : s.dpValue a b sc = (dpRes r va vb, dpC r va vb, dpV r va vb)) :
    Common ((dpTail r va vb c₀).regs r rdata ab) ((dpTail r va vb c₀).mem r mem)
        (s.dpFinish a b sc) := by
  have hcpsr : s.cpsr = psr32 r.psr := by rw [hc.cpsr]; simp [hpsr]
  have hbank : s.bank = Rtl.bank r := by
    rw [hc.bank_eq, Rtl.bank, Rtl.bank]; simp [hpsr]
  have hrest : s.restored = psr32 (Rtl.spsrCur r) := by
    rw [hc.restored_eq, Rtl.spsrCur, Rtl.spsrCur, Rtl.bank, Rtl.bank]; simp [hpsr, hsp]
  have hspsr : ∀ b, b ≠ .usr → s.spsr b = psr32 (r.spsr b) := by
    simpa [hsp] using hc.spsr
  have hgpr : ∀ p, s.gpr p = mem (slot p) := by simpa [hpw] using hc.gpr
  have hpc := hc.pc
  have hex := hc.ex
  have hde := hc.de
  have hf1 := hc.f1
  have hdab := hc.dab
  have hin := hc.inReset
  have hexit := hc.resetExit
  simp only [Comb.regs, href, hadv, if_false, Bool.false_eq_true] at hpc hex hde hf1 hdab hin hexit
  have hnew := dpCpsr_eq hcpsr hrest hop halu
  have hwpc : Arm7DI.writesPc r.exW = wpc r.exW := by
    rw [Arm7DI.writesPc, Arm7DI.isTest, test_eq]; rfl
  have htest : Arm7DI.isTest r.exW = test r.exW := test_eq _
  rw [Arm7DI.dpFinish_eq, hop, hwpc, htest, halu, hnew]
  rcases Bool.eq_false_or_eq_true (wpc r.exW) with hw | hw
  · constructor <;> simp [dpTail, hw, hc.stages, hc.carry, hpc, hex, hde, hf1, hdab, hin, hexit,
      hpw, hreq, hgpr, hsp, href, hadv]
    exact hspsr
  · rcases Bool.eq_false_or_eq_true (test r.exW) with ht | ht
    · constructor <;> simp [dpTail, hw, ht, hc.stages, hc.carry, hpc, hde, hf1, hdab, hin,
        hexit, hpw, hreq, hgpr, hsp, href, hadv]
      exact hspsr
    · constructor <;> simp [dpTail, hw, ht, hc.stages, hc.carry, hpc, hde, hf1, hdab, hin,
        hexit, hpw, hsp, href, hadv]
      case spsr => exact hspsr
      case gpr =>
        rw [hbank]
        exact update_eq hgpr _ _ _

/-- A data operation that writes R15 announces the N cycle of the refill. -/
lemma dpTail_type {c₀ : Comb} {rdata : Word} {ab : Bool} :
    ((dpTail r va vb c₀).regs r rdata ab).ctype = Arm7DI.dpNext r.exW ∧
      busReq ((dpTail r va vb c₀).regs r rdata ab) =
        ((dpTail r va vb c₀).regs r rdata ab).st.isMem := by
  have hwpc : Arm7DI.writesPc r.exW = wpc r.exW := by
    rw [Arm7DI.writesPc, Arm7DI.isTest, test_eq]; rfl
  rcases Bool.eq_false_or_eq_true (wpc r.exW) with hw | hw
  · simp [dpTail, hw, Arm7DI.dpNext, hwpc, busReq, St.isMem, CycleType.code, bit]
  · rcases Bool.eq_false_or_eq_true (test r.exW) with ht | ht <;>
      simp [dpTail, hw, ht, Arm7DI.dpNext, hwpc, busReq, St.isMem, CycleType.code, bit]

/-- Where a data operation goes on: to the boundary, or to the refill from the value it writes. -/
lemma dpTail_inFlight {c₀ : Comb} {rdata : Word} {ab : Bool} {a b : Word} {sc : Bool}
    (hpw : c₀.n.pwV = false) (hop : s.x.op = r.exW)
    (halu : s.dpValue a b sc = (dpRes r va vb, dpC r va vb, dpV r va vb)) :
    InFlightSim ((dpTail r va vb c₀).regs r rdata ab) (s.dpFinish a b sc) := by
  have hwpc : Arm7DI.writesPc r.exW = wpc r.exW := by
    rw [Arm7DI.writesPc, Arm7DI.isTest, test_eq]; rfl
  have htest : Arm7DI.isTest r.exW = test r.exW := test_eq _
  rw [Arm7DI.dpFinish_eq, hop, hwpc, htest, halu]
  rcases Bool.eq_false_or_eq_true (wpc r.exW) with hw | hw
  · simp [dpTail, hw, InFlightSim, hpw]
  · rcases Bool.eq_false_or_eq_true (test r.exW) with ht | ht <;>
      simp [dpTail, hw, ht, InFlightSim, hpw]

end DataOp

lemma dp2_sim (h : Sim r mem s) (hst : r.st = .dp2) : StepSim r mem l s.busCycle := by
  have hc := h.common
  obtain ⟨hseq, hk, hop, hamt, hcin, hdp, hpw⟩ : s.seq = .dp ∧ s.k = 1 ∧ s.x.op = r.exW ∧
      s.x.amt = r.xAmt.toNat ∧ s.x.cin = r.xCin ∧ dpRs r.exW = true ∧ r.pwV = false := by
    have := h.inFlight
    rwa [InFlightSim, hst] at this
  rw [Arm7DI.sequence_eq (by simp [hseq]), hseq]
  simp only [Arm7DI.cDp_shift (show s.k ≠ 0 by simp [hk])]
  refine ⟨h.type, by simp [busAddr, hst, hc.pc], by simp [busFlags, hst, hc.idleFlags],
    by simp [Arm7DI.idleFlags], fun a rdata _ => ?_⟩
  have hs := hc.sampled a (Arm7DI.dpNext r.exW)
  have hra : raR r = field r.exW 16 4 := by simp [raR, hst, fRn]
  have hrb : rbR r = field r.exW 0 4 := by simp [rbR, hst]
  have hva := hra ▸ hs.rd_raR hpw
  have hvb := hrb ▸ hs.rd_rbR hpw (by simp [hst])
  simp only [Arm7DI.cyc_next, hop, Arm7DI.sampled_x, hamt, hcin, hva, hvb, comb, hst, dp2Arm]
  set va := portA r (mem (raIdx r))
  set vb := portB r (mem (rbIdx r))
  have hsh : shift r vb = shiftReg vb (field r.exW 5 2) r.xAmt.toNat r.xCin := by
    simp only [shift, hst, wren7Shifter_reg]
  have halu : (s.sampled a (Arm7DI.dpNext r.exW)).dpValue va
      (shiftReg vb (field r.exW 5 2) r.xAmt.toNat r.xCin).1
      (shiftReg vb (field r.exW 5 2) r.xAmt.toNat r.xCin).2 =
      (dpRes r va vb, dpC r va vb, dpV r va vb) := by
    rw [← dpAlu_eq (by simp [hst]) (by simp [hst]) (by simp [hst]), Arm7DI.dpValue, ← hsh]
    simp [hc.cpsr, hop, hcin, dpCin, hst, shO, shC, opc]
  refine ⟨dpTail_common (by simp [hst]) (by rwa [regs_dflt (by simp [hst])]) hpw rfl rfl rfl rfl
    hop halu, ?_, dpTail_type.2, dpTail_inFlight hpw hop halu⟩
  rw [dpTail_type.1]
  simp

/-! ### Swap -/

lemma swp1_sim (h : Sim r mem s) (hst : r.st = .swp1) : StepSim r mem l s.busCycle := by
  have hc := h.common
  have hm := h.isMem_eq
  obtain ⟨hseq, hk, hop, haddr, hpw⟩ : s.seq = .swp ∧ s.k = 1 ∧ s.x.op = r.exW ∧
      s.x.addr = r.xAddr ∧ r.pwV = false := by
    have := h.inFlight
    rwa [InFlightSim, hst] at this
  rw [Arm7DI.sequence_eq (by simp [hseq]), hseq]
  simp only [Arm7DI.cSwp, hk]
  refine ⟨by simp [h.type, busType], by simp [busAddr, hst, haddr],
    by simp [busFlags, hst, hc.userFlag, hop, bB], by simp, fun a rdata hr => ?_⟩
  simp only [comb, hst, St.isMem, forall_const] at hm hr ⊢
  subst hr
  refine ⟨?_, by simp [swp1Arm], by simp [swp1Arm, busReq_eq, CycleType.isMem, St.isMem],
    by simp [swp1Arm, InFlightSim, hst, hpw, hseq, hop, haddr, hm]⟩
  constructor <;> simp [swp1Arm, hst, hc.stages, hc.carry, hc.pc, hc.cpsr, hc.ex, hc.de, hc.f1,
    hc.dab, hc.inReset, hc.resetExit, hpw, hc.gpr_eq]
  exact hc.spsr

lemma swp2_sim (h : Sim r mem s) (hst : r.st = .swp2) : StepSim r mem l s.busCycle := by
  have hc := h.common
  have hm := h.isMem_eq
  obtain ⟨hseq, hk, hop, haddr, hdata, hab, hpw⟩ : s.seq = .swp ∧ s.k = 2 ∧ s.x.op = r.exW ∧
      s.x.addr = r.xAddr ∧ s.x.data = r.xData ∧ s.x.ab = r.xAb ∧ r.pwV = false := by
    have := h.inFlight
    rwa [InFlightSim, hst] at this
  have hvb := hc.rd_rbR hpw (by simp [hst])
  rw [show rbR r = field r.exW 0 4 by simp [rbR, hst]] at hvb
  rw [Arm7DI.sequence_eq (by simp [hseq]), hseq]
  simp only [Arm7DI.cSwp, hk, hop]
  refine ⟨by simp [h.type, busType], by simp [busAddr, hst, haddr],
    by simp [busFlags, hst, hc.userFlag, bB], fun _ => ?_, fun a rdata hr => ?_⟩
  · rw [busWdata, storeVal_eq]
    simp only [Arm7DI.cyc_bus_wdata, if_true, busFlags, hst, bB]
    exact congrArg _ hvb
  simp only [comb, hst, St.isMem, forall_const] at hm hr ⊢
  subst hr
  refine ⟨?_, by simp [swp2Arm], by simp [swp2Arm, busReq_eq, CycleType.isMem, St.isMem],
    by simp [swp2Arm, InFlightSim, hst, hpw, hseq, hop, haddr, hdata, hab, hm]⟩
  constructor <;> simp [swp2Arm, hst, hc.stages, hc.carry, hc.pc, hc.cpsr, hc.ex, hc.de, hc.f1,
    hc.dab, hc.inReset, hc.resetExit, hpw, hc.gpr_eq]
  exact hc.spsr

lemma swp3_sim (h : Sim r mem s) (hst : r.st = .swp3) : StepSim r mem l s.busCycle := by
  have hc := h.common
  obtain ⟨hseq, hk, hop, haddr, hdata, hab, hpw⟩ : s.seq = .swp ∧ s.k = 3 ∧ s.x.op = r.exW ∧
      s.x.addr = r.xAddr ∧ s.x.data = r.xData ∧ s.x.ab = r.xAb ∧ r.pwV = false := by
    have := h.inFlight
    rwa [InFlightSim, hst] at this
  rw [Arm7DI.sequence_eq (by simp [hseq]), hseq]
  simp only [Arm7DI.cSwp, hk, hop]
  refine ⟨by simp [h.type, busType], by simp [busAddr, hst, hc.pc],
    by simp [busFlags, hst, hc.idleFlags], by simp [Arm7DI.idleFlags], fun a rdata hr => ?_⟩
  have hld : Wren7.loadVal (bit r.exW 22) r.xData r.xAddr = ldV r := (loadVal_eq _ _ _).symm
  simp only [comb, hst]
  rcases Bool.eq_false_or_eq_true r.xAb with hx | hx
  · refine ⟨?_, by simp [swp3Arm, hx, hab],
      by simp [swp3Arm, hx, busReq_eq, CycleType.isMem, St.isMem],
      by simp [swp3Arm, InFlightSim, hx, hab, hpw]⟩
    constructor <;> simp [swp3Arm, hst, hx, hab, hc.stages, hc.carry, hc.pc, hc.cpsr, hc.de, hc.f1,
      hc.inReset, hc.resetExit, hpw, hc.gpr_eq]
    exact hc.spsr
  · refine ⟨?_, by simp [swp3Arm, hx, hab],
      by simp [swp3Arm, hx, busReq_eq, CycleType.isMem, St.isMem],
      by simp [swp3Arm, InFlightSim, hx, hab, hpw]⟩
    constructor <;> simp [swp3Arm, hst, hx, hab, hc.stages, hc.carry, hc.pc, hc.cpsr, hc.de, hc.f1,
      hc.dab, hc.inReset, hc.resetExit, hpw, hdata, haddr, hld]
    case spsr => exact hc.spsr
    case gpr =>
      rw [hc.bank_eq]
      exact update_eq (hc.gpr_eq hpw) _ _ _

/-! ### Single transfers -/

lemma sdt2_sim (h : Sim r mem s) (hst : r.st = .sdt2) : StepSim r mem l s.busCycle := by
  have hc := h.common
  have hm := h.isMem_eq
  obtain ⟨hseq, hk, hop, haddr, hcalc, hwb, hbf, hbyte, hpw⟩ : s.seq = .sdt ∧ s.k = 1 ∧
      s.x.op = r.exW ∧ s.x.addr = r.xAddr ∧ s.x.calcAddr = r.xCalc ∧
      s.x.wb = r.xWb ∧ s.x.bf = { byte := r.xBbyte, user := r.xBuser } ∧
      r.xBbyte = bB r.exW ∧ r.pwV = false := by
    have := h.inFlight
    rwa [InFlightSim, hst] at this
  have hvb := hc.rd_rbR hpw (by simp [hst])
  rw [show rbR r = field r.exW 12 4 by simp [rbR, hst]] at hvb
  have hgpr := update_eq_if (hc.gpr_eq hpw) (r.xWb = true) (field r.exW 16 4) (bank r) r.xCalc
  rw [Arm7DI.sequence_eq (by simp [hseq]), hseq]
  rcases Bool.eq_false_or_eq_true (bit r.exW 20) with hL | hL
  · simp only [Arm7DI.cSdt, hk, hop, hL, Nat.one_ne_zero, if_false, if_true, Bool.not_true,
      Bool.false_eq_true]
    refine ⟨by simp [h.type, busType], by simp [busAddr, hst, haddr],
      by simp [busFlags, hst, hbf, hL], by simp [hbf], fun a rdata hr => ?_⟩
    simp only [comb, hst, St.isMem, forall_const] at hm hr ⊢
    subst hr
    refine ⟨?_, by simp [sdt2Arm, hL], by simp [sdt2Arm, hL, busReq_eq, CycleType.isMem, St.isMem],
      by simp [sdt2Arm, InFlightSim, hst, hL, hpw, hseq, hop, haddr, hm, hbf]⟩
    constructor <;> simp [sdt2Arm, hst, hL, hwb, hc.stages, hc.carry, hc.pc, hc.cpsr,
          hc.ex, hc.de, hc.f1, hc.dab, hc.inReset, hc.resetExit, hpw, hbf, hm, hcalc]
    case spsr => exact hc.spsr
    case gpr =>
      intro p
      rw [hc.bank_eq]
      refine (hgpr p).trans ?_
      by_cases hw : r.xWb = true ∧ ¬ field r.exW 16 4 = 15#4
      · simp [hw]
      · simp [hw]
  · simp only [Arm7DI.cSdt, hk, hop, hL, Nat.one_ne_zero, if_false, if_true, Bool.not_false]
    refine ⟨by simp [h.type, busType], by simp [busAddr, hst, haddr],
      by simp [busFlags, hst, hbf, hL], fun _ => ?_, fun a rdata hr => ?_⟩
    · rw [busWdata, storeVal_eq]
      simp only [Arm7DI.cyc_bus_wdata, if_true, busFlags, hst, hbyte]
      exact congrArg _ hvb
    simp only [comb, hst, St.isMem, forall_const] at hm hr ⊢
    subst hr
    refine ⟨?_, by simp [sdt2Arm, hL], by simp [sdt2Arm, hL, busReq_eq, CycleType.isMem, St.isMem],
      by simp [sdt2Arm, InFlightSim, hL, hpw]⟩
    constructor <;> simp [sdt2Arm, hst, hL, hwb, hc.stages, hc.carry, hc.pc, hc.cpsr,
          hc.de, hc.f1, hc.dab, hc.inReset, hc.resetExit, hpw, hbf, hm, hcalc]
    case spsr => exact hc.spsr
    case gpr =>
      intro p
      rw [hc.bank_eq]
      refine (hgpr p).trans ?_
      by_cases hw : r.xWb = true ∧ ¬ field r.exW 16 4 = 15#4
      · simp [hw]
      · simp [hw]

lemma sdt3_sim (h : Sim r mem s) (hst : r.st = .sdt3) : StepSim r mem l s.busCycle := by
  have hc := h.common
  obtain ⟨hseq, hk, hop, haddr, hdata, hab, hL, hpw⟩ : s.seq = .sdt ∧ s.k = 2 ∧ s.x.op = r.exW ∧
      s.x.addr = r.xAddr ∧ s.x.data = r.xData ∧ s.x.ab = r.xAb ∧ bL r.exW = true ∧
      r.pwV = false := by
    have := h.inFlight
    rwa [InFlightSim, hst] at this
  have hL' : bit r.exW 20 = true := hL
  have hld : Wren7.loadVal (bit r.exW 22) r.xData r.xAddr = ldV r := (loadVal_eq _ _ _).symm
  have hk1 : ¬ s.k = 0 := by simp [hk]
  have hk2 : ¬ s.k = 1 := by simp [hk]
  rw [Arm7DI.sequence_eq (by simp [hseq]), hseq]
  simp only [Arm7DI.cSdt, hk1, hk2, hop, hL', if_false, Bool.not_true, Bool.false_eq_true]
  refine ⟨by simp [h.type, busType], by simp [busAddr, hst, hc.pc],
    by simp [busFlags, hst, hc.idleFlags], by simp [Arm7DI.idleFlags], fun a rdata hr => ?_⟩
  simp only [comb, hst]
  rcases Bool.eq_false_or_eq_true r.xAb with hx | hx
  · refine ⟨?_, by simp [sdt3Arm, hx, hab], by simp [sdt3Arm, hx, busReq_eq, CycleType.isMem, St.isMem],
      by simp [sdt3Arm, InFlightSim, hx, hab, hpw]⟩
    constructor <;> simp [sdt3Arm, hst, hx, hab, hc.stages, hc.carry, hc.pc, hc.cpsr, hc.de, hc.f1,
      hc.inReset, hc.resetExit, hpw, hc.gpr_eq]
    exact hc.spsr
  by_cases h15 : field r.exW 12 4 = 15#4
  · refine ⟨?_, by simp [sdt3Arm, hx, hab, h15],
      by simp [sdt3Arm, hx, h15, busReq_eq, CycleType.isMem, St.isMem],
      by simp [sdt3Arm, InFlightSim, hx, hab, hpw, h15, hdata, haddr, hld]⟩
    constructor <;> simp [sdt3Arm, hst, hx, hab, h15, hc.stages, hc.carry, hc.pc, hc.cpsr, hc.de,
      hc.ex, hc.f1, hc.dab, hc.inReset, hc.resetExit, hpw, hc.gpr_eq]
    exact hc.spsr
  · refine ⟨?_, by simp [sdt3Arm, hx, hab, h15],
      by simp [sdt3Arm, hx, h15, busReq_eq, CycleType.isMem, St.isMem],
      by simp [sdt3Arm, InFlightSim, hx, hab, hpw, h15]⟩
    constructor <;> simp [sdt3Arm, hst, hx, hab, h15, hc.stages, hc.carry, hc.pc, hc.cpsr, hc.de,
      hc.f1, hc.dab, hc.inReset, hc.resetExit, hpw, hdata, haddr, hld]
    case spsr => exact hc.spsr
    case gpr =>
      rw [hc.bank_eq]
      exact gpr_update (hc.gpr_eq hpw) h15 _ _

/-! ### Undefined trap and refill -/

lemma und2_sim (h : Sim r mem s) (hst : r.st = .und2) : StepSim r mem l s.busCycle := by
  have hc := h.common
  obtain ⟨hseq, hk, hx, hpw⟩ : s.seq = .undefTrap ∧ s.k = 1 ∧ s.x.addr = r.pc ∧ r.pwV = false := by
    have := h.inFlight
    rwa [InFlightSim, hst] at this
  rw [Arm7DI.sequence_eq (by simp [hseq]), hseq]
  simp only [Arm7DI.cUndef, hk, Nat.one_ne_zero, if_false]
  refine ⟨by simp [h.type, busType], by simp [busAddr, hst, hx],
    by simp [busFlags, hst, hc.fetchFlags], by simp [Arm7DI.fetchFlags], fun a rdata _ => ?_⟩
  simp only [comb, hst]
  refine ⟨?_, by simp [und2Arm], by simp [und2Arm, busReq_eq, CycleType.isMem, St.isMem],
    by simp [und2Arm, InFlightSim, hpw]⟩
  constructor <;> simp [und2Arm, hst, hc.stages, hc.carry, hc.pc, hc.cpsr, hc.ex, hc.de, hc.f1,
    hc.dab, hc.inReset, hc.resetExit, hpw, hx]
  case cpsr => simpa using psr32_enter (p := r.psr) mUnd false
  case spsr => exact spsr_update hc.spsr _ rfl
  case gpr => exact gpr_update (hc.gpr_eq hpw) (by decide) _ _

lemma ref0_sim (h : Sim r mem s) (hst : r.st = .ref0) : StepSim r mem l s.busCycle := by
  have hc := h.common
  have hm := h.isMem_eq
  obtain ⟨hseq, hk, hx, hpw⟩ : s.seq = .refill ∧ s.k = 0 ∧ s.x.target = r.xAddr ∧
      r.pwV = false := by
    have := h.inFlight
    rwa [InFlightSim, hst] at this
  rw [Arm7DI.sequence_eq (by simp [hseq]), hseq]
  simp only [Arm7DI.cRefill, hk, if_true]
  refine ⟨by simp [h.type, busType], by simp [busAddr, hst, hx],
    by simp [busFlags, hst, hc.fetchFlags], by simp [Arm7DI.fetchFlags], fun a rdata hr => ?_⟩
  simp only [comb, hst, St.isMem, forall_const] at hm hr ⊢
  subst hr
  refine ⟨?_, by simp [ref0Arm], by simp [ref0Arm, busReq_eq, CycleType.isMem, St.isMem],
    by simp [ref0Arm, InFlightSim, hst, hpw, hseq, hx, hm, xap4, Arm7DI.fetchFlags]⟩
  constructor <;> simp [ref0Arm, hst, hc.stages, hc.carry, hc.pc, hc.cpsr, hc.ex, hc.de, hc.f1,
    hc.dab, hc.inReset, hc.resetExit, hpw, hc.gpr_eq]
  exact hc.spsr

lemma ref1_sim (h : Sim r mem s) (hst : r.st = .ref1) : StepSim r mem l s.busCycle := by
  have hc := h.common
  have hm := h.isMem_eq
  obtain ⟨hseq, hk, hx, hfa, hpw⟩ : s.seq = .refill ∧ s.k = 1 ∧ s.x.target + 4 = r.xAddr ∧
      s.x.fa = ⟨r.xData, r.xFab⟩ ∧ r.pwV = false := by
    have := h.inFlight
    rwa [InFlightSim, hst] at this
  rw [Arm7DI.sequence_eq (by simp [hseq]), hseq]
  simp only [Arm7DI.cRefill, hk, Nat.one_ne_zero, if_false]
  refine ⟨by simp [h.type, busType], by simp [busAddr, hst, ← hx],
    by simp [busFlags, hst, hc.fetchFlags], by simp [Arm7DI.fetchFlags], fun a rdata hr => ?_⟩
  simp only [comb, hst, St.isMem, forall_const] at hm hr ⊢
  subst hr
  refine ⟨?_, by simp [ref1Arm], by simp [ref1Arm, busReq_eq, CycleType.isMem, St.isMem],
    by simp [ref1Arm, InFlightSim, hpw]⟩
  constructor <;> simp [ref1Arm, hst, hc.stages, hc.carry, hc.cpsr, hc.f1, hc.dab, hc.inReset,
    hc.resetExit, hpw, hc.gpr_eq, hfa, hm, Arm7DI.fetchFlags, xap4, ← hx]
  case pc => rw [BitVec.add_assoc]; rfl
  case spsr => exact hc.spsr

/-! ### Multiply -/

section Mul

/-- The Booth digit of a step, as the RTL's wires have it. -/
lemma digit_eq (r : CoreRegs) :
    (0 < digit (bit r.xBase 1) (bit r.xBase 0) r.xBorrow ↔ mPos r = true) ∧
    (digit (bit r.xBase 1) (bit r.xBase 0) r.xBorrow < 0 ↔ mNeg r = true) ∧
    ((digit (bit r.xBase 1) (bit r.xBase 0) r.xBorrow = 2 ∨
      digit (bit r.xBase 1) (bit r.xBase 0) r.xBorrow = -2) ↔ mTwo r = true) := by
  unfold mPos mNeg mTwo mIdx
  cases bit r.xBase 1 <;> cases bit r.xBase 0 <;> cases r.xBorrow <;> decide

/-- The shifter in a Booth step: `Rm << sh`, with C passed through when `sh` is 0. -/
lemma shift_mul (hst : r.st = .mul) (vb : Word) :
    shift r vb = (vb <<< (2 * r.mulK.toNat + (mTwo r).toNat),
      if 2 * r.mulK.toNat + (mTwo r).toNat ≠ 0
      then bit vb (32 - (2 * r.mulK.toNat + (mTwo r).toNat)) else r.psr.c) := by
  have hn : ((r.mulK.setWidth 8 <<< 1) ||| (BitVec.ofBool (mTwo r)).setWidth 8).toNat =
      2 * r.mulK.toNat + (mTwo r).toNat := by
    generalize mTwo r = b
    generalize r.mulK = k
    revert k b
    decide
  simp only [shift, hst]
  rw [wren7Shifter_reg, hn]
  have hlt : 2 * r.mulK.toNat + (mTwo r).toNat < 32 := by
    have := Bool.toNat_lt (mTwo r)
    omega
  generalize 2 * r.mulK.toNat + (mTwo r).toNat = sh at hlt
  by_cases h0 : sh = 0
  · simp [shiftReg, h0]
  · simp [shiftReg, h0, hlt]

/-- The accumulator after a Booth step. -/
lemma mAcc_eq (hst : r.st = .mul) (va vb : Word) :
    (if 0 < digit (bit r.xBase 1) (bit r.xBase 0) r.xBorrow then
        ((add r.xCalc (vb <<< (2 * r.mulK.toNat + (mTwo r).toNat)) false).1,
          (add r.xCalc (vb <<< (2 * r.mulK.toNat + (mTwo r).toNat)) false).2.1)
      else if digit (bit r.xBase 1) (bit r.xBase 0) r.xBorrow < 0 then
        ((add r.xCalc (~~~(vb <<< (2 * r.mulK.toNat + (mTwo r).toNat))) true).1,
          (add r.xCalc (~~~(vb <<< (2 * r.mulK.toNat + (mTwo r).toNat))) true).2.1)
      else (r.xCalc, false)).1 = mAcc r va vb := by
  obtain ⟨hpos, hneg, -⟩ := digit_eq r
  have hadd := @add_addIn r va vb
  have hsh : shO r vb = vb <<< (2 * r.mulK.toNat + (mTwo r).toNat) := by
    rw [shO, shift_mul hst]
  rw [addIn, if_pos hst, hsh] at hadd
  unfold mAcc
  by_cases hp : mPos r = true
  · have hn : mNeg r = false := by
      rw [Bool.eq_false_iff]
      exact fun hn => by have := hpos.mpr hp; have := hneg.mpr hn; omega
    simp only [hn, Bool.false_eq_true, if_false] at hadd
    simp [hpos, hp, hadd]
  · by_cases hn : mNeg r = true
    · simp only [hn, if_true] at hadd
      simp [hpos, hneg, hp, hn, hadd]
    · simp [hpos, hneg, hp, hn]

/-- The test for the last step. -/
lemma MulSim.last_eq (h : MulSim r s) : (r.mulK.toNat == s.x.m - 1) = mLast r := by
  obtain ⟨v, hm, hbase, hlt⟩ := h.rs
  have hcount := Arm7DI.mulSteps_eq_iff hlt
  have hone : 1 ≤ mulSteps v := (Arm7DI.mulSteps_spec v).1
  have hk : r.mulK = 15 ↔ r.mulK.toNat = 15 := by
    rw [← BitVec.toNat_inj]
    rfl
  have hrest : r.xBase.extractLsb' 1 31 = 0 ↔ r.xBase >>> 1 = 0 := by
    simp only [← BitVec.toNat_inj, BitVec.extractLsb'_toNat, BitVec.toNat_ushiftRight,
      BitVec.ofNat_eq_ofNat, BitVec.toNat_ofNat]
    have := r.xBase.isLt
    omega
  rw [Bool.eq_iff_iff, mLast, Bool.or_eq_true, beq_iff_eq, beq_iff_eq, beq_iff_eq, hk, hrest, hm,
    hbase, ← hcount]
  omega

/-- Before the last step there is another one. -/
lemma MulSim.succ_lt (h : MulSim r s) (hL : mLast r = false) : r.mulK.toNat + 1 < s.x.m := by
  obtain ⟨v, hm, -, hlt⟩ := h.rs
  have hlast := h.last_eq
  rw [hL, beq_eq_false_iff_ne] at hlast
  omega

end Mul

lemma mul_sim (h : Sim r mem s) (hst : r.st = .mul) : StepSim r mem l s.busCycle := by
  have hc := h.common
  obtain ⟨hseq, hop, hmul, hpw⟩ : s.seq = .mul ∧ s.x.op = r.exW ∧ MulSim r s ∧
      r.pwV = false := by
    have := h.inFlight
    rwa [InFlightSim, hst] at this
  obtain ⟨v, hm, hbase, hlt⟩ := hmul.rs
  have hk0 : ¬ s.k = 0 := by rw [hmul.k]; omega
  have hk : s.k - 1 = r.mulK.toNat := by rw [hmul.k]; omega
  have hvb := hc.rd_rbR hpw (by simp [hst])
  rw [show rbR r = field r.exW 0 4 by simp [rbR, hst]] at hvb
  have htwo : (if digit (bit r.xBase 1) (bit r.xBase 0) r.xBorrow = 2 ∨
      digit (bit r.xBase 1) (bit r.xBase 0) r.xBorrow = -2 then 1 else 0) = (mTwo r).toNat := by
    rcases Bool.eq_false_or_eq_true (mTwo r) with ht | ht <;> simp [(digit_eq r).2.2, ht]
  have hacc : (if field r.exW 16 4 = 15 then r.xCalc
      else s.gpr (Wren7.phys (field r.exW 16 4) s.bank)) = r.xCalc := by
    split_ifs with h15
    · rfl
    · exact hmul.rd h15
  have hlast : (r.mulK.toNat == s.x.m - 1) = mLast r := hmul.last_eq
  rw [Arm7DI.sequence_eq (by simp [hseq]), hseq]
  simp only [Arm7DI.cMul, Arm7DI.mulStep, Arm7DI.mulFlags, boothAdd, hk0, hk, hop, if_false, hvb,
    hmul.mul, hmul.borrow]
  refine ⟨by simp [h.type, busType], by simp [busAddr, hst, hc.pc],
    by simp [busFlags, hst, hc.idleFlags], by simp [Arm7DI.idleFlags], fun a rdata hr => ?_⟩
  simp only [comb, hst, Arm7DI.cyc_next, Arm7DI.sampled_x, Arm7DI.setX_x, Arm7DI.sampled_gpr,
    Arm7DI.setX_gpr, Arm7DI.sampled_bank, Arm7DI.setX_bank, Arm7DI.sampled_cpsr, Arm7DI.setX_cpsr,
    hc.cpsr, bit_psr32_c, hlast, hmul.acc, hacc, htwo, mAcc_eq hst (portA r (mem (raIdx r)))]
  set va := portA r (mem (raIdx r))
  set vb := portB r (mem (rbIdx r))
  have hshC : (if 2 * r.mulK.toNat + (mTwo r).toNat ≠ 0 then
      bit vb (32 - (2 * r.mulK.toNat + (mTwo r).toNat)) else r.psr.c) = Rtl.shC r vb := by
    rw [Rtl.shC, shift_mul hst]
  rw [hshC]
  rcases Bool.eq_false_or_eq_true (mLast r) with hL | hL
  · rcases Bool.eq_false_or_eq_true (bit r.exW 20) with hS | hS
    all_goals
      refine ⟨?_, by simp [mulStepArm, hL, hS],
        by simp [mulStepArm, hL, hS, busReq_eq, CycleType.isMem, St.isMem],
        by simp [mulStepArm, hL, hS, InFlightSim, hpw]⟩
      constructor <;> simp [mulStepArm, hst, hL, hS, hc.stages, hc.carry, hc.pc, hc.cpsr, hc.de,
        hc.f1, hc.dab, hc.inReset, hc.resetExit, hpw]
      case spsr => exact hc.spsr
      case gpr =>
        rw [hc.bank_eq]
        exact update_eq (hc.gpr_eq hpw) _ _ _
    case inl => simpa using psr32_setMulFlags _ _ _
  · refine ⟨?_, by simp [mulStepArm, hL],
      by simp [mulStepArm, hL, hst, busReq_eq, CycleType.isMem, St.isMem], ?_⟩
    · constructor <;> simp [mulStepArm, hst, hL, hc.stages, hc.carry, hc.pc, hc.cpsr, hc.de, hc.f1,
        hc.ex, hc.dab, hc.inReset, hc.resetExit, hpw]
      case spsr => exact hc.spsr
      case gpr =>
        rw [hc.bank_eq]
        exact update_eq (hc.gpr_eq hpw) _ _ _
    · have hnext := hmul.succ_lt hL
      have hk16 : (r.mulK.toNat + 1) % 16 = r.mulK.toNat + 1 := by
        have := (Arm7DI.mulSteps_spec v).2.1
        omega
      suffices hsuff : MulSim ((mulStepArm r va vb).regs r rdata (r.st.isMem && a.abort)) _ by
        simpa [mulStepArm, hL, hst, InFlightSim, hseq, hop, hpw] using hsuff
      constructor
      case k => simp [mulStepArm, hL, hk16, hmul.k]
      case borrow => simp [mulStepArm, hL]
      case acc => simp [mulStepArm, hL]
      case rd =>
        intro h15
        have h15' : ¬ field r.exW 16 4 = 15#4 := by simpa [mulStepArm, hL, hst] using h15
        simp [mulStepArm, hL, hst, h15']
      case mul => simp [mulStepArm, hL]
      case rs =>
        refine ⟨v, by simpa using hm, ?_, ?_⟩
        · simp [mulStepArm, hL, hk16, hbase, ← BitVec.shiftRight_add, Nat.mul_add]
        · simp [mulStepArm, hL, hk16]
          omega

end Wren7
