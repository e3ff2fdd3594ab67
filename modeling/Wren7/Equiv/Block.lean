import Wren7.Equiv.Steps

/-!
# Block transfers

The transfers of an LDM or STM and the LDM's final cycle. A loaded word waits one cycle before the
RTL writes it, together with the base write-back of the first transfer or the base restoration of
an aborted LDM on the same port.
-/

namespace Wren7

open Bits Rtl Reactive

variable {r : CoreRegs} {mem : BitVec 5 → Word} {s : Arm7DI} {l : Levels}

attribute [local simp] Comb.dflt Comb.wreg Comb.regs Comb.mem Comb.wEn Comb.wIdx Comb.pendingWrite Arm7DI.wrBase
attribute [local simp] fRn fRd bP bU bB bW bL bS

/-- The register of a transfer, in the two machines' number for it. -/
lemma bdtR_eq {r : CoreRegs} {list : BitVec 16} {k : ℕ} (h : IsRest list r.xList k) :
    bdtR r = BitVec.ofNat 4 k := by
  have hlt := h.lt
  apply BitVec.eq_of_toNat_eq
  rw [bdtR, ctz16_eq h.ne_zero, h.lowest_eq, BitVec.toNat_ofNat]
  omega

lemma bdtR_eq_pc_iff {list : BitVec 16} {k : ℕ} (h : IsRest list r.xList k) :
    bdtR r = 15 ↔ k = 15 := by
  have hlt := h.lt
  rw [bdtR, ← BitVec.toNat_inj, ctz16_eq h.ne_zero, h.lowest_eq]
  rfl

/-- A loaded word waits for its write. -/
lemma update_eq_pending {g : Fin 31 → Word} (hg : ∀ p, g p = mem (slot p)) {x : Reg} (hx : x ≠ 15)
    (b : Bank) (v : Word) (p : Fin 31) :
    Function.update g (Wren7.phys x b) v p =
      if Rtl.phys x b = slot p then v else mem (slot p) := by
  rw [← slot_phys hx]
  by_cases hp : p = Wren7.phys x b
  · subst hp
    simp
  · rw [Function.update_of_ne hp, if_neg fun h => hp (slot_injective h).symm, hg]

/-- A pending word is written with the next transfer. -/
lemma pending_eq {g : Fin 31 → Word} {pwV : Bool} {pwIdx : BitVec 5} {v : Word}
    (hg : ∀ p, g p = if pwV && pwIdx == slot p then v else mem (slot p)) (p : Fin 31) :
    g p = (if pwV then Function.update mem pwIdx v else mem) (slot p) := by
  rw [hg]
  by_cases hi : pwIdx = slot p
  · subst hi; cases pwV <;> simp
  · cases pwV <;> simp [hi, Function.update_of_ne (Ne.symm hi)]

/-- What a transfer writes: the base with the first one, else the word that is pending. -/
lemma bdtxArm_mem (hc : Common r mem s) (rdata : Word) (ab : Bool)
    (hpw : r.pwV = true → bL r.exW = true ∧ r.xFirst = false ∧ r.xAb = false) (p : Fin 31) :
    (if r.xFirst = true ∧ bit r.exW 21 = true then
        if field r.exW 16 4 = 15 then s.gpr
        else Function.update s.gpr (Wren7.phys (field r.exW 16 4) s.bank) r.xCalc
      else s.gpr) p = (bdtxArm r rdata ab).mem r mem (slot p) := by
  rw [hc.bank_eq]
  rcases Bool.eq_false_or_eq_true r.pwV with hv | hv
  · have hf := (hpw hv).2.1
    have hL : bit r.exW 20 = true := (hpw hv).1
    have hgpr := pending_eq hc.gpr p
    simp [hv] at hgpr
    by_cases h15 : bdtR r = 15#4 <;> simp [bdtxArm, hv, hf, hL, hgpr, h15]
  · have hgpr := hc.gpr_eq hv
    have hmem : (bdtxArm r rdata ab).mem r mem =
        if (r.xFirst = true ∧ bit r.exW 21 = true) ∧ ¬ field r.exW 16 4 = 15 then
          Function.update mem (Rtl.phys (field r.exW 16 4) (bank r)) r.xCalc else mem := by
      by_cases hf : r.xFirst = true ∧ bit r.exW 21 = true <;>
        by_cases h15 : bdtR r = 15#4 <;> simp [bdtxArm, hv, hf, h15]
    rw [hmem, ← update_eq_if hgpr]

lemma bdtx_sim (h : Sim r mem s) (hst : r.st = .bdtx) : StepSim r mem l s.busCycle := by
  have hc := h.common
  have hm := h.isMem_eq
  obtain ⟨hseq, hop, hb, haddr, hfirst, hrest, hpcl, hxpcl, hpw⟩ : s.seq = .bdt ∧ s.x.op = r.exW ∧
      BdtSim r s ∧ s.x.addr = r.xAddr ∧
      s.x.first = r.xFirst ∧ IsRest s.x.list r.xList s.x.r ∧ s.x.pcLoaded = false ∧
      r.xPcl = false ∧
      (r.pwV = true → bL r.exW = true ∧ r.xFirst = false ∧ r.xAb = false) := by
    have := h.inFlight
    rwa [InFlightSim, hst] at this
  have h16 : ¬ s.x.r = 16 := by have := hrest.lt; omega
  have hk := hb.k
  have hlast' : s.bdtLast = bdtLast r := by
    rw [Bool.eq_iff_iff, bdtLast, Arm7DI.bdtLast, beq_iff_eq, beq_iff_eq, hrest.clear_eq_zero_iff]
  have hport := fun rdata ab => bdtxArm_mem hc rdata ab hpw
  rw [Arm7DI.sequence_eq (by simp [hseq]), hseq]
  rcases Bool.eq_false_or_eq_true (bit r.exW 20) with hL | hL
  · simp only [Arm7DI.cBdt, hk, h16, hop, hL, if_false, if_true, hlast']
    refine ⟨by simp [h.type, busType], by simp [busAddr, hst, haddr],
      by simp [busFlags, hst, hc.idleFlags, hL], by simp [Arm7DI.idleFlags], fun a rdata hr => ?_⟩
    simp only [comb, hst, St.isMem, forall_const] at hm hr ⊢
    subst hr
    rw [Arm7DI.cyc_next, Arm7DI.bdt_load_eq _ (by simpa [hop] using hL)]
    have hbase : ∀ next rdata ab p, (s.sampled a next).wrBase.gpr p =
        (bdtxArm r rdata ab).mem r mem (slot p) := by
      intro next rdata ab p
      rw [← hport, Arm7DI.wrBase_gpr]
      simp only [Arm7DI.sampled_x, Arm7DI.sampled_gpr, Arm7DI.sampled_bank, hop, hfirst, hb.wbv]
    have hspsr := hc.spsr
    refine ⟨?_, by simp [bdtxArm, hL], ?_, ?_⟩
    · rcases Bool.eq_false_or_eq_true (r.xAb || a.abort) with hab | hab
      · have hab' : (s.x.ab || a.abort) = true := by rw [hb.ab, hab]
        constructor
        case gpr =>
          intro p
          simp only [Arm7DI.sampled_x, Arm7DI.sampled_lastAbort, hm, hab', Bool.and_true, Bool.true_or, if_true, Arm7DI.setK_gpr, Arm7DI.setX_gpr, hbase _ a.rdata (true && a.abort)]
          simp [-Comb.mem, bdtxArm, hL, hab]
        all_goals simp [-Comb.mem, bdtxArm, hst, hL, hab, hm, hc.stages, hc.carry, hc.pc, hc.cpsr, hc.ex, hc.de, hc.f1, hc.dab, hc.inReset, hc.resetExit]
        exact hspsr
      · have hab' : (s.x.ab || a.abort) = false := by rw [hb.ab, hab]
        by_cases h15 : s.x.r = 15
        · have h15' : bdtR r = 15#4 := (bdtR_eq_pc_iff hrest).mpr h15
          constructor
          case gpr =>
            intro p
            simp only [Arm7DI.sampled_x, h15, beq_self_eq_true, Bool.or_true, if_true,
              Arm7DI.setK_gpr, Arm7DI.setX_gpr, hbase _ a.rdata (true && a.abort)]
            simp [-Comb.mem, bdtxArm, hL, hab, h15']
          all_goals simp [-Comb.mem, bdtxArm, hst, hL, hab, h15', hm, hc.stages, hc.carry, hc.pc, hc.cpsr, hc.ex, hc.de, hc.f1, hc.dab, hc.inReset, hc.resetExit]
          exact hspsr
        · have h15' : ¬ bdtR r = 15#4 := fun h => h15 ((bdtR_eq_pc_iff hrest).mp h)
          have hreg : ¬ BitVec.ofNat 4 s.x.r = 15 := bdtR_eq hrest ▸ h15'
          have hstop : (s.x.ab || a.abort || s.x.r == 15) = false := by simp [hab', h15]
          constructor
          case gpr =>
            intro p
            simp only [Arm7DI.sampled_x, Arm7DI.sampled_lastAbort, hm, Bool.and_true, hstop,
              Bool.false_eq_true, if_false, Arm7DI.setK_gpr, Arm7DI.setX_gpr, Arm7DI.wrBank_gpr, hreg]
            rw [update_eq_pending (hbase _ a.rdata (true && a.abort)) hreg]
            simp [-Comb.mem, bdtxArm, hL, hab, h15', ← bdtR_eq hrest, Arm7DI.bdtBank, hb.userbank, hc.bank_eq]
          all_goals simp [-Comb.mem, bdtxArm, hst, hL, hab, h15', hm, hc.stages, hc.carry, hc.pc, hc.cpsr, hc.ex, hc.de, hc.f1, hc.dab, hc.inReset, hc.resetExit]
          exact hspsr
    · rcases Bool.eq_false_or_eq_true (bdtLast r) with hlast | hlast <;>
        simp [bdtxArm, hL, hlast, busReq_eq, CycleType.isMem, St.isMem]
    · rcases Bool.eq_false_or_eq_true (bdtLast r) with hlast | hlast
      · rcases Bool.eq_false_or_eq_true (r.xAb || a.abort) with hab | hab
        · have hab' : (s.x.ab || a.abort) = true := by rw [hb.ab, hab]
          simp [bdtxArm, hL, hlast, hlast', hst, hab, hab', InFlightSim, hseq, hop, hpcl, hxpcl, hm]
          constructor <;> simp [hb.base, hb.wbv, hb.userbank]
        · have hab' : (s.x.ab || a.abort) = false := by rw [hb.ab, hab]
          by_cases h15 : s.x.r = 15
          · have h15' : bdtR r = 15#4 := (bdtR_eq_pc_iff hrest).mpr h15
            simp [bdtxArm, hL, hlast, hlast', hst, hab, hab', h15, h15', InFlightSim, hseq, hop, hpcl, hxpcl, hm]
            constructor <;> simp [hb.base, hb.wbv, hb.userbank]
          · have h15' : ¬ bdtR r = 15#4 := fun h => h15 ((bdtR_eq_pc_iff hrest).mp h)
            simp [bdtxArm, hL, hlast, hlast', hst, hab, hab', h15, h15', InFlightSim, hseq, hop, hpcl, hxpcl, hm]
            constructor <;> simp [hb.base, hb.wbv, hb.userbank]
      · have hclear := hrest.clear fun h0 => by
          rw [← hlast', Arm7DI.bdtLast, h0] at hlast
          simp at hlast
        rcases Bool.eq_false_or_eq_true (r.xAb || a.abort) with hab | hab
        · have hab' : (s.x.ab || a.abort) = true := by rw [hb.ab, hab]
          simp [bdtxArm, hL, hlast, hlast', hst, hab, hab', InFlightSim, hseq, hop, hpcl, hxpcl, hm, xap4, haddr]
          refine ⟨?_, ?_⟩
          · constructor <;> simp [hb.base, hb.wbv, hb.userbank]
          · exact hclear
        · have hab' : (s.x.ab || a.abort) = false := by rw [hb.ab, hab]
          have h15 : ¬ s.x.r = 15 := by have := hclear.lt; omega
          have h15' : ¬ bdtR r = 15#4 := fun h => h15 ((bdtR_eq_pc_iff hrest).mp h)
          have hxab : r.xAb = false := by rw [Bool.or_eq_false_iff] at hab; exact hab.1
          simp [bdtxArm, hL, hlast, hlast', hst, hab, hab', h15, h15', InFlightSim, hseq, hop, hpcl, hxpcl, hm, xap4, haddr]
          refine ⟨?_, ?_⟩
          · constructor <;> simp [hb.base, hb.wbv, hb.userbank]
          · exact hclear
  · have hstored := Arm7DI.bdtStored_eq hrest.lt
    simp only [Arm7DI.cBdt, hk, h16, hop, hL, Bool.false_eq_true, if_false, hlast']
    refine ⟨by simp [h.type, busType], by simp [busAddr, hst, haddr],
      by simp [busFlags, hst, hc.idleFlags, hL], ?_, fun a rdata hr => ?_⟩
    · have hpwV' : r.pwV = false := by
        rw [Bool.eq_false_iff]
        exact fun h => absurd (hpw h).1 (by simp [hL])
      intro _
      simp only [Arm7DI.cyc_bus_wdata, if_true, busWdata, busFlags, hst, Bool.false_eq_true, if_false, portB, rbR, rbIdx, true_and]
      rw [hstored]
      by_cases h15 : s.x.r = 15
      · rw [if_pos h15, if_pos ((bdtR_eq_pc_iff hrest).mpr h15), hc.pc]
      · have h15' : bdtR r ≠ 15 := fun h => h15 ((bdtR_eq_pc_iff hrest).mp h)
        rw [if_neg h15, if_neg h15', ← bdtR_eq hrest, hc.gpr_phys hpwV' h15', Arm7DI.bdtBank, hb.userbank, hc.bank_eq]
    have hpwV : r.pwV = false := by
      rw [Bool.eq_false_iff]
      exact fun h => absurd (hpw h).1 (by simp [hL])
    simp only [comb, hst, St.isMem, forall_const] at hm hr ⊢
    subst hr
    have hopL : ∀ next, bit (s.sampled a next).x.op 20 = false := fun _ => by simpa [hop] using hL
    have hstore := fun next => Arm7DI.bdt_store_gpr (hopL next)
    rw [Arm7DI.cyc_next]
    have hspsr := hc.spsr
    have hbase : ∀ next rdata ab p, (s.sampled a next).wrBase.gpr p =
        (bdtxArm r rdata ab).mem r mem (slot p) := by
      intro next rdata ab p
      rw [← hport, Arm7DI.wrBase_gpr]
      simp only [Arm7DI.sampled_x, Arm7DI.sampled_gpr, Arm7DI.sampled_bank, hop, hfirst, hb.wbv]
    rcases Bool.eq_false_or_eq_true (bdtLast r) with hlast | hlast
    · refine ⟨?_, by simp [bdtxArm, hL, hlast, hlast', Arm7DI.bdt_store_eq (hopL _)], by simp [bdtxArm, hL, hlast, busReq_eq, CycleType.isMem, St.isMem], ?_⟩
      · constructor
        case gpr =>
          intro p
          rw [hstore, hbase _ a.rdata (true && a.abort)]
          simp [-Comb.mem, bdtxArm, hL, hlast, hpwV]
        all_goals simp [-Comb.mem, Arm7DI.bdt_store_eq (hopL _), bdtxArm, hst, hL, hlast, hlast', hm, hc.stages, hc.carry, hc.pc, hc.cpsr, hc.de, hc.f1, hc.dab, hc.inReset, hc.resetExit]
        case spsr => exact hspsr
        case dab => simp [hb.ab]
      · simp [Arm7DI.bdt_store_eq (hopL _), bdtxArm, hL, hlast, hlast', hst, InFlightSim, hpwV]
    · refine ⟨?_, by simp [bdtxArm, hL, hlast, hlast', Arm7DI.bdt_store_eq (hopL _)], by simp [bdtxArm, hL, hlast, hst, busReq_eq, CycleType.isMem, St.isMem], ?_⟩
      · constructor
        case gpr =>
          intro p
          rw [hstore, hbase _ a.rdata (true && a.abort)]
          simp [-Comb.mem, bdtxArm, hL, hlast, hpwV]
        all_goals simp [-Comb.mem, Arm7DI.bdt_store_eq (hopL _), bdtxArm, hst, hL, hlast, hlast', hm, hc.stages, hc.carry, hc.pc, hc.cpsr, hc.de, hc.f1, hc.ex, hc.dab, hc.inReset, hc.resetExit]
        exact hspsr
      · have hclear := hrest.clear fun h0 => by
          rw [← hlast', Arm7DI.bdtLast, h0] at hlast
          simp at hlast
        simp [Arm7DI.bdt_store_eq (hopL _), bdtxArm, hL, hlast, hlast', hst, InFlightSim, hpwV, hseq, hop, hpcl, hxpcl, xap4, haddr]
        refine ⟨?_, hclear⟩
        constructor <;> simp [hb.base, hb.wbv, hb.ab, hb.userbank, hm]

lemma bdtf_sim (h : Sim r mem s) (hst : r.st = .bdtf) : StepSim r mem l s.busCycle := by
  have hc := h.common
  obtain ⟨hseq, hop, hb, h16, hpcl, hnewpc, hpw⟩ : s.seq = .bdt ∧ s.x.op = r.exW ∧ BdtSim r s ∧
      s.x.r = 16 ∧ s.x.pcLoaded = r.xPcl ∧
      (r.xPcl = true → s.x.newpc = r.xData ∧ r.pwV = false) ∧ (r.pwV = true → r.xAb = false) := by
    have := h.inFlight
    rwa [InFlightSim, hst] at this
  have hspsr := hc.spsr
  have hgpr := pending_eq hc.gpr
  rw [Arm7DI.sequence_eq (by simp [hseq]), hseq]
  simp only [Arm7DI.cBdt, Arm7DI.cBdtFinal, hb.k, h16, hop, hpcl, if_false, if_true]
  refine ⟨by simp [h.type, busType], by simp [busAddr, hst, hc.pc],
    by simp [busFlags, hst, hc.idleFlags], by simp, fun a rdata hr => ?_⟩
  simp only [comb, hst, St.isMem, Bool.false_and]
  rcases Bool.eq_false_or_eq_true r.xAb with hx | hx
  · have hv : r.pwV = false := by
      rw [Bool.eq_false_iff]
      exact fun h => absurd (hpw h) (by simp [hx])
    refine ⟨?_, by simp [bdtfArm, hb.ab, hx], ?_, by simp [bdtfArm, hb.ab, hx, InFlightSim]⟩
    · constructor <;> simp [bdtfArm, hst, hb.ab, hx, hv, hc.stages, hc.carry, hc.pc, hc.cpsr, hc.de,
        hc.f1, hc.inReset, hc.resetExit]
      case spsr => exact hspsr
      case gpr =>
        rw [hb.wbv, hb.base, hc.bank_eq]
        exact update_eq (hc.gpr_eq hv) _ _ _
    · rcases Bool.eq_false_or_eq_true r.xPcl with hp | hp <;>
        simp [bdtfArm, hx, hp, busReq_eq, CycleType.isMem, St.isMem]
  rcases Bool.eq_false_or_eq_true r.xPcl with hp | hp
  · obtain ⟨hnew, hv⟩ := hnewpc hp
    rcases Bool.eq_false_or_eq_true (bit r.exW 22) with hS | hS <;> by_cases hu : bank r = .usr
    all_goals
      refine ⟨?_, by simp [bdtfArm, hb.ab, hx, hp, hS, hu, hc.bank_eq],
        by simp [bdtfArm, hx, hp, hS, hu, busReq_eq, CycleType.isMem, St.isMem],
        by simp [bdtfArm, hb.ab, hx, hp, hS, hu, hv, hnew, hpcl, hc.bank_eq, InFlightSim]⟩
      constructor <;> simp [bdtfArm, hst, hb.ab, hx, hp, hS, hu, hv, hc.stages, hc.carry, hc.pc, hc.cpsr, hc.ex, hc.de,
        hc.f1, hc.dab, hc.inReset, hc.resetExit, hc.gpr_eq hv, hpcl, hc.bank_eq]
      case spsr => exact hspsr
    rw [hspsr _ hu, psr32_write, Rtl.spsrCur, if_neg hu]
  · refine ⟨?_, by simp [bdtfArm, hb.ab, hx, hp, hpcl],
        by simp [bdtfArm, hx, hp, busReq_eq, CycleType.isMem, St.isMem],
        by simp [bdtfArm, hb.ab, hx, hp, hpcl, InFlightSim]⟩
    constructor <;> simp [bdtfArm, hst, hb.ab, hx, hp, hc.stages, hc.carry, hc.pc, hc.cpsr, hc.de,
        hc.f1, hc.dab, hc.inReset, hc.resetExit, hpcl, hgpr]
    case spsr => exact hspsr
    case gpr =>
      intro p
      cases r.pwV <;> simp

end Wren7
