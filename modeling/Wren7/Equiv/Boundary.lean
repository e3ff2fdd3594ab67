import Wren7.Equiv.Block

/-!
# The boundary cycle

The first cycle of a sequence: both machines decide on the same levels, the same pending entries
and the same instruction word, and begin the same sequence.
-/

namespace Wren7

open Bits Rtl Reactive

variable {r : CoreRegs} {mem : BitVec 5 → Word} {s : Arm7DI} {l : Levels}

attribute [local simp] Comb.dflt Comb.wreg Comb.regs Comb.mem Comb.wEn Comb.wIdx capDflt
attribute [local simp] fRn fRd bP bU bB bW bL bS

/-! ### Decoding -/

section Decode

variable (w : Word)

lemma and_90_eq_iff : w &&& 0x90 = 0x90 ↔ bit w 7 = true ∧ bit w 4 = true := by
  constructor
  · intro h
    have h7 := congrArg (fun v : Word => bit v 7) h
    have h4 := congrArg (fun v : Word => bit v 4) h
    simp [bit] at h7 h4
    exact ⟨h7, h4⟩
  · rintro ⟨h7, h4⟩
    apply BitVec.eq_of_getLsbD_eq
    intro i hi
    interval_cases i <;> simp_all [bit]

/-- The decoders agree. -/
lemma seqOf_eq : Arm7DI.seqOf w =
    if isDp w then .dp else if isPsr w then .psr else if isMul w then .mul
    else if isSwp w then .swp else if isSdt w then .sdt else if isBdt w then .bdt
    else if isBr w then .branch else if isSwi w then .exc else .undefTrap := by
  have hc3 : field w 25 3 = c3 w := rfl
  unfold Arm7DI.seqOf
  simp only [hc3, and_90_eq_iff]
  rcases Arm7DI.class_cases (c3 w) with h | h | h | h | h | h | h | h
  · simp only [h, isDp, isPsr, isMul, isSwp, isSdt, isBdt, isBr, isSwi, dpsp, space, mulDoc, swpDoc]
    by_cases h7 : bit w 7 = true <;> by_cases h4 : bit w 4 = true <;>
      by_cases hm : w &&& 0x0FC000F0 = 0x00000090 <;>
      by_cases hs : w &&& 0x0FB00FF0 = 0x01000090 <;>
      by_cases hp : w &&& 0x01900000 = 0x01000000 <;>
      by_cases h24 : bit w 24 = true <;> simp_all
  all_goals
    simp [h, isDp, isPsr, isMul, isSwp, isSdt, isBdt, isBr, isSwi, dpsp, space]
  · split_ifs <;> rfl
  · cases bit w 4 <;> rfl

end Decode

/-! ### The first cycle -/

/-- The model at the start of a sequence, the RTL at the boundary. -/
structure Begun (r : CoreRegs) (mem : BitVec 5 → Word) (s : Arm7DI) : Prop where
  common : Common r mem s
  type : s.nextType = r.ctype
  isMem : s.nextType.isMem = true
  st : r.st = .bound
  pwV : r.pwV = false

lemma Begun.setX (h : Begun r mem s) (x : InFlight) : Begun r mem (s.setX x) := by
  obtain ⟨hc, ht, hm, hst, hpw⟩ := h
  exact ⟨⟨hc.stages, hc.carry, hc.pc, hc.cpsr, hc.spsr, hc.ex, hc.de, hc.f1, hc.dab, hc.inReset,
    hc.resetExit, hc.gpr⟩, ht, hm, hst, hpw⟩

lemma Begun.setK (h : Begun r mem s) (k : ℕ) : Begun r mem (s.setK k) := by
  obtain ⟨hc, ht, hm, hst, hpw⟩ := h
  exact ⟨⟨hc.stages, hc.carry, hc.pc, hc.cpsr, hc.spsr, hc.ex, hc.de, hc.f1, hc.dab, hc.inReset,
    hc.resetExit, hc.gpr⟩, ht, hm, hst, hpw⟩

lemma Begun.setSeq (h : Begun r mem s) (q : Seq) : Begun r mem (s.setSeq q) := by
  obtain ⟨hc, ht, hm, hst, hpw⟩ := h
  exact ⟨⟨hc.stages, hc.carry, hc.pc, hc.cpsr, hc.spsr, hc.ex, hc.de, hc.f1, hc.dab, hc.inReset,
    hc.resetExit, hc.gpr⟩, ht, hm, hst, hpw⟩

lemma Begun.setResetExit (h : Begun r mem s) (b : Bool) :
    Begun { r with rstExit := b } mem (s.setResetExit b) := by
  obtain ⟨hc, ht, hm, hst, hpw⟩ := h
  exact ⟨⟨hc.stages, hc.carry, hc.pc, hc.cpsr, hc.spsr, hc.ex, hc.de, hc.f1, hc.dab, hc.inReset,
    rfl, hc.gpr⟩, ht, hm, hst, hpw⟩

lemma Begun.setDabort (h : Begun r mem s) (b : Bool) :
    Begun { r with dab := b } mem (s.setDabort b) := by
  obtain ⟨hc, ht, hm, hst, hpw⟩ := h
  exact ⟨⟨hc.stages, hc.carry, hc.pc, hc.cpsr, hc.spsr, hc.ex, hc.de, hc.f1, rfl, hc.inReset,
    hc.resetExit, hc.gpr⟩, ht, hm, hst, hpw⟩

/-- The cycle of a sequence's start against an arm of the boundary state. -/
structure ArmSim (r : CoreRegs) (mem : BitVec 5 → Word) (c : Comb) (d : Drive) : Prop where
  type : d.bus.type = r.ctype
  addr : d.bus.addr = r.pc
  flags : d.bus.flags = { opc := true, user := umode r }
  next : ∀ a : Answer, Sim (c.regs r a.rdata a.abort) (c.mem r mem) (d.next a)

/-- Every sequence starts with a fetch at the pc. -/
lemma Begun.armSim (h : Begun r mem s) {c : Comb} {next : CycleType} {k : Word → Arm7DI → Arm7DI}
    (hk : ∀ a : Answer, Sim (c.regs r a.rdata a.abort) (c.mem r mem)
      (k a.rdata (s.sampled a next))) :
    ArmSim r mem c (s.cyc s.pc s.fetchFlags 0 next k) where
  type := by simp [h.type]
  addr := by simp [h.common.pc]
  flags := by simp [h.common.fetchFlags]
  next a := by simpa using hk a

/-- The fetched word, and whether it was aborted. -/
lemma Begun.lastAbort (h : Begun r mem s) (a : Answer) (next : CycleType) :
    (s.sampled a next).lastAbort = a.abort := by simp [h.isMem]

/-- The state in which the fetch has been captured, in both machines. -/
lemma Begun.captured (h : Begun r mem s) (a : Answer) (next : CycleType) :
    Common ((capDflt r).regs r a.rdata a.abort) mem
      ((s.sampled a next).capture ⟨a.rdata, a.abort⟩) := by
  have hc := h.common
  constructor <;> simp [h.st, h.pwV, pcp4, hc.stages, hc.carry, hc.pc, hc.cpsr, hc.ex, hc.de,
    hc.dab, hc.inReset, hc.resetExit, hc.gpr_eq h.pwV]
  exact hc.spsr

/-- The same with the fetch captured in `f1_`. -/
lemma Begun.fetchSim (h : Begun r mem s) {c : Comb} {next : CycleType} {k : Arm7DI → Arm7DI}
    (hk : ∀ a : Answer, Sim (c.regs r a.rdata a.abort) (c.mem r mem)
      (k ((s.sampled a next).capture ⟨a.rdata, a.abort⟩))) :
    ArmSim r mem c (s.cycle1Fetch next k) :=
  h.armSim fun a => by simpa only [h.lastAbort] using hk a

lemma hold_sim (h : Begun r mem s) (hin : r.inRst = true) : ArmSim r mem (holdArm r) s.cReset := by
  refine h.armSim fun a => ?_
  have hc := h.common
  refine ⟨?_, by simp [holdArm], by simp [holdArm, busReq_eq, CycleType.isMem, St.isMem],
    by simp [holdArm, InFlightSim, h.pwV]⟩
  constructor <;> simp [holdArm, pcp4, h.st, h.pwV, hc.stages, hc.carry, hc.pc, hc.cpsr, hc.ex,
    hc.de, hc.f1, hc.dab, hc.inReset, hc.resetExit, hc.gpr_eq h.pwV, hin]
  exact hc.spsr

/-- An exception entry, for the registers in which the pending condition is already cleared. -/
def entryArm (r : CoreRegs) (vec mode : BitVec 5) (setF : Bool) : Comb :=
  { (Comb.dflt r).wreg 14 (Rtl.bankOf mode) (pcm4 r) with
    spWe := true, spB := Rtl.bankOf mode, spV := r.psr
    n.psr := { r.psr with m := mode, i := true, f := if setF then true else r.psr.f }
    n.xAddr := vec.setWidth 32, n.ctype := .N, n.st := .ref0 }

lemma exc_sim (h : Begun r mem s) {vec mode : BitVec 5} {setF : Bool}
    (hvec : s.x.vector = vec.setWidth 32) (hmode : s.x.mode = mode) (hsetF : s.x.setF = setF) :
    ArmSim r mem (entryArm r vec mode setF) s.cExc := by
  rw [Arm7DI.cExc]
  refine h.armSim fun a => ?_
  have hc := h.common
  refine ⟨?_, by simp [entryArm], by simp [entryArm, busReq_eq, CycleType.isMem, St.isMem],
    by simp [entryArm, InFlightSim, h.pwV, hvec]⟩
  constructor <;> simp [entryArm, pcm4, h.st, h.pwV, hc.stages, hc.carry, hc.pc, hc.cpsr, hc.ex,
    hc.de, hc.f1, hc.dab, hc.inReset, hc.resetExit, hmode, hsetF, bankOf_eq]
  case cpsr => simpa using psr32_enter (p := r.psr) mode setF
  case spsr => exact spsr_update hc.spsr _ rfl
  case gpr => exact gpr_update (hc.gpr_eq h.pwV) (by decide) _ _

lemma skip_sim (h : Begun r mem s) : ArmSim r mem (skipArm r) s.cSkip := by
  refine h.fetchSim fun a => ?_
  have hc := h.common
  refine ⟨?_, by simp [skipArm], by simp [skipArm, busReq_eq, CycleType.isMem, St.isMem],
    by simp [skipArm, InFlightSim, h.pwV]⟩
  constructor <;> simp [skipArm, pcp4, h.st, h.pwV, hc.stages, hc.carry, hc.pc, hc.cpsr, hc.de,
    hc.dab, hc.inReset, hc.resetExit, hc.gpr_eq h.pwV]
  exact hc.spsr

lemma swp_sim (h : Begun r mem s) (hq : s.seq = .swp) (hk : s.k = 0) (hop : s.x.op = r.exW)
    (hmul : isMul r.exW = false) :
    ArmSim r mem (swpArm r (portA r (mem (raIdx r)))) s.cSwp := by
  have hc := h.common
  have hva := hc.rd_raR h.pwV
  rw [show raR r = field r.exW 16 4 by simp [raR, hmul]] at hva
  simp only [Arm7DI.cSwp, hk, hop, hva, Arm7DI.setK_rd, Arm7DI.setK_pc, Arm7DI.setK_x]
  refine ((h.setK _).setX _).fetchSim fun a => ?_
  refine ⟨?_, by simp [swpArm], by simp [swpArm, busReq_eq, CycleType.isMem, St.isMem],
    by simp [swpArm, InFlightSim, h.st, h.pwV, hq]⟩
  constructor <;> simp [swpArm, pcp4, h.st, h.pwV, hc.stages, hc.carry, hc.pc, hc.cpsr, hc.ex,
    hc.de, hc.dab, hc.inReset, hc.resetExit, hc.gpr_eq h.pwV]
  exact hc.spsr

lemma br_sim (h : Begun r mem s) (hop : s.x.op = r.exW)
    (hbr : isBr r.exW = true) (va : Word) : ArmSim r mem (brArm r va) s.cBranch := by
  have hc := h.common
  simp only [Arm7DI.cBranch, hop]
  refine h.fetchSim fun a => ?_
  rcases Bool.eq_false_or_eq_true (bit r.exW 24) with hL | hL
  all_goals
    refine ⟨?_, by simp [brArm, hL], by simp [brArm, hL, busReq_eq, CycleType.isMem, St.isMem],
      by simp [brArm, hL, InFlightSim, h.st, h.pwV, hop, ad2, hbr, hc.pc, branch_offset]⟩
    constructor <;> simp [brArm, hL, pcp4, pcm4, h.st, h.pwV, hc.stages, hc.carry, hc.pc, hc.cpsr, hc.ex,
      hc.de, hc.dab, hc.inReset, hc.resetExit, hc.gpr_eq h.pwV]
  case inl.spsr => exact hc.spsr
  case inr.spsr => exact hc.spsr
  case inl.gpr =>
    rw [hc.bank_eq]
    exact gpr_update (hc.gpr_eq h.pwV) (by decide) _ _

lemma und_sim (h : Begun r mem s) (hq : s.seq = .undefTrap) (hk : s.k = 0) :
    ArmSim r mem (undArm r) s.cUndef := by
  have hc := h.common
  simp only [Arm7DI.cUndef, hk, if_true]
  refine (h.setX _).armSim fun a => ?_
  refine ⟨?_, by simp [undArm], by simp [undArm, busReq_eq, CycleType.isMem, St.isMem],
    by simp [undArm, InFlightSim, h.st, h.pwV, hq, hc.pc]⟩
  constructor <;> simp [undArm, h.st, h.pwV, hc.stages, hc.carry, hc.pc, hc.cpsr, hc.ex,
    hc.de, hc.f1, hc.dab, hc.inReset, hc.resetExit, hc.gpr_eq h.pwV]
  exact hc.spsr

/-! ### Operands -/

/-- The shifter of an instruction that takes the immediate operand. -/
lemma shift_imm (hst : r.st = .bound) (hi : bit r.exW 25 = true) (hd : dpsp r.exW = true)
    (vb : Word) : shift r vb =
      (ror32 (r.exW &&& 0xFF) (2 * (field r.exW 8 4).toNat),
        if 2 * (field r.exW 8 4).toNat ≠ 0
        then bit (ror32 (r.exW &&& 0xFF) (2 * (field r.exW 8 4).toNat)) 31 else r.psr.c) := by
  simp only [shift, hst, hi, hd, Bool.and_true, if_true]
  rw [wren7Shifter_rot, and_FF]

/-- The shifter of an instruction that takes a register shifted by an immediate amount. -/
lemma shift_reg (hst : r.st = .bound) (hi : (bit r.exW 25 && dpsp r.exW) = false) (vb : Word) :
    shift r vb = shiftImm vb (field r.exW 5 2) (field r.exW 7 5).toNat r.psr.c := by
  simp only [shift, hst, hi, Bool.false_eq_true, if_false]
  have hn : ((field r.exW 7 5).setWidth 8).setWidth 5 = field r.exW 7 5 := by
    rw [BitVec.setWidth_setWidth_of_le _ (by omega), BitVec.setWidth_eq]
  rw [wren7Shifter_imm, hn]

/-- The adder as an address generator: base plus or minus an offset. -/
lemma sum_offset {va vb : Word} {u : Bool} {off : Word}
    (h : addIn r va vb = (va, if u then off else ~~~off, !u)) :
    sum r va vb = if u then va + off else va - off := by
  have hadd : (add va (if u then off else ~~~off) !u).1 = sum r va vb := by
    rw [add_eq_sum, sum, sum33, h]
  rw [← hadd, add]
  cases u
  · simp only [Bool.false_eq_true, if_false, Bool.not_false]
    apply BitVec.eq_of_toNat_eq
    have := off.isLt
    simp
    omega
  · simp only [if_true, Bool.not_true]
    apply BitVec.eq_of_toNat_eq
    simp

lemma mul_start_sim (h : Begun r mem s) (hq : s.seq = .mul) (hk : s.k = 0) (hop : s.x.op = r.exW)
    (hmul : isMul r.exW = true) :
    ArmSim r mem (mulArm r (portA r (mem (raIdx r))) (portB r (mem (rbIdx r)))) s.cMul := by
  have hc := h.common
  have hva := hc.rd_raR h.pwV
  have hvb := hc.rd_rbR h.pwV (by simp [h.st])
  rw [show raR r = field r.exW 12 4 by simp [raR, hmul, h.st]] at hva
  rw [show rbR r = field r.exW 8 4 by simp [rbR, hmul, h.st]] at hvb
  simp only [Arm7DI.cMul, Arm7DI.cMulStart, hk, hop, hva, hvb, if_true]
  refine (h.setX _).fetchSim fun a => ?_
  set va := portA r (mem (raIdx r))
  set vb := portB r (mem (rbIdx r))
  refine ⟨?_, by simp [mulArm], by simp [mulArm, busReq_eq, CycleType.isMem, St.isMem], ?_⟩
  · constructor <;> simp [mulArm, pcp4, h.st, h.pwV, hc.stages, hc.carry, hc.pc, hc.cpsr, hc.ex,
      hc.de, hc.dab, hc.inReset, hc.resetExit]
    case spsr => exact hc.spsr
    case gpr =>
      rw [hc.bank_eq]
      exact update_eq (hc.gpr_eq h.pwV) _ _ _
  · simp [mulArm, InFlightSim, h.st, h.pwV, hq]
    constructor
    case rs => 
      refine ⟨vb, by simp, by simp, ?_⟩
      have := (Arm7DI.mulSteps_spec vb).1
      simp
      omega
    case rd =>
      intro h15
      have h15' : ¬ field r.exW 16 4 = 15#4 := by simpa [h.st] using h15
      simp [h15']
    all_goals simp

lemma sdt_sim (h : Begun r mem s) (hq : s.seq = .sdt) (hk : s.k = 0) (hop : s.x.op = r.exW)
    (hsdt : isSdt r.exW = true) (hmul : isMul r.exW = false) (hdp : dpsp r.exW = false) (hrs : dpRs r.exW = false) :
    ArmSim r mem (sdtArm r (portA r (mem (raIdx r))) (portB r (mem (rbIdx r)))) s.cSdt := by
  have hc := h.common
  have hva := hc.rd_raR h.pwV
  have hvb := hc.rd_rbR h.pwV (by simp [h.st])
  rw [show raR r = field r.exW 16 4 by simp [raR, hmul]] at hva
  rw [show rbR r = field r.exW 0 4 by simp [rbR, hmul, hrs, h.st]] at hvb
  simp only [Arm7DI.cSdt, hk, hop, hva, hvb, if_true, hc.userFlag, hc.cpsr, bit_psr32_c]
  refine (h.setX _).fetchSim fun a => ?_
  set va := portA r (mem (raIdx r))
  set vb := portB r (mem (rbIdx r))
  have hsum : sum r va vb = if bit r.exW 23 then va + off r vb else va - off r vb :=
    sum_offset (by simp [addIn, h.st, hsdt]; rfl)
  have hoff : off r vb = if bit r.exW 25 then
        (shiftImm vb (field r.exW 5 2) (field r.exW 7 5).toNat r.psr.c).1
      else r.exW &&& 0xFFF := by
    rw [off, shO, shift_reg h.st (by simp [hdp]), and_FFF]
  rw [← hoff, ← hsum]
  refine ⟨?_, by simp [sdtArm], by simp [sdtArm, busReq_eq, CycleType.isMem, St.isMem],
    by simp [sdtArm, InFlightSim, h.st, h.pwV, hq]; rfl⟩
  constructor <;> simp [sdtArm, pcp4, h.st, h.pwV, hc.stages, hc.carry, hc.pc, hc.cpsr, hc.ex,
    hc.de, hc.dab, hc.inReset, hc.resetExit, hc.gpr_eq h.pwV]
  exact hc.spsr

/-- The start address. -/
lemma ad2_bdt (hbr : isBr r.exW = false) (va : Word) : ad2 r va =
    if bit r.exW 23 then (if bit r.exW 24 then va + 4 else va)
    else if bit r.exW 24 then va - Arm7DI.listBytes r.exW
    else va - Arm7DI.listBytes r.exW + 4 := by
  simp only [ad2, hbr, Bool.false_eq_true, if_false, soff, bytes_eq, bU, bP]
  generalize Arm7DI.listBytes r.exW = b
  rcases Bool.eq_false_or_eq_true (bit r.exW 23) with hU | hU <;>
    rcases Bool.eq_false_or_eq_true (bit r.exW 24) with hP | hP <;>
    simp only [hU, hP, if_true, if_false, Bool.false_eq_true] <;> bv_omega

lemma bdt_sim (h : Begun r mem s) (hq : s.seq = .bdt) (hk : s.k = 0) (hop : s.x.op = r.exW)
    (hbdt : isBdt r.exW = true) (hmul : isMul r.exW = false) (hsdt : isSdt r.exW = false) (hbr : isBr r.exW = false) (vb : Word) :
    ArmSim r mem (bdtArm r (portA r (mem (raIdx r))) vb) s.cBdt := by
  have hc := h.common
  have hva := hc.rd_raR h.pwV
  rw [show raR r = field r.exW 16 4 by simp [raR, hmul]] at hva
  simp only [Arm7DI.cBdt, Arm7DI.cBdtStart, hk, hop, hva, if_true]
  refine (h.setX _).fetchSim fun a => ?_
  set va := portA r (mem (raIdx r))
  have hlist := isRest_self (Arm7DI.effList_ne_zero r.exW)
  have hsum : sum r va vb = if bit r.exW 23 then va + Arm7DI.listBytes r.exW else va - Arm7DI.listBytes r.exW :=
    sum_offset (by simp [addIn, h.st, hsdt, hbdt, bytes_eq])
  refine ⟨?_, by simp [bdtArm], by simp [bdtArm, busReq_eq, CycleType.isMem, St.isMem], ?_⟩
  · constructor <;> simp [bdtArm, pcp4, h.st, hc.stages, hc.carry, hc.pc, hc.cpsr, hc.ex,
      hc.de, hc.dab, hc.inReset, hc.resetExit, hc.gpr_eq h.pwV]
    exact hc.spsr
  · simp [bdtArm, InFlightSim, h.st, hq, ad2_bdt hbr]
    refine ⟨?_, hlist⟩
    constructor <;> simp [hsum, Arm7DI.effList, Rtl.list]

/-- Control bits are protected in user mode. -/
lemma mask_user (f c u : Bool) :
    (if u = true then (maskIf f 0xF0000000 ||| maskIf c 0x000000DF) &&& (0xF0000000 : Word)
      else maskIf f 0xF0000000 ||| maskIf c 0x000000DF) =
      maskIf f 0xF0000000 ||| maskIf (c && !u) 0x000000DF := by
  cases f <;> cases c <;> cases u <;> rfl

lemma psr_sim (h : Begun r mem s) (hop : s.x.op = r.exW) (hd : dpsp r.exW = true)
    (hmul : isMul r.exW = false) (hrs : dpRs r.exW = false) :
    ArmSim r mem (psrArm r (portB r (mem (rbIdx r)))) s.cPsr := by
  have hc := h.common
  have hvb := hc.rd_rbR h.pwV (by simp [h.st])
  rw [show rbR r = field r.exW 0 4 by simp [rbR, hmul, hrs, h.st]] at hvb
  have hu : modeOf s.cpsr = mUsr ↔ umode r = true := by rw [hc.mode, umode, beq_iff_eq]
  set vb := portB r (mem (rbIdx r))
  simp only [Arm7DI.cPsr, hop]
  rcases Bool.eq_false_or_eq_true (bit r.exW 21) with hW | hW
  · have hsrc : (if bit r.exW 25 = true then ror32 (r.exW &&& 0xFF) (2 * (field r.exW 8 4).toNat)
        else s.rd (field r.exW 0 4) s.pc) = msrSrc r vb := by
      rw [hvb, msrSrc]
      rcases Bool.eq_false_or_eq_true (bit r.exW 25) with hi | hi
      · rw [if_pos hi, if_pos hi, shO, shift_imm h.st hi hd]
      · simp [hi]
    simp only [hW, hsrc, Bool.not_true, Bool.false_eq_true, if_false]
    refine h.fetchSim fun a => ?_
    rcases Bool.eq_false_or_eq_true (bit r.exW 22) with hP | hP
    · by_cases hb : bank r = .usr
      · refine ⟨?_, by simp [psrArm, hW, hP, hb, hc.bank_eq, Arm7DI.setSpsrCur],
          by simp [psrArm, hW, hP, hb, busReq_eq, CycleType.isMem, St.isMem],
          by simp [psrArm, hW, hP, hb, InFlightSim, h.pwV]⟩
        constructor <;> simp [psrArm, hW, hP, hb, hc.bank_eq, Arm7DI.setSpsrCur, pcp4, h.st, h.pwV, hc.stages,
          hc.carry, hc.pc, hc.cpsr, hc.de, hc.dab, hc.inReset, hc.resetExit, hc.gpr_eq h.pwV]
        exact hc.spsr
      · refine ⟨?_, by simp [psrArm, hW, hP, hb, hc.bank_eq, Arm7DI.setSpsrCur],
          by simp [psrArm, hW, hP, hb, busReq_eq, CycleType.isMem, St.isMem],
          by simp [psrArm, hW, hP, hb, InFlightSim, h.pwV]⟩
        constructor <;> simp [psrArm, hW, hP, hb, hc.bank_eq, Arm7DI.setSpsrCur, pcp4, h.st, h.pwV, hc.stages,
          hc.carry, hc.pc, hc.cpsr, hc.de, hc.dab, hc.inReset, hc.resetExit, hc.gpr_eq h.pwV]
        refine spsr_update hc.spsr _ ?_
        have hsp : msrSpsr r vb = (r.spsr (bank r)).msr (bit r.exW 19) (bit r.exW 16) (msrSrc r vb) := by
          rw [← show Rtl.spsrCur r = r.spsr (bank r) from if_neg hb]
          rfl
        rw [hsp, hc.spsr _ hb]
        exact psr32_msr _ _ _
    · refine ⟨?_, by simp [psrArm, hW, hP],
          by simp [psrArm, hW, hP, busReq_eq, CycleType.isMem, St.isMem],
          by simp [psrArm, hW, hP, InFlightSim, h.pwV]⟩
      constructor <;> simp [psrArm, hW, hP, pcp4, h.st, h.pwV, hc.stages,
          hc.carry, hc.pc, hc.cpsr, hc.de, hc.dab, hc.inReset, hc.resetExit, hc.gpr_eq h.pwV]
      case spsr => exact hc.spsr
      case cpsr =>
        have hmask := mask_user (bit r.exW 19) (bit r.exW 16) (umode r)
        simp only [umode, beq_iff_eq] at hmask
        refine Eq.trans ?_ (psr32_msr (bit r.exW 19) (msrC r) (msrSrc r vb))
        rw [show msrC r = (bit r.exW 16 && !(r.psr.m == mUsr)) from rfl, ← hmask]
        rfl
  · have hv : (if bit r.exW 22 = true then s.spsrCur else s.cpsr) =
        if bit r.exW 22 = true then psr32 (Rtl.spsrCur r) else psr32 r.psr := by
      rw [hc.spsrCur_eq, hc.cpsr]
    simp only [hW, hv, Bool.not_false, if_true]
    by_cases h15 : field r.exW 12 4 = 15
    · rw [if_pos h15]
      have h15' : field r.exW 12 4 = 15#4 := h15
      refine h.fetchSim fun a => ?_
      refine ⟨?_, by simp [psrArm, hW, h15'],
          by simp [psrArm, hW, h15', busReq_eq, CycleType.isMem, St.isMem],
          ?_⟩
      · constructor <;> simp [psrArm, hW, h15', pcp4, h.st, h.pwV, hc.stages, hc.ex,
          hc.carry, hc.pc, hc.cpsr, hc.de, hc.dab, hc.inReset, hc.resetExit, hc.gpr_eq h.pwV]
        exact hc.spsr
      · simp [psrArm, hW, h15', InFlightSim, h.pwV]
        rfl
    · rw [if_neg h15]
      have h15' : ¬ field r.exW 12 4 = 15#4 := h15
      refine h.fetchSim fun a => ?_
      refine ⟨?_, by simp [psrArm, hW, h15'],
          by simp [psrArm, hW, h15', busReq_eq, CycleType.isMem, St.isMem],
          by simp [psrArm, hW, h15', InFlightSim, h.pwV]⟩
      constructor <;> simp [psrArm, hW, h15', pcp4, h.st, h.pwV, hc.stages,
          hc.carry, hc.pc, hc.cpsr, hc.de, hc.dab, hc.inReset, hc.resetExit]
      case spsr => exact hc.spsr
      case gpr =>
        rw [hc.bank_eq]
        exact gpr_update (hc.gpr_eq h.pwV) h15 _ _

lemma dp_single_sim (h : Begun r mem s) (hk : s.k = 0) (hop : s.x.op = r.exW)
    (hdp : isDp r.exW = true) (hmul : isMul r.exW = false) (hrs : dpRs r.exW = false)
    (hsdt : isSdt r.exW = false) (hbdt : isBdt r.exW = false) :
    ArmSim r mem (dpArm r (portA r (mem (raIdx r))) (portB r (mem (rbIdx r)))) s.cDp := by
  have hc := h.common
  have hd : dpsp r.exW = true := by rw [isDp, Bool.and_eq_true] at hdp; exact hdp.1
  have hva := hc.rd_raR h.pwV
  have hvb := hc.rd_rbR h.pwV (by simp [h.st])
  rw [show raR r = field r.exW 16 4 by simp [raR, hmul]] at hva
  rw [show rbR r = field r.exW 0 4 by simp [rbR, hmul, hrs, h.st]] at hvb
  have hreg : Arm7DI.regShift s.x.op = false := by
    rw [hop, ← hrs, dpRs, hdp, Bool.true_and, Arm7DI.regShift]
  rw [Arm7DI.cDp_single hk hreg]
  refine (h.setX _).fetchSim fun a => ?_
  rw [hop, hva]
  set va := portA r (mem (raIdx r))
  set vb := portB r (mem (rbIdx r))
  have hoperand : s.dpOperand r.exW (bit s.cpsr 29) = shift r vb := by
    rw [Arm7DI.dpOperand, hc.cpsr, bit_psr32_c]
    rcases Bool.eq_false_or_eq_true (bit r.exW 25) with hi | hi
    · rw [if_pos hi, shift_imm h.st hi hd]
    · rw [shift_reg h.st (by simp [hi]), hvb]
      simp [hi]
  rw [hoperand]
  set t := ((s.setX { s.x with cin := bit s.cpsr 29 }).sampled a
    (Arm7DI.dpNext r.exW)).capture ⟨a.rdata, a.abort⟩ with ht
  have htop : t.x.op = r.exW := by simp [ht, hop]
  have halu : t.dpValue va (shift r vb).1 (shift r vb).2 =
      (dpRes r va vb, dpC r va vb, dpV r va vb) := by
    rw [← dpAlu_eq (by simp [h.st]) (by simp [hsdt]) (by simp [hbdt]), Arm7DI.dpValue, htop]
    simp [ht, hc.cpsr, dpCin, h.st, shO, Rtl.shC, opc]
  have hcap := (h.setX { s.x with cin := bit s.cpsr 29 }).captured a (Arm7DI.dpNext r.exW)
  refine ⟨dpTail_common (by simp [h.st]) hcap h.pwV rfl rfl rfl rfl htop halu, ?_, dpTail_type.2,
    dpTail_inFlight h.pwV htop halu⟩
  rw [dpArm, dpTail_type.1]
  simp [ht]

lemma dp_amount_sim (h : Begun r mem s) (hq : s.seq = .dp) (hk : s.k = 0) (hop : s.x.op = r.exW)
    (hdp : isDp r.exW = true) (hrs : dpRs r.exW = true) :
    ArmSim r mem (dpRsArm r (portB r (mem (rbIdx r)))) s.cDp := by
  have hc := h.common
  have hvb := hc.rd_rbR h.pwV (by simp [h.st])
  rw [show rbR r = field r.exW 8 4 by simp [rbR, hrs, h.st]] at hvb
  have hreg : Arm7DI.regShift s.x.op = true := by
    rw [hop, ← hrs, dpRs, hdp, Bool.true_and, Arm7DI.regShift]
  rw [Arm7DI.cDp_amount hk hreg]
  refine (h.setX _).fetchSim fun a => ?_
  rw [hop, hvb]
  refine ⟨?_, by simp [dpRsArm], by simp [dpRsArm, busReq_eq, CycleType.isMem, St.isMem],
    by simp [dpRsArm, InFlightSim, h.st, h.pwV, hq, hop, hrs, hc.cpsr, setWidth_eq_field]⟩
  constructor <;> simp [dpRsArm, pcp4, h.st, h.pwV, hc.stages, hc.carry, hc.pc, hc.cpsr, hc.ex,
    hc.de, hc.dab, hc.inReset, hc.resetExit, hc.gpr_eq h.pwV]
  exact hc.spsr

/-! ### The instruction -/

/-- The class of a word settles what the other predicates of the decoder say. -/
lemma classes (w : Word) :
    (dpsp w = true → isMul w = false ∧ isSdt w = false ∧ isBdt w = false ∧ isSwi w = false) ∧
    (isMul w = true → isSwi w = false) ∧ (isSwp w = true → isMul w = false ∧ isSwi w = false) ∧
    (isSdt w = true → isMul w = false ∧ dpsp w = false ∧ isSwi w = false) ∧
    (isBdt w = true → isMul w = false ∧ isSdt w = false ∧ isBr w = false ∧ isSwi w = false) ∧
    (isBr w = true → isSwi w = false) := by
  rcases Arm7DI.class_cases (c3 w) with h | h | h | h | h | h | h | h <;>
    simp [h, isMul, isSwp, isSdt, isBdt, isBr, isSwi, dpsp, space]
  cases bit w 7 <;> cases bit w 4 <;> cases swpDoc w <;> simp

/-- What the boundary state does with the instruction word. -/
def insArm (r : CoreRegs) (va vb : Word) : Comb :=
  if cond r && isSwi r.exW then entryArm r 0x08 mSvc false
  else if !cond r then skipArm r
  else if isDp r.exW && dpRs r.exW then dpRsArm r vb
  else if isDp r.exW then dpArm r va vb
  else if isPsr r.exW then psrArm r vb
  else if isMul r.exW then mulArm r va vb
  else if isSwp r.exW then swpArm r va
  else if isSdt r.exW then sdtArm r va vb
  else if isBdt r.exW then bdtArm r va vb
  else if isBr r.exW then brArm r va
  else undArm r

lemma decode_sim (h : Begun r mem s) (hk : s.k = 0) :
    ArmSim r mem (insArm r (portA r (mem (raIdx r))) (portB r (mem (rbIdx r))))
      (s.decode r.exW).sequence := by
  obtain ⟨hcdp, hcmul, hcswp, hcsdt, hcbdt, hcbr⟩ := classes r.exW
  rw [Arm7DI.decode_eq]
  have hcond : (s.setX { s.x with op := r.exW }).condPass r.exW = cond r :=
    (h.setX _).common.condPass_eq
  have ht := h.setX { s.x with op := r.exW }
  have htk : (s.setX { s.x with op := r.exW }).k = 0 := hk
  have hop : (s.setX { s.x with op := r.exW }).x.op = r.exW := rfl
  obtain ⟨t, hteq⟩ : ∃ t, t = s.setX { s.x with op := r.exW } := ⟨_, rfl⟩
  rw [← hteq] at hcond ht htk hop ⊢
  dsimp only
  rw [hcond, seqOf_eq, insArm]
  rcases Bool.eq_false_or_eq_true (cond r) with hcd | hcd
  swap
  · simp only [hcd, Bool.false_and, Bool.not_false, Bool.false_eq_true, if_true, if_false]
    exact skip_sim (ht.setSeq _)
  simp only [hcd, Bool.true_and, Bool.not_true, Bool.false_eq_true, if_true, if_false]
  rcases Bool.eq_false_or_eq_true (isDp r.exW) with hdp | hdp
  · have hd : dpsp r.exW = true := by rw [isDp, Bool.and_eq_true] at hdp; exact hdp.1
    obtain ⟨hmul, hsdt, hbdt, hswi⟩ := hcdp hd
    rcases Bool.eq_false_or_eq_true (dpRs r.exW) with hrs | hrs
    · simp [hdp, hswi, hrs]
      exact dp_amount_sim (ht.setSeq _) rfl htk hop hdp hrs
    · simp [hdp, hswi, hrs]
      exact dp_single_sim (ht.setSeq _) htk hop hdp hmul hrs hsdt hbdt
  have hrs : dpRs r.exW = false := by rw [dpRs, hdp]; rfl
  rcases Bool.eq_false_or_eq_true (isPsr r.exW) with hpsr | hpsr
  · have hd : dpsp r.exW = true := by rw [isPsr, Bool.and_eq_true] at hpsr; exact hpsr.1
    obtain ⟨hmul, -, -, hswi⟩ := hcdp hd
    simp [hdp, hpsr, hswi]
    exact psr_sim (ht.setSeq _) hop hd hmul hrs
  rcases Bool.eq_false_or_eq_true (isMul r.exW) with hmul | hmul
  · simp [hdp, hpsr, hmul, hcmul hmul]
    exact mul_start_sim (ht.setSeq _) rfl htk hop hmul
  rcases Bool.eq_false_or_eq_true (isSwp r.exW) with hswp | hswp
  · simp [hdp, hpsr, hmul, hswp, (hcswp hswp).2]
    exact swp_sim (ht.setSeq _) rfl htk hop hmul
  rcases Bool.eq_false_or_eq_true (isSdt r.exW) with hsdt | hsdt
  · obtain ⟨-, hd, hswi⟩ := hcsdt hsdt
    simp [hdp, hpsr, hmul, hswp, hsdt, hswi]
    exact sdt_sim (ht.setSeq _) rfl htk hop hsdt hmul hd hrs
  rcases Bool.eq_false_or_eq_true (isBdt r.exW) with hbdt | hbdt
  · obtain ⟨-, -, hbr, hswi⟩ := hcbdt hbdt
    simp [hdp, hpsr, hmul, hswp, hsdt, hbdt, hswi]
    exact bdt_sim (ht.setSeq _) rfl htk hop hbdt hmul hsdt hbr _
  rcases Bool.eq_false_or_eq_true (isBr r.exW) with hbr | hbr
  · simp [hdp, hpsr, hmul, hswp, hsdt, hbdt, hbr, hcbr hbr]
    exact br_sim (ht.setSeq .branch) hop hbr _
  rcases Bool.eq_false_or_eq_true (isSwi r.exW) with hswi | hswi
  · simp only [hdp, hpsr, hmul, hswp, hsdt, hbdt, hbr, hswi, Bool.false_eq_true, if_true, if_false]
    exact exc_sim (((ht.setSeq _).setK _).setX _) rfl rfl rfl
  · simp [hdp, hpsr, hmul, hswp, hsdt, hbdt, hbr, hswi]
    exact und_sim (ht.setSeq _) rfl htk

/-! ### The decision -/

/-- From an arm to the whole cycle; `r'` is the state in which what is pending is settled. -/
lemma ArmSim.stepSim {r' : CoreRegs} {c c' : Comb} {d : Drive} (h : ArmSim r' mem c' d)
    (hst : r.st = .bound)
    (hc : boundArm r (portA r (mem (raIdx r))) (portB r (mem (rbIdx r))) l = c)
    (htype : r'.ctype = r.ctype) (hpc : r'.pc = r.pc) (hm : r'.psr.m = r.psr.m)
    (hregs : ∀ rdata ab, c'.regs r' rdata ab = c.regs r rdata ab)
    (hmem : c'.mem r' mem = c.mem r mem) : StepSim r mem l d where
  type := by rw [h.type, htype, busType]
  addr := by simp [h.addr, hpc, busAddr, hst]
  flags := by simp [h.flags, umode, hm, busFlags, hst]
  wdata hw := by simp [h.flags] at hw
  next a rdata hr := by
    simp only [hst, St.isMem, forall_const] at hr
    subst hr
    simp only [comb, hst, St.isMem, Bool.true_and, hc]
    rw [← hregs, ← hmem]
    exact h.next a

/-- The levels the RTL decides on, given to the model before the boundary. -/
def Rtl.Levels.lines (l : Levels) : List Line := [.reset l.hold, .fiq l.fiq, .irq l.irq]

/-- The lines moved, what the RTL has registered of nRESET is up to date. -/
lemma Sim.begun (h : Sim r mem s) (hst : r.st = .bound) (hold fiq irq : Bool) :
    Begun { r with inRst := hold, rstExit := r.rstExit || (r.inRst && !hold) } mem
      (s.poke [.reset hold, .fiq fiq, .irq irq]) := by
  have hc := h.common
  have hpw : r.pwV = false := by
    have := h.inFlight
    rw [InFlightSim, hst] at this
    exact this.2
  have hm := h.isMem_eq
  simp only [Arm7DI.poke, List.foldl, Arm7DI.setLine]
  refine ⟨?_, h.type, ?_, hst, hpw⟩
  · constructor <;> simp [hc.stages, hc.carry, hc.pc, hc.cpsr, hc.ex, hc.de, hc.f1, hc.dab,
      hc.inReset, hc.resetExit, hc.gpr]
    exact hc.spsr
  · simpa [hst, St.isMem] using hm

/-- An exception entry, from the state in which its condition is settled. -/
lemma entry_sim {r' : CoreRegs} {mode : BitVec 5} {setF : Bool} {vector : Word} (vec : BitVec 5)
    (h : Begun r' mem s) (hvec : vector = vec.setWidth 32) :
    ArmSim r' mem (entryArm r' vec mode setF) (s.startExc vector mode setF).sequence :=
  exc_sim (((h.setSeq .exc).setK 0).setX _) hvec rfl rfl

lemma bound_sim (h : Sim r mem s) (hst : r.st = .bound) :
    StepSim r mem l (s.poke l.lines).busCycle := by
  have hc := h.common
  have hseq : s.seq = .idle := by
    have := h.inFlight
    rw [InFlightSim, hst] at this
    exact this.1
  have hb : Begun _ mem (s.poke l.lines) := h.begun hst l.hold l.fiq l.irq
  have hfiq : (s.poke l.lines).fiqSeen = l.fiq := by
    simp [Arm7DI.fiqSeen, hc.stages, Levels.lines, Arm7DI.poke, Arm7DI.setLine]
  have hirq : (s.poke l.lines).irqSeen = l.irq := by
    simp [Arm7DI.irqSeen, hc.stages, Levels.lines, Arm7DI.poke, Arm7DI.setLine]
  rw [Arm7DI.busCycle_idle (by simpa using hseq)]
  obtain ⟨t, ht⟩ : ∃ t, t = s.poke l.lines := ⟨_, rfl⟩
  rw [← ht] at hb hfiq hirq ⊢
  rcases Bool.eq_false_or_eq_true l.hold with hh | hh
  · rw [hh] at hb
    have hin : t.inReset = true := hb.common.inReset
    have hbegin : t.begin = (t.setK 0).setSeq .reset := by
      simp [Arm7DI.begin, hin]
    rw [hbegin]
    exact (hold_sim ((hb.setK 0).setSeq .reset) rfl).stepSim hst (c := holdArm r)
      (by simp [boundArm, dHold, hh]) rfl rfl rfl (fun _ _ => by simp [holdArm, pcp4])
      (by simp [holdArm])
  rw [hh, Bool.not_false, Bool.and_true] at hb
  have hin : t.inReset = false := hb.common.inReset
  have hexit : t.resetExit = (r.rstExit || r.inRst) := hb.common.resetExit
  rcases Bool.eq_false_or_eq_true (r.rstExit || r.inRst) with hx | hx
  · have hrexit : dRexit r l = true := by
      rw [dRexit, hh, Bool.or_comm, hx]; rfl
    have hbegin : t.begin = ((t.setK 0).setResetExit false).startExc 0x00 mSvc true := by
      simp [Arm7DI.begin, hin, hexit, hx]
    have hdab : dDab r l = false := by simp [dDab, hrexit]
    rw [hbegin]
    exact (entry_sim 0x00 ((hb.setK 0).setResetExit false) rfl).stepSim hst (c := excArm r l)
      (by simp [boundArm, dHold, hh, dExc, hrexit]) rfl rfl rfl
      (fun _ _ => by simp [entryArm, excArm, entry, hrexit, hdab])
      (by simp [entryArm, excArm, entry, hrexit, pcm4])
  -- from here on the registered levels are the idle ones
  have hrst : r.rstExit = false ∧ r.inRst = false := by simpa using hx
  have hrexit : dRexit r l = false := by simp [dRexit, hrst]
  have hr : ∀ a b, a = r.inRst → b = r.rstExit → { r with inRst := a, rstExit := b } = r := by
    rintro _ _ rfl rfl
    rfl
  rw [hr false _ hrst.2.symm (by simp [hrst])] at hb
  have hdabt : t.dabortPending = r.dab := hb.common.dab
  have hcpsr : t.cpsr = psr32 r.psr := hb.common.cpsr
  have hex : t.ex = ⟨r.exW, r.exA⟩ := hb.common.ex
  have hfiqSeen : (t.setK 0).fiqSeen = l.fiq := hfiq
  have hirqSeen : (t.setK 0).irqSeen = l.irq := hirq
  rcases Bool.eq_false_or_eq_true r.dab with hd | hd
  · have hbegin : t.begin = ((t.setK 0).setDabort false).startExc 0x10 mAbt false := by
      simp [Arm7DI.begin, hin, hexit, hx, hdabt, hd]
    have hdab : dDab r l = true := by simp [dDab, hh, hrexit, hd]
    rw [hbegin]
    exact (entry_sim 0x10 ((hb.setK 0).setDabort false) rfl).stepSim hst (c := excArm r l)
      (by simp [boundArm, dHold, hh, dExc, hdab]) rfl rfl rfl
      (fun _ _ => by simp [entryArm, excArm, entry, hrexit, hdab])
      (by simp [entryArm, excArm, entry, hrexit, hdab, pcm4])
  have hdab : dDab r l = false := by simp [dDab, hd]
  rcases Bool.eq_false_or_eq_true (l.fiq && !r.psr.f) with hf | hf
  · have hbegin : t.begin = (t.setK 0).startExc 0x1C mFiq true := by
      simp [-Arm7DI.startExc, Arm7DI.begin, hin, hexit, hx, hdabt, hd, hfiqSeen, hcpsr, hf]
    have hdfiq : dFiq r l = true := by
      rw [dFiq, hh, hrexit, hd, ← hf]; rfl
    rw [hbegin]
    exact (entry_sim 0x1C (hb.setK 0) rfl).stepSim hst (c := excArm r l)
      (by simp [boundArm, dHold, hh, dExc, hdfiq]) rfl rfl rfl
      (fun _ _ => by simp [entryArm, excArm, entry, hrexit, hdab, hdfiq])
      (by simp [entryArm, excArm, entry, hrexit, hdab, hdfiq, pcm4])
  have hdfiq : dFiq r l = false := by
    rw [dFiq, Bool.and_assoc _ l.fiq, hf, Bool.and_false]
  rcases Bool.eq_false_or_eq_true (l.irq && !r.psr.i) with hi | hi
  · have hbegin : t.begin = (t.setK 0).startExc 0x18 mIrq false := by
      simp [-Arm7DI.startExc, Arm7DI.begin, hin, hexit, hx, hdabt, hd, hfiqSeen, hcpsr, hf,
        hirqSeen, hi]
    have hdirq : dIrq r l = true := by
      rw [dIrq, hh, hrexit, hd, hf, Bool.and_assoc _ l.irq, hi]; rfl
    rw [hbegin]
    exact (entry_sim 0x18 (hb.setK 0) rfl).stepSim hst (c := excArm r l)
      (by simp [boundArm, dHold, hh, dExc, hdirq]) rfl rfl rfl
      (fun _ _ => by simp [entryArm, excArm, entry, hrexit, hdab, hdfiq, hdirq])
      (by simp [entryArm, excArm, entry, hrexit, hdab, hdfiq, hdirq, pcm4])
  have hdirq : dIrq r l = false := by
    rw [dIrq, Bool.and_assoc _ l.irq, hi, Bool.and_false]
  rcases Bool.eq_false_or_eq_true r.exA with ha | ha
  · have hbegin : t.begin = (t.setK 0).startExc 0x0C mAbt false := by
      simp [-Arm7DI.startExc, Arm7DI.begin, hin, hexit, hx, hdabt, hd, hfiqSeen, hcpsr, hf,
        hirqSeen, hi, hex, ha]
    have hdpab : dPab r l = true := by
      rw [dPab, hh, hrexit, hd, hf, hi, ha]; rfl
    rw [hbegin]
    exact (entry_sim 0x0C (hb.setK 0) rfl).stepSim hst (c := excArm r l)
      (by simp [boundArm, dHold, hh, dExc, hdpab]) rfl rfl rfl
      (fun _ _ => by simp [entryArm, excArm, entry, hrexit, hdab, hdfiq, hdirq, hdpab])
      (by simp [entryArm, excArm, entry, hrexit, hdab, hdfiq, hdirq, hdpab, pcm4])
  have hdpab : dPab r l = false := by rw [dPab, ha, Bool.and_false]
  have hdins : dIns r l = true := by rw [dIns, hh, hrexit, hd, hf, hi, ha]; rfl
  have hbegin : t.begin = (t.setK 0).decode r.exW := by
    simp [-Arm7DI.startExc, Arm7DI.begin, hin, hexit, hx, hdabt, hd, hfiqSeen, hcpsr, hf,
      hirqSeen, hi, hex, ha]
  have hins := decode_sim (hb.setK 0) rfl
  rw [hbegin]
  rcases Bool.eq_false_or_eq_true (cond r && isSwi r.exW) with hs | hs
  · rw [insArm, if_pos hs] at hins
    have hdswi : dSwi r l = true := by rw [dSwi, hdins, Bool.true_and, hs]
    exact hins.stepSim hst (c := excArm r l)
      (by simp [boundArm, dHold, hh, dExc, hdswi]) rfl rfl rfl
      (fun _ _ => by simp [entryArm, excArm, entry, hrexit, hdab, hdfiq, hdirq, hdpab])
      (by simp [entryArm, excArm, entry, hrexit, hdab, hdfiq, hdirq, hdpab])
  · rw [insArm, hs] at hins
    have hdexc : dExc r l = false := by
      have hdswi : dSwi r l = false := by rw [dSwi, hdins, Bool.true_and, hs]
      simp [dExc, hrexit, hdab, hdfiq, hdirq, hdpab, hdswi]
    exact hins.stepSim hst (by simp only [boundArm, dHold, hh, hdexc, Bool.false_eq_true, if_false])
      rfl rfl rfl (fun _ _ => rfl) rfl

end Wren7
