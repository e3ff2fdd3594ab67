import Wren7.Model.Spec

/-!
# The status registers

The CPSR and the SPSRs never hold a bit that does not exist.
-/

namespace Wren7

open Bits Reactive

/-! ### Implemented bits -/

/-- A PSR value without a bit outside `PSR_IMPL`. -/
def Impl (w : Word) : Prop := w &&& ~~~psrImpl = 0

instance (w : Word) : Decidable (Impl w) := inferInstanceAs (Decidable (_ = _))

variable {a b m : Word}

lemma Impl.or (ha : Impl a) (hb : Impl b) : Impl (a ||| b) := by
  unfold Impl at *
  rw [BitVec.and_comm, BitVec.and_or_distrib_left, BitVec.and_comm, ha, BitVec.and_comm, hb]
  rfl

lemma Impl.and_left (ha : Impl a) (b : Word) : Impl (a &&& b) := by
  unfold Impl at *
  rw [BitVec.and_assoc, BitVec.and_comm b, ← BitVec.and_assoc, ha]
  exact BitVec.zero_and

lemma Impl.and_right (hb : Impl b) (a : Word) : Impl (a &&& b) := by
  rw [BitVec.and_comm]
  exact hb.and_left a

lemma impl_and_psrImpl (a : Word) : Impl (a &&& psrImpl) := Impl.and_right (by decide) a

lemma Impl.maskIf (hm : Impl m) (c : Bool) : Impl (Bits.maskIf c m) := by
  cases c
  · exact (by decide : Impl 0)
  · exact hm

/-- Every mode value is a part of `PSR_M`. -/
lemma impl_mode (mode : BitVec 5) : Impl (mode.setWidth 32) := by
  revert mode
  decide

/-- The bits of an implemented value that a restore keeps are all of them. -/
lemma Impl.and_psrImpl (ha : Impl a) : a &&& psrImpl = a := by
  have h : a &&& psrImpl ||| a &&& ~~~psrImpl = a := by
    rw [← BitVec.and_or_distrib_left, BitVec.or_not_self, BitVec.and_allOnes]
  rw [ha] at h
  exact (BitVec.or_zero).symm.trans h

namespace Arm7DI

/-- All status registers of a state. -/
structure PsrOk (s : Arm7DI) : Prop where
  cpsr : Impl s.cpsr
  spsr : ∀ b, Impl (s.spsr b)

variable {s t : Arm7DI}

lemma PsrOk.congr (h : PsrOk s) (hc : t.cpsr = s.cpsr) (hs : t.spsr = s.spsr) : PsrOk t :=
  ⟨hc ▸ h.cpsr, hs ▸ h.spsr⟩

lemma PsrOk.setX (h : PsrOk s) (x : InFlight) : PsrOk (s.setX x) := h.congr rfl rfl

lemma PsrOk.setK (h : PsrOk s) (k : ℕ) : PsrOk (s.setK k) := h.congr rfl rfl

lemma PsrOk.setCpsr (h : PsrOk s) {v : Word} (hv : Impl v) : PsrOk (s.setCpsr v) := ⟨hv, h.spsr⟩

lemma PsrOk.setSpsr (h : PsrOk s) {b : Bank} {v : Word} (hv : Impl v) : PsrOk (s.setSpsr b v) := by
  refine ⟨h.cpsr, fun b' => ?_⟩
  rw [setSpsr_spsr, Function.update_apply]
  split_ifs
  · exact hv
  · exact h.spsr b'

lemma impl_restored (h : PsrOk s) : Impl s.restored := by
  unfold restored
  split_ifs
  · exact h.cpsr
  · exact impl_and_psrImpl _

lemma impl_dpCpsr (h : PsrOk s) (x y : Word) (sc : Bool) : Impl (s.dpCpsr x y sc) := by
  unfold dpCpsr
  split_ifs
  · exact h.cpsr
  · exact impl_restored h
  · refine ((((h.cpsr.and_left _).or ?_).or ?_).or ?_).or ?_
    · exact Impl.and_right (by decide) _
    all_goals exact Impl.maskIf (by decide) _

lemma PsrOk.dpFinish (h : PsrOk s) (x y : Word) (sc : Bool) : PsrOk (s.dpFinish x y sc) := by
  rw [dpFinish_eq]
  have hc := impl_dpCpsr h x y sc
  split_ifs
  · exact (h.setCpsr hc).congr rfl rfl
  · exact (h.setCpsr hc).congr rfl rfl
  · exact (h.setCpsr hc).congr rfl rfl

lemma PsrOk.mulFlags (h : PsrOk s) : PsrOk s.mulFlags := by
  unfold Arm7DI.mulFlags
  dsimp only
  split_ifs
  · refine h.setCpsr ((((h.cpsr.and_left _).or ?_).or ?_).or ?_)
    · exact Impl.and_right (by decide) _
    all_goals exact Impl.maskIf (by decide) _
  · exact h

lemma PsrOk.msrWrite (h : PsrOk s) (p : Bool) (v mask : Word) : PsrOk (s.msrWrite p v mask) := by
  unfold Arm7DI.msrWrite setSpsrCur
  split_ifs
  · exact h
  · exact h.setSpsr (impl_and_psrImpl _)
  all_goals exact h.setCpsr (impl_and_psrImpl _)

lemma PsrOk.enter (h : PsrOk s) (b : Bank) (mode : BitVec 5) (setF : Bool) (r14 : Word) :
    PsrOk (s.enter b mode setF r14) := by
  have hc : Impl ((s.cpsr &&& ~~~psrM) ||| mode.setWidth 32 ||| psrI ||| maskIf setF psrF) :=
    (((h.cpsr.and_left _).or (impl_mode mode)).or (by decide)).or (Impl.maskIf (by decide) _)
  exact ((h.setSpsr (b := b) h.cpsr).setCpsr hc).congr rfl rfl

/-! ### The sequences -/

/-- Every answer leads to a state with implemented bits only. -/
def PsrDrive (d : Drive) : Prop := ∀ a, PsrOk (d.next a)

variable (h : PsrOk s)

include h

lemma psr_cyc {addr wdata : Word} {f : BusFlags} {next : CycleType} {K : Word → Arm7DI → Arm7DI}
    (hK : ∀ w u, PsrOk u → PsrOk (K w u)) : PsrDrive (s.cyc addr f wdata next K) :=
  fun _ => hK _ _ (h.congr rfl rfl)

lemma psr_cycle1 {next : CycleType} {K : Arm7DI → Arm7DI} (hK : ∀ u, PsrOk u → PsrOk (K u)) :
    PsrDrive (s.cycle1Fetch next K) :=
  fun _ => hK _ (h.congr rfl rfl)

lemma psr_dp : PsrDrive s.cDp := by
  by_cases hk : s.k = 0
  · rcases Bool.eq_false_or_eq_true (regShift s.x.op) with hr | hr
    · rw [cDp_amount hk hr]
      exact psr_cycle1 (h.setX _) fun u hu => hu.congr rfl rfl
    · rw [cDp_single hk hr]
      exact psr_cycle1 (h.setX _) fun u hu => hu.dpFinish _ _ _
  · rw [cDp_shift hk]
    exact psr_cyc h fun _ u hu => hu.dpFinish _ _ _

lemma psr_psr : PsrDrive s.cPsr := by
  cases hop : bit s.x.op 21 with
  | false =>
    rw [cPsr_mrs hop]
    split_ifs <;> exact psr_cycle1 h fun u hu => hu.congr rfl rfl
  | true =>
    rw [cPsr_msr hop]
    exact psr_cycle1 h fun u hu => (hu.msrWrite _ _ _).congr rfl rfl

lemma psr_mul : PsrDrive s.cMul := by
  unfold cMul cMulStart
  split_ifs
  · exact psr_cycle1 (h.setX _) fun u hu => hu.congr rfl rfl
  · refine psr_cyc (h.setX _) fun w u hu => ?_
    have hstep : PsrOk (u.mulStep (s.k - 1) (s.rd (field s.x.op 0 4) s.pc)
        (digit (bit s.x.mul 1) (bit s.x.mul 0) s.x.borrow)) := hu.congr rfl rfl
    dsimp only
    split_ifs
    · exact hstep.congr rfl rfl
    · exact hstep.mulFlags.congr rfl rfl

lemma psr_swp : PsrDrive s.cSwp := by
  match hk : s.k with
  | 0 =>
    rw [cSwp_start hk]
    exact psr_cycle1 ((h.setK 1).setX _) fun u hu => hu
  | 1 =>
    rw [cSwp_read hk]
    exact psr_cyc (h.setK 2) fun _ u hu => hu.congr rfl rfl
  | 2 =>
    rw [cSwp_write hk]
    exact psr_cyc (h.setK 3) fun _ u hu => hu.congr rfl rfl
  | k + 3 =>
    rw [cSwp_end (by omega)]
    refine psr_cyc (h.setK _) fun _ u hu => hu.congr ?_ ?_ <;>
      (unfold swpEnd; split_ifs <;> rfl)

lemma psr_sdt : PsrDrive s.cSdt := by
  by_cases hk : s.k = 0
  · unfold cSdt
    rw [if_pos hk]
    exact psr_cycle1 (h.setX _) fun u hu => hu.congr rfl rfl
  cases hL : bit s.x.op 20 with
  | false =>
    rw [cSdt_store hk hL]
    refine psr_cyc h fun _ u hu => hu.congr ?_ ?_ <;> (unfold sdtBase; split_ifs <;> rfl)
  | true =>
    by_cases hk1 : s.k = 1
    · rw [cSdt_load hk1 hL]
      refine psr_cyc h fun _ u hu => hu.congr ?_ ?_ <;> (unfold sdtBase; split_ifs <;> rfl)
    · rw [cSdt_end (by omega) hL]
      refine psr_cyc h fun _ u hu => hu.congr ?_ ?_ <;> (unfold sdtEnd; split_ifs <;> rfl)

omit h in
lemma PsrOk.bdtEnd (h : PsrOk s) (op : Word) : PsrOk (s.bdtEnd op) := by
  unfold Arm7DI.bdtEnd
  split_ifs
  · exact h.congr rfl rfl
  · exact h.congr rfl rfl
  · exact (h.setCpsr (impl_restored h)).congr rfl rfl
  · exact h.congr rfl rfl
  · exact h.congr rfl rfl

omit h in
lemma PsrOk.bdtBase (h : PsrOk s) : PsrOk s.bdtBase := by
  rw [bdtBase_eq]
  exact h.congr (s.wrBase_field Arm7DI.cpsr fun _ _ _ => rfl)
    (s.wrBase_field Arm7DI.spsr fun _ _ _ => rfl)

omit h in
lemma PsrOk.bdtLoad (h : PsrOk s) (w : Word) : PsrOk (s.bdtLoad w) := by
  unfold Arm7DI.bdtLoad
  split_ifs <;> exact h.congr rfl rfl

omit h in
lemma PsrOk.bdtAdvance (h : PsrOk s) : PsrOk s.bdtAdvance := by
  unfold Arm7DI.bdtAdvance
  dsimp only
  split_ifs <;> exact h.congr rfl rfl

lemma psr_bdt : PsrDrive s.cBdt := by
  by_cases hk : s.k = 0
  · unfold cBdt cBdtStart
    rw [if_pos hk]
    exact psr_cycle1 (h.setX _) fun u hu => hu.congr rfl rfl
  by_cases hr : s.x.r = 16
  · rw [cBdt_final hk hr]
    exact psr_cyc h fun _ u hu => hu.bdtEnd _
  unfold cBdt
  rw [if_neg hk, if_neg hr]
  by_cases hL : bit s.x.op 20 = true
  · rw [if_pos hL]
    exact psr_cyc h fun w u hu => (hu.bdtBase.bdtLoad w).bdtAdvance
  · rw [if_neg hL]
    exact psr_cyc h fun _ u hu => hu.bdtBase.bdtAdvance

lemma psr_undef : PsrDrive s.cUndef := by
  unfold cUndef
  split_ifs
  · exact psr_cyc (h.setX _) fun _ u hu => hu.congr rfl rfl
  · exact psr_cyc h fun _ u hu => (hu.enter .und mUnd false (s.x.addr - 4)).congr rfl rfl

lemma psr_refill : PsrDrive s.cRefill := by
  unfold cRefill
  split_ifs <;> exact psr_cyc h fun _ u hu => hu.congr rfl rfl

lemma psr_branch : PsrDrive s.cBranch := by
  unfold cBranch
  refine psr_cycle1 h fun u hu => hu.congr ?_ ?_ <;> (dsimp only; split_ifs <;> rfl)

lemma psr_exc : PsrDrive s.cExc := by
  unfold cExc
  exact psr_cyc h fun _ u hu =>
    (hu.enter (bankOf u.x.mode) u.x.mode u.x.setF (s.pc - 4)).congr rfl rfl

lemma psr_sequence : PsrDrive s.sequence := by
  unfold sequence
  split
  · exact psr_cyc h fun _ u hu => hu.congr rfl rfl
  · exact psr_cycle1 h fun u hu => hu.congr rfl rfl
  · exact psr_dp h
  · exact psr_psr h
  · exact psr_mul h
  · exact psr_swp h
  · exact psr_sdt h
  · exact psr_bdt h
  · exact psr_branch h
  · exact psr_undef h
  · exact psr_exc h
  · exact psr_refill h

omit h in
theorem psrOk_after (stages : ℕ) (carry : MulCarry) (inp : ℕ → Input) (n : ℕ) :
    PsrOk (core.after (powerOn stages carry) inp n) := by
  refine Machine.invariant ⟨(by decide : Impl (mSvc.setWidth 32 ||| psrI ||| psrF)),
    fun _ => (by decide : Impl 0)⟩ (fun n h => ?_) n
  exact psr_sequence (h.congr (by simp) (by simp)) _

end Arm7DI

end Wren7
