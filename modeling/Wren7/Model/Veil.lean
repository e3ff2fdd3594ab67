import Mathlib.Tactic.IntervalCases
import Wren7.Model.Instr

/-!
# What user mode cannot reach

`veil` replaces the banked registers of the other modes and the SPSRs. In user mode every sequencer
commutes with it, but for those of the exception entries, and leaves the control bits of the CPSR.
-/

namespace Wren7

open Bits Reactive

/-- The I, F and mode bits. -/
def psrControl : Word := psrI ||| psrF ||| psrM

namespace Arm7DI

/-- The state with other registers out of the reach of user mode: R8 to R14 of the other banks and the
SPSRs. -/
@[simps -fullyApplied]
def veil (s : Arm7DI) (g : Fin 31 → Word) (p : Bank → Word) : Arm7DI :=
  { s with gpr := fun i => if i.val < 15 then s.gpr i else g i, spsr := p }

/-- The control bits of the CPSR. -/
def control (s : Arm7DI) : Word := s.cpsr &&& psrControl

/-- The core is in user mode, and a transfer in progress was begun there. -/
structure User (s : Arm7DI) : Prop where
  mode : modeOf s.cpsr = mUsr
  transfer : s.seq = .sdt → s.k ≠ 0 → s.x.bf.user = true
  block : s.seq = .bdt → s.k ≠ 0 → s.x.r ≤ 16

variable {s t u : Arm7DI} {g : Fin 31 → Word} {p : Bank → Word}

/-! ### The veil -/

lemma phys_usr_lt (r : Reg) (hr : r ≠ 15) : (phys r .usr).val < 15 := by
  revert r
  decide

lemma veil_self (s : Arm7DI) : s.veil s.gpr s.spsr = s := by
  cases s
  simp [veil]

lemma veil_bank : (s.veil g p).bank = s.bank := rfl

lemma veil_wrBank (r : Reg) (w : Word) :
    (u.veil g p).wrBank r .usr w = (u.wrBank r .usr w).veil g p := by
  unfold wrBank veil
  congr 1
  funext i
  by_cases hr : r = 15
  · simp only [if_pos hr]
  · simp only [if_neg hr, Function.update_apply]
    split_ifs with hi h15
    · rfl
    · exact absurd (hi ▸ phys_usr_lt r hr) h15
    · rfl
    · rfl

section Reads

variable (hb : u.bank = .usr)

include hb

lemma veil_rd (r : Reg) (v : Word) : (u.veil g p).rd r v = u.rd r v := by
  unfold rd
  by_cases hr : r = 15
  · rw [if_pos hr, if_pos hr]
  · rw [if_neg hr, if_neg hr, veil_bank, hb]
    exact if_pos (phys_usr_lt r hr)

lemma veil_wr (r : Reg) (w : Word) : (u.veil g p).wr r w = (u.wr r w).veil g p := by
  unfold wr
  rw [veil_bank, hb, veil_wrBank]

lemma veil_spsrCur : (u.veil g p).spsrCur = u.spsrCur := by
  rw [spsrCur, spsrCur, veil_bank, if_pos hb, if_pos hb]
  rfl

lemma veil_restored : (u.veil g p).restored = u.restored := by
  rw [restored, restored, veil_bank, if_pos hb, if_pos hb]
  rfl

lemma veil_dpOperand (op : Word) (c : Bool) : (u.veil g p).dpOperand op c = u.dpOperand op c := by
  unfold dpOperand
  rw [veil_rd hb]
  rfl

end Reads

/-! ### The control bits -/

section Control

/-- A PSR value without control bits. -/
def FlagsOnly (w : Word) : Prop := w &&& psrControl = 0

instance (w : Word) : Decidable (FlagsOnly w) := inferInstanceAs (Decidable (_ = _))

lemma FlagsOnly.and {m : Word} (h : FlagsOnly m) (w : Word) : FlagsOnly (w &&& m) := by
  rw [FlagsOnly, BitVec.and_assoc, h]
  exact BitVec.and_zero

lemma FlagsOnly.maskIf {m : Word} (h : FlagsOnly m) (c : Bool) : FlagsOnly (maskIf c m) := by
  cases c
  · exact BitVec.zero_and
  · exact h

lemma control_keep {m : Word} (hm : m &&& psrControl = psrControl) (w : Word) :
    (w &&& m) &&& psrControl = w &&& psrControl := by
  rw [BitVec.and_assoc, hm]

lemma control_or {w f : Word} (hf : FlagsOnly f) : (w ||| f) &&& psrControl = w &&& psrControl := by
  rw [BitVec.and_comm, BitVec.and_or_distrib_left, BitVec.and_comm, BitVec.and_comm psrControl f, hf]
  exact BitVec.or_zero

/-- A masked write outside the control bits. -/
lemma control_write {w v m : Word} (hm : FlagsOnly m) :
    (((w &&& ~~~m) ||| (v &&& m)) &&& psrImpl) &&& psrControl = w &&& psrControl := by
  have hnot : ~~~m &&& psrControl = psrControl := by
    have h : m &&& psrControl ||| ~~~m &&& psrControl = psrControl := by
      rw [BitVec.and_comm, BitVec.and_comm (~~~m), ← BitVec.and_or_distrib_left, BitVec.or_not_self,
        BitVec.and_allOnes]
    rw [hm] at h
    exact BitVec.zero_or.symm.trans h
  rw [control_keep (by decide), control_or (hm.and v), control_keep hnot]

lemma modeOf_control (h : t.control = s.control) : modeOf t.cpsr = modeOf s.cpsr := by
  have hm : ∀ w : Word, modeOf w = modeOf (w &&& psrControl) := fun w => by
    apply BitVec.eq_of_getLsbD_eq
    intro i hi
    interval_cases i <;> simp [modeOf, field, psrControl, psrI, psrF, psrM]
  rw [hm t.cpsr, hm s.cpsr]
  exact congrArg modeOf h

end Control

/-! ### Work on the state -/

/-- Work in user mode that does not look behind the veil and leaves the control bits. -/
structure Private (g : Fin 31 → Word) (p : Bank → Word) (K : Arm7DI → Arm7DI) : Prop where
  veil : ∀ u, modeOf u.cpsr = mUsr → K (u.veil g p) = (K u).veil g p
  control : ∀ u, modeOf u.cpsr = mUsr → (K u).control = u.control

section Work

variable {K L : Arm7DI → Arm7DI}

lemma Private.comp (h : Private g p K) (h' : Private g p L) : Private g p fun u => L (K u) := by
  have hmode : ∀ u, modeOf u.cpsr = mUsr → modeOf (K u).cpsr = mUsr := fun u hu =>
    (modeOf_control (h.control u hu)).trans hu
  exact ⟨fun u hu => by rw [h.veil u hu, h'.veil _ (hmode u hu)],
    fun u hu => (h'.control _ (hmode u hu)).trans (h.control u hu)⟩

/-- Work on the other fields. -/
lemma private_of_frame (h : ∀ u, K (u.veil g p) = (K u).veil g p) (hc : ∀ u, (K u).cpsr = u.cpsr) :
    Private g p K :=
  ⟨fun u _ => h u, fun u _ => congrArg (· &&& psrControl) (hc u)⟩

lemma private_ite {c : Arm7DI → Prop} [∀ u, Decidable (c u)] (hc : ∀ u, c (u.veil g p) ↔ c u)
    (h : Private g p K) (h' : Private g p L) : Private g p fun u => if c u then K u else L u := by
  refine ⟨fun u hu => ?_, fun u hu => ?_⟩
  · by_cases hu' : c u
    · rw [if_pos hu', if_pos ((hc u).mpr hu'), h.veil u hu]
    · rw [if_neg hu', if_neg (mt (hc u).mp hu'), h'.veil u hu]
  · split_ifs
    · exact h.control u hu
    · exact h'.control u hu

lemma private_wr (r : Reg) (w : Word) : Private g p (·.wr r w) :=
  ⟨fun u hu => veil_wr (bank_eq_usr_of_mode u hu) r w, fun _ _ => rfl⟩

lemma private_done : Private g p fun u => u.advance.done :=
  private_of_frame (fun _ => rfl) fun _ => rfl

lemma private_refill (w : Word) : Private g p (·.startRefill w) :=
  private_of_frame (fun _ => rfl) fun _ => rfl

lemma dpCpsr_control (hu : modeOf u.cpsr = mUsr) (a b : Word) (sc : Bool) :
    u.dpCpsr a b sc &&& psrControl = u.cpsr &&& psrControl := by
  unfold dpCpsr
  split_ifs
  · rfl
  · rw [restored, if_pos (bank_eq_usr_of_mode u hu)]
  · rw [control_or (.maskIf (by decide) _), control_or (.maskIf (by decide) _),
      control_or (.maskIf (by decide) _), control_or (.and (by decide) _), control_keep (by decide)]

lemma private_dpFinish (a b : Word) (sc : Bool) : Private g p (·.dpFinish a b sc) := by
  have hveil : ∀ u : Arm7DI, modeOf u.cpsr = mUsr → (u.veil g p).dpCpsr a b sc = u.dpCpsr a b sc := by
    intro u hu
    unfold dpCpsr
    rw [veil_restored (bank_eq_usr_of_mode u hu)]
    rfl
  refine ⟨fun u hu => ?_, fun u hu => ?_⟩
  · have hb := bank_eq_usr_of_mode u hu
    rw [dpFinish_eq, dpFinish_eq, hveil u hu, veil_wr hb]
    simp only [veil_x]
    split_ifs <;> rfl
  · rw [dpFinish_eq]
    split_ifs <;> exact dpCpsr_control hu a b sc

lemma private_mulFlags : Private g p mulFlags := by
  refine ⟨fun u _ => ?_, fun u hu => ?_⟩
  · unfold mulFlags
    rw [veil_x]
    split_ifs <;> rfl
  · unfold mulFlags
    split_ifs
    · change (_ ||| maskIf _ psrC) &&& psrControl = u.cpsr &&& psrControl
      rw [control_or (.maskIf (by decide) _), control_or (.maskIf (by decide) _),
        control_or (.and (by decide) _), control_keep (by decide)]
    · rfl

/-- A Booth step. -/
lemma private_mulStep (k : ℕ) (M : Word) (d : ℤ) : Private g p (·.mulStep k M d) := by
  refine ⟨fun u hu => ?_, fun _ _ => rfl⟩
  have hb := bank_eq_usr_of_mode u hu
  have hacc : ∀ r : Reg, (if r = 15 then u.x.acc else (u.veil g p).gpr (phys r (u.veil g p).bank)) =
      if r = 15 then u.x.acc else u.gpr (phys r u.bank) := fun r => veil_rd hb r u.x.acc
  unfold mulStep
  simp only [veil_x, veil_cpsr, hacc]
  have hwr := fun x w => veil_wr (u := u.setX x) (g := g) (p := p) hb (field u.x.op 16 4) w
  exact hwr _ _

lemma private_msrWrite (f : Bool) (v m : Word) : Private g p (·.msrWrite f v m) := by
  refine ⟨fun u hu => ?_, fun u hu => ?_⟩
  · have hb := bank_eq_usr_of_mode u hu
    unfold msrWrite setSpsrCur
    rw [veil_bank, veil_cpsr, if_pos hb, if_pos hb, if_pos hu]
    split_ifs <;> rfl
  · have hb := bank_eq_usr_of_mode u hu
    unfold msrWrite setSpsrCur
    rw [if_pos hb, if_pos hu]
    split_ifs
    · rfl
    · exact control_write (.and (by decide) m)

lemma private_swpEnd (op : Word) : Private g p (·.swpEnd op) :=
  private_ite (c := fun u => u.x.ab = true) (fun _ => Iff.rfl)
    (private_of_frame (fun _ => rfl) fun _ => rfl)
    ⟨fun u hu => veil_wr (bank_eq_usr_of_mode u hu) _ _, fun _ _ => rfl⟩

lemma private_sdtBase (op : Word) : Private g p (·.sdtBase op) :=
  private_ite (c := fun u => u.x.wb = true) (fun _ => Iff.rfl)
    ⟨fun u hu => veil_wr (bank_eq_usr_of_mode u hu) _ _, fun _ _ => rfl⟩
    (private_of_frame (fun _ => rfl) fun _ => rfl)

lemma private_sdtEnd (op : Word) : Private g p (·.sdtEnd op) := by
  refine private_ite (c := fun u => u.x.ab = true) (fun _ => Iff.rfl)
    (private_of_frame (fun _ => rfl) fun _ => rfl)
    (private_ite (c := fun _ => field op 12 4 = 15) (fun _ => Iff.rfl)
      (private_of_frame (fun _ => rfl) fun _ => rfl) ?_)
  refine ⟨fun u hu => ?_, fun _ _ => rfl⟩
  rw [veil_wr (bank_eq_usr_of_mode u hu)]
  rfl

lemma private_wrBase : Private g p wrBase :=
  private_ite (c := fun u => (u.x.first && bit u.x.op 21) = true) (fun _ => Iff.rfl)
    ⟨fun u hu => veil_wr (bank_eq_usr_of_mode u hu) _ _, fun _ _ => rfl⟩
    (private_of_frame (fun _ => rfl) fun _ => rfl)

lemma private_bdtBase : Private g p bdtBase := by
  refine ⟨fun u hu => ?_, fun u hu => ?_⟩
  · rw [bdtBase_eq, bdtBase_eq, private_wrBase.veil u hu]
    rfl
  · rw [bdtBase_eq]
    exact (private_wrBase (g := g) (p := p)).control u hu

lemma private_bdtLoad (w : Word) : Private g p (·.bdtLoad w) := by
  refine private_ite (c := fun u => u.x.ab = true) (fun _ => Iff.rfl)
    (private_of_frame (fun _ => rfl) fun _ => rfl)
    (private_ite (c := fun u => u.x.r = 15) (fun _ => Iff.rfl)
      (private_of_frame (fun _ => rfl) fun _ => rfl)
      (private_ite (c := fun u => u.x.userbank = true) (fun _ => Iff.rfl) ?_ ?_))
  · exact ⟨fun u _ => veil_wrBank _ w, fun _ _ => rfl⟩
  · exact ⟨fun u hu => veil_wr (bank_eq_usr_of_mode u hu) _ w, fun _ _ => rfl⟩

lemma private_bdtAdvance : Private g p bdtAdvance := by
  refine private_of_frame (fun u => ?_) fun u => ?_
  · unfold bdtAdvance bdtLast
    simp only [setK_x, setX_x, veil_x]
    split_ifs <;> rfl
  · unfold bdtAdvance
    dsimp only
    split_ifs <;> rfl

lemma private_bdtEnd (op : Word) : Private g p (·.bdtEnd op) := by
  refine ⟨fun u hu => ?_, fun u hu => ?_⟩
  · have hb := bank_eq_usr_of_mode u hu
    unfold bdtEnd
    rw [veil_x, veil_restored hb]
    split_ifs
    all_goals first | rfl | (rw [veil_wr hb]; rfl)
  · unfold bdtEnd
    rw [restored, if_pos (bank_eq_usr_of_mode u hu)]
    split_ifs <;> rfl

end Work

/-! ### The sequencers -/

/-- A cycle in user mode with the control bits `c`, of a state and of the same behind a veil. -/
structure Isolated (g : Fin 31 → Word) (p : Bank → Word) (c : Word) (d d' : Drive) : Prop where
  bus : d'.bus = d.bus
  next : ∀ a, d'.next a = (d.next a).veil g p
  control : ∀ a, (d.next a).control = c
  user : d.bus.flags.user = true

lemma userFlag_of_mode (h : modeOf s.cpsr = mUsr) : s.userFlag = true := beq_iff_eq.mpr h

section Sequencers

variable {n : CycleType} {addr wdata : Word} {f : BusFlags} {c : Word}

lemma isolated_cyc {K : Word → Arm7DI → Arm7DI} (hu : modeOf s.cpsr = mUsr) (hc : s.control = c)
    (hf : f.user = true) (hK : ∀ w, Private g p (K w)) : Isolated g p c (s.cyc addr f wdata n K) ((s.veil g p).cyc addr f wdata n K) :=
  ⟨rfl, fun a => (hK _).veil (s.sampled a n) hu,
    fun a => ((hK _).control (s.sampled a n) hu).trans hc, hf⟩

lemma isolated_cycle1 {K : Arm7DI → Arm7DI} (hu : modeOf s.cpsr = mUsr) (hc : s.control = c)
    (hK : Private g p K) : Isolated g p c (s.cycle1Fetch n K) ((s.veil g p).cycle1Fetch n K) :=
  isolated_cyc hu hc (userFlag_of_mode hu) fun w =>
    (private_of_frame (K := fun u => u.capture ⟨w, u.lastAbort⟩) (fun _ => rfl) fun _ => rfl).comp hK

variable (hu : modeOf s.cpsr = mUsr)

include hu

lemma isolated_dp : Isolated g p s.control s.cDp (s.veil g p).cDp := by
  have hb := bank_eq_usr_of_mode s hu
  by_cases hk : s.k = 0
  · cases hr : regShift s.x.op with
    | true =>
      rw [cDp_amount hk hr, cDp_amount (s := s.veil g p) hk hr, veil_rd hb]
      exact isolated_cycle1 (s := s.setX _) hu rfl (private_of_frame (fun _ => rfl) fun _ => rfl)
    | false =>
      rw [cDp_single hk hr, cDp_single (s := s.veil g p) hk hr, veil_rd hb, veil_x,
        veil_dpOperand hb]
      exact isolated_cycle1 (s := s.setX _) hu rfl (private_dpFinish _ _ _)
  · rw [cDp_shift hk, cDp_shift (s := s.veil g p) hk]
    refine isolated_cyc hu rfl (userFlag_of_mode hu) fun _ => ⟨fun u hu' => ?_, fun u hu' => ?_⟩
    · rw [veil_rd (bank_eq_usr_of_mode u hu'), veil_rd (bank_eq_usr_of_mode u hu')]
      exact (private_dpFinish _ _ _).veil u hu'
    · exact (private_dpFinish (g := g) (p := p) _ _ _).control u hu'

lemma isolated_psr : Isolated g p s.control s.cPsr (s.veil g p).cPsr := by
  have hb := bank_eq_usr_of_mode s hu
  cases hop : bit s.x.op 21 with
  | false =>
    have hv : (s.veil g p).mrsValue s.x.op = s.mrsValue s.x.op := by
      rw [mrsValue, mrsValue, veil_spsrCur hb]
      rfl
    rw [cPsr_mrs hop, cPsr_mrs (s := s.veil g p) hop, veil_x, hv]
    split_ifs
    · exact isolated_cycle1 hu rfl (private_refill _)
    · exact isolated_cycle1 hu rfl ((private_wr _ _).comp private_done)
  | true =>
    have hv : (s.veil g p).msrSource s.x.op = s.msrSource s.x.op := by
      rw [msrSource, msrSource, veil_rd hb]
      rfl
    rw [cPsr_msr hop, cPsr_msr (s := s.veil g p) hop, veil_x, hv]
    exact isolated_cycle1 hu rfl ((private_msrWrite _ _ _).comp private_done)

lemma isolated_mul : Isolated g p s.control s.cMul (s.veil g p).cMul := by
  have hb := bank_eq_usr_of_mode s hu
  by_cases hk : s.k = 0
  · rw [cMul, cMul, if_pos hk, if_pos (show (s.veil g p).k = 0 from hk)]
    unfold cMulStart
    simp only [veil_x, veil_rd hb, veil_pc]
    refine isolated_cycle1 (s := s.setX _) hu rfl ⟨fun u hu' => ?_, fun _ _ => rfl⟩
    rw [veil_x, veil_wr (bank_eq_usr_of_mode u hu')]
    rfl
  · rw [cMul, cMul, if_neg hk, if_neg (show ¬(s.veil g p).k = 0 from hk)]
    simp only [veil_x, veil_rd hb, veil_pc, veil_k]
    refine isolated_cyc (s := s.setX _) hu rfl (userFlag_of_mode hu) fun _ => ?_
    have hlast : Private g p fun u => if (!(s.k - 1 == s.x.m - 1)) = true then u.setK (u.k + 1)
        else u.mulFlags.advance.done :=
      private_ite (c := fun _ => (!(s.k - 1 == s.x.m - 1)) = true) (fun _ => Iff.rfl)
        (private_of_frame (fun _ => rfl) fun _ => rfl) (private_mulFlags.comp private_done)
    exact (private_mulStep (s.k - 1) _ _).comp hlast

lemma isolated_swp : Isolated g p s.control s.cSwp (s.veil g p).cSwp := by
  have hb := bank_eq_usr_of_mode s hu
  match hk : s.k with
  | 0 =>
    rw [cSwp_start hk, cSwp_start (s := s.veil g p) hk, veil_rd hb]
    exact isolated_cycle1 (s := (s.setK 1).setX _) hu rfl
      (private_of_frame (fun _ => rfl) fun _ => rfl)
  | 1 =>
    rw [cSwp_read hk, cSwp_read (s := s.veil g p) hk]
    exact isolated_cyc (s := s.setK 2) hu rfl (userFlag_of_mode hu) fun _ =>
      private_of_frame (fun _ => rfl) fun _ => rfl
  | 2 =>
    rw [cSwp_write hk, cSwp_write (s := s.veil g p) hk, veil_rd hb]
    exact isolated_cyc (s := s.setK 3) hu rfl (userFlag_of_mode hu) fun _ =>
      private_of_frame (fun _ => rfl) fun _ => rfl
  | k + 3 =>
    have hk3 : 3 ≤ s.k := by omega
    rw [cSwp_end hk3, cSwp_end (s := s.veil g p) hk3]
    exact isolated_cyc (s := s.setK _) hu rfl (userFlag_of_mode hu) fun _ =>
      (private_swpEnd _).comp private_done

lemma isolated_sdt (hbf : s.k ≠ 0 → s.x.bf.user = true) :
    Isolated g p s.control s.cSdt (s.veil g p).cSdt := by
  have hb := bank_eq_usr_of_mode s hu
  by_cases hk : s.k = 0
  · have hcalc : (s.veil g p).sdtCalc s.x.op = s.sdtCalc s.x.op := by
      unfold sdtCalc sdtOffset
      simp only [veil_rd hb, veil_pc, veil_cpsr]
    have haddr : (s.veil g p).sdtAddr s.x.op = s.sdtAddr s.x.op := by
      unfold sdtAddr
      rw [hcalc, veil_rd hb]
      rfl
    rw [cSdt_start hk, cSdt_start (s := s.veil g p) hk, veil_x, hcalc, haddr]
    exact isolated_cycle1 (s := s.setX _) hu rfl (private_of_frame (fun _ => rfl) fun _ => rfl)
  cases hL : bit s.x.op 20 with
  | false =>
    rw [cSdt_store hk hL, cSdt_store (s := s.veil g p) hk hL, veil_rd hb]
    refine isolated_cyc hu rfl (hbf hk) fun _ => ?_
    have hab : Private g p fun u => if u.lastAbort = true then u.setDabort true else u :=
      private_ite (c := fun u => u.lastAbort = true) (fun _ => Iff.rfl)
        (private_of_frame (fun _ => rfl) fun _ => rfl) (private_of_frame (fun _ => rfl) fun _ => rfl)
    exact (hab.comp (private_sdtBase _)).comp private_done
  | true =>
    by_cases hk1 : s.k = 1
    · rw [cSdt_load hk1 hL, cSdt_load (s := s.veil g p) hk1 hL]
      refine isolated_cyc hu rfl (hbf hk) fun w => ?_
      have hdata : Private g p fun u => u.setX { u.x with data := w, ab := u.lastAbort } :=
        private_of_frame (fun _ => rfl) fun _ => rfl
      exact (hdata.comp (private_sdtBase _)).comp
        (private_of_frame (K := fun u => u.setK 2) (fun _ => rfl) fun _ => rfl)
    · have hk2 : 2 ≤ s.k := by omega
      rw [cSdt_end hk2 hL, cSdt_end (s := s.veil g p) hk2 hL]
      exact isolated_cyc hu rfl (userFlag_of_mode hu) fun _ => private_sdtEnd _

lemma veil_bdtStored (hr : s.x.r < 16) : (s.veil g p).bdtStored = s.bdtStored := by
  have hb := bank_eq_usr_of_mode s hu
  unfold bdtStored
  rw [veil_rd hb]
  by_cases h15 : s.x.r = 15
  · rw [if_pos h15, if_pos (show (s.veil g p).x.r = 15 from h15)]
    rfl
  · have hne : BitVec.ofNat 4 s.x.r ≠ 15 := fun h => h15 <| by
      have := congrArg BitVec.toNat h
      rwa [BitVec.toNat_ofNat, Nat.mod_eq_of_lt hr] at this
    have hgpr : (s.veil g p).gpr (phys (BitVec.ofNat 4 s.x.r) .usr) =
        s.gpr (phys (BitVec.ofNat 4 s.x.r) .usr) := if_pos (phys_usr_lt _ hne)
    rw [if_neg h15, if_neg (show ¬(s.veil g p).x.r = 15 from h15), veil_x, hgpr]
    rfl

lemma isolated_bdt (hbl : s.k ≠ 0 → s.x.r ≤ 16) :
    Isolated g p s.control s.cBdt (s.veil g p).cBdt := by
  have hb := bank_eq_usr_of_mode s hu
  by_cases hk : s.k = 0
  · unfold cBdt cBdtStart
    rw [veil_k, if_pos hk, if_pos hk]
    simp only [veil_x, veil_pc, veil_rd hb]
    exact isolated_cycle1 (s := s.setX _) hu rfl (private_of_frame (fun _ => rfl) fun _ => rfl)
  by_cases hr : s.x.r = 16
  · rw [cBdt_final hk hr, cBdt_final (s := s.veil g p) hk hr]
    exact isolated_cyc hu rfl (userFlag_of_mode hu) fun _ => private_bdtEnd _
  unfold cBdt
  rw [veil_k, veil_x, if_neg hk, if_neg hk, if_neg hr, if_neg hr]
  by_cases hL : bit s.x.op 20 = true
  · rw [if_pos hL, if_pos hL]
    exact isolated_cyc hu rfl (userFlag_of_mode hu) fun w =>
      (private_bdtBase.comp (private_bdtLoad w)).comp private_bdtAdvance
  · have hstored := veil_bdtStored (g := g) (p := p) hu (lt_of_le_of_ne (hbl hk) hr)
    rw [if_neg hL, if_neg hL, hstored]
    exact isolated_cyc hu rfl (userFlag_of_mode hu) fun _ =>
      private_bdtBase.comp private_bdtAdvance

lemma isolated_branch : Isolated g p s.control s.cBranch (s.veil g p).cBranch := by
  unfold cBranch
  refine isolated_cycle1 hu rfl ?_
  exact (private_ite (c := fun _ => bit s.x.op 24 = true) (fun _ => Iff.rfl) (private_wr _ _)
    (private_of_frame (fun _ => rfl) fun _ => rfl)).comp (private_refill _)

lemma isolated_refill : Isolated g p s.control s.cRefill (s.veil g p).cRefill := by
  unfold cRefill
  rw [veil_k]
  split_ifs
  · exact isolated_cyc hu rfl (userFlag_of_mode hu) fun _ =>
      private_of_frame (fun _ => rfl) fun _ => rfl
  · exact isolated_cyc hu rfl (userFlag_of_mode hu) fun _ =>
      private_of_frame (fun _ => rfl) fun _ => rfl

omit hu in
/-- Every cycle that is not one of an entry. -/
lemma isolated_sequence (h : User s) (he : s.seq ≠ .exc) (hun : s.seq ≠ .undefTrap) :
    Isolated g p s.control s.sequence (s.veil g p).sequence := by
  have hu := h.mode
  unfold sequence
  rw [veil_seq]
  cases hq : s.seq with
  | reset =>
    exact isolated_cyc hu rfl (userFlag_of_mode hu) fun _ =>
      private_of_frame (fun _ => rfl) fun _ => rfl
  | skip => exact isolated_cycle1 hu rfl (private_of_frame (fun _ => rfl) fun _ => rfl)
  | dp => exact isolated_dp hu
  | psr => exact isolated_psr hu
  | mul => exact isolated_mul hu
  | swp => exact isolated_swp hu
  | sdt => exact isolated_sdt hu (h.transfer hq)
  | bdt => exact isolated_bdt hu (h.block hq)
  | branch => exact isolated_branch hu
  | undefTrap => exact absurd hq hun
  | exc => exact absurd hq he
  | refill => exact isolated_refill hu
  | idle => exact isolated_refill hu

end Sequencers

end Arm7DI

end Wren7
