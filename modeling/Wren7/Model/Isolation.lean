import Wren7.Model.Veil

/-!
# User mode

Until the next entry a program in user mode can neither read nor change the banked registers of the
other modes and the SPSRs, and not the control bits of the CPSR.
-/

namespace Wren7

open Bits Reactive

namespace Arm7DI

variable {s t u : Arm7DI} {g : Fin 31 → Word} {p : Bank → Word}

/-! ### What a cycle leaves in flight -/

/-- The sequence goes on, is over, or ends with the refill of the pipeline. -/
def Leads (q : Seq) (t : Arm7DI) : Prop := t.seq = q ∨ t.seq = .idle ∨ t.seq = .refill

variable {a : Answer}

lemma leads_dpFinish {q : Seq} (h : u.seq = q) (x y : Word) (c : Bool) :
    Leads q (u.dpFinish x y c) := by
  subst h
  rw [dpFinish_eq]
  split_ifs
  · exact .inr (.inr rfl)
  all_goals exact .inr (.inl rfl)

lemma leads_sdtEnd (op : Word) : Leads u.seq (u.sdtEnd op) := by
  unfold sdtEnd
  split_ifs
  · exact .inr (.inl rfl)
  · exact .inr (.inr rfl)
  · exact .inr (.inl rfl)

lemma leads_bdtEnd (op : Word) : Leads u.seq (u.bdtEnd op) := by
  unfold bdtEnd
  split_ifs
  · exact .inr (.inl rfl)
  · exact .inr (.inl rfl)
  · exact .inr (.inr rfl)
  · exact .inr (.inr rfl)
  · exact .inr (.inl rfl)

lemma leads_bdtAdvance : Leads u.seq u.bdtAdvance := by
  unfold bdtAdvance
  dsimp only
  split_ifs
  · exact .inl rfl
  · exact .inl rfl
  all_goals exact .inr (.inl rfl)

lemma bdtBase_seq : u.bdtBase.seq = u.seq := by
  rw [bdtBase_eq]
  exact u.wrBase_seq

lemma bdtLoad_seq (w : Word) : (u.bdtLoad w).seq = u.seq := by
  unfold bdtLoad
  split_ifs <;> rfl

lemma leads_mul : Leads s.seq (s.cMul.next a) := by
  have hK : ∀ (last : Bool) (v w : Arm7DI), v.seq = s.seq →
      Leads s.seq (if (!last) = true then v else w.advance.done) := by
    intro last v w hv
    split_ifs
    · exact .inl hv
    · exact .inr (.inl rfl)
  unfold cMul
  split_ifs
  · exact .inl rfl
  · exact hK _ _ _ rfl

lemma leads_swp : Leads s.seq (s.cSwp.next a) := by
  match hk : s.k with
  | 0 => exact .inl (by rw [cSwp_start hk]; rfl)
  | 1 => exact .inl (by rw [cSwp_read hk]; rfl)
  | 2 => exact .inl (by rw [cSwp_write hk]; rfl)
  | k + 3 => exact .inr (.inl (by rw [cSwp_end (by omega)]; rfl))

lemma sdtBase_seq (op : Word) : (u.sdtBase op).seq = u.seq := by
  unfold sdtBase
  split_ifs <;> rfl

lemma leads_sdt : Leads s.seq (s.cSdt.next a) := by
  by_cases hk : s.k = 0
  · exact .inl (by rw [cSdt_start hk]; rfl)
  cases hL : bit s.x.op 20 with
  | false => exact .inr (.inl (by rw [cSdt_store hk hL]; rfl))
  | true =>
    by_cases hk1 : s.k = 1
    · rw [cSdt_load hk1 hL]
      exact .inl (sdtBase_seq _)
    · rw [cSdt_end (by omega) hL]
      exact leads_sdtEnd _

lemma leads_bdt : Leads s.seq (s.cBdt.next a) := by
  by_cases hk : s.k = 0
  · unfold cBdt
    rw [if_pos hk]
    exact .inl rfl
  by_cases hr : s.x.r = 16
  · rw [cBdt_final hk hr]
    exact leads_bdtEnd _
  unfold cBdt
  rw [if_neg hk, if_neg hr]
  by_cases hL : bit s.x.op 20 = true
  · rw [if_pos hL]
    have h : ∀ v : Arm7DI, Leads v.seq (v.bdtBase.bdtLoad a.rdata).bdtAdvance := fun v => by
      rw [← bdtBase_seq (u := v), ← bdtLoad_seq a.rdata]
      exact leads_bdtAdvance
    exact h (s.sampled a _)
  · rw [if_neg hL]
    have h : ∀ v : Arm7DI, Leads v.seq v.bdtBase.bdtAdvance := fun v => by
      rw [← bdtBase_seq (u := v)]
      exact leads_bdtAdvance
    exact h (s.sampled a _)

lemma leads_dp : Leads s.seq (s.cDp.next a) := by
  by_cases hk : s.k = 0
  · cases hr : regShift s.x.op with
    | true => exact .inl (by rw [cDp_amount hk hr]; rfl)
    | false =>
      rw [cDp_single hk hr]
      rw [cycle1Fetch, cyc_next]
      refine leads_dpFinish ?_ _ _ _
      rfl
  · rw [cDp_shift hk, cyc_next]
    refine leads_dpFinish ?_ _ _ _
    rfl

lemma leads_psr : Leads s.seq (s.cPsr.next a) := by
  cases hop : bit s.x.op 21 with
  | false =>
    rw [cPsr_mrs hop]
    split_ifs
    · exact .inr (.inr rfl)
    · exact .inr (.inl rfl)
  | true => exact .inr (.inl (by rw [cPsr_msr hop]; rfl))

lemma leads_refill : Leads s.seq (s.cRefill.next a) := by
  unfold cRefill
  split_ifs
  · exact .inl rfl
  · exact .inr (.inl rfl)

lemma leads_sequence (he : s.seq ≠ .exc) (hun : s.seq ≠ .undefTrap) :
    Leads s.seq (s.sequence.next a) := by
  unfold sequence
  split
  · exact .inr (.inl rfl)
  · exact .inr (.inl rfl)
  · exact leads_dp
  · exact leads_psr
  · exact leads_mul
  · exact leads_swp
  · exact leads_sdt
  · exact leads_bdt
  · exact .inr (.inr rfl)
  · exact absurd ‹_› hun
  · exact absurd ‹_› he
  · exact leads_refill

/-! ### User mode from cycle to cycle -/

/-- The transfer's flags are latched in its first cycle. -/
lemma cSdt_user (h : User s) (hq : s.seq = .sdt) (hn : (s.cSdt.next a).seq = .sdt) :
    (s.cSdt.next a).x.bf.user = true := by
  by_cases hk : s.k = 0
  · rw [cSdt_start hk]
    change ((!bit s.x.op 24 && bit s.x.op 21) || s.userFlag) = true
    rw [userFlag_of_mode h.mode, Bool.or_true]
  cases hL : bit s.x.op 20 with
  | false =>
    rw [cSdt_store hk hL] at hn
    exact Seq.noConfusion hn
  | true =>
    by_cases hk1 : s.k = 1
    · have hbf : ∀ u : Arm7DI, (u.sdtBase s.x.op).x = u.x := fun u => by
        unfold sdtBase
        split_ifs <;> rfl
      rw [cSdt_load hk1 hL, cyc_next, setK_x, hbf]
      exact h.transfer hq hk
    · rw [cSdt_end (by omega) hL, cyc_next] at hn
      unfold sdtEnd at hn
      split_ifs at hn <;> exact Seq.noConfusion hn

/-- The next register of a list is below 16, or the last cycle is to come. -/
lemma cBdt_register (hn : (s.cBdt.next a).seq = .bdt) : (s.cBdt.next a).x.r ≤ 16 := by
  by_cases hk : s.k = 0
  · unfold cBdt
    rw [if_pos hk]
    exact (lowest_lt (effList_ne_zero s.x.op)).le
  by_cases hr : s.x.r = 16
  · rw [cBdt_final hk hr, cyc_next] at hn
    unfold bdtEnd at hn
    split_ifs at hn <;> exact Seq.noConfusion hn
  unfold cBdt at hn ⊢
  rw [if_neg hk, if_neg hr] at hn ⊢
  cases hL : bit s.x.op 20 with
  | true =>
    rw [if_pos rfl, cyc_next, bdt_load_eq _ (by exact hL)]
    change (if s.bdtLast = true then 16 else s.bdtNext) ≤ 16
    split_ifs with hl
    · exact le_refl 16
    · exact (bdtNext_lt s (by simpa using hl)).le
  | false =>
    rw [hL, if_neg Bool.false_ne_true, cyc_next, bdt_store_eq (by exact hL)] at hn
    rw [if_neg Bool.false_ne_true, cyc_next, bdt_store_eq (by exact hL)]
    dsimp only [sampled_bdtLast] at hn ⊢
    split_ifs at hn ⊢ with hl
    · exact Seq.noConfusion hn
    · exact Seq.noConfusion hn
    · exact (bdtNext_lt s (by simpa using hl)).le

lemma User.next (h : User s) (he : s.seq ≠ .exc) (hun : s.seq ≠ .undefTrap) :
    User (s.sequence.next a) := by
  have hback : ∀ {q : Seq}, q ≠ .idle → q ≠ .refill → (s.sequence.next a).seq = q → s.seq = q := by
    intro q hi hr hn
    rcases leads_sequence (a := a) he hun with h | h | h
    · exact h.symm.trans hn
    · exact absurd (hn.symm.trans h) hi
    · exact absurd (hn.symm.trans h) hr
  refine ⟨?_, fun hn _ => ?_, fun hn _ => ?_⟩
  · have hc := (isolated_sequence (g := s.gpr) (p := s.spsr) h he hun).control a
    exact (modeOf_control hc).trans h.mode
  · have hq := hback (by decide) (by decide) hn
    rw [sequence, hq] at hn ⊢
    exact cSdt_user h hq hn
  · have hq := hback (by decide) (by decide) hn
    rw [sequence, hq] at hn ⊢
    exact cBdt_register hn

/-! ### Boundaries -/

/-- A call of `bus_cycle()` that works on an exception entry. -/
def Entering (s : Arm7DI) : Prop := s.start.seq = .exc ∨ s.start.seq = .undefTrap

lemma veil_decode (op : Word) : (s.veil g p).decode op = (s.decode op).veil g p := by
  have hc : ((s.veil g p).setX { (s.veil g p).x with op := op }).condPass op =
    (s.setX { s.x with op := op }).condPass op := rfl
  rw [decode_eq, decode_eq]
  dsimp only
  rw [hc]
  split_ifs <;> rfl

lemma veil_start : (s.veil g p).start = s.start.veil g p := by
  have hbegin : (s.veil g p).begin = s.begin.veil g p := by
    have hf : ((s.veil g p).setK 0).fiqSeen = (s.setK 0).fiqSeen := rfl
    have hi : ((s.veil g p).setK 0).irqSeen = (s.setK 0).irqSeen := rfl
    unfold begin
    simp only [setK_inReset, setK_resetExit, setK_dabortPending, setK_ex, setK_cpsr, veil_inReset,
      veil_resetExit, veil_dabortPending, veil_ex, veil_cpsr, hf, hi]
    split_ifs
    all_goals first | rfl | exact veil_decode (s := s.setK 0) _
  unfold start
  rw [veil_seq, hbegin]
  split_ifs <;> rfl

lemma veil_poke (ls : List Line) : (s.veil g p).poke ls = (s.poke ls).veil g p := by
  induction ls generalizing s with
  | nil => rfl
  | cons l ls ih =>
    have hl : (s.veil g p).setLine l = (s.setLine l).veil g p := by cases l <;> rfl
    rw [poke, poke, List.foldl_cons, List.foldl_cons, hl]
    exact ih

lemma User.poke (h : User s) (ls : List Line) : User (s.poke ls) := by
  refine ⟨?_, ?_, ?_⟩
  · rw [poke_cpsr]
    exact h.mode
  · rw [poke_seq, poke_k, poke_x]
    exact h.transfer
  · rw [poke_seq, poke_k, poke_x]
    exact h.block

lemma User.start (h : User s) : User s.start := by
  by_cases hq : s.seq = .idle
  · have hk := s.start_k hq
    exact ⟨(congrArg modeOf s.start_cpsr).trans h.mode, fun _ h0 => absurd hk h0,
      fun _ h0 => absurd hk h0⟩
  · rwa [Arm7DI.start, if_neg hq]

/-! ### Runs -/

variable {inp : ℕ → Input}

/-- The next call of `bus_cycle()` in a run begins or continues an exception entry. -/
def EnteringAt (s : Arm7DI) (inp : ℕ → Input) (n : ℕ) : Prop :=
  Entering ((core.after s inp n).poke (inp n).lines)

/-- A cycle in user mode that is not one of an entry. -/
lemma isolated_core (h : User s) (i : Input) (he : ¬Entering (s.poke i.lines)) :
    Isolated g p s.control (s.poke i.lines).busCycle ((s.veil g p).poke i.lines).busCycle := by
  have hst := (h.poke i.lines).start
  have hc : (s.poke i.lines).start.control = s.control := by
    rw [control, control, start_cpsr, poke_cpsr]
  rw [busCycle, busCycle, veil_poke, veil_start, ← hc]
  exact isolated_sequence hst (fun hq => he (.inl hq)) fun hq => he (.inr hq)

lemma User.core_next (h : User s) (i : Input) (he : ¬Entering (s.poke i.lines)) :
    User (core.next s i) :=
  (h.poke i.lines).start.next (fun hq => he (.inl hq)) fun hq => he (.inr hq)

/-- Along a run in user mode. -/
lemma user_run (h : User s) {n : ℕ} (hn : ∀ m < n, ¬EnteringAt s inp m) :
    ∀ m ≤ n, User (core.after s inp m) ∧ (core.after s inp m).control = s.control ∧
      core.after (s.veil g p) inp m = (core.after s inp m).veil g p := by
  intro m
  induction m with
  | zero => exact fun _ => ⟨h, rfl, rfl⟩
  | succ m ih =>
    intro hm
    obtain ⟨hu, hc, hv⟩ := ih (Nat.le_of_succ_le hm)
    have hiso := isolated_core (g := g) (p := p) hu (inp m) (hn m hm)
    refine ⟨hu.core_next (inp m) (hn m hm), ?_, ?_⟩
    · exact (hiso.control _).trans hc
    · rw [Machine.after_succ, Machine.after_succ, hv]
      exact hiso.next _

/-- Until the next entry a program in user mode leaves the control bits of the CPSR, the SPSRs and
the banked registers of the other modes as they are, and every cycle is driven as a user one. -/
theorem user_integrity (s : Arm7DI) (inp : ℕ → Input) (n : ℕ) (hq : s.atBoundary)
    (hu : modeOf s.cpsr = mUsr) (hn : ∀ m < n, ¬EnteringAt s inp m) :
    let t := core.after s inp n
    t.control = s.control ∧ t.spsr = s.spsr ∧ (∀ i : Fin 31, 15 ≤ i.val → t.gpr i = s.gpr i) ∧
      ∀ m < n, (core.outs s inp m).flags.user = true := by
  have h : User s := ⟨hu, fun hs => absurd (hq.symm.trans hs) (by decide),
    fun hs => absurd (hq.symm.trans hs) (by decide)⟩
  have hrun := user_run (g := s.gpr) (p := s.spsr) h hn
  obtain ⟨-, hc, hv⟩ := hrun n le_rfl
  replace hv : core.after s inp n = (core.after s inp n).veil s.gpr s.spsr := by
    rwa [veil_self] at hv
  have hspsr := congrArg Arm7DI.spsr hv
  refine ⟨hc, hspsr, fun i hi => ?_, fun m hm => ?_⟩
  · have := congrArg (fun t : Arm7DI => t.gpr i) hv
    simp only [veil_gpr, if_neg (not_lt.mpr hi)] at this
    exact this
  · exact (isolated_core (g := s.gpr) (p := s.spsr) (hrun m hm.le).1 (inp m) (hn m hm)).user

/-- A program in user mode that writes 0x13 to the whole CPSR again and again. -/
def intruder : Arm7DI :=
  { resting 0xE129F000 with cpsr := mUsr.setWidth 32, gpr := fun i => if i.val = 0 then 0x13 else 0 }

instance (s : Arm7DI) : Decidable (Entering s) := inferInstanceAs (Decidable (_ ∨ _))

instance (s : Arm7DI) (inp : ℕ → Input) (n : ℕ) : Decidable (EnteringAt s inp n) :=
  inferInstanceAs (Decidable (Entering _))

lemma intruder_stays : ∀ m < 5, ¬EnteringAt intruder (calm 0xE129F000) m := by decide +kernel

theorem user_integrity_msr : (core.after intruder (calm 0xE129F000) 5).control = mUsr.setWidth 32 :=
  (user_integrity intruder (calm 0xE129F000) 5 rfl (by decide) intruder_stays).1

/-- Until the next entry the bus sees nothing of the SPSRs and the banked registers of the other
modes, nor does anything the program can reach: two states that differ in these alone drive the same
cycles and go on to differ in these alone. -/
theorem user_confidentiality (s t : Arm7DI) (inp : ℕ → Input) (n : ℕ) (hq : s.atBoundary)
    (hu : modeOf s.cpsr = mUsr) (ht : t = s.veil t.gpr t.spsr) (hn : ∀ m < n, ¬EnteringAt s inp m) :
    core.after t inp n = (core.after s inp n).veil t.gpr t.spsr ∧
      ∀ m < n, core.outs t inp m = core.outs s inp m := by
  have h : User s := ⟨hu, fun hs => absurd (hq.symm.trans hs) (by decide),
    fun hs => absurd (hq.symm.trans hs) (by decide)⟩
  have hrun := user_run (g := t.gpr) (p := t.spsr) h hn
  rw [← ht] at hrun
  refine ⟨(hrun n le_rfl).2.2, fun m hm => ?_⟩
  obtain ⟨hu, -, hv⟩ := hrun m hm.le
  rw [Machine.outs, Machine.outs, core_out, core_out, hv]
  exact (isolated_core hu (inp m) (hn m hm)).bus

theorem user_confidentiality_msr :
    core.outs { intruder with spsr := fun _ => 1 } (calm 0xE129F000) 4 =
      core.outs intruder (calm 0xE129F000) 4 :=
  (user_confidentiality intruder { intruder with spsr := fun _ => 1 } (calm 0xE129F000) 5 rfl
    (by decide) (veil_self _).symm intruder_stays).2 4 (by decide)

end Arm7DI

end Wren7
