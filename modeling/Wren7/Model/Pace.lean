import Wren7.Model.Instr

/-!
# The pace of the core

The lines, the clock and the synchronisers are read at boundaries only: what a sequence drives, and
where it leads, is decided by the data and the aborts it is answered with.
-/

namespace Wren7

open Bits Reactive

@[simps -fullyApplied]
def Lines.setExit (τ : Lines) (b : Bool) : Lines := { τ with resetExit := b }

namespace Arm7DI

/-- The state with other lines, another time and another number of synchroniser stages. -/
@[simps -fullyApplied]
def repace (s : Arm7DI) (τ : Lines) (n : ℕ) : Arm7DI :=
  { s with
    cycles := τ.cycles
    lastAbort := τ.lastAbort
    inReset := τ.inReset
    resetExit := τ.resetExit
    fiqIn := τ.fiqIn
    irqIn := τ.irqIn
    fiqPipe := τ.fiqPipe
    irqPipe := τ.irqPipe
    irqSyncStages := n }

variable {s u : Arm7DI} {τ : Lines} {n : ℕ}

/-! ### The sequencers -/

/-- Work after a bus cycle that reads no line but the abort. -/
def Paceless (n : ℕ) (K : Word → Arm7DI → Arm7DI) : Prop :=
  ∀ w u τ, τ.lastAbort = u.lastAbort → K w (u.repace τ n) = (K w u).repace τ n

/-- A drive of a state, and of the state at another pace. -/
def Paced (τ : Lines) (n : ℕ) (m : Bool) (d d' : Drive) : Prop :=
  d'.bus = { d.bus with t := τ.cycles } ∧ ∀ a a', a'.rdata = a.rdata → a'.abort = a.abort →
    d'.next a' = (d.next a).repace (τ.sampled m a') n

lemma paced_cyc {addr wdata : Word} {f : BusFlags} {next : CycleType}
    {K : Word → Arm7DI → Arm7DI} (hK : Paceless n K) :
    Paced τ n s.nextType.isMem (s.cyc addr f wdata next K)
      ((s.repace τ n).cyc addr f wdata next K) := by
  refine ⟨rfl, fun a a' hr ha => ?_⟩
  rw [cyc_next, cyc_next, hr]
  refine hK _ (s.sampled a next) (τ.sampled s.nextType.isMem a') ?_
  rw [Lines.sampled, sampled_lastAbort, ha]

lemma paced_cycle1 {next : CycleType} {K : Arm7DI → Arm7DI}
    (hK : ∀ u τ, K (u.repace τ n) = (K u).repace τ n) :
    Paced τ n s.nextType.isMem (s.cycle1Fetch next K) ((s.repace τ n).cycle1Fetch next K) := by
  refine paced_cyc (s := s) (K := fun w u => K (u.capture ⟨w, u.lastAbort⟩)) ?_
  intro w u τ h
  have hcap : (u.repace τ n).capture ⟨w, (u.repace τ n).lastAbort⟩ =
      (u.capture ⟨w, u.lastAbort⟩).repace τ n := by
    rw [repace_lastAbort, h]
    rfl
  dsimp only
  rw [hcap, hK]

lemma dpFinish_repace (a b : Word) (sc : Bool) :
    (u.repace τ n).dpFinish a b sc = (u.dpFinish a b sc).repace τ n := by
  rw [dpFinish_eq, dpFinish_eq, repace_x]
  split_ifs <;> rfl

lemma mulFlags_repace : (u.repace τ n).mulFlags = u.mulFlags.repace τ n := by
  unfold mulFlags
  rw [repace_x]
  split_ifs <;> rfl

lemma msrWrite_repace (p : Bool) (v m : Word) :
    (u.repace τ n).msrWrite p v m = (u.msrWrite p v m).repace τ n := by
  unfold msrWrite setSpsrCur
  rw [show (u.repace τ n).bank = u.bank from rfl, repace_cpsr]
  split_ifs <;> rfl

lemma wrBase_repace : (u.repace τ n).wrBase = u.wrBase.repace τ n := by
  unfold wrBase
  rw [repace_x]
  split_ifs <;> rfl

lemma bdtEnd_repace (op : Word) : (u.repace τ n).bdtEnd op = (u.bdtEnd op).repace τ n := by
  unfold bdtEnd
  rw [repace_x]
  split_ifs <;> rfl

lemma sdtEnd_repace (op : Word) : (u.repace τ n).sdtEnd op = (u.sdtEnd op).repace τ n := by
  unfold sdtEnd
  rw [repace_x]
  split_ifs <;> rfl

lemma swpEnd_repace (op : Word) : (u.repace τ n).swpEnd op = (u.swpEnd op).repace τ n := by
  unfold swpEnd
  rw [repace_x]
  split_ifs <;> rfl

lemma sdtBase_repace (op : Word) : (u.repace τ n).sdtBase op = (u.sdtBase op).repace τ n := by
  unfold sdtBase
  rw [repace_x]
  split_ifs <;> rfl

lemma bdtBase_repace (h : τ.lastAbort = u.lastAbort) :
    (u.repace τ n).bdtBase = u.bdtBase.repace τ n := by
  rw [bdtBase_eq, bdtBase_eq, wrBase_repace, repace_lastAbort, h]
  rfl

lemma bdtLoad_repace (w : Word) : (u.repace τ n).bdtLoad w = (u.bdtLoad w).repace τ n := by
  unfold bdtLoad
  rw [repace_x]
  split_ifs <;> rfl

lemma bdtAdvance_repace : (u.repace τ n).bdtAdvance = u.bdtAdvance.repace τ n := by
  unfold bdtAdvance bdtLast
  simp only [setK_x, setX_x, repace_x]
  split_ifs <;> rfl

lemma paced_dp : Paced τ n s.nextType.isMem s.cDp (s.repace τ n).cDp := by
  by_cases hk : s.k = 0
  · rcases Bool.eq_false_or_eq_true (regShift s.x.op) with hr | hr
    · rw [cDp_amount hk hr, cDp_amount (s := s.repace τ n) hk hr]
      exact paced_cycle1 (s := s.setX _) fun _ _ => rfl
    · rw [cDp_single hk hr, cDp_single (s := s.repace τ n) hk hr]
      exact paced_cycle1 (s := s.setX _) fun _ _ => dpFinish_repace _ _ _
  · rw [cDp_shift hk, cDp_shift (s := s.repace τ n) hk]
    exact paced_cyc fun _ _ _ _ => dpFinish_repace _ _ _

lemma paced_psr : Paced τ n s.nextType.isMem s.cPsr (s.repace τ n).cPsr := by
  cases hop : bit s.x.op 21 with
  | false =>
    rw [cPsr_mrs hop, cPsr_mrs (s := s.repace τ n) hop, repace_x]
    split_ifs <;> exact paced_cycle1 fun _ _ => rfl
  | true =>
    rw [cPsr_msr hop, cPsr_msr (s := s.repace τ n) hop]
    exact paced_cycle1 fun u τ => by rw [msrWrite_repace]; rfl

lemma paced_mul : Paced τ n s.nextType.isMem s.cMul (s.repace τ n).cMul := by
  unfold cMul cMulStart
  rw [repace_k]
  split_ifs
  · exact paced_cycle1 (s := s.setX _) fun _ _ => rfl
  · refine paced_cyc (s := s.setX _) (n := n) fun w u τ _ => ?_
    have hstep : ∀ k M d, (u.repace τ n).mulStep k M d = (u.mulStep k M d).repace τ n :=
      fun _ _ _ => rfl
    dsimp only
    rw [hstep, mulFlags_repace]
    split_ifs <;> rfl

lemma paced_swp : Paced τ n s.nextType.isMem s.cSwp (s.repace τ n).cSwp := by
  match hk : s.k with
  | 0 =>
    rw [cSwp_start hk, cSwp_start (s := s.repace τ n) hk]
    exact paced_cycle1 (s := (s.setK 1).setX _) fun _ _ => rfl
  | 1 =>
    rw [cSwp_read hk, cSwp_read (s := s.repace τ n) hk]
    exact paced_cyc (s := s.setK 2) fun w u τ h => by
      dsimp only
      rw [repace_lastAbort, h]
      rfl
  | 2 =>
    rw [cSwp_write hk, cSwp_write (s := s.repace τ n) hk]
    exact paced_cyc (s := s.setK 3) fun w u τ h => by
      dsimp only
      rw [repace_lastAbort, h]
      rfl
  | k + 3 =>
    have hk3 : 3 ≤ s.k := by omega
    rw [cSwp_end hk3, cSwp_end (s := s.repace τ n) hk3]
    exact paced_cyc (s := s.setK _) fun w u τ h => by
      rw [repace_x, swpEnd_repace]
      rfl

lemma paced_sdt : Paced τ n s.nextType.isMem s.cSdt (s.repace τ n).cSdt := by
  by_cases hk : s.k = 0
  · unfold cSdt
    rw [repace_k, if_pos hk, if_pos hk]
    exact paced_cycle1 (s := s.setX _) fun _ _ => rfl
  cases hL : bit s.x.op 20 with
  | false =>
    rw [cSdt_store hk hL, cSdt_store (s := s.repace τ n) hk hL]
    refine paced_cyc fun w u τ h => ?_
    have hab : (if (u.repace τ n).lastAbort = true then (u.repace τ n).setDabort true
          else u.repace τ n) =
        (if u.lastAbort = true then u.setDabort true else u).repace τ n := by
      rw [repace_lastAbort, h]
      split_ifs <;> rfl
    rw [hab, sdtBase_repace]
    rfl
  | true =>
    by_cases hk1 : s.k = 1
    · rw [cSdt_load hk1 hL, cSdt_load (s := s.repace τ n) hk1 hL]
      refine paced_cyc fun w u τ h => ?_
      dsimp only
      rw [repace_lastAbort, h]
      exact congrArg (fun t => setK t 2) (sdtBase_repace (u := u.setX _) _)
    · have hk2 : 2 ≤ s.k := by omega
      rw [cSdt_end hk2 hL, cSdt_end (s := s.repace τ n) hk2 hL]
      exact paced_cyc fun w u τ _ => sdtEnd_repace _

lemma paced_bdt : Paced τ n s.nextType.isMem s.cBdt (s.repace τ n).cBdt := by
  by_cases hk : s.k = 0
  · unfold cBdt cBdtStart
    rw [repace_k, if_pos hk, if_pos hk]
    exact paced_cycle1 (s := s.setX _) fun _ _ => rfl
  by_cases hr : s.x.r = 16
  · rw [cBdt_final hk hr, cBdt_final (s := s.repace τ n) hk hr]
    exact paced_cyc fun w u τ _ => bdtEnd_repace _
  unfold cBdt
  rw [repace_k, repace_x, if_neg hk, if_neg hk, if_neg hr, if_neg hr]
  by_cases hL : bit s.x.op 20 = true
  · rw [if_pos hL, if_pos hL]
    refine paced_cyc fun w u τ h => ?_
    rw [bdtBase_repace h, bdtLoad_repace, bdtAdvance_repace]
  · rw [if_neg hL, if_neg hL]
    refine paced_cyc fun w u τ h => ?_
    rw [bdtBase_repace h, bdtAdvance_repace]

lemma paced_branch : Paced τ n s.nextType.isMem s.cBranch (s.repace τ n).cBranch := by
  unfold cBranch
  refine paced_cycle1 fun u τ => ?_
  dsimp only
  split_ifs <;> rfl

lemma paced_undef : Paced τ n s.nextType.isMem s.cUndef (s.repace τ n).cUndef := by
  unfold cUndef
  rw [repace_k]
  split_ifs
  · exact paced_cyc (s := s.setX _) fun _ _ _ _ => rfl
  · exact paced_cyc fun _ _ _ _ => rfl

lemma paced_refill : Paced τ n s.nextType.isMem s.cRefill (s.repace τ n).cRefill := by
  unfold cRefill
  rw [repace_k]
  split_ifs
  · exact paced_cyc fun w u τ h => by
      dsimp only
      rw [repace_lastAbort, h]
      rfl
  · exact paced_cyc fun w u τ h => by
      rw [repace_lastAbort, h]
      rfl

/-- No sequencer reads the pace. -/
lemma paced_sequence (s : Arm7DI) (τ : Lines) :
    Paced τ n s.nextType.isMem s.sequence (s.repace τ n).sequence := by
  unfold sequence
  rw [repace_seq]
  split
  · exact paced_cyc fun _ _ _ _ => rfl
  · exact paced_cycle1 fun _ _ => rfl
  · exact paced_dp
  · exact paced_psr
  · exact paced_mul
  · exact paced_swp
  · exact paced_sdt
  · exact paced_bdt
  · exact paced_branch
  · exact paced_undef
  · exact paced_cyc fun _ _ _ _ => rfl
  · exact paced_refill

/-! ### Bus cycles -/

lemma decode_repace (op : Word) : (s.repace τ n).decode op = (s.decode op).repace τ n := by
  have hc : ((s.repace τ n).setX { (s.repace τ n).x with op := op }).condPass op =
    (s.setX { s.x with op := op }).condPass op := rfl
  rw [decode_eq, decode_eq]
  dsimp only
  rw [hc]
  split_ifs <;> rfl

/-- A state at another pace that begins the same, if it is at a boundary. -/
structure SameStart (s : Arm7DI) (τ : Lines) (n : ℕ) : Prop where
  inReset : τ.inReset = s.inReset
  resetExit : τ.resetExit = s.resetExit
  takesFiq : s.atBoundary → (s.repace τ n).takesFiq = s.takesFiq
  takesIrq : s.atBoundary → (s.repace τ n).takesIrq = s.takesIrq

lemma start_repace (h : SameStart s τ n) :
    (s.repace τ n).start = s.start.repace (τ.setExit s.start.resetExit) n := by
  obtain ⟨hr, he, hf, hi⟩ := h
  have hτ : τ.setExit s.resetExit = τ := by
    rw [← he]
    rfl
  have hexit {u u' : Arm7DI} (hx : u.resetExit = s.resetExit) (h : u' = u.repace τ n) :
      u' = u.repace (τ.setExit u.resetExit) n := by
    rw [hx, hτ, h]
  by_cases hq : s.seq = .idle
  swap
  · rw [start, start, if_neg hq, if_neg (show ¬(s.repace τ n).seq = .idle from hq), hτ]
  have hf' : (((s.repace τ n).setK 0).fiqSeen && !bit s.cpsr 6) =
      ((s.setK 0).fiqSeen && !bit s.cpsr 6) := hf hq
  have hi' : (((s.repace τ n).setK 0).irqSeen && !bit s.cpsr 7) =
      ((s.setK 0).irqSeen && !bit s.cpsr 7) := hi hq
  rw [start, start, if_pos hq, if_pos (show (s.repace τ n).seq = .idle from hq)]
  unfold begin
  simp only [setK_inReset, setK_resetExit, setK_dabortPending, setK_ex, setK_cpsr, repace_inReset,
    repace_resetExit, repace_dabortPending, repace_ex, repace_cpsr, hf', hi', hr, he]
  split_ifs
  · exact hexit rfl rfl
  · rfl
  · exact hexit rfl rfl
  · exact hexit rfl rfl
  · exact hexit rfl rfl
  · exact hexit rfl rfl
  · exact hexit (decode_field resetExit (fun _ _ => rfl) (fun _ _ => rfl) (fun _ _ => rfl)
      (s.setK 0) _) (decode_repace (s := s.setK 0) _)

/-- A bus cycle at another pace, answered with the same. -/
lemma busCycle_repace (h : SameStart s τ n) {a a' : Answer} (hd : a'.rdata = a.rdata)
    (ha : a'.abort = a.abort) :
    (s.repace τ n).busCycle.bus = { s.busCycle.bus with t := τ.cycles } ∧
      (s.repace τ n).busCycle.next a' = (s.busCycle.next a).repace
        ((τ.setExit s.start.resetExit).sampled s.start.nextType.isMem a') n := by
  obtain ⟨hbus, hnext⟩ := paced_sequence (n := n) s.start (τ.setExit s.start.resetExit)
  rw [busCycle, busCycle, start_repace h]
  exact ⟨hbus, hnext a a' hd ha⟩

end Arm7DI

end Wren7
