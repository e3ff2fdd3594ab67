import Wren7.Model.Spec

/-!
# Sequences apart from the input lines

The input lines and the clock play no part between two boundaries. `retime` replaces them, every
sequencer commutes with it, and so a sequence in a run does what it does on its own, given the
answers of the bus only (`cont`).
-/

namespace Wren7

open Bits Reactive

/-- The part of a state that the lines and the clock move. -/
structure Lines where
  cycles : ℕ
  lastAbort : Bool
  inReset : Bool
  resetExit : Bool
  fiqIn : Bool
  irqIn : Bool
  fiqPipe : Word
  irqPipe : Word

/-- The lines after a bus cycle. -/
def Lines.sampled (τ : Lines) (mem : Bool) (a : Answer) : Lines where
  cycles := τ.cycles + 1 + a.wait
  lastAbort := a.abort && mem
  inReset := τ.inReset
  resetExit := τ.resetExit
  fiqIn := a.fiq
  irqIn := a.irq
  fiqPipe := (τ.fiqPipe <<< 1) ||| maskIf a.fiq 1
  irqPipe := (τ.irqPipe <<< 1) ||| maskIf a.irq 1

namespace Arm7DI

/-- The state with other lines. -/
@[simps -fullyApplied]
def retime (s : Arm7DI) (τ : Lines) : Arm7DI :=
  { s with
    cycles := τ.cycles
    lastAbort := τ.lastAbort
    inReset := τ.inReset
    resetExit := τ.resetExit
    fiqIn := τ.fiqIn
    irqIn := τ.irqIn
    fiqPipe := τ.fiqPipe
    irqPipe := τ.irqPipe }

def lines (s : Arm7DI) : Lines where
  cycles := s.cycles
  lastAbort := s.lastAbort
  inReset := s.inReset
  resetExit := s.resetExit
  fiqIn := s.fiqIn
  irqIn := s.irqIn
  fiqPipe := s.fiqPipe
  irqPipe := s.irqPipe

variable {s u : Arm7DI} {τ : Lines}

lemma retime_lines : s.retime s.lines = s := rfl

lemma poke_eq_retime (s : Arm7DI) (ls : List Line) : s.poke ls = s.retime (s.poke ls).lines := by
  induction ls generalizing s with
  | nil => rfl
  | cons l ls ih =>
    have hl : setLine s l = s.retime (setLine s l).lines := by cases l <;> rfl
    calc s.poke (l :: ls) = (setLine s l).poke ls := rfl
      _ = (setLine s l).retime ((setLine s l).poke ls).lines := ih _
      _ = s.retime ((setLine s l).poke ls).lines := by rw [hl]; rfl

/-! ### The sequencers commute with the lines -/

/-- Work after a bus cycle that reads no line but the abort. -/
def Blind (K : Word → Arm7DI → Arm7DI) : Prop :=
  ∀ w u τ, τ.lastAbort = u.lastAbort → K w (u.retime τ) = (K w u).retime τ

/-- A drive of a state, and of the state with other lines. -/
def Commutes (τ : Lines) (m : Bool) (d d' : Drive) : Prop :=
  d'.bus = { d.bus with t := τ.cycles } ∧ ∀ a, d'.next a = (d.next a).retime (τ.sampled m a)

lemma commutes_cyc {addr wdata : Word} {f : BusFlags} {next : CycleType}
    {K : Word → Arm7DI → Arm7DI} (hK : Blind K) :
    Commutes τ s.nextType.isMem (s.cyc addr f wdata next K)
      ((s.retime τ).cyc addr f wdata next K) :=
  ⟨rfl, fun a => hK _ (s.sampled a next) (τ.sampled s.nextType.isMem a) rfl⟩

lemma commutes_cycle1 {next : CycleType} {K : Arm7DI → Arm7DI}
    (hK : ∀ u τ, K (u.retime τ) = (K u).retime τ) :
    Commutes τ s.nextType.isMem (s.cycle1Fetch next K) ((s.retime τ).cycle1Fetch next K) := by
  refine commutes_cyc (s := s) (K := fun w u => K (u.capture ⟨w, u.lastAbort⟩)) ?_
  intro w u τ h
  have hcap : (u.retime τ).capture ⟨w, (u.retime τ).lastAbort⟩ =
      (u.capture ⟨w, u.lastAbort⟩).retime τ := by
    rw [retime_lastAbort, h]
    rfl
  dsimp only
  rw [hcap, hK]

lemma dpFinish_retime (a b : Word) (sc : Bool) :
    (u.retime τ).dpFinish a b sc = (u.dpFinish a b sc).retime τ := by
  rw [dpFinish_eq, dpFinish_eq, retime_x]
  split_ifs <;> rfl

lemma mulFlags_retime : (u.retime τ).mulFlags = u.mulFlags.retime τ := by
  unfold mulFlags
  rw [retime_x]
  split_ifs <;> rfl

lemma msrWrite_retime (p : Bool) (v m : Word) :
    (u.retime τ).msrWrite p v m = (u.msrWrite p v m).retime τ := by
  unfold msrWrite setSpsrCur
  rw [show (u.retime τ).bank = u.bank from rfl, retime_cpsr]
  split_ifs <;> rfl

lemma wrBase_retime : (u.retime τ).wrBase = u.wrBase.retime τ := by
  unfold wrBase
  rw [retime_x]
  split_ifs <;> rfl

lemma bdtEnd_retime (op : Word) : (u.retime τ).bdtEnd op = (u.bdtEnd op).retime τ := by
  unfold bdtEnd
  rw [retime_x]
  split_ifs <;> rfl

lemma sdtEnd_retime (op : Word) : (u.retime τ).sdtEnd op = (u.sdtEnd op).retime τ := by
  unfold sdtEnd
  rw [retime_x]
  split_ifs <;> rfl

lemma swpEnd_retime (op : Word) : (u.retime τ).swpEnd op = (u.swpEnd op).retime τ := by
  unfold swpEnd
  rw [retime_x]
  split_ifs <;> rfl

lemma sdtBase_retime (op : Word) : (u.retime τ).sdtBase op = (u.sdtBase op).retime τ := by
  unfold sdtBase
  rw [retime_x]
  split_ifs <;> rfl

lemma bdtBase_retime (h : τ.lastAbort = u.lastAbort) :
    (u.retime τ).bdtBase = u.bdtBase.retime τ := by
  rw [bdtBase_eq, bdtBase_eq, wrBase_retime, retime_lastAbort, h]
  rfl

lemma bdtLoad_retime (w : Word) : (u.retime τ).bdtLoad w = (u.bdtLoad w).retime τ := by
  unfold bdtLoad
  rw [retime_x]
  split_ifs <;> rfl

lemma bdtAdvance_retime : (u.retime τ).bdtAdvance = u.bdtAdvance.retime τ := by
  unfold bdtAdvance bdtLast
  simp only [setK_x, setX_x, retime_x]
  split_ifs <;> rfl

lemma commutes_dp : Commutes τ s.nextType.isMem s.cDp (s.retime τ).cDp := by
  by_cases hk : s.k = 0
  · rcases Bool.eq_false_or_eq_true (regShift s.x.op) with hr | hr
    · rw [cDp_amount hk hr, cDp_amount (s := s.retime τ) hk hr]
      exact commutes_cycle1 (s := s.setX _) fun _ _ => rfl
    · rw [cDp_single hk hr, cDp_single (s := s.retime τ) hk hr]
      exact commutes_cycle1 (s := s.setX _) fun _ _ => dpFinish_retime _ _ _
  · rw [cDp_shift hk, cDp_shift (s := s.retime τ) hk]
    exact commutes_cyc fun _ _ _ _ => dpFinish_retime _ _ _

lemma commutes_psr : Commutes τ s.nextType.isMem s.cPsr (s.retime τ).cPsr := by
  cases hop : bit s.x.op 21 with
  | false =>
    rw [cPsr_mrs hop, cPsr_mrs (s := s.retime τ) hop, retime_x]
    split_ifs <;> exact commutes_cycle1 fun _ _ => rfl
  | true =>
    rw [cPsr_msr hop, cPsr_msr (s := s.retime τ) hop]
    exact commutes_cycle1 fun u τ => by rw [msrWrite_retime]; rfl

lemma commutes_mul : Commutes τ s.nextType.isMem s.cMul (s.retime τ).cMul := by
  unfold cMul cMulStart
  rw [retime_k]
  split_ifs
  · exact commutes_cycle1 (s := s.setX _) fun _ _ => rfl
  · refine commutes_cyc (s := s.setX _) fun w u τ _ => ?_
    have hstep : ∀ k M d, (u.retime τ).mulStep k M d = (u.mulStep k M d).retime τ :=
      fun _ _ _ => rfl
    dsimp only
    rw [hstep, mulFlags_retime]
    split_ifs <;> rfl

lemma commutes_swp : Commutes τ s.nextType.isMem s.cSwp (s.retime τ).cSwp := by
  match hk : s.k with
  | 0 =>
    rw [cSwp_start hk, cSwp_start (s := s.retime τ) hk]
    exact commutes_cycle1 (s := (s.setK 1).setX _) fun _ _ => rfl
  | 1 =>
    rw [cSwp_read hk, cSwp_read (s := s.retime τ) hk]
    exact commutes_cyc (s := s.setK 2) fun w u τ h => by
      dsimp only
      rw [retime_lastAbort, h]
      rfl
  | 2 =>
    rw [cSwp_write hk, cSwp_write (s := s.retime τ) hk]
    exact commutes_cyc (s := s.setK 3) fun w u τ h => by
      dsimp only
      rw [retime_lastAbort, h]
      rfl
  | k + 3 =>
    have hk3 : 3 ≤ s.k := by omega
    rw [cSwp_end hk3, cSwp_end (s := s.retime τ) hk3]
    exact commutes_cyc (s := s.setK _) fun w u τ h => by
      rw [retime_x, swpEnd_retime]
      rfl

lemma commutes_sdt : Commutes τ s.nextType.isMem s.cSdt (s.retime τ).cSdt := by
  by_cases hk : s.k = 0
  · unfold cSdt
    rw [retime_k, if_pos hk, if_pos hk]
    exact commutes_cycle1 (s := s.setX _) fun _ _ => rfl
  cases hL : bit s.x.op 20 with
  | false =>
    rw [cSdt_store hk hL, cSdt_store (s := s.retime τ) hk hL]
    refine commutes_cyc fun w u τ h => ?_
    have hab : (if (u.retime τ).lastAbort = true then (u.retime τ).setDabort true else u.retime τ) =
        (if u.lastAbort = true then u.setDabort true else u).retime τ := by
      rw [retime_lastAbort, h]
      split_ifs <;> rfl
    rw [hab, sdtBase_retime]
    rfl
  | true =>
    by_cases hk1 : s.k = 1
    · rw [cSdt_load hk1 hL, cSdt_load (s := s.retime τ) hk1 hL]
      refine commutes_cyc fun w u τ h => ?_
      dsimp only
      rw [retime_lastAbort, h]
      exact congrArg (fun t => setK t 2) (sdtBase_retime (u := u.setX _) _)
    · have hk2 : 2 ≤ s.k := by omega
      rw [cSdt_end hk2 hL, cSdt_end (s := s.retime τ) hk2 hL]
      exact commutes_cyc fun w u τ _ => sdtEnd_retime _

lemma commutes_bdt : Commutes τ s.nextType.isMem s.cBdt (s.retime τ).cBdt := by
  by_cases hk : s.k = 0
  · unfold cBdt cBdtStart
    rw [retime_k, if_pos hk, if_pos hk]
    exact commutes_cycle1 (s := s.setX _) fun _ _ => rfl
  by_cases hr : s.x.r = 16
  · rw [cBdt_final hk hr, cBdt_final (s := s.retime τ) hk hr]
    exact commutes_cyc fun w u τ _ => bdtEnd_retime _
  unfold cBdt
  rw [retime_k, retime_x, if_neg hk, if_neg hk, if_neg hr, if_neg hr]
  by_cases hL : bit s.x.op 20 = true
  · rw [if_pos hL, if_pos hL]
    refine commutes_cyc fun w u τ h => ?_
    rw [bdtBase_retime h, bdtLoad_retime, bdtAdvance_retime]
  · rw [if_neg hL, if_neg hL]
    refine commutes_cyc fun w u τ h => ?_
    rw [bdtBase_retime h, bdtAdvance_retime]

lemma commutes_branch : Commutes τ s.nextType.isMem s.cBranch (s.retime τ).cBranch := by
  unfold cBranch
  refine commutes_cycle1 fun u τ => ?_
  dsimp only
  split_ifs <;> rfl

lemma commutes_undef : Commutes τ s.nextType.isMem s.cUndef (s.retime τ).cUndef := by
  unfold cUndef
  rw [retime_k]
  split_ifs
  · exact commutes_cyc (s := s.setX _) fun _ _ _ _ => rfl
  · exact commutes_cyc fun _ _ _ _ => rfl

lemma commutes_refill : Commutes τ s.nextType.isMem s.cRefill (s.retime τ).cRefill := by
  unfold cRefill
  rw [retime_k]
  split_ifs
  · exact commutes_cyc fun w u τ h => by
      dsimp only
      rw [retime_lastAbort, h]
      rfl
  · exact commutes_cyc fun w u τ h => by
      rw [retime_lastAbort, h]
      rfl

/-- Every sequencer commutes with the lines. -/
lemma commutes_sequence (s : Arm7DI) (τ : Lines) :
    Commutes τ s.nextType.isMem s.sequence (s.retime τ).sequence := by
  unfold sequence
  rw [retime_seq]
  split
  · exact commutes_cyc fun _ _ _ _ => rfl
  · exact commutes_cycle1 fun _ _ => rfl
  · exact commutes_dp
  · exact commutes_psr
  · exact commutes_mul
  · exact commutes_swp
  · exact commutes_sdt
  · exact commutes_bdt
  · exact commutes_branch
  · exact commutes_undef
  · exact commutes_cyc fun _ _ _ _ => rfl
  · exact commutes_refill

end Arm7DI

/-! ### Sequences on their own -/

/-- What a bus cycle drives, apart from its time. -/
structure Signals where
  type : CycleType
  addr : Word
  wdata : Word
  flags : BusFlags
  deriving DecidableEq, Repr

def BusCycle.signals (b : BusCycle) : Signals := ⟨b.type, b.addr, b.wdata, b.flags⟩

namespace Arm7DI

/-- From `s`, with the answers from position `i` on, a sequence drives these cycles and reaches
`t`, without a boundary in between. -/
inductive Steps (as : ℕ → Answer) : ℕ → Arm7DI → List Signals → Arm7DI → Prop
  | nil (i : ℕ) (s : Arm7DI) : Steps as i s [] s
  | cons {i : ℕ} {s t : Arm7DI} {row : List Signals} (hs : s.seq ≠ .idle)
      (h : Steps as (i + 1) (s.sequence.next (as i)) row t) :
      Steps as i s (s.sequence.bus.signals :: row) t

variable {as : ℕ → Answer} {i : ℕ} {s t v : Arm7DI} {τ : Lines} {row row' : List Signals}

lemma Steps.append (h : Steps as i s row t) (h' : Steps as (i + row.length) t row' v) :
    Steps as i s (row ++ row') v := by
  induction h with
  | nil i s => exact h'
  | cons hs _ ih => exact .cons hs (ih (by rwa [List.length_cons, ← Nat.add_assoc, Nat.add_right_comm] at h'))

/-- One cycle, by what the state drives. -/
lemma Steps.step {d : Drive} {r : Signals} (hs : s.seq ≠ .idle) (hd : s.sequence = d)
    (hr : d.bus.signals = r) (h : Steps as (i + 1) (d.next (as i)) row t) :
    Steps as i s (r :: row) t := by
  subst hd hr
  exact .cons hs h

variable {inp : ℕ → Input} {s₀ : Arm7DI}

lemma next_retime (hs : s.seq ≠ .idle) {x : Input} :
    ∃ τ', core.next (s.retime τ) x = (s.sequence.next x.ans).retime τ' := by
  have hp : (s.retime τ).poke x.lines = s.retime ((s.retime τ).poke x.lines).lines :=
    poke_eq_retime _ _
  generalize ((s.retime τ).poke x.lines).lines = τ₁ at hp
  refine ⟨τ₁.sampled s.nextType.isMem x.ans, ?_⟩
  rw [core_next, hp, busCycle_of_ne (s := s.retime τ₁) hs]
  exact (commutes_sequence s τ₁).2 _

lemma out_retime (hs : s.seq ≠ .idle) {x : Input} :
    (core.out (s.retime τ) x).signals = s.sequence.bus.signals := by
  have hp : (s.retime τ).poke x.lines = s.retime ((s.retime τ).poke x.lines).lines :=
    poke_eq_retime _ _
  rw [core_out, hp, busCycle_of_ne (s := s.retime _) hs, (commutes_sequence s _).1]
  rfl

/-- A run that has reached the state of some steps follows them, whatever the lines do. -/
lemma Steps.follow (h : Steps (fun n => (inp n).ans) i s row t)
    (hs : ∃ τ, core.after s₀ inp i = s.retime τ) :
    (∃ τ, core.after s₀ inp (i + row.length) = t.retime τ) ∧
    ∀ j (hj : j < row.length), (core.outs s₀ inp (i + j)).signals = row[j] ∧
      (core.after s₀ inp (i + j)).seq ≠ .idle := by
  induction h with
  | nil i s => exact ⟨hs, fun j hj => absurd hj (Nat.not_lt_zero j)⟩
  | @cons i s t row hne _ ih =>
    obtain ⟨τ, hτ⟩ := hs
    obtain ⟨τ', hτ'⟩ := next_retime (τ := τ) hne (x := inp i)
    obtain ⟨hend, hrow⟩ := ih ⟨τ', by rw [Machine.after_succ, hτ, hτ']⟩
    refine ⟨?_, fun j hj => ?_⟩
    · rwa [List.length_cons, ← Nat.add_assoc, Nat.add_right_comm]
    · cases j with
      | zero =>
        rw [Nat.add_zero, Machine.outs, hτ]
        exact ⟨out_retime hne, hne⟩
      | succ j =>
        have := hrow j (Nat.lt_of_succ_lt_succ hj)
        rwa [Nat.add_right_comm] at this

/-- A sequence in a run, from the boundary at which it begins. -/
theorem run_of_steps {r : Signals}
    (h : Steps (fun n => (inp n).ans) 0 (s₀.poke (inp 0).lines).start (r :: row) t) :
    (∃ τ, core.after s₀ inp (row.length + 1) = t.retime τ) ∧
    (∀ j (hj : j < row.length + 1), (core.outs s₀ inp j).signals = (r :: row)[j]) ∧
    ∀ j, 0 < j → j < row.length + 1 → (core.after s₀ inp j).seq ≠ .idle := by
  cases h with
  | cons hs h =>
    have hfirst : core.after s₀ inp 1 =
        (s₀.poke (inp 0).lines).start.sequence.next (inp 0).ans := rfl
    have hat : ∃ τ, core.after s₀ inp 1 =
        ((s₀.poke (inp 0).lines).start.sequence.next (inp 0).ans).retime τ :=
      ⟨_, hfirst.trans retime_lines.symm⟩
    obtain ⟨hend, hrow⟩ := h.follow hat
    refine ⟨by rwa [Nat.add_comm] at hend, fun j hj => ?_, fun j h0 hj => ?_⟩
    · cases j with
      | zero => rfl
      | succ j => simpa [Nat.add_comm] using (hrow j (Nat.lt_of_succ_lt_succ hj)).1
    · obtain ⟨j, rfl⟩ := Nat.exists_eq_add_of_lt h0
      simpa [Nat.add_comm] using (hrow j (by omega)).2

end Arm7DI

end Wren7
