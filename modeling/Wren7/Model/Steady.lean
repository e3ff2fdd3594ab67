import Wren7.Model.Exec

/-!
# Runs without ABORT

On a bus that never aborts, no data abort is pending at any boundary. The number of synchroniser
stages is the harness's, and no cycle changes it.
-/

namespace Wren7

open Bits

namespace Arm7DI

/-- No data abort is pending or on the way in the sequence in progress; the synchronisers have `n`
stages. -/
def Steady (n : ℕ) (s : Arm7DI) : Prop :=
  s.dabortPending = false ∧ s.x.ab = false ∧ s.irqSyncStages = n

variable {s u : Arm7DI} {a : Answer} {n : ℕ}

lemma Steady.dpFinish (h : u.Steady n) (x y : Word) (c : Bool) :
    (u.dpFinish x y c).Steady n := by
  rw [dpFinish_eq]
  split_ifs <;> exact h

lemma Steady.mulFlags (h : u.Steady n) : u.mulFlags.Steady n := by
  unfold Arm7DI.mulFlags
  split_ifs <;> exact h

lemma Steady.msrWrite (h : u.Steady n) (p : Bool) (v m : Word) :
    (u.msrWrite p v m).Steady n := by
  unfold Arm7DI.msrWrite setSpsrCur
  split_ifs <;> exact h

lemma Steady.dp (h : s.Steady n) : (s.cDp.next a).Steady n := by
  by_cases hk : s.k = 0
  · rcases Bool.eq_false_or_eq_true (regShift s.x.op) with hr | hr
    · rw [cDp_amount hk hr]
      exact h
    · rw [cDp_single hk hr]
      refine Steady.dpFinish ?_ _ _ _
      exact h
  · rw [cDp_shift hk]
    refine Steady.dpFinish ?_ _ _ _
    exact h

lemma Steady.psr (h : s.Steady n) : (s.cPsr.next a).Steady n := by
  cases hop : bit s.x.op 21 with
  | false =>
    rw [cPsr_mrs hop]
    split_ifs <;> exact h
  | true =>
    have hw (u : Arm7DI) (h : u.Steady n) (p : Bool) (v m : Word) :
        (u.msrWrite p v m).advance.done.Steady n := h.msrWrite p v m
    rw [cPsr_msr hop]
    refine hw _ ?_ _ _ _
    exact h

lemma Steady.mul (h : s.Steady n) : (s.cMul.next a).Steady n := by
  unfold cMul cMulStart
  split_ifs
  · exact h
  · have hflags (u : Arm7DI) (h : u.Steady n) : u.mulFlags.advance.done.Steady n := h.mulFlags
    dsimp only [cyc]
    cases s.k - 1 == s.x.m - 1
    · exact h
    · refine hflags _ ?_
      exact h

lemma Steady.bdtBase (h : u.Steady n) (hl : u.lastAbort = false) :
    u.bdtBase.Steady n := by
  have hw : u.wrBase.dabortPending = false ∧ u.wrBase.irqSyncStages = n := by
    unfold wrBase
    split_ifs <;> exact ⟨h.1, h.2.2⟩
  rw [bdtBase_eq]
  exact ⟨hw.1, by rw [setX_x, h.2.1, hl]; rfl, hw.2⟩

lemma Steady.bdtLoad (h : u.Steady n) (w : Word) : (u.bdtLoad w).Steady n := by
  unfold Arm7DI.bdtLoad
  split_ifs <;> exact h

lemma Steady.bdtAdvance (h : u.Steady n) : u.bdtAdvance.Steady n := by
  unfold Arm7DI.bdtAdvance
  dsimp only
  split_ifs with h1 h2 h3
  · exact h
  · exact h
  · exact absurd (h.2.1.symm.trans h3) (by decide)
  · exact h

variable (ha : a.abort = false)

include ha

/-- The abort that a sequencer sees after the cycle. -/
lemma lastAbort_sampled (t : CycleType) : (u.sampled a t).lastAbort = false := by
  rw [sampled_lastAbort, ha, Bool.false_and]

lemma Steady.swp (h : s.Steady n) : (s.cSwp.next a).Steady n := by
  match hk : s.k with
  | 0 =>
    rw [cSwp_start hk]
    exact h
  | 1 =>
    rw [cSwp_read hk]
    exact ⟨h.1, lastAbort_sampled (u := s.setK 2) ha .I, h.2.2⟩
  | 2 =>
    rw [cSwp_write hk]
    refine ⟨h.1, ?_, h.2.2⟩
    exact (congrArg (s.x.ab || ·) (lastAbort_sampled (u := s.setK 3) ha .I)).trans
      (by rw [h.2.1, Bool.or_self])
  | k + 3 =>
    have hk3 : 3 ≤ s.k := by omega
    rw [cSwp_end hk3]
    dsimp only [cyc]
    unfold swpEnd
    rw [if_neg (by rw [show ((s.setK (s.k + 1)).sampled a .S).x.ab = false from h.2.1]; decide)]
    exact h

lemma Steady.sdt (h : s.Steady n) : (s.cSdt.next a).Steady n := by
  by_cases hk : s.k = 0
  · rw [cSdt_start hk]
    exact h
  cases hL : bit s.x.op 20 with
  | false =>
    rw [cSdt_store hk hL]
    dsimp only [cyc]
    rw [if_neg (by rw [lastAbort_sampled ha]; decide)]
    unfold sdtBase
    split_ifs <;> exact h
  | true =>
    by_cases hk1 : s.k = 1
    · rw [cSdt_load hk1 hL]
      dsimp only [cyc]
      rw [lastAbort_sampled ha]
      unfold sdtBase
      split_ifs <;> exact ⟨h.1, rfl, h.2.2⟩
    · rw [cSdt_end (by omega) hL]
      dsimp only [cyc]
      unfold sdtEnd
      rw [if_neg (by rw [show (s.sampled a _).x.ab = false from h.2.1]; decide)]
      split_ifs <;> exact h

lemma Steady.bdt (h : s.Steady n) : (s.cBdt.next a).Steady n := by
  by_cases hk : s.k = 0
  · unfold cBdt cBdtStart
    rw [if_pos hk]
    exact ⟨h.1, rfl, h.2.2⟩
  by_cases hr : s.x.r = 16
  · rw [cBdt_final hk hr]
    dsimp only [cyc]
    unfold bdtEnd
    rw [if_neg (by rw [show (s.sampled a _).x.ab = false from h.2.1]; decide)]
    split_ifs <;> exact h
  have hbase (t : CycleType) : (s.sampled a t).bdtBase.Steady n :=
    Steady.bdtBase (u := s.sampled a t) h (lastAbort_sampled ha t)
  unfold cBdt
  rw [if_neg hk, if_neg hr]
  by_cases hL : bit s.x.op 20 = true
  · rw [if_pos hL]
    exact ((hbase _).bdtLoad _).bdtAdvance
  · rw [if_neg hL]
    exact (hbase _).bdtAdvance

lemma Steady.sequence (h : s.Steady n) : (s.sequence.next a).Steady n := by
  unfold Arm7DI.sequence
  split
  · exact h
  · exact h
  · exact h.dp
  · exact h.psr
  · exact h.mul
  · exact Steady.swp ha h
  · exact Steady.sdt ha h
  · exact Steady.bdt ha h
  · unfold cBranch
    dsimp only [cycle1Fetch, cyc]
    split_ifs <;> exact h
  · unfold cUndef
    split_ifs <;> exact h
  · exact h
  · unfold cRefill
    split_ifs <;> exact h

/-- A bus cycle without ABORT leaves no data abort behind. -/
lemma Steady.busCycle (h : s.Steady n) : (s.busCycle.next a).Steady n := by
  refine Steady.sequence ha ?_
  unfold start begin
  dsimp only
  split_ifs
  · exact h
  · exact h
  · exact ⟨rfl, h.2⟩
  · exact h
  · exact h
  · exact h
  · rw [decode_eq]
    dsimp only
    split_ifs <;> exact h
  · exact h

end Arm7DI

end Wren7
