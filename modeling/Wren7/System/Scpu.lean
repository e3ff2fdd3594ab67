import Wren7.System.WaveRam

/-!
# The interrupt to the SH4

The bus records the first write of a program that sets SCPU in MCIPD, and when it was made.
-/

namespace Wren7

open Bits Reactive

namespace RegBlock

variable {ρ : Type*} {s : RegBlock ρ}

/-- When SCPU was raised. -/
def scpu (s : RegBlock ρ) : Option ℕ := if s.scpuRaised then some s.scpuT else none

lemma scpu_eq_none : s.scpu = none ↔ s.scpuRaised = false := by
  rw [scpu]
  split_ifs with h <;> simp [h]

lemma scpu_eq_some {t : ℕ} : s.scpu = some t ↔ s.scpuRaised = true ∧ s.scpuT = t := by
  rw [scpu]
  split_ifs with h <;> simp [h]

lemma scpu_updateInterrupts : s.updateInterrupts.scpu = s.scpu := by
  unfold updateInterrupts
  dsimp only
  split_ifs <;> rfl

lemma scpu_sampleClock (t : ℕ) : (s.sampleClock t).scpu = s.scpu := by
  obtain ⟨u, n, hu, ⟨-, he⟩ | ⟨-, he⟩⟩ := sampleClock_eq (s := s) t <;> rw [he]
  · have hedge : (u.edge.setNext n).scpu = u.marked.updateInterrupts.scpu := rfl
    rw [hedge, scpu_updateInterrupts]
    rcases hu with rfl | ⟨_, rfl⟩ <;> rfl
  · rcases hu with rfl | ⟨_, rfl⟩ <;> rfl

variable [AicaRegs ρ]

lemma scpu_rreg (r : RegNo) : (s.rreg r).2.scpu = s.scpu := by
  unfold rreg
  split_ifs
  · rfl
  · rfl
  · rfl
  · rfl
  · split <;> rfl

lemma scpu_wreg (r : RegNo) (v mask : BitVec 16) : (s.wreg r v mask).scpu = s.scpu := by
  unfold wreg
  by_cases hL : r = regL
  · rw [if_pos hL]
  rw [if_neg hL]
  by_cases hM : r = regM
  · rw [if_pos hM]
    split_ifs
    · exact scpu_updateInterrupts
    · rfl
  rw [if_neg hM]
  split
  · exact scpu_updateInterrupts
  · refine scpu_updateInterrupts.trans ?_
    split_ifs <;> rfl

end RegBlock

/-- A write that sets SCPU in MCIPD. -/
def Signals.RaisesScpu (c : Signals) : Prop :=
  (c.type.isMem = true ∧ DcArmBus.inRam c.addr = false ∧ c.flags.write = true) ∧
    regNo c.addr = mcipd ∧ (field c.addr 0 2).toNat = 0 ∧ bit c.wdata 5 = true

instance (c : Signals) : Decidable c.RaisesScpu := inferInstanceAs (Decidable (_ ∧ _))

namespace RegBlock

variable {ρ : Type*} (s : RegBlock ρ) [AicaRegs ρ] {c : BusCycle}

omit [AicaRegs ρ] in
/-- Later writes leave the record as it is. -/
lemma scpu_raise (t : ℕ) {p : Prop} [Decidable p] :
    (if p ∧ (!s.scpuRaised) = true then s.raiseScpu t else s).scpu =
      s.scpu.or (if p then some t else none) := by
  by_cases hp : p
  · cases hs : s.scpuRaised with
    | false =>
      rw [if_pos ⟨hp, rfl⟩, if_pos hp, scpu_eq_none.mpr hs]
      rfl
    | true =>
      rw [if_neg fun h => Bool.false_ne_true h.2, scpu_eq_some.mpr ⟨hs, rfl⟩]
      rfl
  · rw [if_neg fun h => hp h.1, if_neg hp, Option.or_none]

/-- The record in an access to the registers. -/
lemma scpu_regCycle (hm : c.type.isMem = true) (hr : DcArmBus.inRam c.addr = false) :
    (s.regCycle c).2.scpu = s.scpu.or (if c.signals.RaisesScpu then some c.t else none) := by
  have hraises : c.signals.RaisesScpu ↔ c.flags.write = true ∧ regNo c.addr = mcipd ∧
      (field c.addr 0 2).toNat = 0 ∧ bit c.wdata 5 = true :=
    ⟨fun h => ⟨h.1.2.2, h.2⟩, fun h => ⟨⟨hm, hr, h.1⟩, h.2⟩⟩
  unfold regCycle
  cases hw : c.flags.write with
  | false =>
    rw [if_neg Bool.false_ne_true, if_neg fun h => Bool.false_ne_true (hw ▸ h.1.2.2),
      Option.or_none]
    exact scpu_rreg _
  | true =>
    have hu := s.scpu_raise c.t (p := regNo c.addr = mcipd ∧ (field c.addr 0 2).toNat = 0 ∧
      bit c.wdata 5 = true)
    simp only [hraises, hw, true_and, ← hu, and_assoc]
    rw [if_pos trivial]
    dsimp only
    split_ifs
    all_goals first | exact scpu_wreg _ _ _ | rfl

end RegBlock

namespace DcArmBus

variable {ρ : Type*} {b : DcArmBus ρ} [AicaRegs ρ] {c : BusCycle}

lemma scpu_cycle (hb : b.SlotsOk) (c : BusCycle) : (b.cycle c).2.block.scpu =
    b.block.scpu.or (if c.signals.RaisesScpu then some c.t else none) := by
  have htick : (b.tick c.t).block.scpu = b.block.scpu := RegBlock.scpu_sampleClock c.t
  cases hm : c.type.isMem with
  | false =>
    have hno : ¬c.signals.RaisesScpu := fun h => by
      have := hm.symm.trans h.1.1
      cases this
    rw [cycle_internal hm, htick, if_neg hno, Option.or_none]
  | true =>
    have harb : ((b.tick c.t).arbitrated c).block.scpu = b.block.scpu := by
      rw [(arb_arbitrated (hb.tick c.t) c).block_eq]
      exact htick
    rw [cycle_mem hm, access_block]
    cases hr : inRam c.addr with
    | true =>
      have hno : ¬c.signals.RaisesScpu := fun h => by
        have := hr.symm.trans h.1.2.1
        cases this
      rw [if_pos rfl, harb, if_neg hno, Option.or_none]
    | false => rw [if_neg Bool.false_ne_true, RegBlock.scpu_regCycle _ hm hr, harb]

end DcArmBus

namespace System

variable {ρ : Type*} [AicaRegs ρ] {s : System ρ}

lemma scpu_busCycle (h : s.bus.SlotsOk) : s.busCycle.bus.block.scpu =
    s.bus.block.scpu.or (if s.drive.signals.RaisesScpu then some s.core.cycles else none) := by
  have hb : s.boundary.bus.block.scpu = s.bus.block.scpu := by
    unfold System.boundary
    split_ifs
    · exact RegBlock.scpu_sampleClock _
    · rfl
  have hc := DcArmBus.scpu_cycle (boundary_bus h).1 s.drive
  rwa [hb, drive_t] at hc

lemma slotsOk_after (h : s.bus.SlotsOk) (n : ℕ) : (System.busCycle^[n] s).bus.SlotsOk := by
  induction n with
  | zero => exact h
  | succ n ih =>
    rw [Function.iterate_succ_apply']
    exact (boundary_bus ih).1.cycle _

/-- Bus cycle `k` of a run raises SCPU. -/
def RaisesAt (s : System ρ) (k : ℕ) : Prop := (System.busCycle^[k] s).drive.signals.RaisesScpu

instance (s : System ρ) (k : ℕ) : Decidable (s.RaisesAt k) :=
  inferInstanceAs (Decidable (Signals.RaisesScpu _))

variable (h : s.bus.SlotsOk) (h0 : s.bus.block.scpu = none) {n k : ℕ}

include h

lemma scpu_succ (n : ℕ) : (System.busCycle^[n + 1] s).bus.block.scpu =
    (System.busCycle^[n] s).bus.block.scpu.or
      (if s.RaisesAt n then some (System.busCycle^[n] s).core.cycles else none) := by
  rw [Function.iterate_succ_apply']
  exact scpu_busCycle (slotsOk_after h n)

include h0

/-- Nothing is recorded before SCPU is raised. -/
lemma scpu_before (hn : ∀ k < n, ¬s.RaisesAt k) :
    (System.busCycle^[n] s).bus.block.scpu = none := by
  induction n with
  | zero => exact h0
  | succ n ih =>
    rw [scpu_succ h, ih fun k hk => hn k (Nat.lt_succ_of_lt hk), if_neg (hn n (Nat.lt_succ_self n))]
    rfl

/-- From then on the record is the time of the first write. -/
lemma scpu_after (hk : s.RaisesAt k) (hfirst : ∀ i < k, ¬s.RaisesAt i) (hn : k < n) :
    (System.busCycle^[n] s).bus.block.scpu = some (System.busCycle^[k] s).core.cycles := by
  induction n with
  | zero => exact absurd hn (Nat.not_lt_zero k)
  | succ n ih =>
    rw [scpu_succ h]
    rcases Nat.lt_succ_iff_lt_or_eq.mp hn with hlt | rfl
    · rw [ih hlt]
      rfl
    · rw [scpu_before h h0 hfirst, if_pos hk]
      rfl

lemma scpuRaised_iff : (System.busCycle^[n] s).bus.block.scpuRaised = true ↔
    ∃ k < n, s.RaisesAt k := by
  classical
  constructor
  · intro hr
    by_contra hno
    have hnone := scpu_before h h0 fun k hk hr => hno ⟨k, hk, hr⟩
    rw [RegBlock.scpu_eq_none, hr] at hnone
    cases hnone
  · rintro ⟨k, hk, hr⟩
    have hex : ∃ k, s.RaisesAt k := ⟨k, hr⟩
    have hsome := scpu_after h h0 (Nat.find_spec hex) (fun i hi => Nat.find_min hex hi)
      ((Nat.find_min' hex hr).trans_lt hk)
    exact (RegBlock.scpu_eq_some.mp hsome).1

end System

end Wren7
