import Wren7.Equiv.LockStep
import Wren7.Model.Abort

/-!
# Data aborts of both machines

The state after an aborted transfer, in the model and in the RTL that runs in step with it.
-/

namespace Wren7

open Bits Rtl Reactive Reactive.Machine

variable {s : Arm7DI} {op : Word}

/-- What a bus that presents these levels and answers gives to the model. -/
def inputs (s : Arm7DI) (lv : ℕ → Levels) (ans : ℕ → Answer) (k : ℕ) : Input :=
  (lined.after s (fun k => (lv k, ans k)) k).seen (lv k, ans k)

lemma lined_after (s : Arm7DI) (lv : ℕ → Levels) (ans : ℕ → Answer) (k : ℕ) :
    lined.after s (fun k => (lv k, ans k)) k = Arm7DI.core.after s (inputs s lv ans) k := by
  induction k with
  | zero => rfl
  | succ k ih =>
    rw [after_succ, after_succ, ← ih]
    rfl

/-- An RTL core related to a model state agrees with it in every clock of the run. -/
lemma Related.agree_after {c : Core} {pins : ℕ → Pins} {lv : ℕ → Levels} {ans : ℕ → Answer}
    (h0 : Related c s (lv 0)) (hp : Presents c pins lv ans) (n : ℕ) :
    Agree (rtl.after c pins n) (Arm7DI.core.after s (inputs s lv ans) (cycleAt c pins n))
      (Arm7DI.core.outs s (inputs s lv ans) (cycleAt c pins n)) := by
  have h := (related_after hp h0 n).agree (ans (cycleAt c pins n))
  rw [lined_after] at h
  refine Eq.mp ?_ h
  congr 1
  rw [outs, ← lined_after]
  rfl

/-- The state after a transfer with an aborted data cycle: what it left undone, the base, and the
abort entry that follows at the next boundary. A core of the RTL in step with the model shows the
same. -/
theorem abort_state {inp : ℕ → Input} (hs : (s.poke (inp 0).lines).Quiet) (hop : s.ex.word = op)
    (hc : s.condPass op = true) (htr : Arm7DI.IsTransfer op) (hrn : field op 16 4 ≠ 15)
    (hab : ∃ j, 1 ≤ j ∧ j ≤ Arm7DI.dataCycles op ∧ (inp j).ans.abort = true) :
    let N := Arm7DI.transferCycles op
    let t := Arm7DI.core.after s inp N
    Arm7DI.TransferCycles s inp op ∧ Arm7DI.Aborted s inp op t ∧
    ((t.poke (inp N).lines).inReset = false → (t.poke (inp N).lines).resetExit = false →
      Arm7DI.Enters t (fun k => inp (N + k)) 0x10 mAbt false (s.pc - 8 + 8)) ∧
    ∀ (c : Core) (pins : ℕ → Pins) (lv : ℕ → Levels) (ans : ℕ → Answer), Related c s (lv 0) →
      Presents c pins lv ans → inp = inputs s lv ans →
      ∀ n, Agree (rtl.after c pins n) (Arm7DI.core.after s inp (cycleAt c pins n))
        (Arm7DI.core.outs s inp (cycleAt c pins n)) := by
  intro N t
  obtain ⟨hcyc, hstate⟩ := Arm7DI.aborted_transfer hs hop hc htr hrn hab
  refine ⟨hcyc, hstate, fun hr he => ?_, fun c pins lv ans h0 hp hin n => ?_⟩
  · have hret : s.pc - 8 + 8 = t.pc - 4 := by
      rw [hstate.pc, BitVec.sub_add_cancel, BitVec.add_sub_cancel]
    rw [hret]
    exact Arm7DI.enters_dabort hcyc.next.boundary hstate.dabort hr he
  · rw [hin]
    exact h0.agree_after hp n

/-- `LDR r1, [r0]` whose read aborts. -/
theorem abort_state_ldr :
    let inp : ℕ → Input := fun k => ⟨[], ⟨⟨0x40, 0, k == 1⟩, false, false⟩⟩
    let t := Arm7DI.core.after (Arm7DI.resting 0xE5901000) inp 3
    t.gpr = (fun _ => 0) ∧ t.dabortPending = true ∧
      Arm7DI.Enters t (fun k => inp (3 + k)) 0x10 mAbt false 8 := by
  intro inp t
  have hs : ((Arm7DI.resting 0xE5901000).poke (inp 0).lines).Quiet := Arm7DI.resting_quiet _
  have hn : Arm7DI.transferCycles 0xE5901000 = 3 := by decide
  obtain ⟨-, hstate, henter, -⟩ := @abort_state _ 0xE5901000 _ hs rfl (by decide)
    (Or.inl (by decide)) (by decide) ⟨1, by decide, by decide, rfl⟩
  rw [hn] at hstate henter
  exact ⟨hstate.single (by decide), hstate.dabort, henter (by decide +kernel) (by decide +kernel)⟩

end Wren7
