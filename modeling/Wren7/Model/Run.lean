import Wren7.Model.Arm7DI
import Wren7.Reactive.Machine

/-!
# Runs of the core

One step of a run is one call of `bus_cycle()`. Its input is what moves the lines before the cycle
(`set_reset`, `set_fiq` and `set_irq` from outside, or from `Arm7Bus::tick` at a boundary) and the
answer of the bus; its output is the bus cycle that is driven.
-/

namespace Wren7

open Bits Reactive

structure Input where
  lines : List Line
  ans : Answer

namespace Arm7DI

/-- The input lines moved any number of times. -/
def poke (s : Arm7DI) (ls : List Line) : Arm7DI := ls.foldl setLine s

/-- The core as a machine, one bus cycle per step. -/
def core : Machine Arm7DI Input BusCycle where
  out s i := (s.poke i.lines).busCycle.bus
  next s i := (s.poke i.lines).busCycle.next i.ans

variable (s : Arm7DI) (i : Input)

lemma core_out : core.out s i = (s.poke i.lines).busCycle.bus := rfl

lemma core_next : core.next s i = (s.poke i.lines).busCycle.next i.ans := rfl

/-! ### What the lines cannot move -/

/-- A field that no line moves is the same after any number of moves. -/
lemma poke_field {β : Type*} (f : Arm7DI → β) (hf : ∀ s l, f (setLine s l) = f s)
    (ls : List Line) : f (s.poke ls) = f s := by
  induction ls generalizing s with
  | nil => rfl
  | cons l ls ih => rw [poke, List.foldl_cons, ← poke, ih, hf]

section Poke

variable (ls : List Line)

@[simp] lemma poke_seq : (s.poke ls).seq = s.seq :=
  poke_field s (·.seq) (fun _ l => by cases l <;> rfl) ls

@[simp] lemma poke_k : (s.poke ls).k = s.k :=
  poke_field s (·.k) (fun _ l => by cases l <;> rfl) ls

@[simp] lemma poke_x : (s.poke ls).x = s.x :=
  poke_field s (·.x) (fun _ l => by cases l <;> rfl) ls

@[simp] lemma poke_gpr : (s.poke ls).gpr = s.gpr :=
  poke_field s (·.gpr) (fun _ l => by cases l <;> rfl) ls

@[simp] lemma poke_pc : (s.poke ls).pc = s.pc :=
  poke_field s (·.pc) (fun _ l => by cases l <;> rfl) ls

@[simp] lemma poke_cpsr : (s.poke ls).cpsr = s.cpsr :=
  poke_field s (·.cpsr) (fun _ l => by cases l <;> rfl) ls

@[simp] lemma poke_spsr : (s.poke ls).spsr = s.spsr :=
  poke_field s (·.spsr) (fun _ l => by cases l <;> rfl) ls

@[simp] lemma poke_ex : (s.poke ls).ex = s.ex :=
  poke_field s (·.ex) (fun _ l => by cases l <;> rfl) ls

@[simp] lemma poke_de : (s.poke ls).de = s.de :=
  poke_field s (·.de) (fun _ l => by cases l <;> rfl) ls

@[simp] lemma poke_f1 : (s.poke ls).f1 = s.f1 :=
  poke_field s (·.f1) (fun _ l => by cases l <;> rfl) ls

@[simp] lemma poke_nextType : (s.poke ls).nextType = s.nextType :=
  poke_field s (·.nextType) (fun _ l => by cases l <;> rfl) ls

@[simp] lemma poke_dabortPending : (s.poke ls).dabortPending = s.dabortPending :=
  poke_field s (·.dabortPending) (fun _ l => by cases l <;> rfl) ls

@[simp] lemma poke_mulCarry : (s.poke ls).mulCarry = s.mulCarry :=
  poke_field s (·.mulCarry) (fun _ l => by cases l <;> rfl) ls

@[simp] lemma poke_irqSyncStages : (s.poke ls).irqSyncStages = s.irqSyncStages :=
  poke_field s (·.irqSyncStages) (fun _ l => by cases l <;> rfl) ls

@[simp] lemma poke_bank : (s.poke ls).bank = s.bank := by rw [bank, poke_cpsr, bank]

@[simp] lemma poke_rd (r : Reg) (v : Word) : (s.poke ls).rd r v = s.rd r v := by
  rw [rd, poke_gpr, poke_bank, rd]

@[simp] lemma poke_condPass (op : Word) : (s.poke ls).condPass op = s.condPass op := by
  simp only [condPass, poke_cpsr]

/-- Releasing nRESET leaves the reset entry pending. -/
lemma poke_reset (h : (s.poke ls).inReset = false) (h' : (s.poke ls).resetExit = false) :
    s.inReset = false ∧ s.resetExit = false := by
  induction ls generalizing s with
  | nil => exact ⟨h, h'⟩
  | cons l ls ih =>
    obtain ⟨h0, h1⟩ := ih (s.setLine l) h h'
    cases l with
    | reset b =>
      simp only [setLine, setReset_inReset] at h0
      simpa [setLine, h0, and_comm] using h1
    | fiq b => exact ⟨h0, h1⟩
    | irq b => exact ⟨h0, h1⟩

end Poke

end Arm7DI

end Wren7
