import Wren7.Model.Control

/-!
# The bus protocol

What a memory system may rely on, over whole runs from power-on: sequential cycles, the two locked
cycles of a swap, the flags of internal cycles and of opcode fetches.
-/

namespace Wren7

open Bits Reactive

namespace Arm7DI

variable (stages : ℕ) (carry : MulCarry) (inp : ℕ → Input)

lemma follows_outs {s : Arm7DI} {n : ℕ} {addr : Word} {write opc : Bool}
    (h : (histories s inp n).Follows addr write opc) : ∃ m, n = m + 1 ∧
      ((core.outs s inp m).type.isMem = true ∧ addr = (core.outs s inp m).addr + 4 ∧
          (core.outs s inp m).flags.write = write ∧ (core.outs s inp m).flags.opc = opc ∨
        (core.outs s inp m).type = .I ∧ (core.outs s inp m).addr = addr) := by
  obtain ⟨p, hp, h⟩ := h
  cases n with
  | zero => cases hp
  | succ m =>
    cases hp
    exact ⟨m, rfl, h⟩

lemma lockedRead_outs {s : Arm7DI} {n : ℕ} {addr : Word} {byte : Bool}
    (h : (histories s inp n).LockedRead addr byte) : ∃ m, n = m + 1 ∧
      (core.outs s inp m).flags.lock = true ∧ (core.outs s inp m).flags.write = false ∧
      (core.outs s inp m).addr = addr ∧ (core.outs s inp m).flags.byte = byte := by
  obtain ⟨p, hp, h⟩ := h
  cases n with
  | zero => cases hp
  | succ m =>
    cases hp
    exact ⟨m, rfl, h⟩

/-- In every run from power-on: an S cycle follows a memory cycle at the address before it, in the
same direction and with the same nOPC, or an I cycle at its own address; locked cycles come as a
read and the write right after it, at one address and with one size; I cycles are plain, there is no
C cycle, and opcode fetches are aligned reads. -/
theorem bus_protocol :
    let c : ℕ → BusCycle := core.outs (powerOn stages carry) inp
    (∀ n, (c n).type = .S → ∃ m, n = m + 1 ∧
      ((c m).type.isMem = true ∧ (c n).addr = (c m).addr + 4 ∧
          (c m).flags.write = (c n).flags.write ∧ (c m).flags.opc = (c n).flags.opc ∨
        (c m).type = .I ∧ (c m).addr = (c n).addr)) ∧
    (∀ n, (c n).flags.lock = true → (c n).flags.write = true → ∃ m, n = m + 1 ∧
      (c m).flags.lock = true ∧ (c m).flags.write = false ∧ (c m).addr = (c n).addr ∧
      (c m).flags.byte = (c n).flags.byte) ∧
    (∀ n, (c n).flags.lock = true → (c n).flags.write = false →
      (c (n + 1)).flags.lock = true ∧ (c (n + 1)).flags.write = true ∧
      (c (n + 1)).addr = (c n).addr ∧ (c (n + 1)).flags.byte = (c n).flags.byte) ∧
    (∀ n, (c n).type = .I →
      (c n).flags.write = false ∧ (c n).flags.byte = false ∧ (c n).flags.lock = false) ∧
    (∀ n, (c n).type ≠ .C) ∧
    (∀ n, (c n).flags.opc = true → (c n).flags.write = false ∧ Aligned (c n).addr) := by
  intro c
  have hproper := proper_outs stages carry inp
  have hwrite : ∀ n, (c n).flags.lock = true → (c n).flags.write = true → ∃ m, n = m + 1 ∧
      (c m).flags.lock = true ∧ (c m).flags.write = false ∧ (c m).addr = (c n).addr ∧
      (c m).flags.byte = (c n).flags.byte :=
    fun n hl hw => lockedRead_outs inp ((hproper n).lockedWrite hl hw)
  refine ⟨fun n hS => follows_outs inp ((hproper n).sequential hS), hwrite, fun n hl hr => ?_,
    fun n => (hproper n).internal, fun n => (hproper n).type, fun n => (hproper n).fetch⟩
  -- the cycle after a locked read is the write that the read waits for
  rcases (hproper (n + 1)).afterLock with hu | ⟨hl', hw'⟩
  · exact absurd ((hu (c n) rfl hl).symm.trans hr) (by decide)
  · obtain ⟨m, hm, -, -, ha, hb⟩ := hwrite (n + 1) hl' hw'
    cases hm
    exact ⟨hl', hw', ha.symm, hb.symm⟩

end Arm7DI

end Wren7
