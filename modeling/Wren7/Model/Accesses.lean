import Wren7.Model.Abort

/-!
# The data accesses of a transfer

The cycles of LDR, STR, SWP, LDM and STM for every answer of the bus, aborted or not, as long as R15
is not loaded.
-/

namespace Wren7

open Bits Reactive

namespace Arm7DI

/-- A transfer that loads R15. -/
def LoadsPc (op : Word) : Prop :=
  bit op 20 = true ∧ (seqOf op = .sdt ∧ field op 12 4 = 15 ∨ seqOf op = .bdt ∧ 15 ∈ blockList op)

section Run

variable {s : Arm7DI} {inp : ℕ → Input} {op : Word} {r : Signals} {f : ℕ → Signals} {n : ℕ}
  {l : List Signals} {A : Arch}

/-- A row whose data cycles are where those of the transfer are. -/
lemma Performs.transferCycles (hn : dataCycles op = n)
    (h : Performs s inp (r :: ((List.range n).map f ++ l)) A)
    (hlen : transferCycles op = n + l.length + 1)
    (hr : ∀ c ∈ r :: l, c.flags.opc = true ∨ c.type = .I)
    (hf : ∀ j < n, (f j).type.isMem = true ∧ (f j).flags.opc = false ∧
      (f j).flags.write = (if seqOf op = .swp then decide (1 + j = 2) else !bit op 20) ∧
      (f j).addr = s.transferAddr op (1 + j)) : TransferCycles s inp op where
  next := by
    rw [hlen]
    simpa using h.next
  data j hj hj' := by
    obtain ⟨j, rfl⟩ := Nat.exists_eq_add_of_le hj
    have hsig := h.transfer (j := j) (by omega)
    obtain ⟨ht, ho, hw, -⟩ := hf j (by omega)
    exact ⟨(congrArg (·.type.isMem) hsig).trans ht, (congrArg (·.flags.opc) hsig).trans ho,
      (congrArg (·.flags.write) hsig).trans hw⟩
  addr j hj hj' := by
    obtain ⟨j, rfl⟩ := Nat.exists_eq_add_of_le hj
    exact (congrArg Signals.addr (h.transfer (by omega))).trans (hf j (by omega)).2.2.2
  only j hj h' := h.only hr (hlen ▸ hj) (hn ▸ h')

variable (hs : (s.poke (inp 0).lines).Quiet) (hop : s.ex.word = op) (hc : s.condPass op = true)

include hs hop hc

lemma transferCycles_sdt (hseq : seqOf op = .sdt) (hrn : field op 16 4 ≠ 15)
    (hpc : ¬LoadsPc op) : TransferCycles s inp op := by
  set q := s.begun inp .sdt
  have hqop : q.x.op = op := begun_op hop
  have haddr : q.sdtAddr op = s.transferAddr op 1 := by
    rw [begun_sdtAddr, transferAddr, hseq]
  have hdata : dataCycles op = 1 := by simp [dataCycles, hseq]
  by_cases hab : (inp 1).ans.abort = true
  · exact (aborted_sdt hs hop hc hseq hrn hab).1
  cases hL : bit op 20 with
  | false =>
    have h := hs.performs hop hc hseq (by decide)
      (finishes_str (q := q) rfl rfl (by rw [hqop]; exact hL))
    rw [hqop] at h
    refine Performs.transferCycles (l := []) (f := fun _ => _) hdata h ?_ ?_ ?_
    · simp [Arm7DI.transferCycles, hdata, hseq, hL]
    · simp [fetchCycle, fetchFlags]
    · intro j hj
      obtain rfl : j = 0 := by omega
      exact ⟨rfl, rfl, by simp [hseq, hL], haddr⟩
  | true =>
    have h15 : field op 12 4 ≠ 15 := fun h15 => hpc ⟨hL, Or.inl ⟨hseq, h15⟩⟩
    have h := hs.performs hop hc hseq (by decide) (finishes_ldr (q := q) rfl rfl
      (by rw [hqop]; exact hL) (Bool.not_eq_true _ ▸ hab) (by rw [hqop]; exact h15))
    rw [hqop] at h
    refine Performs.transferCycles (l := [q.idleCycle]) (f := fun _ => _) hdata h ?_ ?_ ?_
    · simp [Arm7DI.transferCycles, hdata, hseq, hL]
    · simp [fetchCycle, fetchFlags, idleCycle]
    · intro j hj
      obtain rfl : j = 0 := by omega
      exact ⟨rfl, rfl, by simp [hseq, hL, sdtFlags], haddr⟩

lemma transferCycles_swp (hseq : seqOf op = .swp) : TransferCycles s inp op := by
  set q := s.begun inp .swp
  have hqop : q.x.op = op := begun_op hop
  by_cases hab : (inp 1).ans.abort = true ∨ (inp 2).ans.abort = true
  · exact (aborted_swp hs hop hc hseq hab).1
  have h := hs.performs hop hc hseq (by decide) (finishes_swp (q := q) rfl rfl (by simpa using hab))
  have hdata : dataCycles op = 2 := by simp [dataCycles, hseq]
  have haddr (j : ℕ) : q.swpAddr op = s.transferAddr op j := by
    simp [swpAddr, transferAddr, hseq, q]
  rw [hqop] at h
  refine Performs.transferCycles (l := [q.idleCycle])
    (f := fun j => if j = 0 then _ else _) hdata h ?_ ?_ ?_
  · simp [Arm7DI.transferCycles, hdata, hseq]
  · simp [fetchCycle, fetchFlags, idleCycle]
  · intro j hj
    obtain rfl | rfl : j = 0 ∨ j = 1 := by omega
    · exact ⟨rfl, rfl, by simp [hseq, swpFlags], haddr 1⟩
    · exact ⟨rfl, rfl, by simp [hseq, swpFlags], haddr 2⟩

lemma transferCycles_bdt (hseq : seqOf op = .bdt) (hrn : field op 16 4 ≠ 15)
    (hpc : ¬LoadsPc op) : TransferCycles s inp op := by
  have hcls : field op 25 3 = 4 := seqOf_eq_bdt.mp hseq
  have hdata : dataCycles op = (blockList op).length := by simp [dataCycles, hseq]
  by_cases hab : ∃ j < (blockList op).length, (inp (1 + j)).ans.abort = true
  · exact (aborted_bdt hs hop hc hseq hrn hab).1
  have hab' : ∀ j < (blockList op).length, (inp (1 + j)).ans.abort = false := by
    simpa using hab
  cases hL : bit op 20 with
  | false =>
    refine BlockCycles.toTransfer hseq ?_
    rw [transferCycles, if_neg (by simp [hL, hseq]), hdata]
    exact (block_store hs hop hc hcls hrn hL).1
  | true =>
    have h15 : 15 ∉ blockList op := fun h15 => hpc ⟨hL, Or.inr ⟨hseq, h15⟩⟩
    have h := (block_load hs hop hc hcls hrn hL hab').1
    refine BlockCycles.toTransfer hseq ?_
    rwa [if_neg h15, ← hdata, show dataCycles op + 2 = transferCycles op by
      simp [transferCycles, hL]] at h

/-- The cycles of any transfer that does not load R15. -/
theorem transfer_cycles (htr : IsTransfer op) (hrn : field op 16 4 ≠ 15) (hpc : ¬LoadsPc op) :
    TransferCycles s inp op := by
  rcases htr with hseq | hseq | hseq
  · exact transferCycles_sdt hs hop hc hseq hrn hpc
  · exact transferCycles_swp hs hop hc hseq
  · exact transferCycles_bdt hs hop hc hseq hrn hpc

end Run

end Arm7DI

end Wren7
