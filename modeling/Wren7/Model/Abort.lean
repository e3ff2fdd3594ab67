import Wren7.Model.BlockTransfer
import Wren7.Model.Transfer

/-!
# Data aborts

What a transfer leaves when the memory aborts it, and the exception entry that follows.
-/

namespace Wren7

open Bits Reactive

namespace Arm7DI

variable {s t u : Arm7DI} {inp : ℕ → Input} {op : Word} {A : Arch}

/-! ### Exception entries in a run -/

/-- The next three cycles of the run enter an exception. -/
structure Enters (t : Arm7DI) (inp : ℕ → Input) (vector : Word) (mode : BitVec 5) (setF : Bool)
    (ret : Word) : Prop where
  next : NextBoundary t inp 3
  pc : (core.after t inp 3).pc - 8 = vector
  gpr : (core.after t inp 3).gpr = Function.update t.gpr (phys 14 (bankOf mode)) ret
  spsr : (core.after t inp 3).spsr = Function.update t.spsr (bankOf mode) t.cpsr
  cpsr : (core.after t inp 3).cpsr =
    (t.cpsr &&& ~~~psrM) ||| mode.setWidth 32 ||| psrI ||| maskIf setF psrF

/-- The cycles of an exception entry. -/
def excRow (u : Arm7DI) (vector : Word) (mode : BitVec 5) (setF : Bool) : List Signals :=
  ⟨u.nextType, u.pc, 0, u.fetchFlags⟩ ::
    refillRow vector (u.enter (bankOf mode) mode setF (u.pc - 4)).fetchFlags

lemma performs_exc {vector : Word} {mode : BitVec 5} {setF : Bool}
    (h : (t.poke (inp 0).lines).start = u.startExc vector mode setF) :
    Performs t inp (u.excRow vector mode setF)
      ((u.arch.enter (bankOf mode) mode setF (u.pc - 4)).refill vector (inp 1).ans (inp 2).ans) := by
  refine Finishes.performs ?_
  rw [h]
  exact finishes_exc rfl

lemma enters_of_performs {vector : Word} {mode : BitVec 5} {setF : Bool} {ret : Word}
    {row : List Signals} {r : Signals} (hrow : row.length = 2)
    (h : Performs t inp (r :: row)
      ((A.enter (bankOf mode) mode setF ret).refill vector (inp 1).ans (inp 2).ans))
    (hg : A.gpr = t.gpr) (hc : A.cpsr = t.cpsr) (hs : A.spsr = t.spsr) :
    Enters t inp vector mode setF ret := by
  have hA := h.arch
  have hnext := h.next
  rw [List.length_cons, hrow] at hA
  rw [hrow] at hnext
  refine ⟨hnext, ?_, ?_, ?_, ?_⟩
  · have hpc : (core.after t inp 3).pc = vector + 8 := congrArg Arch.pc hA
    rw [hpc, BitVec.add_sub_cancel]
  · rw [← hg]
    exact congrArg Arch.gpr hA
  · rw [← hs, ← hc]
    exact congrArg Arch.spsr hA
  · rw [← hc]
    exact congrArg Arch.cpsr hA

/-- A data abort that waits is taken before anything but a reset. -/
lemma enters_dabort (hidle : t.atBoundary) (hd : t.dabortPending = true)
    (hr : (t.poke (inp 0).lines).inReset = false) (he : (t.poke (inp 0).lines).resetExit = false) :
    Enters t inp 0x10 mAbt false (t.pc - 4) := by
  have hstart := start_dabort ((poke_seq t (inp 0).lines).trans hidle) hr he (by simpa using hd)
  have h := performs_exc hstart
  rw [show (((t.poke (inp 0).lines).setK 0).setDabort false).pc = t.pc from poke_pc t _] at h
  exact enters_of_performs rfl h (poke_gpr t _) (poke_cpsr t _) (poke_spsr t _)

/-! ### Transfers -/

/-- LDR, STR, SWP, LDM and STM, the undocumented swaps included. -/
def IsTransfer (op : Word) : Prop := seqOf op = .sdt ∨ seqOf op = .swp ∨ seqOf op = .bdt

/-- The number of data cycles of a transfer. -/
def dataCycles (op : Word) : ℕ :=
  match seqOf op with
  | .bdt => (blockList op).length
  | .swp => 2
  | _ => 1

/-- The number of cycles of a transfer that does not refill the pipeline. -/
def transferCycles (op : Word) : ℕ :=
  if bit op 20 = true ∨ seqOf op = .swp then dataCycles op + 2 else dataCycles op + 1

/-- The address of data cycle `j`. -/
def transferAddr (s : Arm7DI) (op : Word) (j : ℕ) : Word :=
  match seqOf op with
  | .bdt => s.blockLow op + 4 * BitVec.ofNat 32 (j - 1)
  | .swp => s.rd (field op 16 4) s.pc
  | _ => s.sdtAddr op

/-- The word that STM stores from the register at place `i` of its list. -/
def storedWord (s : Arm7DI) (op : Word) (i : ℕ) (hi : i < (blockList op).length) : Word :=
  if (blockList op)[i] = 15 then s.pc + 4
  else (if i = 0 then s.gpr else s.blockBack op)
    (phys (BitVec.ofNat 4 (blockList op)[i]) (s.blockBank op))

/-- The cycles of a transfer: the data cycles are cycles 1 to `dataCycles op`; of a swap the second
one writes, of the others all or none. -/
structure TransferCycles (s : Arm7DI) (inp : ℕ → Input) (op : Word) : Prop where
  next : NextBoundary s inp (transferCycles op)
  data : ∀ j, 1 ≤ j → j ≤ dataCycles op → (core.outs s inp j).type.isMem = true ∧
    (core.outs s inp j).flags.opc = false ∧
    (core.outs s inp j).flags.write = if seqOf op = .swp then decide (j = 2) else !bit op 20
  addr : ∀ j, 1 ≤ j → j ≤ dataCycles op → (core.outs s inp j).addr = s.transferAddr op j
  only : ∀ j < transferCycles op, j = 0 ∨ dataCycles op < j →
    (core.outs s inp j).flags.opc = true ∨ (core.outs s inp j).type = .I

/-- What an aborted LDM leaves in the registers. -/
structure LdmAborted (s : Arm7DI) (inp : ℕ → Input) (op : Word) (g : Fin 31 → Word) : Prop where
  /-- The base is restored, to the written-back value with W. -/
  base : g (phys (field op 16 4) s.bank) = if bit op 21 then s.blockMoved op else s.blockBase op
  loaded : ∀ i (hi : i < (blockList op).length), (blockList op)[i] ≠ 15 →
    phys (BitVec.ofNat 4 (blockList op)[i]) (s.blockBank op) ≠ phys (field op 16 4) s.bank →
    (∀ j ≤ i, (inp (1 + j)).ans.abort = false) →
    g (phys (BitVec.ofNat 4 (blockList op)[i]) (s.blockBank op)) = (inp (1 + i)).ans.rdata
  kept : ∀ i (hi : i < (blockList op).length), (blockList op)[i] ≠ 15 →
    phys (BitVec.ofNat 4 (blockList op)[i]) (s.blockBank op) ≠ phys (field op 16 4) s.bank →
    (∃ j ≤ i, (inp (1 + j)).ans.abort = true) →
    g (phys (BitVec.ofNat 4 (blockList op)[i]) (s.blockBank op)) =
      s.gpr (phys (BitVec.ofNat 4 (blockList op)[i]) (s.blockBank op))
  rest : ∀ p, p ≠ phys (field op 16 4) s.bank →
    (∀ i (hi : i < (blockList op).length), (blockList op)[i] ≠ 15 →
      p ≠ phys (BitVec.ofNat 4 (blockList op)[i]) (s.blockBank op)) → g p = s.gpr p

/-- What a transfer leaves at the next boundary `t` when a data cycle aborts. -/
structure Aborted (s : Arm7DI) (inp : ℕ → Input) (op : Word) (t : Arm7DI) : Prop where
  pc : t.pc = s.pc + 4
  cpsr : t.cpsr = s.cpsr
  spsr : t.spsr = s.spsr
  ex : t.ex = s.de
  dabort : t.dabortPending = true
  single : seqOf op = .sdt → t.gpr =
    if sdtWb op then Function.update s.gpr (phys (field op 16 4) s.bank) (s.sdtCalc op) else s.gpr
  swap : seqOf op = .swp → t.gpr = s.gpr
  store : seqOf op = .bdt → bit op 20 = false → t.gpr = s.blockBack op ∧
    ∀ i (hi : i < (blockList op).length), (core.outs s inp (1 + i)).wdata = s.storedWord op i hi
  load : seqOf op = .bdt → bit op 20 = true → LdmAborted s inp op t.gpr

/-- The parts that every aborted transfer leaves alike. -/
lemma Aborted.of_arch {g : Fin 31 → Word} {n : CycleType} {r : Seq}
    (h : t.arch = ((s.begun inp r).stepped (inp 0).ans n |>.setGpr g).abortIf true)
    (hsingle : seqOf op = .sdt → g =
      if sdtWb op then Function.update s.gpr (phys (field op 16 4) s.bank) (s.sdtCalc op)
      else s.gpr)
    (hswap : seqOf op = .swp → g = s.gpr)
    (hstore : seqOf op = .bdt → bit op 20 = false → g = s.blockBack op ∧
      ∀ i (hi : i < (blockList op).length), (core.outs s inp (1 + i)).wdata = s.storedWord op i hi)
    (hload : seqOf op = .bdt → bit op 20 = true → LdmAborted s inp op g) :
    Aborted s inp op t := by
  have hgpr : t.gpr = g := congrArg Arch.gpr h
  have hpc : t.pc = (s.begun inp r).pc + 4 := congrArg Arch.pc h
  have hcpsr : t.cpsr = (s.begun inp r).cpsr := congrArg Arch.cpsr h
  have hspsr : t.spsr = (s.begun inp r).spsr := congrArg Arch.spsr h
  have hex : t.ex = (s.begun inp r).de := congrArg Arch.ex h
  have hdab : t.dabortPending = true := congrArg Arch.dabort h
  rw [← hgpr] at hsingle hswap hstore hload
  exact ⟨by simpa using hpc, by simpa using hcpsr, by simpa using hspsr,
    hex.trans (poke_de s _), hdab, hsingle, hswap, hstore, hload⟩

lemma begun_sdtAddr (r : Seq) : (s.begun inp r).sdtAddr op = s.sdtAddr op := by
  simp only [sdtAddr, sdtCalc, sdtOffset, begun_rd, begun_pc, begun_cpsr]

lemma begun_sdtCalc (r : Seq) : (s.begun inp r).sdtCalc op = s.sdtCalc op := by
  simp only [sdtCalc, sdtOffset, begun_rd, begun_pc, begun_cpsr]

/-- The abort among the transfers. -/
lemma aborted_transferAns {n : ℕ} :
    aborted (transferAns inp) n = true ↔ ∃ j < n, (inp (1 + j)).ans.abort = true := by
  rw [← Bool.not_eq_false, aborted_eq_false_iff]
  simp [transferAns]

lemma blockBack_of_ne {p : Fin 31} (h : p ≠ phys (field op 16 4) s.bank) :
    s.blockBack op p = s.gpr p := by
  rw [blockBack]
  split_ifs
  · rw [Function.update_of_ne h]
  · rfl

/-- The transfers before the first abort are done, the later ones are not, and the base is as the
last cycle leaves it. -/
lemma ldmAborted {g : Fin 31 → Word} (hrn : field op 16 4 ≠ 15)
    (hg : g = Function.update
      ((s.begun inp .bdt).ldmGpr op (transferAns inp) (blockList op).length)
      (phys (field op 16 4) s.bank) (if bit op 21 then s.blockMoved op else s.blockBase op)) :
    LdmAborted s inp op g := by
  subst hg
  have hreg : regList op = blockList op := regList_eq op
  have hlen : 0 < (blockList op).length := hreg ▸ regList_pos op
  have hbank : (s.begun inp .bdt).listBank op = s.blockBank op := begun_listBank
  have hlt : ∀ i (hi : i < (blockList op).length), (blockList op)[i] ≠ 15 →
      (blockList op)[i] < 15 := fun i hi h15 => by
    have h := @regList_lt op i (by rw [hreg]; exact hi)
    simp only [hreg] at h
    omega
  have hother : ∀ p, p ≠ phys (field op 16 4) s.bank →
      (∀ i (hi : i < (blockList op).length), aborted (transferAns inp) (i + 1) = false →
        (blockList op)[i] ≠ 15 →
          p ≠ phys (BitVec.ofNat 4 (blockList op)[i]) (s.blockBank op)) →
      (s.begun inp .bdt).ldmGpr op (transferAns inp) (blockList op).length p = s.gpr p := by
    intro p hp hnot
    rw [← blockBack_of_ne hp, ← @begun_wroteBack op s inp hrn]
    refine ldmGpr_other (Nat.le_of_eq (congrArg List.length hreg.symm)) (Nat.ne_of_gt hlen) ?_
    simpa only [hreg, hbank] using hnot
  refine ⟨Function.update_self .., fun i hi h15 hne hab => ?_, fun i hi h15 hne hab => ?_,
    fun p hp hnot => ?_⟩
  · have h := @ldmGpr_loaded op (s.begun inp .bdt) (transferAns inp) i (blockList op).length
      (by rw [hreg]; exact hi) (by simpa only [hreg] using h15)
      (aborted_eq_false_iff.mpr fun j hj => hab j (by omega)) hi (by rw [hreg])
    simp only [hreg, hbank] at h
    rw [Function.update_of_ne hne]
    exact h
  · rw [Function.update_of_ne hne]
    refine hother _ hne fun j hj hjab hj15 => ?_
    refine phys_regList_ne (hlt i hi h15) (hlt j hj hj15) ?_ _
    have hij : i ≠ j := by
      rintro rfl
      obtain ⟨k, hk, hkab⟩ := hab
      have := aborted_eq_false_iff.mp hjab k (by omega)
      rw [transferAns, hkab] at this
      cases this
    have h := @regList_ne op i j (by rw [hreg]; exact hi)
      (by rw [hreg]; exact hj) hij
    simpa only [hreg] using h
  · rw [Function.update_of_ne hp]
    exact hother p hp fun i hi _ h15 => hnot i hi h15

section Class

variable (hs : (s.poke (inp 0).lines).Quiet) (hop : s.ex.word = op) (hc : s.condPass op = true)

include hs hop hc

/-- LDR and STR. -/
lemma aborted_sdt (hseq : seqOf op = .sdt) (hrn : field op 16 4 ≠ 15)
    (hab : (inp 1).ans.abort = true) :
    TransferCycles s inp op ∧ Aborted s inp op (core.after s inp (transferCycles op)) := by
  set q := s.begun inp .sdt
  have hqop : q.x.op = op := begun_op hop
  have hcalc : q.sdtCalc op = s.sdtCalc op := begun_sdtCalc _
  have haddr : q.sdtAddr op = s.transferAddr op 1 := by
    rw [begun_sdtAddr, transferAddr, hseq]
  have hgpr : ∀ n, (q.stepped (inp 0).ans n).gpr = s.gpr := fun n => poke_gpr s _
  have hbank : ∀ n, (q.stepped (inp 0).ans n).bank = s.bank := fun n => poke_bank s _
  have hdata : dataCycles op = 1 := by simp [dataCycles, hseq]
  cases hL : bit op 20 with
  | false =>
    have hn : transferCycles op = 2 := by simp [transferCycles, hdata, hseq, hL]
    have h := hs.performs hop hc hseq (by decide)
      (finishes_str (q := q) rfl rfl (by rw [hqop]; exact hL))
    rw [hqop, hcalc, hab, Arch.wrIf_eq_setGpr _ hrn] at h
    have hA := h.arch
    rw [show ((q.stepped (inp 0).ans .N).abortIf true).gpr = s.gpr from hgpr .N,
      show ((q.stepped (inp 0).ans .N).abortIf true).bank = s.bank from hbank .N] at hA
    rw [hn]
    have h0 := h.signals 0 (by simp)
    have h1 := h.signals 1 (by simp)
    refine ⟨⟨hn ▸ h.next, fun j hj hj' => ?_, fun j hj hj' => ?_, fun j hj h' => ?_⟩,
      .of_arch hA (fun _ => rfl) ?_ ?_ ?_⟩
    · obtain rfl : j = 1 := by omega
      refine ⟨congrArg (·.type.isMem) h1, congrArg (·.flags.opc) h1, ?_⟩
      rw [if_neg (by simp [hseq]), hL]
      exact congrArg (·.flags.write) h1
    · obtain rfl : j = 1 := by omega
      exact (congrArg Signals.addr h1).trans haddr
    · obtain rfl : j = 0 := by omega
      exact Or.inl (congrArg (·.flags.opc) h0)
    · simp [hseq]
    · simp [hseq]
    · simp [hseq]
  | true =>
    have hn : transferCycles op = 3 := by simp [transferCycles, hdata, hseq, hL]
    have h := hs.performs hop hc hseq (by decide)
      (finishes_ldrAborted (q := q) rfl rfl (by rw [hqop]; exact hL) hab)
    rw [hqop, hcalc, Arch.wrIf_eq_setGpr _ hrn, hgpr, hbank] at h
    rw [hn]
    have h0 := h.signals 0 (by simp)
    have h1 := h.signals 1 (by simp)
    have h2 := h.signals 2 (by simp)
    refine ⟨⟨hn ▸ h.next, fun j hj hj' => ?_, fun j hj hj' => ?_, fun j hj h' => ?_⟩,
      .of_arch h.arch (fun _ => rfl) ?_ ?_ ?_⟩
    · obtain rfl : j = 1 := by omega
      refine ⟨congrArg (·.type.isMem) h1, congrArg (·.flags.opc) h1, ?_⟩
      rw [if_neg (by simp [hseq]), hL]
      exact congrArg (·.flags.write) h1
    · obtain rfl : j = 1 := by omega
      exact (congrArg Signals.addr h1).trans haddr
    · obtain rfl | rfl : j = 0 ∨ j = 2 := by omega
      · exact Or.inl (congrArg (·.flags.opc) h0)
      · exact Or.inr (congrArg (·.type) h2)
    · simp [hseq]
    · simp [hseq]
    · simp [hseq]

/-- SWP. -/
lemma aborted_swp (hseq : seqOf op = .swp)
    (hab : (inp 1).ans.abort = true ∨ (inp 2).ans.abort = true) :
    TransferCycles s inp op ∧ Aborted s inp op (core.after s inp (transferCycles op)) := by
  set q := s.begun inp .swp
  have hqop : q.x.op = op := begun_op hop
  have hgpr : (q.stepped (inp 0).ans .S).gpr = s.gpr := poke_gpr s _
  have hdata : dataCycles op = 2 := by simp [dataCycles, hseq]
  have hn : transferCycles op = 4 := by simp [transferCycles, hdata, hseq]
  have h := hs.performs hop hc hseq (by decide)
    (finishes_swpAbort (q := q) rfl rfl (by simpa using hab))
  rw [hqop] at h
  have hA : (core.after s inp 4).arch = ((q.stepped (inp 0).ans .S).setGpr s.gpr).abortIf true := by
    rw [← hgpr]
    exact h.arch
  have h0 := h.signals 0 (by simp)
  have h1 := h.signals 1 (by simp)
  have h2 := h.signals 2 (by simp)
  have h3 := h.signals 3 (by simp)
  rw [hn]
  refine ⟨⟨hn ▸ h.next, fun j hj hj' => ?_, fun j hj hj' => ?_, fun j hj h' => ?_⟩,
    .of_arch hA ?_ (fun _ => rfl) ?_ ?_⟩
  · rw [if_pos hseq]
    obtain rfl | rfl : j = 1 ∨ j = 2 := by omega
    · exact ⟨congrArg (·.type.isMem) h1, congrArg (·.flags.opc) h1, congrArg (·.flags.write) h1⟩
    · exact ⟨congrArg (·.type.isMem) h2, congrArg (·.flags.opc) h2, congrArg (·.flags.write) h2⟩
  · have haddr : q.swpAddr op = s.transferAddr op j := by
      simp [swpAddr, transferAddr, hseq, q]
    obtain rfl | rfl : j = 1 ∨ j = 2 := by omega
    · exact (congrArg Signals.addr h1).trans haddr
    · exact (congrArg Signals.addr h2).trans haddr
  · obtain rfl | rfl : j = 0 ∨ j = 3 := by omega
    · exact Or.inl (congrArg (·.flags.opc) h0)
    · exact Or.inr (congrArg (·.type) h3)
  · simp [hseq]
  · simp [hseq]
  · simp [hseq]

omit hs hop hc in
/-- The cycles of LDM and STM. -/
lemma BlockCycles.toTransfer (hseq : seqOf op = .bdt)
    (h : BlockCycles s inp op (transferCycles op)) : TransferCycles s inp op := by
  have hdata : dataCycles op = (blockList op).length := by simp [dataCycles, hseq]
  refine ⟨h.next, fun j hj hj' => ?_, fun j hj hj' => ?_, fun j hj h' => h.only j hj (hdata ▸ h')⟩
  · obtain ⟨j, rfl⟩ := Nat.exists_eq_add_of_le hj
    have hlt : j < (blockList op).length := by omega
    refine ⟨?_, by rw [h.flags j hlt], ?_⟩
    · rw [h.type j hlt]
      split_ifs <;> rfl
    · rw [h.flags j hlt, if_neg (by simp [hseq])]
  · obtain ⟨j, rfl⟩ := Nat.exists_eq_add_of_le hj
    rw [h.addr j (by omega), transferAddr, hseq]
    dsimp only
    rw [Nat.add_sub_cancel_left]

/-- LDM and STM. -/
lemma aborted_bdt (hseq : seqOf op = .bdt) (hrn : field op 16 4 ≠ 15)
    (hab : ∃ j < (blockList op).length, (inp (1 + j)).ans.abort = true) :
    TransferCycles s inp op ∧ Aborted s inp op (core.after s inp (transferCycles op)) := by
  set q := s.begun inp .bdt with hq
  have hqop : q.x.op = op := begun_op hop
  have hcls : field op 25 3 = 4 := seqOf_eq_bdt.mp hseq
  have hdata : dataCycles op = (blockList op).length := by simp [dataCycles, hseq]
  have hab' := aborted_transferAns.mpr hab
  cases hL : bit op 20 with
  | false =>
    have hn : transferCycles op = (blockList op).length + 1 := by
      simp [transferCycles, hdata, hseq, hL]
    obtain ⟨hcyc, hword, hA⟩ := block_store hs hop hc hcls hrn hL
    rw [hab', ← hn] at hA
    refine ⟨BlockCycles.toTransfer hseq (hn ▸ hcyc), .of_arch hA ?_ ?_ ?_ ?_⟩
    · simp [hseq]
    · simp [hseq]
    · exact fun _ _ => ⟨rfl, hword⟩
    · exact fun _ h => Bool.noConfusion (hL.symm.trans h)
  | true =>
    have hn : transferCycles op = (blockList op).length + 2 := by
      simp [transferCycles, hdata, hseq, hL]
    have h := hs.performs hop hc hseq (by decide) (finishes_ldmAbort (q := q) rfl rfl
      (by rw [hqop]; exact hL) (by rw [hqop, answers_eq, regList_eq]; exact hab'))
    rw [hqop, answers_eq, regList_eq, hq, begun_wbv hrn, begun_baseVal hrn] at h
    have hcyc := h.blockCycles rfl (by simp [fetchCycle, fetchFlags, idleCycle])
      fun j => begun_loadCycle hrn hL
    have hA := h.arch
    simp only [List.length_cons, List.append_eq, List.length_append, List.length_map,
      List.length_range, List.length_nil] at hA hcyc
    rw [← hn] at hA hcyc
    have hbase := Arch.wrIf_eq_setGpr (((s.begun inp .bdt).stepped (inp 0).ans .S).setGpr
      ((s.begun inp .bdt).ldmGpr op (transferAns inp) (blockList op).length)) (c := true)
      (v := if bit op 21 then s.blockMoved op else s.blockBase op) hrn
    have hbank : Arch.bank (((s.begun inp .bdt).stepped (inp 0).ans .S).setGpr
      ((s.begun inp .bdt).ldmGpr op (transferAns inp) (blockList op).length)) = s.bank :=
      poke_bank s _
    rw [if_pos rfl, hbank] at hbase
    refine ⟨BlockCycles.toTransfer hseq hcyc,
      .of_arch (hA.trans (congrArg (Arch.abortIf · true) hbase)) ?_ ?_ ?_ ?_⟩
    · simp [hseq]
    · simp [hseq]
    · exact fun _ h => Bool.noConfusion (hL.symm.trans h)
    · exact fun _ _ => ldmAborted hrn rfl

/-- A transfer with an abort in one of its data cycles. -/
lemma aborted_transfer (htr : IsTransfer op) (hrn : field op 16 4 ≠ 15)
    (hab : ∃ j, 1 ≤ j ∧ j ≤ dataCycles op ∧ (inp j).ans.abort = true) :
    TransferCycles s inp op ∧ Aborted s inp op (core.after s inp (transferCycles op)) := by
  obtain ⟨j, h1, hj, hab⟩ := hab
  rcases htr with hseq | hseq | hseq
  · obtain rfl : j = 1 := by
      simp only [dataCycles, hseq] at hj
      omega
    exact aborted_sdt hs hop hc hseq hrn hab
  · refine aborted_swp hs hop hc hseq ?_
    obtain rfl | rfl : j = 1 ∨ j = 2 := by
      simp only [dataCycles, hseq] at hj
      omega
    · exact Or.inl hab
    · exact Or.inr hab
  · obtain ⟨i, rfl⟩ := Nat.exists_eq_add_of_le h1
    refine aborted_bdt hs hop hc hseq hrn ⟨i, ?_, hab⟩
    simp only [dataCycles, hseq] at hj
    omega

end Class

end Arm7DI

end Wren7
