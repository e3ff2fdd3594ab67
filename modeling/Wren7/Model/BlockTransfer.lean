import Wren7.Model.MultiTransfer

/-!
# What LDM and STM do in a run

The reference semantics of the block transfers: which register moves at which address, and what the
registers hold afterwards.
-/

namespace Wren7

open Bits Reactive

namespace Arm7DI

variable {op : Word} {q : Arm7DI} {ans : ℕ → Answer} {i j n : ℕ} {A : Arch}

/-! ### The list -/

lemma regList_pairwise (op : Word) : (regList op).Pairwise (· < ·) :=
  (List.pairwise_lt_range' 1).filter _

lemma regList_lt (hj : j < (regList op).length) : (regList op)[j] < 16 :=
  (mem_setBits.mp (List.getElem_mem hj)).1

lemma getD_regList (hj : j < (regList op).length) : (regList op).getD j 16 = (regList op)[j] := by
  simp [List.getD_eq_getElem?_getD, hj]

lemma regList_ne (hi : i < (regList op).length) (hj : j < (regList op).length) (hne : i ≠ j) :
    (regList op)[i] ≠ (regList op)[j] := by
  rcases Nat.lt_or_gt_of_ne hne with h | h
  · exact Nat.ne_of_lt (List.pairwise_iff_getElem.mp (regList_pairwise op) i j hi hj h)
  · exact (Nat.ne_of_lt (List.pairwise_iff_getElem.mp (regList_pairwise op) j i hj hi h)).symm

/-- Different listed registers are different physical ones. -/
lemma phys_regList_ne {r r' : ℕ} (hr : r < 15) (hr' : r' < 15) (hne : r ≠ r') (b : Bank) :
    phys (BitVec.ofNat 4 r) b ≠ phys (BitVec.ofNat 4 r') b := by
  have h15 : ∀ {x : ℕ}, x < 15 → BitVec.ofNat 4 x ≠ 15 := by
    intro x hx h
    have := congrArg BitVec.toNat h
    simp at this
    omega
  intro he
  have := congrArg BitVec.toNat (phys_inj (h15 hr) (h15 hr') b b he)
  simp at this
  omega

/-! ### The registers during an LDM -/

section Ldm

lemma aborted_mono (h : aborted ans j = false) (hij : i ≤ j) : aborted ans i = false := by
  induction hij with
  | refl => exact h
  | step _ ih => exact ih (Bool.or_eq_false_iff.mp h).1

lemma aborted_eq_false_iff : aborted ans n = false ↔ ∀ j < n, (ans j).abort = false := by
  induction n with
  | zero => simp [aborted]
  | succ n ih => rw [aborted, Bool.or_eq_false_iff, ih, Nat.forall_lt_succ_right]

/-- A register loaded before any abort keeps its word to the end of the transfers. -/
lemma ldmGpr_loaded (hi : i < (regList op).length) (h15 : (regList op)[i] ≠ 15)
    (hab : aborted ans (i + 1) = false) (hij : i < j) (hj : j ≤ (regList op).length) :
    q.ldmGpr op ans j (phys (BitVec.ofNat 4 (regList op)[i]) (q.listBank op)) =
      (ans i).rdata := by
  have hlt : (regList op)[i] < 15 := by
    have := regList_lt hi
    omega
  induction hij with
  | refl =>
    rw [ldmGpr, getD_regList hi, if_neg (by simp [hab, h15]), Function.update_self]
  | @step m him ih =>
    have hm : m < (regList op).length := hj
    have him' : i < m := him
    rw [ldmGpr, getD_regList hm, if_neg (show ¬m = 0 by omega)]
    split_ifs with hc
    · exact ih (by omega)
    · rw [Bool.or_eq_true, not_or, beq_iff_eq] at hc
      have hlt' : (regList op)[m] < 15 := by
        have := regList_lt hm
        omega
      rw [Function.update_of_ne (phys_regList_ne hlt hlt' (regList_ne hi hm (by omega)) _)]
      exact ih (by omega)

/-- The other registers are as the base write-back leaves them. -/
lemma ldmGpr_other {p : Fin 31} (hj : j ≤ (regList op).length) (hj0 : j ≠ 0)
    (hp : ∀ i (hi : i < (regList op).length), aborted ans (i + 1) = false →
      (regList op)[i] ≠ 15 → p ≠ phys (BitVec.ofNat 4 (regList op)[i]) (q.listBank op)) :
    q.ldmGpr op ans j p = q.wroteBack op q.gpr p := by
  induction j with
  | zero => exact absurd rfl hj0
  | succ m ih =>
    have hm : m < (regList op).length := hj
    have hg : (if m = 0 then q.wroteBack op (q.ldmGpr op ans m) else q.ldmGpr op ans m) p =
        q.wroteBack op q.gpr p := by
      by_cases h0 : m = 0
      · subst h0
        rfl
      · rw [if_neg h0, ih (by omega) h0]
    rw [ldmGpr, getD_regList hm]
    by_cases hc : (aborted ans (m + 1) || (regList op)[m] == 15) = true
    · rw [if_pos hc]
      exact hg
    · rw [if_neg hc]
      rw [Bool.or_eq_true, not_or, beq_iff_eq, Bool.not_eq_true] at hc
      rw [Function.update_of_ne (hp m hm hc.1 hc.2)]
      exact hg

end Ldm

/-! ### In a run -/

lemma listBytes_eq (op : Word) : listBytes op =
    if field op 0 16 = 0 then 64 else 4 * BitVec.ofNat 32 (regList op).length := by
  unfold listBytes regList effList
  split_ifs with h
  · rfl
  · rw [length_setBits]
    congr 1
    have hle : (field op 0 16).cpopNatRec 16 0 ≤ 0 + 16 := BitVec.cpopNatRec_le 16
    apply BitVec.eq_of_toNat_eq
    simp only [BitVec.cpop, BitVec.toNat_setWidth, BitVec.toNat_ofNat]
    omega

lemma mem_regList_15 (op : Word) : 15 ∈ regList op ↔ bit (effList op) 15 = true := by
  rw [regList, mem_setBits]
  exact and_iff_right (by decide)

section Run

variable {s : Arm7DI} {inp : ℕ → Input}

/-- The answers to the transfers of the instruction that begins the run. -/
def transferAns (inp : ℕ → Input) (j : ℕ) : Answer := (inp (1 + j)).ans

lemma answers_eq : answers (fun n => (inp n).ans) 0 = transferAns inp := by
  funext j
  rw [answers, transferAns, Nat.zero_add]

/-- The registers in the list of an LDM or STM: bits 15:0, or R15 alone if they are all zero. -/
def blockList (op : Word) : List ℕ :=
  if field op 0 16 = 0 then [15] else (List.range 16).filter fun r => bit (field op 0 16) r

lemma regList_eq (op : Word) : regList op = blockList op := by
  rw [regList, effList, blockList]
  split_ifs
  · rfl
  · rw [setBits, setBitsFrom, List.range_eq_range']

lemma seqOf_eq_bdt : seqOf op = .bdt ↔ field op 25 3 = 4 := by
  rcases class_cases (field op 25 3) with h | h | h | h | h | h | h | h <;>
    simp only [seqOf, h] <;> split_ifs <;> simp

/-! ### The reference semantics -/

section Reference

variable (s : Arm7DI) (op : Word)

/-- The distance between the two ends of the block. -/
def blockBytes : Word :=
  if field op 0 16 = 0 then 64 else 4 * BitVec.ofNat 32 (blockList op).length

/-- The base register's value. -/
def blockBase : Word := s.gpr (phys (field op 16 4) s.bank)

/-- The base register's value after a write-back. -/
def blockMoved : Word :=
  if bit op 23 then s.blockBase op + blockBytes op else s.blockBase op - blockBytes op

/-- The lowest address of the block. -/
def blockLow : Word :=
  match bit op 23, bit op 24 with
  | true, false => s.blockBase op
  | true, true => s.blockBase op + 4
  | false, false => s.blockBase op - blockBytes op + 4
  | false, true => s.blockBase op - blockBytes op

/-- The bank of the transferred registers. -/
def blockBank : Bank :=
  if bit op 22 = true ∧ ¬(bit op 20 = true ∧ 15 ∈ blockList op) then .usr else s.bank

/-- The registers with the base written back if the instruction asks for it. -/
def blockBack : Fin 31 → Word :=
  if bit op 21 then Function.update s.gpr (phys (field op 16 4) s.bank) (s.blockMoved op) else s.gpr

/-- The word that an STM stores at a place of the block. -/
def blockWord (i : ℕ) : Word :=
  if (blockList op).getD i 16 = 15 then s.pc + 4
  else (if i = 0 then s.gpr else s.blockBack op)
    (phys (BitVec.ofNat 4 ((blockList op).getD i 16)) (s.blockBank op))

end Reference

section Bridge

variable {s : Arm7DI} {inp : ℕ → Input}

lemma listBytes_eq_blockBytes (op : Word) : listBytes op = blockBytes op := by
  rw [listBytes_eq, blockBytes, regList_eq]

lemma begun_listBank : (s.begun inp .bdt).listBank op = s.blockBank op := by
  have h : (bit op 22 && !(bit op 20 && bit (effList op) 15)) = true ↔
      bit op 22 = true ∧ ¬(bit op 20 = true ∧ 15 ∈ blockList op) := by
    rw [← regList_eq, mem_regList_15]
    cases bit op 20 <;> simp
  rw [listBank, blockBank, begun_bank]
  simp only [h]

variable (hrn : field op 16 4 ≠ 15)

include hrn

lemma begun_baseVal : (s.begun inp .bdt).bdtBaseVal op = s.blockBase op := by
  rw [bdtBaseVal, rd, if_neg hrn, begun_gpr, begun_bank, blockBase]

lemma begun_wbv : (s.begun inp .bdt).bdtWbv op = s.blockMoved op := by
  rw [bdtWbv, blockMoved, begun_baseVal hrn, listBytes_eq_blockBytes]

lemma begun_addr : (s.begun inp .bdt).bdtAddr op = s.blockLow op := by
  rw [bdtAddr, blockLow, begun_baseVal hrn, listBytes_eq_blockBytes]
  cases bit op 23 <;> cases bit op 24 <;> rfl

lemma begun_wroteBack : (s.begun inp .bdt).wroteBack op (s.begun inp .bdt).gpr = s.blockBack op := by
  rw [wroteBack, blockBack, if_neg hrn, begun_wbv hrn, begun_gpr, begun_bank]

lemma begun_stmWord (i : ℕ) : (s.begun inp .bdt).stmWord op i = s.blockWord op i := by
  rw [stmWord, blockWord, stmGpr, begun_wroteBack hrn, begun_listBank, begun_gpr, begun_pc,
    regList_eq]

lemma begun_loadCycle (hL : bit op 20 = true) : (s.begun inp .bdt).loadCycle op j =
    ⟨if j = 0 then .N else .S, s.blockLow op + 4 * BitVec.ofNat 32 j, 0,
      { write := !bit op 20, user := s.userFlag }⟩ := by
  rw [loadCycle, begun_addr hrn, hL]
  simp [idleFlags]

end Bridge

/-! ### The bus cycles -/

/-- The bus cycles of a block transfer that takes `N`: cycle `1 + j` accesses the word at place `j`,
the others are opcode fetches and internal cycles. -/
structure BlockCycles (s : Arm7DI) (inp : ℕ → Input) (op : Word) (N : ℕ) : Prop where
  next : NextBoundary s inp N
  fits : (blockList op).length < N
  addr : ∀ j < (blockList op).length,
    (core.outs s inp (1 + j)).addr = s.blockLow op + 4 * BitVec.ofNat 32 j
  type : ∀ j < (blockList op).length, (core.outs s inp (1 + j)).type = if j = 0 then .N else .S
  flags : ∀ j < (blockList op).length,
    (core.outs s inp (1 + j)).flags = { write := !bit op 20, user := s.userFlag }
  only : ∀ j < N, j = 0 ∨ (blockList op).length < j →
    (core.outs s inp j).flags.opc = true ∨ (core.outs s inp j).type = .I

section Cycles

variable {s : Arm7DI} {inp : ℕ → Input} {r : Signals} {f : ℕ → Signals} {rest : List Signals}

lemma Performs.transfer (h : Performs s inp (r :: ((List.range n).map f ++ rest)) A) (hj : j < n) :
    (core.outs s inp (1 + j)).signals = f j := by
  have hsig := h.signals (j + 1) (by simp; omega)
  rw [List.getElem_cons_succ, List.getElem_append_left (by simpa using hj), List.getElem_map,
    List.getElem_range] at hsig
  rw [Nat.add_comm 1 j]
  exact hsig

lemma Performs.only (h : Performs s inp (r :: ((List.range n).map f ++ rest)) A)
    (hr : ∀ c ∈ r :: rest, c.flags.opc = true ∨ c.type = .I)
    (hj : j < n + rest.length + 1) (h' : j = 0 ∨ n < j) :
    (core.outs s inp j).flags.opc = true ∨ (core.outs s inp j).type = .I := by
  have hsig := h.signals j (by simpa using hj)
  suffices hmem : (core.outs s inp j).signals ∈ r :: rest from hr _ hmem
  rw [hsig]
  rcases h' with rfl | h'
  · exact List.mem_cons_self
  · obtain ⟨j, rfl⟩ := Nat.exists_eq_add_of_le' (Nat.one_le_of_lt h')
    rw [List.getElem_cons_succ, List.getElem_append_right (by simp; omega)]
    exact List.mem_cons_of_mem _ (List.getElem_mem _)

lemma Performs.blockCycles (hn : n = (blockList op).length)
    (h : Performs s inp (r :: ((List.range n).map f ++ rest)) A)
    (hr : ∀ c ∈ r :: rest, c.flags.opc = true ∨ c.type = .I)
    (hf : ∀ j, f j = ⟨if j = 0 then .N else .S, s.blockLow op + 4 * BitVec.ofNat 32 j, (f j).wdata,
      { write := !bit op 20, user := s.userFlag }⟩) :
    BlockCycles s inp op (n + rest.length + 1) where
  next := by simpa using h.next
  fits := by omega
  addr j hj := congrArg Signals.addr ((h.transfer (hn ▸ hj)).trans (hf j))
  type j hj := congrArg Signals.type ((h.transfer (hn ▸ hj)).trans (hf j))
  flags j hj := congrArg Signals.flags ((h.transfer (hn ▸ hj)).trans (hf j))
  only j hj h' := h.only hr hj (hn ▸ h')

end Cycles

/-- A restore takes the implemented bits of the SPSR. -/
lemma restored_eq (u : Arm7DI) :
    u.restored = if u.bank = .usr then u.cpsr else u.spsr u.bank &&& psrImpl := by
  have h : ∀ c v m : Word, ((c &&& ~~~m) ||| (v &&& m)) &&& m = v &&& m := fun c v m => by
    ext i
    simp only [BitVec.getElem_and, BitVec.getElem_or, BitVec.getElem_not]
    cases m[i] <;> simp
  rw [restored, h]

/-! ### STM and LDM in a run -/

variable {s : Arm7DI} {inp : ℕ → Input} (hs : (s.poke (inp 0).lines).Quiet)
  (hop : s.ex.word = op) (hc : s.condPass op = true) (hcls : field op 25 3 = 4)
  (hrn : field op 16 4 ≠ 15)

include hs hop hc hcls hrn

/-- STM with its stored words and the state it leaves. -/
lemma block_store (hL : bit op 20 = false) :
    let N := (blockList op).length + 1
    let t := core.after s inp N
    BlockCycles s inp op N ∧
    (∀ i (hi : i < (blockList op).length), (core.outs s inp (1 + i)).wdata =
      if (blockList op)[i] = 15 then s.pc + 4
      else (if i = 0 then s.gpr else s.blockBack op)
        (phys (BitVec.ofNat 4 (blockList op)[i]) (s.blockBank op))) ∧
    t.arch = (((s.begun inp .bdt).stepped (inp 0).ans .N).setGpr (s.blockBack op)).abortIf
      (aborted (transferAns inp) (blockList op).length) := by
  set q := s.begun inp .bdt
  have hqop : q.x.op = op := begun_op hop
  have h := hs.performs hop hc (seqOf_eq_bdt.mpr hcls) (by decide) (finishes_stm (q := q) rfl rfl (by rw [hqop]; exact hL))
  rw [hqop, answers_eq, begun_wroteBack hrn] at h
  rw [← List.append_nil (List.map _ _), regList_eq] at h
  refine ⟨?_, fun i hi => ?_, ?_⟩
  · refine h.blockCycles rfl ?_ fun j => ?_
    · simp [fetchCycle, fetchFlags]
    · rw [storeCycle, begun_addr hrn, hL]
      simp [idleFlags, q]
  · refine (congrArg Signals.wdata (h.transfer hi)).trans ?_
    have hreg : (blockList op).getD i 16 = (blockList op)[i] := by
      simp [List.getD_eq_getElem?_getD, hi]
    refine (begun_stmWord hrn i).trans ?_
    rw [blockWord, hreg]
  · have hA := h.arch
    rw [List.append_nil, List.length_cons, List.length_map, List.length_range] at hA
    exact hA

/-- LDM with no abort. -/
lemma block_load (hL : bit op 20 = true)
    (hab : ∀ j < (blockList op).length, (inp (1 + j)).ans.abort = false) :
    let n := (blockList op).length
    let N := if 15 ∈ blockList op then n + 4 else n + 2
    let t := core.after s inp N
    BlockCycles s inp op N ∧ t.spsr = s.spsr ∧
    t.gpr = (s.begun inp .bdt).ldmGpr op (transferAns inp) n ∧
    (15 ∉ blockList op → t.pc = s.pc + 4 ∧ t.cpsr = s.cpsr) ∧
    (15 ∈ blockList op → t.pc = ((inp n).ans.rdata &&& ~~~3) + 8 ∧
      t.cpsr = if bit op 22 then (s.begun inp .bdt).restored else s.cpsr) := by
  set q := s.begun inp .bdt
  have hqop : q.x.op = op := begun_op hop
  have hab' : aborted (transferAns inp) (regList op).length = false := by
    rw [regList_eq, aborted_eq_false_iff]
    exact hab
  have hf := fun j => @begun_loadCycle op j s inp hrn hL
  have hmem : 15 ∈ blockList op ↔ bit (effList op) 15 = true := by
    rw [← regList_eq, mem_regList_15]
  have hlen : 0 < (blockList op).length := by
    rw [← regList_eq]
    exact regList_pos op
  by_cases h15 : bit (effList op) 15 = true
  · have hlast : transferAns inp ((blockList op).length - 1) = (inp (blockList op).length).ans := by
      rw [transferAns, show 1 + ((blockList op).length - 1) = (blockList op).length by omega]
    have h := hs.performs hop hc (seqOf_eq_bdt.mpr hcls) (by decide) (finishes_ldmBranch (q := q)
      rfl rfl (by rw [hqop]; exact hL) (by rw [hqop, answers_eq]; exact hab') (by rw [hqop]; exact h15) rfl)
    rw [hqop, answers_eq, regList_eq, hlast] at h
    have hcyc := h.blockCycles rfl (by simp [fetchCycle, fetchFlags, idleCycle, refillRow]) hf
    have hA := h.arch
    simp only [List.length_cons, List.append_eq, List.length_append, List.length_map,
      List.length_range, refillRow, List.length_nil] at hA hcyc
    rw [← hmem] at h15
    simp only [h15, if_true, not_true_eq_false, false_implies, true_implies, true_and]
    refine ⟨hcyc, ?_⟩
    have hgpr := congrArg Arch.gpr hA
    have hpc := congrArg Arch.pc hA
    have hcpsr := congrArg Arch.cpsr hA
    have hspsr := congrArg Arch.spsr hA
    refine ⟨hspsr.trans (begun_spsr (r := .bdt)), hgpr, hpc, hcpsr.trans ?_⟩
    exact congrArg (fun c => if bit op 22 = true then q.restored else c)
      (begun_cpsr (r := .bdt))
  · have h := hs.performs hop hc (seqOf_eq_bdt.mpr hcls) (by decide) (finishes_ldmDone (q := q) rfl rfl
      (by rw [hqop]; exact hL) (by rw [hqop, answers_eq]; exact hab')
      (by rw [hqop]; exact Bool.eq_false_iff.mpr h15))
    rw [hqop, answers_eq, regList_eq] at h
    have hcyc := h.blockCycles rfl (by simp [fetchCycle, fetchFlags, idleCycle]) hf
    have hA := h.arch
    simp only [List.length_cons, List.append_eq, List.length_append, List.length_map,
      List.length_range, List.length_nil] at hA hcyc
    rw [← hmem] at h15
    simp only [h15, if_false, not_false_eq_true, false_implies, true_implies, and_true]
    have hgpr := congrArg Arch.gpr hA
    have hpc := congrArg Arch.pc hA
    have hcpsr := congrArg Arch.cpsr hA
    have hspsr := congrArg Arch.spsr hA
    refine ⟨hcyc, hspsr.trans (begun_spsr (r := .bdt)), hgpr, hpc.trans ?_, hcpsr.trans (begun_cpsr (r := .bdt))⟩
    exact congrArg (· + 4) (begun_pc (r := .bdt))

omit hs hop hc hcls in
/-- The registers after the transfers of an LDM with no abort. -/
lemma block_loaded (hab : ∀ j < (blockList op).length, (inp (1 + j)).ans.abort = false) :
    let g := (s.begun inp .bdt).ldmGpr op (transferAns inp) (blockList op).length
    (∀ i (hi : i < (blockList op).length), (blockList op)[i] ≠ 15 →
      g (phys (BitVec.ofNat 4 (blockList op)[i]) (s.blockBank op)) = (inp (1 + i)).ans.rdata) ∧
    ∀ p, (∀ i (hi : i < (blockList op).length), (blockList op)[i] ≠ 15 →
      p ≠ phys (BitVec.ofNat 4 (blockList op)[i]) (s.blockBank op)) → g p = s.blockBack op p := by
  have hbank : (s.begun inp .bdt).listBank op = s.blockBank op := begun_listBank
  have hreg : regList op = blockList op := regList_eq op
  have hpos : 0 < (regList op).length := regList_pos op
  have hab' : ∀ j ≤ (regList op).length, aborted (transferAns inp) j = false := fun j hj =>
    aborted_mono (by rw [regList_eq, aborted_eq_false_iff]; exact hab) hj
  refine ⟨fun i hi h15 => ?_, fun p hp => ?_⟩
  · have h := @ldmGpr_loaded op (s.begun inp .bdt) (transferAns inp) i (regList op).length
      (by rw [hreg]; exact hi) (by simpa only [hreg] using h15) (hab' _ (by rw [hreg]; exact hi))
      (by rw [hreg]; exact hi) (Nat.le_refl _)
    rw [← hbank]
    simp only [hreg] at h
    exact h
  · have h := @ldmGpr_other op (s.begun inp .bdt) (transferAns inp) (regList op).length p
      (Nat.le_refl _) (Nat.ne_of_gt hpos) fun i hi _ h15 => ?_
    · rw [← begun_wroteBack hrn, ← h, hreg]
    · simp only [hreg] at hi h15 ⊢
      rw [hbank]
      exact hp i hi h15

/-- A block transfer without aborts moves the listed registers, in ascending order, between
themselves and the words of the block, and moves the base if asked to. -/
theorem block_transfer
    (hab : ∀ j < (blockList op).length, (inp (1 + j)).ans.abort = false) :
    ∃ N,
      let n := (blockList op).length
      let t := core.after s inp N
      let physOf (i : ℕ) (hi : i < n) := phys (BitVec.ofNat 4 (blockList op)[i]) (s.blockBank op)
      BlockCycles s inp op N ∧ t.spsr = s.spsr ∧
      (bit op 20 = false →
        (∀ i (hi : i < n), (core.outs s inp (1 + i)).wdata =
          if (blockList op)[i] = 15 then s.pc - 8 + 12
          else if i = 0 then s.gpr (physOf i hi) else s.blockBack op (physOf i hi)) ∧
        t.gpr = s.blockBack op ∧ t.pc = s.pc + 4 ∧ t.cpsr = s.cpsr) ∧
      (bit op 20 = true →
        (∀ i (hi : i < n), (blockList op)[i] ≠ 15 →
          t.gpr (physOf i hi) = (inp (1 + i)).ans.rdata) ∧
        (∀ p, (∀ i (hi : i < n), (blockList op)[i] ≠ 15 → p ≠ physOf i hi) →
          t.gpr p = s.blockBack op p) ∧
        (15 ∉ blockList op → t.pc = s.pc + 4 ∧ t.cpsr = s.cpsr) ∧
        (15 ∈ blockList op → t.pc - 8 = (inp n).ans.rdata &&& ~~~3 ∧
          t.cpsr = if bit op 22 = true ∧ s.bank ≠ .usr then s.spsr s.bank &&& psrImpl
            else s.cpsr)) := by
  have hlen : 0 < (regList op).length := regList_pos op
  have hab' : ∀ j, j ≤ (regList op).length → aborted (transferAns inp) j = false := fun j hj =>
    aborted_mono (by rw [regList_eq, aborted_eq_false_iff]; exact hab) hj
  have h12 : s.pc - 8 + 12 = s.pc + 4 := by
    rw [BitVec.sub_eq_add_neg, BitVec.add_assoc]
    rfl
  cases hL : bit op 20 with
  | false =>
    obtain ⟨hcyc, hdata, hA⟩ := block_store hs hop hc hcls hrn hL
    rw [hab' _ (regList_eq op ▸ Nat.le_refl _)] at hA
    have hspsr : (core.after s inp ((blockList op).length + 1)).spsr = s.spsr :=
      (congrArg Arch.spsr hA).trans (begun_spsr (r := .bdt))
    have hpc : (core.after s inp ((blockList op).length + 1)).pc = s.pc + 4 :=
      (congrArg Arch.pc hA).trans (congrArg (· + 4) (begun_pc (r := .bdt)))
    have hcpsr : (core.after s inp ((blockList op).length + 1)).cpsr = s.cpsr :=
      (congrArg Arch.cpsr hA).trans (begun_cpsr (r := .bdt))
    refine ⟨_, hcyc, hspsr, fun _ => ⟨fun i hi => ?_, congrArg Arch.gpr hA, hpc, hcpsr⟩, nofun⟩
    rw [hdata i hi, h12]
    split_ifs <;> rfl
  | true =>
    obtain ⟨hcyc, hspsr, hgpr, hpc, hpc15⟩ := block_load hs hop hc hcls hrn hL hab
    obtain ⟨hload, hother⟩ := block_loaded hrn hab
    refine ⟨_, hcyc, hspsr, nofun, fun _ => ⟨fun i hi h15 => ?_, fun p hp => ?_, hpc, fun h15 => ?_⟩⟩
    · rw [hgpr]
      exact hload i hi h15
    · rw [hgpr]
      exact hother p hp
    · obtain ⟨hpc, hcpsr⟩ := hpc15 h15
      refine ⟨by rw [hpc, BitVec.add_sub_cancel], ?_⟩
      rw [hcpsr, restored_eq, begun_bank, begun_cpsr, begun_spsr]
      by_cases hS : bit op 22 = true <;> by_cases hb : s.bank = .usr <;> simp [hS, hb]

omit hs hop hc hcls hrn in
/-- `LDMIA r0, {r1, pc}` on a bus that answers 0x40. -/
theorem block_transfer_ldm :
    ∃ N, BlockCycles (resting 0xE8908002) (calm 0x40) 0xE8908002 N ∧
      (core.after (resting 0xE8908002) (calm 0x40) N).gpr 1 = 0x40 ∧
      (core.after (resting 0xE8908002) (calm 0x40) N).pc - 8 = 0x40 := by
  have hs : ((resting 0xE8908002).poke (calm 0x40 0).lines).Quiet := resting_quiet _
  obtain ⟨N, hcyc, -, -, hload⟩ := block_transfer hs rfl (by decide) (by decide) (by decide)
    fun _ _ => rfl
  obtain ⟨hreg, -, -, hpc⟩ := hload (by decide)
  exact ⟨N, hcyc, hreg 0 (by decide) (by decide), (hpc (by decide)).1⟩

end Run

end Arm7DI

end Wren7
