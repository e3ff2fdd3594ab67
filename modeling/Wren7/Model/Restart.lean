import Wren7.Model.Memory
import Wren7.Model.Redo

/-!
# Data aborts are restartable

A transfer without write-back that the memory aborts, the data abort it takes, the return from that and
the transfer once more leave what the transfer leaves at once, but for R14 and the SPSR of abort mode.
-/

namespace Wren7

open Bits Reactive

namespace Arm7DI

variable {q : Arm7DI} {as : ℕ → Answer}

/-! ### The cycles of a transfer on a memory -/

section Rows

lemma fetchCycle_writes : q.fetchCycle.writes = false := Bool.and_false _

lemma fetchCycle_reads : q.fetchCycle.reads = false := Bool.and_false _

/-- A row of `n` stores after the opcode fetch. -/
structure StoreRow (q : Arm7DI) (row : List Signals) (n : ℕ) : Prop where
  reads : ∀ c ∈ row, c.reads = false
  index : ∀ j, (hj : j < row.length) → row[j].writes = true → 1 ≤ j ∧ j ≤ n

lemma storeRow {rest : List Signals} (hw : ∀ c ∈ rest, c.flags.write = true) :
    StoreRow q (q.fetchCycle :: rest) rest.length := by
  refine ⟨List.forall_mem_cons.mpr ⟨fetchCycle_reads, fun c hc => ?_⟩, fun j hj hjw => ?_⟩
  · rw [Signals.reads, hw c hc, Bool.not_true, Bool.and_false, Bool.false_and]
  · rw [List.length_cons] at hj
    refine ⟨Nat.one_le_iff_ne_zero.mpr ?_, by omega⟩
    rintro rfl
    rw [List.getElem_cons_zero, fetchCycle_writes] at hjw
    cases hjw

/-- A row of cycles none of which writes. -/
lemma not_writes_of {row : List Signals} (h : ∀ c ∈ row, c.flags.write = false) :
    ∀ c ∈ row, c.writes = false := fun c hc => by rw [Signals.writes, h c hc, Bool.and_false]

lemma ldr_not_writes : ∀ c ∈ (q.ldrOutcome as).1, c.flags.write = false := by
  unfold ldrOutcome
  dsimp only
  split_ifs <;> simp [fetchCycle, sdtFlags, idleCycle, refillRow]

lemma ldm_not_writes : ∀ c ∈ (q.ldmOutcome as).1, c.flags.write = false := by
  have hrow : ∀ c ∈ q.ldmRow q.x.op, c.flags.write = false := by
    refine List.forall_mem_cons.mpr ⟨rfl, fun c hc => ?_⟩
    obtain ⟨j, -, rfl⟩ := List.mem_map.mp hc
    rfl
  unfold ldmOutcome
  dsimp only
  split_ifs
  all_goals
    simp only [List.mem_append, or_imp, forall_and, refillRow]
    simp only [idleCycle, List.forall_mem_cons, List.not_mem_nil, false_implies, implies_true, and_true]
    simpa using hrow

variable (hseq : q.seq = seqOf q.x.op) (ht : IsTransfer q.x.op)

include hseq ht

/-- The memory accepts nothing of an aborted attempt, or the transfer only writes. -/
lemma accepted_attempt (hswp : seqOf q.x.op = .swp → (as 2).abort = true) :
    Signals.accepted (q.outcome as).1 (fun j => (as j).abort) = [] ∨
      (∀ as', (q.outcome as').1 = (q.outcome as).1) ∧
        StoreRow q (q.outcome as).1 (dataCycles q.x.op) := by
  unfold outcome dataCycles
  rcases ht with hs | hs | hs
  all_goals
    rw [hs] at hseq
    simp only [hseq, hs]
  · cases hL : bit q.x.op 20 with
    | true => exact .inl (Signals.accepted_of_not_writes (not_writes_of ldr_not_writes))
    | false => exact .inr ⟨fun _ => rfl, storeRow (List.forall_mem_singleton.mpr rfl)⟩
  · refine .inl ?_
    simp [swpOutcome, swpRow, Signals.accepted, Signals.writes, hswp hs, swpFlags, fetchCycle, idleCycle]
  · cases hL : bit q.x.op 20 with
    | true => exact .inl (Signals.accepted_of_not_writes (not_writes_of ldm_not_writes))
    | false =>
      refine .inr ⟨fun _ => rfl, ?_⟩
      have h := @storeRow q ((List.range (regList q.x.op).length).map (q.storeCycle q.x.op)) fun c hc => by
        obtain ⟨j, -, rfl⟩ := List.mem_map.mp hc
        rfl
      rw [List.length_map, List.length_range] at h
      rw [← regList_eq]
      exact h

/-- The length of an aborted attempt. -/
lemma attempt_length (hab : ∃ j, 1 ≤ j ∧ j ≤ dataCycles q.x.op ∧ (as j).abort = true) :
    (q.outcome as).1.length = transferCycles q.x.op := by
  obtain ⟨j, h1, hj, hab⟩ := hab
  unfold outcome transferCycles
  rcases ht with hs | hs | hs
  all_goals
    rw [hs] at hseq
    simp only [dataCycles, hs] at hj ⊢
    simp only [hseq]
  · obtain rfl : j = 1 := by omega
    cases hL : bit q.x.op 20 with
    | true => simp [ldrOutcome, hab]
    | false => simp [strOutcome]
  · simp [swpOutcome, swpRow]
  · cases hL : bit q.x.op 20 with
    | true =>
      rw [← regList_eq] at hj
      have hlen := aborted_list h1 hj hab
      simp [ldmOutcome, hlen, ldmRow, ← regList_eq]
    | false => simp [stmOutcome, regList_eq]

end Rows

/-! ### The attempt, the handler and the second attempt -/

/-- A transfer is aborted, the handler of the data abort returns at once, and the transfer is done
again. -/
structure Retry (s : Arm7DI) (inp : ℕ → Input) (code : Word → Slot) (op : Word) : Prop where
  boundary : s.atBoundary
  quiet : (poked s inp 0).Quiet
  word : s.ex.word = op
  passes : s.condPass op = true
  transfer : IsTransfer op
  keepsBase : movesBase op = false
  mode : modeOf s.cpsr ≠ mAbt
  /-- Of a swap the write is aborted, or both cycles. -/
  aborted : ∃ j, 1 ≤ j ∧ j ≤ dataCycles op ∧ (inp j).ans.abort = true
  swap : seqOf op = .swp → (inp 2).ans.abort = true
  inReset : (poked s inp (transferCycles op)).inReset = false
  resetExit : (poked s inp (transferCycles op)).resetExit = false
  handler : code Exception.dataAbort.vector = ⟨Exception.dataAbort.ret, false⟩
  undisturbed : (poked s inp (transferCycles op + 3)).Undisturbed
  again : (poked s inp (transferCycles op + 6)).Undisturbed
  irq : (poked s inp (transferCycles op + 6)).takesIrq = false
  answered : ∀ j, 1 ≤ j → j ≤ dataCycles op → (inp (transferCycles op + 6 + j)).ans.abort = false

section Retry

variable {s : Arm7DI} {inp : ℕ → Input} {code : Word → Slot} {m : Word → BitVec 8} {op : Word}

lemma bank_ne_abt (h : modeOf s.cpsr ≠ mAbt) : s.bank ≠ .abt := by
  unfold bank bankOf
  split_ifs <;> decide

lemma fetchesFrom_of_memory (h : ∀ j, OnMemory s inp m code j) : FetchesFrom s inp code := fun j hj => by
  rw [BusCycle.isFetch, Bool.and_eq_true] at hj
  exact (h j).fetch hj.1 hj.2

/-- The sequence of the transfer. -/
def sequencing (s : Arm7DI) (inp : ℕ → Input) : Arm7DI := (poked s inp 0).start

variable (h : Retry s inp code op)

include h

lemma Retry.sequencing_spec : (s.sequencing inp).arch = s.arch ∧ (s.sequencing inp).x.op = op ∧
    (s.sequencing inp).seq = seqOf op := by
  have hex : (poked s inp 0).ex.word = op := (congrArg Slot.word (poke_ex _ _)).trans h.word
  have hc : (poked s inp 0).condPass (poked s inp 0).ex.word = true := by
    rw [hex]
    exact (poke_condPass _ _ _).trans h.passes
  obtain ⟨ha, ho, hs⟩ := h.quiet.transfer hc (by rw [hex]; exact h.transfer)
  rw [hex] at ho hs
  exact ⟨ha.trans (poke_field _ arch (fun _ l => by cases l <;> rfl) _), ho, hs⟩

/-- The registers and the memory after the aborted attempt. -/
lemma Retry.attempt : ∃ g d n,
    (core.after s inp (transferCycles op)).atBoundary ∧
      (core.after s inp (transferCycles op)).arch = (s.sequencing inp).attempted g d n ∧
      (∀ p, ¬(s.sequencing inp).Loads p → g p = s.gpr p) ∧
      memoryAt s inp m (transferCycles op) = Store.puts m (Signals.accepted
        ((s.sequencing inp).outcome (answersOf inp)).1 fun j => (inp j).ans.abort) := by
  obtain ⟨ha, ho, hs⟩ := h.sequencing_spec
  have hp := @performs_outcome s inp h.boundary
  change Performs s inp ((s.sequencing inp).outcome (answersOf inp)).1 _ at hp
  obtain ⟨g, d, n, hA, hg⟩ := @attempt_outcome _ (answersOf inp) (hs.trans (by rw [ho]))
    (by rw [ho]; exact h.transfer) (by rw [ho]; exact h.keepsBase) (by rw [ho]; exact h.aborted)
  have hlen := @attempt_length _ (answersOf inp) (hs.trans (by rw [ho]))
    (by rw [ho]; exact h.transfer) (by rw [ho]; exact h.aborted)
  rw [ho] at hlen
  obtain ⟨hb, hA'⟩ := hp.ends hlen
  refine ⟨g, d, n, hb, hA'.trans hA, fun p hp => ?_, ?_⟩
  · rw [hg p hp]
    exact congrArg (fun A : Arch => A.gpr p) ha
  · rw [← hlen]
    exact memoryAt_row hp.signals

variable (hs : Prefetched s code) (hmem : ∀ j, OnMemory s inp m code j)

include hs hmem

/-- The second attempt begins with what the first one may have changed, and with R14 and the SPSR of abort
mode. -/
lemma Retry.returned : ∃ g, (s.sequencing inp).Redo g ∧
    g (phys 14 .abt) = s.pc ∧ (core.after s inp (transferCycles op + 6)).atBoundary ∧
      (core.after s inp (transferCycles op + 6)).arch = ((s.sequencing inp).again g s.cpsr).arch ∧
      memoryAt s inp m (transferCycles op + 6) = Store.puts m (Signals.accepted
        ((s.sequencing inp).outcome (answersOf inp)).1 fun j => (inp j).ans.abort) := by
  obtain ⟨ha, ho, hseq⟩ := h.sequencing_spec
  obtain ⟨g, d, k, hb, hA, hg, hm⟩ := h.attempt
  set c := transferCycles op with hcdef
  set t := core.after s inp c with htdef
  have hpc : t.pc = s.pc + 4 := (congrArg Arch.pc hA).trans (congrArg (fun A : Arch => A.pc + 4) ha)
  have hcpsr : t.cpsr = s.cpsr := (congrArg Arch.cpsr hA).trans (congrArg Arch.cpsr ha)
  have htaken : (t.poke (inp c).lines).taken = some .dataAbort := by
    have hd : (t.poke (inp c).lines).dabortPending = true :=
      (poke_dabortPending _ _).trans (congrArg Arch.dabort hA)
    rw [taken, show (t.poke (inp c).lines).inReset = false from h.inReset,
      show (t.poke (inp c).lines).resetExit = false from h.resetExit, hd]
    rfl
  have hcode : FetchesFrom t (fun j => inp (c + j)) code :=
    (fetchesFrom_of_memory hmem).after c
  have hh : (poked t (fun j => inp (c + j)) Exception.dataAbort.cycles).Undisturbed := by
    rw [poked, htdef, ← Machine.after_add]
    exact h.undisturbed
  have halign : Aligned t.pc := hpc ▸ hs.aligned.add_four
  obtain ⟨r, row, hlen, hw, hentry⟩ := @performs_entry t (fun j => inp (c + j)) _ _ hb htaken hcode
  obtain ⟨r', row', hlen', hw', hreturn⟩ := @performs_return t (fun j => inp (c + j)) _ _ hb htaken
    halign (hcpsr ▸ hs.impl) hcode h.handler hh
  have hN : core.after s inp (c + 6) = core.after (core.after t (fun j => inp (c + j)) 3)
      (fun j => inp (c + (3 + j))) (r' :: row').length := by
    rw [List.length_cons, hlen', ← Machine.after_add, htdef, ← Machine.after_add]
  refine ⟨Function.update g (phys 14 .abt) s.pc, ?_, Function.update_self _ _ _, ?_, ?_, ?_⟩
  · intro p hp hL
    rw [Function.update_of_ne hp, hg p hL]
    exact (congrArg (fun A : Arch => A.gpr p) ha).symm
  · rw [hN]
    exact hreturn.boundary
  · rw [hN]
    refine hreturn.arch.trans ?_
    have hres : Exception.dataAbort.resume t.pc = s.pc - 8 := by
      rw [hpc]
      show s.pc + 4 - 12 = s.pc - 8
      bv_omega
    have hr14 : t.pc - 4 = s.pc := by rw [hpc, BitVec.add_sub_cancel]
    have hde : s.pc - 8 + 4 = s.pc - 4 := by bv_omega
    have hdab : s.dabortPending = false := (poke_dabortPending _ _).symm.trans h.quiet.dabort
    have hspsr : t.spsr = (s.sequencing inp).spsr := congrArg Arch.spsr hA
    have hgpr : t.gpr = g := congrArg Arch.gpr hA
    ext1
    · rw [Arm7DI.returned, hgpr, hr14]
      rfl
    · rw [Arm7DI.returned, hres, BitVec.sub_add_cancel]
      exact (congrArg Arch.pc ha).symm
    · exact hcpsr.trans (congrArg Arch.cpsr ha).symm
    · rw [Arm7DI.returned, hspsr, hcpsr]
      rfl
    · rw [Arm7DI.returned, hres, ← hs.ex]
      exact (congrArg Arch.ex ha).symm
    · rw [Arm7DI.returned, hres, hde, ← hs.de]
      exact (congrArg Arch.de ha).symm
    · rfl
    · exact (hdab.symm.trans (congrArg Arch.dabort ha).symm)
  · have hnone : ∀ {u : Arm7DI} {as : ℕ → Input} {m' : Word → BitVec 8} {l : List Signals} {A : Arch},
        l.length = 3 → (∀ c ∈ l, c.flags.write = false) → Performs u as l A →
          memoryAt u as m' 3 = m' := by
      intro u as m' l A hl hlw hp
      rw [← hl, memoryAt_row hp.signals, Signals.accepted_of_not_writes (not_writes_of hlw), Store.puts_nil]
    rw [memoryAt_add, ← htdef, show 6 = 3 + 3 from rfl, memoryAt_add,
      hnone (l := r :: row) hlen hw hentry, ← hm]
    exact hnone (by rw [List.length_cons, hlen']) hw' hreturn

/-- The second attempt and what would have been without the first. -/
lemma Retry.rows :
    let q := s.sequencing inp
    let N := transferCycles op + 6
    let later := fun j => inp (N + j)
    ∃ r r' row, r.writes = false ∧ r'.writes = false ∧ r.reads = false ∧ r'.reads = false ∧
      (q.outcome (answersOf later)).1 = r :: row ∧
      Performs s (fun j => ⟨(inp j).lines, (later j).ans⟩) (r :: row) (q.outcome (answersOf later)).2 ∧
      Performs (core.after s inp N) later (r' :: row)
        ((q.outcome (answersOf later)).2.residue s.pc s.cpsr) ∧
      r.addr = s.pc ∧ r'.addr = s.pc ∧ r'.type.isMem = true ∧ r'.flags.opc = true := by
  intro q N later
  obtain ⟨ha, ho, hseq⟩ := h.sequencing_spec
  obtain ⟨g, hg, hg14, hb, hA, -⟩ := h.returned hs hmem
  have hqseq : q.seq = seqOf q.x.op := hseq.trans (congrArg seqOf ho).symm
  have hqt : IsTransfer q.x.op := ho.symm ▸ h.transfer
  have hbank : q.bank ≠ .abt := by
    rw [bank, show q.cpsr = s.cpsr from congrArg Arch.cpsr ha]
    exact bank_ne_abt h.mode
  obtain ⟨row, hrow, -⟩ := outcome_row q (answersOf later)
  obtain ⟨row', hrow', -⟩ := outcome_row (q.again g s.cpsr) (answersOf later)
  have hagain := @again_outcome q g s.cpsr (answersOf later) hbank hg hqseq hqt
    (by rw [ho]; exact h.keepsBase) ((congrArg (fun A : Arch => A.nextType.isMem) ha).trans hs.nextType)
    (by rw [ho]; exact h.answered)
  rw [hrow, hrow', List.tail_cons, List.tail_cons, hg14] at hagain
  obtain ⟨rfl, hres⟩ := hagain
  -- the sequence of the second attempt
  set t := core.after s inp N with htdef
  have hpoke : (poked s inp N).arch = (q.again g s.cpsr).arch :=
    (poke_field _ arch (fun _ l => by cases l <;> rfl) _).trans hA
  have hq0 : (poked s inp 0).arch = s.arch := poke_field _ arch (fun _ l => by cases l <;> rfl) _
  have hex : (poked s inp N).ex = (poked s inp 0).ex :=
    (congrArg Arch.ex hpoke).trans ((congrArg Arch.ex ha).trans (congrArg Arch.ex hq0).symm)
  have hword : (poked s inp N).ex.word = op :=
    (congrArg Slot.word (hex.trans (poke_ex _ _))).trans h.word
  have hquiet : (poked s inp N).Quiet := by
    refine ⟨(poke_seq _ _).trans hb, h.again.inReset, h.again.resetExit, ?_, h.again.fiq, h.irq, ?_⟩
    · exact (congrArg Arch.dabort hpoke).trans ((congrArg Arch.dabort ha).trans
        ((congrArg Arch.dabort hq0).symm.trans h.quiet.dabort))
    · rw [hex]
      exact h.quiet.slot
  have hpass : (poked s inp N).condPass (poked s inp N).ex.word = true := by
    rw [hword, condPass, show (poked s inp N).cpsr = s.cpsr from
      (congrArg Arch.cpsr hpoke).trans (congrArg Arch.cpsr ha)]
    exact h.passes
  obtain ⟨hua, huo, hus⟩ := hquiet.transfer hpass (by rw [hword]; exact h.transfer)
  rw [hword] at huo hus
  have hout := outcome_congr (hua.trans hpoke) (huo.trans ho.symm) (hus.trans hseq.symm) hqseq hqt
    (answersOf later)
  have hretry := @performs_outcome t later hb
  change Performs t later ((poked s inp N).start.outcome (answersOf later)).1
    ((poked s inp N).start.outcome (answersOf later)).2 at hretry
  have hdirect := @performs_outcome s (fun j => ⟨(inp j).lines, (later j).ans⟩) h.boundary
  change Performs s _ (q.outcome (answersOf later)).1 (q.outcome (answersOf later)).2 at hdirect
  rw [hout, hrow', hres] at hretry
  rw [hrow] at hdirect
  have hpc : q.pc = s.pc := congrArg Arch.pc ha
  exact ⟨_, _, _, fetchCycle_writes, fetchCycle_writes, fetchCycle_reads, fetchCycle_reads, hrow, hdirect,
    hretry, hpc, hpc, rfl, rfl⟩

/-- The second attempt leaves in the registers and in the memory what would have been there without the
first, and the memory answers both alike. -/
lemma Retry.direct :
    let N := transferCycles op + 6
    let later := fun j => inp (N + j)
    let once : ℕ → Input := fun j => ⟨(inp j).lines, (later j).ans⟩
    ∃ L, NextBoundary s once L ∧ NextBoundary (core.after s inp N) later L ∧
      (core.after (core.after s inp N) later L).arch = (core.after s once L).arch.residue s.pc s.cpsr ∧
      (∀ j < L, OnMemory s once m code j) ∧ memoryAt s inp m (N + L) = memoryAt s once m L := by
  intro N later once
  obtain ⟨r, r', row, hw, hw', hr, hr', hrow, hdirect, hretry, haddr, haddr', htype, hopc⟩ := h.rows hs hmem
  obtain ⟨g, -, -, -, -, hm⟩ := h.returned hs hmem
  obtain ⟨-, ho, hseq⟩ := h.sequencing_spec
  have hL : (r' :: row).length = (r :: row).length := rfl
  have hsame : ∀ j < row.length,
      (core.outs (core.after s inp N) later (j + 1)).signals = (core.outs s once (j + 1)).signals :=
    fun j hj => (hretry.signals (j + 1) (Nat.succ_lt_succ hj)).trans
      (hdirect.signals (j + 1) (Nat.succ_lt_succ hj)).symm
  have h0 : (core.outs s once 0).signals = r := hdirect.signals 0 (Nat.succ_pos _)
  have h0' : (core.outs (core.after s inp N) later 0).signals = r' := hretry.signals 0 (Nat.succ_pos _)
  -- from the attempt on, either nothing is different or nothing is read
  have hmemory : (∀ j ≤ row.length + 1, memoryAt s inp m (N + j) = memoryAt s once m j) ∨
      (∀ c ∈ r :: row, c.reads = false) ∧
        memoryAt s inp m (N + (row.length + 1)) = memoryAt s once m (row.length + 1) := by
    have hadd : ∀ j, memoryAt s inp m (N + j) =
        memoryAt (core.after s inp N) later (memoryAt s inp m N) j := fun j => memoryAt_add N j
    rcases @accepted_attempt _ (answersOf inp) (hseq.trans (congrArg seqOf ho).symm)
      (by rw [ho]; exact h.transfer) (by rw [ho]; exact h.swap) with hnone | ⟨hrows, hstores⟩
    · refine Or.inl fun j hj => ?_
      rw [hadd, hm]
      refine (congrArg (fun l => memoryAt _ _ (Store.puts m l) j) hnone).trans ?_
      refine memoryAt_congr fun i hi => ?_
      cases i with
      | zero =>
        rw [h0, h0', Signals.accepted_cons_of_not_writes hw, Signals.accepted_cons_of_not_writes hw']
      | succ i => rw [hsame i (by omega)]
    · rw [← hrows (answersOf later), hrow] at hstores
      refine Or.inr ⟨hstores.reads, ?_⟩
      have honce := @memoryAt_row s once m _ hdirect.signals
      have hlater := @memoryAt_row (core.after s inp N) later (memoryAt s inp m N) _ hretry.signals
      rw [hadd]
      refine hlater.trans (Eq.trans ?_ honce.symm)
      have hhead : Signals.accepted (r' :: row) (fun j => (later j).ans.abort) =
          Signals.accepted (r :: row) fun j => (once j).ans.abort := by
        rw [Signals.accepted_cons_of_not_writes hw', Signals.accepted_cons_of_not_writes hw]
      rw [hhead, hm, ← hrows (answersOf later), hrow]
      refine Store.puts_sublist (Signals.accepted_sublist fun j hj hjw _ => ?_)
      obtain ⟨h1, hle⟩ := hstores.index j hj hjw
      rw [ho] at hle
      exact h.answered j h1 hle
  refine ⟨_, hdirect.next, hretry.next,
    hretry.arch.trans (congrArg (fun A : Arch => A.residue s.pc s.cpsr) hdirect.arch).symm,
    fun j hj => ?_, hmemory.elim (fun hall => hall _ (Nat.le_refl _)) fun hlast => hlast.2⟩
  have hj' := hmem (N + j)
  rw [OnMemory, Machine.outs_add] at hj'
  rw [OnMemory]
  cases j with
  | zero =>
    rw [h0'] at hj'
    rw [h0]
    refine ⟨fun _ _ => ?_, fun hread => Bool.noConfusion (hr.symm.trans hread)⟩
    rw [haddr, ← haddr']
    exact hj'.fetch htype hopc
  | succ j =>
    have hjlt : j < row.length := Nat.lt_of_succ_lt_succ hj
    rw [hsame j hjlt] at hj'
    refine ⟨hj'.fetch, fun hread hab => ?_⟩
    rcases hmemory with hall | ⟨hnot, -⟩
    · rw [← hall (j + 1) (Nat.le_of_lt hj)]
      exact hj'.read hread hab
    · have hsig : (core.outs s once (j + 1)).signals = (r :: row)[j + 1] := hdirect.signals (j + 1) hj
      rw [hsig, hnot _ (List.getElem_mem _)] at hread
      cases hread

end Retry

/-! ### Runs from power-on -/

section Runs

variable {stages n : ℕ} {carry : MulCarry} {inp : ℕ → Input} {code : Word → Slot} {m : Word → BitVec 8}
  {op : Word}

/-- LDM of two registers at 0, and a handler that returns at once. -/
def ldmCode (a : Word) : Slot := ⟨if a = 0 then 0xE8900006 else if a = 0x10 then 0xE25EF008 else 0, false⟩

/-- The second data cycle of the first attempt is aborted. -/
def ldmInput : ℕ → Input := servedBy (powerOn 0 .keep) (fun _ => 0) ldmCode fun n => n == 5

lemma ldm_answered : ∀ j < 3, 1 ≤ j → (ldmInput (3 + (10 + j))).ans.abort = false := by decide +kernel

lemma ldm_retry :
    Retry (core.after (powerOn 0 .keep) ldmInput 3) (fun j => ldmInput (3 + j)) ldmCode 0xE8900006 where
  boundary := by decide +kernel
  quiet := ⟨by decide +kernel, by decide +kernel, by decide +kernel, by decide +kernel,
    by decide +kernel, by decide +kernel, by decide +kernel⟩
  word := by decide +kernel
  passes := by decide +kernel
  transfer := Or.inr (Or.inr (by decide))
  keepsBase := by decide
  mode := by decide +kernel
  aborted := ⟨2, by decide, by decide +kernel, by decide +kernel⟩
  swap := by decide
  inReset := by decide +kernel
  resetExit := by decide +kernel
  handler := by decide
  undisturbed := ⟨by decide +kernel, by decide +kernel, by decide +kernel⟩
  again := ⟨by decide +kernel, by decide +kernel, by decide +kernel⟩
  irq := by decide +kernel
  answered := fun j h1 h2 =>
    ldm_answered j (Nat.lt_succ_of_le (h2.trans (by decide +kernel))) h1

end Runs

end Arm7DI

end Wren7
