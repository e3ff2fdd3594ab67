import Wren7.Model.BlockTransfer
import Wren7.System.WaveRam

/-!
# Pushing and popping registers

An STM whose block lies in the wave RAM, and the LDM that reads the block back.
-/

namespace Wren7

open Bits Reactive

namespace Arm7DI

variable (s : Arm7DI) (op : Word)

/-- The wave RAM place of the lowest word of a block. -/
def blockPlace : BitVec 19 := DcArmBus.ramWord (s.blockLow op)

/-- A byte of the wave RAM that belongs to the block: one of four for each register. -/
def InBlock (i : BitVec 21) : Prop :=
  ∃ j < (blockList op).length,
    i.extractLsb' 2 19 = DcArmBus.ramWord (s.blockLow op + 4 * BitVec.ofNat 32 j)

/-- The whole block lies in the wave RAM window. -/
def BlockInRam : Prop :=
  ∀ j < (blockList op).length,
    DcArmBus.inRam (s.blockLow op + 4 * BitVec.ofNat 32 j) = true

instance : Decidable (s.BlockInRam op) :=
  inferInstanceAs (Decidable (∀ j < (blockList op).length, _))

lemma inBlock_iff (i : BitVec 21) : s.InBlock op i ↔
    ∃ j < (blockList op).length, i.extractLsb' 2 19 = s.blockPlace op + BitVec.ofNat 19 j := by
  simp only [InBlock, DcArmBus.ramWord_add, blockPlace]

lemma blockList_length_le : (blockList op).length ≤ 16 := by
  unfold blockList
  split_ifs
  · decide
  · exact (List.length_filter_le _ _).trans (List.length_range).le

lemma mem_blockList {r : ℕ} (hne : field op 0 16 ≠ 0) :
    r ∈ blockList op ↔ r < 16 ∧ bit (field op 0 16) r = true := by
  rw [blockList, if_neg hne, List.mem_filter, List.mem_range]

section Reads

variable {s op} {inp : ℕ → Input}

/-- An LDM that does not load R15 writes nothing. -/
lemma load_reads (hs : (s.poke (inp 0).lines).Quiet) (hop : s.ex.word = op)
    (hc : s.condPass op = true) (hcls : field op 25 3 = 4) (hL : bit op 20 = true)
    (hab : ∀ j < (blockList op).length, (inp (1 + j)).ans.abort = false)
    (h15 : 15 ∉ blockList op) : ∃ row A, Performs s inp row A ∧
      row.length = (blockList op).length + 2 ∧ ∀ c ∈ row, c.flags.write = false := by
  set q := s.begun inp .bdt
  have hqop : q.x.op = op := begun_op hop
  have hab' : aborted (transferAns inp) (regList op).length = false := by
    rw [regList_eq, aborted_eq_false_iff]
    exact hab
  have hmem : bit (effList op) 15 = false := by
    rw [← regList_eq, mem_regList_15] at h15
    exact Bool.eq_false_iff.mpr h15
  have hp := hs.performs hop hc (seqOf_eq_bdt.mpr hcls) (by decide) (finishes_ldmDone (q := q)
    rfl rfl (by rw [hqop]; exact hL) (by rw [hqop, answers_eq]; exact hab')
    (by rw [hqop]; exact hmem))
  rw [hqop] at hp
  refine ⟨_, _, hp, by simp [regList_eq], ?_⟩
  intro c hc
  simp only [List.append_eq, List.mem_cons, List.mem_append, List.mem_map, List.not_mem_nil,
    or_false] at hc
  rcases hc with rfl | ⟨j, -, rfl⟩ | rfl <;> rfl

end Reads

/-- The write of a transfer. -/
lemma storeCycle_stored {j : ℕ} {f : Ram}
    (hin : DcArmBus.inRam (s.bdtAddr op + 4 * BitVec.ofNat 32 j) = true) :
    (s.storeCycle op j).stored f =
      f.putWord (DcArmBus.ramWord (s.bdtAddr op + 4 * BitVec.ofNat 32 j)) (s.stmWord op j) := by
  refine Signals.stored_word ?_ hin rfl rfl
  change (if j = 0 then CycleType.N else .S).isMem = true
  split_ifs <;> rfl

end Arm7DI

namespace System

open Arm7DI

variable {ρ : Type*} [AicaRegs ρ] {s : System ρ} {op : Word}

/-! ### One block transfer of a system -/

section Block

variable (h : s.Executes op) (hcls : field op 25 3 = 4) (hrn : field op 16 4 ≠ 15)
  (hram : s.core.BlockInRam op)

include h hcls hrn hram

omit [AicaRegs ρ] h hcls in
/-- The writes of an STM, one by one. -/
lemma stored_block {inp : ℕ → Input} {m : ℕ} (hm : m ≤ (blockList op).length) {f : Ram} :
    ((List.range m).map ((s.core.begun inp .bdt).storeCycle op)).foldl (fun f c => c.stored f) f =
      f.putWords (s.core.blockPlace op) (s.core.blockWord op) m := by
  induction m with
  | zero => rfl
  | succ m ih =>
    rw [List.range_succ, List.map_append, List.foldl_append, ih (by omega), List.map_singleton,
      List.foldl_cons, List.foldl_nil, storeCycle_stored, begun_stmWord hrn, begun_addr hrn,
      Ram.putWords, blockPlace, DcArmBus.ramWord_add]
    rw [begun_addr hrn]
    exact hram m hm

/-- An STM puts its words into the block. -/
lemma store_block (hL : bit op 20 = false) :
    let n := (blockList op).length
    let t := System.busCycle^[n + 1] s
    s.NextBoundary (n + 1) ∧ t.core.gpr = s.core.blockBack op ∧ t.core.cpsr = s.core.cpsr ∧
    t.bus.ram = Ram.putWords s.bus.ram (s.core.blockPlace op) (s.core.blockWord op) n := by
  obtain ⟨inp, hf⟩ := s.exists_feeds
  set q := s.core.begun inp .bdt
  have hqop : q.x.op = op := begun_op h.word
  have hp := (hf.quiet h).performs h.word h.passes (seqOf_eq_bdt.mpr hcls) (by decide)
    (finishes_stm (q := q) rfl rfl (by rw [hqop]; exact hL))
  rw [hqop, answers_eq, begun_wroteBack hrn, regList_eq] at hp
  have hab : aborted (transferAns inp) (blockList op).length = false :=
    aborted_eq_false_iff.mpr fun _ _ => hf.abort
  rw [hab] at hp
  have hlen : (q.fetchCycle :: (List.range (blockList op).length).map
      (q.storeCycle op)).length = (blockList op).length + 1 := by simp
  have hA := hp.arch
  rw [hlen] at hA
  refine ⟨hf.nextBoundary (hlen ▸ hp.next), ?_, ?_, ?_⟩
  · rw [hf.field (·.gpr) fun u l => by cases l <;> rfl]
    exact congrArg Arch.gpr hA
  · rw [hf.field (·.cpsr) fun u l => by cases l <;> rfl]
    exact (congrArg Arch.cpsr hA).trans (begun_cpsr (r := .bdt))
  · rw [hf.ram hp hlen.ge, ← hlen, List.take_length, List.foldl_cons, Signals.stored_read rfl]
    exact stored_block hrn hram le_rfl

/-- An LDM takes its words from the block. -/
lemma load_block (hL : bit op 20 = true) (h15 : 15 ∉ blockList op) :
    let n := (blockList op).length
    let u := System.busCycle^[n + 2] s
    s.NextBoundary (n + 2) ∧ u.bus.ram = s.bus.ram ∧ u.core.cpsr = s.core.cpsr ∧
    (∀ i (hi : i < n), u.core.gpr (phys (BitVec.ofNat 4 (blockList op)[i]) (s.core.blockBank op)) =
      Ram.wordAt s.bus.ram (s.core.blockPlace op + BitVec.ofNat 19 i)) ∧
    ∀ p, (∀ r ∈ blockList op, p ≠ phys (BitVec.ofNat 4 r) (s.core.blockBank op)) →
      u.core.gpr p = s.core.blockBack op p := by
  obtain ⟨inp, hf⟩ := s.exists_feeds
  have hq := hf.quiet h
  have hab : ∀ j < (blockList op).length, (inp (1 + j)).ans.abort = false := fun _ _ => hf.abort
  obtain ⟨hcyc, -, hgpr, hpsr, -⟩ := block_load hq h.word h.passes hcls hrn hL hab
  rw [if_neg h15] at hcyc hgpr hpsr
  have hreads (k : ℕ) (hk : k ≤ (blockList op).length + 2) :
      (System.busCycle^[k] s).bus.ram = s.bus.ram := by
    obtain ⟨row, A, hp, hlen, hr⟩ := load_reads hq h.word h.passes hcls hL hab h15
    exact hf.ram_of_reads hp (hlen ▸ hk) hr
  have hans (i : ℕ) (hi : i < (blockList op).length) : (inp (1 + i)).ans.rdata =
      Ram.wordAt s.bus.ram (s.core.blockPlace op + BitVec.ofNat 19 i) := by
    have hflags := hcyc.flags i hi
    have hmem : (Arm7DI.core.outs s.core inp (1 + i)).type.isMem = true := by
      rw [hcyc.type i hi]
      split_ifs <;> rfl
    rw [hf.rdata hmem (by rw [hcyc.addr i hi]; exact hram i hi) (by rw [hflags, hL]; rfl),
      hreads (1 + i) (by omega), hcyc.addr i hi, DcArmBus.ramWord_add]
    rfl
  have hfield : (System.busCycle^[(blockList op).length + 2] s).core.gpr = _ :=
    hf.field (·.gpr) fun u l => by cases l <;> rfl
  obtain ⟨hload, hother⟩ := block_loaded (s := s.core) hrn hab
  rw [← hgpr, ← hfield] at hload hother
  refine ⟨hf.nextBoundary hcyc.next, hreads _ le_rfl,
    (hf.field (·.cpsr) fun u l => by cases l <;> rfl).trans (hpsr h15).2, fun i hi => ?_,
    fun p hp => ?_⟩
  · rw [← hans i hi]
    exact hload i hi fun he => h15 (he ▸ List.getElem_mem hi)
  · exact hother p fun i hi _ => hp _ (List.getElem_mem hi)

end Block

/-! ### A pair of block transfers -/

/-- An STM and an LDM with the same base register and the same list, without R15. With R15 as its
base a block overlaps the code around the instruction. -/
structure BlockPair (op op' : Word) : Prop where
  store : field op 25 3 = 4 ∧ bit op 20 = false
  load : field op' 25 3 = 4 ∧ bit op' 20 = true
  base : field op' 16 4 = field op 16 4
  list : field op' 0 16 = field op 0 16
  base_ne : field op 16 4 ≠ 15
  nonempty : field op 0 16 ≠ 0
  list_ne : bit (field op 0 16) 15 = false

/-- `STMDB !` with `LDMIA !`, `STMDA !` with `LDMIB !`, `STMIA !` with `LDMDB !` or `STMIB !` with
`LDMDA !`, with the base not in the list. -/
structure PushPop (op op' : Word) : Prop extends BlockPair op op' where
  plain : bit op 22 = false ∧ bit op' 22 = false
  writeBack : bit op 21 = true ∧ bit op' 21 = true
  opposite : bit op' 23 = !bit op 23 ∧ bit op' 24 = !bit op 24
  fresh : bit (field op 0 16) (field op 16 4).toNat = false

/-- STM and LDM of R0 to R14 of the user bank. -/
structure SaveUser (op op' : Word) : Prop extends BlockPair op op' where
  banked : bit op 22 = true ∧ bit op' 22 = true
  still : bit op 21 = false ∧ bit op' 21 = false
  same : bit op' 23 = bit op 23 ∧ bit op' 24 = bit op 24
  all : field op 0 16 = 0x7FFF

section Pair

variable {op' : Word}

namespace BlockPair

variable (hp : BlockPair op op')

include hp

lemma blockList_eq : blockList op' = blockList op := by
  rw [blockList, blockList, hp.list]

lemma blockBytes_eq : blockBytes op' = blockBytes op := by
  rw [blockBytes, blockBytes, hp.list, hp.blockList_eq]

lemma mem_iff {r : ℕ} : r ∈ blockList op ↔ r < 16 ∧ bit (field op 0 16) r = true :=
  mem_blockList op hp.nonempty

lemma pc_not_mem : 15 ∉ blockList op := by
  rw [hp.mem_iff, hp.list_ne]
  simp

lemma lt_15 {r : ℕ} (hr : r ∈ blockList op) : r < 15 := by
  have h16 := (hp.mem_iff.mp hr).1
  have h15 : r ≠ 15 := fun h => hp.pc_not_mem (h ▸ hr)
  omega

lemma load_base_ne : field op' 16 4 ≠ 15 := hp.base ▸ hp.base_ne

/-- The stored word at a place of the block. -/
lemma blockWord_eq (c : Arm7DI) {i : ℕ} (hi : i < (blockList op).length) : c.blockWord op i =
    (if i = 0 then c.gpr else c.blockBack op)
      (phys (BitVec.ofNat 4 (blockList op)[i]) (c.blockBank op)) := by
  have hreg : (blockList op).getD i 16 = (blockList op)[i] := by
    simp [List.getD_eq_getElem?_getD, hi]
  have hne : (blockList op)[i] ≠ 15 := fun h => hp.pc_not_mem (h ▸ List.getElem_mem hi)
  rw [blockWord, hreg, if_neg hne]

end BlockPair

namespace PushPop

variable (hp : PushPop op op')

include hp

/-- The base is no listed register. -/
lemma base_phys_ne (b : Bank) {r : ℕ} (hr : r ∈ blockList op) :
    phys (field op 16 4) b ≠ phys (BitVec.ofNat 4 r) b := by
  intro he
  have h15 := hp.lt_15 hr
  have hne : BitVec.ofNat 4 r ≠ 15 := by
    intro h
    have := congrArg BitVec.toNat h
    simp at this
    omega
  have hreg := congrArg BitVec.toNat (phys_inj hp.base_ne hne b b he)
  rw [BitVec.toNat_ofNat, Nat.mod_eq_of_lt (by omega)] at hreg
  have hbit := (hp.mem_iff.mp hr).2
  rw [← hreg, hp.fresh] at hbit
  exact Bool.false_ne_true hbit

lemma blockBank_eq (c : Arm7DI) : c.blockBank op = c.bank ∧ c.blockBank op' = c.bank := by
  simp [blockBank, hp.plain]

/-- Every stored word is the register's own. -/
lemma stored (c : Arm7DI) {i : ℕ} (hi : i < (blockList op).length) :
    c.blockWord op i = c.gpr (phys (BitVec.ofNat 4 (blockList op)[i]) c.bank) := by
  rw [hp.blockWord_eq c hi, (hp.blockBank_eq c).1]
  split_ifs
  · rfl
  · rw [blockBack, if_pos hp.writeBack.1, Function.update_of_ne]
    exact (hp.base_phys_ne c.bank (List.getElem_mem hi)).symm

/-- From the moved base the load finds the same block and the old base. -/
lemma matches_of_base {c c' : Arm7DI} (h : c'.blockBase op' = c.blockMoved op) :
    c'.blockLow op' = c.blockLow op ∧ c'.blockMoved op' = c.blockBase op := by
  rw [blockLow, blockLow, blockMoved, h, blockMoved, hp.opposite.1, hp.opposite.2,
    hp.blockBytes_eq]
  cases bit op 23 <;> cases bit op 24 <;> simp [BitVec.sub_add_cancel, BitVec.add_sub_cancel]

end PushPop

namespace SaveUser

variable (hp : SaveUser op op')

include hp

lemma mem_iff_lt {r : ℕ} : r ∈ blockList op ↔ r < 15 := by
  refine ⟨hp.lt_15, fun hr => hp.mem_iff.mpr ⟨by omega, ?_⟩⟩
  rw [hp.all]
  interval_cases r <;> rfl

lemma blockBank_eq (c : Arm7DI) : c.blockBank op = .usr ∧ c.blockBank op' = .usr := by
  have h : ¬15 ∈ blockList op' := hp.blockList_eq ▸ hp.pc_not_mem
  simp [blockBank, hp.banked, hp.pc_not_mem, h]

lemma blockBack_eq (c : Arm7DI) : c.blockBack op = c.gpr ∧ c.blockBack op' = c.gpr := by
  simp [blockBack, hp.still]

lemma stored (c : Arm7DI) {i : ℕ} (hi : i < (blockList op).length) :
    c.blockWord op i = c.gpr (phys (BitVec.ofNat 4 (blockList op)[i]) .usr) := by
  rw [hp.blockWord_eq c hi, (hp.blockBank_eq c).1, (hp.blockBack_eq c).1, ite_self]

lemma matches_of_base {c c' : Arm7DI} (h : c'.blockBase op' = c.blockBase op) :
    c'.blockLow op' = c.blockLow op := by
  rw [blockLow, blockLow, h, hp.same.1, hp.same.2, hp.blockBytes_eq]

end SaveUser

end Pair

/-- A state after the STM of `s` in which the LDM is executed: the base and the block are as the STM
left them, in `t`. -/
structure Resumes (s t : System ρ) (op op' : Word) (t' : System ρ) : Prop where
  executes : t'.Executes op'
  bank : t'.core.bank = s.core.bank
  base : t'.core.blockBase op' = t.core.blockBase op
  block : ∀ i, s.core.InBlock op i → t'.bus.ram i = t.bus.ram i

/-- The LDM finds the words that the STM stored. -/
lemma reload {op' : Word} {t' : System ρ} (hp : BlockPair op op') (h : s.Executes op)
    (hram : s.core.BlockInRam op)
    (hr : s.Resumes (System.busCycle^[(blockList op).length + 1] s) op op' t')
    (hlow : t'.core.blockLow op' = s.core.blockLow op)
    (hbank : t'.core.blockBank op' = s.core.blockBank op) :
    let n := (blockList op).length
    let u := System.busCycle^[n + 2] t'
    t'.NextBoundary (n + 2) ∧ u.bus.ram = t'.bus.ram ∧ u.core.bank = s.core.bank ∧
    (∀ i (hi : i < n), u.core.gpr (phys (BitVec.ofNat 4 (blockList op)[i]) (s.core.blockBank op)) =
      s.core.blockWord op i) ∧
    ∀ p, (∀ r ∈ blockList op, p ≠ phys (BitVec.ofNat 4 r) (s.core.blockBank op)) →
      u.core.gpr p = t'.core.blockBack op' p := by
  obtain ⟨-, -, -, hput⟩ := store_block h hp.store.1 hp.base_ne hram hp.store.2
  have hlist := hp.blockList_eq
  have hram' : t'.core.BlockInRam op' := by
    rw [BlockInRam, hlist, hlow]
    exact hram
  obtain ⟨hnext, hsame, hcpsr, hload, hother⟩ := load_block hr.executes hp.load.1 hp.load_base_ne
    hram' hp.load.2 (hlist ▸ hp.pc_not_mem)
  simp only [hlist, hbank, blockPlace, hlow] at hnext hsame hcpsr hload hother
  refine ⟨hnext, hsame, ?_, fun i hi => ?_, hother⟩
  · rw [Arm7DI.bank, hcpsr]
    exact hr.bank
  have hle := blockList_length_le op
  -- the block of `t'` is the block of `t`
  have hblock : Ram.wordAt t'.bus.ram (s.core.blockPlace op + BitVec.ofNat 19 i) =
      Ram.wordAt (System.busCycle^[(blockList op).length + 1] s).bus.ram
        (s.core.blockPlace op + BitVec.ofNat 19 i) :=
    Ram.wordAt_congr fun l => hr.block _ ((s.core.inBlock_iff op _).mpr ⟨i, hi, byteAt_word _ _⟩)
  refine (hload i hi).trans (hblock.trans ?_)
  rw [hput]
  exact Ram.wordAt_putWords (by omega) hi

/-- Pushed registers come back, and so does the base; the user bank comes back, and no other bank is
touched; and the wave RAM changes in the block only. -/
theorem push_pop (h : s.Executes op) (hram : s.core.BlockInRam op) {op' : Word}
    (hpair : PushPop op op' ∨ SaveUser op op') :
    let n := (blockList op).length
    let t := System.busCycle^[n + 1] s
    s.NextBoundary (n + 1) ∧ (∀ i, ¬s.core.InBlock op i → t.bus.ram i = s.bus.ram i) ∧
    ∀ t', s.Resumes t op op' t' →
      let u := System.busCycle^[n + 2] t'
      t'.NextBoundary (n + 2) ∧ u.bus.ram = t'.bus.ram ∧
      (PushPop op op' →
        (∀ r ∈ blockList op, u.core.gpr (phys (BitVec.ofNat 4 r) s.core.bank) =
          s.core.gpr (phys (BitVec.ofNat 4 r) s.core.bank)) ∧
        u.core.blockBase op = s.core.blockBase op) ∧
      (SaveUser op op' →
        (∀ r < 15, u.core.gpr (phys (BitVec.ofNat 4 r) .usr) =
          s.core.gpr (phys (BitVec.ofNat 4 r) .usr)) ∧
        ∀ p, (∀ r < 15, p ≠ phys (BitVec.ofNat 4 r) .usr) →
          t.core.gpr p = s.core.gpr p ∧ u.core.gpr p = t'.core.gpr p) := by
  have hp : BlockPair op op' := hpair.elim (·.toBlockPair) (·.toBlockPair)
  obtain ⟨hnext, hgpr, hcpsr, hput⟩ := store_block h hp.store.1 hp.base_ne hram hp.store.2
  refine ⟨hnext, fun i hi => ?_, fun t' hr => ?_⟩
  · rw [hput]
    exact Ram.putWords_other fun j hj he => hi ((s.core.inBlock_iff op i).mpr ⟨j, hj, he⟩)
  set t := System.busCycle^[(blockList op).length + 1] s
  have hbank : t.core.bank = s.core.bank := by
    rw [Arm7DI.bank, hcpsr, Arm7DI.bank]
  have hbase : t'.core.blockBase op' = s.core.blockBack op (phys (field op 16 4) s.core.bank) := by
    rw [hr.base, blockBase, hgpr, hbank]
  rcases hpair with hpp | hsu
  · have hmoved : t'.core.blockBase op' = s.core.blockMoved op := by
      rw [hbase, blockBack, if_pos hpp.writeBack.1, Function.update_self]
    obtain ⟨hlow, hback⟩ := hpp.matches_of_base hmoved
    have hb : t'.core.blockBank op' = s.core.blockBank op := by
      rw [(hpp.blockBank_eq t'.core).2, (hpp.blockBank_eq s.core).1, hr.bank]
    obtain ⟨hnext', hsame, hubank, hload, hother⟩ := reload hp h hram hr hlow hb
    rw [(hpp.blockBank_eq s.core).1] at hload hother
    refine ⟨hnext', hsame, fun _ => ⟨fun r hrm => ?_, ?_⟩, fun hsu => ?_⟩
    · obtain ⟨i, hi, rfl⟩ := List.getElem_of_mem hrm
      rw [hload i hi, hpp.stored s.core hi]
    · rw [blockBase, hubank, hother _ fun r hrm => hpp.base_phys_ne s.core.bank hrm, blockBack,
        if_pos hpp.writeBack.2, hpp.base, hr.bank, Function.update_self, hback]
    · exact absurd (hpp.plain.1.symm.trans hsu.banked.1) Bool.false_ne_true
  · have hstill : t'.core.blockBase op' = s.core.blockBase op := by
      rw [hbase, (hsu.blockBack_eq s.core).1, blockBase]
    have hb : t'.core.blockBank op' = s.core.blockBank op := by
      rw [(hsu.blockBank_eq t'.core).2, (hsu.blockBank_eq s.core).1]
    obtain ⟨hnext', hsame, -, hload, hother⟩ := reload hp h hram hr (hsu.matches_of_base hstill) hb
    rw [(hsu.blockBank_eq s.core).1] at hload hother
    refine ⟨hnext', hsame, fun hpp => ?_, fun _ => ⟨fun r hr15 => ?_, fun p hne => ⟨?_, ?_⟩⟩⟩
    · exact absurd (hpp.plain.1.symm.trans hsu.banked.1) Bool.false_ne_true
    · obtain ⟨i, hi, rfl⟩ := List.getElem_of_mem (hsu.mem_iff_lt.mpr hr15)
      rw [hload i hi, hsu.stored s.core hi]
    · rw [hgpr, (hsu.blockBack_eq s.core).1]
    · rw [hother p fun r hrm => hne r (hsu.mem_iff_lt.mp hrm), (hsu.blockBack_eq t'.core).2]

/-- `STMDB r13!, {r0, r1}` with R13 = 0x8004. -/
def pushing : System Empty := holding 0xE92D0003 0x8004 7 9 (.new {} 0 0 0)

/-- `LDMIA r13!, {r0, r1}` after it, with R0 and R1 cleared. -/
def popping : System Empty := holding 0xE8BD0003 0x7FFC 0 0 (System.busCycle^[3] pushing).bus

/-- The two registers and R13 come back. -/
theorem push_pop_stmdb :
    (System.busCycle^[4] popping).core.gpr (phys (BitVec.ofNat 4 0) .svc) = 7 ∧
    (System.busCycle^[4] popping).core.gpr (phys (BitVec.ofNat 4 1) .svc) = 9 ∧
    (System.busCycle^[4] popping).core.blockBase 0xE92D0003 = 0x8004 := by
  have hpp : PushPop 0xE92D0003 0xE8BD0003 := by
    refine ⟨⟨?_, ?_, ?_, ?_, ?_, ?_, ?_⟩, ?_, ?_, ?_, ?_⟩ <;> decide
  have hlen : (blockList 0xE92D0003).length = 2 := by decide
  have hbank : pushing.core.bank = .svc := by decide
  obtain ⟨-, -, hload⟩ := push_pop (s := pushing) (holding_executes (by decide))
    (by decide +kernel) (.inl hpp)
  simp only [hlen, hbank, Nat.reduceAdd] at hload
  have hr : pushing.Resumes (System.busCycle^[3] pushing) 0xE92D0003 0xE8BD0003 popping :=
    ⟨holding_executes (by decide), rfl, by decide +kernel, fun _ _ => rfl⟩
  obtain ⟨-, -, hregs, -⟩ := hload popping hr
  obtain ⟨hlist, hbase⟩ := hregs hpp
  refine ⟨(hlist 0 (by decide)).trans ?_, (hlist 1 (by decide)).trans ?_, hbase.trans ?_⟩ <;> rfl

end System

end Wren7
