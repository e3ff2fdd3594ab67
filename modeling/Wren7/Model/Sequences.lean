import Wren7.Model.Abort
import Wren7.Model.Decode

/-!
# The bus cycles of every instruction

The table of cycle sequences: what each class of instructions drives from one boundary to the next,
for every instruction word and every bus that does not abort.
-/

namespace Wren7

open Bits Reactive

/-- What the table shows of a cycle: its type, its address and its flags but nTRANS. -/
def Signals.shape (c : Signals) : Signals := ⟨c.type, c.addr, 0, { c.flags with user := false }⟩

namespace Arch

variable (A : Arch)

lemma refill_pc (t : Word) (a b : Answer) : (A.refill t a b).pc - 8 = t :=
  BitVec.add_sub_cancel _ _

lemma wrIf_nextType (c : Bool) (r : Reg) (v : Word) : (A.wrIf c r v).nextType = A.nextType := by
  cases c <;> rfl

lemma wrIf_pc (c : Bool) (r : Reg) (v : Word) : (A.wrIf c r v).pc = A.pc := by
  cases c <;> rfl

lemma wrIf_cpsr (c : Bool) (r : Reg) (v : Word) : (A.wrIf c r v).cpsr = A.cpsr := by
  cases c <;> rfl

lemma wrIf_spsr (c : Bool) (r : Reg) (v : Word) : (A.wrIf c r v).spsr = A.spsr := by
  cases c <;> rfl

end Arch

namespace Arm7DI

/-- `datasheet_m`: the number of internal cycles of a multiplication by Rs. -/
def datasheetM (rs : ℕ) : ℕ :=
  if rs ≤ 1 then 1
  else if 2 ^ 29 ≤ rs then 16
  else ((List.range' 2 15).find? fun m => 2 ^ (2 * m - 3) ≤ rs ∧ rs < 2 ^ (2 * m - 1)).getD 0

/-- The Booth datapath stops after the data sheet's number of steps. -/
lemma datasheetM_eq (v : Word) : datasheetM v.toNat = mulSteps v := by
  have hm := datasheetM_mulSteps v
  unfold datasheetM
  rcases hm with ⟨h, hm'⟩ | ⟨h, hm'⟩ | ⟨h1, h29, hlo, hhi⟩
  · rw [if_pos h, hm']
  · rw [if_neg (by omega), if_pos h, hm']
  · rw [if_neg (by omega), if_neg (by omega)]
    obtain ⟨hpos, hle, -, -⟩ := mulSteps_spec v
    have h2 : mulSteps v ≠ 1 := by
      intro h
      rw [h] at hhi
      omega
    cases hf : (List.range' 2 15).find? fun m =>
        2 ^ (2 * m - 3) ≤ v.toNat ∧ v.toNat < 2 ^ (2 * m - 1) with
    | none =>
      have := List.find?_eq_none.mp hf (mulSteps v) (by simp; omega)
      simp [hlo, hhi] at this
    | some m =>
      have := List.find?_some hf
      rw [decide_eq_true_eq] at this
      exact DatasheetM.unique (.inr (.inr ⟨h1, h29, this⟩)) (datasheetM_mulSteps v)

/-! ### The table -/

section Table

variable (s : Arm7DI) (op target : Word)

/-- The address of the instruction in the execute slot. -/
def executing : Word := s.pc - 8

/-- The two fetches from a new address. -/
def refills : List Signals :=
  [⟨.N, target, 0, { opc := true }⟩, ⟨.S, target + 4, 0, { opc := true }⟩]

/-- An internal cycle at `A + 12`. -/
def internal : Signals := ⟨.I, s.executing + 12, 0, {}⟩

/-- What follows the first fetch of an instruction whose condition holds. -/
def sequenceRest : List Signals :=
  match seqOf op with
  | .dp =>
    (if regShift op then [s.internal] else []) ++ if writesPc op then refills target else []
  | .psr => if bit op 21 = false ∧ field op 12 4 = 15 then refills target else []
  | .mul => List.replicate (datasheetM (s.rd (field op 8 4) s.pc).toNat) s.internal
  | .sdt =>
    if bit op 20 then
      ⟨.N, s.sdtAddr op, 0, { byte := bit op 22 }⟩ :: s.internal ::
        if field op 12 4 = 15 then refills target else []
    else [⟨.N, s.sdtAddr op, 0, { byte := bit op 22, write := true }⟩]
  | .bdt =>
    ((List.range (blockList op).length).map fun j =>
      ⟨if j = 0 then .N else .S, s.bdtAddr op + 4 * BitVec.ofNat 32 j, 0,
        { write := !bit op 20 }⟩) ++
      if bit op 20 then s.internal :: if 15 ∈ blockList op then refills target else [] else []
  | .swp =>
    [⟨.N, s.swpAddr op, 0, { byte := bit op 22, lock := true }⟩,
      ⟨.N, s.swpAddr op, 0, { byte := bit op 22, lock := true, write := true }⟩, s.internal]
  | .branch => refills (s.branchTarget op)
  | .undefTrap => ⟨.I, s.executing + 8, 0, { opc := true }⟩ :: refills 0x04
  | _ => refills 0x08

/-- The row of the table for an instruction word; a form that writes R15 goes on at `target`. -/
def sequenceRow : List Signals :=
  ⟨s.nextType, s.executing + 8, 0, { opc := true }⟩ ::
    if s.condPass op then s.sequenceRest op target else []

/-- The type that is announced for the next instruction's fetch. -/
def announces : CycleType :=
  if s.condPass op ∧ (seqOf op = .sdt ∨ seqOf op = .bdt) ∧ bit op 20 = false then .N else .S

end Table

/-! ### Every class is in the table -/

/-- In the run the next cycles up to a boundary are the row of the table. -/
def Tabulated (s : Arm7DI) (inp : ℕ → Input) (op : Word) : Prop :=
  ∃ row A, Performs s inp row A ∧ row.map Signals.shape = s.sequenceRow op (A.pc - 8) ∧
    A.nextType = s.announces op ∧ 0 < row.length

section Shapes

variable (s : Arm7DI) (t : Word)

lemma executing_add_8 : s.executing + 8 = s.pc := BitVec.sub_add_cancel _ _

lemma executing_add_12 : s.executing + 12 = s.pc + 4 := by
  rw [executing, BitVec.sub_eq_add_neg, BitVec.add_assoc]
  rfl

lemma shape_fetchCycle : s.fetchCycle.shape = ⟨s.nextType, s.executing + 8, 0, { opc := true }⟩ := by
  rw [executing_add_8]
  rfl

lemma shape_idleCycle : s.idleCycle.shape = s.internal := by
  rw [internal, executing_add_12]
  rfl

lemma shape_refillRow (u : Arm7DI) : (refillRow t u.fetchFlags).map Signals.shape = refills t := rfl

end Shapes

section Begun

variable {s : Arm7DI} {inp : ℕ → Input} {r : Seq} {op : Word}

lemma begun_executing : (s.begun inp r).executing = s.executing := by
  rw [executing, begun_pc, executing]

lemma begun_fetchShape :
    (s.begun inp r).fetchCycle.shape = ⟨s.nextType, s.executing + 8, 0, { opc := true }⟩ := by
  rw [shape_fetchCycle, begun_executing]
  exact congrArg (fun t => (⟨t, s.executing + 8, 0, { opc := true }⟩ : Signals)) (poke_nextType s _)

lemma begun_idleShape : (s.begun inp r).idleCycle.shape = s.internal := by
  rw [shape_idleCycle, internal, begun_executing, internal]

end Begun

section Classes

variable {s : Arm7DI} {inp : ℕ → Input} {op : Word} {row : List Signals} {A : Arch}

/-- An instruction whose condition holds is in the table if the rest of its cycles are. -/
lemma Performs.tabulated {r : Seq} (hc : s.condPass op = true)
    (hp : Performs s inp ((s.begun inp r).fetchCycle :: row) A)
    (hrow : row.map Signals.shape = s.sequenceRest op (A.pc - 8))
    (hn : A.nextType = if (seqOf op = .sdt ∨ seqOf op = .bdt) ∧ bit op 20 = false then .N else .S) :
    s.Tabulated inp op := by
  refine ⟨_, _, hp, ?_, ?_, Nat.succ_pos _⟩
  · rw [List.map_cons, begun_fetchShape, hrow, sequenceRow, if_pos hc]
  · rw [hn, announces, hc]
    simp

/-- An instruction that is no load or store announces an S cycle. -/
lemma announced_S {r : Seq} (hseq : seqOf op = r) (h : A.nextType = .S)
    (hr : r ≠ .sdt ∧ r ≠ .bdt := by decide) : A.nextType =
      if (seqOf op = .sdt ∨ seqOf op = .bdt) ∧ bit op 20 = false then .N else .S := by
  rw [h, hseq, if_neg fun h' => h'.1.elim hr.1 hr.2]

/-- A load announces an S cycle, a store an N cycle. -/
lemma announced_transfer (hseq : seqOf op = .sdt ∨ seqOf op = .bdt)
    (h : A.nextType = if bit op 20 then .S else .N) : A.nextType =
      if (seqOf op = .sdt ∨ seqOf op = .bdt) ∧ bit op 20 = false then .N else .S := by
  rw [h]
  cases bit op 20 <;> simp [hseq]

variable (hs : (s.poke (inp 0).lines).Quiet) (hop : s.ex.word = op)

include hs hop

lemma tabulated_skip (hc : s.condPass op = false) : s.Tabulated inp op := by
  subst hop
  have hstart : (s.poke (inp 0).lines).start = s.begun inp .skip := hs.start_skip (by simpa using hc)
  have hf : Finishes (fun n => (inp n).ans) 0 (s.begun inp .skip) _ _ := finishes_skip rfl
  rw [← hstart] at hf
  have hp := hf.performs
  rw [hstart] at hp
  refine ⟨_, _, hp, ?_, ?_, Nat.one_pos⟩
  · rw [sequenceRow, hc, List.map_singleton, begun_fetchShape]
    rfl
  · rw [announces, hc]
    rfl

variable (hc : s.condPass op = true)

include hc

lemma tabulated_dp (hseq : seqOf op = .dp) : s.Tabulated inp op := by
  set q := s.begun inp .dp
  have hqop : q.x.op = op := begun_op hop
  have hperf {c : Signals} {row : List Signals} {A : Arch}
      (h : Finishes (fun n => (inp n).ans) 0 q (c :: row) A) : Performs s inp (c :: row) A :=
    hs.performs hop hc hseq (by decide) h
  have hidle : q.idleCycle.shape = s.internal := begun_idleShape
  have hrest (t : Word) : s.sequenceRest op t = (if regShift op then [s.internal] else []) ++
      if writesPc op then refills t else [] := by
    simp only [sequenceRest, hseq]
  cases hr : regShift op <;> cases hw : writesPc op <;> rw [← hqop] at hr hw
  · refine (hperf (finishes_dp rfl rfl hr hw rfl rfl)).tabulated hc ?_ (announced_S hseq (Arch.wrIf_nextType ..))
    rw [hrest, ← hqop, hr, hw]
    rfl
  · refine (hperf (finishes_dpPc rfl rfl hr hw rfl rfl)).tabulated hc ?_ (announced_S hseq rfl)
    rw [hrest, ← hqop, hr, hw, shape_refillRow, Arch.refill_pc]
    rfl
  · refine (hperf (finishes_dpShift rfl rfl hr rfl rfl hw)).tabulated hc ?_ (announced_S hseq (Arch.wrIf_nextType ..))
    rw [hrest, ← hqop, hr, hw, List.map_singleton, hidle]
    rfl
  · refine (hperf (finishes_dpShiftPc rfl rfl hr rfl rfl hw)).tabulated hc ?_ (announced_S hseq rfl)
    rw [hrest, ← hqop, hr, hw, List.map_cons, hidle, shape_refillRow, Arch.refill_pc]
    rfl

lemma tabulated_psr (hseq : seqOf op = .psr) : s.Tabulated inp op := by
  set q := s.begun inp .psr
  have hqop : q.x.op = op := begun_op hop
  have hperf {c : Signals} {row : List Signals} {A : Arch}
      (h : Finishes (fun n => (inp n).ans) 0 q (c :: row) A) : Performs s inp (c :: row) A :=
    hs.performs hop hc hseq (by decide) h
  have hrest (t : Word) : s.sequenceRest op t =
      if bit op 21 = false ∧ field op 12 4 = 15 then refills t else [] := by
    simp only [sequenceRest, hseq]
  cases hb : bit op 21 with
  | false =>
    by_cases h15 : field op 12 4 = 15
    · refine (hperf (finishes_mrsPc rfl (hqop ▸ hb) (hqop ▸ h15))).tabulated hc ?_ (announced_S hseq rfl)
      rw [hrest, if_pos ⟨hb, h15⟩, shape_refillRow, Arch.refill_pc]
    · refine (hperf (finishes_mrs rfl (hqop ▸ hb) (hqop ▸ h15))).tabulated hc ?_ (announced_S hseq rfl)
      rw [hrest, if_neg fun h => h15 h.2]
      rfl
  | true =>
    refine (hperf (finishes_msr rfl (hqop ▸ hb))).tabulated hc ?_ (announced_S hseq rfl)
    rw [hrest, hb, if_neg (by simp)]
    rfl

lemma tabulated_mul (hseq : seqOf op = .mul) : s.Tabulated inp op := by
  refine (performs_mul hs hop hc hseq).tabulated hc ?_ (announced_S hseq rfl)
  have hsteps : (s.begun inp .mul).boothSteps = datasheetM (s.rd (field op 8 4) s.pc).toNat := by
    rw [datasheetM_eq, boothSteps, begun_op hop, begun_rd, begun_pc]
  have hidle : (s.begun inp .mul).idleCycle.shape = s.internal := begun_idleShape
  simp only [sequenceRest, hseq]
  rw [List.map_replicate, ← hsteps, ← hidle]
  rfl

lemma tabulated_branch (hseq : seqOf op = .branch) : s.Tabulated inp op := by
  set q := s.begun inp .branch
  have hqop : q.x.op = op := begun_op hop
  refine (hs.performs hop hc hseq (by decide) (finishes_branch (q := q) rfl)).tabulated hc ?_
    (announced_S hseq rfl)
  have htarget : q.branchTarget q.x.op = s.branchTarget op := by
    rw [hqop, branchTarget, branchTarget, begun_pc]
  simp only [sequenceRest, hseq]
  rw [shape_refillRow, htarget]

lemma tabulated_undef (hseq : seqOf op = .undefTrap) : s.Tabulated inp op := by
  set q := s.begun inp .undefTrap
  refine (hs.performs hop hc hseq (by decide) (finishes_undef (q := q) rfl rfl)).tabulated hc ?_
    (announced_S hseq rfl)
  simp only [sequenceRest, hseq]
  rw [List.map_cons, shape_refillRow, executing_add_8]
  have hpc : q.pc = s.pc := begun_pc
  rw [hpc]
  rfl

lemma tabulated_swi (hseq : seqOf op = .exc) : s.Tabulated inp op := by
  subst hop
  have hstart := hs.start_swi (by simpa using hc) (by simpa using hseq)
  refine Performs.tabulated (r := .exc) hc (performs_exc hstart) ?_ (announced_S hseq rfl)
  simp only [sequenceRest, hseq]
  rfl

section Data

variable (hans : ∀ k, (inp k).ans.abort = false)

include hans

lemma tabulated_swp (hseq : seqOf op = .swp) : s.Tabulated inp op := by
  set q := s.begun inp .swp
  have hqop : q.x.op = op := begun_op hop
  have hp := hs.performs hop hc hseq (by decide)
    (finishes_swp (q := q) rfl rfl (by rw [hans, hans]; rfl))
  refine hp.tabulated hc ?_ (announced_S hseq rfl)
  have haddr : q.swpAddr op = s.swpAddr op := by rw [swpAddr, swpAddr, begun_rd, begun_pc]
  have hidle : q.idleCycle.shape = s.internal := begun_idleShape
  simp only [sequenceRest, hseq]
  rw [hqop, haddr, List.map_cons, List.map_cons, List.map_singleton, hidle]
  simp [Signals.shape, swpFlags, hqop]

lemma tabulated_sdt (hseq : seqOf op = .sdt) : s.Tabulated inp op := by
  set q := s.begun inp .sdt
  have hqop : q.x.op = op := begun_op hop
  have hperf {c : Signals} {row : List Signals} {A : Arch}
      (h : Finishes (fun n => (inp n).ans) 0 q (c :: row) A) : Performs s inp (c :: row) A :=
    hs.performs hop hc hseq (by decide) h
  have hidle : q.idleCycle.shape = s.internal := begun_idleShape
  have haddr : q.sdtAddr q.x.op = s.sdtAddr op := by rw [hqop, begun_sdtAddr]
  have hread : (⟨.N, q.sdtAddr q.x.op, 0, q.sdtFlags q.x.op⟩ : Signals).shape =
      ⟨.N, s.sdtAddr op, 0, { byte := bit op 22 }⟩ := by
    rw [haddr, hqop]
    rfl
  cases hL : bit op 20 with
  | false =>
    have hann := announced_transfer (A := ((q.stepped (inp 0).ans .N).abortIf (inp 1).ans.abort).wrIf
      (sdtWb q.x.op) (field q.x.op 16 4) (q.sdtCalc q.x.op)) (.inl hseq)
      (by rw [hL, Arch.wrIf_nextType]; rfl)
    refine (hperf (finishes_str rfl rfl (hqop ▸ hL))).tabulated hc ?_ hann
    simp only [sequenceRest, hseq, hL]
    rw [List.map_singleton, haddr, hqop]
    rfl
  | true =>
    by_cases h15 : field op 12 4 = 15
    · refine (hperf (finishes_ldrPc rfl rfl (hqop ▸ hL) (hans 1) (hqop ▸ h15) rfl)).tabulated hc ?_
        (announced_transfer (.inl hseq) (by rw [hL, Arch.wrIf_nextType]; rfl))
      simp only [sequenceRest, hseq, hL, h15, if_true]
      rw [List.map_cons, List.map_cons, hread, hidle, shape_refillRow, Arch.wrIf_pc,
        Arch.refill_pc]
    · refine (hperf (finishes_ldr rfl rfl (hqop ▸ hL) (hans 1) (hqop ▸ h15))).tabulated hc ?_
        (announced_transfer (.inl hseq) ((Arch.wrIf_nextType ..).trans (by rw [hL]; rfl)))
      simp only [sequenceRest, hseq, hL, h15, if_true, if_false]
      rw [List.map_cons, List.map_singleton, hread, hidle]

lemma tabulated_bdt (hseq : seqOf op = .bdt) : s.Tabulated inp op := by
  set q := s.begun inp .bdt
  have hqop : q.x.op = op := begun_op hop
  have hperf {c : Signals} {row : List Signals} {A : Arch}
      (h : Finishes (fun n => (inp n).ans) 0 q (c :: row) A) : Performs s inp (c :: row) A :=
    hs.performs hop hc hseq (by decide) h
  have hidle : q.idleCycle.shape = s.internal := begun_idleShape
  have haddr : q.bdtAddr op = s.bdtAddr op := by
    rw [bdtAddr, bdtAddr, bdtBaseVal, bdtBaseVal, begun_rd, begun_pc]
  have hab : aborted (answers (fun n => (inp n).ans) 0) (regList op).length = false :=
    aborted_eq_false_iff.mpr fun _ _ => hans _
  have hrow (c : ℕ → Signals) (w : Bool) (hcy : ∀ j, (c j).shape =
      ⟨if j = 0 then .N else .S, q.bdtAddr op + 4 * BitVec.ofNat 32 j, 0, { write := w }⟩) :
      ((List.range (regList op).length).map c).map Signals.shape =
        (List.range (blockList op).length).map fun j =>
          ⟨if j = 0 then .N else .S, s.bdtAddr op + 4 * BitVec.ofNat 32 j, 0, { write := w }⟩ := by
    rw [List.map_map, regList_eq, ← haddr]
    exact List.map_congr_left fun j _ => hcy j
  cases hL : bit op 20 with
  | false =>
    have hp := hperf (finishes_stm rfl rfl (hqop ▸ hL))
    rw [hqop] at hp
    refine hp.tabulated hc ?_ (announced_transfer (.inr hseq) (by rw [hL]; rfl))
    simp only [sequenceRest, hseq, hL]
    rw [hrow _ true fun _ => rfl]
    exact (List.append_nil _).symm
  | true =>
    have hload := hrow (q.loadCycle op) false fun _ => rfl
    by_cases h15 : 15 ∈ blockList op
    · have hmem : bit (effList op) 15 = true := (mem_regList_15 op).mp (regList_eq op ▸ h15)
      have hp := hperf (finishes_ldmBranch rfl rfl (hqop ▸ hL) (hqop ▸ hab) (hqop ▸ hmem) rfl)
      rw [hqop] at hp
      refine hp.tabulated hc ?_ (announced_transfer (.inr hseq) (by rw [hL]; rfl))
      simp only [sequenceRest, hseq, hL, h15, if_true, List.append_eq, List.map_append,
        List.map_cons, hload, hidle, shape_refillRow, Arch.refill_pc]
      rfl
    · have hmem : bit (effList op) 15 = false :=
        Bool.eq_false_iff.mpr fun h => h15 (regList_eq op ▸ (mem_regList_15 op).mpr h)
      have hp := hperf (finishes_ldmDone rfl rfl (hqop ▸ hL) (hqop ▸ hab) (hqop ▸ hmem))
      rw [hqop] at hp
      refine hp.tabulated hc ?_ (announced_transfer (.inr hseq) (by rw [hL]; rfl))
      simp only [sequenceRest, hseq, hL, h15, if_true, if_false, List.append_eq, List.map_append,
        List.map_cons, List.map_nil, hload, hidle]
      rfl

/-- Every instruction is in the table. -/
lemma tabulated : s.Tabulated inp op := by
  rcases seqOf_cases op with h | h | h | h | h | h | h | h | h
  · exact tabulated_dp hs hop hc h
  · exact tabulated_psr hs hop hc h
  · exact tabulated_mul hs hop hc h
  · exact tabulated_swp hs hop hc hans h
  · exact tabulated_sdt hs hop hc hans h
  · exact tabulated_bdt hs hop hc hans h
  · exact tabulated_branch hs hop hc h
  · exact tabulated_undef hs hop hc h
  · exact tabulated_swi hs hop hc h

end Data

end Classes

/-- On a bus that does not abort, the cycles from a boundary to the next are the row of the table
for the word in the execute slot, and the fetch after them is of the type that the table announces. -/
theorem cycle_sequence {s : Arm7DI} {inp : ℕ → Input} (hs : (s.poke (inp 0).lines).Quiet)
    (hans : ∀ k, (inp k).ans.abort = false) : ∃ n,
      let op := s.ex.word
      let t := core.after s inp n
      NextBoundary s inp n ∧
      (List.range n).map (fun j => (core.outs s inp j).signals.shape) =
        s.sequenceRow op t.executing ∧
      t.nextType = s.announces op := by
  have htab : s.Tabulated inp s.ex.word := by
    cases hc : s.condPass s.ex.word with
    | false => exact tabulated_skip hs rfl hc
    | true => exact tabulated hs rfl hc hans
  obtain ⟨row, A, hp, hrow, hn, hpos⟩ := htab
  refine ⟨row.length, ⟨hpos, hp.busy, hp.boundary⟩, ?_, (congrArg Arch.nextType hp.arch).trans hn⟩
  rw [executing, show (core.after s inp row.length).pc = A.pc from congrArg Arch.pc hp.arch, ← hrow]
  refine List.ext_getElem (by simp) fun j h _ => ?_
  rw [List.getElem_map, List.getElem_map, List.getElem_range, hp.signals j (by simpa using h)]

/-- `LDMIA r0, {r1, pc}` on a bus that answers 0x40. -/
theorem cycle_sequence_ldm : ∃ n,
    (List.range n).map (fun j => (core.outs (resting 0xE8908002) (calm 0x40) j).signals.shape) =
      (resting 0xE8908002).sequenceRow 0xE8908002
        (core.after (resting 0xE8908002) (calm 0x40) n).executing := by
  have hs : ((resting 0xE8908002).poke (calm 0x40 0).lines).Quiet := resting_quiet _
  obtain ⟨n, -, hrow, -⟩ := cycle_sequence hs fun _ => rfl
  exact ⟨n, hrow⟩

end Arm7DI

end Wren7
