import Wren7.Model.Instr

/-!
# Single transfers and swaps

The bus cycles of LDR, STR and SWP and what they leave, for every answer of the bus.
-/

namespace Wren7

open Bits

namespace Arm7DI

variable {as : ℕ → Answer} {i : ℕ} {s u q : Arm7DI} {row : List Signals} {A : Arch}

lemma sampled_abort (hn : u.nextType = .N) (a : Answer) (next : CycleType) :
    (u.sampled a next).lastAbort = a.abort := by
  simp [hn, CycleType.isMem]

/-! ### LDR and STR -/

section Sdt

lemma sequence_sdt (hq : u.seq = .sdt) : u.sequence = u.cSdt := by rw [sequence, hq]

lemma sdtBase_arch (op : Word) :
    (u.sdtBase op).arch = u.arch.wrIf u.x.wb (field op 16 4) u.x.calcAddr := by
  unfold sdtBase Arch.wrIf
  split_ifs <;> rfl

lemma sdtBase_field {β : Type*} (f : Arm7DI → β) (hf : ∀ s r b v, f (wrBank s r b v) = f s)
    (op : Word) : f (u.sdtBase op) = f u := by
  unfold sdtBase
  split_ifs
  · exact hf _ _ _ _
  · rfl

lemma finishes_sdtStore (hq : u.seq = .sdt) (hk : u.k ≠ 0) (hn : u.nextType = .N)
    (hL : bit u.x.op 20 = false) (hA : (((u.sampled (as i) .N).arch.slide u.de u.f1).abortIf
      (as i).abort).wrIf u.x.wb (field u.x.op 16 4) u.x.calcAddr = A) :
    Finishes as i u [⟨.N, u.x.addr, storeVal (bit u.x.op 22) (u.rd (field u.x.op 12 4) u.pc),
      { u.x.bf with write := true }⟩] A := by
  refine .cons (by simp [hq]) ((sequence_sdt hq).trans (cSdt_store hk hL)) ?_ ?_
  · simp [BusCycle.signals, hn]
  refine finishes_done ?_
  rw [sampled_abort hn, sdtBase_arch, Arch.wrIf_slide, abortIf_arch, ← hA,
    sdtBase_field de fun _ _ _ _ => rfl, sdtBase_field f1 fun _ _ _ _ => rfl]
  cases (as i).abort <;> rfl

/-- The type announced in the last cycle of a load. -/
lemma sequence_sdtEnd (hq : u.seq = .sdt) (hk : 2 ≤ u.k) (hL : bit u.x.op 20 = true) {r : Bool}
    (hr : sdtRefills u.x.op u.x.ab = r) :
    u.sequence = u.cyc u.pc u.idleFlags 0 (if r then .N else .S) fun _ v => v.sdtEnd u.x.op :=
  hr ▸ (sequence_sdt hq).trans (cSdt_end hk hL)

section Last

variable (hq : u.seq = .sdt) (hk : 2 ≤ u.k) (hn : u.nextType = .I) (hL : bit u.x.op 20 = true)

include hq hk hn hL

/-- The last cycle of a load that was aborted. -/
lemma finishes_sdtAborted (hab : u.x.ab = true)
    (hA : ((u.arch.announce .S).slide u.de u.f1).abortIf true = A) :
    Finishes as i u [⟨.I, u.pc, 0, u.idleFlags⟩] A := by
  have hr : sdtRefills u.x.op u.x.ab = false := by simp [sdtRefills, hab]
  exact .cons_eq (by simp [hq]) (sequence_sdtEnd hq hk hL hr) (by simp [BusCycle.signals, hn])
    (if_pos hab) (finishes_done (u := (u.sampled (as i) .S).setDabort true) hA)

/-- The last cycle of a load into a register. -/
lemma finishes_sdtLoaded (hab : u.x.ab = false) (h15 : field u.x.op 12 4 ≠ 15)
    (hA : ((u.arch.announce .S).slide u.de u.f1).wr (field u.x.op 12 4)
      (loadVal (bit u.x.op 22) u.x.data u.x.addr) = A) :
    Finishes as i u [⟨.I, u.pc, 0, u.idleFlags⟩] A := by
  have hr : sdtRefills u.x.op u.x.ab = false := by
    rw [sdtRefills, beq_false_of_ne h15, Bool.false_and]
  exact .cons_eq (by simp [hq]) (sequence_sdtEnd hq hk hL hr) (by simp [BusCycle.signals, hn])
    ((if_neg (Bool.eq_false_iff.mp hab)).trans (if_neg h15))
    (finishes_done (u := (u.sampled (as i) .S).wr (field u.x.op 12 4) _) hA)

/-- The last cycle of a load into R15. -/
lemma finishes_sdtBranch (hab : u.x.ab = false) (h15 : field u.x.op 12 4 = 15)
    {t : Word} (ht : loadVal (bit u.x.op 22) u.x.data u.x.addr &&& ~~~3 = t)
    (hA : u.arch.refill t (as (i + 1)) (as (i + 2)) = A) :
    Finishes as i u (⟨.I, u.pc, 0, u.idleFlags⟩ :: refillRow t u.fetchFlags) A := by
  subst ht
  have hr : sdtRefills u.x.op u.x.ab = true := by
    rw [sdtRefills, beq_iff_eq.mpr h15, hab]
    rfl
  exact .cons_eq (by simp [hq]) (sequence_sdtEnd hq hk hL hr) (by simp [BusCycle.signals, hn])
    ((if_neg (Bool.eq_false_iff.mp hab)).trans (if_pos h15))
    (finishes_refill (u := u.sampled (as i) .N) rfl hA)

end Last

section LastBase

variable (hq : u.seq = .sdt) (hn : u.nextType = .I) (hL : bit u.x.op 20 = true)

include hq hn hL

lemma finishes_sdtAborted_base (hab : u.x.ab = true) :
    Finishes as i ((u.sdtBase u.x.op).setK 2) [⟨.I, u.pc, 0, u.idleFlags⟩]
      ((((u.arch.announce .S).slide u.de u.f1).wrIf u.x.wb (field u.x.op 16 4)
        u.x.calcAddr).abortIf true) := by
  unfold sdtBase Arch.wrIf
  split_ifs
  · exact finishes_sdtAborted (u := (u.wr _ _).setK 2) hq (Nat.le_refl 2) hn hL hab rfl
  · exact finishes_sdtAborted (u := u.setK 2) hq (Nat.le_refl 2) hn hL hab rfl

lemma finishes_sdtLoaded_base (hab : u.x.ab = false) (h15 : field u.x.op 12 4 ≠ 15) :
    Finishes as i ((u.sdtBase u.x.op).setK 2) [⟨.I, u.pc, 0, u.idleFlags⟩]
      ((((u.arch.announce .S).slide u.de u.f1).wrIf u.x.wb (field u.x.op 16 4)
        u.x.calcAddr).wr (field u.x.op 12 4) (loadVal (bit u.x.op 22) u.x.data u.x.addr)) := by
  unfold sdtBase Arch.wrIf
  split_ifs
  · exact finishes_sdtLoaded (u := (u.wr _ _).setK 2) hq (Nat.le_refl 2) hn hL hab h15 rfl
  · exact finishes_sdtLoaded (u := u.setK 2) hq (Nat.le_refl 2) hn hL hab h15 rfl

lemma finishes_sdtBranch_base (hab : u.x.ab = false) (h15 : field u.x.op 12 4 = 15) {t : Word}
    (ht : loadVal (bit u.x.op 22) u.x.data u.x.addr &&& ~~~3 = t) :
    Finishes as i ((u.sdtBase u.x.op).setK 2)
      (⟨.I, u.pc, 0, u.idleFlags⟩ :: refillRow t u.fetchFlags)
      ((u.arch.refill t (as (i + 1)) (as (i + 2))).wrIf u.x.wb (field u.x.op 16 4)
        u.x.calcAddr) := by
  unfold sdtBase Arch.wrIf
  split_ifs
  · exact finishes_sdtBranch (u := (u.wr _ _).setK 2) hq (Nat.le_refl 2) hn hL hab h15 ht rfl
  · exact finishes_sdtBranch (u := u.setK 2) hq (Nat.le_refl 2) hn hL hab h15 ht rfl

end LastBase

/-- The read cycle of a load. -/
lemma finishes_sdtRead (hq : u.seq = .sdt) (hk : u.k = 1) (hn : u.nextType = .N)
    (hL : bit u.x.op 20 = true) (hf : u.x.bf.write = false)
    (h : Finishes as (i + 1) (setK (sdtBase ((u.sampled (as i) .I).setX
      { u.x with data := (as i).rdata, ab := (as i).abort }) u.x.op) 2) row A) :
    Finishes as i u (⟨.N, u.x.addr, 0, u.x.bf⟩ :: row) A := by
  refine .cons_eq (by simp [hq]) ((sequence_sdt hq).trans (cSdt_load hk hL)) ?_ ?_ h
  · simp [BusCycle.signals, hn, hf]
  · simp only [cyc_next, hf, sampled_abort hn]
    rfl

/-- The state that the first cycle of a single transfer works on. -/
def sdtLatched (q : Arm7DI) : Arm7DI :=
  q.setX { q.x with
    calcAddr := q.sdtCalc q.x.op
    addr := q.sdtAddr q.x.op
    wb := !bit q.x.op 24 || bit q.x.op 21
    bf := q.sdtFlags q.x.op }

/-- The base register is written back. -/
def sdtWb (op : Word) : Bool := !bit op 24 || bit op 21

variable (hq : q.seq = .sdt) (hk : q.k = 0)

include hq hk

lemma finishes_sdt (h : Finishes as (i + 1) ((q.sdtLatched.fetched (as i) .N).setK 1) row A) :
    Finishes as i q (q.fetchCycle :: row) A :=
  .cycle1 (by simp [hq]) ((sequence_sdt hq).trans (cSdt_start hk)) rfl h

/-- STR. -/
lemma finishes_str (hL : bit q.x.op 20 = false) :
    Finishes as i q [q.fetchCycle, ⟨.N, q.sdtAddr q.x.op,
      storeVal (bit q.x.op 22) (q.rd (field q.x.op 12 4) (q.pc + 4)),
      { q.sdtFlags q.x.op with write := true }⟩]
      (((q.stepped (as i) .N).abortIf (as (i + 1)).abort).wrIf (sdtWb q.x.op)
        (field q.x.op 16 4) (q.sdtCalc q.x.op)) :=
  finishes_sdt hq hk (finishes_sdtStore hq Nat.one_ne_zero rfl hL rfl)

section Load

variable (hL : bit q.x.op 20 = true)

include hL

/-- LDR that is aborted. -/
lemma finishes_ldrAborted (hab : (as (i + 1)).abort = true) :
    Finishes as i q [q.fetchCycle, ⟨.N, q.sdtAddr q.x.op, 0, q.sdtFlags q.x.op⟩, q.idleCycle]
      (((q.stepped (as i) .S).wrIf (sdtWb q.x.op) (field q.x.op 16 4)
        (q.sdtCalc q.x.op)).abortIf true) :=
  finishes_sdt hq hk (finishes_sdtRead hq rfl rfl hL rfl (finishes_sdtAborted_base hq rfl hL hab))

variable (hab : (as (i + 1)).abort = false)

include hab

/-- LDR. -/
lemma finishes_ldr (h15 : field q.x.op 12 4 ≠ 15) :
    Finishes as i q [q.fetchCycle, ⟨.N, q.sdtAddr q.x.op, 0, q.sdtFlags q.x.op⟩, q.idleCycle]
      (((q.stepped (as i) .S).wrIf (sdtWb q.x.op) (field q.x.op 16 4) (q.sdtCalc q.x.op)).wr
        (field q.x.op 12 4) (loadVal (bit q.x.op 22) (as (i + 1)).rdata (q.sdtAddr q.x.op))) :=
  finishes_sdt hq hk
    (finishes_sdtRead hq rfl rfl hL rfl (finishes_sdtLoaded_base hq rfl hL hab h15))

/-- LDR of R15. -/
lemma finishes_ldrPc (h15 : field q.x.op 12 4 = 15) {t : Word}
    (ht : loadVal (bit q.x.op 22) (as (i + 1)).rdata (q.sdtAddr q.x.op) &&& ~~~3 = t) :
    Finishes as i q (q.fetchCycle :: ⟨.N, q.sdtAddr q.x.op, 0, q.sdtFlags q.x.op⟩ ::
        q.idleCycle :: refillRow t q.fetchFlags)
      ((q.arch.refill t (as (i + 3)) (as (i + 4))).wrIf (sdtWb q.x.op) (field q.x.op 16 4)
        (q.sdtCalc q.x.op)) := by
  refine finishes_sdt hq hk (finishes_sdtRead hq rfl rfl hL rfl ?_)
  have h : Finishes as (i + 2) _ _ _ := finishes_sdtBranch_base (t := t)
    (u := ((q.sdtLatched.fetched (as i) .N).setK 1 |>.sampled (as (i + 1)) .I).setX
      { q.sdtLatched.x with data := (as (i + 1)).rdata, ab := (as (i + 1)).abort })
    hq rfl hL hab h15 ht
  exact h

end Load

end Sdt

/-! ### SWP -/

section Swp

lemma sequence_swp (hq : u.seq = .swp) : u.sequence = u.cSwp := by rw [sequence, hq]

lemma finishes_swpRead (hq : u.seq = .swp) (hk : u.k = 1) (hn : u.nextType = .N)
    (h : Finishes as (i + 1) (((u.setK 2).sampled (as i) .N).setX
      { u.x with data := (as i).rdata, ab := (as i).abort }) row A) :
    Finishes as i u (⟨.N, u.x.addr, 0, u.swpFlags false⟩ :: row) A := by
  refine .cons_eq (by simp [hq]) ((sequence_swp hq).trans (cSwp_read hk)) ?_ ?_ h
  · simp [BusCycle.signals, hn]
  · simp only [cyc_next, sampled_abort (u := u.setK 2) hn]
    rfl

lemma finishes_swpWrite (hq : u.seq = .swp) (hk : u.k = 2) (hn : u.nextType = .N)
    (h : Finishes as (i + 1) (((u.setK 3).sampled (as i) .I).setX
      { u.x with ab := u.x.ab || (as i).abort }) row A) :
    Finishes as i u (⟨.N, u.x.addr, storeVal (bit u.x.op 22) (u.rd (field u.x.op 0 4) u.pc),
      u.swpFlags true⟩ :: row) A := by
  refine .cons_eq (by simp [hq]) ((sequence_swp hq).trans (cSwp_write hk)) ?_ ?_ h
  · simp [BusCycle.signals, hn, swpFlags]
  · simp only [cyc_next, sampled_abort (u := u.setK 3) hn]
    rfl

lemma finishes_swpAborted (hq : u.seq = .swp) (hk : u.k = 3) (hn : u.nextType = .I)
    (hab : u.x.ab = true) (hA : ((u.arch.announce .S).slide u.de u.f1).abortIf true = A) :
    Finishes as i u [⟨.I, u.pc, 0, u.idleFlags⟩] A := by
  have hd := (sequence_swp hq).trans (cSwp_end (Nat.le_of_eq hk.symm))
  refine .cons_eq (by simp [hq]) hd (by simp [BusCycle.signals, hn]) ?_
    (finishes_done (u := ((u.setK (u.k + 1)).sampled (as i) .S).setDabort true) hA)
  exact congrArg (fun v : Arm7DI => v.advance.done) (if_pos hab)

lemma finishes_swpDone (hq : u.seq = .swp) (hk : u.k = 3) (hn : u.nextType = .I)
    (hab : u.x.ab = false) (hA : ((u.arch.announce .S).slide u.de u.f1).wr (field u.x.op 12 4)
      (loadVal (bit u.x.op 22) u.x.data u.x.addr) = A) :
    Finishes as i u [⟨.I, u.pc, 0, u.idleFlags⟩] A := by
  have hd := (sequence_swp hq).trans (cSwp_end (Nat.le_of_eq hk.symm))
  refine .cons_eq (by simp [hq]) hd (by simp [BusCycle.signals, hn]) ?_
    (finishes_done (u := ((u.setK (u.k + 1)).sampled (as i) .S).wr (field u.x.op 12 4) _) hA)
  exact congrArg (fun v : Arm7DI => v.advance.done) (if_neg (Bool.eq_false_iff.mp hab))

variable (hq : q.seq = .swp) (hk : q.k = 0)

include hq hk

/-- The address of a swap. -/
def swpAddr (q : Arm7DI) (op : Word) : Word := q.rd (field op 16 4) q.pc

/-- The cycles of a swap. -/
def swpRow (q : Arm7DI) (op : Word) : List Signals :=
  [q.fetchCycle, ⟨.N, q.swpAddr op, 0, q.swpFlags false⟩,
    ⟨.N, q.swpAddr op, storeVal (bit op 22) (q.rd (field op 0 4) (q.pc + 4)), q.swpFlags true⟩,
    q.idleCycle]

/-- The latches of a swap before its last cycle. -/
def swpLatches (q : Arm7DI) (b c : Answer) : InFlight :=
  { q.x with addr := q.swpAddr q.x.op, data := b.rdata, ab := b.abort || c.abort }

/-- A state before the last cycle of a swap, but for the latches. -/
structure Swapped (q : Arm7DI) (a : Answer) (t : Arm7DI) : Prop where
  seq : t.seq = .swp
  k : t.k = 3
  nextType : t.nextType = .I
  idle : (⟨.I, t.pc, 0, t.idleFlags⟩ : Signals) = q.idleCycle
  arch : (t.arch.announce .S).slide t.de t.f1 = q.stepped a .S

/-- The first three cycles of a swap. -/
lemma finishes_swpCycles (h : ∀ t, Swapped q (as i) t →
      Finishes as (i + 3) (t.setX (q.swpLatches (as (i + 1)) (as (i + 2)))) [q.idleCycle] A) :
    Finishes as i q (q.swpRow q.x.op) A := by
  refine .cycle1 (by simp [hq]) ((sequence_swp hq).trans (cSwp_start hk)) rfl ?_
  -- what the state after the fetch has
  obtain ⟨u, hu⟩ : ∃ u, u = ((q.setK 1).setX
    { q.x with addr := q.rd (field q.x.op 16 4) q.pc }).fetched (as i) .N := ⟨_, rfl⟩
  change Finishes as (i + 1) (((q.setK 1).setX
    { q.x with addr := q.rd (field q.x.op 16 4) q.pc }).fetched (as i) .N) _ A
  rw [← hu]
  have hseq : u.seq = .swp := by rw [hu]; exact hq
  have hidle : (⟨.I, u.pc, 0, u.idleFlags⟩ : Signals) = q.idleCycle := by rw [hu]; rfl
  have harch : (u.arch.announce .S).slide u.de u.f1 = q.stepped (as i) .S := by rw [hu]; rfl
  have hlatches : ({ u.x with data := (as (i + 1)).rdata, ab := (as (i + 1)).abort ||
      (as (i + 2)).abort } : InFlight) = q.swpLatches (as (i + 1)) (as (i + 2)) := by
    rw [hu]; rfl
  have hread : (⟨.N, q.swpAddr q.x.op, 0, q.swpFlags false⟩ : Signals) =
      ⟨.N, u.x.addr, 0, u.swpFlags false⟩ := by rw [hu]; rfl
  have hwrite : (⟨.N, q.swpAddr q.x.op, storeVal (bit q.x.op 22) (q.rd (field q.x.op 0 4)
      (q.pc + 4)), q.swpFlags true⟩ : Signals) = ⟨.N, u.x.addr,
        storeVal (bit u.x.op 22) (u.rd (field u.x.op 0 4) u.pc), u.swpFlags true⟩ := by
    rw [hu]; rfl
  rw [hread, hwrite]
  refine finishes_swpRead hseq (by rw [hu]; rfl) (by rw [hu]; rfl) ?_
  refine finishes_swpWrite (u := setX _ _) hseq rfl rfl ?_
  have hlast := h ((((((u.setK 2).sampled (as (i + 1)) .N).setX
    { u.x with data := (as (i + 1)).rdata, ab := (as (i + 1)).abort }).setK 3).sampled
      (as (i + 2)) .I)) ⟨hseq, rfl, rfl, hidle, harch⟩
  rw [← hlatches] at hlast
  exact hlast

/-- SWP that is aborted. -/
lemma finishes_swpAbort (hab : ((as (i + 1)).abort || (as (i + 2)).abort) = true) :
    Finishes as i q (q.swpRow q.x.op) ((q.stepped (as i) .S).abortIf true) := by
  refine finishes_swpCycles hq hk fun t ht => ?_
  rw [← ht.idle, ← ht.arch]
  exact finishes_swpAborted (u := t.setX _) ht.seq ht.k ht.nextType hab rfl

/-- SWP. -/
lemma finishes_swp (hab : ((as (i + 1)).abort || (as (i + 2)).abort) = false) :
    Finishes as i q (q.swpRow q.x.op) ((q.stepped (as i) .S).wr (field q.x.op 12 4)
      (loadVal (bit q.x.op 22) (as (i + 1)).rdata (q.swpAddr q.x.op))) := by
  refine finishes_swpCycles hq hk fun t ht => ?_
  rw [← ht.idle, ← ht.arch]
  exact finishes_swpDone (u := t.setX _) ht.seq ht.k ht.nextType hab rfl

end Swp

end Arm7DI

end Wren7
