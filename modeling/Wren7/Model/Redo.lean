import Wren7.Model.Abort
import Wren7.Model.Exceptions

/-!
# Transfers that are done again

What an aborted transfer without write-back changes, and that it does from there what it does from the
first registers, but for R14 and the SPSR of abort mode.
-/

namespace Wren7

open Bits Reactive

namespace Arch

/-- The registers after a data abort came and went, with what it left in R14 and the SPSR. -/
def residue (A : Arch) (w v : Word) : Arch :=
  { A with
    gpr := Function.update A.gpr (phys 14 .abt) w
    spsr := Function.update A.spsr .abt v }

end Arch

namespace Arm7DI

variable {q : Arm7DI} {op : Word} {g : Fin 31 → Word} {v : Word} {as : ℕ → Answer} {r : Reg} {x : Word}
  {b : Bank} {p : Fin 31}

/-! ### What a transfer may lose -/

/-- The base is written. -/
def movesBase (op : Word) : Bool :=
  match seqOf op with
  | .sdt => sdtWb op
  | .bdt => bit op 21
  | _ => false

/-- A register that the transfer loads in its course, so that an aborted attempt may have changed it. -/
def Loads (q : Arm7DI) (p : Fin 31) : Prop :=
  q.seq = .bdt ∧ bit q.x.op 20 = true ∧
    (field q.x.op 16 4 ≠ 15 → p ≠ phys (field q.x.op 16 4) q.bank) ∧
    ∃ i, ∃ hi : i < (regList q.x.op).length, (regList q.x.op)[i] ≠ 15 ∧
      p = phys (BitVec.ofNat 4 (regList q.x.op)[i]) (q.listBank q.x.op)

/-- Registers with which the transfer can begin again. -/
def Redo (q : Arm7DI) (g : Fin 31 → Word) : Prop := ∀ p, p ≠ phys 14 .abt → ¬q.Loads p → g p = q.gpr p

/-- The state in which it begins again. -/
@[simps -fullyApplied]
def again (q : Arm7DI) (g : Fin 31 → Word) (v : Word) : Arm7DI :=
  { q with gpr := g, spsr := Function.update q.spsr .abt v, nextType := .S }

/-- The registers of other modes are others. -/
lemma phys_ne_abt (hr : r ≠ 15) (hb : b ≠ .abt) : phys r b ≠ phys 14 .abt := by
  revert r
  cases b <;> first | exact absurd rfl hb | decide

section Again

variable (hb : q.bank ≠ .abt) (hg : q.Redo g) (hn : q.nextType.isMem = true)

lemma again_fetchSlot (hn : q.nextType.isMem = true) (a : Answer) :
    (q.again g v).fetchSlot a = q.fetchSlot a := by
  rw [fetchSlot, fetchSlot, hn]
  rfl

lemma again_stepped (hn : q.nextType.isMem = true) (a : Answer) (n : CycleType) (G : Fin 31 → Word)
    (w : Word) : ((q.again g v).stepped a n).setGpr (Function.update G (phys 14 .abt) w) =
      ((q.stepped a n).setGpr G).residue w v := by
  rw [stepped, again_fetchSlot hn]
  rfl

include hb hg

lemma again_rd (hL : r ≠ 15 → ¬q.Loads (phys r q.bank)) : (q.again g v).rd r x = q.rd r x := by
  rw [rd, rd]
  split_ifs with h15
  · rfl
  · exact hg _ (phys_ne_abt h15 hb) (hL h15)

omit hb in
lemma again_update (hL : ∀ p, ¬q.Loads p) :
    g = Function.update q.gpr (phys 14 .abt) (g (phys 14 .abt)) := by
  funext p
  by_cases hp : p = phys 14 .abt
  · subst hp
    rw [Function.update_self]
  · rw [Function.update_of_ne hp, hg p hp (hL p)]

/-! ### LDR, STR and SWP -/

section Single

variable (hL : ∀ p, ¬q.Loads p)

include hL

lemma again_sdtAddr : (q.again g v).sdtAddr op = q.sdtAddr op := by
  simp only [sdtAddr, sdtCalc, sdtOffset, again_rd hb hg fun _ => hL _, again_pc, again_cpsr]

include hn

/-- A register is written in the first cycle's state. -/
lemma again_wr (a : Answer) (n : CycleType) (r : Reg) (x : Word) :
    ((q.again g v).stepped a n).wr r x =
      ((q.stepped a n).wr r x).residue (g (phys 14 .abt)) v := by
  have hupd := again_update hg hL
  have hwr : ∀ A : Arch, A.wr r x = A.setGpr (if r = 15 then A.gpr
    else Function.update A.gpr (phys r A.bank) x) := fun _ => rfl
  rw [hwr, hwr]
  by_cases h15 : r = 15
  · have h := @again_stepped q g v hn a n q.gpr (g (phys 14 .abt))
    rw [← hupd] at h
    rwa [if_pos h15, if_pos h15]
  · have h := @again_stepped q g v hn a n (Function.update q.gpr (phys r q.bank) x) (g (phys 14 .abt))
    rw [Function.update_comm (phys_ne_abt h15 hb), ← hupd] at h
    rwa [if_neg h15, if_neg h15]

lemma again_str (hwb : sdtWb q.x.op = false) :
    ((q.again g v).strOutcome as).1.tail = (q.strOutcome as).1.tail ∧
      ((q.again g v).strOutcome as).2 = ((q.strOutcome as).2).residue (g (phys 14 .abt)) v := by
  refine ⟨?_, ?_⟩
  · simp only [strOutcome, again_x, again_sdtAddr hb hg hL, again_rd hb hg fun _ => hL _, again_pc,
      List.tail_cons]
    rfl
  · simp only [strOutcome, again_x, hwb]
    have h := @again_stepped q g v hn (as 0) .N q.gpr (g (phys 14 .abt))
    rw [← again_update hg hL] at h
    exact congrArg (fun A : Arch => A.abortIf (as 1).abort) h

lemma again_ldr (hwb : sdtWb q.x.op = false) (hab : (as 1).abort = false) :
    ((q.again g v).ldrOutcome as).1.tail = (q.ldrOutcome as).1.tail ∧
      ((q.again g v).ldrOutcome as).2 = ((q.ldrOutcome as).2).residue (g (phys 14 .abt)) v := by
  simp only [ldrOutcome, again_x, again_sdtAddr hb hg hL, hwb, hab, Bool.false_eq_true, if_false]
  split_ifs with h15
  · refine ⟨rfl, ?_⟩
    have h := congrArg (fun G => (q.arch.setGpr G).refill
      (loadVal (bit q.x.op 22) (as 1).rdata (q.sdtAddr q.x.op) &&& ~~~3) (as 3) (as 4))
      (again_update hg hL)
    exact congrArg (fun A : Arch => { A with spsr := Function.update q.spsr .abt v }) h
  · exact ⟨rfl, again_wr hb hg hn hL _ _ _ _⟩

lemma again_swp (hab : ((as 1).abort || (as 2).abort) = false) :
    ((q.again g v).swpOutcome as).1.tail = (q.swpOutcome as).1.tail ∧
      ((q.again g v).swpOutcome as).2 = ((q.swpOutcome as).2).residue (g (phys 14 .abt)) v := by
  have hrd : ∀ r x, (q.again g v).rd r x = q.rd r x := fun r x => again_rd hb hg fun _ => hL _
  simp only [swpOutcome, swpRow, swpAddr, again_x, again_pc, hrd, hab, Bool.false_eq_true, if_false,
    List.tail_cons]
  exact ⟨rfl, again_wr hb hg hn hL _ _ _ _⟩

end Single

/-! ### LDM and STM -/

section Block

omit hg in
lemma listBank_ne (op : Word) : q.listBank op ≠ .abt := by
  unfold listBank
  split_ifs
  · decide
  · exact hb

omit hb hg in
lemma wroteBack_keep (hW : bit op 21 = false) (G : Fin 31 → Word) : q.wroteBack op G = G := by
  rw [wroteBack, hW, if_neg Bool.false_ne_true]

omit hb hg in
lemma again_bdtAddr (hbase : (q.again g v).bdtBaseVal op = q.bdtBaseVal op) :
    (q.again g v).bdtAddr op = q.bdtAddr op := by
  rw [bdtAddr, bdtAddr, hbase]

/-- The base itself is never loaded in the course of the transfer. -/
lemma again_base : (q.again g v).bdtBaseVal q.x.op = q.bdtBaseVal q.x.op :=
  again_rd hb hg fun h15 h => h.2.2.1 h15 rfl

omit hb hg in
lemma ofNat_regList_ne {i : ℕ} (hi : i < (regList op).length) (h15 : (regList op)[i] ≠ 15) :
    BitVec.ofNat 4 (regList op)[i] ≠ 15 := by
  intro h
  have hlt := regList_lt hi
  have h := congrArg BitVec.toNat h
  simp only [BitVec.toNat_ofNat, Nat.mod_eq_of_lt (show (regList op)[i] < 2 ^ 4 from hlt)] at h
  exact h15 h

variable (hW : bit q.x.op 21 = false)

include hW

lemma again_storeCycle (hL : bit q.x.op 20 = false) {j : ℕ} (hj : j < (regList q.x.op).length) :
    (q.again g v).storeCycle q.x.op j = q.storeCycle q.x.op j := by
  have hword : (q.again g v).stmWord q.x.op j = q.stmWord q.x.op j := by
    rw [stmWord, stmWord, stmGpr, stmGpr, wroteBack_keep hW, wroteBack_keep hW, ite_self, ite_self,
      getD_regList hj]
    split_ifs with h15
    · rfl
    · exact hg _ (phys_ne_abt (ofNat_regList_ne hj h15) (listBank_ne hb _)) fun h =>
        Bool.noConfusion (hL.symm.trans h.2.1)
  rw [storeCycle, storeCycle, hword, again_bdtAddr (again_base hb hg)]
  rfl

include hn

lemma again_stm (hL : bit q.x.op 20 = false) :
    ((q.again g v).stmOutcome as).1.tail = (q.stmOutcome as).1.tail ∧
      ((q.again g v).stmOutcome as).2 = ((q.stmOutcome as).2).residue (g (phys 14 .abt)) v := by
  refine ⟨List.map_congr_left fun j hj =>
    again_storeCycle hb hg hW hL (List.mem_range.mp hj), ?_⟩
  have hupd := again_update hg fun _ h => Bool.noConfusion (hL.symm.trans h.2.1)
  have h := @again_stepped q g v hn (as 0) .N q.gpr (g (phys 14 .abt))
  rw [← hupd] at h
  simp only [stmOutcome, again_x, again_gpr, wroteBack_keep hW]
  exact congrArg (fun A : Arch => A.abortIf (aborted (answers as 0) (regList q.x.op).length)) h

variable (hab : aborted (answers as 0) (regList q.x.op).length = false)

include hab

omit hn in
/-- All that an aborted attempt may have changed is loaded once more. -/
lemma again_ldmGpr : (q.again g v).ldmGpr q.x.op (answers as 0) (regList q.x.op).length =
    Function.update (q.ldmGpr q.x.op (answers as 0) (regList q.x.op).length) (phys 14 .abt)
      (g (phys 14 .abt)) := by
  funext p
  by_cases hp : ∃ i, ∃ hi : i < (regList q.x.op).length, (regList q.x.op)[i] ≠ 15 ∧
      p = phys (BitVec.ofNat 4 (regList q.x.op)[i]) (q.listBank q.x.op)
  · obtain ⟨i, hi, h15, rfl⟩ := hp
    have habi : aborted (answers as 0) (i + 1) = false := aborted_mono hab hi
    rw [Function.update_of_ne (phys_ne_abt (ofNat_regList_ne hi h15) (listBank_ne hb _)),
      ldmGpr_loaded hi h15 habi hi (Nat.le_refl _)]
    exact ldmGpr_loaded hi h15 habi hi (Nat.le_refl _)
  · have hpos := Nat.ne_of_gt (regList_pos q.x.op)
    have hnot : ∀ i (hi : i < (regList q.x.op).length), aborted (answers as 0) (i + 1) = false →
        (regList q.x.op)[i] ≠ 15 →
          p ≠ phys (BitVec.ofNat 4 (regList q.x.op)[i]) (q.listBank q.x.op) :=
      fun i hi _ h15 h => hp ⟨i, hi, h15, h⟩
    rw [@ldmGpr_other _ (q.again g v) _ _ p (Nat.le_refl _) hpos hnot, wroteBack_keep hW, again_gpr]
    by_cases hp14 : p = phys 14 .abt
    · subst hp14
      rw [Function.update_self]
    · rw [Function.update_of_ne hp14, ldmGpr_other (Nat.le_refl _) hpos hnot, wroteBack_keep hW]
      exact hg p hp14 fun h => hp h.2.2.2

lemma again_ldm : ((q.again g v).ldmOutcome as).1.tail = (q.ldmOutcome as).1.tail ∧
      ((q.again g v).ldmOutcome as).2 = ((q.ldmOutcome as).2).residue (g (phys 14 .abt)) v := by
  have hrestored : (q.again g v).restored = q.restored := by
    rw [restored, restored, again_cpsr, again_spsr]
    exact congrArg (fun w : Word => if q.bank = .usr then q.cpsr
      else ((q.cpsr &&& ~~~psrImpl) ||| (w &&& psrImpl)) &&& psrImpl) (Function.update_of_ne hb _ _)
  have hrow : ((q.again g v).ldmRow q.x.op).tail = (q.ldmRow q.x.op).tail := by
    refine List.map_congr_left fun j _ => ?_
    rw [loadCycle, loadCycle, again_bdtAddr (again_base hb hg)]
    rfl
  have hstep := @again_stepped q g v hn (as 0) .S
    (q.ldmGpr q.x.op (answers as 0) (regList q.x.op).length) (g (phys 14 .abt))
  simp only [ldmOutcome, again_x, hab, hrestored, again_ldmGpr hb hg hW hab, Bool.false_eq_true,
    if_false]
  split_ifs
  · exact ⟨congrArg (· ++ [q.idleCycle] ++ refillRow _ _) hrow, rfl⟩
  · exact ⟨congrArg (· ++ [q.idleCycle] ++ refillRow _ _) hrow, rfl⟩
  · exact ⟨congrArg (· ++ [q.idleCycle]) hrow, hstep⟩

end Block

/-! ### Every transfer -/

variable (hseq : q.seq = seqOf q.x.op) (ht : IsTransfer q.x.op) (hwb : movesBase q.x.op = false)

include hseq ht hwb

/-- Where all data cycles are answered, the transfer does from registers with which it can begin again
what it does from the first ones. -/
lemma again_outcome (hn : q.nextType.isMem = true)
    (hok : ∀ j, 1 ≤ j → j ≤ dataCycles q.x.op → (as j).abort = false) :
    ((q.again g v).outcome as).1.tail = (q.outcome as).1.tail ∧
      ((q.again g v).outcome as).2 = ((q.outcome as).2).residue (g (phys 14 .abt)) v := by
  have hloads : seqOf q.x.op ≠ .bdt → ∀ p, ¬q.Loads p := fun hne p h => hne (hseq.symm.trans h.1)
  unfold outcome
  rcases ht with hs | hs | hs
  all_goals
    rw [hs] at hseq
    simp only [movesBase, hs] at hwb
    simp only [dataCycles, hs] at hok
    simp only [again_seq, hseq, again_x]
  · cases hL : bit q.x.op 20 with
    | true => exact again_ldr hb hg hn (hloads (by rw [hs]; decide)) hwb (hok 1 (by decide) (by decide))
    | false => exact again_str hb hg hn (hloads (by rw [hs]; decide)) hwb
  · refine again_swp hb hg hn (hloads (by rw [hs]; decide)) ?_
    rw [hok 1 (by decide) (by decide), hok 2 (by decide) (by decide)]
    rfl
  · cases hL : bit q.x.op 20 with
    | true =>
      refine again_ldm hb hg hn hwb (aborted_eq_false_iff.mpr fun j hj => ?_)
      rw [regList_eq] at hj
      exact hok _ (by omega) (by omega)
    | false => exact again_stm hb hg hn hwb hL

end Again

/-! ### The aborted attempt -/

section Attempt

/-- The registers after an aborted attempt. -/
def attempted (q : Arm7DI) (g : Fin 31 → Word) (d : Slot) (n : CycleType) : Arch where
  gpr := g
  pc := q.pc + 4
  cpsr := q.cpsr
  spsr := q.spsr
  ex := q.de
  de := d
  nextType := n
  dabort := true

variable (hseq : q.seq = seqOf q.x.op) (ht : IsTransfer q.x.op) (hwb : movesBase q.x.op = false)

lemma aborted_list {j : ℕ} (h1 : 1 ≤ j) (hj : j ≤ (regList op).length) (hab : (as j).abort = true) :
    aborted (answers as 0) (regList op).length = true := by
  rw [← Bool.not_eq_false, aborted_eq_false_iff]
  intro h
  obtain ⟨i, rfl⟩ := Nat.exists_eq_add_of_le h1
  have hi := h i (by omega)
  rw [answers, Nat.zero_add, hab] at hi
  cases hi

/-- An aborted LDM has its base again. -/
lemma attempted_ldm (hW : bit q.x.op 21 = false) (hq : q.seq = .bdt) (hL : bit q.x.op 20 = true)
    (hab : aborted (answers as 0) (regList q.x.op).length = true) :
    ∃ g d n, (q.ldmOutcome as).2 = q.attempted g d n ∧ ∀ p, ¬q.Loads p → g p = q.gpr p := by
  set G := q.ldmGpr q.x.op (answers as 0) (regList q.x.op).length with hG
  refine ⟨if field q.x.op 16 4 = 15 then G
    else Function.update G (phys (field q.x.op 16 4) q.bank) (q.bdtBaseVal q.x.op),
    q.fetchSlot (as 0), .S, ?_, fun p hp => ?_⟩
  · simp only [ldmOutcome, hab, hW, if_true, Bool.false_eq_true, if_false]
    rfl
  · have hother : (field q.x.op 16 4 ≠ 15 → p ≠ phys (field q.x.op 16 4) q.bank) → G p = q.gpr p := by
      intro hne
      rw [hG, ldmGpr_other (Nat.le_refl _) (Nat.ne_of_gt (regList_pos q.x.op)), wroteBack_keep hW]
      exact fun i hi _ h15 h => hp ⟨hq, hL, hne, i, hi, h15, h⟩
    split_ifs with h15
    · exact hother fun h => absurd h15 h
    · by_cases hbase : p = phys (field q.x.op 16 4) q.bank
      · rw [hbase, Function.update_self, bdtBaseVal, rd, if_neg h15]
      · rw [Function.update_of_ne hbase]
        exact hother fun _ => hbase

include hseq ht hwb

/-- Whatever data cycles are aborted: the transfer has changed nothing but what it loads. -/
lemma attempt_outcome (hab : ∃ j, 1 ≤ j ∧ j ≤ dataCycles q.x.op ∧ (as j).abort = true) :
    ∃ g d n, (q.outcome as).2 = q.attempted g d n ∧ ∀ p, ¬q.Loads p → g p = q.gpr p := by
  obtain ⟨j, h1, hj, hab⟩ := hab
  unfold outcome
  rcases ht with hs | hs | hs
  all_goals
    rw [hs] at hseq
    simp only [movesBase, hs] at hwb
    simp only [dataCycles, hs] at hj
    simp only [hseq]
  · obtain rfl : j = 1 := by omega
    cases hL : bit q.x.op 20 with
    | true =>
      refine ⟨q.gpr, q.fetchSlot (as 0), .S, ?_, fun _ _ => rfl⟩
      simp only [if_true, ldrOutcome, hab, hwb]
      rfl
    | false =>
      refine ⟨q.gpr, q.fetchSlot (as 0), .N, ?_, fun _ _ => rfl⟩
      simp only [Bool.false_eq_true, if_false, strOutcome, hab, hwb]
      rfl
  · have hor : ((as 1).abort || (as 2).abort) = true := by
      obtain rfl | rfl : j = 1 ∨ j = 2 := by omega
      · rw [hab, Bool.true_or]
      · rw [hab, Bool.or_true]
    refine ⟨q.gpr, q.fetchSlot (as 0), .S, ?_, fun _ _ => rfl⟩
    simp only [swpOutcome, hor, if_true]
    rfl
  · rw [← regList_eq] at hj
    have hlen := aborted_list h1 hj hab
    cases hL : bit q.x.op 20 with
    | true =>
      exact attempted_ldm hwb hseq hL hlen
    | false =>
      refine ⟨q.gpr, q.fetchSlot (as 0), .N, ?_, fun _ _ => rfl⟩
      simp only [Bool.false_eq_true, if_false, stmOutcome, hlen, wroteBack_keep hwb]
      rfl

end Attempt

/-- What the sequence of a transfer begins with. -/
lemma Quiet.transfer {s : Arm7DI} (h : s.Quiet) (hc : s.condPass s.ex.word = true)
    (ht : IsTransfer s.ex.word) :
    s.start.arch = s.arch ∧ s.start.x.op = s.ex.word ∧ s.start.seq = seqOf s.ex.word := by
  have hne : seqOf s.ex.word ≠ .exc := by rcases ht with h | h | h <;> rw [h] <;> decide
  rw [h.start_seq hc rfl hne]
  exact ⟨rfl, rfl, rfl⟩

section Congr

variable {u : Arm7DI} (ha : u.arch = q.arch)

include ha

lemma ldmGpr_congr (op : Word) (as : ℕ → Answer) (n : ℕ) : u.ldmGpr op as n = q.ldmGpr op as n := by
  cases u
  cases q
  obtain ⟨rfl, rfl, rfl, rfl, rfl, rfl, rfl, rfl⟩ := ha
  induction n with
  | zero => rfl
  | succ n ih =>
    rw [ldmGpr, ldmGpr, ih]
    rfl

/-- A transfer depends on the registers and its word alone. -/
lemma outcome_congr (hop : u.x.op = q.x.op) (hseq : u.seq = q.seq) (hq : q.seq = seqOf q.x.op)
    (ht : IsTransfer q.x.op) (as : ℕ → Answer) : u.outcome as = q.outcome as := by
  have hldm := ldmGpr_congr ha
  cases u with | mk _ _ _ _ _ ux =>
  cases q with | mk _ _ _ _ _ qx =>
  obtain ⟨rfl, rfl, rfl, rfl, rfl, rfl, rfl, rfl⟩ := ha
  cases ux
  cases qx
  subst hop hseq
  unfold outcome
  rcases ht with hs | hs | hs
  all_goals
    rw [hs] at hq
    simp only at hq
    subst hq
    dsimp only
  · rfl
  · rfl
  · simp only [ldmOutcome, hldm]
    rfl

end Congr

end Arm7DI

end Wren7
