import Wren7.Model.Pipeline
import Wren7.Model.Sequences

/-!
# A pulse of nRESET

What a boundary after a reset entry has of the state before the pulse: the registers, and a data abort
that was pending.
-/

namespace Wren7

open Bits Reactive

namespace Arm7DI

/-- The state in which step `j` of a run begins, with its lines moved. -/
def poked (s : Arm7DI) (inp : ℕ → Input) (j : ℕ) : Arm7DI :=
  (core.after s inp j).poke (inp j).lines

/-- At the boundaries from `k` on nRESET is asserted; at the boundary `m` it is released. -/
structure ResetPulse (s : Arm7DI) (inp : ℕ → Input) (k m : ℕ) : Prop where
  lt : k < m
  asserted : ∀ j, k ≤ j → j < m →
    (core.after s inp j).atBoundary ∧ (poked s inp j).inReset = true
  released : (poked s inp m).inReset = false

/-- What a boundary begins with is the instruction in the execute slot. -/
def Issues (s : Arm7DI) : Prop := s.start = (s.setK 0).decode s.ex.word

/-! ### Dummy fetches -/

section Dummy

variable {s : Arm7DI} {x : Input}

lemma next_reset (hb : s.atBoundary) (hr : (s.poke x.lines).inReset = true) :
    core.next s x = ((((((s.poke x.lines).setK 0).setSeq .reset).sampled x.ans .S).setPc
      (s.pc + 4)).done) := by
  have hq : (s.poke x.lines).seq = .idle := (poke_seq s _).trans hb
  rw [core_next, busCycle, start_reset hq hr]
  change ((((((s.poke x.lines).setK 0).setSeq .reset).sampled x.ans .S).setPc
    ((s.poke x.lines).pc + 4)).done) = _
  rw [poke_pc]

end Dummy

section Pulse

variable {s : Arm7DI} {inp : ℕ → Input} {k m : ℕ}

/-- The dummy fetches leave the registers and a pending data abort as they are. -/
lemma ResetPulse.kept (h : ResetPulse s inp k m) {j : ℕ} (hk : k ≤ j) (hj : j ≤ m) :
    (core.after s inp j).atBoundary ∧ (core.after s inp j).gpr = (core.after s inp k).gpr ∧
      (core.after s inp j).cpsr = (core.after s inp k).cpsr ∧
      (core.after s inp j).spsr = (core.after s inp k).spsr ∧
      (core.after s inp j).dabortPending = (core.after s inp k).dabortPending ∧
      (k < j → (core.after s inp j).inReset = true) := by
  induction j, hk using Nat.le_induction with
  | base => exact ⟨(h.asserted k (Nat.le_refl k) h.lt).1, rfl, rfl, rfl, rfl, fun h => by omega⟩
  | succ j hkj ih =>
    obtain ⟨hb, hg, hc, hs, hd, -⟩ := ih (by omega)
    have hr := (h.asserted j hkj hj).2
    rw [Machine.after_succ, next_reset hb hr]
    exact ⟨rfl, (poke_gpr _ _).trans hg, (poke_cpsr _ _).trans hc, (poke_spsr _ _).trans hs,
      (poke_dabortPending _ _).trans hd, fun _ => hr⟩

/-- Releasing nRESET leaves the reset entry to be done. -/
lemma ResetPulse.resetExit (h : ResetPulse s inp k m) : (poked s inp m).resetExit = true := by
  have hin := (h.kept (Nat.le_of_lt h.lt) (Nat.le_refl m)).2.2.2.2.2 h.lt
  refine Bool.eq_true_of_not_eq_false fun he => ?_
  rw [(poke_reset _ _ h.released he).1] at hin
  cases hin

/-- The reset entry on the registers of a state: R14_svc, SPSR_svc and the CPSR but for its flags, and
the pipeline. A pending data abort stays. -/
def resetEntry (s : Arm7DI) (r14 : Word) (a b : Answer) : Arch where
  gpr := Function.update s.gpr (phys 14 .svc) r14
  pc := 8
  cpsr := (s.cpsr &&& ~~~psrM) ||| mSvc.setWidth 32 ||| psrI ||| psrF
  spsr := Function.update s.spsr .svc s.cpsr
  ex := ⟨a.rdata, a.abort⟩
  de := ⟨b.rdata, b.abort⟩
  nextType := .S
  dabort := s.dabortPending

/-- The fetch from address 0. -/
def zeroFetch : Signals := ⟨.N, 0, 0, { opc := true }⟩

/-- The entry takes three cycles from the release on; its second fetches from address 0. -/
lemma ResetPulse.entered (h : ResetPulse s inp k m) :
    NextBoundary (core.after s inp m) (fun j => inp (m + j)) 3 ∧
      (core.outs s inp (m + 1)).signals.shape = zeroFetch ∧
      ∃ r14, (core.after s inp (m + 3)).arch =
        (core.after s inp k).resetEntry r14 (inp (m + 1)).ans (inp (m + 2)).ans := by
  obtain ⟨hb, hg, hc, hs, hd, -⟩ := h.kept (Nat.le_of_lt h.lt) (Nat.le_refl m)
  have hq : (poked s inp m).seq = .idle := (poke_seq _ _).trans hb
  have hp := @performs_exc (core.after s inp m) _ (fun j => inp (m + j)) _ _ _
    (start_resetExit hq h.released h.resetExit)
  refine ⟨hp.next, ?_, (poked s inp m).pc - 4, ?_⟩
  · rw [Machine.outs_add]
    exact congrArg Signals.shape (hp.signals 1 (by decide : 1 < 3))
  · rw [Machine.after_add]
    refine hp.arch.trans ?_
    have hpoke : (poked s inp m).arch = { (core.after s inp k).arch with
        pc := (poked s inp m).pc, ex := (poked s inp m).ex, de := (poked s inp m).de,
        nextType := (poked s inp m).nextType } := by
      ext1 <;> simp [poked, hg, hc, hs, hd]
    change Arch.refill (Arch.enter (poked s inp m).arch .svc mSvc true _) 0 _ _ = _
    rw [hpoke]
    rfl

end Pulse

/-! ### The first thing executed -/

section Issues

variable {s : Arm7DI}

lemma decode_vector {op : Word} (h : (s.decode op).seq = .exc) : (s.decode op).x.vector = 0x08 := by
  rw [decode_eq] at h ⊢
  dsimp only at h ⊢
  split_ifs at h ⊢ with h1 h2
  · rfl
  · exact absurd h h2
  · exact Seq.noConfusion h

/-- With both interrupts masked and a word in the execute slot, only a data abort comes first. -/
lemma issues_iff (hq : s.seq = .idle) (hr : s.inReset = false) (he : s.resetExit = false)
    (hI : bit s.cpsr 7 = true) (hF : bit s.cpsr 6 = true) (hx : s.ex.abort = false) :
    s.Issues ↔ s.dabortPending = false := by
  cases hd : s.dabortPending with
  | true =>
    refine iff_of_false (fun h => ?_) Bool.noConfusion
    rw [Issues, start_dabort hq hr he hd] at h
    have hv := @decode_vector (s.setK 0) s.ex.word (h ▸ rfl)
    rw [← h] at hv
    exact absurd (show (0x10 : Word) = 0x08 from hv) (by decide)
  | false =>
    refine iff_of_true ?_ rfl
    have hf : s.takesFiq = false := by rw [takesFiq, hF, Bool.not_true, Bool.and_false]
    have hi : s.takesIrq = false := by rw [takesIrq, hI, Bool.not_true, Bool.and_false]
    rw [Issues, start_slot hq hr he hd hf hi, hx, if_neg Bool.false_ne_true]

end Issues

section First

variable {s : Arm7DI} {inp : ℕ → Input} {k m : ℕ}

/-- The first thing executed after the reset entry is the word fetched from address 0 if and only if
no data abort was pending when nRESET was first seen. -/
lemma ResetPulse.issues_iff (h : ResetPulse s inp k m)
    (hr : (poked s inp (m + 3)).inReset = false) (he : (poked s inp (m + 3)).resetExit = false)
    (hab : (inp (m + 1)).ans.abort = false) :
    (poked s inp (m + 3)).ex.word = (inp (m + 1)).ans.rdata ∧
      ((poked s inp (m + 3)).Issues ↔ (core.after s inp k).dabortPending = false) := by
  obtain ⟨hnext, -, r14, hA⟩ := h.entered
  have hpoke : (poked s inp (m + 3)).arch = (core.after s inp (m + 3)).arch :=
    poke_field _ arch (fun _ l => by cases l <;> rfl) _
  rw [hA] at hpoke
  have hb : (core.after s inp (m + 3)).seq = .idle := by
    rw [Machine.after_add]
    exact hnext.boundary
  have hbits : bit (poked s inp (m + 3)).cpsr 7 = true ∧ bit (poked s inp (m + 3)).cpsr 6 = true := by
    rw [show (poked s inp (m + 3)).cpsr = _ from congrArg Arch.cpsr hpoke]
    constructor <;> simp [bit, resetEntry, psrI, psrF]
  have hex : (poked s inp (m + 3)).ex = ⟨(inp (m + 1)).ans.rdata, (inp (m + 1)).ans.abort⟩ :=
    congrArg Arch.ex hpoke
  have hd : (poked s inp (m + 3)).dabortPending = (core.after s inp k).dabortPending :=
    congrArg Arch.dabort hpoke
  refine ⟨congrArg Slot.word hex, ?_⟩
  rw [← hd]
  exact Arm7DI.issues_iff ((poke_seq _ _).trans hb) hr he hbits.1 hbits.2 (by rw [hex]; exact hab)

end First

end Arm7DI

end Wren7
