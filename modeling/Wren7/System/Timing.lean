import Wren7.Model.Pace
import Wren7.Model.Untouched
import Wren7.System.WaveRam

/-!
# The timing of the bus

What a program does that reads no register of the AICA and keeps nFIQ masked is the same on every
bus: wait states, slots, SH4 accesses and sample edges move it in time only.
-/

namespace Wren7

open Bits Reactive

namespace Arm7DI

variable {s t : Arm7DI}

/-- Two cores that differ in the time, nFIQ and the abort of the last cycle. -/
def Retimed (s t : Arm7DI) : Prop :=
  ∃ τ, t = s.repace τ s.irqSyncStages ∧ τ.inReset = s.inReset ∧ τ.resetExit = s.resetExit ∧
    τ.irqIn = s.irqIn ∧ τ.irqPipe = s.irqPipe

lemma Retimed.refl (s : Arm7DI) : Retimed s s := ⟨s.lines, rfl, rfl, rfl, rfl, rfl⟩

lemma Retimed.seq (h : Retimed s t) : t.seq = s.seq := by
  obtain ⟨τ, rfl, -⟩ := h
  rfl

lemma Retimed.irqIn (h : Retimed s t) : t.irqIn = s.irqIn := by
  obtain ⟨τ, rfl, -, -, hi, -⟩ := h
  exact hi

lemma Retimed.setFiq (h : Retimed s t) (b b' : Bool) : Retimed (s.setFiq b) (t.setFiq b') := by
  obtain ⟨τ, rfl, hr, he, hi, hp⟩ := h
  exact ⟨{ τ with fiqIn := b' }, rfl, hr, he, hi, hp⟩

/-- Where nFIQ is masked, the same begins. -/
lemma sameStart_of_masked {τ : Lines} (hr : τ.inReset = s.inReset) (he : τ.resetExit = s.resetExit)
    (hi : τ.irqIn = s.irqIn) (hp : τ.irqPipe = s.irqPipe)
    (hf : s.atBoundary → bit s.cpsr 6 = true) : SameStart s τ s.irqSyncStages where
  inReset := hr
  resetExit := he
  takesFiq hb := by
    have hm : ∀ u : Arm7DI, u.cpsr = s.cpsr → u.takesFiq = false := fun u hu => by
      rw [takesFiq, hu, hf hb, Bool.not_true, Bool.and_false]
    exact (hm (s.repace τ s.irqSyncStages) rfl).trans (hm s rfl).symm
  takesIrq _ := by
    have hseen : (s.repace τ s.irqSyncStages).irqSeen = s.irqSeen := by
      rw [irqSeen, irqSeen, repace_irqSyncStages, repace_irqIn, repace_irqPipe, hi, hp]
    rw [takesIrq, takesIrq, hseen, repace_cpsr]

/-- A bus cycle of the two cores. -/
lemma Retimed.busCycle (h : Retimed s t) (hf : s.atBoundary → bit s.cpsr 6 = true) {a a' : Answer}
    (hd : a'.rdata = a.rdata) (ha : a'.abort = a.abort) (hi : a'.irq = a.irq) :
    t.busCycle.bus.signals = s.busCycle.bus.signals ∧
      Retimed (s.busCycle.next a) (t.busCycle.next a') := by
  obtain ⟨τ, rfl, hr, he, hl, hp⟩ := h
  obtain ⟨hbus, hnext⟩ := busCycle_repace (sameStart_of_masked hr he hl hp hf) hd ha
  have hstages : (s.busCycle.next a).irqSyncStages = s.irqSyncStages :=
    congrArg Prod.fst ((untouched_config.sequence (a := a)).trans (start_config s))
  have hreset : s.start.inReset = s.inReset := start_field Arm7DI.inReset (fun _ _ => rfl)
    (fun _ _ => rfl) (fun _ _ => rfl) (fun _ _ => rfl) (fun _ _ => rfl) s
  have hpipe : s.start.irqPipe = s.irqPipe := start_field Arm7DI.irqPipe (fun _ _ => rfl)
    (fun _ _ => rfl) (fun _ _ => rfl) (fun _ _ => rfl) (fun _ _ => rfl) s
  have hlines := s.next_lines a
  refine ⟨by rw [hbus]; rfl, _, by rw [hstages]; exact hnext, ?_, ?_, ?_, ?_⟩
  · exact hr.trans (hreset.symm.trans (congrArg Lines.inReset hlines).symm)
  · exact (congrArg Lines.resetExit hlines).symm
  · exact hi.trans (congrArg Lines.irqIn hlines).symm
  · refine Eq.trans ?_ (congrArg Lines.irqPipe hlines).symm
    change (τ.irqPipe <<< 1) ||| maskIf a'.irq 1 = (s.start.irqPipe <<< 1) ||| maskIf a.irq 1
    rw [hp, hi, hpipe]

end Arm7DI

/-! ### What a bus cycle reads -/

/-- The data of a bus cycle, if it reads no register. -/
def Signals.fetched (c : Signals) (f : Ram) : Word :=
  if c.type.isMem && !c.flags.write then Ram.wordAt f (DcArmBus.ramWord c.addr) else 0

/-- A read of a register. -/
def Signals.readsRegister (c : Signals) : Bool :=
  c.type.isMem && !DcArmBus.inRam c.addr && !c.flags.write

namespace DcArmBus

variable {ρ : Type*} {b : DcArmBus ρ} {c : BusCycle} [AicaRegs ρ]

lemma cycle_fetched (h : c.signals.readsRegister = false) :
    (b.cycle c).1.rdata = c.signals.fetched b.ram := by
  have hsig : c.signals.type = c.type ∧ c.signals.addr = c.addr ∧ c.signals.flags = c.flags :=
    ⟨rfl, rfl, rfl⟩
  rw [Signals.readsRegister, hsig.1, hsig.2.1, hsig.2.2] at h
  rw [Signals.fetched, hsig.1, hsig.2.1, hsig.2.2]
  cases hm : c.type.isMem with
  | false =>
    unfold cycle
    rw [if_pos (by rw [hm]; rfl)]
    rfl
  | true =>
    cases hw : c.flags.write with
    | false =>
      rw [hm, hw, Bool.true_and, Bool.not_false, Bool.and_true, Bool.not_eq_false'] at h
      exact cycle_rdata hm h hw
    | true =>
      unfold cycle
      rw [if_neg (by rw [hm]; decide)]
      change (((b.tick c.t).arbitrated c).access c).1 = 0
      unfold access RegBlock.regCycle
      rw [if_pos hw, if_pos hw]
      split_ifs <;> rfl

end DcArmBus

/-! ### Two systems -/

namespace System

variable {ρ ρ' : Type*} {s : System ρ} {t : System ρ'}

/-- Two systems in the same state but for time, nFIQ and all of the bus apart from the wave RAM. -/
structure Retimed (s : System ρ) (t : System ρ') : Prop where
  core : s.core.Retimed t.core
  ram : t.bus.ram = s.bus.ram

/-- A state in which time makes no difference: the next bus cycle reads no register, and nFIQ is
masked. -/
structure Timeless (s : System ρ) : Prop where
  reads : s.drive.signals.readsRegister = false
  masked : s.core.atBoundary → bit s.core.cpsr 6 = true

lemma Retimed.boundary (h : Retimed s t) : Retimed s.boundary t.boundary := by
  unfold System.boundary
  rw [h.core.seq]
  split_ifs
  · exact ⟨h.core.setFiq _ _, h.ram⟩
  · exact h

lemma Timeless.masked_boundary (hs : s.Timeless) :
    s.boundary.core.atBoundary → bit s.boundary.core.cpsr 6 = true := by
  obtain ⟨ls, hls⟩ := boundary_core s
  rw [hls, Arm7DI.atBoundary, Arm7DI.poke_seq, Arm7DI.poke_cpsr]
  exact hs.masked

variable [AicaRegs ρ] [AicaRegs ρ']

/-- A bus cycle of the two systems. -/
lemma Retimed.step (h : Retimed s t) (hs : s.Timeless) :
    t.drive.signals = s.drive.signals ∧ Retimed s.busCycle t.busCycle := by
  have hb := h.boundary
  have hirq : t.answer.irq = s.answer.irq := hb.core.irqIn
  have habort : t.answer.abort = s.answer.abort := by rw [answer_abort, answer_abort]
  -- the two cores drive the same, so that the two buses answer the same
  have hsig : t.drive.signals = s.drive.signals :=
    (@Arm7DI.Retimed.busCycle _ _ hb.core hs.masked_boundary s.answer s.answer rfl rfl rfl).1
  have hdata : t.answer.rdata = s.answer.rdata := by
    have hread : t.drive.signals.readsRegister = false := hsig ▸ hs.reads
    change (t.boundary.bus.cycle t.drive).1.rdata = (s.boundary.bus.cycle s.drive).1.rdata
    rw [DcArmBus.cycle_fetched hread, DcArmBus.cycle_fetched hs.reads, hsig, hb.ram]
  refine ⟨hsig, (hb.core.busCycle hs.masked_boundary hdata habort hirq).2, ?_⟩
  rw [busCycle_ram, busCycle_ram, hsig, h.ram]

/-- The two systems stay together as long as time makes no difference to the first. -/
lemma Retimed.run (h : Retimed s t) {n : ℕ} (hs : ∀ k < n, (System.busCycle^[k] s).Timeless) :
    Retimed (System.busCycle^[n] s) (System.busCycle^[n] t) := by
  induction n with
  | zero => exact h
  | succ n ih =>
    rw [Function.iterate_succ_apply', Function.iterate_succ_apply']
    exact ((ih fun k hk => hs k (Nat.lt_succ_of_lt hk)).step (hs n (Nat.lt_succ_self n))).2

end System

end Wren7
