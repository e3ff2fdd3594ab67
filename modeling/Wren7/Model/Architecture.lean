import Wren7.Model.Outcome
import Wren7.Model.Untouched
import Wren7.Reactive.Bursts

/-!
# The instruction level

A machine without sequencer, clock and latches: its state is what a programmer sees of the core at a
boundary, with the input lines, and one of its steps is an instruction or an exception entry. The core
follows it.
-/

namespace Wren7

open Bits Reactive

/-- The input lines as the core has them, with their synchronisers. -/
structure Inputs where
  inReset : Bool
  resetExit : Bool
  fiqIn : Bool
  irqIn : Bool
  fiqPipe : Word
  irqPipe : Word

namespace Inputs

variable (P : Inputs)

def setLine : Line → Inputs
  | .reset b =>
    { P with inReset := b, resetExit := P.resetExit || (P.inReset && !b) }
  | .fiq b => { P with fiqIn := b }
  | .irq b => { P with irqIn := b }

def poke (ls : List Line) : Inputs := ls.foldl setLine P

/-- The inputs after a bus cycle. -/
def sampled (a : Answer) : Inputs where
  inReset := P.inReset
  resetExit := P.resetExit
  fiqIn := a.fiq
  irqIn := a.irq
  fiqPipe := (P.fiqPipe <<< 1) ||| maskIf a.fiq 1
  irqPipe := (P.irqPipe <<< 1) ||| maskIf a.irq 1

/-- The inputs after `n` further cycles of a sequence. -/
def cycles (inp : ℕ → Input) : ℕ → Inputs
  | 0 => P
  | n + 1 => ((cycles inp n).poke (inp n).lines).sampled (inp n).ans

end Inputs

namespace Arm7DI

@[simps -fullyApplied]
def inputs (s : Arm7DI) : Inputs where
  inReset := s.inReset
  resetExit := s.resetExit
  fiqIn := s.fiqIn
  irqIn := s.irqIn
  fiqPipe := s.fiqPipe
  irqPipe := s.irqPipe

/-- The state with other latches of the sequencer, at another time. -/
@[simps -fullyApplied]
def relatch (s : Arm7DI) (x : InFlight) (k : ℕ) (f1 : Slot) (ab : Bool) (t : ℕ) : Arm7DI :=
  { s with x := x, k := k, f1 := f1, lastAbort := ab, cycles := t }

variable {s t q u : Arm7DI} {x : InFlight} {k : ℕ} {f1 : Slot} {ab : Bool} {c : ℕ}

/-! ### The inputs -/

lemma poke_inputs (ls : List Line) : (s.poke ls).inputs = s.inputs.poke ls := by
  induction ls generalizing s with
  | nil => rfl
  | cons l ls ih =>
    have hl : (s.setLine l).inputs = s.inputs.setLine l := by cases l <;> rfl
    rw [poke, Inputs.poke, List.foldl_cons, List.foldl_cons, ← hl]
    exact ih

lemma sequence_inputs (s : Arm7DI) (a : Answer) : (s.sequence.next a).inputs = s.inputs.sampled a := by
  have h := congrArg lines ((commutes_sequence s s.lines).2 a)
  change (s.sequence.next a).lines = s.lines.sampled s.nextType.isMem a at h
  exact congrArg (fun τ : Lines =>
    (⟨τ.inReset, τ.resetExit, τ.fiqIn, τ.irqIn, τ.fiqPipe, τ.irqPipe⟩ : Inputs)) h

/-- The inputs in a sequence, from its second cycle on. -/
lemma inputs_cycles {inp : ℕ → Input} {n : ℕ} (h : ∀ j < n, ¬(core.after s inp j).atBoundary) :
    (core.after s inp n).inputs = s.inputs.cycles inp n := by
  induction n with
  | zero => rfl
  | succ n ih =>
    have hne : ((core.after s inp n).poke (inp n).lines).seq ≠ .idle := by
      rw [poke_seq]
      exact h n (Nat.lt_succ_self n)
    rw [Machine.after_succ, core_next, busCycle_of_ne hne, sequence_inputs, poke_inputs,
      ih fun j hj => h j (Nat.lt_succ_of_lt hj)]
    rfl

/-! ### Dead latches -/

/-- Two states in which the same begins. -/
structure Alike (q u : Arm7DI) : Prop where
  arch : u.arch = q.arch
  inputs : u.inputs = q.inputs
  seq : u.seq = q.seq
  stages : u.irqSyncStages = q.irqSyncStages
  mulCarry : u.mulCarry = q.mulCarry
  op : q.seq ≠ .exc → q.seq ≠ .reset → u.x.op = q.x.op
  exc : q.seq = .exc → u.x.vector = q.x.vector ∧ u.x.mode = q.x.mode ∧ u.x.setF = q.x.setF

lemma relatch_poke (ls : List Line) :
    (s.relatch x k f1 ab c).poke ls = (s.poke ls).relatch x k f1 ab c := by
  induction ls generalizing s with
  | nil => rfl
  | cons l ls ih =>
    have hl : (s.relatch x k f1 ab c).setLine l = (s.setLine l).relatch x k f1 ab c := by
      cases l <;> rfl
    rw [poke, poke, List.foldl_cons, List.foldl_cons, hl]
    exact ih

lemma alike_decode (op : Word) : Alike (s.decode op) ((s.relatch x k f1 ab c).decode op) := by
  have hc : ((s.relatch x k f1 ab c).setX { (s.relatch x k f1 ab c).x with op := op }).condPass op =
    (s.setX { s.x with op := op }).condPass op := rfl
  rw [decode_eq, decode_eq]
  dsimp only
  rw [hc]
  split_ifs
  · exact ⟨rfl, rfl, rfl, rfl, rfl, fun _ _ => rfl, fun _ => ⟨rfl, rfl, rfl⟩⟩
  · exact ⟨rfl, rfl, rfl, rfl, rfl, fun _ _ => rfl, fun h => absurd h ‹_›⟩
  · exact ⟨rfl, rfl, rfl, rfl, rfl, fun _ _ => rfl, fun h => Seq.noConfusion h⟩

/-- At a boundary the latches are dead. -/
lemma alike_start (hb : s.seq = .idle) : Alike s.start (s.relatch x k f1 ab c).start := by
  have hf : ((s.relatch x k f1 ab c).setK 0).fiqSeen = (s.setK 0).fiqSeen := rfl
  have hi : ((s.relatch x k f1 ab c).setK 0).irqSeen = (s.setK 0).irqSeen := rfl
  rw [start, start, if_pos hb, if_pos (show (s.relatch x k f1 ab c).seq = .idle from hb)]
  unfold begin
  simp only [setK_inReset, setK_resetExit, setK_dabortPending, setK_ex, setK_cpsr, relatch_inReset,
    relatch_resetExit, relatch_dabortPending, relatch_ex, relatch_cpsr, hf, hi]
  split_ifs
  · exact ⟨rfl, rfl, rfl, rfl, rfl, fun _ h => absurd rfl h, fun h => Seq.noConfusion h⟩
  all_goals first
    | exact alike_decode (s := s.setK 0) (k := 0) _
    | exact ⟨rfl, rfl, rfl, rfl, rfl, fun h => absurd rfl h, fun _ => ⟨rfl, rfl, rfl⟩⟩

lemma Alike.eq_relatch (h : Alike q u) : u = q.relatch u.x u.k u.f1 u.lastAbort u.cycles := by
  obtain ⟨ha, hi, hs, hst, hm, -, -⟩ := h
  cases q
  cases u
  obtain ⟨rfl, rfl, rfl, rfl, rfl, rfl, rfl, rfl⟩ := ha
  obtain ⟨rfl, rfl, rfl, rfl, rfl, rfl⟩ := hi
  subst hs hst hm
  rfl

section Relatch

lemma ldmGpr_relatch (op : Word) (as : ℕ → Answer) (n : ℕ) :
    (q.relatch x k f1 ab c).ldmGpr op as n = q.ldmGpr op as n := by
  induction n with
  | zero => rfl
  | succ n ih =>
    rw [ldmGpr, ldmGpr, ih]
    rfl

lemma msrWrite_relatch (p : Bool) (v m : Word) : (q.relatch x k f1 ab c).msrWrite p v m =
    (q.msrWrite p v m).relatch x k f1 ab c := by
  unfold msrWrite setSpsrCur
  rw [show (q.relatch x k f1 ab c).bank = q.bank from rfl, relatch_cpsr]
  split_ifs <;> rfl

variable (hop : x.op = q.x.op)

include hop

lemma booth_relatch (n : ℕ) : (q.relatch x k f1 ab c).booth n = q.booth n := by
  cases x
  subst hop
  induction n with
  | zero => rfl
  | succ n ih =>
    rw [booth, booth, ih]
    rfl

/-- What an instruction does depends on what the programmer sees only. -/
lemma outcome_relatch (as : ℕ → Answer) (he : q.seq ≠ .exc) :
    (q.relatch x k f1 ab c).outcome as = q.outcome as := by
  have hbooth := @booth_relatch q x k f1 ab c hop
  have hldm := @ldmGpr_relatch q x k f1 ab c
  cases x
  subst hop
  unfold outcome
  rw [relatch_seq]
  cases hq : q.seq with
  | exc => exact absurd hq he
  | psr =>
    dsimp only
    unfold psrOutcome
    simp only [msrWrite_relatch]
    rfl
  | mul =>
    dsimp only
    unfold mulOutcome
    rw [hbooth]
    rfl
  | bdt =>
    dsimp only
    unfold ldmOutcome
    simp only [hldm]
    rfl
  | _ => rfl

end Relatch

lemma Alike.outcome (h : Alike q u) (as : ℕ → Answer) : u.outcome as = q.outcome as := by
  by_cases he : q.seq = .exc
  · obtain ⟨hv, hm, hf⟩ := h.exc he
    have hb := h.eq_relatch
    have hexc : (q.relatch u.x u.k u.f1 u.lastAbort u.cycles).excOutcome as = q.excOutcome as := by
      unfold excOutcome
      rw [relatch_x, hv, hm, hf]
      rfl
    rw [hb]
    unfold Arm7DI.outcome
    rw [relatch_seq, he]
    exact hexc
  by_cases hr : q.seq = .reset
  · rw [h.eq_relatch]
    unfold Arm7DI.outcome
    rw [relatch_seq, hr]
    rfl
  · rw [h.eq_relatch]
    exact outcome_relatch (h.op he hr) as he

end Arm7DI

/-! ### The machine -/

/-- What a boundary has for the runs that begin there. -/
structure Isa where
  arch : Arch
  inputs : Inputs
  irqSyncStages : ℕ
  mulCarry : MulCarry

/-- A boundary of the core with this, at time 0. -/
def Isa.boundary (S : Isa) : Arm7DI where
  irqSyncStages := S.irqSyncStages
  mulCarry := S.mulCarry
  cycles := 0
  seq := .idle
  k := 0
  x := {}
  gpr := S.arch.gpr
  pc := S.arch.pc
  cpsr := S.arch.cpsr
  spsr := S.arch.spsr
  ex := S.arch.ex
  de := S.arch.de
  f1 := ⟨0, false⟩
  nextType := S.arch.nextType
  lastAbort := false
  dabortPending := S.arch.dabort
  inReset := S.inputs.inReset
  resetExit := S.inputs.resetExit
  fiqIn := S.inputs.fiqIn
  irqIn := S.inputs.irqIn
  fiqPipe := S.inputs.fiqPipe
  irqPipe := S.inputs.irqPipe

/-- One instruction or exception entry at a time. -/
def isa : Bursts Isa Input Signals where
  step S inp :=
    let q := (S.boundary.poke (inp 0).lines).start
    let r := q.outcome (answersOf inp)
    (r.1, { S with
      arch := r.2
      inputs := (q.inputs.sampled (inp 0).ans).cycles (fun j => inp (1 + j)) (r.1.length - 1) })
  pos S inp := by
    obtain ⟨row, hrow, -⟩ :=
      Arm7DI.outcome_row (S.boundary.poke (inp 0).lines).start (answersOf inp)
    rw [hrow]
    exact Nat.succ_pos _

namespace Arm7DI

def isa (s : Arm7DI) : Isa := ⟨s.arch, s.inputs, s.irqSyncStages, s.mulCarry⟩

variable {s : Arm7DI} {inp : ℕ → Input} {x : InFlight} {k : ℕ} {f1 : Slot} {ab : Bool} {c : ℕ}

lemma isa_boundary (hb : s.atBoundary) : s.isa.boundary = s.relatch {} 0 ⟨0, false⟩ false 0 := by
  cases s
  subst hb
  rfl

/-- The machine begins what the core begins. -/
lemma isa_alike (hb : s.atBoundary) (ls : List Line) :
    Alike (s.poke ls).start (s.isa.boundary.poke ls).start := by
  rw [isa_boundary hb, relatch_poke]
  exact alike_start ((poke_seq s ls).trans hb)

lemma isa_step (hb : s.atBoundary) : (Wren7.isa.step s.isa inp).1 =
    ((s.poke (inp 0).lines).start.outcome (answersOf inp)).1 :=
  congrArg Prod.fst ((isa_alike hb _).outcome _)

/-- The lines after the sequence that begins at a boundary. -/
lemma performs_inputs {r : Signals} {row : List Signals} {A : Arch}
    (h : Performs s inp (r :: row) A) : (core.after s inp (row.length + 1)).inputs =
      ((s.poke (inp 0).lines).start.inputs.sampled (inp 0).ans).cycles (fun j => inp (1 + j))
        row.length := by
  have hone : (core.after s inp 1).inputs =
      (s.poke (inp 0).lines).start.inputs.sampled (inp 0).ans := sequence_inputs _ _
  rw [Nat.add_comm, Machine.after_add, ← hone]
  refine inputs_cycles fun j hj => ?_
  rw [← Machine.after_add]
  exact h.busy (1 + j) (by omega) (by rw [List.length_cons]; omega)

lemma isa_next (hb : s.atBoundary) :
    (core.after s inp (Wren7.isa.step s.isa inp).1.length).isa = (Wren7.isa.step s.isa inp).2 := by
  obtain ⟨row, hrow, -⟩ := outcome_row (s.poke (inp 0).lines).start (answersOf inp)
  have halike := isa_alike hb (inp 0).lines
  have h := @performs_outcome s inp hb
  have hlen : (Wren7.isa.step s.isa inp).1.length = row.length + 1 := by
    rw [isa_step hb, hrow, List.length_cons]
  have harch : (core.after s inp (row.length + 1)).arch = (Wren7.isa.step s.isa inp).2.arch := by
    have ha := h.arch
    rw [hrow, List.length_cons] at ha
    exact ha.trans (congrArg Prod.snd (halike.outcome _)).symm
  have hin : (core.after s inp (row.length + 1)).inputs = (Wren7.isa.step s.isa inp).2.inputs := by
    have hi := h
    rw [hrow] at hi
    rw [performs_inputs hi, ← halike.inputs, ← Nat.add_sub_cancel row.length 1, ← hlen]
    rfl
  have hcfg := config_after s inp (row.length + 1)
  rw [hlen, isa, harch, hin, show (core.after s inp (row.length + 1)).irqSyncStages = s.irqSyncStages
    from congrArg Prod.fst hcfg, show (core.after s inp (row.length + 1)).mulCarry = s.mulCarry
    from congrArg Prod.snd hcfg]
  rfl

/-- The core follows the instruction level, one burst from a boundary to the next. -/
theorem isa_follows : Wren7.isa.Follows core BusCycle.signals atBoundary
    fun s S => s.atBoundary ∧ s.isa = S := by
  refine ⟨fun _ _ h => h.1, ?_, ?_, ?_⟩
  · rintro s _ inp ⟨hb, rfl⟩
    refine ⟨?_, isa_next hb⟩
    rw [isa_step hb]
    exact (performs_outcome hb).boundary
  · rintro s _ inp ⟨hb, rfl⟩ j hj
    simp only [isa_step hb] at hj ⊢
    exact (performs_outcome hb).signals j hj
  · rintro s _ inp ⟨hb, rfl⟩ j h0 hj
    rw [isa_step hb] at hj
    exact (performs_outcome hb).busy j h0 hj

/-! ### Runs -/

/-- In every run from a boundary the core does instruction after instruction what the instruction
level does: it is at a boundary where an instruction of it begins and nowhere else, with the same
registers, pipeline and lines, and drives the cycles that the instruction has. -/
theorem instruction_level (s : Arm7DI) (inp : ℕ → Input) (hb : s.atBoundary) :
    (∀ k, (core.after s inp (Wren7.isa.start s.isa inp k)).isa = Wren7.isa.state s.isa inp k ∧
      ∀ j (hj : j < (Wren7.isa.burst s.isa inp k).length),
        (core.outs s inp (Wren7.isa.start s.isa inp k + j)).signals =
          (Wren7.isa.burst s.isa inp k)[j]) ∧
    ∀ n, (core.after s inp n).atBoundary ↔ ∃ k, Wren7.isa.start s.isa inp k = n :=
  ⟨fun k => ⟨(isa_follows.state ⟨hb, rfl⟩ k).2, isa_follows.burst ⟨hb, rfl⟩ k⟩,
    isa_follows.rests_iff ⟨hb, rfl⟩⟩

theorem instruction_level_mul : (core.after (resting 0xE0010392) (calm 0)
    (Wren7.isa.start (resting 0xE0010392).isa (calm 0) 1)).isa =
      Wren7.isa.state (resting 0xE0010392).isa (calm 0) 1 :=
  ((instruction_level (resting 0xE0010392) (calm 0) rfl).1 1).1

/-- The latches of the sequencer, the last fetched word, the last abort and the time are dead at a
boundary: with any others there the core drives the same cycles for ever, has its boundaries at the
same places and the same registers, pipeline and lines in them. -/
theorem latches_dead (s : Arm7DI) (inp : ℕ → Input) (n : ℕ) (x : InFlight) (k : ℕ) (f1 : Slot)
    (ab : Bool) (c : ℕ) (hb : s.atBoundary) :
    let t := s.relatch x k f1 ab c
    (core.outs t inp n).signals = (core.outs s inp n).signals ∧
      ((core.after t inp n).atBoundary ↔ (core.after s inp n).atBoundary) ∧
      ((core.after s inp n).atBoundary → (core.after t inp n).isa = (core.after s inp n).isa) := by
  have hs : s.atBoundary ∧ s.isa = s.isa := ⟨hb, rfl⟩
  have ht : (s.relatch x k f1 ab c).atBoundary ∧ (s.relatch x k f1 ab c).isa = s.isa := ⟨hb, rfl⟩
  refine ⟨isa_follows.outs_eq hs ht n, ?_, fun hn => ?_⟩
  · rw [isa_follows.rests_iff ht, isa_follows.rests_iff hs]
  · obtain ⟨k, rfl⟩ := (isa_follows.rests_iff hs n).mp hn
    rw [(isa_follows.state ht k).2, (isa_follows.state hs k).2]

theorem latches_dead_mul :
    (core.outs ((resting 0xE0010392).relatch { op := 0xE0010392, borrow := true } 7 ⟨1, true⟩ true 5)
      (calm 0) 3).signals = (core.outs (resting 0xE0010392) (calm 0) 3).signals :=
  (latches_dead (resting 0xE0010392) (calm 0) 3 _ _ _ _ _ rfl).1

lemma burst_length_le {S : Isa} (k : ℕ) : (Wren7.isa.burst S inp k).length ≤ 20 := by
  obtain ⟨row, hrow, hle⟩ := outcome_row
    (((Wren7.isa.state S inp k).boundary.poke (inp (Wren7.isa.start S inp k + 0)).lines).start)
    (answersOf fun j => inp (Wren7.isa.start S inp k + j))
  have h : Wren7.isa.burst S inp k = _ := hrow
  rw [h, List.length_cons]
  omega

/-- The core cannot hang: whatever the bus answers and the lines do, the next boundary is at most 20
bus cycles away. -/
theorem boundary_within (s : Arm7DI) (inp : ℕ → Input) (n : ℕ) (hb : s.atBoundary) :
    ∃ m, n < m ∧ m ≤ n + 20 ∧ (core.after s inp m).atBoundary :=
  isa_follows.rests_within ⟨hb, rfl⟩ burst_length_le n

/-- LDMIA R0, {R0-R15} takes them all. -/
example : ∀ m < 20, 0 < m → ¬(core.after (resting 0xE890FFFF) (calm 0) m).atBoundary := by
  decide +kernel

theorem boundary_within_ldm :
    ∃ m, 0 < m ∧ m ≤ 20 ∧ (core.after (resting 0xE890FFFF) (calm 0) m).atBoundary :=
  boundary_within (resting 0xE890FFFF) (calm 0) 0 rfl

end Arm7DI

end Wren7
