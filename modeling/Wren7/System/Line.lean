import Wren7.System.Basic

/-!
# The nFIQ line

The bus pushes its nFIQ output to the core: the line is moved where some operation of the controller
calls `set_fiq`, and nowhere else.
-/

namespace Wren7

open Bits Reactive

namespace RegBlock

variable {ρ : Type*} {s t u : RegBlock ρ}

/-- An operation leaves nFIQ and its line alone, or ends with the line at the level of nFIQ. -/
def Mirrors (s t : RegBlock ρ) : Prop :=
  t.core = s.core ∧ t.fiq = s.fiq ∨ t.core = s.core.map fun _ => t.fiq

lemma Mirrors.refl (s : RegBlock ρ) : Mirrors s s := .inl ⟨rfl, rfl⟩

lemma Mirrors.trans (h : Mirrors s t) (h' : Mirrors t u) : Mirrors s u := by
  rcases h' with ⟨hc', hf'⟩ | hc'
  · rcases h with ⟨hc, hf⟩ | hc
    · exact .inl ⟨hc'.trans hc, hf'.trans hf⟩
    · exact .inr (by rw [hc', hc, hf'])
  · refine .inr (hc'.trans ?_)
    rcases h with ⟨hc, -⟩ | hc <;> rw [hc]
    rw [Option.map_map]
    rfl

/-- Work on the registers, then `update_interrupts`. -/
lemma mirrors_updateInterrupts (hc : t.core = s.core) : Mirrors s t.updateInterrupts :=
  .inr (hc ▸ updateInterrupts_core t)

/-- A sample edge brings the line in step. -/
lemma sampleClock_core_of_due {t : ℕ} (h : s.edgeDue t) :
    (s.sampleClock t).core = s.core.map fun _ => (s.sampleClock t).fiq := by
  obtain ⟨u, n, hu, ⟨-, he⟩ | ⟨hn, -⟩⟩ := sampleClock_eq (s := s) t
  · have hc : u.core = s.core := by rcases hu with rfl | ⟨_, rfl⟩ <;> rfl
    rw [he, ← hc]
    exact updateInterrupts_core u.marked
  · exact absurd h hn

lemma sampleClock_of_not_due {t : ℕ} (h : ¬s.edgeDue t) :
    (s.sampleClock t).core = s.core ∧ (s.sampleClock t).fiq = s.fiq := by
  obtain ⟨u, n, hu, ⟨hd, -⟩ | ⟨-, he⟩⟩ := sampleClock_eq (s := s) t
  · exact absurd hd h
  · rw [he]
    rcases hu with rfl | ⟨_, rfl⟩ <;> exact ⟨rfl, rfl⟩

lemma mirrors_sampleClock (t : ℕ) : Mirrors s (s.sampleClock t) := by
  by_cases h : s.edgeDue t
  · exact .inr (sampleClock_core_of_due h)
  · exact .inl (sampleClock_of_not_due h)

variable [AicaRegs ρ]

lemma mirrors_rreg (r : RegNo) : Mirrors s (s.rreg r).2 := by
  unfold rreg
  split_ifs
  · exact .inr rfl
  · exact .refl s
  · exact .refl s
  · exact .refl s
  · split <;> exact .inl ⟨rfl, rfl⟩

lemma mirrors_wreg (r : RegNo) (v mask : BitVec 16) : Mirrors s (s.wreg r v mask) := by
  unfold wreg
  by_cases hL : r = regL
  · rw [if_pos hL]
    exact .refl s
  rw [if_neg hL]
  by_cases hM : r = regM
  · rw [if_pos hM]
    split_ifs
    · exact mirrors_updateInterrupts rfl
    · exact .refl s
  rw [if_neg hM]
  split
  · exact mirrors_updateInterrupts rfl
  · refine mirrors_updateInterrupts ?_
    split_ifs <;> rfl

lemma mirrors_call (c : Call) : Mirrors s (s.call c).2 := by
  obtain ⟨t, ht, h⟩ := call_eq s c
  have hs : Mirrors s t := by rcases ht with rfl | ⟨_, rfl⟩ <;> exact .inl ⟨rfl, rfl⟩
  rw [h]
  refine hs.trans ?_
  cases c.access with
  | read r => exact mirrors_rreg r
  | write r v mask => exact mirrors_wreg r v mask
  | clock t => exact mirrors_sampleClock t
  | dropped => exact .refl _

end RegBlock

namespace DcArmBus

variable {ρ : Type*} {b : DcArmBus ρ}

lemma mirrors_arbitrated (hb : b.SlotsOk) (c : BusCycle) :
    b.block.Mirrors (b.arbitrated c).block := by
  have h := (arb_arbitrated hb c).block
  exact .inl ⟨(congrArg RegBlock.core h : _), (congrArg RegBlock.fiq h : _)⟩

variable [AicaRegs ρ]

lemma mirrors_cycle (hb : b.SlotsOk) (c : BusCycle) : b.block.Mirrors (b.cycle c).2.block := by
  have ht : b.block.Mirrors (b.tick c.t).block := RegBlock.mirrors_sampleClock c.t
  unfold cycle
  by_cases hm : (!c.type.isMem) = true
  · rw [if_pos hm]
    exact ht
  · rw [if_neg hm]
    refine (ht.trans (mirrors_arbitrated (hb.tick c.t) c)).trans ?_
    unfold access
    split_ifs
    · exact .refl _
    · exact .refl _
    · exact .refl _
    · exact RegBlock.mirrors_call (.arm c)

end DcArmBus

namespace System

variable {ρ : Type*} {s : System ρ}

/-- The bus drives the line of this core. -/
def Attached (s : System ρ) : Prop := s.bus.SlotsOk ∧ s.bus.block.core = some s.core.fiqIn

/-- The core's line shows the controller's nFIQ. -/
def InStep (s : System ρ) : Prop := s.core.fiqIn = s.bus.block.fiq

/-- A bus operation moves the line of an attached core to where it says, and keeps it in step. -/
lemma line_of_mirrors {b b' : DcArmBus ρ} {level : Bool} (hc : b.block.core = some level)
    (h : b.block.Mirrors b'.block) : b'.block.core = some (b'.line level) ∧
      (level = b.block.fiq → b'.line level = b'.block.fiq) := by
  unfold DcArmBus.line
  rcases h with ⟨hc', hf⟩ | hc' <;> rw [hc', hc]
  · exact ⟨rfl, fun h => h.trans hf.symm⟩
  · exact ⟨rfl, fun _ => rfl⟩

lemma Attached.tick (h : s.Attached) (t : ℕ) : (s.tick t).Attached :=
  ⟨h.1.tick t, (@line_of_mirrors _ _ (s.bus.tick t) _ h.2 (RegBlock.mirrors_sampleClock t)).1⟩

lemma InStep.tick (hi : s.InStep) (h : s.Attached) (t : ℕ) : (s.tick t).InStep :=
  (@line_of_mirrors _ _ (s.bus.tick t) _ h.2 (RegBlock.mirrors_sampleClock t)).2 hi

lemma Attached.boundary (h : s.Attached) : s.boundary.Attached := by
  unfold System.boundary
  split_ifs
  · exact h.tick _
  · exact h

lemma InStep.boundary (hi : s.InStep) (h : s.Attached) : s.boundary.InStep := by
  unfold System.boundary
  split_ifs
  · exact hi.tick h _
  · exact hi

/-- A sample edge at a boundary brings the line in step. -/
lemma inStep_tick_of_due (h : s.Attached) {t : ℕ} (hd : s.bus.block.edgeDue t) :
    (s.tick t).InStep := by
  have hc : (s.bus.tick t).block.core = s.bus.block.core.map fun _ => (s.bus.tick t).block.fiq :=
    RegBlock.sampleClock_core_of_due hd
  rw [h.2] at hc
  rw [InStep, System.tick, Arm7DI.setFiq_fiqIn, DcArmBus.line, hc]
  rfl

variable [AicaRegs ρ]

lemma Attached.busCycle (h : s.Attached) :
    s.busCycle.Attached ∧ (s.boundary.InStep → s.busCycle.InStep) := by
  have hb := h.boundary
  obtain ⟨hline, hstep⟩ := line_of_mirrors hb.2 (DcArmBus.mirrors_cycle hb.1 s.drive)
  have hfiq : s.busCycle.core.fiqIn =
      (s.boundary.bus.cycle s.drive).2.line s.boundary.core.fiqIn := Arm7DI.next_fiqIn _ _
  refine ⟨⟨hb.1.cycle s.drive, ?_⟩, fun hi => ?_⟩
  · rw [hfiq]
    exact hline
  · rw [InStep, hfiq]
    exact hstep hi

lemma attached_after (h : s.Attached) (n : ℕ) : (System.busCycle^[n] s).Attached := by
  induction n with
  | zero => exact h
  | succ n ih => exact Function.iterate_succ_apply' _ _ _ ▸ ih.busCycle.1

/-- Once in step at the first boundary, always in step. -/
lemma inStep_after (h : s.Attached) (hi : s.boundary.InStep) (n : ℕ) :
    (System.busCycle^[n] s).boundary.InStep := by
  induction n with
  | zero => exact hi
  | succ n ih =>
    rw [Function.iterate_succ_apply']
    have ha := (attached_after h n).busCycle
    exact (ha.2 ih).boundary ha.1

/-! ### The start of a job -/

/-- A system whose bus does not know the core, with the line released. -/
def Detached (s : System ρ) : Prop :=
  s.bus.SlotsOk ∧ s.bus.block.core = none ∧ s.core.fiqIn = false

omit [AicaRegs ρ] in
lemma none_of_mirrors {r r' : RegBlock ρ} (hc : r.core = none) (h : r.Mirrors r') :
    r'.core = none := by
  rcases h with ⟨hc', -⟩ | hc' <;> rw [hc', hc]
  rfl

lemma Detached.busCycle (h : s.Detached) : s.busCycle.Detached := by
  obtain ⟨hok, hc, hf⟩ := h
  have hb : s.boundary.Detached := by
    unfold System.boundary
    split_ifs
    · have hn := none_of_mirrors hc (RegBlock.mirrors_sampleClock s.core.cycles)
      refine ⟨hok.tick _, hn, ?_⟩
      exact (congrArg (Option.getD · s.core.fiqIn) hn).trans hf
    · exact ⟨hok, hc, hf⟩
  have hn := none_of_mirrors hb.2.1 (DcArmBus.mirrors_cycle hb.1 s.drive)
  refine ⟨hb.1.cycle s.drive, hn, (Arm7DI.next_fiqIn _ _).trans ?_⟩
  exact (congrArg (Option.getD · s.boundary.core.fiqIn) hn).trans hb.2.2

lemma Detached.untilBoundary (h : s.Detached) (fuel : ℕ) : (untilBoundary fuel s).Detached := by
  induction fuel generalizing s with
  | zero => exact h
  | succ fuel ih =>
    rw [System.untilBoundary]
    split_ifs
    · exact h.busCycle
    · exact ih h.busCycle

variable {b : DcArmBus ρ}

/-- The reset entry ends at a boundary. -/
lemma construct_seq (stages : ℕ) (carry : MulCarry) (b : DcArmBus ρ) :
    (construct stages carry b).core.seq = .idle := by
  have h3 : (System.mk (Arm7DI.powerOn stages carry) b).busCycle.busCycle.busCycle.core.seq =
      .idle := rfl
  rw [construct, untilBoundary, untilBoundary, untilBoundary]
  split_ifs with h1 h2
  · exact h1
  · exact h2
  · exact h3

variable (cfg : DcConfig) (period phase latency : ℕ) (setup : List Setup)

/-- What a job sets up keeps the bus without a core. -/
lemma setUp_detached (hb : b.SlotsOk) (hc : b.block.core = none) :
    (setup.foldl setUp b).SlotsOk ∧ (setup.foldl setUp b).block.core = none := by
  induction setup generalizing b with
  | nil => exact ⟨hb, hc⟩
  | cons x xs ih =>
    cases x with
    | load addr data => exact ih (hb.load addr data) (by rw [setUp, DcArmBus.load_block, hc])
    | word addr v => exact ih hb hc
    | areg off v =>
      exact ih (hb.setBlock (RegBlock.marks_call (.regWrite off v)))
        (none_of_mirrors hc (RegBlock.mirrors_call (.regWrite off v)))

lemma construct_detached (stages : ℕ) (carry : MulCarry) :
    (construct stages carry (setup.foldl setUp
      (DcArmBus.new cfg period phase latency : DcArmBus ρ))).Detached := by
  obtain ⟨hok, hc⟩ := setUp_detached setup (b := (DcArmBus.new cfg period phase latency :
    DcArmBus ρ)) (DcArmBus.slotsOk_new cfg period phase latency) rfl
  exact Detached.untilBoundary ⟨hok, hc, rfl⟩ 3

omit [AicaRegs ρ] in
lemma Detached.attach (h : s.Detached) : s.attach.Attached :=
  ⟨h.1.setBlock (RegBlock.marks_of_store rfl fun _ _ => rfl), rfl⟩

omit [AicaRegs ρ] in
/-- Attaching a core to a bus that holds a request leaves the line behind, until the bus moves it. -/
lemma inStep_attach_iff (h : s.Detached) (hi : s.core.seq = .idle) :
    s.attach.boundary.InStep ↔
      s.attach.bus.block.fiq = false ∨ s.attach.bus.block.edgeDue s.attach.core.cycles := by
  have ha := h.attach
  have hbd : s.attach.boundary = s.attach.tick s.core.cycles := if_pos hi
  rw [hbd]
  by_cases hdue : s.attach.bus.block.edgeDue s.attach.core.cycles
  · exact iff_of_true (inStep_tick_of_due ha hdue) (.inr hdue)
  · -- without an edge the tick moves neither side
    obtain ⟨hcore, hf⟩ := RegBlock.sampleClock_of_not_due (s := s.attach.bus.block) hdue
    have hline : (s.attach.tick s.core.cycles).core.fiqIn = false := by
      have hc : (s.attach.bus.tick s.core.cycles).block.core = some s.core.fiqIn := hcore
      rw [System.tick, Arm7DI.setFiq_fiqIn, DcArmBus.line, hc]
      exact h.2.2
    have hfiq : (s.attach.tick s.core.cycles).bus.block.fiq = s.attach.bus.block.fiq := hf
    rw [InStep, hline, hfiq, or_iff_left hdue]
    exact eq_comm

/-- In a job, the core tests the controller's nFIQ at every boundary if and only if no request is
held when the core is attached, or a sample edge is due at the first boundary. -/
theorem line_in_step_iff (stages : ℕ) (carry : MulCarry) :
    let s : System ρ := job cfg period phase latency stages carry setup
    (∀ n, (System.busCycle^[n] s).core.seq = .idle → (System.busCycle^[n] s).boundary.InStep) ↔
      s.bus.block.fiq = false ∨ s.bus.block.edgeDue s.core.cycles := by
  have hd := construct_detached cfg period phase latency setup (ρ := ρ) stages carry
  have hi := construct_seq stages carry (setup.foldl setUp
    (DcArmBus.new cfg period phase latency : DcArmBus ρ))
  unfold job
  generalize construct stages carry (setup.foldl setUp
    (DcArmBus.new cfg period phase latency : DcArmBus ρ)) = c at hd hi ⊢
  refine Iff.trans ⟨fun h => h 0 hi, fun h n _ => ?_⟩ (inStep_attach_iff hd hi)
  exact inStep_after hd.attach h n

/-- A job that enables the sample interval's request at level 1: the edge at time 0, during the reset
entry, latches it. -/
def earlyRequest : System Empty :=
  job {} 512 0 0 0 .shifterLast [.areg 0x289C 0x400, .areg 0x28A8 0x80]

instance {ρ : Type*} (s : System ρ) : Decidable s.InStep := inferInstanceAs (Decidable (_ = _))

/-- The request is not visible at the first boundary of that job. -/
theorem line_behind : ¬∀ n, (System.busCycle^[n] earlyRequest).core.seq = .idle →
    (System.busCycle^[n] earlyRequest).boundary.InStep :=
  fun h => absurd (h 0 (by decide +kernel)) (by decide +kernel)

end System

end Wren7
