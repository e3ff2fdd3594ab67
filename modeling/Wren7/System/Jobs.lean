import Wren7.Model.Control
import Wren7.Model.Steady
import Wren7.System.Line

/-!
# Runs of a job

A job's harness drives one bus cycle after the other, and may use the bus and move the lines between
them. What every state of such a run has, and the core's part of it as a run of the core.
-/

namespace Wren7

open Bits Reactive

/-- What the harness does between bus cycles. -/
inductive Move
  | setup (x : Setup)
  | regRead (off : Word)
  | sh4Access (t n : ℕ)
  | tick (t : ℕ)
  | reset (asserted : Bool)
  | irq (asserted : Bool)

/-- The call on the register block that a move makes. -/
def Move.call : Move → Option Call
  | .setup (.areg off v) => some (.regWrite off v)
  | .regRead off => some (.regRead off)
  | .tick t => some (.tick t)
  | _ => none

namespace System

variable {ρ : Type*}

/-- The bus has changed; an attached core follows its line. -/
def push (s : System ρ) (b : DcArmBus ρ) : System ρ := ⟨s.core.setFiq (b.line s.core.fiqIn), b⟩

variable [AicaRegs ρ]

def move (s : System ρ) : Move → System ρ
  | .setup x => s.push (setUp s.bus x)
  | .regRead off => s.push (s.bus.setBlock (s.bus.block.regRead off).2)
  | .sh4Access t n => s.push (s.bus.sh4Access t n).2
  | .tick t => s.tick t
  | .reset b => ⟨s.core.setReset b, s.bus⟩
  | .irq b => ⟨s.core.setIrq b, s.bus⟩

/-- A bus cycle, and what the harness does after it. -/
def jobs : Machine (System ρ) (List Move) BusCycle where
  out s _ := s.drive
  next s ms := ms.foldl move s.busCycle

end System

namespace System

variable {ρ : Type*} {s : System ρ}

/-! ### The time -/

lemma boundary_cycles (s : System ρ) : s.boundary.core.cycles = s.core.cycles := by
  unfold System.boundary
  split_ifs <;> rfl

lemma boundary_seq (s : System ρ) : s.boundary.core.seq = s.core.seq := by
  unfold System.boundary
  split_ifs <;> rfl

lemma drive_t (s : System ρ) : s.drive.t = s.core.cycles := by
  rw [drive, Arm7DI.bus_t, boundary_cycles]

variable [AicaRegs ρ]

lemma busCycle_cycles (s : System ρ) :
    s.busCycle.core.cycles = s.core.cycles + 1 + (s.boundary.bus.cycle s.drive).1.wait := by
  have h : s.busCycle.core.cycles = _ := s.boundary.core.next_cycles s.answer
  rw [h, boundary_cycles]
  rfl

lemma cycles_move (s : System ρ) (m : Move) : (s.move m).core.cycles = s.core.cycles := by
  cases m <;> rfl

lemma cycles_moves (s : System ρ) (ms : List Move) :
    (ms.foldl System.move s).core.cycles = s.core.cycles := by
  induction ms generalizing s with
  | nil => rfl
  | cons m ms ih => rw [List.foldl_cons, ih, cycles_move]

lemma cycles_next (s : System ρ) (ms : List Move) : (jobs.next s ms).core.cycles =
    s.core.cycles + 1 + (s.boundary.bus.cycle s.drive).1.wait :=
  (cycles_moves _ ms).trans s.busCycle_cycles

lemma cycles_after_le (s : System ρ) (ops : ℕ → List Move) {m n : ℕ} (hmn : m ≤ n) :
    (jobs.after s ops m).core.cycles ≤ (jobs.after s ops n).core.cycles := by
  induction hmn with
  | refl => exact Nat.le_refl _
  | step _ ih =>
    refine ih.trans ?_
    rw [Machine.after_succ, cycles_next]
    omega

/-! ### Attached cores -/

omit [AicaRegs ρ] in
lemma Attached.push (h : s.Attached) {b : DcArmBus ρ} (hb : b.SlotsOk)
    (hm : s.bus.block.Mirrors b.block) : (s.push b).Attached ∧ (s.InStep → (s.push b).InStep) :=
  have hl := @line_of_mirrors _ _ b _ h.2 hm
  ⟨⟨hb, hl.1⟩, hl.2⟩

/-- The harness's moves leave the bus of an attached core attached, and the line in step. -/
lemma Attached.move (h : s.Attached) (m : Move) :
    (s.move m).Attached ∧ (s.InStep → (s.move m).InStep) := by
  have hblock {b : DcArmBus ρ} (he : b.block = s.bus.block) : s.bus.block.Mirrors b.block :=
    he ▸ .refl _
  cases m with
  | setup x =>
    cases x with
    | load addr data => exact h.push (h.1.load addr data) (hblock (DcArmBus.load_block _ _ _))
    | word addr v => exact h.push (b := s.bus.wr32 addr v) h.1 (hblock rfl)
    | areg off v =>
      exact h.push (h.1.setBlock (RegBlock.marks_call (.regWrite off v)))
        (RegBlock.mirrors_call (.regWrite off v))
  | regRead off =>
    exact h.push (h.1.setBlock (RegBlock.marks_call (.regRead off)))
      (RegBlock.mirrors_call (.regRead off))
  | sh4Access t n =>
    have ha := (DcArmBus.sh4Access_spec h.1 t n).toArb
    exact h.push ha.ok (ha.block_eq ▸ .inl ⟨rfl, rfl⟩)
  | tick t => exact ⟨h.tick t, fun hi => hi.tick h t⟩
  | reset b => exact ⟨h, id⟩
  | irq b => exact ⟨h, id⟩

lemma attached_moves (h : s.Attached) (ms : List Move) : (ms.foldl System.move s).Attached ∧
    (s.InStep → (ms.foldl System.move s).InStep) := by
  induction ms generalizing s with
  | nil => exact ⟨h, id⟩
  | cons m ms ih =>
    obtain ⟨ha, hi⟩ := h.move m
    exact ⟨(ih ha).1, fun hs => (ih ha).2 (hi hs)⟩

lemma attached_next (h : s.Attached) (ms : List Move) : (jobs.next s ms).Attached ∧
    (s.boundary.InStep → (jobs.next s ms).InStep) := by
  obtain ⟨ha, hi⟩ := h.busCycle
  exact ⟨(attached_moves ha ms).1, fun hs => (attached_moves ha ms).2 (hi hs)⟩

/-- The registers in a move of the harness. -/
lemma block_move {P : RegBlock ρ → Prop} (hb : s.bus.SlotsOk) (hd : ∀ u d, P u → P (u.setDirty d))
    {m : Move} (hc : ∀ c, m.call = some c → P (s.bus.block.call c).2) (h : P s.bus.block) :
    P (s.move m).bus.block := by
  cases m with
  | setup x =>
    cases x with
    | load addr data =>
      show P (DcArmBus.load addr data s.bus).block
      rw [DcArmBus.load_block]
      exact h
    | word addr v => exact h
    | areg off v => exact hc _ rfl
  | regRead off => exact hc _ rfl
  | sh4Access t n =>
    show P (s.bus.sh4Access t n).2.block
    rw [(DcArmBus.sh4Access_spec hb t n).toArb.block_eq]
    exact hd _ _ h
  | tick t => exact hc _ rfl
  | reset b => exact h
  | irq b => exact h

/-! ### The core and the bus under a move -/

/-- A move moves one of the core's lines at most. -/
lemma move_core (s : System ρ) (m : Move) : ∃ l, (s.move m).core = s.core.setLine l := by
  cases m with
  | setup x => exact ⟨.fiq _, rfl⟩
  | regRead off => exact ⟨.fiq _, rfl⟩
  | sh4Access t n => exact ⟨.fiq _, rfl⟩
  | tick t => exact ⟨.fiq _, rfl⟩
  | reset b => exact ⟨.reset b, rfl⟩
  | irq b => exact ⟨.irq b, rfl⟩

/-- The schedule of the slots stays up to date or marked, and the configuration as it is. -/
lemma move_bus (hb : s.bus.SlotsOk) (m : Move) :
    (s.move m).bus.SlotsOk ∧ (s.move m).bus.cfg = s.bus.cfg := by
  cases m with
  | setup x =>
    cases x with
    | load addr data => exact ⟨hb.load addr data, DcArmBus.load_cfg _ _ _⟩
    | word addr v => exact ⟨hb, rfl⟩
    | areg off v => exact ⟨hb.setBlock (RegBlock.marks_call (.regWrite off v)), rfl⟩
  | regRead off => exact ⟨hb.setBlock (RegBlock.marks_call (.regRead off)), rfl⟩
  | sh4Access t n =>
    have ha := (DcArmBus.sh4Access_spec hb t n).toArb
    exact ⟨ha.ok, ha.cfg⟩
  | tick t => exact ⟨hb.tick t, rfl⟩
  | reset b => exact ⟨hb, rfl⟩
  | irq b => exact ⟨hb, rfl⟩

omit [AicaRegs ρ] in
lemma boundary_bus (hb : s.bus.SlotsOk) :
    s.boundary.bus.SlotsOk ∧ s.boundary.bus.cfg = s.bus.cfg := by
  unfold System.boundary
  split_ifs
  · exact ⟨hb.tick _, rfl⟩
  · exact ⟨hb, rfl⟩

lemma next_bus (hb : s.bus.SlotsOk) (ms : List Move) :
    (jobs.next s ms).bus.SlotsOk ∧ (jobs.next s ms).bus.cfg = s.bus.cfg := by
  have hms : ∀ {u : System ρ}, u.bus.SlotsOk → (ms.foldl System.move u).bus.SlotsOk ∧
      (ms.foldl System.move u).bus.cfg = u.bus.cfg := by
    induction ms with
    | nil => exact fun hu => ⟨hu, rfl⟩
    | cons m ms ih =>
      intro u hu
      obtain ⟨hm, hc⟩ := move_bus hu m
      exact ⟨(ih hm).1, (ih hm).2.trans hc⟩
  obtain ⟨hb', hc'⟩ := boundary_bus hb
  obtain ⟨h, hc⟩ := hms (u := s.busCycle) (hb'.cycle s.drive)
  exact ⟨h, hc.trans ((DcArmBus.cycle_cfg hb' s.drive).trans hc')⟩

/-! ### What every state has -/

/-- The schedule of the slots is up to date or marked, no abort is on the way, and the core is in one
of its states between two cycles. -/
structure Sound (cfg : DcConfig) (stages : ℕ) (s : System ρ) : Prop where
  slots : s.bus.SlotsOk
  cfg : s.bus.cfg = cfg
  steady : s.core.Steady stages
  control : ∃ g, Arm7DI.Control g s.core

variable {cfg : DcConfig} {stages : ℕ}

omit [AicaRegs ρ] in
/-- The lines are no part of it. -/
lemma Sound.poke (h : s.Sound cfg stages) {b : DcArmBus ρ} (hb : b.SlotsOk) (hc : b.cfg = cfg)
    (ls : List Line) : (System.mk (s.core.poke ls) b).Sound cfg stages := by
  obtain ⟨g, hg⟩ := h.control
  obtain ⟨hd, hx, hn⟩ := h.steady
  refine ⟨hb, hc, ⟨?_, ?_, ?_⟩, g, Arm7DI.poke_control hg ls⟩
  · exact (Arm7DI.poke_dabortPending _ ls).trans hd
  · exact (congrArg InFlight.ab (Arm7DI.poke_x _ ls)).trans hx
  · exact (Arm7DI.poke_irqSyncStages _ ls).trans hn

omit [AicaRegs ρ] in
lemma Sound.push (h : s.Sound cfg stages) {b : DcArmBus ρ} (hb : b.SlotsOk) (hc : b.cfg = cfg) :
    (s.push b).Sound cfg stages := h.poke hb hc [.fiq (b.line s.core.fiqIn)]

omit [AicaRegs ρ] in
lemma Sound.tick (h : s.Sound cfg stages) (t : ℕ) : (s.tick t).Sound cfg stages :=
  h.push (b := s.bus.tick t) (h.slots.tick t) h.cfg

omit [AicaRegs ρ] in
lemma Sound.boundary (h : s.Sound cfg stages) : s.boundary.Sound cfg stages := by
  unfold System.boundary
  split_ifs
  · exact h.tick _
  · exact h

lemma Sound.busCycle (h : s.Sound cfg stages) : s.busCycle.Sound cfg stages := by
  have hb := h.boundary
  obtain ⟨g, hg⟩ := hb.control
  exact ⟨hb.slots.cycle s.drive, (DcArmBus.cycle_cfg hb.slots s.drive).trans hb.cfg,
    hb.steady.busCycle (DcArmBus.cycle_abort _ _), _, (Arm7DI.keeps_busCycle hg).control s.answer⟩

lemma Sound.move (h : s.Sound cfg stages) (m : Move) : (s.move m).Sound cfg stages := by
  obtain ⟨hb, hc⟩ := move_bus h.slots m
  obtain ⟨l, hl⟩ := move_core s m
  have hm : s.move m = ⟨s.core.poke [l], (s.move m).bus⟩ := congrArg (System.mk · _) hl
  exact hm ▸ h.poke hb (hc.trans h.cfg) [l]

lemma Sound.next (h : s.Sound cfg stages) (ms : List Move) : (jobs.next s ms).Sound cfg stages := by
  have hms : ∀ {u : System ρ}, u.Sound cfg stages → (ms.foldl System.move u).Sound cfg stages := by
    induction ms with
    | nil => exact id
    | cons m ms ih => exact fun hu => ih (hu.move m)
  exact hms h.busCycle

lemma Sound.untilBoundary (h : s.Sound cfg stages) (fuel : ℕ) :
    (untilBoundary fuel s).Sound cfg stages := by
  induction fuel generalizing s with
  | zero => exact h
  | succ fuel ih =>
    rw [System.untilBoundary]
    split_ifs
    · exact h.busCycle
    · exact ih h.busCycle

omit [AicaRegs ρ] in
lemma sound_powerOn (carry : MulCarry) {b : DcArmBus ρ} (hb : b.SlotsOk) :
    (System.mk (Arm7DI.powerOn stages carry) b).Sound b.cfg stages :=
  ⟨hb, rfl, ⟨rfl, rfl, rfl⟩, _, Arm7DI.control_powerOn stages carry⟩

lemma setUp_sound (carry : MulCarry) {b : DcArmBus ρ} (hb : b.SlotsOk) (setup : List Setup) :
    (System.mk (Arm7DI.powerOn stages carry) (setup.foldl setUp b)).Sound b.cfg stages := by
  induction setup generalizing b with
  | nil => exact sound_powerOn carry hb
  | cons x xs ih =>
    have hm := (@sound_powerOn _ stages carry _ hb).move (.setup x)
    have hx : (setUp b x).cfg = b.cfg := hm.cfg
    rw [← hx]
    exact ih hm.slots

lemma construct_sound (carry : MulCarry) {b : DcArmBus ρ} (hb : b.SlotsOk) (setup : List Setup) :
    (construct stages carry (setup.foldl setUp b)).Sound b.cfg stages :=
  (setUp_sound carry hb setup).untilBoundary 3

omit [AicaRegs ρ] in
lemma Sound.attach (h : s.Sound cfg stages) : s.attach.Sound cfg stages :=
  ⟨h.slots.setBlock (RegBlock.marks_of_store rfl fun _ _ => rfl), h.cfg, h.steady, h.control⟩

lemma sound_job (cfg : DcConfig) (period phase latency stages : ℕ) (carry : MulCarry)
    (setup : List Setup) :
    (job cfg period phase latency stages carry setup : System ρ).Sound cfg stages := by
  have hc := @construct_sound ρ _ stages carry _
    (DcArmBus.slotsOk_new cfg period phase latency) setup
  unfold job
  generalize construct stages carry (setup.foldl setUp
    (DcArmBus.new cfg period phase latency : DcArmBus ρ)) = c at hc ⊢
  exact hc.attach

lemma attached_job (cfg : DcConfig) (period phase latency stages : ℕ) (carry : MulCarry)
    (setup : List Setup) :
    (job cfg period phase latency stages carry setup : System ρ).Attached := by
  have hd := construct_detached cfg period phase latency setup (ρ := ρ) stages carry
  unfold job
  generalize construct stages carry (setup.foldl setUp
    (DcArmBus.new cfg period phase latency : DcArmBus ρ)) = c at hd ⊢
  exact hd.attach

/-- A state that some job reaches. -/
def Reached (cfg : DcConfig) (s : System ρ) : Prop :=
  ∃ period phase latency stages carry setup ops n,
    s = jobs.after (job cfg period phase latency stages carry setup) ops n

lemma Reached.sound (h : s.Reached cfg) : s.Attached ∧ ∃ stages, s.Sound cfg stages := by
  obtain ⟨period, phase, latency, stages, carry, setup, ops, n, rfl⟩ := h
  exact ⟨Machine.invariant (I := System.Attached)
      (attached_job cfg period phase latency stages carry setup)
      (fun n h => (attached_next h (ops n)).1) n,
    stages, Machine.invariant (I := System.Sound cfg stages)
      (sound_job cfg period phase latency stages carry setup) (fun n h => h.next (ops n)) n⟩

/-! ### The core's part of a run -/

lemma moves_core (s : System ρ) (ms : List Move) :
    ∃ ls, (ms.foldl System.move s).core = s.core.poke ls := by
  induction ms generalizing s with
  | nil => exact ⟨[], rfl⟩
  | cons m ms ih =>
    obtain ⟨l, hl⟩ := move_core s m
    obtain ⟨ls, hls⟩ := ih (s.move m)
    exact ⟨l :: ls, by rw [List.foldl_cons, hls, hl]; rfl⟩

omit [AicaRegs ρ] in
lemma boundary_core (s : System ρ) : ∃ ls, s.boundary.core = s.core.poke ls := by
  unfold System.boundary
  split_ifs
  · exact ⟨[.fiq _], rfl⟩
  · exact ⟨[], rfl⟩

/-- The core of a job runs on some inputs, with the answers of the bus. -/
lemma exists_inputs (s : System ρ) (ops : ℕ → List Move) : ∃ inp : ℕ → Input, ∀ k,
    (jobs.after s ops k).boundary.core =
        (Arm7DI.core.after s.core inp k).poke (inp k).lines ∧
      (inp k).ans = (jobs.after s ops k).answer := by
  have hnext (k : ℕ) : ∃ ls, (jobs.after s ops (k + 1)).boundary.core =
      ((jobs.after s ops k).boundary.core.busCycle.next (jobs.after s ops k).answer).poke ls := by
    obtain ⟨ls, hls⟩ := moves_core (jobs.after s ops k).busCycle (ops k)
    obtain ⟨ls', hls'⟩ := boundary_core (jobs.after s ops (k + 1))
    refine ⟨ls ++ ls', ?_⟩
    have hm : (jobs.after s ops (k + 1)).core = (jobs.after s ops k).busCycle.core.poke ls := hls
    rw [hls', hm]
    exact List.foldl_append.symm
  choose ls hls using hnext
  obtain ⟨ls₀, hls₀⟩ := boundary_core s
  let inp : ℕ → Input := fun k =>
    ⟨k.casesOn ls₀ fun k => ls k, (jobs.after s ops k).answer⟩
  refine ⟨inp, fun k => ⟨?_, rfl⟩⟩
  induction k with
  | zero => exact hls₀
  | succ k ih =>
    rw [hls k, ih]
    rfl

end System

end Wren7
