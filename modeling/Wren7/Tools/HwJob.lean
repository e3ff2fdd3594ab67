import Mathlib.Algebra.Order.Field.Rat
import Wren7.Model.Architecture
import Wren7.System.Scpu
import Wren7.System.Timing

/-!
# Console jobs on the model

`run_job_model` (`tools/hwjob.h`): a job is loaded, the core runs from reset until it raises SCPU or
the limit is reached, and regions of the wave RAM are read back.
-/

namespace Wren7

open Bits Reactive

/-! ### Jobs -/

/-- A job of the job file, as far as the model uses it. -/
structure HwJob where
  loads : List (Word × String) := []
  words : List (Word × Word) := []
  reads : List (Word × Word) := []
  aregs : List (Word × Word) := []
  sh4mode : ℕ := 0
  sh4gap : ℕ := 0

/-- The bus as `sh4_setup` leaves it. -/
def sh4Setup (bus : DcConfig) (j : HwJob) (phase : ℚ) : DcConfig :=
  let sh4PerMclk : ℚ := 88352 / 10000
  if j.sh4mode = 2 then
    let period := if j.sh4gap ≠ 0 then j.sh4gap / sh4PerMclk else 5120 / 425
    { bus with sh4Period := period, sh4Phase := phase * period }
  else if j.sh4mode = 1 then
    let period := if j.sh4gap ≠ 0 then j.sh4gap / sh4PerMclk else 1
    { bus with
      sh4Count := 2
      sh4Spacing := 8
      sh4ReadLatency := 24
      sh4Period := period
      sh4Phase := phase * if j.sh4gap ≠ 0 then period else 40 }
  else bus

namespace System

variable {ρ : Type*}

/-- `if (mul_carry >= 0) cpu.mul_carry = mul_carry;` -/
def setMulCarry (s : System ρ) : Option MulCarry → System ρ
  | none => s
  | some c => ⟨{ s.core with mulCarry := c }, s.bus⟩

/-- The condition of the job's loop. -/
def running (maxCycles : ℕ) (s : System ρ) : Bool :=
  !decide s.core.atBoundary || (!s.bus.block.scpuRaised && decide (s.core.cycles < maxCycles))

end System

/-- How a job is run on the model: the arguments of `run_job_model` but for the bus trace. -/
structure JobArgs where
  waits : DcWaits := {}
  maxCycles : ℕ := 400000000
  mulCarry : Option MulCarry := none
  sh4Phase : ℚ := 0
  adpcmOrigin : ℤ := 0

structure ModelRun where
  done : Bool := false
  /-- MCLK from reset release to the SCPU write. -/
  cycles : ℕ := 0
  readback : List (BitVec 8) := []

namespace HwJob

variable (files : String → Option (List (BitVec 8))) (j : HwJob) (p : JobArgs)

/-- What the job puts into the wave RAM and the registers, if all of its files can be read. -/
def setup : Option (List Setup) :=
  (j.loads.mapM fun l => (files l.2).map (Setup.load l.1)).map fun loads =>
    loads ++ j.words.map (fun w => .word w.1 w.2) ++
      j.aregs.map fun r => .areg r.1 (r.2.setWidth 16)

/-- The core out of reset, on the bus of the job. -/
def start (setup : List Setup) : System Empty :=
  (System.job (sh4Setup { waits := p.waits, adpcmOrigin := p.adpcmOrigin } j p.sh4Phase) 512 0 0 0
    .shifterLast setup).setMulCarry p.mulCarry

/-- The regions of the wave RAM that the job reads. -/
def readback (f : Ram) : List (BitVec 8) :=
  j.reads.flatMap fun r =>
    (List.range r.2.toNat).map fun i => f (DcArmBus.ramIndex (r.1 + BitVec.ofNat 32 i))

/-- What is returned after the loop. -/
@[simps]
def outcome (s : System Empty) : ModelRun where
  done := s.bus.block.scpuRaised
  cycles := if s.bus.block.scpuRaised then s.bus.block.scpuT else s.core.cycles
  readback := j.readback s.bus.ram

/-- `run_job_model`. A bus cycle takes an MCLK at least and an instruction 20 bus cycles at most, so
the rounds are enough. -/
def runJobModel : ModelRun :=
  match j.setup files with
  | none => {}
  | some setup =>
    j.outcome <| whileLoop (System.running p.maxCycles) System.busCycle (p.maxCycles + 20)
      (j.start p setup)

/-- A program that loads the address of MCIPD from the word at 8 and stores it there: its bit 5 is
SCPU. -/
def raising : HwJob where
  words := [(0, 0xE59F1000), (4, 0xE5811000), (8, 0x008028B8)]
  reads := [(8, 4)]

def raisingWords : List Setup := raising.words.map fun w => .word w.1 w.2

end HwJob

/-! ### The core out of reset -/

namespace System

variable {ρ : Type*} [AicaRegs ρ] {b : DcArmBus ρ} {stages : ℕ} {carry : MulCarry}

lemma construct_eq :
    construct stages carry b = System.busCycle^[3] ⟨Arm7DI.powerOn stages carry, b⟩ := by
  have h1 : (System.mk (Arm7DI.powerOn stages carry) b).busCycle.core.seq ≠ .idle :=
    fun h => Seq.noConfusion h
  have h2 : (System.mk (Arm7DI.powerOn stages carry) b).busCycle.busCycle.core.seq ≠ .idle :=
    fun h => Seq.noConfusion h
  have h3 : (System.mk (Arm7DI.powerOn stages carry) b).busCycle.busCycle.busCycle.core.seq =
      .idle := rfl
  rw [construct, untilBoundary, untilBoundary, untilBoundary, if_neg h1, if_neg h2, if_pos h3]
  rfl

/-- The reset entry reads the wave RAM only. -/
lemma entry_signals {k : ℕ} (hk : k < 3) :
    let c := (System.busCycle^[k] (System.mk (Arm7DI.powerOn stages carry) b)).drive.signals
    c.flags.write = false ∧ c.addr = if k = 2 then 4 else 0 := by
  obtain rfl | rfl | rfl : k = 0 ∨ k = 1 ∨ k = 2 := by omega
  · exact ⟨rfl, rfl⟩
  · exact ⟨rfl, rfl⟩
  · exact ⟨rfl, rfl⟩

/-- What a job puts into the bus raises nothing. -/
lemma scpu_setUp (setup : List Setup) (h0 : b.block.scpu = none) :
    (setup.foldl setUp b).block.scpu = none := by
  induction setup generalizing b with
  | nil => exact h0
  | cons x xs ih =>
    cases x with
    | load addr data => exact ih (by rw [setUp, DcArmBus.load_block, h0])
    | word addr v => exact ih h0
    | areg off v => exact ih ((RegBlock.scpu_wreg _ _ _).trans h0)

/-- A system at a boundary that has raised nothing yet. -/
structure Ready (s : System ρ) : Prop where
  boundary : s.core.atBoundary
  slots : s.bus.SlotsOk
  scpu : s.bus.block.scpu = none

omit [AicaRegs ρ] in
lemma Ready.setMulCarry {s : System ρ} (h : s.Ready) (c : Option MulCarry) :
    (s.setMulCarry c).Ready := by
  cases c with
  | none => exact h
  | some c => exact ⟨h.boundary, h.slots, h.scpu⟩

lemma ready_construct (hb : b.SlotsOk) (h0 : b.block.scpu = none) :
    (construct stages carry b).Ready := by
  refine ⟨construct_seq stages carry b, ?_, ?_⟩ <;> rw [construct_eq]
  · exact slotsOk_after hb 3
  · refine scpu_before hb h0 fun k hk hr => ?_
    have hw := hr.1.2.2
    rw [(entry_signals hk).1] at hw
    cases hw

omit [AicaRegs ρ] in
lemma Ready.attach {s : System ρ} (h : s.Ready) : s.attach.Ready :=
  ⟨h.boundary, h.slots.setBlock (RegBlock.marks_of_store rfl fun _ _ => rfl), h.scpu⟩

lemma ready_job (cfg : DcConfig) (period phase latency stages : ℕ) (carry : MulCarry)
    (setup : List Setup) :
    (job cfg period phase latency stages carry setup : System ρ).Ready := by
  obtain ⟨hok, -⟩ := setUp_detached (ρ := ρ) setup
    (DcArmBus.slotsOk_new cfg period phase latency) rfl
  exact (ready_construct hok (scpu_setUp setup rfl)).attach

/-! ### The loop -/

variable {s : System ρ} {n : ℕ}

lemma le_cycles (s : System ρ) (n : ℕ) : n ≤ (System.busCycle^[n] s).core.cycles := by
  induction n with
  | zero => exact Nat.zero_le _
  | succ n ih =>
    rw [Function.iterate_succ_apply', busCycle_cycles]
    omega

/-- The next boundary of a system is near. -/
lemma boundary_near (hb : s.core.atBoundary) (n : ℕ) :
    ∃ m, n < m ∧ m ≤ n + 20 ∧ (System.busCycle^[m] s).core.atBoundary := by
  obtain ⟨inp, hf⟩ := exists_feeds s
  have hnear : ∃ m, n < m ∧ m ≤ n + 20 ∧ (Arm7DI.core.after s.core inp m).atBoundary :=
    Arm7DI.isa_follows.rests_within ⟨hb, rfl⟩ Arm7DI.burst_length_le n
  obtain ⟨m, hnm, hm, hr⟩ := hnear
  refine ⟨m, hnm, hm, ?_⟩
  rw [Arm7DI.atBoundary, hf.field (·.seq) fun u l => by cases l <;> rfl]
  exact hr

omit [AicaRegs ρ] in
lemma running_eq_false {maxCycles : ℕ} : s.running maxCycles = false ↔ s.core.atBoundary ∧
    (s.bus.block.scpuRaised = true ∨ maxCycles ≤ s.core.cycles) := by
  rw [running]
  by_cases hb : s.core.atBoundary <;> cases s.bus.block.scpuRaised <;> simp [hb]

omit [AicaRegs ρ] in
/-- A boundary at which the loop goes on. -/
lemma unfinished {maxCycles : ℕ} (hr : s.running maxCycles = true) (hb : s.core.atBoundary) :
    s.bus.block.scpuRaised = false ∧ s.core.cycles < maxCycles := by
  rw [running, decide_eq_true hb] at hr
  simpa using hr

/-- The loop of a job ends. -/
lemma running_ends (hb : s.core.atBoundary) (maxCycles : ℕ) :
    ∃ m ≤ maxCycles + 20, (System.busCycle^[m] s).running maxCycles = false := by
  obtain ⟨m, hlt, hm, hr⟩ := boundary_near hb maxCycles
  exact ⟨m, hm, running_eq_false.mpr ⟨hr, .inr (hlt.le.trans (le_cycles s m))⟩⟩

/-- The stores of the first `n` bus cycles. -/
lemma ram_after (s : System ρ) (n : ℕ) : (System.busCycle^[n] s).bus.ram =
    (List.range n).foldl (fun f k => (System.busCycle^[k] s).drive.signals.stored f) s.bus.ram := by
  induction n with
  | zero => rfl
  | succ n ih =>
    rw [Function.iterate_succ_apply', busCycle_ram, ih, List.range_succ, List.foldl_append]
    rfl

end System

namespace HwJob

variable {files : String → Option (List (BitVec 8))} {j : HwJob} {p : JobArgs} {setup : List Setup}

lemma ready_start (j : HwJob) (p : JobArgs) (setup : List Setup) : (j.start p setup).Ready :=
  (System.ready_job _ _ _ _ _ _ setup).setMulCarry _

/-- The run of a job: its bus cycles, and what is returned after them. -/
lemma runJobModel_eq (hj : j.setup files = some setup) : ∃ n ≤ p.maxCycles + 20,
    (System.busCycle^[n] (j.start p setup)).running p.maxCycles = false ∧
    (∀ i < n, (System.busCycle^[i] (j.start p setup)).running p.maxCycles = true) ∧
    runJobModel files j p = j.outcome (System.busCycle^[n] (j.start p setup)) := by
  obtain ⟨m, hm, hstop⟩ := System.running_ends (ready_start j p setup).boundary p.maxCycles
  obtain ⟨n, hn, heq, hend, hrun⟩ := whileLoop_ends hm hstop
  refine ⟨n, hn.trans hm, hend, hrun, ?_⟩
  rw [runJobModel, hj]
  dsimp only
  rw [heq]

end HwJob

/-! ### The timing of a job -/

namespace System

variable {ρ : Type*} [AicaRegs ρ] {b b' : DcArmBus ρ} {stages : ℕ} {carry : MulCarry}

lemma setUp_ram (setup : List Setup) (h : b'.ram = b.ram) :
    (setup.foldl setUp b').ram = (setup.foldl setUp b).ram := by
  have hload (addr : Word) (data : List (BitVec 8)) : ∀ {c c' : DcArmBus ρ}, c'.ram = c.ram →
      (DcArmBus.load addr data c').ram = (DcArmBus.load addr data c).ram := by
    induction data generalizing addr with
    | nil => exact id
    | cons v vs ih =>
      intro c c' hc
      refine ih _ ?_
      rw [DcArmBus.wr8, DcArmBus.wr8, DcArmBus.setRam_ram, DcArmBus.setRam_ram, hc]
  induction setup generalizing b b' with
  | nil => exact h
  | cons x xs ih =>
    cases x with
    | load addr data => exact ih (hload addr data h)
    | word addr v => exact ih (by rw [setUp, setUp, DcArmBus.wr32_ram, DcArmBus.wr32_ram, h])
    | areg off v => exact ih h

lemma timeless_entry {k : ℕ} (hk : k < 3) :
    (System.busCycle^[k] (System.mk (Arm7DI.powerOn stages carry) b)).Timeless where
  reads := by
    rw [Signals.readsRegister, (entry_signals hk).2]
    have hram : ∀ a : Word, a = 0 ∨ a = 4 → DcArmBus.inRam a = true := by
      rintro a (rfl | rfl) <;> decide
    rw [hram _ (by split_ifs <;> simp), Bool.not_true, Bool.and_false, Bool.false_and]
  masked hb := by
    obtain rfl | rfl | rfl : k = 0 ∨ k = 1 ∨ k = 2 := by omega
    · exact (by decide : bit (mSvc.setWidth 32 ||| psrI ||| psrF) 6 = true)
    · exact Seq.noConfusion hb
    · exact Seq.noConfusion hb

/-- The reset entry is the same on every bus. -/
lemma retimed_construct (h : b'.ram = b.ram) :
    Retimed (construct stages carry b) (construct stages carry b') := by
  rw [construct_eq, construct_eq]
  exact Retimed.run (s := ⟨Arm7DI.powerOn stages carry, b⟩)
    (t := ⟨Arm7DI.powerOn stages carry, b'⟩) ⟨.refl _, h⟩ fun k hk => timeless_entry hk

omit [AicaRegs ρ] in
lemma Retimed.setMulCarry {s t : System ρ} (h : Retimed s t) (c : Option MulCarry) :
    Retimed (s.setMulCarry c) (t.setMulCarry c) := by
  cases c with
  | none => exact h
  | some c =>
    obtain ⟨⟨τ, hτ, hl⟩, hram⟩ := h
    exact ⟨⟨τ, congrArg (fun u : Arm7DI => { u with mulCarry := c }) hτ, hl⟩, hram⟩

omit [AicaRegs ρ] in
lemma Retimed.attach {s t : System ρ} (h : Retimed s t) : Retimed s.attach t.attach :=
  ⟨h.core, h.ram⟩

lemma retimed_job (cfg cfg' : DcConfig) (period phase latency : ℕ) (setup : List Setup) :
    Retimed (job cfg period phase latency stages carry setup : System ρ)
      (job cfg' period phase latency stages carry setup : System ρ) := by
  have hram := @setUp_ram ρ _ (DcArmBus.new cfg period phase latency)
    (DcArmBus.new cfg' period phase latency) setup rfl
  exact (retimed_construct hram).attach

/-- SCPU is raised in the same bus cycle. -/
lemma Retimed.raised {s t : System ρ} (h : Retimed s t) (hs : s.Ready) (ht : t.Ready) {n m : ℕ}
    (htime : ∀ k < n, (System.busCycle^[k] s).Timeless) (hm : m ≤ n) :
    (System.busCycle^[m] t).bus.block.scpuRaised =
      (System.busCycle^[m] s).bus.block.scpuRaised := by
  have hsig : ∀ k < m, t.RaisesAt k ↔ s.RaisesAt k := fun k hk => by
    have hrun : Retimed (System.busCycle^[k] s) (System.busCycle^[k] t) :=
      h.run fun i hi => htime i (by omega)
    rw [RaisesAt, RaisesAt, (hrun.step (htime k (by omega))).1]
  rw [Bool.eq_iff_iff, scpuRaised_iff hs.slots hs.scpu, scpuRaised_iff ht.slots ht.scpu]
  exact exists_congr fun k => and_congr_right fun hk => hsig k hk

end System

namespace HwJob

variable {files : String → Option (List (BitVec 8))} {j : HwJob} {p q : JobArgs}
  {setup : List Setup}

end HwJob

end Wren7
