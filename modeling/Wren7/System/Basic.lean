import Wren7.Aica.Harness
import Wren7.Model.Exec

/-!
# The core on its bus

`Arm7DI` with a `DcArmBus` behind it, as the harness couples them. The bus moves the core's nFIQ
line while it serves a cycle or a tick; the core calls `tick` at every instruction boundary.
-/

namespace Wren7

open Bits Reactive

namespace Arm7DI

variable (s : Arm7DI)

@[simp] lemma start_fiqIn : s.start.fiqIn = s.fiqIn :=
  start_field fiqIn (fun _ _ => rfl) (fun _ _ => rfl) (fun _ _ => rfl) (fun _ _ => rfl)
    (fun _ _ => rfl) s

@[simp] lemma start_irqIn : s.start.irqIn = s.irqIn :=
  start_field irqIn (fun _ _ => rfl) (fun _ _ => rfl) (fun _ _ => rfl) (fun _ _ => rfl)
    (fun _ _ => rfl) s

@[simp] lemma start_cycles : s.start.cycles = s.cycles :=
  start_field cycles (fun _ _ => rfl) (fun _ _ => rfl) (fun _ _ => rfl) (fun _ _ => rfl)
    (fun _ _ => rfl) s

/-- The lines and the clock after a bus cycle. -/
lemma next_lines (a : Answer) :
    (s.busCycle.next a).lines = s.start.lines.sampled s.nextType.isMem a := by
  have h := congrArg lines ((commutes_sequence s.start s.start.lines).2 a)
  rw [start_nextType] at h
  exact h

lemma next_fiqIn (a : Answer) : (s.busCycle.next a).fiqIn = a.fiq :=
  congrArg Lines.fiqIn (s.next_lines a)

lemma next_irqIn (a : Answer) : (s.busCycle.next a).irqIn = a.irq :=
  congrArg Lines.irqIn (s.next_lines a)

lemma next_cycles (a : Answer) : (s.busCycle.next a).cycles = s.cycles + 1 + a.wait := by
  rw [show (s.busCycle.next a).cycles = s.start.cycles + 1 + a.wait from
    congrArg Lines.cycles (s.next_lines a), start_cycles]

lemma bus_t : s.busCycle.bus.t = s.cycles := by
  have h := congrArg BusCycle.t (commutes_sequence s.start s.start.lines).1
  rw [← start_cycles]
  exact h

end Arm7DI

/-- The core and the bus it is constructed on. -/
structure System (ρ : Type*) where
  core : Arm7DI
  bus : DcArmBus ρ

namespace DcArmBus

variable {ρ : Type*}

/-- A core's nFIQ input after the bus has had the chance to move it. -/
def line (b : DcArmBus ρ) (level : Bool) : Bool := b.block.core.getD level

end DcArmBus

namespace System

variable {ρ : Type*}

section

variable (s : System ρ)

/-- `DcArmBus::tick`, from the core or from the harness. -/
def tick (t : ℕ) : System ρ := ⟨s.core.setFiq ((s.bus.tick t).line s.core.fiqIn), s.bus.tick t⟩

/-- What a bus cycle begins with: at a boundary, `Arm7Bus::tick()`. -/
def boundary : System ρ := if s.core.seq = .idle then s.tick s.core.cycles else s

/-- The bus cycle that the core drives. -/
def drive : BusCycle := s.boundary.core.busCycle.bus

end

variable [AicaRegs ρ] (s : System ρ)

/-- What the core sees at the end of the cycle. -/
def answer : Answer :=
  let r := s.boundary.bus.cycle s.drive
  ⟨r.1, r.2.line s.boundary.core.fiqIn, s.boundary.core.irqIn⟩

/-- `bus_cycle()`. -/
def busCycle : System ρ :=
  ⟨s.boundary.core.busCycle.next s.answer, (s.boundary.bus.cycle s.drive).2⟩

/-! ### The harness -/

/-- `do bus_cycle(); while (seq_ != SQ_IDLE);` -/
def untilBoundary : (fuel : ℕ) → System ρ → System ρ
  | 0, s => s
  | fuel + 1, s =>
    if s.busCycle.core.seq = .idle then s.busCycle else untilBoundary fuel s.busCycle

end System

/-- What a job sets up before the core is constructed. -/
inductive Setup
  | load (addr : Word) (data : List (BitVec 8))
  | word (addr v : Word)
  | areg (off : Word) (v : BitVec 16)

namespace System

variable {ρ : Type*} [AicaRegs ρ]

def setUp (b : DcArmBus ρ) : Setup → DcArmBus ρ
  | .load addr data => DcArmBus.load addr data b
  | .word addr v => b.wr32 addr v
  | .areg off v => b.regWrite off v

/-- `Arm7DI cpu(&bus)`: the reset entry takes the first three cycles, on a bus that does not know the
core yet. -/
def construct (stages : ℕ) (carry : MulCarry) (b : DcArmBus ρ) : System ρ :=
  untilBoundary 3 ⟨Arm7DI.powerOn stages carry, b⟩

/-- `bus.attach(&cpu)`. -/
def attach (s : System ρ) : System ρ := ⟨s.core, s.bus.attach s.core.fiqIn⟩

/-- The system at the start of a job. -/
def job (cfg : DcConfig) (period phase latency stages : ℕ) (carry : MulCarry)
    (setup : List Setup) : System ρ :=
  (construct stages carry (setup.foldl setUp (DcArmBus.new cfg period phase latency))).attach

end System

end Wren7
