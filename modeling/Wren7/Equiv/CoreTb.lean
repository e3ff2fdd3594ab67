import Wren7.Equiv.LockStep
import Wren7.Reactive.Checked
import Wren7.System.Basic

/-!
# The test bench

`tb/core_tb.cpp`: the model runs on its bus and every bus cycle it makes is replayed on the RTL,
whose requests and whose state at the boundaries must be the model's. In chaos mode the bench disturbs
both: more waits, aborts, moves of the lines, nRESET, clocks with `ce` low and stray acknowledges.
-/

namespace Wren7

open Bits Rtl Reactive Checked

/-- Where the states are compared. -/
inductive Place
  | boundary
  | atEnd

/-- What the bench reports. -/
inductive Mismatch
  | pc (p : Place)
  | cpsr (p : Place)
  | ex (p : Place)
  | reg (p : Place)
  | spsr (p : Place)
  | internalWait
  | clock
  | request
  | boundary
  | requestChanged
  | notAtBoundary

/-- The model's bus with the RTL slaved to it: `sys` are the model and the inner bus. -/
structure Lock (ρ : Type*) where
  sys : System ρ
  /-- The RTL and its input pins. -/
  T : Core
  pins : Pins
  /-- RTL clocks with `ce` since the reset release. -/
  now : ℕ
  /-- The next cycle begins an instruction or an entry. -/
  bound : Bool
  /-- The bench knows the model. -/
  cpu : Bool
  chaos : Bool
  /-- Registers are compared at every boundary, else at the end only. -/
  fullCheck : Bool
  holdLvl : Bool
  /-- The random numbers still to be drawn. -/
  rng : ℕ → BitVec 64

/-- The system's core gets a new nFIQ input from the bench. -/
def System.setFiq {ρ : Type*} (s : System ρ) (b : Bool) : System ρ :=
  ⟨s.core.setFiq b, s.bus.setBlock (s.bus.block.setLine b)⟩

namespace Lock

variable {ρ : Type*} (L : Lock ρ)

/-! ### The RTL's side -/

def clock : Lock ρ := { L with T := L.T.clock L.pins }

/-- `n` random numbers have been drawn. -/
@[simps]
def drawn (n : ℕ) : Lock ρ := { L with rng := fun k => L.rng (n + k) }

@[simps]
def drive (ack : Bool) (rdata : Word) (abort : Bool) : Lock ρ :=
  { L with pins := { L.pins with busAck := ack, busRdata := rdata, busAbort := abort } }

@[simps]
def setCe (ce : Bool) : Lock ρ := { L with pins := { L.pins with ce := ce } }

/-- The RTL asks for the model's bus cycle. -/
def Requests (c : BusCycle) : Prop :=
  L.T.outputs.type = c.type ∧ L.T.outputs.req = c.type.isMem ∧ L.T.outputs.addr = c.addr ∧
    L.T.outputs.flags = c.flags ∧ (c.flags.write = true → L.T.outputs.wdata = c.wdata)

instance (c : BusCycle) : Decidable (L.Requests c) := inferInstanceAs (Decidable (_ ∧ _))

/-! ### The comparison of the states -/

def psr11 (p : Word) : Word := ((p >>> 28) <<< 7) ||| (((p >>> 6) &&& 3) <<< 5) ||| (p &&& 0x1F)

/-- The RTL's register for a PSR: `N Z C V I F M[4:0]`. -/
def packed (p : Psr) : Word :=
  maskIf p.n 0x400 ||| maskIf p.z 0x200 ||| maskIf p.c 0x100 ||| maskIf p.v 0x80 |||
    maskIf p.i 0x40 ||| maskIf p.f 0x20 ||| p.m.setWidth 32

/-- The register and the bank of physical register `i`. -/
def regOf (i : ℕ) : Reg × Bank :=
  if i < 15 then (BitVec.ofNat 4 i, .usr)
  else if i < 22 then (BitVec.ofNat 4 (8 + i - 15), .fiq)
  else (BitVec.ofNat 4 (13 + (i - 22) % 2), [Bank.irq, .svc, .abt, .und].getD ((i - 22) / 2) .usr)

/-- `check_state`: the RTL's architectural state against the model's `u`. -/
def checkState (u : Arm7DI) (p : Place) (full : Bool) : Except Mismatch PUnit :=
  if !L.cpu then .ok ⟨⟩
  else do
    check (L.T.regs.pc = u.pc) (.pc p)
    check (cpsr32 L.T.regs = u.cpsr) (.cpsr p)
    check (L.T.regs.exW = u.ex.word) (.ex p)
    if !full then .ok ⟨⟩
    else do
      check (∀ i ∈ List.range 30,
        L.T.uRf.memA (BitVec.ofNat 5 i) = u.gpr (Wren7.phys (regOf i).1 (regOf i).2)) (.reg p)
      check (∀ b ∈ [Bank.fiq, .irq, .svc, .abt, .und],
        packed (L.T.regs.spsr b) = psr11 (u.spsr b)) (.spsr p)

/-! ### A boundary -/

/-! In chaos a random number moves the lines at a boundary. -/

def shakeFiq (x : BitVec 64) : Lock ρ :=
  if x &&& 63 = 0 then { L with sys := L.sys.setFiq !L.sys.core.fiqIn } else L

def shakeIrq (x : BitVec 64) : Lock ρ :=
  if (x >>> 6) &&& 63 = 0 then
    { L with sys := ⟨L.sys.core.setIrq !L.sys.core.irqIn, L.sys.bus⟩ }
  else L

/-- nRESET moves to a level. -/
def setHold (b : Bool) : Lock ρ :=
  { L with holdLvl := b, sys := ⟨L.sys.core.setReset b, L.sys.bus⟩ }

def shakeReset (x : BitVec 64) : Lock ρ :=
  if !L.holdLvl && (x >>> 12) &&& 4095 = 0 then L.setHold true
  else if L.holdLvl && (x >>> 24) &&& 7 = 0 then L.setHold false
  else L

def disturb : Lock ρ :=
  let x := L.rng 0
  (((L.drawn 1).shakeFiq x).shakeIrq x).shakeReset x

def tick (t : ℕ) : Lock ρ :=
  let L := { L with sys := L.sys.tick t }
  let L := if L.chaos && L.cpu then L.disturb else L
  { L with bound := true }

/-! ### A bus cycle -/

/-- The pins in a clock with `ce`: the answer in the last one of a memory cycle, else random. -/
def answerPins (mem last : Bool) (r : BusResult) : Lock ρ :=
  if mem then
    if last then L.drive true r.rdata r.abort
    else (L.drawn 2).drive false ((L.rng 0).setWidth 32) (bit (L.rng 1) 0)
  else (L.drawn 3).drive (bit (L.rng 0) 0) ((L.rng 1).setWidth 32) (bit (L.rng 2) 0)

/-- A clock with `ce`. -/
def step (mem last : Bool) (r : BusResult) : Lock ρ :=
  let L := (L.answerPins mem last r).clock
  { L with now := L.now + 1 }

/-- In chaos, a clock with `ce` low inside the cycle. -/
def pause : Lock ρ :=
  if L.chaos then
    if L.rng 0 &&& 7 = 0 then
      let L := (L.drawn 2).setCe false |>.drive (bit (L.rng 1) 0) L.pins.busRdata L.pins.busAbort
      L.clock.setCe true
    else L.drawn 1
  else L

/-- In chaos, a clock with `ce` low before the first one of the cycle. -/
def stray : Lock ρ :=
  if L.chaos then
    if L.rng 0 &&& 7 = 0 then
      let L := (L.drawn 3).setCe false |>.drive (bit (L.rng 1) 0) 0 (bit (L.rng 2) 0)
      (L.clock.setCe true).drive false 0 false
    else L.drawn 1
  else L

/-- The clocks of a cycle, with `n` waits before the last one. -/
def clocks (c : BusCycle) (r : BusResult) : ℕ → Lock ρ → Except Mismatch (Lock ρ)
  | 0, L => .ok (L.step c.type.isMem true r)
  | n + 1, L => do
    let L := L.step c.type.isMem false r
    check (L.T.outputs.addr = c.addr ∧ L.T.outputs.req = c.type.isMem) .requestChanged
    clocks c r n L.pause

/-- The levels are presented in the first cycle from a boundary. -/
def present (fiq irq : Bool) : Lock ρ :=
  if L.bound then
    { L with pins := { L.pins with levels := ⟨L.holdLvl, L.cpu && fiq, L.cpu && irq⟩ } }
  else L

/-- The RTL's request and its state at a boundary, against the model's cycle and its state `u`. -/
def compare (c : BusCycle) (u : Arm7DI) : Except Mismatch PUnit := do
  check (L.Requests c) .request
  check (L.T.dbgBoundary = L.bound) .boundary
  if L.bound then L.checkState u .boundary L.fullCheck else .ok ⟨⟩

def setBound (b : Bool) : Lock ρ := { L with bound := b }

/-- The cycle is over: the acknowledge is withdrawn, and the model and its bus have moved on. -/
def finish (sys : System ρ) : Lock ρ := { L.drive false L.pins.busRdata false with sys := sys }

variable [AicaRegs ρ]

/-- The answer of the inner bus, in chaos with more waits and aborts. -/
def answer (c : BusCycle) : BusResult × Lock ρ :=
  let r := (L.sys.bus.cycle c).1
  if L.chaos && c.type.isMem then
    let x := L.rng 0
    ({ r with
        wait := r.wait + if x &&& 15 = 0 then (x >>> 4).toNat % 6 else 0
        abort := r.abort || (x >>> 8) &&& 255 = 0 }, L.drawn 1)
  else (r, L)

/-- `cycle`, and what the model does with the answer. -/
def cycle : Except Mismatch (Lock ρ) := do
  let u := L.sys.core
  let c := u.busCycle.bus
  let bus := (L.sys.bus.cycle c).2
  let fiq := bus.line u.fiqIn
  let r := (L.answer c).1
  check (c.type.isMem = true ∨ r.wait = 0) .internalWait
  check (L.now = c.t) .clock
  let L := (((L.answer c).2.present fiq u.irqIn).drive false 0 false).stray
  L.compare c u.start
  let L ← clocks c r r.wait (L.setBound false)
  .ok (L.finish ⟨u.busCycle.next ⟨r, fiq, u.irqIn⟩, bus⟩)

/-- The model's `bus_cycle()` on the bench. -/
def busCycle : Except Mismatch (Lock ρ) :=
  (if L.sys.core.seq = .idle then L.tick L.sys.core.cycles else L).cycle

/-! ### A run -/

/-- The bench before the model is constructed: `T` is the RTL after two clocks of `rst`. -/
def new (bus : DcArmBus ρ) (T : Core) (chaos fullCheck : Bool) (rng : ℕ → BitVec 64) : Lock ρ where
  sys := ⟨Arm7DI.powerOn 0 .shifterLast, bus⟩
  T := T
  pins := ⟨false, true, ⟨false, false, false⟩, false, 0, false⟩
  now := 0
  bound := false
  cpu := false
  chaos := chaos
  fullCheck := fullCheck
  holdLvl := false
  rng := rng

def atBoundary : Bool := L.sys.core.seq = .idle

/-- `do bus_cycle(); while (seq_ != SQ_IDLE);` in `power_on`. -/
def powerOn (fuel : ℕ) (L : Lock ρ) : Except Mismatch (Lock ρ) := do
  loop (!·.atBoundary) (·.busCycle) fuel (← L.busCycle)

omit [AicaRegs ρ] in
/-- `L.cpu = &cpu; bus.attach(&cpu);` -/
def attach : Lock ρ := { L with cpu := true, sys := L.sys.attach }

/-- The run goes on: between boundaries, and at one until `stop` or `max` cycles. -/
def running (stop : System ρ → Bool) (max : ℕ) (L : Lock ρ) : Bool :=
  !L.atBoundary || (!stop L.sys && L.sys.core.cycles < max)

/-- `run_one`: from power-on until `stop` at a boundary, or `max` cycles. -/
def runOne (stop : System ρ → Bool) (max fuel : ℕ) (L : Lock ρ) : Except Mismatch (Lock ρ) := do
  let L ← L.powerOn fuel
  let L ← loop (running stop max) (·.busCycle) fuel L.attach
  check (L.T.dbgBoundary = true) .notAtBoundary
  L.checkState L.sys.core .atEnd true
  .ok L

end Lock

end Wren7
