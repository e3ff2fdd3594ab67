import Mathlib.Logic.Function.Basic
import Mathlib.Tactic.Common
import Mathlib.Tactic.Simps.Basic
import Wren7.Model.Types
import Wren7.Reactive.Machine

/-!
# The AICA register block and its interrupt controller

The registers of `DcArmBus` (`dc_arm_map.h` / `dc_arm_map.cpp`): `rreg`, `wreg`,
`update_interrupts`, `sample_clock` and the register lanes of `cycle`. The wave RAM, the wait
states and the slot search of the bus are not part of the block; they read its registers only.
-/

namespace Wren7

open Bits

/-- A register: the number of its 32-bit slot in the 32 KB register space. -/
abbrev RegNo := BitVec 13

/-- The register at a byte offset (`off & 0x7FFC`). -/
def regNo (off : Word) : RegNo := field off 2 13

def regL : RegNo := regNo 0x2D00
def regM : RegNo := regNo 0x2D04
def scieb : RegNo := regNo 0x289C
def scipd : RegNo := regNo 0x28A0
def scire : RegNo := regNo 0x28A4
def scilv0 : RegNo := regNo 0x28A8
def mcipd : RegNo := regNo 0x28B8

/-- `AicaRegs`: a register block of the harness in place of the internal store. -/
class AicaRegs (ρ : Type*) where
  read16 : ρ → RegNo → BitVec 16 × ρ
  write16 : ρ → RegNo → BitVec 16 → BitVec 16 → ρ

/-- The register part of a `DcArmBus`. -/
structure RegBlock (ρ : Type*) where
  store : RegNo → BitVec 16
  /-- The controller holds a request: in service until the write of M. -/
  e68kOut : Bool
  /-- nFIQ is asserted: from the request until the ARM reads L. -/
  fiq : Bool
  e68kL : Word
  /-- The nFIQ input of the attached core, which is all that the bus touches of it. -/
  core : Option Bool
  /-- The register hook; without one the internal store is used. -/
  regs : Option ρ
  slotsDirty : Bool
  samplePeriod : ℕ
  samplePhase : ℕ
  edgeLatency : ℕ
  nextSample : ℕ
  sampleInit : Bool
  scpuRaised : Bool
  scpuT : ℕ

namespace RegBlock

variable {ρ : Type*}

/-- A new `DcArmBus` without a hook, with the sample clock as the harness sets it up and a core
attached or not. -/
def new (period phase latency : ℕ) (core : Option Bool) : RegBlock ρ where
  store := fun _ => 0
  e68kOut := false
  fiq := false
  e68kL := 0
  core := core
  regs := none
  slotsDirty := true
  samplePeriod := period
  samplePhase := phase
  edgeLatency := latency
  nextSample := 0
  sampleInit := false
  scpuRaised := false
  scpuT := 0

variable (s : RegBlock ρ)

@[simps -fullyApplied]
def setReg (r : RegNo) (v : BitVec 16) : RegBlock ρ :=
  { s with store := Function.update s.store r v }

/-- `if (core_) core_->set_fiq(level)`. -/
@[simps -fullyApplied]
def setLine (level : Bool) : RegBlock ρ := { s with core := s.core.map fun _ => level }

@[simps -fullyApplied]
def setOut (b : Bool) : RegBlock ρ := { s with e68kOut := b }

@[simps -fullyApplied]
def setFiq (b : Bool) : RegBlock ρ := { s with fiq := b }

@[simps -fullyApplied]
def setDirty (b : Bool) : RegBlock ρ := { s with slotsDirty := b }

@[simps -fullyApplied]
def setHook (h : ρ) : RegBlock ρ := { s with regs := some h }

@[simps -fullyApplied]
def setNext (t : ℕ) : RegBlock ρ := { s with nextSample := t }

@[simps -fullyApplied]
def initClock (t : ℕ) : RegBlock ρ := { s with nextSample := t, sampleInit := true }

@[simps -fullyApplied]
def raiseScpu (t : ℕ) : RegBlock ρ := { s with scpuRaised := true, scpuT := t }

/-! ### The interrupt controller -/

/-- The pending and enabled requests. -/
def pend : BitVec 16 := s.store scieb &&& s.store scipd &&& 0x7FF

/-- The level bit of a request: requests above 7 share bit 7. -/
def levelBit (p : BitVec 16) : ℕ := min p.ctz.toNat 7

/-- The level that SCILV0-2 assign to the lowest request. -/
def level : Word :=
  maskIf (bit (s.store scilv0) (levelBit s.pend)) 1 |||
    maskIf (bit (s.store (scilv0 + 1)) (levelBit s.pend)) 2 |||
    maskIf (bit (s.store (scilv0 + 2)) (levelBit s.pend)) 4

/-- A request is held from now on, and drives nFIQ. -/
@[simps -fullyApplied]
def hold (L : Word) : RegBlock ρ := { s with e68kOut := true, e68kL := L, fiq := true }

def updateInterrupts : RegBlock ρ :=
  let s :=
    if s.pend ≠ 0 ∧ s.e68kOut = false then if s.level ≠ 0 then s.hold s.level else s else s
  s.setLine s.fiq

/-! ### The sample clock -/

/-- The body of the sample clock's loop. -/
def edge : RegBlock ρ :=
  let s := (s.setReg scipd (s.store scipd ||| 0x400)).setReg mcipd (s.store mcipd ||| 0x400)
  let s := s.updateInterrupts
  s.setNext (s.nextSample + s.samplePeriod)

/-- The sample clock's loop; a pass moves the next edge, so `t + 1` passes are enough. -/
def edges (t : ℕ) : ℕ → RegBlock ρ → RegBlock ρ
  | 0, s => s
  | fuel + 1, s => if s.nextSample + s.edgeLatency ≤ t then edges t fuel s.edge else s

def sampleClock (t : ℕ) : RegBlock ρ :=
  if s.samplePeriod = 0 then s
  else
    let s := if s.sampleInit then s else s.initClock (s.samplePhase % s.samplePeriod)
    edges t (t + 1) s

/-! ### Register accesses -/

variable [AicaRegs ρ]

def rreg (r : RegNo) : BitVec 16 × RegBlock ρ :=
  if r = regL then
    -- interrupt acknowledge: releases nFIQ
    (s.e68kL.setWidth 16, if s.fiq then (s.setFiq false).setLine false else s)
  else if r = regM then (0, s)
  else if scilv0 ≤ r ∧ r ≤ scilv0 + 2 then (0, s)
  else match s.regs with
    | some h => ((AicaRegs.read16 h r).1, s.setHook (AicaRegs.read16 h r).2)
    | none => (s.store r, s)

def wreg (r : RegNo) (v mask : BitVec 16) : RegBlock ρ :=
  if r = regL then s
  else if r = regM then
    -- interrupt accept
    if bit (v &&& mask) 0 then (s.setOut false).updateInterrupts else s
  else match s.regs with
    | some h => (s.setHook (AicaRegs.write16 h r v mask)).updateInterrupts
    | none =>
      -- MPRO: the slot schedule changes
      let s := if regNo 0x3400 ≤ r ∧ r < regNo 0x3C00 then s.setDirty true else s
      let s :=
        if r = scipd then
          -- only SCPU (bit 5) is writable, as a set
          if bit (v &&& mask) 5 then s.setReg scipd (s.store scipd ||| 0x20) else s
        else if r = scire then s.setReg scipd (s.store scipd &&& ~~~(v &&& mask))
        else s.setReg r ((s.store r &&& ~~~mask) ||| (v &&& mask))
      s.updateInterrupts

/-! ### The two sides -/

/-- `reg_read`: the SH4 side. -/
def regRead (off : Word) : BitVec 16 × RegBlock ρ := s.rreg (regNo off)

/-- `reg_write`: the SH4 side. -/
def regWrite (off : Word) (v : BitVec 16) : RegBlock ρ := s.wreg (regNo off) v 0xFFFF

/-- `cycle` on the AICA registers, after its sample clock: 16 bits in the low half of each 32-bit
slot; byte lanes 2 and 3 read 0, and writes to them are dropped. -/
def regCycle (c : BusCycle) : BitVec 16 × RegBlock ρ :=
  let r := regNo c.addr
  let lane := (field c.addr 0 2).toNat
  if c.flags.write then
    let s :=
      if r = mcipd ∧ lane = 0 ∧ bit c.wdata 5 ∧ !s.scpuRaised then s.raiseScpu c.t else s
    (0,
      if !c.flags.byte then s.wreg r (field c.wdata 0 16) 0xFFFF
      else if lane < 2 then
        s.wreg r ((c.wdata &&& 0xFF).setWidth 16 <<< (8 * lane)) (0xFF <<< (8 * lane))
      else s)
  else s.rreg r

end RegBlock

end Wren7
