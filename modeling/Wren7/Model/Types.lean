import Wren7.Bits.Words

/-!
# Bus cycles, modes and banks

The types of `arm7di.h` that the core, its bus and the RTL share.
-/

namespace Wren7

open Bits

/-- A register field of an instruction word. -/
abbrev Reg := BitVec 4

/-- Cycle type of a bus cycle, encoded as `{nMREQ, SEQ}` (data sheet Table 6). -/
inductive CycleType
  | N | S | I | C
  deriving DecidableEq, Repr, Inhabited

/-- The two announced wires of a cycle type. -/
def CycleType.code : CycleType → BitVec 2
  | .N => 0
  | .S => 1
  | .I => 2
  | .C => 3

/-- N and S cycles access memory; I and C cycles do not. -/
def CycleType.isMem : CycleType → Bool
  | .N | .S => true
  | .I | .C => false

/-- `BusFlags`: nRW high, nBW low, nOPC low, LOCK high, nTRANS low. -/
structure BusFlags where
  write : Bool := false
  byte : Bool := false
  opc : Bool := false
  lock : Bool := false
  user : Bool := false
  deriving DecidableEq, Repr

/-- What the core drives in one bus cycle. -/
structure BusCycle where
  t : ℕ
  addr : Word
  wdata : Word
  type : CycleType
  flags : BusFlags
  deriving DecidableEq, Repr

/-- What the memory system answers. -/
structure BusResult where
  rdata : Word
  wait : ℕ
  abort : Bool
  deriving DecidableEq, Repr

/-- The answer to one call of `Arm7Bus::cycle`: the result, and the levels the two interrupt
inputs have when the call returns (the bus may move them from within). -/
structure Answer extends BusResult where
  fiq : Bool
  irq : Bool
  deriving DecidableEq, Repr

/-- Register banks. -/
inductive Bank
  | usr | fiq | irq | svc | abt | und
  deriving DecidableEq, Repr

/-- `B_USR = 0` to `B_UND = 5`. -/
def Bank.code : Bank → BitVec 3
  | .usr => 0
  | .fiq => 1
  | .irq => 2
  | .svc => 3
  | .abt => 4
  | .und => 5

/-! ### Processor modes and PSR bits -/

def mUsr : BitVec 5 := 0x10
def mFiq : BitVec 5 := 0x11
def mIrq : BitVec 5 := 0x12
def mSvc : BitVec 5 := 0x13
def mAbt : BitVec 5 := 0x17
def mUnd : BitVec 5 := 0x1B

def psrN : Word := 0x80000000
def psrZ : Word := 0x40000000
def psrC : Word := 0x20000000
def psrV : Word := 0x10000000
def psrI : Word := 0x80
def psrF : Word := 0x40
def psrM : Word := 0x1F

/-- The PSR bits that exist; the reserved ones are not stored. -/
def psrImpl : Word := 0xF00000DF

/-- The mode field of a PSR (`psr & PSR_M`). -/
def modeOf (psr : Word) : BitVec 5 := field psr 0 5

/-- `MULC_KEEP`, `MULC_ALU_LAST`, `MULC_SHIFTER_LAST`: where MULS takes its carry from. -/
inductive MulCarry
  | keep | aluLast | shifterLast
  deriving DecidableEq, Repr

end Wren7
