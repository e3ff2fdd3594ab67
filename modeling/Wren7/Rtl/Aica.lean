import Wren7.Rtl.Core

/-!
# The AICA wrapper

`wren7_aica.sv`: the core on the port of the sound system.
-/

namespace Wren7.Rtl

open Bits

/-- The inputs of the wrapper. -/
structure AicaPins where
  rst : Bool
  ce : Bool
  armRdata : Word
  armAck : Bool
  armFiq : Bool

/-- The core's pins: there is no hold, no nIRQ and no ABORT. -/
def AicaPins.core (i : AicaPins) : Pins where
  rst := i.rst
  ce := i.ce
  levels := { hold := false, fiq := i.armFiq, irq := false }
  busAck := i.armAck
  busRdata := i.armRdata
  busAbort := false

/-- The outputs of the wrapper: a request for a word, with byte enables. -/
structure ArmPort where
  req : Bool
  we : Bool
  ram : Bool
  lock : Bool
  addr : BitVec 21
  wdata : Word
  be : BitVec 4
  deriving DecidableEq, Repr

def armRam (a : Word) : Bool := !bit a 23

def armAddr (a : Word) : BitVec 21 :=
  if armRam a then (field a 2 19 ++ 0#2 : BitVec 21) else (0#6 ++ field a 2 13 ++ 0#2 : BitVec 21)

def armBe (a : Word) (byte : Bool) : BitVec 4 := if byte then 1#4 <<< (a.setWidth 2).toNat else 0xF

/-- What the wrapper drives from the core's outputs. -/
def Core.Outputs.arm (o : Core.Outputs) : ArmPort where
  req := o.req
  we := o.flags.write
  ram := armRam o.addr
  lock := o.flags.lock
  addr := armAddr o.addr
  wdata := o.wdata
  be := armBe o.addr o.flags.byte

/-- `wren7_aica` drives its port, and takes a clock. -/
def Core.arm (c : Core) : ArmPort := c.outputs.arm

def Core.armClock (c : Core) (i : AicaPins) : Core := c.clock i.core

end Wren7.Rtl
