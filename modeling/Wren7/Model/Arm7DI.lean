import Mathlib.Data.Int.Notation
import Mathlib.Tactic.Simps.Basic
import Wren7.Model.Shifter

/-!
# The ARM7DI core model

`Arm7DI` of `arm7di.h` / `arm7di.cpp`, one bus cycle per step. A call of `bus_cycle()` drives
exactly one bus cycle and then works with the answer, so every sequencer function is a `Drive`:
the driven signals together with the state reached on each answer. Counters (`stats`) and traces
are not part of the state; no function of the core reads them.
-/

namespace Wren7

open Bits

/-- A fetched word and its prefetch abort. -/
structure Slot where
  word : Word
  abort : Bool
  deriving DecidableEq, Repr

/-- Cycle sequencer: which sequence is in progress. -/
inductive Seq
  | idle | reset | skip | dp | psr | mul | swp | sdt | bdt | branch | undefTrap | exc | refill
  deriving DecidableEq, Repr

/-- Latches of the sequence in progress. `list` holds the 16 bits of `op & 0xFFFF`. -/
structure InFlight where
  op : Word := 0
  addr : Word := 0
  calcAddr : Word := 0
  base : Word := 0
  wbv : Word := 0
  data : Word := 0
  list : BitVec 16 := 0
  newpc : Word := 0
  target : Word := 0
  mul : Word := 0
  acc : Word := 0
  vector : Word := 0
  mode : BitVec 5 := 0
  amt : ℕ := 0
  m : ℕ := 0
  r : ℕ := 0
  borrow : Bool := false
  bf : BusFlags := {}
  cin : Bool := false
  wb : Bool := false
  ab : Bool := false
  first : Bool := false
  pcLoaded : Bool := false
  userbank : Bool := false
  setF : Bool := false
  aluC : Bool := false
  shC : Bool := false
  fa : Slot := ⟨0, false⟩

structure Arm7DI where
  irqSyncStages : ℕ := 0
  mulCarry : MulCarry := .shifterLast
  cycles : ℕ
  seq : Seq
  k : ℕ
  x : InFlight
  gpr : Fin 31 → Word
  /-- R15: the executing address plus 8. -/
  pc : Word
  cpsr : Word
  spsr : Bank → Word
  ex : Slot
  de : Slot
  f1 : Slot
  nextType : CycleType
  lastAbort : Bool
  dabortPending : Bool
  inReset : Bool
  resetExit : Bool
  fiqIn : Bool
  irqIn : Bool
  fiqPipe : Word
  irqPipe : Word

/-- One bus cycle: the signals the core drives, and the state each answer leads to. -/
structure Drive where
  bus : BusCycle
  next : Answer → Arm7DI

/-! ### Register banks -/

/-- User, and the illegal mode values, use the user bank. -/
def bankOf (mode : BitVec 5) : Bank :=
  if mode = mFiq then .fiq
  else if mode = mIrq then .irq
  else if mode = mSvc then .svc
  else if mode = mAbt then .abt
  else if mode = mUnd then .und
  else .usr

/-- Physical register: 0-7 r0-r7, 8-14 r8-r14 usr, 15-21 r8-r14 fiq, 22/23 irq, 24/25 svc,
26/27 abt, 28/29 und. The value is below 31, so `Fin.ofNat` never wraps. -/
def phys (r : Reg) (b : Bank) : Fin 31 :=
  Fin.ofNat 31 <|
    if r < 8 then r.toNat
    else if b = .fiq then 15 + (r.toNat - 8)
    else if r < 13 ∨ b = .usr then r.toNat
    else 22 + 2 * (b.code.toNat - 2) + (r.toNat - 13)

/-- The effective shift amounts of a Booth step: `digit[8]`, indexed by
`{b(2k+1), b(2k), borrow}`. -/
def digit (b1 b0 borrow : Bool) : ℤ :=
  match b1, b0, borrow with
  | false, false, false => 0
  | false, false, true => 1
  | false, true, false => 1
  | false, true, true => 2
  | true, false, false => -2
  | true, false, true => -1
  | true, true, false => -1
  | true, true, true => 0

/-- `while (m < 16 && (x_.mul >> (2 * m - 1)) != 0) m++`; the guard bounds the fuel by 15. -/
def mulLoop (mul : Word) : (fuel m : ℕ) → ℕ
  | 0, m => m
  | fuel + 1, m => if m < 16 ∧ mul >>> (2 * m - 1) ≠ 0 then mulLoop mul fuel (m + 1) else m

/-- The number of Booth steps of a multiplier. -/
def mulSteps (mul : Word) : ℕ := mulLoop mul 15 1

/-- The addition of a Booth step, with the ALU's carry. -/
def boothAdd (d : ℤ) (acc m : Word) : Word × Bool :=
  if 0 < d then ((add acc m false).1, (add acc m false).2.1)
  else if d < 0 then ((add acc (~~~m) true).1, (add acc (~~~m) true).2.1)
  else (acc, false)

/-- The data-processing result: `switch (opc)` of `dp_finish`, as value, carry and overflow. -/
def dpAlu (opc : BitVec 4) (a b : Word) (cin sc v : Bool) : Word × Bool × Bool :=
  match opc with
  | 0x0 | 0x8 => (a &&& b, sc, v)
  | 0x1 | 0x9 => (a ^^^ b, sc, v)
  | 0x2 | 0xA => add a (~~~b) true
  | 0x3 => add b (~~~a) true
  | 0x4 | 0xB => add a b false
  | 0x5 => add a b cin
  | 0x6 => add a (~~~b) cin
  | 0x7 => add b (~~~a) cin
  | 0xC => (a ||| b, sc, v)
  | 0xD => (b, sc, v)
  | 0xE => (a &&& ~~~b, sc, v)
  | _ => (~~~b, sc, v)

/-- A loaded word as LDR and SWP deliver it: the byte lane, or the rotated word. -/
def loadVal (B : Bool) (data addr : Word) : Word :=
  if B then (data >>> (8 * (field addr 0 2).toNat)) &&& 0xFF
  else ror32 data (8 * (field addr 0 2).toNat)

/-- Write data: byte stores replicate the byte over all four lanes. -/
def storeVal (B : Bool) (v : Word) : Word := if B then (v &&& 0xFF) * 0x01010101 else v

/-- `__builtin_ctz` on a register list. -/
def ctz (l : BitVec 16) : ℕ := l.ctz.toNat

namespace Arm7DI

/-! ### State access -/

def bank (s : Arm7DI) : Bank := bankOf (modeOf s.cpsr)

/-- `user_flag()`: nTRANS. -/
def userFlag (s : Arm7DI) : Bool := modeOf s.cpsr == mUsr

/-- A register of the current mode; R15 reads as the given value. -/
def rd (s : Arm7DI) (r : Reg) (r15 : Word) : Word :=
  if r = 15 then r15 else s.gpr (phys r s.bank)

@[simps -fullyApplied]
def wrBank (s : Arm7DI) (r : Reg) (b : Bank) (v : Word) : Arm7DI :=
  { s with gpr := if r = 15 then s.gpr else Function.update s.gpr (phys r b) v }

/-- Writes of R15 through the register file are ignored. -/
@[simp] def wr (s : Arm7DI) (r : Reg) (v : Word) : Arm7DI := s.wrBank r s.bank v

/-- `spsr_cur`: in the user bank the CPSR. -/
def spsrCur (s : Arm7DI) : Word := if s.bank = .usr then s.cpsr else s.spsr s.bank

@[simps -fullyApplied]
def setSpsr (s : Arm7DI) (b : Bank) (v : Word) : Arm7DI :=
  { s with spsr := Function.update s.spsr b v }

def setSpsrCur (s : Arm7DI) (v mask : Word) : Arm7DI :=
  if s.bank = .usr then s
  else s.setSpsr s.bank (((s.spsr s.bank &&& ~~~mask) ||| (v &&& mask)) &&& psrImpl)

@[simps -fullyApplied]
def setCpsr (s : Arm7DI) (v : Word) : Arm7DI := { s with cpsr := v }

@[simp] def writeCpsr (s : Arm7DI) (v mask : Word) : Arm7DI :=
  s.setCpsr (((s.cpsr &&& ~~~mask) ||| (v &&& mask)) &&& psrImpl)

@[simps -fullyApplied]
def setX (s : Arm7DI) (x : InFlight) : Arm7DI := { s with x := x }

@[simps -fullyApplied]
def setK (s : Arm7DI) (k : ℕ) : Arm7DI := { s with k := k }

@[simps -fullyApplied]
def setPc (s : Arm7DI) (pc : Word) : Arm7DI := { s with pc := pc }

@[simps -fullyApplied]
def setSeq (s : Arm7DI) (q : Seq) : Arm7DI := { s with seq := q }

@[simps -fullyApplied]
def setDabort (s : Arm7DI) (b : Bool) : Arm7DI := { s with dabortPending := b }

@[simps -fullyApplied]
def setResetExit (s : Arm7DI) (b : Bool) : Arm7DI := { s with resetExit := b }

@[simps -fullyApplied]
def setPipe (s : Arm7DI) (ex de : Slot) : Arm7DI := { s with ex := ex, de := de }

@[simp] def advance (s : Arm7DI) : Arm7DI := s.setPipe s.de s.f1

@[simp] def done (s : Arm7DI) : Arm7DI := s.setSeq .idle

/-! ### One MCLK cycle on the bus -/

/-- The state after the bus answered: the abort of a memory cycle, the announced type and the
interrupt synchronisers. -/
@[simps -fullyApplied]
def sampled (s : Arm7DI) (a : Answer) (next : CycleType) : Arm7DI :=
  { s with
    lastAbort := a.abort && s.nextType.isMem
    cycles := s.cycles + 1 + a.wait
    nextType := next
    fiqIn := a.fiq
    irqIn := a.irq
    fiqPipe := (s.fiqPipe <<< 1) ||| maskIf a.fiq 1
    irqPipe := (s.irqPipe <<< 1) ||| maskIf a.irq 1 }

/-- `cyc`: drives the cycle with the announced type, announces `next`, and hands the read data
(0 on writes) to the rest of the sequencer's work. -/
@[simps]
def cyc (s : Arm7DI) (addr : Word) (flags : BusFlags) (wdata : Word) (next : CycleType)
    (k : Word → Arm7DI → Arm7DI) : Drive where
  bus :=
    { t := s.cycles, addr := addr, wdata := if flags.write then wdata else 0,
      type := s.nextType, flags := flags }
  next a := k (if flags.write then 0 else a.rdata) (s.sampled a next)

/-- The word fetched in cycle 1 enters `f1_` and the address incrementer moves on. -/
@[simps -fullyApplied]
def capture (s : Arm7DI) (f1 : Slot) : Arm7DI := { s with f1 := f1, pc := s.pc + 4 }

/-- The flags of an instruction fetch. -/
def fetchFlags (s : Arm7DI) : BusFlags := { opc := true, user := s.userFlag }

/-- The flags of an internal cycle, and of the plain reads of an LDM. -/
def idleFlags (s : Arm7DI) : BusFlags := { user := s.userFlag }

/-- Fetch pc + 8 into `f1_`, then `pc_ += 4`. -/
@[simp] def cycle1Fetch (s : Arm7DI) (next : CycleType) (k : Arm7DI → Arm7DI) : Drive :=
  s.cyc s.pc s.fetchFlags 0 next fun w s => k (s.capture ⟨w, s.lastAbort⟩)

/-- The interrupt inputs as the boundary check sees them, through the synchroniser. -/
def fiqSeen (s : Arm7DI) : Bool :=
  if s.irqSyncStages = 0 then s.fiqIn else bit s.fiqPipe (s.irqSyncStages - 1)

def irqSeen (s : Arm7DI) : Bool :=
  if s.irqSyncStages = 0 then s.irqIn else bit s.irqPipe (s.irqSyncStages - 1)

def condPass (s : Arm7DI) (op : Word) : Bool :=
  let N := bit s.cpsr 31
  let Z := bit s.cpsr 30
  let C := bit s.cpsr 29
  let V := bit s.cpsr 28
  match field op 28 4 with
  | 0x0 => Z
  | 0x1 => !Z
  | 0x2 => C
  | 0x3 => !C
  | 0x4 => N
  | 0x5 => !N
  | 0x6 => V
  | 0x7 => !V
  | 0x8 => C && !Z
  | 0x9 => !C || Z
  | 0xA => N == V
  | 0xB => N != V
  | 0xC => !Z && N == V
  | 0xD => Z || N != V
  | 0xE => true
  | _ => false

/-! ### Instruction boundary -/

@[simp] def startExc (s : Arm7DI) (vector : Word) (mode : BitVec 5) (setF : Bool) : Arm7DI :=
  ((s.setSeq .exc).setK 0).setX { s.x with vector := vector, mode := mode, setF := setF }

@[simp] def startRefill (s : Arm7DI) (target : Word) : Arm7DI :=
  ((s.setSeq .refill).setK 0).setX { s.x with target := target }

/-- Picks the sequencer of an instruction word. -/
def decode (s : Arm7DI) (op : Word) : Arm7DI :=
  let s := s.setX { s.x with op := op }
  if !s.condPass op then s.setSeq .skip
  else match field op 25 3 with
  | 0 =>
    if op &&& 0x90 = 0x90 then
      -- multiply / swap space; an undocumented encoding picks its datapath by bit 24
      if op &&& 0x0FC000F0 = 0x00000090 then s.setSeq .mul
      else if op &&& 0x0FB00FF0 = 0x01000090 then s.setSeq .swp
      else s.setSeq (if bit op 24 then .swp else .mul)
    else s.setSeq (if op &&& 0x01900000 = 0x01000000 then .psr else .dp)
  | 1 => s.setSeq (if op &&& 0x01900000 = 0x01000000 then .psr else .dp)
  | 2 => s.setSeq .sdt
  | 3 => s.setSeq (if bit op 4 then .undefTrap else .sdt)
  | 4 => s.setSeq .bdt
  | 5 => s.setSeq .branch
  | 6 => s.setSeq .undefTrap
  | _ => if bit op 24 then s.startExc 0x08 mSvc false else s.setSeq .undefTrap

/-- Instruction boundary: reset > reset entry > data abort > FIQ > IRQ > prefetch abort > the
instruction. `Arm7Bus::tick` runs first; what it does to the lines is an input of the run. -/
def begin (s : Arm7DI) : Arm7DI :=
  let s := s.setK 0
  if s.inReset then s.setSeq .reset
  else if s.resetExit then (s.setResetExit false).startExc 0x00 mSvc true
  else if s.dabortPending then (s.setDabort false).startExc 0x10 mAbt false
  else if s.fiqSeen && !bit s.cpsr 6 then s.startExc 0x1C mFiq true
  else if s.irqSeen && !bit s.cpsr 7 then s.startExc 0x18 mIrq false
  else if s.ex.abort then s.startExc 0x0C mAbt false
  else s.decode s.ex.word

/-! ### The sequencers -/

def cRefill (s : Arm7DI) : Drive :=
  let t := s.x.target
  if s.k = 0 then
    s.cyc t s.fetchFlags 0 .S fun w s => (s.setX { s.x with fa := ⟨w, s.lastAbort⟩ }).setK 1
  else
    s.cyc (t + 4) s.fetchFlags 0 .S fun w s =>
      ((s.setPipe s.x.fa ⟨w, s.lastAbort⟩).setPc (t + 8)).done

/-- nRESET low: dummy fetches from incrementing addresses. -/
def cReset (s : Arm7DI) : Drive :=
  s.cyc s.pc s.fetchFlags 0 .S fun _ s => (s.setPc (s.pc + 4)).done

def cSkip (s : Arm7DI) : Drive :=
  s.cycle1Fetch .S fun s => s.advance.done

/-- The new flags: `(cpsr_ & 0x0FFFFFFF) | N | Z | C | V`. -/
@[simp] def setFlags (s : Arm7DI) (res : Word) (c v : Bool) : Arm7DI :=
  s.setCpsr ((s.cpsr &&& 0x0FFFFFFF) ||| (res &&& psrN) ||| maskIf (res == 0) psrZ |||
    maskIf c psrC ||| maskIf v psrV)

/-- The ALU result and write-back, in the data operation's last cycle. -/
def dpFinish (s : Arm7DI) (a b : Word) (sc : Bool) : Arm7DI :=
  let op := s.x.op
  let S := bit op 20
  let opc := field op 21 4
  let rdn := field op 12 4
  let test := opc &&& 0xC == 0x8
  let wpc := rdn == 15 && !test
  let alu := dpAlu opc a b s.x.cin sc (bit s.cpsr 28)
  let res := alu.1
  if wpc then
    -- with S the SPSR of the current mode moves to the CPSR
    let s := if S && s.bank != .usr then s.writeCpsr (s.spsr s.bank) psrImpl else s
    s.startRefill (res &&& ~~~3)
  else
    let s := if test then s else s.wr rdn res
    let s :=
      if S then
        if test && rdn == 15 then
          -- TEQP form: SPSR -> CPSR if privileged, nothing in user mode
          if s.bank != .usr && modeOf s.cpsr != mUsr then s.writeCpsr (s.spsr s.bank) psrImpl
          else s
        else s.setFlags res alu.2.1 alu.2.2
      else s
    s.advance.done

/-- Data processing: the register-specified shift takes a second, internal cycle. -/
def cDp (s : Arm7DI) : Drive :=
  let op := s.x.op
  let imm := bit op 25
  let opc := field op 21 4
  let rn := field op 16 4
  let rdn := field op 12 4
  let rm := field op 0 4
  let test := opc &&& 0xC == 0x8
  let regshift := !imm && bit op 4
  let wpc := rdn == 15 && !test
  if s.k = 0 then
    let s := s.setX { s.x with cin := bit s.cpsr 29 }
    if !regshift then
      -- operands are read in cycle 1: R15 = pc + 8
      let a := s.rd rn s.pc
      let rot := 2 * (field op 8 4).toNat
      let bc :=
        if imm then
          let b := ror32 (op &&& 0xFF) rot
          (b, if rot ≠ 0 then bit b 31 else s.x.cin)
        else shiftImm (s.rd rm s.pc) (field op 5 2) (field op 7 5).toNat s.x.cin
      s.cycle1Fetch (if wpc then .N else .S) fun s => s.dpFinish a bc.1 bc.2
    else
      let s := s.setX { s.x with amt := (field (s.rd (field op 8 4) s.pc) 0 8).toNat }
      s.cycle1Fetch .I fun s => s.setK 1
  else
    s.cyc s.pc s.idleFlags 0 (if wpc then .N else .S) fun _ s =>
      let bc := shiftReg (s.rd rm s.pc) (field op 5 2) s.x.amt s.x.cin
      s.dpFinish (s.rd rn s.pc) bc.1 bc.2

/-- MRS / MSR. -/
def cPsr (s : Arm7DI) : Drive :=
  let op := s.x.op
  let P := bit op 22
  if !bit op 21 then
    let rdn := field op 12 4
    let v := if P then s.spsrCur else s.cpsr
    if rdn = 15 then s.cycle1Fetch .N fun s => s.startRefill (v &&& ~~~3)
    else s.cycle1Fetch .S fun s => (s.wr rdn v).advance.done
  else
    let src :=
      if bit op 25 then ror32 (op &&& 0xFF) (2 * (field op 8 4).toNat)
      else s.rd (field op 0 4) s.pc
    let mask := maskIf (bit op 19) 0xF0000000 ||| maskIf (bit op 16) 0x000000DF
    s.cycle1Fetch .S fun s =>
      let s :=
        if P then s.setSpsrCur src mask
        else
          -- control bits are protected in user mode
          s.writeCpsr src (if modeOf s.cpsr = mUsr then mask &&& 0xF0000000 else mask)
      s.advance.done

/-- The first cycle of a multiplication: Rd is loaded with the accumulator's initial value. -/
def cMulStart (s : Arm7DI) : Drive :=
  let op := s.x.op
  let rdn := field op 16 4
  let rn := field op 12 4
  let rs := field op 8 4
  let A := bit op 21
  let mul := s.rd rs s.pc
  let acc := if A then s.rd rn s.pc else 0
  let s := s.setX { s.x with mul := mul, acc := acc, m := mulSteps mul }
  s.cycle1Fetch .I fun s =>
    let s := s.wr rdn s.x.acc
    (s.setX { s.x with borrow := false, aluC := false, shC := false }).setK 1

/-- The work of Booth step `k` with digit `d` and Rm `M`. -/
def mulStep (s : Arm7DI) (k : ℕ) (M : Word) (d : ℤ) : Arm7DI :=
  let rdn := field s.x.op 16 4
  let sh := 2 * k + (if d = 2 ∨ d = -2 then 1 else 0)
  let shC := if sh ≠ 0 then bit M (32 - sh) else bit s.cpsr 29
  let acc := if rdn = 15 then s.x.acc else s.gpr (phys rdn s.bank)
  let r := boothAdd d acc (M <<< sh)
  let s := s.setX { s.x with shC := shC, acc := r.1, aluC := r.2 }
  s.wr rdn r.1

/-- The flags of MULS and MLAS. -/
def mulFlags (s : Arm7DI) : Arm7DI :=
  if bit s.x.op 20 then
    let c := match s.mulCarry with
      | .keep => bit s.cpsr 29
      | .aluLast => s.x.aluC
      | .shifterLast => s.x.shC
    s.setCpsr ((s.cpsr &&& 0x1FFFFFFF) ||| (s.x.acc &&& psrN) |||
      maskIf (s.x.acc == 0) psrZ ||| maskIf c psrC)
  else s

/-- MUL / MLA: 2-bit Booth with early termination. -/
def cMul (s : Arm7DI) : Drive :=
  if s.k = 0 then s.cMulStart
  else
    let k := s.k - 1
    let M := s.rd (field s.x.op 0 4) s.pc
    let d := digit (bit s.x.mul 1) (bit s.x.mul 0) s.x.borrow
    let last : Bool := k == s.x.m - 1
    let s := s.setX { s.x with borrow := bit s.x.mul 1, mul := s.x.mul >>> 2 }
    s.cyc s.pc s.idleFlags 0 (if last then .S else .I) fun _ s =>
      let s := s.mulStep k M d
      if !last then s.setK (s.k + 1) else s.mulFlags.advance.done

/-- SWP / SWPB: locked read, locked write, internal cycle that writes Rd. -/
def cSwp (s : Arm7DI) : Drive :=
  let op := s.x.op
  let B := bit op 22
  let rn := field op 16 4
  let rdn := field op 12 4
  let rm := field op 0 4
  let bf : BusFlags := { byte := B, lock := true, user := s.userFlag }
  let k := s.k
  let s := s.setK (s.k + 1)
  match k with
  | 0 => (s.setX { s.x with addr := s.rd rn s.pc }).cycle1Fetch .N fun s => s
  | 1 => s.cyc s.x.addr bf 0 .N fun w s => s.setX { s.x with data := w, ab := s.lastAbort }
  | 2 =>
    -- Rm is read after the load, so Rd = Rm swaps correctly
    s.cyc s.x.addr { bf with write := true } (storeVal B (s.rd rm s.pc)) .I fun _ s =>
      s.setX { s.x with ab := s.x.ab || s.lastAbort }
  | _ =>
    s.cyc s.pc s.idleFlags 0 .S fun _ s =>
      let s :=
        if s.x.ab then s.setDabort true
        else s.wr rdn (loadVal B s.x.data s.x.addr)
      s.advance.done

/-- LDR / STR. -/
def cSdt (s : Arm7DI) : Drive :=
  let op := s.x.op
  let B := bit op 22
  let L := bit op 20
  let rn := field op 16 4
  let rdn := field op 12 4
  if s.k = 0 then
    let I := bit op 25
    let P := bit op 24
    let U := bit op 23
    let W := bit op 21
    let base := s.rd rn s.pc
    let off :=
      if I then
        (shiftImm (s.rd (field op 0 4) s.pc) (field op 5 2) (field op 7 5).toNat
          (bit s.cpsr 29)).1
      else op &&& 0xFFF
    let calcV := if U then base + off else base - off
    -- LDRT / STRT force nTRANS
    let s := s.setX { s.x with
      calcAddr := calcV
      addr := if P then calcV else base
      wb := !P || W
      bf := { byte := B, user := (!P && W) || s.userFlag } }
    s.cycle1Fetch .N fun s => s.setK 1
  else if !L then
    -- Rd is read in cycle 2: R15 = pc + 12, base not yet written back
    s.cyc s.x.addr { s.x.bf with write := true } (storeVal B (s.rd rdn s.pc)) .N fun _ s =>
      let s := if s.lastAbort then s.setDabort true else s
      let s := if s.x.wb then s.wr rn s.x.calcAddr else s
      s.advance.done
  else if s.k = 1 then
    s.cyc s.x.addr s.x.bf 0 .I fun w s =>
      let s := s.setX { s.x with data := w, ab := s.lastAbort }
      (if s.x.wb then s.wr rn s.x.calcAddr else s).setK 2
  else
    let wpc := rdn == 15 && !s.x.ab
    s.cyc s.pc s.idleFlags 0 (if wpc then .N else .S) fun _ s =>
      if s.x.ab then (s.setDabort true).advance.done
      else
        let v := loadVal B s.x.data s.x.addr
        if rdn = 15 then s.startRefill (v &&& ~~~3) else (s.wr rdn v).advance.done

/-- The register list that is transferred: an empty one stands for R15. -/
def effList (op : Word) : BitVec 16 := if field op 0 16 = 0 then 0x8000 else field op 0 16

/-- The distance the base moves: 16 words for an empty list. -/
def listBytes (op : Word) : Word :=
  if field op 0 16 = 0 then 0x40 else 4 * ((field op 0 16).cpop.setWidth 32)

/-- The first cycle of an LDM or STM. -/
def cBdtStart (s : Arm7DI) : Drive :=
  let op := s.x.op
  let S := bit op 22
  let L := bit op 20
  let rn := field op 16 4
  let P := bit op 24
  let U := bit op 23
  let base := s.rd rn s.pc
  let list := effList op
  let bytes := listBytes op
  let s := s.setX { s.x with
    base := base
    list := list
    addr := if U then (if P then base + 4 else base)
      else (if P then base - bytes else base - bytes + 4)
    wbv := if U then base + bytes else base - bytes
    userbank := S && !(L && bit list 15) }
  s.cycle1Fetch .N fun s =>
    (s.setX { s.x with
      first := true, ab := false, newpc := 0, pcLoaded := false, r := ctz list }).setK 1

/-- No register of the list is left after this transfer. -/
def bdtLast (s : Arm7DI) : Bool := s.x.list >>> (s.x.r + 1) == 0

/-- After a transfer's bus cycle: the abort, and with the first one the base write-back. -/
def bdtBase (s : Arm7DI) : Arm7DI :=
  let s := s.setX { s.x with ab := s.x.ab || s.lastAbort }
  let s := if s.x.first && bit s.x.op 21 then s.wr (field s.x.op 16 4) s.x.wbv else s
  s.setX { s.x with first := false }

/-- The loaded word; register overwriting stops at the abort. -/
def bdtLoad (s : Arm7DI) (data : Word) : Arm7DI :=
  if s.x.ab then s
  else if s.x.r = 15 then s.setX { s.x with newpc := data, pcLoaded := true }
  else if s.x.userbank then s.wrBank (BitVec.ofNat 4 s.x.r) .usr data
  else s.wr (BitVec.ofNat 4 s.x.r) data

/-- The stored word: R15 reads as pc + 12. -/
def bdtStored (s : Arm7DI) : Word :=
  if s.x.r = 15 then s.pc
  else if s.x.userbank then s.gpr (phys (BitVec.ofNat 4 s.x.r) .usr)
  else s.rd (BitVec.ofNat 4 s.x.r) s.pc

/-- On to the next register, to the LDM's final cycle or to the end of the STM. -/
def bdtAdvance (s : Arm7DI) : Arm7DI :=
  let s := (s.setX { s.x with addr := s.x.addr + 4 }).setK (s.k + 1)
  if !s.bdtLast then
    s.setX { s.x with r := s.x.r + 1 + ctz (s.x.list >>> (s.x.r + 1)) }
  else if bit s.x.op 20 then s.setX { s.x with r := 16 }
  else (if s.x.ab then s.setDabort true else s).advance.done

/-- The LDM's final, internal cycle. -/
def cBdtFinal (s : Arm7DI) : Drive :=
  let op := s.x.op
  let S := bit op 22
  let W := bit op 21
  let rn := field op 16 4
  s.cyc s.pc s.idleFlags 0 (if s.x.pcLoaded then .N else .S) fun _ s =>
    if s.x.ab then
      -- the base is restored, to the written-back value if W
      ((s.wr rn (if W then s.x.wbv else s.x.base)).setDabort true).advance.done
    else if s.x.pcLoaded then
      let s := if S && s.bank != .usr then s.writeCpsr (s.spsr s.bank) psrImpl else s
      s.startRefill (s.x.newpc &&& ~~~3)
    else s.advance.done

/-- LDM / STM. `x_.r` is the register of the next transfer, 16 the LDM's final cycle. -/
def cBdt (s : Arm7DI) : Drive :=
  if s.k = 0 then s.cBdtStart
  else if s.x.r = 16 then s.cBdtFinal
  else if bit s.x.op 20 then
    s.cyc s.x.addr s.idleFlags 0 (if s.bdtLast then .I else .S) fun data s =>
      (s.bdtBase.bdtLoad data).bdtAdvance
  else
    s.cyc s.x.addr { s.idleFlags with write := true } s.bdtStored (if s.bdtLast then .N else .S)
      fun _ s => s.bdtBase.bdtAdvance

/-- B / BL: R14 is the address of the following instruction. -/
def cBranch (s : Arm7DI) : Drive :=
  let op := s.x.op
  let target := s.pc + (op <<< 8).sshiftRight 6
  let ret := s.pc - 4
  s.cycle1Fetch .N fun s =>
    let s := if bit op 24 then s.wr 14 ret else s
    s.startRefill target

/-- The PSR and R14 of an exception entry: SPSR := CPSR, mode, I (and F) set, R14. -/
@[simp] def enter (s : Arm7DI) (b : Bank) (mode : BitVec 5) (setF : Bool) (r14 : Word) : Arm7DI :=
  let s := s.setSpsr b s.cpsr
  let s := s.setCpsr
    ((s.cpsr &&& ~~~psrM) ||| mode.setWidth 32 ||| psrI ||| maskIf setF psrF)
  s.wrBank 14 b r14

/-- Undefined instruction, or coprocessor absent. -/
def cUndef (s : Arm7DI) : Drive :=
  if s.k = 0 then
    let s := s.setX { s.x with addr := s.pc }
    s.cyc s.x.addr s.fetchFlags 0 .I fun _ s => s.setK 1
  else
    let pc8 := s.x.addr
    s.cyc pc8 s.fetchFlags 0 .N fun _ s =>
      (s.enter .und mUnd false (pc8 - 4)).startRefill 0x04

/-- Exception entry and SWI; the fetched word is discarded. -/
def cExc (s : Arm7DI) : Drive :=
  let pc8 := s.pc
  s.cyc pc8 s.fetchFlags 0 .N fun _ s =>
    (s.enter (bankOf s.x.mode) s.x.mode s.x.setF (pc8 - 4)).startRefill s.x.vector

/-! ### Bus cycles and lines -/

def atBoundary (s : Arm7DI) : Prop := s.seq = .idle

instance (s : Arm7DI) : Decidable s.atBoundary := inferInstanceAs (Decidable (s.seq = .idle))

/-- The state in which the next bus cycle's work is done: at a boundary a new sequence begins. -/
def start (s : Arm7DI) : Arm7DI := if s.seq = .idle then s.begin else s

/-- The cycle of the sequence in progress. -/
def sequence (s : Arm7DI) : Drive :=
  match s.seq with
  | .reset => s.cReset
  | .skip => s.cSkip
  | .dp => s.cDp
  | .psr => s.cPsr
  | .mul => s.cMul
  | .swp => s.cSwp
  | .sdt => s.cSdt
  | .bdt => s.cBdt
  | .branch => s.cBranch
  | .undefTrap => s.cUndef
  | .exc => s.cExc
  | _ => s.cRefill

/-- Perform exactly one bus cycle. -/
def busCycle (s : Arm7DI) : Drive := s.start.sequence

/-- `power_on()` before its loop of bus cycles. -/
def powerOn (irqSyncStages : ℕ) (mulCarry : MulCarry) : Arm7DI where
  irqSyncStages := irqSyncStages
  mulCarry := mulCarry
  cycles := 0
  seq := .idle
  k := 0
  x := {}
  gpr := fun _ => 0
  pc := 0
  cpsr := mSvc.setWidth 32 ||| psrI ||| psrF
  spsr := fun _ => 0
  ex := ⟨0, false⟩
  de := ⟨0, false⟩
  f1 := ⟨0, false⟩
  nextType := .N
  lastAbort := false
  dabortPending := false
  inReset := false
  resetExit := true
  fiqIn := false
  irqIn := false
  fiqPipe := 0
  irqPipe := 0

@[simps -fullyApplied]
def setReset (s : Arm7DI) (asserted : Bool) : Arm7DI :=
  { s with
    inReset := asserted
    resetExit := s.resetExit || (s.inReset && !asserted) }

@[simps -fullyApplied]
def setFiq (s : Arm7DI) (asserted : Bool) : Arm7DI := { s with fiqIn := asserted }

@[simps -fullyApplied]
def setIrq (s : Arm7DI) (asserted : Bool) : Arm7DI := { s with irqIn := asserted }

end Arm7DI

/-- A move of one of the core's input lines. -/
inductive Line
  | reset (asserted : Bool)
  | fiq (asserted : Bool)
  | irq (asserted : Bool)

def Arm7DI.setLine (s : Arm7DI) : Line → Arm7DI
  | .reset b => s.setReset b
  | .fiq b => s.setFiq b
  | .irq b => s.setIrq b

end Wren7
