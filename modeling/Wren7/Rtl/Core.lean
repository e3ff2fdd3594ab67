import Wren7.Model.Types
import Wren7.Rtl.Regfile
import Wren7.Rtl.Shifter

/-!
# The RTL core

`wren7_core.sv`. `CoreRegs` holds the registers that only a completed bus cycle moves; `Core` adds
the ones every `ce` clock moves and the register file. Each wire is a definition under its name;
those that depend on the register reads take `va` and `vb`. A `case` arm of the next-state block is
a definition of its own.
-/

namespace Wren7.Rtl

open Bits

/-- The sequencer states `S_BOUND` to `S_REF1`. -/
inductive St
  | bound | dp2 | mul | swp1 | swp2 | swp3 | sdt2 | sdt3 | bdtx | bdtf | und2 | ref0 | ref1
  deriving DecidableEq, Repr, Inhabited

/-- `{N Z C V I F M[4:0]}`. -/
structure Psr where
  n : Bool := false
  z : Bool := false
  c : Bool := false
  v : Bool := false
  i : Bool := false
  f : Bool := false
  m : BitVec 5 := 0
  deriving DecidableEq, Repr, Inhabited

/-- `{p[10:7], 20'd0, p[6:5], 1'b0, p[4:0]}`. -/
def psr32 (p : Psr) : Word :=
  maskIf p.n psrN ||| maskIf p.z psrZ ||| maskIf p.c psrC ||| maskIf p.v psrV |||
    maskIf p.i psrI ||| maskIf p.f psrF ||| p.m.setWidth 32

/-- The registers written at the end of a bus cycle. -/
structure CoreRegs where
  st : St
  mulK : BitVec 4
  ctype : CycleType
  pc : Word
  /-- `f_n f_z f_c f_v f_i f_f f_m`. -/
  psr : Psr
  /-- `spsr_fiq` to `spsr_und`; there is none for the user bank. -/
  spsr : Bank → Psr
  exW : Word
  deW : Word
  f1W : Word
  exA : Bool
  deA : Bool
  f1A : Bool
  dab : Bool
  inRst : Bool
  rstExit : Bool
  xAddr : Word
  xData : Word
  xCalc : Word
  xBase : Word
  xFab : Bool
  xAmt : BitVec 8
  xCin : Bool
  xBbyte : Bool
  xBuser : Bool
  xWb : Bool
  xAb : Bool
  xFirst : Bool
  xPcl : Bool
  xUb : Bool
  xBorrow : Bool
  xList : BitVec 16
  pwV : Bool
  pwIdx : BitVec 5
  deriving Inhabited

/-- The levels a boundary cycle decides on. -/
structure Levels where
  hold : Bool
  fiq : Bool
  irq : Bool
  deriving DecidableEq, Repr

structure Core where
  regs : CoreRegs
  /-- No `ce` clock of this cycle has passed yet. -/
  fc : Bool
  /-- `hold_l`, `fiq_l`, `irq_l`. -/
  latched : Levels
  uRf : Regfile

/-- The input pins in one clock. -/
structure Pins where
  rst : Bool
  ce : Bool
  levels : Levels
  busAck : Bool
  busRdata : Word
  busAbort : Bool

/-! ### Helpers -/

def bankOf (m : BitVec 5) : Bank :=
  if m = mFiq then .fiq
  else if m = mIrq then .irq
  else if m = mSvc then .svc
  else if m = mAbt then .abt
  else if m = mUnd then .und
  else .usr

/-- Physical register; R15 is never stored. -/
def phys (r : Reg) (b : Bank) : BitVec 5 :=
  if r < 8 then r.setWidth 5
  else if b = .fiq then r.setWidth 5 + 7
  else if r < 13 ∨ b = .usr then r.setWidth 5
  else 22 + ((b.code - 2).setWidth 5 <<< 1) + (if bit r 0 then 0 else 1)

/-- The lowest set bit; the priority `casez` ends in 15. -/
def ctz16 (x : BitVec 16) : Reg :=
  BitVec.ofNat 4 (((List.range 15).find? fun i => bit x i).getD 15)

/-- The number of set bits. -/
def pop16 (x : BitVec 16) : BitVec 5 :=
  (List.range 16).foldl (fun n i => n + if bit x i then 1 else 0) 0

/-- The word rotated by the address: the `case` of `load_val`. -/
def laneWord (d : Word) (a : BitVec 2) : Word :=
  match a with
  | 0 => d
  | 1 => (d.setWidth 8 ++ d.extractLsb' 8 24 : BitVec 32)
  | 2 => (d.setWidth 16 ++ d.extractLsb' 16 16 : BitVec 32)
  | _ => (d.setWidth 24 ++ d.extractLsb' 24 8 : BitVec 32)

/-- A loaded word as LDR and SWP deliver it. -/
def loadVal (d : Word) (a : BitVec 2) (b : Bool) : Word :=
  if b then ((laneWord d a).setWidth 8).setWidth 32 else laneWord d a

/-! ### Decode of the execute stage -/

section Decode

variable (w : Word)

def c3 : BitVec 3 := field w 25 3
def space : Bool := c3 w == 0 && bit w 7 && bit w 4
def mulDoc : Bool := w &&& 0x0FC000F0 == 0x00000090
def swpDoc : Bool := w &&& 0x0FB00FF0 == 0x01000090
def isMul : Bool := space w && (mulDoc w || (!swpDoc w && !bit w 24))
def isSwp : Bool := space w && !isMul w
def dpsp : Bool := (c3 w == 0 && !space w) || c3 w == 1
def isPsr : Bool := dpsp w && w &&& 0x01900000 == 0x01000000
def isDp : Bool := dpsp w && !isPsr w
def dpRs : Bool := isDp w && !bit w 25 && bit w 4
def isSdt : Bool := c3 w == 2 || (c3 w == 3 && !bit w 4)
def isBdt : Bool := c3 w == 4
def isBr : Bool := c3 w == 5
def isSwi : Bool := c3 w == 7 && bit w 24
def fRn : Reg := field w 16 4
def fRd : Reg := field w 12 4
def bP : Bool := bit w 24
def bU : Bool := bit w 23
def bB : Bool := bit w 22
def bW : Bool := bit w 21
def bL : Bool := bit w 20
def bS : Bool := bit w 20
def opc : BitVec 4 := field w 21 4
def test : Bool := field w 23 2 == 2
def wpc : Bool := fRd w == 15 && !test w
def arith : Bool :=
  !(opc w == 0x0 || opc w == 0x1 || opc w == 0x8 || opc w == 0x9 || 0xC ≤ opc w)
/-- The register list; an empty one stands for R15. -/
def list : BitVec 16 := if field w 0 16 = 0 then 0x8000 else field w 0 16
def bytes : BitVec 7 := if field w 0 16 = 0 then 64 else (pop16 (field w 0 16)).setWidth 7 <<< 2
def boff : Word := ((field w 0 24).signExtend 30).setWidth 32 <<< 2

end Decode

section Wires

variable (r : CoreRegs)

def bank : Bank := bankOf r.psr.m
def umode : Bool := r.psr.m == mUsr
def cpsr32 : Word := psr32 r.psr

/-- SPSR of the current mode; in the user bank the CPSR. -/
def spsrCur : Psr := if bank r = .usr then r.psr else r.spsr (bank r)

def cond : Bool :=
  let p := r.psr
  match field r.exW 28 4 with
  | 0x0 => p.z
  | 0x1 => !p.z
  | 0x2 => p.c
  | 0x3 => !p.c
  | 0x4 => p.n
  | 0x5 => !p.n
  | 0x6 => p.v
  | 0x7 => !p.v
  | 0x8 => p.c && !p.z
  | 0x9 => !p.c || p.z
  | 0xA => p.n == p.v
  | 0xB => p.n != p.v
  | 0xC => !p.z && p.n == p.v
  | 0xD => p.z || p.n != p.v
  | 0xE => true
  | _ => false

/-! ### The boundary decision -/

variable (l : Levels)

def dHold : Bool := l.hold
def dRexit : Bool := !l.hold && (r.inRst || r.rstExit)
def dDab : Bool := !l.hold && !dRexit r l && r.dab
def dFiq : Bool := !l.hold && !dRexit r l && !r.dab && l.fiq && !r.psr.f
def dIrq : Bool :=
  !l.hold && !dRexit r l && !r.dab && !(l.fiq && !r.psr.f) && l.irq && !r.psr.i
def dPab : Bool :=
  !l.hold && !dRexit r l && !r.dab && !(l.fiq && !r.psr.f) && !(l.irq && !r.psr.i) && r.exA
def dIns : Bool :=
  !l.hold && !dRexit r l && !r.dab && !(l.fiq && !r.psr.f) && !(l.irq && !r.psr.i) && !r.exA
def dSwi : Bool := dIns r l && cond r && isSwi r.exW
def dExc : Bool := dRexit r l || dDab r l || dFiq r l || dIrq r l || dPab r l || dSwi r l

/-- `e_vec`, `e_mode`, `e_setf`. -/
def entry : BitVec 5 × BitVec 5 × Bool :=
  if dRexit r l then (0x00, mSvc, true)
  else if dDab r l then (0x10, mAbt, false)
  else if dFiq r l then (0x1C, mFiq, true)
  else if dIrq r l then (0x18, mIrq, false)
  else if dPab r l then (0x0C, mAbt, false)
  else (0x08, mSvc, false)

/-! ### Register reads -/

def bdtR : Reg := ctz16 r.xList
def bdtLast : Bool := r.xList &&& (r.xList - 1) == 0

def raR : Reg := if r.st = .bound ∧ isMul r.exW then field r.exW 12 4 else fRn r.exW

def rbR : Reg :=
  match r.st with
  | .bound => if isMul r.exW || dpRs r.exW then field r.exW 8 4 else field r.exW 0 4
  | .sdt2 => fRd r.exW
  | .bdtx => bdtR r
  | _ => field r.exW 0 4

def raIdx : BitVec 5 := phys (raR r) (bank r)
def rbIdx : BitVec 5 := phys (rbR r) (if r.st = .bdtx ∧ r.xUb then .usr else bank r)

/-- `va`, from what read port A returns. -/
def portA (qa : Word) : Word := if raR r = 15 then r.pc else qa

/-- `vb`, from what read port B returns. -/
def portB (qb : Word) : Word := if rbR r = 15 then r.pc else qb

variable (va vb : Word)

/-! ### Barrel shifter -/

/-- The Booth digit is positive, negative, of magnitude two. -/
def mIdx : BitVec 3 := BitVec.ofBool (bit r.xBase 1) ++ BitVec.ofBool (bit r.xBase 0) ++
  BitVec.ofBool r.xBorrow
def mPos : Bool := mIdx r == 1 || mIdx r == 2 || mIdx r == 3
def mNeg : Bool := mIdx r == 4 || mIdx r == 5 || mIdx r == 6
def mTwo : Bool := mIdx r == 3 || mIdx r == 4
def mLast : Bool := r.mulK == 15 || r.xBase.extractLsb' 1 31 == 0

/-- The shifter and its input muxes. -/
def shift : Word × Bool :=
  match r.st with
  | .dp2 => wren7Shifter vb (field r.exW 5 2) r.xAmt false r.xCin
  | .mul =>
    wren7Shifter vb 0 ((r.mulK.setWidth 8 <<< 1) ||| (BitVec.ofBool (mTwo r)).setWidth 8) false
      r.psr.c
  | _ =>
    if bit r.exW 25 && dpsp r.exW then
      -- rotated 8-bit immediate
      wren7Shifter ((field r.exW 0 8).setWidth 32) 3 ((field r.exW 8 4).setWidth 8 <<< 1) false
        r.psr.c
    else wren7Shifter vb (field r.exW 5 2) ((field r.exW 7 5).setWidth 8) true r.psr.c

def shO : Word := (shift r vb).1
def shC : Bool := (shift r vb).2

/-! ### ALU adder -/

def dpCin : Bool := if r.st = .dp2 then r.xCin else r.psr.c

/-- LDR / STR offset. -/
def off : Word := if bit r.exW 25 then shO r vb else (field r.exW 0 12).setWidth 32

/-- `ax`, `ay`, `aci`. -/
def addIn : Word × Word × Bool :=
  if r.st = .mul then
    (r.xCalc, if mNeg r then ~~~(shO r vb) else shO r vb, mNeg r)
  else if r.st = .bound ∧ isSdt r.exW then
    (va, if bU r.exW then off r vb else ~~~(off r vb), !bU r.exW)
  else if r.st = .bound ∧ isBdt r.exW then
    let b : Word := (bytes r.exW).setWidth 32
    (va, if bU r.exW then b else ~~~b, !bU r.exW)
  else
    let o := opc r.exW
    (if o = 0x3 ∨ o = 0x7 then shO r vb else va,
     if o = 0x2 ∨ o = 0x6 ∨ o = 0xA then ~~~(shO r vb)
      else if o = 0x3 ∨ o = 0x7 then ~~~va
      else shO r vb,
     if o = 0x2 ∨ o = 0x3 ∨ o = 0xA then true
      else if o = 0x5 ∨ o = 0x6 ∨ o = 0x7 then dpCin r
      else false)

def sum33 : BitVec 33 :=
  let a := addIn r va vb
  a.1.setWidth 33 + a.2.1.setWidth 33 + (BitVec.ofBool a.2.2).setWidth 33

def sum : Word := (sum33 r va vb).setWidth 32
def addC : Bool := bit (sum33 r va vb) 32
def addV : Bool :=
  let a := addIn r va vb
  !(bit a.1 31 ^^ bit a.2.1 31) && (bit a.1 31 ^^ bit (sum33 r va vb) 31)

def dpRes : Word :=
  match opc r.exW with
  | 0x0 | 0x8 => va &&& shO r vb
  | 0x1 | 0x9 => va ^^^ shO r vb
  | 0xC => va ||| shO r vb
  | 0xD => shO r vb
  | 0xE => va &&& ~~~(shO r vb)
  | 0xF => ~~~(shO r vb)
  | _ => sum r va vb

def dpC : Bool := if arith r.exW then addC r va vb else shC r vb
def dpV : Bool := if arith r.exW then addV r va vb else r.psr.v

/-- Branch target / LDM, STM start address. -/
def soff : Word :=
  if bU r.exW then (if bP r.exW then 4 else 0)
  else (if bP r.exW then 0 else 4) - (bytes r.exW).setWidth 32

def ad2 : Word := (if isBr r.exW then r.pc else va) + (if isBr r.exW then boff r.exW else soff r)

def pcp4 : Word := r.pc + 4
def pcm4 : Word := r.pc - 4
def xap4 : Word := r.xAddr + 4

/-- The new accumulator of a Booth step. -/
def mAcc : Word := if mPos r || mNeg r then sum r va vb else r.xCalc

def msrSrc : Word := if bit r.exW 25 then shO r vb else vb

/-- A PSR with its flag field, or its control field, taken from a word. -/
def Psr.setFlags (p : Psr) (w : Word) : Psr :=
  { p with n := bit w 31, z := bit w 30, c := bit w 29, v := bit w 28 }

def Psr.setControl (p : Psr) (w : Word) : Psr :=
  { p with i := bit w 7, f := bit w 6, m := field w 0 5 }

def msrF : Bool := bit r.exW 19
def msrC : Bool := bit r.exW 16 && !umode r

def msrSpsr : Psr :=
  let p := spsrCur r
  let p := if msrF r then p.setFlags (msrSrc r vb) else p
  if bit r.exW 16 then p.setControl (msrSrc r vb) else p

/-! ### Bus outputs -/

def busType : CycleType := r.ctype
def busReq : Bool := !bit r.ctype.code 1

def busAddr : Word :=
  match r.st with
  | .ref0 | .ref1 | .swp1 | .swp2 | .sdt2 | .bdtx => r.xAddr
  | _ => r.pc

def busFlags : BusFlags :=
  let d : BusFlags := { user := umode r }
  match r.st with
  | .bound | .und2 => { d with opc := true }
  | .ref0 | .ref1 => { d with opc := true }
  | .swp1 => { d with byte := bB r.exW, lock := true }
  | .swp2 => { d with byte := bB r.exW, lock := true, write := true }
  | .sdt2 => { d with byte := r.xBbyte, user := r.xBuser, write := !bL r.exW }
  | .bdtx => { d with write := !bL r.exW }
  | _ => d

/-- `bus_byte ? {4{vb[7:0]}} : vb`. -/
def busWdata : Word :=
  if (busFlags r).byte then
    let b := vb.setWidth 8
    (b ++ b ++ b ++ b : BitVec 32)
  else vb

/-! ### End of the cycle -/

def ldV : Word := loadVal r.xData (r.xAddr.setWidth 2) (bB r.exW)

/-- The data operation's last cycle: the new CPSR. -/
def dpfCpsr : Psr :=
  let w := r.exW
  if wpc w then
    if bS w && bank r != .usr then spsrCur r else r.psr
  else if bS w then
    if test w && fRd w == 15 then
      if bank r != .usr then spsrCur r else r.psr
    else
      { r.psr with
        n := bit (dpRes r va vb) 31, z := dpRes r va vb == 0, c := dpC r va vb,
        v := dpV r va vb }
  else r.psr

end Wires

/-- The outputs of the next-state block: `n` holds the `n_*` signals, under the names of the
registers they are for. -/
structure Comb where
  n : CoreRegs
  spWe : Bool := false
  spB : Bank := .und
  spV : Psr
  cap : Bool := false
  adv : Bool := false
  wReq : Bool := false
  wPhys : Bool := false
  wR : Reg := 0
  wB : Bank
  wD : Word := 0

/-- The defaults at the head of the block. -/
def Comb.dflt (r : CoreRegs) : Comb where
  n := r
  spV := r.psr
  wB := bank r

/-- A write request for register `r` of bank `b`. -/
def Comb.wreg (c : Comb) (r : Reg) (b : Bank) (d : Word) : Comb :=
  { c with wReq := true, wPhys := false, wR := r, wB := b, wD := d }

section Arms

variable (r : CoreRegs) (va vb : Word) (l : Levels) (rdata : Word) (abE : Bool)

def holdArm : Comb :=
  { Comb.dflt r with n.st := .bound, n.inRst := true, n.pc := pcp4 r, n.ctype := .S }

def excArm : Comb :=
  let e := entry r l
  let b := bankOf e.2.1
  let c := Comb.dflt r
  let c := if dRexit r l then { c with n.inRst := false, n.rstExit := false } else c
  let c := if dDab r l then { c with n.dab := false } else c
  let c := { c with spWe := true, spB := b, spV := r.psr }
  let c := { c with
    n.psr := { r.psr with m := e.2.1, i := true, f := if e.2.2 then true else r.psr.f } }
  let c := c.wreg 14 b (pcm4 r)
  { c with n.xAddr := e.1.setWidth 32, n.ctype := .N, n.st := .ref0 }

/-- The default of a cycle that captures its fetch and moves the pc on. -/
def capDflt : Comb := { Comb.dflt r with n.st := .bound, cap := true, n.pc := pcp4 r }

def skipArm : Comb := { capDflt r with n.ctype := .S, adv := true }

def dpRsArm : Comb :=
  { capDflt r with
    n.ctype := .I, n.xAmt := vb.setWidth 8, n.xCin := r.psr.c, n.st := .dp2 }

/-- What both forms of a data operation do in their last cycle. -/
def dpTail (c : Comb) : Comb :=
  let c := { c with
    n.ctype := if wpc r.exW then .N else .S, n.st := .bound, n.psr := dpfCpsr r va vb }
  if wpc r.exW then { c with n.xAddr := dpRes r va vb &&& ~~~3, n.st := .ref0 }
  else
    let c := if !test r.exW then c.wreg (fRd r.exW) (bank r) (dpRes r va vb) else c
    { c with adv := true }

def dpArm : Comb := dpTail r va vb (capDflt r)

def psrArm : Comb :=
  let w := r.exW
  let c := capDflt r
  if !bit w 21 then
    let v := if bB w then psr32 (spsrCur r) else cpsr32 r
    if fRd w = 15 then
      { c with n.ctype := .N, n.xAddr := v &&& 0xFFFFFFFC, n.st := .ref0 }
    else
      let c := { c with n.ctype := .S }
      { c.wreg (fRd w) (bank r) v with adv := true }
  else
    let c := { c with n.ctype := .S }
    let c :=
      if bB w then
        if bank r != .usr then { c with spWe := true, spB := bank r, spV := msrSpsr r vb } else c
      else
        let p := if msrF r then r.psr.setFlags (msrSrc r vb) else r.psr
        let p := if msrC r then p.setControl (msrSrc r vb) else p
        { c with n.psr := p }
    { c with adv := true }

def mulArm : Comb :=
  let acc := if bit r.exW 21 then va else 0
  let c := { capDflt r with n.ctype := .I, n.xCalc := acc, n.xBase := vb }
  let c := c.wreg (field r.exW 16 4) (bank r) acc
  { c with n.xBorrow := false, n.mulK := 0, n.st := .mul }

def swpArm : Comb := { capDflt r with n.ctype := .N, n.xAddr := va, n.st := .swp1 }

def sdtArm : Comb :=
  let w := r.exW
  { capDflt r with
    n.ctype := .N
    n.xCalc := sum r va vb
    n.xAddr := if bP w then sum r va vb else va
    n.xWb := !bP w || bW w
    n.xBbyte := bB w
    n.xBuser := (!bP w && bW w) || umode r
    n.st := .sdt2 }

def bdtArm : Comb :=
  let w := r.exW
  { capDflt r with
    n.ctype := .N
    n.xList := list w
    n.xBase := va
    n.xCalc := sum r va vb
    n.xAddr := ad2 r va
    n.xUb := bit w 22 && !(bL w && bit (list w) 15)
    n.xFirst := true
    n.xAb := false
    n.xPcl := false
    n.pwV := false
    n.st := .bdtx }

def brArm : Comb :=
  let c := { capDflt r with n.ctype := .N }
  let c := if bit r.exW 24 then c.wreg 14 (bank r) (pcm4 r) else c
  { c with n.xAddr := ad2 r va, n.st := .ref0 }

def undArm : Comb := { Comb.dflt r with n.st := .und2, n.ctype := .I }

/-- `S_BOUND`. -/
def boundArm : Comb :=
  let w := r.exW
  if dHold l then holdArm r
  else if dExc r l then excArm r l
  else if !cond r then skipArm r
  else if isDp w && dpRs w then dpRsArm r vb
  else if isDp w then dpArm r va vb
  else if isPsr w then psrArm r vb
  else if isMul w then mulArm r va vb
  else if isSwp w then swpArm r va
  else if isSdt w then sdtArm r va vb
  else if isBdt w then bdtArm r va vb
  else if isBr w then brArm r va
  else undArm r

def dp2Arm : Comb := dpTail r va vb (Comb.dflt r)

def mulStepArm : Comb :=
  let acc := mAcc r va vb
  let c := { Comb.dflt r with
    n.xCalc := acc, n.xBase := r.xBase >>> 2, n.xBorrow := bit r.xBase 1, n.mulK := r.mulK + 1 }
  let c := c.wreg (field r.exW 16 4) (bank r) acc
  if mLast r then
    let c := { c with n.ctype := .S }
    let c :=
      if bS r.exW then
        { c with n.psr := { r.psr with n := bit acc 31, z := acc == 0, c := shC r vb } }
      else c
    { c with adv := true, n.st := .bound }
  else { c with n.ctype := .I }

def swp1Arm : Comb :=
  { Comb.dflt r with n.xData := rdata, n.xAb := abE, n.ctype := .N, n.st := .swp2 }

def swp2Arm : Comb :=
  { Comb.dflt r with n.xAb := r.xAb || abE, n.ctype := .I, n.st := .swp3 }

def swp3Arm : Comb :=
  let c := { Comb.dflt r with n.ctype := .S }
  let c := if r.xAb then { c with n.dab := true } else c.wreg (fRd r.exW) (bank r) (ldV r)
  { c with adv := true, n.st := .bound }

def sdt2Arm : Comb :=
  let w := r.exW
  let c := Comb.dflt r
  let c := if r.xWb && fRn w != 15 then c.wreg (fRn w) (bank r) r.xCalc else c
  if bL w then { c with n.xData := rdata, n.xAb := abE, n.ctype := .I, n.st := .sdt3 }
  else
    let c := if abE then { c with n.dab := true } else c
    { c with n.ctype := .N, adv := true, n.st := .bound }

def sdt3Arm : Comb :=
  let w := r.exW
  let c := { Comb.dflt r with
    n.ctype := if fRd w == 15 && !r.xAb then .N else .S, n.st := .bound }
  if r.xAb then { c with n.dab := true, adv := true }
  else if fRd w = 15 then { c with n.xAddr := ldV r &&& ~~~3, n.st := .ref0 }
  else { c.wreg (fRd w) (bank r) (ldV r) with adv := true }

/-- The delayed write of the register loaded before. -/
def Comb.pendingWrite (c : Comb) (r : CoreRegs) : Comb :=
  if r.pwV then { c with wReq := true, wPhys := true, wD := r.xData } else c

def bdtxArm : Comb :=
  let w := r.exW
  let ab := r.xAb || abE
  let c := { Comb.dflt r with
    n.xAb := ab, n.xFirst := false, n.xAddr := xap4 r, n.xList := r.xList &&& (r.xList - 1) }
  let c := if r.xFirst && bW w then c.wreg (fRn w) (bank r) r.xCalc else c
  if bL w then
    let c := c.pendingWrite r
    let c := { c with n.pwV := false }
    let c :=
      if !ab then
        let c := { c with n.xData := rdata }
        if bdtR r = 15 then { c with n.xPcl := true }
        else { c with n.pwV := true, n.pwIdx := phys (bdtR r) (if r.xUb then .usr else bank r) }
      else c
    { c with
      n.ctype := if bdtLast r then .I else .S, n.st := if bdtLast r then .bdtf else .bdtx }
  else
    let c := { c with n.ctype := if bdtLast r then .N else .S }
    if bdtLast r then
      let c := if ab then { c with n.dab := true } else c
      { c with adv := true, n.st := .bound }
    else c

def bdtfArm : Comb :=
  let w := r.exW
  let c := { Comb.dflt r with
    n.ctype := if r.xPcl then .N else .S, n.st := .bound, n.pwV := false }
  let c := c.pendingWrite r
  if r.xAb then
    { c.wreg (fRn w) (bank r) (if bW w then r.xCalc else r.xBase) with
      n.dab := true, adv := true }
  else if r.xPcl then
    let c := if bit w 22 && bank r != .usr then { c with n.psr := spsrCur r } else c
    { c with n.xAddr := r.xData &&& ~~~3, n.st := .ref0 }
  else { c with adv := true }

def und2Arm : Comb :=
  let c := { Comb.dflt r with
    n.ctype := .N, spWe := true, spB := .und, spV := r.psr,
    n.psr := { r.psr with m := mUnd, i := true } }
  { c.wreg 14 .und (pcm4 r) with n.xAddr := 0x04, n.st := .ref0 }

def ref0Arm : Comb :=
  { Comb.dflt r with
    n.xData := rdata, n.xFab := abE, n.xAddr := xap4 r, n.ctype := .S, n.st := .ref1 }

def ref1Arm : Comb := { Comb.dflt r with n.pc := xap4 r, n.ctype := .S, n.st := .bound }

/-- The next-state block. -/
def comb : Comb :=
  match r.st with
  | .bound => boundArm r va vb l
  | .dp2 => dp2Arm r va vb
  | .mul => mulStepArm r va vb
  | .swp1 => swp1Arm r rdata abE
  | .swp2 => swp2Arm r abE
  | .swp3 => swp3Arm r
  | .sdt2 => sdt2Arm r rdata abE
  | .sdt3 => sdt3Arm r
  | .bdtx => bdtxArm r rdata abE
  | .bdtf => bdtfArm r
  | .und2 => und2Arm r
  | .ref0 => ref0Arm r rdata abE
  | .ref1 => ref1Arm r

end Arms

/-- The register write port's enable, before `cdone`. -/
def Comb.wEn (c : Comb) : Bool := c.wReq && (c.wPhys || c.wR != 15)

def Comb.wIdx (c : Comb) (r : CoreRegs) : BitVec 5 := if c.wPhys then r.pwIdx else phys c.wR c.wB

/-- The registers after the clock that completes the cycle. -/
def Comb.regs (c : Comb) (r : CoreRegs) (rdata : Word) (abE : Bool) : CoreRegs :=
  { c.n with
    spsr := if c.spWe then Function.update r.spsr c.spB c.spV else r.spsr
    f1W := if c.cap then rdata else r.f1W
    f1A := if c.cap then abE else r.f1A
    exW := if r.st = .ref1 then r.xData else if c.adv then r.deW else r.exW
    exA := if r.st = .ref1 then r.xFab else if c.adv then r.deA else r.exA
    deW := if r.st = .ref1 then rdata
      else if c.adv then (if c.cap then rdata else r.f1W) else r.deW
    deA := if r.st = .ref1 then abE
      else if c.adv then (if c.cap then abE else r.f1A) else r.deA }

/-- What `rst` clears; the latches keep what they have. -/
def CoreRegs.reset (r : CoreRegs) : CoreRegs :=
  { r with
    st := .bound, mulK := 0, ctype := .N, pc := 0
    psr := { i := true, f := true, m := mSvc }
    spsr := fun _ => {}
    exW := 0, deW := 0, f1W := 0, exA := false, deA := false, f1A := false
    dab := false, inRst := false, rstExit := true, xAb := false, pwV := false }

namespace Core

variable (c : Core) (i : Pins)

/-- `hold_s`, `fiq_s`, `irq_s`: live in the first `ce` clock of a cycle, latched after it. -/
def sampled : Levels := if c.fc then i.levels else c.latched

def va : Word := portA c.regs (c.uRf.qa (raIdx c.regs))
def vb : Word := portB c.regs (c.uRf.qb (rbIdx c.regs))

def cdone : Bool := i.ce && (if busReq c.regs then i.busAck else true)
def abE : Bool := busReq c.regs && i.busAbort

/-- The next-state block at this clock's inputs. -/
def next : Comb := comb c.regs c.va c.vb (c.sampled i) i.busRdata (c.abE i)

/-- One clock edge. The in-flight latches and the register file have no reset. -/
def clock : Core where
  regs :=
    let done := if c.cdone i then (c.next i).regs c.regs i.busRdata (c.abE i) else c.regs
    if i.rst then done.reset else done
  fc := if i.rst then true else if i.ce then c.cdone i else c.fc
  latched :=
    if i.rst then ⟨false, false, false⟩
    else if i.ce && c.fc then i.levels
    else c.latched
  uRf := c.uRf.clock i.rst (c.cdone i && (c.next i).wEn) ((c.next i).wIdx c.regs) (c.next i).wD

/-- The bus outputs of a clock: type, request, address, flags and write data. -/
structure Outputs where
  type : CycleType
  req : Bool
  addr : Word
  flags : BusFlags
  wdata : Word
  deriving DecidableEq, Repr

def outputs : Outputs where
  type := busType c.regs
  req := busReq c.regs
  addr := busAddr c.regs
  flags := busFlags c.regs
  wdata := busWdata c.regs c.vb

def dbgBoundary : Bool := c.regs.st == .bound

end Core

end Wren7.Rtl
