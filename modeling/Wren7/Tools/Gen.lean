import Wren7.Bits.Place
import Wren7.Model.Types
import Wren7.Random.Draw

/-!
# The case generator of the differential test

`struct Gen` of `qemu_diff.cpp`. Every function draws from the generator's stream of 64-bit numbers;
where C++ leaves the order of two draws open, the left one is first. Scratch addresses are relative
to the scratch label.
-/

namespace Wren7

open Bits Draws

namespace QemuDiff

/-- `enum Cls`. -/
inductive Cls
  | dp | mul | sdt | bdt | swp
  deriving DecidableEq, Repr

structure Case where
  cls : Cls
  op : Word
  /-- r0 to r12, r14, nothing, the flags. -/
  input : Fin 16 → Word
  region : Option ℕ
  cpsrMask : Word

/-- `REGION`. -/
def regionBytes : ℕ := 128

structure Gen where
  cases : List Case
  regions : ℕ
  scratchInit : List (BitVec 8)

abbrev Rng := Draws.Rand (BitVec 64)

def u32 : Rng Word := do return (← draw).setWidth 32

def below (n : ℕ) : Rng ℕ := do return (← draw).toNat % n

/-- A number below `2 ^ n`, as the field of `n` bits it is used for. -/
def field2 (n : ℕ) : Rng (BitVec n) := do return BitVec.ofNat n (← below (2 ^ n))

def coin : Rng Bool := do return bit (← draw) 0

/-- r0 to r12 and r14. -/
def reg : Rng Reg := do
  let r ← below 14
  return if r = 13 then 14 else BitVec.ofNat 4 r

def regNot (ex : List Reg) : Rng Reg := repeatUntil reg fun r => !ex.contains r

def special : List Word :=
  [0, 1, 2, 0x7FFFFFFF, 0x80000000, 0x80000001, 0xFFFFFFFF, 0xFFFFFFFE, 31, 32, 33, 0x100, 0xFF,
    0x1F, 0x20]

def value : Rng Word := do
  match ← below 6 with
  | 0 => return special.getD (← below special.length) 0
  | 1 => return BitVec.ofNat 32 (← below 64)
  | 2 => return (← u32) &&& 0xFF
  | _ => u32

def cond : Rng (BitVec 4) := do
  let c ← field2 4
  if c = 15 then return 14
  return if (← below 3) ≠ 0 then 14 else c

def baseCase (cls : Cls) : Rng Case := do
  let values ← (List.range 14).mapM fun _ => value
  let flags ← field2 4
  return {
    cls := cls
    op := 0
    input := fun i => if i = 15 then place flags 28 else values.getD i 0
    region := none
    cpsrMask := 0xF0000000 }

/-- The place of a register in the input record. -/
def slot (r : Reg) : Fin 16 := if r = 14 then 13 else r.toFin

def Case.setInput (c : Case) (i : Fin 16) (v : Word) : Case :=
  { c with input := Function.update c.input i v }

def Gen.push (g : Gen) (c : Case) : Gen := { g with cases := g.cases ++ [c] }

def newRegion (g : Gen) : Rng (ℕ × Gen) := do
  let bytes ← (List.range regionBytes).mapM fun _ => u32
  return (g.regions, { g with
    regions := g.regions + 1
    scratchInit := g.scratchInit ++ bytes.map (·.setWidth 8) })

/-- The shift amounts of which a register-specified shift takes the low byte. -/
def amts : List Word := [0, 1, 2, 7, 31, 32, 33, 63, 64, 100, 255, 256, 257, 0xFFFFFF20]

/-- The operand 2 field of a data operation, and the case with the shift amount in Rs. -/
def dpOperand (c : Case) (form : ℕ) (rm rs : Reg) : Rng (Word × Case) :=
  if form = 0 then do
    let rot ← field2 4
    let imm ← field2 8
    return (place rot 8 ||| place imm 0, c)
  else if form = 1 then do
    let amt ← field2 5
    let type ← field2 2
    return (place amt 7 ||| place type 5 ||| place rm 0, c)
  else do
    let type ← field2 2
    let op2 := place rs 8 ||| place type 5 ||| 0x10 ||| place rm 0
    let plain ← below 3
    if plain ≠ 0 then
      let high ← u32
      let table ← below 2
      let low ← (if table ≠ 0 then do return amts.getD (← below 14) 0 &&& 0xFF
        else do return BitVec.ofNat 32 (← below 256))
      return (op2, c.setInput (slot rs) ((high &&& ~~~0xFF) ||| low))
    else return (op2, c)

def genDp (g : Gen) : Rng Gen := do
  let c ← baseCase .dp
  let opc ← field2 4
  let test := opc &&& 0xC == 0x8
  let S ← (if test then pure true else coin)
  -- 0 immediate, 1 shift by an immediate, 2 shift by a register
  let form ← below 3
  let rn ← reg
  let rd ← reg
  let rm ← reg
  let rs ← reg
  let rn ← (if form ≠ 2 then do return if (← below 12) = 0 then 15 else rn else pure rn)
  let rm ← (if form = 1 then do return if (← below 12) = 0 then 15 else rm else pure rm)
  let rd := if test then 0 else rd
  let rn := if opc = 0xD ∨ opc = 0xF then 0 else rn
  let (op2, c) ← dpOperand c form rm rs
  let cc ← cond
  return g.push { c with
    op := place cc 28 ||| place (BitVec.ofBool (form = 0)) 25 ||| place opc 21 |||
      place (BitVec.ofBool S) 20 ||| place rn 16 ||| place rd 12 ||| op2 }

def genMul (g : Gen) : Rng Gen := do
  let c ← baseCase .mul
  let rm ← reg
  let rd ← regNot [rm]
  let rs ← reg
  let rn ← reg
  let A ← coin
  let S ← coin
  let rn := if A then rn else 0
  let cc ← cond
  let op := place cc 28 ||| place (BitVec.ofBool A) 21 ||| place (BitVec.ofBool S) 20 |||
    place rd 16 ||| place rn 12 ||| place rs 8 ||| 0x90 ||| place rm 0
  let c : Case := { c with op := op, cpsrMask := 0xD0000000 }
  if (← below 2) ≠ 0 then
    let small ← below 2
    let v ← (if small ≠ 0 then do return BitVec.ofNat 32 (← below 64)
      else do
        let n ← below 32
        return ((1 : Word) <<< n) - BitVec.ofNat 32 (← below 2))
    return g.push (c.setInput (slot rs) v)
  else return g.push c

/-- A register offset: what the shift makes of Rm, the value of Rm and the shift amount. For RRX the
carry is cleared. -/
def sdtOffset (type : BitVec 2) : Rng (Word × Word × ℕ) :=
  match type with
  | 0 => do
    let amt ← below 4
    let rmv := BitVec.ofNat 32 (← below 16)
    return (rmv <<< amt, rmv, amt)
  | 1 => do
    let amt := 26 + (← below 7)
    let rmv ← u32
    return (if amt = 32 then 0 else rmv >>> amt, rmv, amt)
  | 2 => do
    let amt := 26 + (← below 7)
    let rmv := (← u32) &&& 0x7FFFFFFF
    return (if amt = 32 then 0 else rmv >>> amt, rmv, amt)
  | _ => do
    let amt ← below 32
    if amt = 0 then
      let rmv := BitVec.ofNat 32 ((← below 31) * 2)
      return (rmv >>> 1, rmv, amt)
    else
      let off := BitVec.ofNat 32 (← below 61)
      return (off, (off <<< amt) ||| (off >>> (32 - amt)), amt)

/-- The offset of a single transfer with its field in the instruction word, and the case with the
value of Rm. -/
def sdtOperand (c : Case) (I : Bool) (rn rd : Reg) : Rng (Word × Word × Case) :=
  if !I then do
    let off := BitVec.ofNat 32 (← below 61)
    return (off, off, c)
  else do
    let rm ← regNot [rn, rd]
    let type ← field2 2
    let (off, rmv, amt) ← sdtOffset type
    let c := if type = 3 ∧ amt = 0 then c.setInput 15 (c.input 15 &&& ~~~psrC) else c
    return (off, place (BitVec.ofNat 5 (amt &&& 31)) 7 ||| place type 5 ||| place rm 0,
      c.setInput (slot rm) rmv)

/-- The case of `gen_sdt` in a region, with the address `A` it is meant to access. -/
def sdtCase (c : Case) (region : ℕ) : Rng (Case × Word) := do
  let P ← coin
  let U ← coin
  let B ← coin
  let L ← coin
  let I ← coin
  let W ← (if P then coin else do return (← below 4) = 0)
  let wb := !P || W
  let rn ← reg
  let rd ← (if wb then regNot [rn] else reg)
  let (off, op2, c) ← sdtOperand c I rn rd
  let A := BitVec.ofNat 32 (regionBytes * region + 64 + (← below 4))
  let A := if B then A else A &&& ~~~3
  let c := c.setInput (slot rn) (if P then (if U then A - off else A + off) else A)
  let cc ← cond
  return ({ c with
    region := some region
    op := place cc 28 ||| place (1 : BitVec 1) 26 ||| place (BitVec.ofBool I) 25 |||
      place (BitVec.ofBool P) 24 ||| place (BitVec.ofBool U) 23 ||| place (BitVec.ofBool B) 22 |||
      place (BitVec.ofBool W) 21 ||| place (BitVec.ofBool L) 20 ||| place rn 16 ||| place rd 12 |||
      op2 }, A)

def genSdt (g : Gen) : Rng Gen := do
  let c ← baseCase .sdt
  let (k, g) ← newRegion g
  let (c, _) ← sdtCase c k
  return g.push c

/-- One round of the loop that draws a register list. -/
def listRound (W : Bool) (rn : Reg) : Rng Word := do
  let list := (← u32) &&& 0x5FFF
  let thin ← below 3
  let list ← (if thin = 0 then do
      let x ← u32
      let y ← u32
      return list &&& (x &&& y)
    else pure list)
  return if W then list &&& ~~~((1 : Word) <<< rn.toNat) else list

def genBdt (g : Gen) : Rng Gen := do
  let c ← baseCase .bdt
  let (k, g) ← newRegion g
  let P ← coin
  let U ← coin
  let W ← coin
  let L ← coin
  let rn ← reg
  let list ← repeatUntil (listRound W rn) fun list => list != 0
  let c := c.setInput (slot rn) (BitVec.ofNat 32 (regionBytes * k + 64))
  let cc ← cond
  return g.push { c with
    region := some k
    op := place cc 28 ||| place (4 : BitVec 3) 25 ||| place (BitVec.ofBool P) 24 |||
      place (BitVec.ofBool U) 23 ||| place (BitVec.ofBool W) 21 ||| place (BitVec.ofBool L) 20 |||
      place rn 16 ||| list }

def genSwp (g : Gen) : Rng Gen := do
  let c ← baseCase .swp
  let (k, g) ← newRegion g
  let B ← coin
  let rn ← reg
  let rd ← regNot [rn]
  let rm ← regNot [rn]
  let A := BitVec.ofNat 32 (regionBytes * k + 64 + (← below 4))
  let A := if B then A else A &&& ~~~3
  let c := c.setInput (slot rn) A
  let cc ← cond
  return g.push { c with
    region := some k
    op := place cc 28 ||| 0x01000090 ||| place (BitVec.ofBool B) 22 ||| place rn 16 |||
      place rd 12 ||| place rm 0 }

/-- One case of `generate`. -/
def genOne (g : Gen) : Rng Gen := do
  let k ← below 100
  if k < 55 then genDp g
  else if k < 67 then genMul g
  else if k < 82 then genSdt g
  else if k < 94 then genBdt g
  else genSwp g

def generate (n : ℕ) : Rng Gen := iterate genOne n ⟨[], 0, []⟩

end QemuDiff

end Wren7
