import Wren7.Bits.Words

/-!
# The RTL barrel shifter

`wren7_shifter.sv`: one right rotator does every type, the masks `lo` and `hi` clear or fill the
bits that left the word.
-/

namespace Wren7.Rtl

open Bits

/-- One level of the rotator: `{v[k-1:0], v[31:k]}` if selected. -/
def rotStage (sel : Bool) (k : ℕ) (v : Word) : Word :=
  if sel then (v.setWidth k ++ v.extractLsb' k (32 - k)).setWidth 32 else v

/-- The five levels of 2:1 muxes. -/
def rotator (v : Word) (r5 : BitVec 5) : Word :=
  let s0 := rotStage (bit r5 0) 1 v
  let s1 := rotStage (bit r5 1) 2 s0
  let s2 := rotStage (bit r5 2) 4 s1
  let s3 := rotStage (bit r5 3) 8 s2
  rotStage (bit r5 4) 16 s3

/-- `lo[i] = ne[4:0] > i`: the bits an LSL clears. -/
def loMask (n5 : BitVec 5) : Word := genBits fun i => i < n5.toNat

/-- The mirror of `lo`: the bits an LSR or ASR clears or fills. -/
def hiMask (n5 : BitVec 5) : Word := genBits fun i => 31 - i < n5.toNat

/-- Effective amount: the immediate encodings mapped onto the register-amount rules. -/
def effAmount (t : BitVec 2) (n : BitVec 8) (imm : Bool) : BitVec 9 :=
  if imm then
    if n.setWidth 5 = 0 ∧ (t = 1 ∨ t = 2) then 32 else (n.setWidth 5).setWidth 9
  else n.setWidth 9

/-- `wren7_shifter`: the outputs `q` and `cout`. -/
def wren7Shifter (v : Word) (t : BitVec 2) (n : BitVec 8) (imm cin : Bool) : Word × Bool :=
  let rrx := imm && t == 3 && n.setWidth 5 == 0
  let ne := effAmount t n imm
  let zero := ne == 0
  let lt32 : Bool := ne < 32
  let eq32 := ne == 32
  let n5 : BitVec 5 := ne.setWidth 5
  let r5 := if t = 0 then 0 - n5 else n5
  let rot := rotator v r5
  let lo := loMask n5
  let hi := hiMask n5
  if rrx then (maskIf cin 0x80000000 ||| v >>> 1, bit v 0)
  else if !zero then
    match t with
    | 0 => (if lt32 then rot &&& ~~~lo else 0, if lt32 then bit rot 0 else eq32 && bit v 0)
    | 1 => (if lt32 then rot &&& ~~~hi else 0, if lt32 then bit rot 31 else eq32 && bit v 31)
    | 2 =>
      (if lt32 then (rot &&& ~~~hi) ||| (if bit v 31 then hi else 0)
        else if bit v 31 then 0xFFFFFFFF else 0,
       if lt32 then bit rot 31 else bit v 31)
    | _ => (rot, bit rot 31)
  else (v, cin)

end Wren7.Rtl
