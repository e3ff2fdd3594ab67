import Wren7.Model.Types

/-!
# Adder and barrel shifter of the C++ model

`ror32`, `add`, `shift_imm` and `shift_reg` of `arm7di.cpp`. Output references become results:
`add` returns the sum, the carry and the signed overflow, the shifters the value and the carry.
-/

namespace Wren7

open Bits

def ror32 (v : Word) (n : ℕ) : Word :=
  let n := n % 32
  if n ≠ 0 then (v >>> n) ||| (v <<< (32 - n)) else v

/-- `a + b + cin` with carry out and signed overflow. -/
def add (a b : Word) (cin : Bool) : Word × Bool × Bool :=
  let s : BitVec 64 := a.setWidth 64 + b.setWidth 64 + BitVec.ofNat 64 cin.toNat
  let r : Word := s.setWidth 32
  (r, bit s 32, bit (~~~(a ^^^ b) &&& (a ^^^ r)) 31)

/-- All bits equal to bit 31. -/
def signFill (rm : Word) : Word := if bit rm 31 then 0xFFFFFFFF else 0

/-- Immediate shift amount: amount 0 encodes LSL #0, LSR #32, ASR #32, RRX. -/
def shiftImm (rm : Word) (type : BitVec 2) (n : ℕ) (cin : Bool) : Word × Bool :=
  match type with
  | 0 => if n = 0 then (rm, cin) else (rm <<< n, bit rm (32 - n))
  | 1 => if n = 0 then (0, bit rm 31) else (rm >>> n, bit rm (n - 1))
  | 2 => if n = 0 then (signFill rm, bit rm 31) else (rm.sshiftRight n, bit rm (n - 1))
  | _ =>
    if n = 0 then (maskIf cin 0x80000000 ||| (rm >>> 1), bit rm 0)
    else (ror32 rm n, bit rm (n - 1))

/-- Shift amount from the bottom byte of Rs. -/
def shiftReg (rm : Word) (type : BitVec 2) (n : ℕ) (cin : Bool) : Word × Bool :=
  if n = 0 then (rm, cin) else
  match type with
  | 0 =>
    if n < 32 then (rm <<< n, bit rm (32 - n))
    else if n = 32 then (0, bit rm 0)
    else (0, false)
  | 1 =>
    if n < 32 then (rm >>> n, bit rm (n - 1))
    else if n = 32 then (0, bit rm 31)
    else (0, false)
  | 2 =>
    if n < 32 then (rm.sshiftRight n, bit rm (n - 1))
    else (signFill rm, bit rm 31)
  | _ =>
    let n := n % 32
    if n = 0 then (rm, bit rm 31) else (ror32 rm n, bit rm (n - 1))

end Wren7
