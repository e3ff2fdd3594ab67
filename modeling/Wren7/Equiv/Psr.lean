import Mathlib.Tactic.IntervalCases
import Wren7.Model.Arm7DI
import Wren7.Rtl.Core

/-!
# Program status registers

The RTL keeps the eleven bits that exist, the model a word with the others zero. Each way the model
computes a PSR with masks is the RTL's replacement of a field.
-/

namespace Wren7

open Bits Rtl

namespace Rtl

variable (p : Psr)

lemma getLsbD_psr32 (i : ℕ) : (psr32 p).getLsbD i =
    (p.n && psrN.getLsbD i || p.z && psrZ.getLsbD i || p.c && psrC.getLsbD i ||
      p.v && psrV.getLsbD i || p.i && psrI.getLsbD i || p.f && psrF.getLsbD i ||
      (p.m.setWidth 32).getLsbD i) := by
  simp only [psr32, BitVec.getLsbD_or, getLsbD_maskIf]

lemma field_eq_of_bits {w : Word} {m : BitVec 5} (h : ∀ i < 5, bit w i = bit m i) :
    field w 0 5 = m := by
  apply BitVec.eq_of_getLsbD_eq
  intro i hi
  simpa [field, hi, bit] using h i hi

/-- Two words are equal if they agree on the bits of a PSR and have no others. -/
lemma eq_psr32 {w : Word} (hn : bit w 31 = p.n) (hz : bit w 30 = p.z) (hc : bit w 29 = p.c)
    (hv : bit w 28 = p.v) (hi : bit w 7 = p.i) (hf : bit w 6 = p.f) (hm : field w 0 5 = p.m)
    (hres : w &&& ~~~psrImpl = 0) : w = psr32 p := by
  apply BitVec.eq_of_getLsbD_eq
  intro j hj
  have hj' := congrArg (fun v : Word => v.getLsbD j) hres
  simp only [BitVec.getLsbD_and, BitVec.getLsbD_not, hj] at hj'
  rw [getLsbD_psr32, ← hn, ← hz, ← hc, ← hv, ← hi, ← hf, ← hm]
  interval_cases j <;>
    simp [psrN, psrZ, psrC, psrV, psrI, psrF, psrImpl, bit, field] at hj' ⊢ <;> simp [hj']

@[simp] lemma bit_psr32_n : bit (psr32 p) 31 = p.n := by
  rw [bit, getLsbD_psr32]; simp [psrN, psrZ, psrC, psrV, psrI, psrF]

@[simp] lemma bit_psr32_z : bit (psr32 p) 30 = p.z := by
  rw [bit, getLsbD_psr32]; simp [psrN, psrZ, psrC, psrV, psrI, psrF]

@[simp] lemma bit_psr32_c : bit (psr32 p) 29 = p.c := by
  rw [bit, getLsbD_psr32]; simp [psrN, psrZ, psrC, psrV, psrI, psrF]

@[simp] lemma bit_psr32_v : bit (psr32 p) 28 = p.v := by
  rw [bit, getLsbD_psr32]; simp [psrN, psrZ, psrC, psrV, psrI, psrF]

@[simp] lemma bit_psr32_i : bit (psr32 p) 7 = p.i := by
  rw [bit, getLsbD_psr32]; simp [psrN, psrZ, psrC, psrV, psrI, psrF]

@[simp] lemma bit_psr32_f : bit (psr32 p) 6 = p.f := by
  rw [bit, getLsbD_psr32]; simp [psrN, psrZ, psrC, psrV, psrI, psrF]

@[simp] lemma modeOf_psr32 : modeOf (psr32 p) = p.m := by
  apply field_eq_of_bits
  intro i hi
  rw [bit, getLsbD_psr32]
  interval_cases i <;> simp [psrN, psrZ, psrC, psrV, psrI, psrF, bit]

lemma psr32_and_not_psrImpl : psr32 p &&& ~~~psrImpl = 0 := by
  apply BitVec.eq_of_getLsbD_eq
  intro i hi
  rw [BitVec.getLsbD_and, getLsbD_psr32]
  interval_cases i <;> simp [psrN, psrZ, psrC, psrV, psrI, psrF, psrImpl]

/-! ### The model's masks -/

variable {p}

/-- The flags of a data operation. -/
lemma psr32_setFlags (res : Word) (z c v : Bool) :
    (psr32 p &&& 0x0FFFFFFF) ||| (res &&& psrN) ||| maskIf z psrZ ||| maskIf c psrC |||
      maskIf v psrV = psr32 { p with n := bit res 31, z := z, c := c, v := v } := by
  apply BitVec.eq_of_getLsbD_eq
  intro j hj
  simp only [BitVec.getLsbD_or, BitVec.getLsbD_and, getLsbD_psr32, getLsbD_maskIf]
  interval_cases j <;> simp [psrN, psrZ, psrC, psrV, psrI, psrF, bit]

/-- The flags of a multiply: V is kept. -/
lemma psr32_setMulFlags (res : Word) (z c : Bool) :
    (psr32 p &&& 0x1FFFFFFF) ||| (res &&& psrN) ||| maskIf z psrZ ||| maskIf c psrC =
      psr32 { p with n := bit res 31, z := z, c := c } := by
  apply BitVec.eq_of_getLsbD_eq
  intro j hj
  simp only [BitVec.getLsbD_or, BitVec.getLsbD_and, getLsbD_psr32, getLsbD_maskIf]
  interval_cases j <;> simp [psrN, psrZ, psrC, psrV, psrI, psrF, bit]

/-- The fields an MSR names. -/
def Psr.msr (p : Psr) (f c : Bool) (w : Word) : Psr :=
  let p := if f then p.setFlags w else p
  if c then p.setControl w else p

lemma psr32_msr (f c : Bool) (w : Word) :
    ((psr32 p &&& ~~~(maskIf f 0xF0000000 ||| maskIf c 0x000000DF)) |||
      (w &&& (maskIf f 0xF0000000 ||| maskIf c 0x000000DF))) &&& psrImpl =
      psr32 (p.msr f c w) := by
  apply BitVec.eq_of_getLsbD_eq
  intro j hj
  simp only [BitVec.getLsbD_or, BitVec.getLsbD_and, BitVec.getLsbD_not, getLsbD_psr32,
    getLsbD_maskIf, hj, decide_true, Bool.true_and]
  cases f <;> cases c <;> interval_cases j <;>
    simp [psrN, psrZ, psrC, psrV, psrI, psrF, psrImpl, bit, Psr.msr, Psr.setFlags,
      Psr.setControl, field]

/-- A whole PSR written over another. -/
lemma psr32_write (q : Psr) :
    ((psr32 p &&& ~~~psrImpl) ||| (psr32 q &&& psrImpl)) &&& psrImpl = psr32 q := by
  apply BitVec.eq_of_getLsbD_eq
  intro j hj
  simp only [BitVec.getLsbD_or, BitVec.getLsbD_and, BitVec.getLsbD_not, getLsbD_psr32]
  interval_cases j <;> simp [psrN, psrZ, psrC, psrV, psrI, psrF, psrImpl]

/-- The PSR of an exception entry. -/
lemma psr32_enter (mode : BitVec 5) (setF : Bool) :
    (psr32 p &&& ~~~psrM) ||| mode.setWidth 32 ||| psrI ||| maskIf setF psrF =
      psr32 { p with m := mode, i := true, f := if setF then true else p.f } := by
  apply BitVec.eq_of_getLsbD_eq
  intro j hj
  simp only [BitVec.getLsbD_or, BitVec.getLsbD_and, BitVec.getLsbD_not, getLsbD_psr32,
    getLsbD_maskIf]
  cases setF <;> interval_cases j <;> simp [psrN, psrZ, psrC, psrV, psrI, psrF, psrM]

end Rtl

end Wren7
