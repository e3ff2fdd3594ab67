import Mathlib.Logic.Function.Basic
import Mathlib.Tactic.Common

/-!
# Words and their fields

The 32-bit word, one bit of a vector, and a contiguous field of a word. The two accessors are
kept folded in proofs, so that the same field is the same term on every side of an equation.
-/

namespace Bits

/-- A 32-bit machine word. -/
abbrev Word := BitVec 32

/-- Bit `i` of a vector. -/
def bit {n : ℕ} (w : BitVec n) (i : ℕ) : Bool := w.getLsbD i

/-- The `n`-bit field of a word whose lowest bit is `lo`. -/
def field (w : Word) (lo n : ℕ) : BitVec n := w.extractLsb' lo n

/-- `m` if the condition holds, else zero: a conditional bit of a mask. -/
def maskIf (b : Bool) (m : Word) : Word := if b then m else 0

/-- The word whose bit `i` is `p i`. -/
def genBits (p : ℕ → Bool) : Word := (BitVec.iunfoldr (fun i (_ : Unit) => ((), p i)) ()).2

@[simp] lemma maskIf_true (m : Word) : maskIf true m = m := rfl

@[simp] lemma maskIf_false (m : Word) : maskIf false m = 0 := rfl

lemma getLsbD_maskIf (b : Bool) (m : Word) (i : ℕ) :
    (maskIf b m).getLsbD i = (b && m.getLsbD i) := by
  cases b <;> simp [maskIf]

lemma getLsbD_genBits (p : ℕ → Bool) {i : ℕ} (hi : i < 32) : (genBits p).getLsbD i = p i :=
  BitVec.iunfoldr_getLsbD (fun _ => ()) (⟨i, hi⟩ : Fin 32) fun _ => rfl

lemma bit_eq_getLsbD {n : ℕ} (w : BitVec n) (i : ℕ) : bit w i = w.getLsbD i := rfl

end Bits
