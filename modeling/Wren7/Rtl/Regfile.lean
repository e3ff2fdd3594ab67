import Wren7.Bits.Words

/-!
# The RTL register file

`wren7_regfile.sv`: two copies of a 32-entry memory, one for each read port, and a bypass register
that holds the last write during the clock after it.
-/

namespace Wren7.Rtl

open Bits

structure Regfile where
  memA : BitVec 5 → Word
  memB : BitVec 5 → Word
  lwV : Bool
  lwA : BitVec 5
  lwD : Word

namespace Regfile

/-- Read port A. -/
def qa (f : Regfile) (ra : BitVec 5) : Word := if f.lwV && f.lwA == ra then f.lwD else f.memA ra

/-- Read port B. -/
def qb (f : Regfile) (rb : BitVec 5) : Word := if f.lwV && f.lwA == rb then f.lwD else f.memB rb

/-- One clock edge. -/
def clock (f : Regfile) (rst we : Bool) (wa : BitVec 5) (wd : Word) : Regfile where
  memA := if we then Function.update f.memA wa wd else f.memA
  memB := if we then Function.update f.memB wa wd else f.memB
  lwV := we && !rst
  lwA := wa
  lwD := wd

/-- The bypassed write is in both memories: a read never depends on which of the two it takes. -/
structure Coherent (f : Regfile) : Prop where
  memA : f.lwV = true → f.memA f.lwA = f.lwD
  memB : f.lwV = true → f.memB f.lwA = f.lwD

variable {f : Regfile}

lemma Coherent.qa_eq (h : f.Coherent) : f.qa = f.memA := by
  funext ra
  unfold qa
  split_ifs with hlw
  · simp only [Bool.and_eq_true, beq_iff_eq] at hlw
    rw [← hlw.2, h.memA hlw.1]
  · rfl

lemma Coherent.qb_eq (h : f.Coherent) : f.qb = f.memB := by
  funext rb
  unfold qb
  split_ifs with hlw
  · simp only [Bool.and_eq_true, beq_iff_eq] at hlw
    rw [← hlw.2, h.memB hlw.1]
  · rfl

lemma coherent_of_lwV (h : f.lwV = false) : f.Coherent :=
  ⟨fun h' => absurd h' (by simp [h]), fun h' => absurd h' (by simp [h])⟩

/-- Every clock edge leaves the bypass coherent, whatever the state before it. -/
lemma coherent_clock (f : Regfile) (rst we : Bool) (wa : BitVec 5) (wd : Word) :
    (f.clock rst we wa wd).Coherent := by
  constructor <;> intro h <;> simp [clock] at h ⊢ <;> simp [h.1]

@[simp] lemma clock_memA (f : Regfile) (rst we : Bool) (wa : BitVec 5) (wd : Word) :
    (f.clock rst we wa wd).memA = if we then Function.update f.memA wa wd else f.memA := rfl

@[simp] lemma clock_memB (f : Regfile) (rst we : Bool) (wa : BitVec 5) (wd : Word) :
    (f.clock rst we wa wd).memB = if we then Function.update f.memB wa wd else f.memB := rfl

end Regfile

end Wren7.Rtl
