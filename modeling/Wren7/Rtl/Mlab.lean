import Wren7.Reactive.Commit
import Wren7.Reactive.Machine
import Wren7.Rtl.Regfile

/-!
# The register file on MLABs

`wren7_regfile.sv` with memories that commit a write during the clock after its edge, as on the device.
The simulation's memories commit at once; the two show the same, whatever the device's reads return
inside the window.
-/

namespace Wren7.Rtl

open Bits Reactive

/-- The inputs of the register file in one clock, and what its memories return inside the window. -/
structure RegfileIn where
  rst : Bool
  we : Bool
  wa : BitVec 5
  wd : Word
  ra : BitVec 5
  rb : BitVec 5
  junkA : Word
  junkB : Word

/-- The write that a clock's edge accepts. -/
def RegfileIn.write (i : RegfileIn) : Option (BitVec 5 × Word) :=
  if i.we then some (i.wa, i.wd) else none

structure MlabRegfile where
  memA : LateMem (BitVec 5) Word
  memB : LateMem (BitVec 5) Word
  lwV : Bool
  lwA : BitVec 5
  lwD : Word

namespace MlabRegfile

variable (f : MlabRegfile)

/-- Read port A. -/
def qa (i : RegfileIn) : Word :=
  if f.lwV && f.lwA == i.ra then f.lwD else f.memA.read i.junkA i.ra

/-- Read port B. -/
def qb (i : RegfileIn) : Word :=
  if f.lwV && f.lwA == i.rb then f.lwD else f.memB.read i.junkB i.rb

/-- One clock edge. -/
def clock (i : RegfileIn) : MlabRegfile where
  memA := f.memA.edge i.write
  memB := f.memB.edge i.write
  lwV := i.we && !i.rst
  lwA := i.wa
  lwD := i.wd

/-- Both memories with the same contents, no write on its way. -/
def init (content : BitVec 5 → Word) : MlabRegfile := ⟨⟨content, none⟩, ⟨content, none⟩, false, 0, 0⟩

/-- The register file as a machine, one clock per step. -/
def clocks : Machine MlabRegfile RegfileIn (Word × Word) where
  out f i := (f.qa i, f.qb i)
  next f i := f.clock i

/-- The bypass register. -/
def last : Option (BitVec 5 × Word) := if f.lwV then some (f.lwA, f.lwD) else none

lemma qa_eq (i : RegfileIn) : f.qa i = f.memA.bypassed f.last i.junkA i.ra := by
  unfold qa last LateMem.bypassed
  cases f.lwV
  · rfl
  · simp only [Bool.true_and, beq_iff_eq, if_true]

lemma qb_eq (i : RegfileIn) : f.qb i = f.memB.bypassed f.last i.junkB i.rb := by
  unfold qb last LateMem.bypassed
  cases f.lwV
  · rfl
  · simp only [Bool.true_and, beq_iff_eq, if_true]

/-- The bypass holds the write on its way, and both memories settle to `content`. -/
structure Holds (content : BitVec 5 → Word) : Prop where
  pendingA : f.memA.pending = f.last
  pendingB : f.memB.pending = f.last
  settledA : f.memA.settled = content
  settledB : f.memB.settled = content

variable {f} {content : BitVec 5 → Word} {i : RegfileIn}

lemma holds_init (content : BitVec 5 → Word) : (init content).Holds content := ⟨rfl, rfl, rfl, rfl⟩

/-- Both ports show the settled contents. -/
lemma Holds.ports (h : f.Holds content) : f.qa i = content i.ra ∧ f.qb i = content i.rb := by
  rw [qa_eq, qb_eq, ← h.pendingA, LateMem.bypassed_pending, h.settledA, h.pendingA, ← h.pendingB,
    LateMem.bypassed_pending, h.settledB]
  exact ⟨rfl, rfl⟩

/-- The contents after a clock. -/
def written (content : BitVec 5 → Word) (i : RegfileIn) : BitVec 5 → Word :=
  if i.we then Function.update content i.wa i.wd else content

/-- A clock moves the contents on, if no write is accepted under reset. -/
lemma Holds.clock (h : f.Holds content) (hr : i.we = true → i.rst = false) :
    (f.clock i).Holds (written content i) := by
  have hlast : (f.clock i).last = i.write := by
    unfold last RegfileIn.write
    rw [MlabRegfile.clock]
    cases hw : i.we
    · rfl
    · rw [hr hw]
      rfl
  have hset : ∀ m : LateMem (BitVec 5) Word, m.settled = content →
      (m.edge i.write).settled = written content i := by
    intro m hm
    unfold RegfileIn.write written
    split_ifs
    · rw [LateMem.edge_settled_some, hm]
    · rw [LateMem.edge_settled_none, hm]
  exact ⟨hlast.symm, hlast.symm, hset _ h.settledA, hset _ h.settledB⟩

/-- The last value that the edges before clock `n` wrote to a register; its initial content if none
did. -/
def LastWritten (content : BitVec 5 → Word) (inp : ℕ → RegfileIn) (n : ℕ) (a : BitVec 5)
    (v : Word) : Prop :=
  (∃ m < n, (inp m).we = true ∧ (inp m).wa = a ∧ (inp m).wd = v ∧
    ∀ j, m < j → j < n → ¬((inp j).we = true ∧ (inp j).wa = a)) ∨
  (∀ m < n, ¬((inp m).we = true ∧ (inp m).wa = a)) ∧ content a = v

variable {inp : ℕ → RegfileIn} {n : ℕ}

lemma LastWritten.succ {a : BitVec 5} {v : Word} (h : LastWritten content inp n a v)
    (hn : ¬((inp n).we = true ∧ (inp n).wa = a)) : LastWritten content inp (n + 1) a v := by
  have hlt : ∀ {j}, j < n + 1 → j < n ∨ j = n := fun hj => Nat.lt_succ_iff_lt_or_eq.mp hj
  rcases h with ⟨m, hm, hw, ha, hv, hlast⟩ | ⟨hnone, hv⟩
  · refine .inl ⟨m, by omega, hw, ha, hv, fun j hj hjn => ?_⟩
    rcases hlt hjn with h | rfl
    · exact hlast j hj h
    · exact hn
  · refine .inr ⟨fun j hjn => ?_, hv⟩
    rcases hlt hjn with h | rfl
    · exact hnone j h
    · exact hn

/-- The settled contents of a run are the last writes. -/
lemma holds_after (hr : ∀ n, (inp n).we = true → (inp n).rst = false) (n : ℕ) :
    ∃ now, (clocks.after (init content) inp n).Holds now ∧
      ∀ a, LastWritten content inp n a (now a) := by
  induction n with
  | zero =>
    exact ⟨content, holds_init content, fun a => .inr ⟨fun m hm => absurd hm (Nat.not_lt_zero m), rfl⟩⟩
  | succ n ih =>
    obtain ⟨now, h, hlast⟩ := ih
    refine ⟨_, h.clock (hr n), fun a => ?_⟩
    unfold written
    by_cases hw : (inp n).we = true ∧ (inp n).wa = a
    · obtain ⟨hw, rfl⟩ := hw
      rw [if_pos hw, Function.update_self]
      exact .inl ⟨n, Nat.lt_succ_self n, hw, rfl, rfl, fun j hj hj' => by omega⟩
    · have hsame : (if (inp n).we then Function.update now (inp n).wa (inp n).wd else now) a =
          now a := by
        split_ifs with hwe
        · rw [Function.update_of_ne fun ha => hw ⟨hwe, ha.symm⟩]
        · rfl
      rw [hsame]
      exact (hlast a).succ hw

/-- Whatever the memories return while a write commits: in every clock of every run, both ports show the
last value written at an earlier edge. A write of the same clock's edge is not one of them. -/
theorem regfile_array (content : BitVec 5 → Word)
    (hr : ∀ n, (inp n).we = true → (inp n).rst = false) (n : ℕ) :
    LastWritten content inp n (inp n).ra (clocks.outs (init content) inp n).1 ∧
      LastWritten content inp n (inp n).rb (clocks.outs (init content) inp n).2 := by
  obtain ⟨now, h, hlast⟩ := @holds_after content inp hr n
  obtain ⟨ha, hb⟩ := h.ports (i := inp n)
  have hout : clocks.outs (init content) inp n = (now (inp n).ra, now (inp n).rb) :=
    Prod.ext ha hb
  rw [hout]
  exact ⟨hlast _, hlast _⟩

/-- Two writes back to back to one register, each read in the clock after its edge. -/
theorem regfile_array_back_to_back :
    LastWritten (fun _ => 0) (fun n => ⟨false, true, 3, BitVec.ofNat 32 n, 3, 3, 7, 7⟩) 2 3
      (clocks.outs (init fun _ => 0)
        (fun n => ⟨false, true, 3, BitVec.ofNat 32 n, 3, 3, 7, 7⟩) 2).1 :=
  (regfile_array (fun _ => 0) (fun _ _ => rfl) 2).1

/-! ### The simulation's register file -/

/-- The memories of the simulation hold at once what the ones of the device settle to. -/
structure Shows (f : MlabRegfile) (g : Regfile) : Prop where
  holds : f.Holds g.memA
  same : g.memB = g.memA
  lwV : g.lwV = f.lwV
  coherent : g.Coherent

lemma Shows.ports {g : Regfile} (h : f.Shows g) : f.qa i = g.qa i.ra ∧ f.qb i = g.qb i.rb := by
  rw [h.coherent.qa_eq, h.coherent.qb_eq, h.same]
  exact h.holds.ports

lemma Shows.clock {g : Regfile} (h : f.Shows g) (hr : i.we = true → i.rst = false) :
    (f.clock i).Shows (g.clock i.rst i.we i.wa i.wd) := by
  refine ⟨h.holds.clock hr, ?_, rfl, g.coherent_clock i.rst i.we i.wa i.wd⟩
  rw [Regfile.clock_memA, Regfile.clock_memB, h.same]

/-- On the device the register file shows what the simulated one does, in every clock. -/
theorem mlab_regfile (content : BitVec 5 → Word)
    (hr : ∀ n, (inp n).we = true → (inp n).rst = false) (n : ℕ) :
    (clocks.after (init content) inp n).Shows
      ((List.range n).foldl (fun g k => g.clock (inp k).rst (inp k).we (inp k).wa (inp k).wd)
        ⟨content, content, false, 0, 0⟩) := by
  induction n with
  | zero => exact ⟨holds_init content, rfl, rfl, Regfile.coherent_of_lwV rfl⟩
  | succ n ih =>
    rw [List.range_succ, List.foldl_append]
    exact ih.clock (hr n)

end MlabRegfile

end Wren7.Rtl
