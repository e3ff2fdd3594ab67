import Wren7.Model.Control
import Wren7.Model.Instr
import Wren7.Store.Overlay

/-!
# A plain memory

The memory behind a run: it reads what was written last and ignores aborted writes.
-/

namespace Wren7

open Bits Reactive

namespace Signals

def writes (c : Signals) : Bool := c.type.isMem && c.flags.write

/-- A data read. -/
def reads (c : Signals) : Bool := c.type.isMem && !c.flags.write && !c.flags.opc

/-- The bytes that a write fixes: those of its word, or the one addressed. -/
def bytes (c : Signals) (a : Word) : Option (BitVec 8) :=
  if a &&& ~~~3 = c.addr &&& ~~~3 ∧ (c.flags.byte = true → a = c.addr) then
    some (c.wdata.extractLsb' (8 * (a.toNat % 4)) 8)
  else none

/-- The writes that a memory accepts: it ignores the aborted ones. -/
def accepted : List Signals → (ℕ → Bool) → List (Word → Option (BitVec 8))
  | [], _ => []
  | c :: cs, ab => (if c.writes && !ab 0 then [c.bytes] else []) ++ accepted cs fun j => ab (j + 1)

variable {row : List Signals} {ab : ℕ → Bool}

lemma accepted_cons_of_not_writes {c : Signals} (h : c.writes = false) :
    accepted (c :: row) ab = accepted row fun j => ab (j + 1) := by
  rw [accepted, h]
  rfl

lemma accepted_of_not_writes (h : ∀ c ∈ row, c.writes = false) : accepted row ab = [] := by
  induction row generalizing ab with
  | nil => rfl
  | cons c cs ih =>
    rw [accepted_cons_of_not_writes (h c List.mem_cons_self),
      ih fun d hd => h d (List.mem_cons_of_mem _ hd)]

/-- An abort only takes writes away. -/
lemma accepted_sublist {ab' : ℕ → Bool} (h : ∀ j, (hj : j < row.length) → row[j].writes = true →
    ab j = false → ab' j = false) : (accepted row ab).Sublist (accepted row ab') := by
  induction row generalizing ab ab' with
  | nil => exact List.Sublist.refl _
  | cons c cs ih =>
    refine List.Sublist.append ?_ (ih fun j hj => h (j + 1) (Nat.succ_lt_succ hj))
    cases hw : c.writes with
    | false => exact List.Sublist.refl _
    | true =>
      cases hab : ab 0 with
      | true => exact List.nil_sublist _
      | false => rw [h 0 (Nat.succ_pos _) hw hab]

end Signals

namespace Arm7DI

/-- The word of a memory around an address. -/
def wordIn (m : Word → BitVec 8) (a : Word) : Word :=
  let a := a &&& ~~~3
  m (a + 3) ++ m (a + 2) ++ m (a + 1) ++ m a

/-- A cycle's write to the memory. -/
def record (m : Word → BitVec 8) (s : Arm7DI) (i : Input) : Word → BitVec 8 :=
  Store.puts m (Signals.accepted [(core.out s i).signals] fun _ => i.ans.abort)

/-- The memory `m` after the first cycles of a run. -/
def memoryAt (s : Arm7DI) (inp : ℕ → Input) (m : Word → BitVec 8) : ℕ → Word → BitVec 8 :=
  core.history record m s inp

/-- A cycle is answered from a memory: an opcode fetch sees one word per address, a read that is not
aborted sees the memory. -/
structure Answered (c : Signals) (a : Answer) (m : Word → BitVec 8) (code : Word → Slot) : Prop where
  fetch : c.type.isMem = true → c.flags.opc = true → ⟨a.rdata, a.abort⟩ = code c.addr
  read : c.reads = true → a.abort = false → a.rdata = wordIn m c.addr

/-- Cycle `n` of the run is answered from the memory as the run has left it. -/
def OnMemory (s : Arm7DI) (inp : ℕ → Input) (m : Word → BitVec 8) (code : Word → Slot) (n : ℕ) : Prop :=
  Answered (core.outs s inp n).signals (inp n).ans (memoryAt s inp m n) code

variable {s : Arm7DI} {inp : ℕ → Input} {m : Word → BitVec 8} {row : List Signals}

lemma memoryAt_succ (n : ℕ) : memoryAt s inp m (n + 1) = Store.puts (memoryAt s inp m n)
    (Signals.accepted [(core.outs s inp n).signals] fun _ => (inp n).ans.abort) := rfl

lemma memoryAt_add (k n : ℕ) : memoryAt s inp m (k + n) =
    memoryAt (core.after s inp k) (fun j => inp (k + j)) (memoryAt s inp m k) n := by
  induction n with
  | zero => rfl
  | succ n ih =>
    rw [← Nat.add_assoc, memoryAt_succ, ih, memoryAt_succ, Machine.outs_add]

lemma memoryAt_one : memoryAt s inp m 1 = Store.puts m (Signals.accepted [(core.outs s inp 0).signals]
    fun _ => (inp 0).ans.abort) := rfl

/-- The memory after a row of cycles. -/
lemma memoryAt_row (h : ∀ j, (hj : j < row.length) → (core.outs s inp j).signals = row[j]) :
    memoryAt s inp m row.length =
      Store.puts m (Signals.accepted row fun j => (inp j).ans.abort) := by
  induction row generalizing s inp m with
  | nil => rfl
  | cons c cs ih =>
    have h0 : (core.outs s inp 0).signals = c := h 0 (Nat.succ_pos _)
    rw [List.length_cons, Nat.add_comm, memoryAt_add, ih, memoryAt_one, h0, ← Store.puts_append]
    · simp only [Signals.accepted, List.append_nil, Nat.add_comm]
    · intro j hj
      rw [← Machine.outs_add, Nat.add_comm]
      exact h (j + 1) (Nat.succ_lt_succ hj)

/-- Two runs that write the same leave the same. -/
lemma memoryAt_congr {s' : Arm7DI} {inp' : ℕ → Input} {n : ℕ}
    (h : ∀ j < n, Signals.accepted [(core.outs s inp j).signals] (fun _ => (inp j).ans.abort) =
      Signals.accepted [(core.outs s' inp' j).signals] fun _ => (inp' j).ans.abort) :
    memoryAt s inp m n = memoryAt s' inp' m n := by
  induction n with
  | zero => rfl
  | succ n ih =>
    rw [memoryAt_succ, memoryAt_succ, ih fun j hj => h j (Nat.lt_succ_of_lt hj), h n (Nat.lt_succ_self n)]

/-! ### Runs on a memory -/

section Served

variable (s : Arm7DI) (m : Word → BitVec 8) (code : Word → Slot) (ab : ℕ → Bool)

/-- The answer of a memory that aborts the data cycles in `ab`. -/
def serves (p : (Word → BitVec 8) × Arm7DI) : Input :=
  let b := p.2.busCycle.bus
  if b.isFetch then ⟨[], ⟨⟨(code b.addr).word, 0, (code b.addr).abort⟩, false, false⟩⟩
  else ⟨[], ⟨⟨wordIn p.1 b.addr, 0, ab p.2.cycles⟩, false, false⟩⟩

/-- The inputs of a run on such a memory. -/
def servedBy (n : ℕ) : Input :=
  serves code ab ((core.withHistory record).loop (m, s) (serves code ab) n)

lemma servedBy_eq (n : ℕ) : servedBy s m code ab n = serves code ab
    (memoryAt s (servedBy s m code ab) m n, core.after s (servedBy s m code ab) n) := by
  have hloop := (core.withHistory record).after_loop (m, s) (serves code ab) n
  rw [Machine.withHistory_after] at hloop
  exact congrArg (serves code ab) hloop.symm

/-- Every memory has its run. -/
lemma onMemory_servedBy (n : ℕ) : OnMemory s (servedBy s m code ab) m code n := by
  set inp := servedBy s m code ab with hinp
  have hi : inp n = serves code ab (memoryAt s inp m n, core.after s inp n) := servedBy_eq s m code ab n
  have hlines : (inp n).lines = [] := by
    rw [hi, serves]
    split_ifs <;> rfl
  have hb : core.outs s inp n = (core.after s inp n).busCycle.bus := by
    rw [Machine.outs, core_out, hlines]
    rfl
  rw [OnMemory, hb]
  refine ⟨fun ht ho => ?_, fun hread _ => ?_⟩
  · have hf : (core.after s inp n).busCycle.bus.isFetch = true := by
      rw [BusCycle.isFetch]
      exact Bool.and_eq_true_iff.mpr ⟨ht, ho⟩
    rw [hi, serves, if_pos hf]
    rfl
  · have hf : (core.after s inp n).busCycle.bus.isFetch ≠ true := by
      intro hf
      rw [BusCycle.isFetch, Bool.and_eq_true] at hf
      rw [Signals.reads, Bool.and_eq_true, Bool.not_eq_true'] at hread
      exact Bool.noConfusion (hread.2.symm.trans hf.2)
    rw [hi, serves, if_neg hf]
    rfl

end Served

end Arm7DI

end Wren7
