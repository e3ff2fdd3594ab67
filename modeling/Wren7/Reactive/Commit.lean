import Mathlib.Logic.Function.Basic
import Mathlib.Tactic.Common

/-!
# Memories that commit late

A write that a clock edge accepts is in the memory from the following edge on. In the clock between the
two, a read of its address returns anything; the other addresses read normally. A bypass of the last
write hides the window.
-/

namespace Reactive

/-- A memory with the write that is not committed yet. -/
structure LateMem (α β : Type*) where
  cells : α → β
  pending : Option (α × β)

namespace LateMem

variable {α β : Type*} [DecidableEq α] (m : LateMem α β)

/-- What the memory holds once the pending write is committed. -/
def settled : α → β :=
  match m.pending with
  | some (a, d) => Function.update m.cells a d
  | none => m.cells

/-- A read; `junk` is what the memory returns inside the window. -/
def read (junk : β) (a : α) : β :=
  match m.pending with
  | some (p, _) => if p = a then junk else m.cells a
  | none => m.cells a

/-- A clock edge: the pending write is committed, another one may be accepted. -/
def edge (w : Option (α × β)) : LateMem α β := ⟨m.settled, w⟩

/-- A read behind a bypass of the last write. -/
def bypassed (last : Option (α × β)) (junk : β) (a : α) : β :=
  match last with
  | some (p, d) => if p = a then d else m.read junk a
  | none => m.read junk a

@[simp] lemma edge_pending (w : Option (α × β)) : (m.edge w).pending = w := rfl

lemma edge_settled_some (a : α) (d : β) :
    (m.edge (some (a, d))).settled = Function.update m.settled a d := rfl

lemma edge_settled_none : (m.edge none).settled = m.settled := rfl

/-- Behind the bypass of the pending write, every read is one of the settled memory. -/
lemma bypassed_pending (junk : β) (a : α) : m.bypassed m.pending junk a = m.settled a := by
  unfold bypassed read settled
  match m.pending with
  | none => rfl
  | some (p, d) =>
    dsimp only
    split_ifs with h
    · rw [h, Function.update_self]
    · rw [Function.update_of_ne (Ne.symm h)]

end LateMem

end Reactive
