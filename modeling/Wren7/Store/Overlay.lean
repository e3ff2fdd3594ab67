import Mathlib.Data.List.Sublists

/-!
# Writes into a store

A write fixes the contents of some places, whatever they were. Writes that are done again, after any
part of them has been done, leave what they leave when they are done once.
-/

namespace Store

variable {α β : Type*}

/-- The store after a write. -/
def put (m : α → β) (w : α → Option β) : α → β := fun a => (w a).getD (m a)

/-- The store after a list of writes, the first one first. -/
def puts (m : α → β) (ws : List (α → Option β)) : α → β := ws.foldl put m

variable {m m' : α → β} {w : α → Option β} {ws vs : List (α → Option β)} {a : α}

@[simp] lemma puts_nil : puts m [] = m := rfl

@[simp] lemma puts_cons : puts m (w :: ws) = puts (put m w) ws := rfl

lemma puts_append : puts m (ws ++ vs) = puts (puts m ws) vs := List.foldl_append

/-- A place that no write fixes keeps its contents. -/
lemma puts_other (h : ∀ w ∈ ws, w a = none) : puts m ws a = m a := by
  induction ws generalizing m with
  | nil => rfl
  | cons w ws ih =>
    rw [puts_cons, ih fun v hv => h v (List.mem_cons_of_mem _ hv), put, h w List.mem_cons_self]
    rfl

/-- Writes make two stores equal that are equal wherever they fix nothing. -/
lemma puts_congr (h : ∀ a, (∀ w ∈ ws, w a = none) → m a = m' a) : puts m ws = puts m' ws := by
  induction ws generalizing m m' with
  | nil => exact funext fun a => h a fun w hw => absurd hw List.not_mem_nil
  | cons w ws ih =>
    refine ih fun a ha => ?_
    cases hw : w a with
    | none =>
      rw [put, put, hw]
      exact h a (List.forall_mem_cons.mpr ⟨hw, ha⟩)
    | some b => rw [put, put, hw, Option.getD_some, Option.getD_some]

/-- Some of the writes first and then all of them. -/
theorem puts_sublist (h : vs.Sublist ws) : puts (puts m vs) ws = puts m ws :=
  puts_congr fun _ ha => puts_other fun v hv => ha v (h.subset hv)

end Store
