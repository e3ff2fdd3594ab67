import Mathlib.Data.Nat.Find
import Mathlib.Logic.Function.Iterate
import Mathlib.Tactic.Common

/-!
# Mealy machines and their runs

A machine reads an input in each step, shows an output and moves on. A run is driven by an infinite
stream of inputs, so that a statement about every run of any length is one about every stream and
every position. The rules turn a step lemma into a run lemma: invariants, invariants with a history,
and a simulation in which one machine stutters.
-/

namespace Reactive

structure Machine (σ ι ο : Type*) where
  out : σ → ι → ο
  next : σ → ι → σ

namespace Machine

variable {σ ι ο τ κ ω γ : Type*} (M : Machine σ ι ο) (N : Machine τ κ ω)
variable (s : σ) (t : τ) (inp : ℕ → ι) (jnp : ℕ → κ)

/-- The state after `n` steps. -/
def after : ℕ → σ
  | 0 => s
  | n + 1 => M.next (after n) (inp n)

/-- The output of step `n`. -/
def outs (n : ℕ) : ο := M.out (M.after s inp n) (inp n)

@[simp] lemma after_zero : M.after s inp 0 = s := rfl

lemma after_succ (n : ℕ) : M.after s inp (n + 1) = M.next (M.after s inp n) (inp n) := rfl

/-- A run begins with its first step. -/
lemma after_succ' (n : ℕ) :
    M.after s inp (n + 1) = M.after (M.next s (inp 0)) (fun k => inp (k + 1)) n := by
  induction n with
  | zero => rfl
  | succ n ih => rw [after_succ, ih, after_succ]

/-- A run continues from the state it has reached, on the rest of the stream. -/
lemma after_add (m n : ℕ) :
    M.after s inp (m + n) = M.after (M.after s inp m) (fun k => inp (m + k)) n := by
  induction n with
  | zero => rfl
  | succ n ih => rw [← Nat.add_assoc, after_succ, ih, after_succ]

lemma outs_add (m n : ℕ) :
    M.outs s inp (m + n) = M.outs (M.after s inp m) (fun k => inp (m + k)) n := by
  unfold outs
  rw [after_add]

/-- The states of a run whose inputs an environment finds in them. -/
def loop (env : σ → ι) : ℕ → σ
  | 0 => s
  | n + 1 => M.next (loop env n) (env (loop env n))

lemma after_loop (env : σ → ι) (n : ℕ) :
    M.after s (fun k => env (M.loop s env k)) n = M.loop s env n := by
  induction n with
  | zero => rfl
  | succ n ih => rw [after_succ, ih, loop]

/-! ### Invariants -/

variable {M s inp}

/-- A property of the first state that every step of the run preserves holds all along the run. -/
theorem invariant {I : σ → Prop} (h0 : I s)
    (hstep : ∀ n, I (M.after s inp n) → I (M.next (M.after s inp n) (inp n))) (n : ℕ) :
    I (M.after s inp n) := by
  induction n with
  | zero => exact h0
  | succ n ih => exact hstep n ih

/-- The same for a run whose steps are admissible only up to a position. -/
theorem invariant_upto {I : σ → Prop} {n : ℕ} (h0 : I s)
    (hstep : ∀ m < n, I (M.after s inp m) → I (M.next (M.after s inp m) (inp m))) :
    ∀ m ≤ n, I (M.after s inp m) := by
  intro m
  induction m with
  | zero => exact fun _ => h0
  | succ m ih => exact fun hm => hstep m hm (ih (Nat.le_of_succ_le hm))

/-! ### Histories -/

variable (M)

variable (upd : γ → σ → ι → γ) (g : γ)

/-- The history after `n` steps. -/
def history (s : σ) (inp : ℕ → ι) : ℕ → γ
  | 0 => g
  | n + 1 => upd (history s inp n) (M.after s inp n) (inp n)

lemma history_succ (n : ℕ) : M.history upd g s inp (n + 1) =
    upd (M.history upd g s inp n) (M.after s inp n) (inp n) := rfl

/-- The machine together with the history of its run. -/
def withHistory : Machine (γ × σ) ι ο where
  out p i := M.out p.2 i
  next p i := (upd p.1 p.2 i, M.next p.2 i)

lemma withHistory_after (n : ℕ) :
    (M.withHistory upd).after (g, s) inp n = (M.history upd g s inp n, M.after s inp n) := by
  induction n with
  | zero => rfl
  | succ n ih =>
    rw [after_succ, ih]
    rfl

variable {M upd g}

/-- An invariant of the state and the history. -/
theorem invariant_history {I : γ → σ → Prop} (h0 : I g s)
    (hstep : ∀ n, I (M.history upd g s inp n) (M.after s inp n) →
      I (upd (M.history upd g s inp n) (M.after s inp n) (inp n))
        (M.next (M.after s inp n) (inp n))) (n : ℕ) :
    I (M.history upd g s inp n) (M.after s inp n) := by
  induction n with
  | zero => exact h0
  | succ n ih => exact hstep n ih

/-! ### Two machines -/

/-- Two machines in lock step: related states show related outputs and stay related. -/
theorem lockStep {t : τ} {jnp : ℕ → κ} {N : Machine τ κ ω} {R : σ → τ → Prop} {n : ℕ} (h0 : R s t)
    (hstep : ∀ m < n, R (M.after s inp m) (N.after t jnp m) →
      R (M.next (M.after s inp m) (inp m)) (N.next (N.after t jnp m) (jnp m))) :
    ∀ m ≤ n, R (M.after s inp m) (N.after t jnp m) := by
  intro m
  induction m with
  | zero => exact fun _ => h0
  | succ m ih => exact fun hm => hstep m hm (ih (Nat.le_of_succ_le hm))

/-- The number of visible steps before position `n`. -/
def visibleBefore (vis : ℕ → Bool) : ℕ → ℕ
  | 0 => 0
  | n + 1 => visibleBefore vis n + (vis n).toNat

lemma visibleBefore_succ (vis : ℕ → Bool) (n : ℕ) :
    visibleBefore vis (n + 1) = visibleBefore vis n + (vis n).toNat := rfl

/-- A step that is not visible leaves the other machine where it is; a visible one is matched by
one step of it. The relation may depend on the position. -/
theorem stuttering {t : τ} {jnp : ℕ → κ} {N : Machine τ κ ω} {R : ℕ → σ → τ → Prop} {vis : ℕ → Bool}
    (h0 : R 0 s t)
    (hvis : ∀ n, vis n = true → R n (M.after s inp n) (N.after t jnp (visibleBefore vis n)) →
      R (n + 1) (M.next (M.after s inp n) (inp n))
        (N.next (N.after t jnp (visibleBefore vis n)) (jnp (visibleBefore vis n))))
    (hsilent : ∀ n, vis n = false → R n (M.after s inp n) (N.after t jnp (visibleBefore vis n)) →
      R (n + 1) (M.next (M.after s inp n) (inp n)) (N.after t jnp (visibleBefore vis n)))
    (n : ℕ) : R n (M.after s inp n) (N.after t jnp (visibleBefore vis n)) := by
  induction n with
  | zero => exact h0
  | succ n ih =>
    rw [visibleBefore_succ, after_succ]
    cases hv : vis n with
    | true => exact hvis n hv ih
    | false => exact hsilent n hv ih

lemma visibleBefore_mono {vis : ℕ → Bool} {m n : ℕ} (h : m ≤ n) :
    visibleBefore vis m ≤ visibleBefore vis n := by
  induction h with
  | refl => exact le_refl _
  | step _ ih => exact le_trans ih (Nat.le_add_right _ _)

lemma visibleBefore_of_silent {vis : ℕ → Bool} {n m : ℕ} (hnm : n ≤ m)
    (h : ∀ j, n ≤ j → j < m → vis j = false) : visibleBefore vis m = visibleBefore vis n := by
  induction hnm with
  | refl => rfl
  | @step m hm ih =>
    rw [visibleBefore_succ, h m hm (Nat.lt_succ_self m), ih fun j hj hjm => h j hj (by omega)]
    rfl

/-- The next visible step from any position on. -/
lemma exists_next_visible {vis : ℕ → Bool} (h : ∀ n, ∃ m, n ≤ m ∧ vis m = true) (n : ℕ) :
    ∃ m, vis m = true ∧ visibleBefore vis m = visibleBefore vis n := by
  refine ⟨Nat.find (h n), (Nat.find_spec (h n)).2, visibleBefore_of_silent (Nat.find_spec (h n)).1 ?_⟩
  intro j hj hjm
  have := Nat.find_min (h n) hjm
  simpa [hj] using this

/-- If visible steps never stop, every number of them is reached at a visible step. -/
lemma exists_visibleBefore {vis : ℕ → Bool} (h : ∀ n, ∃ m, n ≤ m ∧ vis m = true) (k : ℕ) :
    ∃ n, vis n = true ∧ visibleBefore vis n = k := by
  induction k with
  | zero => exact exists_next_visible h 0
  | succ k ih =>
    obtain ⟨n, hn, hk⟩ := ih
    obtain ⟨m, hm, hm'⟩ := exists_next_visible h (n + 1)
    exact ⟨m, hm, by rw [hm', visibleBefore_succ, hn, hk]; rfl⟩

end Machine

/-! ### Loops -/

section Loops

variable {σ : Type*} (again : σ → Bool) (f : σ → σ)

/-- `while (again(s)) s = f(s);`, for `n` rounds at most. -/
def whileLoop : ℕ → σ → σ
  | 0, s => s
  | n + 1, s => if again s then whileLoop n (f s) else s

variable {again f} {s : σ} {n m : ℕ}

lemma whileLoop_of_first (hn : m ≤ n) (hm : again (f^[m] s) = false)
    (hlt : ∀ k < m, again (f^[k] s) = true) : whileLoop again f n s = f^[m] s := by
  induction m generalizing s n with
  | zero =>
    cases n with
    | zero => rfl
    | succ n => exact if_neg (Bool.eq_false_iff.mp hm)
  | succ m ih =>
    obtain ⟨n, rfl⟩ := Nat.exists_eq_add_of_lt hn
    have hs : again s = true := hlt 0 (Nat.succ_pos m)
    rw [whileLoop, if_pos hs]
    exact ih (Nat.le_add_right m n) hm fun k hk => hlt (k + 1) (Nat.succ_lt_succ hk)

/-- A loop with rounds enough ends in the first state in which it does not go on. -/
lemma whileLoop_ends (hn : m ≤ n) (hm : again (f^[m] s) = false) :
    ∃ k ≤ m, whileLoop again f n s = f^[k] s ∧ again (f^[k] s) = false ∧
      ∀ i < k, again (f^[i] s) = true := by
  have hex : ∃ k, again (f^[k] s) = false := ⟨m, hm⟩
  have hfirst : ∀ i < Nat.find hex, again (f^[i] s) = true := fun i hi =>
    (Bool.not_eq_false _).mp (Nat.find_min hex hi)
  have hle : Nat.find hex ≤ m := Nat.find_min' hex hm
  exact ⟨_, hle, whileLoop_of_first (Nat.le_trans hle hn) (Nat.find_spec hex) hfirst,
    Nat.find_spec hex, hfirst⟩

end Loops

end Reactive
