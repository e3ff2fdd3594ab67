import Wren7.Reactive.Machine

/-!
# Machines that take several inputs at a time

In each burst such a machine reads some inputs, one at least, shows as many outputs and moves on. A
Mealy machine follows it if one burst is always a run of it; then every run of the Mealy machine is
made of bursts, and states that are related to the same burst state show the same outputs forever.
-/

namespace Reactive

structure Bursts (σ ι ο : Type*) where
  step : σ → (ℕ → ι) → List ο × σ
  pos : ∀ s inp, 0 < (step s inp).1.length

namespace Bursts

variable {σ ι ο τ ω : Type*} (B : Bursts σ ι ο) (s : σ) (inp : ℕ → ι)

/-- The number of inputs read and the state after `k` bursts. -/
def after : ℕ → ℕ × σ
  | 0 => (0, s)
  | k + 1 =>
    let r := B.step (after k).2 fun j => inp ((after k).1 + j)
    ((after k).1 + r.1.length, r.2)

/-- The number of inputs read in `k` bursts. -/
def start (k : ℕ) : ℕ := (B.after s inp k).1

/-- The state after `k` bursts. -/
def state (k : ℕ) : σ := (B.after s inp k).2

/-- The outputs of burst `k`. -/
def burst (k : ℕ) : List ο := (B.step (B.state s inp k) fun j => inp (B.start s inp k + j)).1

@[simp] lemma start_zero : B.start s inp 0 = 0 := rfl

@[simp] lemma state_zero : B.state s inp 0 = s := rfl

lemma start_succ (k : ℕ) : B.start s inp (k + 1) = B.start s inp k + (B.burst s inp k).length := rfl

lemma burst_pos (k : ℕ) : 0 < (B.burst s inp k).length := B.pos _ _

lemma le_start (k : ℕ) : k ≤ B.start s inp k := by
  induction k with
  | zero => exact Nat.le_refl 0
  | succ k ih =>
    have := B.burst_pos s inp k
    rw [start_succ]
    omega

/-- Every position lies in a burst. -/
lemma exists_burst (n : ℕ) : ∃ k j, j < (B.burst s inp k).length ∧ B.start s inp k + j = n := by
  have hlt : ∃ k, n < B.start s inp k := ⟨n + 1, B.le_start s inp (n + 1)⟩
  obtain ⟨hk, hmin⟩ := Nat.find_spec hlt, fun m => @Nat.find_min _ _ hlt m
  cases hk' : Nat.find hlt with
  | zero =>
    rw [hk', start_zero] at hk
    exact absurd hk (Nat.not_lt_zero n)
  | succ k =>
    have hle : ¬n < B.start s inp k := hmin k (by omega)
    rw [hk', start_succ] at hk
    exact ⟨k, n - B.start s inp k, by omega, by omega⟩

/-- From a state that is related to the burst machine's, a burst is a run to the next such state; the
Mealy machine rests in these and in no others. -/
structure Follows (M : Machine τ ι ω) (f : ω → ο) (rest : τ → Prop) (R : τ → σ → Prop) : Prop where
  rests : ∀ t s, R t s → rest t
  next : ∀ t s inp, R t s → R (M.after t inp (B.step s inp).1.length) (B.step s inp).2
  outs : ∀ t s inp, R t s → ∀ j (hj : j < (B.step s inp).1.length),
    f (M.outs t inp j) = (B.step s inp).1[j]
  busy : ∀ t s inp, R t s → ∀ j, 0 < j → j < (B.step s inp).1.length → ¬rest (M.after t inp j)

namespace Follows

variable {B s inp} {M : Machine τ ι ω} {f : ω → ο} {rest : τ → Prop} {R : τ → σ → Prop}
  (h : B.Follows M f rest R) {t t' : τ} (ht : R t s)

include h ht

lemma state (k : ℕ) : R (M.after t inp (B.start s inp k)) (B.state s inp k) := by
  induction k with
  | zero => exact ht
  | succ k ih =>
    rw [start_succ, Machine.after_add]
    exact h.next _ _ _ ih

lemma burst (k j : ℕ) (hj : j < (B.burst s inp k).length) :
    f (M.outs t inp (B.start s inp k + j)) = (B.burst s inp k)[j] := by
  rw [Machine.outs_add]
  exact h.outs _ _ _ (h.state ht k) j hj

/-- The Mealy machine rests where a burst begins. -/
lemma rests_iff (n : ℕ) : rest (M.after t inp n) ↔ ∃ k, B.start s inp k = n := by
  constructor
  · intro hn
    obtain ⟨k, j, hj, rfl⟩ := B.exists_burst s inp n
    rcases Nat.eq_zero_or_pos j with rfl | h0
    · exact ⟨k, rfl⟩
    · rw [Machine.after_add] at hn
      exact absurd hn (h.busy _ _ _ (h.state ht k) j h0 hj)
  · rintro ⟨k, rfl⟩
    exact h.rests _ _ (h.state ht k)

/-- Where the bursts are bounded, the next rest is as near. -/
lemma rests_within {N : ℕ} (hN : ∀ k, (B.burst s inp k).length ≤ N) (n : ℕ) :
    ∃ m, n < m ∧ m ≤ n + N ∧ rest (M.after t inp m) := by
  obtain ⟨k, j, hj, rfl⟩ := B.exists_burst s inp n
  have hle := hN k
  refine ⟨B.start s inp (k + 1), ?_, ?_, (h.rests_iff ht _).mpr ⟨k + 1, rfl⟩⟩
  · rw [start_succ]
    omega
  · rw [start_succ]
    omega

/-- What is related to the same state shows the same. -/
lemma outs_eq (ht' : R t' s) (n : ℕ) : f (M.outs t' inp n) = f (M.outs t inp n) := by
  obtain ⟨k, j, hj, rfl⟩ := B.exists_burst s inp n
  rw [h.burst ht k j hj, h.burst ht' k j hj]

end Follows

end Bursts

end Reactive
