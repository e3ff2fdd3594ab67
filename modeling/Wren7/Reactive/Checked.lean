import Wren7.Reactive.Machine

/-!
# Programs with checks

A program that stops at its first failing check. The rules show that none fails: along a sequence,
and in a loop whose body keeps an invariant as long as it is not called in a bad state. Where the
body steps a machine, the loop ends with the machine's runs.
-/

namespace Checked

universe u v

variable {ε : Type v} {α β : Type u} {x : Except ε α} {f : α → Except ε β}
variable {P Q : α → Prop} {R : β → Prop}

def check (c : Prop) [Decidable c] (e : ε) : Except ε PUnit := if c then .ok ⟨⟩ else .error e

/-- No check fails, and the result has the property. -/
def Yields (x : Except ε α) (P : α → Prop) : Prop := ∃ a, x = .ok a ∧ P a

namespace Yields

lemma ok {a : α} (h : P a) : Yields (.ok a : Except ε α) P := ⟨a, rfl, h⟩

lemma mono (h : Yields x P) (hPQ : ∀ a, P a → Q a) : Yields x Q :=
  h.imp fun a ha => ⟨ha.1, hPQ a ha.2⟩

lemma bind (h : Yields x P) (hf : ∀ a, P a → Yields (f a) R) : Yields (x >>= f) R := by
  obtain ⟨a, rfl, ha⟩ := h
  exact hf a ha

lemma check {c : Prop} [Decidable c] {e : ε} (h : c) :
    Yields (check c e : Except ε PUnit.{u + 1}) fun _ => c := ⟨⟨⟩, if_pos h, h⟩

lemma check_bind {c : Prop} [Decidable c] {e : ε} {f : PUnit.{u + 1} → Except ε β} (h : c)
    (hf : Yields (f ⟨⟩) R) : Yields (Checked.check c e >>= f) R :=
  (Yields.check h).bind fun _ _ => hf

end Yields

/-! ### Loops -/

variable (again : α → Bool) (body : α → Except ε α)

/-- The body `n` times. -/
def iterate : ℕ → α → Except ε α
  | 0, a => .ok a
  | n + 1, a => body a >>= iterate n

/-- `while (again) body`, for `n` rounds at most. -/
def loop : ℕ → α → Except ε α
  | 0, a => .ok a
  | n + 1, a => if again a then body a >>= loop n else .ok a

variable {again body} {I B : α → Prop} {a : α} {n : ℕ}

/-- A state in which the body is called. -/
def Visits (again : α → Bool) (body : α → Except ε α) (a : α) (n : ℕ) (b : α) : Prop :=
  iterate body n a = .ok b ∧ again b = true

lemma Visits.succ {a' b : α} (hb : body a = .ok a') (h : Visits again body a' n b) :
    Visits again body a (n + 1) b := ⟨by rw [iterate, hb]; exact h.1, h.2⟩

open Reactive in
/-- A body that keeps an invariant and steps a machine fails in bad states only. The loop ends if
every run of the machine rests in time, and the loop does not go on at a rest when the measure has
reached a limit. -/
theorem loop_yields {σ ι ω : Type*} [Nonempty ι] (M : Machine σ ι ω) (f : α → σ) (rest : σ → Prop)
    (μ : σ → ℕ) (limit : ℕ)
    (hstep : ∀ a, I a → again a = true → ¬B a →
      Yields (body a) fun b => I b ∧ ∃ i, f b = M.next (f a) i)
    (hagain : ∀ a, again a = true → rest (f a) → μ (f a) < limit)
    (hμ : ∀ s i, μ s < μ (M.next s i))
    (ha : I a) (hrest : ∀ inp, ∃ m < n, rest (M.after (f a) inp m) ∧ limit ≤ μ (f a) + m) :
    Yields (loop again body n a) (fun b => I b ∧ again b = false) ∨
      ∃ k < n, ∃ b, Visits again body a k b ∧ I b ∧ B b := by
  induction n generalizing a with
  | zero =>
    obtain ⟨i⟩ := ‹Nonempty ι›
    obtain ⟨m, hm, -⟩ := hrest fun _ => i
    exact absurd hm (Nat.not_lt_zero m)
  | succ n ih =>
    rw [loop]
    split_ifs with hc
    · by_cases hb : B a
      · exact Or.inr ⟨0, Nat.succ_pos n, a, ⟨rfl, hc⟩, ha, hb⟩
      obtain ⟨a', ha', hI, i, hi⟩ := hstep a ha hc hb
      rw [ha']
      refine (ih hI fun inp => ?_).imp id ?_
      · obtain ⟨m, hm, hr, hle⟩ := hrest fun k => if k = 0 then i else inp (k - 1)
        cases m with
        | zero => exact absurd hle (Nat.not_le.mpr (hagain a hc hr))
        | succ m =>
          have hlt := hμ (f a) i
          rw [Machine.after_succ', if_pos rfl, ← hi] at hr
          rw [← hi] at hlt
          exact ⟨m, Nat.lt_of_succ_lt_succ hm, hr, by omega⟩
      · rintro ⟨k, hk, b, hv, hB⟩
        exact ⟨k + 1, Nat.succ_lt_succ hk, b, hv.succ ha', hB⟩
    · exact Or.inl (.ok ⟨ha, Bool.eq_false_iff.mpr hc⟩)

end Checked
