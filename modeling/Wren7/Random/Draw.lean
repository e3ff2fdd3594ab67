import Mathlib.Tactic.Common

/-!
# Programs that draw random numbers

A program reads the numbers of a stream from the front. It is given a finite part of the stream and
has no result if that is too short; so what holds of every result, for every list of numbers, holds
of every run that ends, on every stream. The rules follow the structure of a program.
-/

namespace Draws

abbrev Rand (ρ : Type) := StateT (List ρ) Option

variable {ρ α β : Type} {m : Rand ρ α} {f : α → Rand ρ β} {P Q : α → Prop} {R : β → Prop}

/-- The next number. -/
def draw : Rand ρ ρ
  | [] => none
  | r :: rs => some (r, rs)

/-- The same program over and over, with a bound on the number of rounds. -/
def untilFuel (m : Rand ρ α) (p : α → Bool) : ℕ → Rand ρ α
  | 0, _ => none
  | n + 1, rs => do
    let (a, rs') ← m rs
    if p a then return (a, rs') else untilFuel m p n rs'

/-- `do … while`: the program is repeated until its result passes. Each round draws a number, so
there are at most as many rounds as numbers. -/
def repeatUntil (m : Rand ρ α) (p : α → Bool) : Rand ρ α := fun rs =>
  untilFuel m p (rs.length + 1) rs

/-- The program run on its own result `n` times. -/
def iterate (f : α → Rand ρ α) : ℕ → α → Rand ρ α
  | 0, a => pure a
  | n + 1, a => do iterate f n (← f a)

/-! ### Every result -/

/-- Every result of the program has the property. -/
def Ensures (m : Rand ρ α) (P : α → Prop) : Prop := ∀ rs a rs', m rs = some (a, rs') → P a

namespace Ensures

lemma mono (h : Ensures m P) (hPQ : ∀ a, P a → Q a) : Ensures m Q := fun rs a rs' hm =>
  hPQ a (h rs a rs' hm)

lemma trivial : Ensures m fun _ => True := fun _ _ _ _ => True.intro

lemma pure {a : α} (h : P a) : Ensures (Pure.pure a : Rand ρ α) P := by
  intro rs b rs' hb
  cases hb
  exact h

lemma bind (hm : Ensures m P) (hf : ∀ a, P a → Ensures (f a) R) : Ensures (m >>= f) R := by
  intro rs b rs' hb
  rcases hmr : m rs with _ | ⟨a, rs₁⟩
  · simp [Bind.bind, StateT.bind, hmr] at hb
  · simp only [Bind.bind, StateT.bind, hmr, Option.bind_some] at hb
    exact hf a (hm rs a rs₁ hmr) rs₁ b rs' hb

/-- What is known of the drawn number does not matter. -/
lemma bind_any (hf : ∀ a, Ensures (f a) R) : Ensures (m >>= f) R := trivial.bind fun a _ => hf a

lemma ite {c : Prop} [Decidable c] {m' : Rand ρ α} (ht : c → Ensures m P)
    (he : ¬c → Ensures m' P) : Ensures (if c then m else m') P := by
  split_ifs with h
  · exact ht h
  · exact he h

private lemma untilFuel {p : α → Bool} (h : Ensures m P) (n : ℕ) :
    Ensures (Draws.untilFuel m p n) fun a => P a ∧ p a = true := by
  induction n with
  | zero => exact fun _ _ _ hb => nomatch hb
  | succ n ih =>
    intro rs b rs' hb
    rcases hmr : m rs with _ | ⟨a, rs₁⟩
    · simp [Draws.untilFuel, hmr] at hb
    · simp only [Draws.untilFuel, hmr, Option.bind_eq_bind, Option.bind_some] at hb
      split_ifs at hb with hp
      · cases hb
        exact ⟨h rs _ _ hmr, hp⟩
      · exact ih rs₁ b rs' hb

/-- The result of a repetition is one that passes. -/
lemma repeatUntil {p : α → Bool} (h : Ensures m P) :
    Ensures (Draws.repeatUntil m p) fun a => P a ∧ p a = true := fun rs =>
  untilFuel h (rs.length + 1) rs

lemma length_mapM (g : β → Rand ρ α) (l : List β) :
    Ensures (l.mapM g) fun as => as.length = l.length := by
  induction l with
  | nil => exact pure rfl
  | cons b l ih =>
    rw [List.mapM_cons]
    exact bind_any fun a => ih.bind fun as has => pure (congrArg (· + 1) has)

/-- An invariant of one round is one of all. -/
lemma iterate {g : α → Rand ρ α} (hg : ∀ a, P a → Ensures (g a) P) (n : ℕ) {a : α} (ha : P a) :
    Ensures (Draws.iterate g n a) P := by
  induction n generalizing a with
  | zero => exact pure ha
  | succ n ih => exact (hg a ha).bind fun b hb => ih hb

end Ensures

/-! ### Rounds -/

/-- The program draws at least `k` numbers. -/
def Consumes (k : ℕ) (m : Rand ρ α) : Prop :=
  ∀ rs a rs', m rs = some (a, rs') → rs'.length + k ≤ rs.length

namespace Consumes

variable {j k : ℕ}

lemma draw : Consumes 1 (Draws.draw : Rand ρ ρ) := by
  intro rs a rs' h
  cases rs with
  | nil => cases h
  | cons r rs =>
    cases h
    exact Nat.le_refl _

lemma pure {a : α} : Consumes 0 (Pure.pure a : Rand ρ α) := by
  intro rs b rs' h
  cases h
  exact Nat.le_refl _

lemma bind (hm : Consumes j m) (hf : ∀ a, Consumes k (f a)) : Consumes (j + k) (m >>= f) := by
  intro rs b rs' h
  rcases hmr : m rs with _ | ⟨a, rs₁⟩
  · simp [Bind.bind, StateT.bind, hmr] at h
  · simp only [Bind.bind, StateT.bind, hmr, Option.bind_some] at h
    have h₁ := hm rs a rs₁ hmr
    have h₂ := hf a rs₁ b rs' h
    omega

lemma mono (hm : Consumes j m) (hjk : k ≤ j) : Consumes k m := fun rs a rs' h => by
  have := hm rs a rs' h
  omega

lemma ite {c : Prop} [Decidable c] {m' : Rand ρ α} (ht : Consumes k m) (he : Consumes k m') :
    Consumes k (if c then m else m') := by
  split_ifs
  · exact ht
  · exact he

end Consumes

lemma untilFuel_eq (hm : Consumes 1 m) {p : α → Bool} {n k : ℕ} {rs : List ρ} (hn : rs.length < n)
    (hk : rs.length < k) : untilFuel m p n rs = untilFuel m p k rs := by
  induction n generalizing k rs with
  | zero => omega
  | succ n ih =>
    obtain ⟨k, rfl⟩ := Nat.exists_eq_add_of_lt (Nat.zero_lt_of_lt hk)
    rcases hmr : m rs with _ | ⟨a, rs₁⟩
    · simp [untilFuel, hmr]
    · have hlt := hm rs a rs₁ hmr
      have hrec := @ih (0 + k) rs₁ (by omega) (by omega)
      simp only [untilFuel, hmr, Option.bind_eq_bind, Option.bind_some, hrec]

/-- A repetition is one round, and the rest of it if the result does not pass: the bound on the
rounds is never met. -/
theorem repeatUntil_eq (hm : Consumes 1 m) (p : α → Bool) :
    repeatUntil m p = m >>= fun a => if p a then pure a else repeatUntil m p := by
  funext rs
  rcases hmr : m rs with _ | ⟨a, rs₁⟩
  · simp [repeatUntil, untilFuel, Bind.bind, StateT.bind, hmr]
  · have hlt := hm rs a rs₁ hmr
    have hrec := @untilFuel_eq _ _ _ hm p rs.length (rs₁.length + 1) rs₁ (by omega) (by omega)
    simp only [repeatUntil, untilFuel, Bind.bind, StateT.bind, hmr, Option.bind_some, hrec]
    split_ifs <;> rfl

end Draws
