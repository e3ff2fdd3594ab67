import Wren7.Grid.Search

/-!
# Jobs on a grid

A job is a list of stages. A stage begins at the first grid point from the end of the stage before it,
or at once. What a job takes from a grid point does not depend on the point.
-/

namespace Grid

/-- A stage of a job, with the time it takes. -/
inductive Stage
  | aligned (len : ℕ)
  | prompt (len : ℕ)
  deriving DecidableEq, Repr

variable {d t n k : ℕ} {l l' : List Stage}

/-- The end of a stage whose predecessor ends at `t`. -/
def Stage.ends (d : ℕ) : Stage → ℕ → ℕ
  | .aligned len, t => up d t + len
  | .prompt len, t => t + len

/-- The end of a job that begins at `t`. -/
def finish (d : ℕ) (l : List Stage) (t : ℕ) : ℕ := l.foldl (fun t x => x.ends d t) t

/-- The time from one job's first stage to the next one's, both on the grid. -/
def span (d : ℕ) (l : List Stage) : ℕ := up d (finish d l 0)

lemma up_add (hd : 0 < d) (h : d ∣ t) (n : ℕ) : up d (t + n) = t + up d n := by
  obtain ⟨k, rfl⟩ := h
  rw [up, up, Nat.add_assoc, Nat.add_sub_assoc (by omega), Nat.mul_add_div hd, Nat.add_mul,
    Nat.mul_comm k, Nat.add_sub_assoc hd]

lemma Stage.ends_add (hd : 0 < d) (h : d ∣ t) (x : Stage) (n : ℕ) :
    x.ends d (t + n) = t + x.ends d n := by
  cases x with
  | aligned len => rw [Stage.ends, Stage.ends, up_add hd h, Nat.add_assoc]
  | prompt len => exact Nat.add_assoc t n len

lemma finish_append (l l' : List Stage) (t : ℕ) :
    finish d (l ++ l') t = finish d l' (finish d l t) := List.foldl_append

lemma finish_add (hd : 0 < d) (h : d ∣ t) (l : List Stage) (n : ℕ) :
    finish d l (t + n) = t + finish d l n := by
  induction l generalizing n with
  | nil => rfl
  | cons x l ih =>
    rw [finish, finish, List.foldl_cons, List.foldl_cons, x.ends_add hd h]
    exact ih (x.ends d n)

lemma finish_of_dvd (hd : 0 < d) (h : d ∣ t) (l : List Stage) :
    finish d l t = t + finish d l 0 := finish_add hd h l 0

/-- A job that begins at a grid point. -/
lemma up_finish (hd : 0 < d) (h : d ∣ t) (l : List Stage) :
    up d (finish d l t) = t + span d l := by
  rw [finish_of_dvd hd h, up_add hd h, span]

/-- After a part that ends on the grid, the rest of a job begins there. -/
lemma span_append (hd : 0 < d) (h : d ∣ finish d l 0) (l' : List Stage) :
    span d (l ++ l') = finish d l 0 + span d l' := by
  rw [span, finish_append, up_finish hd h]

/-- Stages as long as some steps of the grid follow each other without a gap. -/
lemma finish_aligned (hd : 0 < d) (ht : d ∣ t) (hn : d ∣ n) (k : ℕ) :
    finish d (List.replicate k (.aligned n)) t = t + k * n := by
  induction k generalizing t with
  | zero => rw [Nat.zero_mul]; rfl
  | succ k ih =>
    rw [List.replicate_succ, finish, List.foldl_cons, Stage.ends, up_of_dvd hd ht, ← finish,
      ih (Nat.dvd_add ht hn), Nat.succ_mul]
    omega

lemma finish_prompt (k : ℕ) : finish d (List.replicate k (.prompt n)) t = t + k * n := by
  induction k generalizing t with
  | zero => rw [Nat.zero_mul]; rfl
  | succ k ih =>
    rw [List.replicate_succ, finish, List.foldl_cons, Stage.ends, ← finish, ih, Nat.succ_mul]
    omega

end Grid
