import Mathlib.Data.List.Nodup
import Mathlib.Order.Bounds.Basic
import Mathlib.Tactic.Common

/-!
# Grants on a grid

Requests arrive at any time and are granted grid points, the multiples of a distance. A request gets
the first point from its arrival on that is neither in use nor granted before.
-/

namespace Grid

variable {d t g n i : ℕ}

/-! ### The grid -/

/-- The first grid point from `t` on. -/
def up (d t : ℕ) : ℕ := (t + d - 1) / d * d

lemma dvd_up (d t : ℕ) : d ∣ up d t := Nat.dvd_mul_left d _

lemma le_up (hd : 0 < d) (t : ℕ) : t ≤ up d t := by
  have h := Nat.div_add_mod (t + d - 1) d
  have hlt := Nat.mod_lt (t + d - 1) hd
  rw [up, Nat.mul_comm]
  omega

lemma up_lt (hd : 0 < d) (t : ℕ) : up d t < t + d := by
  have h := Nat.div_mul_le_self (t + d - 1) d
  rw [up]
  omega

lemma up_le (hd : 0 < d) (hg : d ∣ g) (h : t ≤ g) : up d t ≤ g := by
  obtain ⟨k, rfl⟩ := hg
  rw [up, Nat.mul_comm]
  refine Nat.mul_le_mul_left d ?_
  refine Nat.le_of_lt_succ (Nat.div_lt_of_lt_mul ?_)
  rw [Nat.mul_succ]
  omega

lemma up_of_dvd (hd : 0 < d) (h : d ∣ t) : up d t = t :=
  Nat.le_antisymm (up_le hd h (Nat.le_refl t)) (le_up hd t)

lemma up_mono (hd : 0 < d) {t' : ℕ} (h : t ≤ t') : up d t ≤ up d t' :=
  up_le hd (dvd_up d t') (Nat.le_trans h (le_up hd t'))

/-! ### The search -/

/-- The first of `n` grid points from `g` on that is not busy; the one after them if all are. -/
def search (busy : ℕ → Bool) (d : ℕ) : (n g : ℕ) → ℕ
  | 0, g => g
  | n + 1, g => if busy g then search busy d n (g + d) else g

variable {busy : ℕ → Bool}

/-- The points before the result are busy. -/
lemma busy_of_lt_search (hi : i < n) (h : g + i * d < search busy d n g) :
    busy (g + i * d) = true := by
  induction n generalizing g i with
  | zero => omega
  | succ n ih =>
    rw [search] at h
    split_ifs at h with hb
    · cases i with
      | zero => simpa using hb
      | succ i =>
        rw [Nat.succ_mul, Nat.add_comm (i * d), ← Nat.add_assoc] at h ⊢
        exact ih (by omega) h
    · exact absurd h (by omega)

lemma exists_search (busy : ℕ → Bool) (d n g : ℕ) : ∃ k ≤ n, search busy d n g = g + k * d := by
  induction n generalizing g with
  | zero => exact ⟨0, Nat.le_refl 0, by simp [search]⟩
  | succ n ih =>
    rw [search]
    split_ifs
    · obtain ⟨k, hk, h⟩ := ih (g + d)
      exact ⟨k + 1, by omega, by rw [h, Nat.succ_mul]; omega⟩
    · exact ⟨0, Nat.zero_le _, by simp⟩

/-- If one of the points is free, the search finds one. -/
lemma search_free (h : ∃ i < n, busy (g + i * d) = false) : busy (search busy d n g) = false := by
  induction n generalizing g with
  | zero => obtain ⟨i, hi, -⟩ := h; omega
  | succ n ih =>
    rw [search]
    split_ifs with hb
    · obtain ⟨i, hi, hf⟩ := h
      cases i with
      | zero => simp [hb] at hf
      | succ i =>
        refine ih ⟨i, by omega, ?_⟩
        rw [Nat.succ_mul, Nat.add_comm (i * d), ← Nat.add_assoc] at hf
        exact hf
    · exact Bool.eq_false_iff.mpr hb

/-- Two notions of busy that agree on the points lead to the same result. -/
lemma search_congr {busy' : ℕ → Bool} (h : ∀ i < n, busy (g + i * d) = busy' (g + i * d)) :
    search busy d n g = search busy' d n g := by
  induction n generalizing g with
  | zero => rfl
  | succ n ih =>
    have h0 := h 0 (Nat.succ_pos n)
    rw [Nat.zero_mul, Nat.add_zero] at h0
    rw [search, search, h0]
    split_ifs
    · refine ih fun i hi => ?_
      have := h (i + 1) (by omega)
      rwa [Nat.succ_mul, Nat.add_comm (i * d), ← Nat.add_assoc] at this
    · rfl

/-- The search from the first grid point on finds the least free one. -/
lemma isLeast_search (hd : 0 < d) (h : ∃ i < n, busy (up d t + i * d) = false) :
    IsLeast {x | d ∣ x ∧ t ≤ x ∧ busy x = false} (search busy d n (up d t)) := by
  obtain ⟨k, hk, hs⟩ := exists_search busy d n (up d t)
  have hle := le_up hd t
  refine ⟨⟨?_, ?_, search_free h⟩, fun x ⟨hx, htx, hbx⟩ => ?_⟩
  · rw [hs]
    exact Nat.dvd_add (dvd_up d t) (Nat.dvd_mul_left d k)
  · omega
  · by_contra hlt
    rw [Nat.not_le] at hlt
    have hux := up_le hd hx htx
    obtain ⟨i, rfl⟩ : ∃ i, x = up d t + i * d := by
      obtain ⟨i, hi⟩ := Nat.dvd_sub hx (dvd_up d t)
      exact ⟨i, by rw [Nat.mul_comm i, ← hi]; omega⟩
    have hin : i < n := by
      rw [hs] at hlt
      have hki : i * d < k * d := by omega
      exact Nat.lt_of_lt_of_le (Nat.lt_of_mul_lt_mul_right hki) hk
    rw [busy_of_lt_search hin hlt] at hbx
    cases hbx

/-- A search that ends before its bound ends at a free point. -/
lemma search_free_of_lt (h : search busy d n g < g + n * d) :
    busy (search busy d n g) = false := by
  induction n generalizing g with
  | zero => exact absurd h (by simp [search])
  | succ n ih =>
    rw [search] at h ⊢
    split_ifs at h ⊢ with hb
    · refine ih ?_
      rw [Nat.succ_mul] at h
      omega
    · exact Bool.eq_false_iff.mpr hb

lemma le_search (busy : ℕ → Bool) (d n g : ℕ) : g ≤ search busy d n g := by
  obtain ⟨k, -, h⟩ := exists_search busy d n g
  omega

/-- The search does not pass a free point. -/
lemma search_le {k : ℕ} (h : busy (g + k * d) = false) (n : ℕ) :
    search busy d n g ≤ g + k * d := by
  rcases Nat.lt_or_ge k n with hk | hk
  · by_contra hlt
    rw [busy_of_lt_search hk (Nat.not_le.mp hlt)] at h
    cases h
  · obtain ⟨m, hm, hs⟩ := exists_search busy d n g
    rw [hs]
    exact Nat.add_le_add_left (Nat.mul_le_mul_right d (Nat.le_trans hm hk)) g

lemma dvd_search (h : d ∣ g) (n : ℕ) : d ∣ search busy d n g := by
  obtain ⟨k, -, hs⟩ := exists_search busy d n g
  rw [hs]
  exact Nat.dvd_add h (Nat.dvd_mul_left d k)

/-- A search that ends before its bound ends at the least free point from its beginning on. -/
lemma isLeast_of_lt (hd : 0 < d) (hg : d ∣ g) (h : search busy d n g < g + n * d) :
    IsLeast {x | d ∣ x ∧ g ≤ x ∧ busy x = false} (search busy d n g) := by
  obtain ⟨k, -, hs⟩ := exists_search busy d n g
  have hkn : k < n := Nat.lt_of_mul_lt_mul_right (by omega : k * d < n * d)
  have hfree := search_free_of_lt h
  have hup : up d g = g := up_of_dvd hd hg
  have hleast := @isLeast_search d g n busy hd
    ⟨k, hkn, by rw [hup, ← hs]; exact hfree⟩
  rwa [hup] at hleast

/-! ### Grants in the order of their requests -/

/-- A record of requests and their grants, the newest first: each grant is the first grid point from
its request on that is not in use and was not granted before. -/
def Granted (d : ℕ) (used : ℕ → Bool) : List (ℕ × ℕ) → Prop
  | [] => True
  | p :: log =>
    IsLeast {x | d ∣ x ∧ p.1 ≤ x ∧ used x = false ∧ x ∉ log.map Prod.snd} p.2 ∧ Granted d used log

variable {used : ℕ → Bool} {log : List (ℕ × ℕ)} {p : ℕ × ℕ}

/-- No point is granted twice. -/
lemma Granted.nodup (h : Granted d used log) : (log.map Prod.snd).Nodup := by
  induction log with
  | nil => exact List.nodup_nil
  | cons p log ih =>
    rw [List.map_cons, List.nodup_cons]
    exact ⟨h.1.1.2.2.2, ih h.2⟩

lemma Granted.of_mem (h : Granted d used log) (hp : p ∈ log) :
    d ∣ p.2 ∧ p.1 ≤ p.2 ∧ used p.2 = false := by
  induction log with
  | nil => cases hp
  | cons q log ih =>
    rcases List.mem_cons.mp hp with rfl | hp
    · exact ⟨h.1.1.1, h.1.1.2.1, h.1.1.2.2.1⟩
    · exact ih h.2 hp

end Grid
