import Mathlib.Data.Nat.Count
import Mathlib.Data.Nat.Periodic
import Mathlib.Tactic.IntervalCases
import Wren7.Aica.Harness

/-!
# The fetches of an ADPCM channel

`adpcm_fetch` sample by sample: the play position as a nibble of the wave RAM, and how many samples of
a window fetch.
-/

namespace Nat

variable {p q : ℕ → Prop} [DecidablePred p] [DecidablePred q]

/-- A window of one period holds as many as any other. -/
lemma count_window {a : ℕ} (h : Function.Periodic p a) (n : ℕ) :
    count (fun j => p (n + j)) a = count p a := by
  have hswap : count p (n + a) = count p (a + n) := by rw [Nat.add_comm]
  have hshift : count (fun j => p (a + j)) n = count p n := by
    simp only [Nat.add_comm a, h _]
  rw [count_add, count_add, hshift] at hswap
  omega

lemma count_congr {k : ℕ} (h : ∀ j < k, p j ↔ q j) : count p k = count q k := by
  rw [count_eq_card_filter_range, count_eq_card_filter_range]
  exact congrArg _ (Finset.filter_congr fun j hj => h j (Finset.mem_range.mp hj))

lemma count_or_of_disjoint (h : ∀ n, p n → ¬q n) (k : ℕ) :
    count (fun n => p n ∨ q n) k = count p k + count q k := by
  induction k with
  | zero => rfl
  | succ k ih =>
    rw [count_succ, count_succ, count_succ, ih]
    by_cases hp : p k
    · simp [hp, h k hp]
      omega
    · by_cases hq : q k <;> simp [hp, hq]
      omega

end Nat

namespace Wren7

open Bits

namespace DcArmBus

variable {ρ : Type*} (b : DcArmBus ρ) (ch : ℕ)

/-! ### The play position -/

/-- SA, in bytes. -/
def adpcmStart : ℕ :=
  ((b.block.store (regAt (0x80 * ch)) &&& 0x7F).toNat <<< 16) |||
    (b.block.store (regAt (0x80 * ch + 0x04))).toNat

/-- FNS. -/
def adpcmFns : ℕ := ((b.block.store (regAt (0x80 * ch + 0x18))).extractLsb' 0 10).toNat

/-- OCT, as it is stored and as the signed number it stands for. -/
def adpcmO4 : ℕ := ((b.block.store (regAt (0x80 * ch + 0x18))).extractLsb' 11 4).toNat

def adpcmOctave : ℤ := if b.adpcmO4 ch < 8 then b.adpcmO4 ch else (b.adpcmO4 ch : ℤ) - 16

/-- The pitch accumulator's step; `2 ^ 14` is a nibble. -/
def adpcmIncr : ℕ :=
  let m := 1024 + b.adpcmFns ch
  let o4 := b.adpcmO4 ch
  if o4 < 8 then m <<< (o4 + 4) else if 12 ≤ o4 then m <<< (o4 - 12) else m >>> (12 - o4)

/-- The play position in sample `n`, in nibbles from SA. -/
def adpcmPos (n : ℤ) : ℕ :=
  let i := n - b.cfg.adpcmOrigin
  if 0 < i then (i.toNat * b.adpcmIncr ch % 2 ^ 64) >>> 14 else 0

/-- A position as a nibble of the wave RAM, four to a word. -/
def adpcmNibble (n : ℤ) : ℕ := 2 * b.adpcmStart ch + b.adpcmPos ch n

/-- The sample's word is not the one of the sample before. -/
def EntersWord (n : ℤ) : Prop := b.adpcmNibble ch n / 4 ≠ b.adpcmNibble ch (n - 1) / 4

/-- The sample plays the last nibble of its word. -/
def LastNibble (n : ℤ) : Prop := b.adpcmNibble ch n % 4 = 3

instance (n : ℤ) : Decidable (b.EntersWord ch n) := inferInstanceAs (Decidable (_ ≠ _))

instance (n : ℤ) : Decidable (b.LastNibble ch n) := inferInstanceAs (Decidable (_ = _))

variable {b ch}

lemma octave_lt_iff : b.adpcmOctave ch < 3 ↔ ¬(3 ≤ b.adpcmO4 ch ∧ b.adpcmO4 ch ≤ 7) := by
  have h : b.adpcmO4 ch < 16 := BitVec.isLt _
  unfold adpcmOctave
  split_ifs <;> omega

/-- From octave 3 on a sample advances by more than a nibble. -/
lemma octave_of_incr (h : b.adpcmIncr ch ≤ 2 ^ 14) : b.adpcmOctave ch < 3 := by
  rw [octave_lt_iff]
  rintro ⟨h3, h7⟩
  have hincr : b.adpcmIncr ch = (1024 + b.adpcmFns ch) * 2 ^ (b.adpcmO4 ch + 4) := by
    unfold adpcmIncr
    rw [if_pos (by omega), Nat.shiftLeft_eq]
  have hle : 1024 * 2 ^ 7 ≤ (1024 + b.adpcmFns ch) * 2 ^ (b.adpcmO4 ch + 4) :=
    Nat.mul_le_mul (by omega) (Nat.pow_le_pow_right (by decide) (by omega))
  omega

/-- A sample fetches when it enters a word or looks ahead into the next one. -/
lemma adpcmFetch_iff (n : ℤ) : b.adpcmFetch ch n = true ↔
    b.adpcmOctave ch < 3 ∧ (b.EntersWord ch n ∨ b.LastNibble ch n) := by
  have hword (p : ℕ) : (b.adpcmStart ch + p / 2) / 2 = (2 * b.adpcmStart ch + p) / 4 := by omega
  have hfetch : b.adpcmFetch ch n = if 3 ≤ b.adpcmO4 ch ∧ b.adpcmO4 ch ≤ 7 then false
      else decide ((b.adpcmStart ch + b.adpcmPos ch n / 2) / 2 ≠
          (b.adpcmStart ch + b.adpcmPos ch (n - 1) / 2) / 2 ∨
        (b.adpcmStart ch + (b.adpcmPos ch n + 1) / 2) / 2 ≠
          (b.adpcmStart ch + b.adpcmPos ch n / 2) / 2) := by
    have hsub : n - b.cfg.adpcmOrigin - 1 = n - 1 - b.cfg.adpcmOrigin := by omega
    unfold adpcmFetch adpcmPos
    rw [← hsub]
    rfl
  rw [hfetch, octave_lt_iff]
  split_ifs with h
  · simp [h]
  · simp only [hword, h, decide_eq_true_eq, EntersWord, LastNibble, adpcmNibble, not_false_iff,
      true_and]
    omega

/-! ### Positions after the origin -/

/-- The number of a sample after the origin. -/
def adpcmCount (b : DcArmBus ρ) (n : ℤ) : ℕ := (n - b.cfg.adpcmOrigin).toNat

/-- The accumulator of a sample is back at 0. -/
def AdpcmWraps (b : DcArmBus ρ) (ch : ℕ) (n : ℤ) : Prop :=
  b.adpcmCount n * b.adpcmIncr ch % 2 ^ 64 = 0

/-- The position is the accumulator's upper 50 bits. -/
lemma adpcmPos_eq (n : ℤ) :
    b.adpcmPos ch n = b.adpcmCount n * b.adpcmIncr ch / 2 ^ 14 % 2 ^ 50 := by
  rw [adpcmPos, Nat.shiftRight_eq_div_pow, show 2 ^ 64 = 2 ^ 50 * 2 ^ 14 by norm_num,
    Nat.mod_mul_left_div_self]
  split_ifs with h
  · rfl
  · have h0 : b.adpcmCount n = 0 := Int.toNat_of_nonpos (Int.not_lt.mp h)
    rw [h0, Nat.zero_mul, Nat.zero_div, Nat.zero_mod]

/-- The sample before is at the origin too, or one nearer to it. -/
lemma adpcmCount_pred (n : ℤ) : b.adpcmCount (n - 1) = b.adpcmCount n - 1 := by
  unfold adpcmCount
  omega

/-- A sample that moves by a nibble at most enters a word at its first nibble, or where the accumulator
wraps, and that is not the last one. -/
lemma not_lastNibble_of_entersWord (h : b.adpcmIncr ch ≤ 2 ^ 14) {n : ℤ}
    (he : b.EntersWord ch n) : ¬b.LastNibble ch n := by
  rw [EntersWord, adpcmNibble, adpcmNibble, adpcmPos_eq, adpcmPos_eq, adpcmCount_pred] at he
  rw [LastNibble, adpcmNibble, adpcmPos_eq]
  cases hi : b.adpcmCount n with
  | zero => simp [hi] at he
  | succ i =>
    rw [hi, Nat.add_sub_cancel, Nat.succ_mul i] at he
    rw [Nat.succ_mul i]
    generalize i * b.adpcmIncr ch = z at *
    have hy : (z + b.adpcmIncr ch) / 2 ^ 14 = z / 2 ^ 14 ∨
        (z + b.adpcmIncr ch) / 2 ^ 14 = z / 2 ^ 14 + 1 := by omega
    rcases hy with hy | hy <;> rw [hy] at he ⊢ <;> omega

/-! ### Whole octaves -/

/-- Without FNS the step is a power of two of nibbles. -/
lemma incr_mul (hf : b.adpcmFns ch = 0) (ho : b.adpcmOctave ch ≤ 0) :
    b.adpcmIncr ch * 2 ^ (-b.adpcmOctave ch).toNat = 2 ^ 14 := by
  have h : b.adpcmO4 ch < 16 := BitVec.isLt _
  unfold adpcmOctave adpcmIncr at *
  rw [hf]
  generalize b.adpcmO4 ch = o at *
  interval_cases o <;> first | decide | (exact absurd ho (by decide))

lemma incr_of_octave (hf : b.adpcmFns ch = 0) {k : ℕ} (hk : k < 8) (ho : b.adpcmOctave ch = k) :
    b.adpcmIncr ch = 2 ^ (14 + k) := by
  have h : b.adpcmO4 ch < 16 := BitVec.isLt _
  have h4 : b.adpcmO4 ch = k := by
    unfold adpcmOctave at ho
    split_ifs at ho <;> omega
  unfold adpcmIncr
  rw [hf, h4, if_pos hk]
  interval_cases k <;> rfl

variable {n : ℤ}

/-- Octave 0 and below: a nibble lasts `E` samples. The first of the word's first nibble fetches, and all
of its last one. -/
lemma adpcmFetch_of_nonpos (hf : b.adpcmFns ch = 0) (ho : b.adpcmOctave ch ≤ 0)
    (hn : b.cfg.adpcmOrigin < n) (hw : b.adpcmStart ch % 2 = 0 ∨ ¬b.AdpcmWraps ch n) {E : ℕ}
    (hE : E = 2 ^ (-b.adpcmOctave ch).toNat) :
    b.adpcmFetch ch n = true ↔
      E ∣ b.adpcmCount n ∧ (2 * b.adpcmStart ch + b.adpcmCount n / E) % 4 = 0 ∨
        (2 * b.adpcmStart ch + b.adpcmCount n / E) % 4 = 3 := by
  have hmul : b.adpcmIncr ch * E = 2 ^ 14 := hE ▸ incr_mul hf ho
  have hincr : 0 < b.adpcmIncr ch := Nat.pos_of_ne_zero fun h => by simp [h] at hmul
  have hdiv (i : ℕ) : i * b.adpcmIncr ch / 2 ^ 14 = i / E := by
    rw [← hmul, Nat.mul_comm i, Nat.mul_div_mul_left _ _ hincr]
  obtain ⟨i, hi⟩ : ∃ i, b.adpcmCount n = i + 1 := ⟨b.adpcmCount n - 1, by unfold adpcmCount; omega⟩
  have hlast : b.LastNibble ch n ↔
      (2 * b.adpcmStart ch + b.adpcmCount n / E) % 4 = 3 := by
    rw [LastNibble, adpcmNibble, adpcmPos_eq, hdiv]
    omega
  have henter : b.EntersWord ch n ↔
      E ∣ b.adpcmCount n ∧ (2 * b.adpcmStart ch + b.adpcmCount n / E) % 4 = 0 := by
    have hsucc : (i + 1) / E = i / E + if E ∣ i + 1 then 1 else 0 := Nat.succ_div
    rw [EntersWord, adpcmNibble, adpcmNibble, adpcmPos_eq, adpcmPos_eq, adpcmCount_pred, hdiv,
      hdiv]
    simp only [hi, Nat.add_sub_cancel]
    by_cases hE : E ∣ i + 1
    · rw [if_pos hE] at hsucc
      have hwrap : (i + 1) / E % 2 ^ 50 = 0 → b.AdpcmWraps ch n := by
        intro h0
        have hall : (i + 1) * b.adpcmIncr ch = (i + 1) / E * 2 ^ 14 := by
          rw [← hmul, Nat.mul_comm (b.adpcmIncr ch), ← Nat.mul_assoc, Nat.div_mul_cancel hE]
        rw [AdpcmWraps, hi, hall]
        omega
      have hw' : b.adpcmStart ch % 2 = 0 ∨ (i + 1) / E % 2 ^ 50 ≠ 0 := hw.imp_right (mt hwrap)
      rw [hsucc] at hw' ⊢
      simp only [hE, true_and]
      omega
    · rw [if_neg hE, Nat.add_zero] at hsucc
      simp [hsucc, hE]
  rw [adpcmFetch_iff, henter, hlast]
  exact and_iff_right (by omega)

lemma adpcmFetch_of_one (hf : b.adpcmFns ch = 0) (ho : b.adpcmOctave ch = 1)
    (hn : b.cfg.adpcmOrigin < n) (hw : b.adpcmStart ch % 2 = 0 ∨ ¬b.AdpcmWraps ch n) :
    b.adpcmFetch ch n = true ↔ (b.adpcmStart ch + b.adpcmCount n) % 2 = 0 := by
  have hincr : b.adpcmIncr ch = 2 ^ 15 := incr_of_octave (k := 1) hf (by decide) ho
  obtain ⟨i, hi⟩ : ∃ i, b.adpcmCount n = i + 1 := ⟨b.adpcmCount n - 1, by unfold adpcmCount; omega⟩
  rw [AdpcmWraps, hincr, hi] at hw
  rw [adpcmFetch_iff, EntersWord, LastNibble, adpcmNibble, adpcmNibble, adpcmPos_eq, adpcmPos_eq,
    adpcmCount_pred, hincr, hi]
  omega

lemma adpcmFetch_of_two (hf : b.adpcmFns ch = 0) (ho : b.adpcmOctave ch = 2)
    (hn : b.cfg.adpcmOrigin < n) : b.adpcmFetch ch n = true := by
  have hincr : b.adpcmIncr ch = 2 ^ 16 := incr_of_octave (k := 2) hf (by decide) ho
  obtain ⟨i, hi⟩ : ∃ i, b.adpcmCount n = i + 1 := ⟨b.adpcmCount n - 1, by unfold adpcmCount; omega⟩
  rw [adpcmFetch_iff, EntersWord, LastNibble, adpcmNibble, adpcmNibble, adpcmPos_eq, adpcmPos_eq,
    adpcmCount_pred, hincr, hi]
  omega

/-! ### Windows -/

lemma adpcmCount_add (hn : b.cfg.adpcmOrigin < n) (j : ℕ) :
    b.adpcmCount (n + j) = b.adpcmCount n + j := by
  unfold adpcmCount
  omega

/-- In four nibbles of `E` samples, one sample enters a word and `E` play its last nibble. -/
lemma count_pattern (sa i : ℕ) {E : ℕ} (hE : 0 < E) :
    Nat.count (fun j => E ∣ i + j ∧ (2 * sa + (i + j) / E) % 4 = 0 ∨
      (2 * sa + (i + j) / E) % 4 = 3) (4 * E) = 1 + E := by
  have hper : Function.Periodic
      (fun i => E ∣ i ∧ (2 * sa + i / E) % 4 = 0 ∨ (2 * sa + i / E) % 4 = 3) (4 * E) := by
    intro i
    have hdiv : (i + 4 * E) / E = i / E + 4 := Nat.add_mul_div_right _ _ hE
    have hdvd : E ∣ i + 4 * E ↔ E ∣ i := Nat.dvd_add_left (Dvd.intro_left 4 rfl)
    simp only [hdiv, hdvd, ← Nat.add_assoc, Nat.add_mod_right]
  -- count from the first nibble of a word on
  rw [Nat.count_window hper i, ← Nat.count_window hper (2 * sa * E)]
  have hstart : ∀ j < 4 * E, (E ∣ 2 * sa * E + j ∧ (2 * sa + (2 * sa * E + j) / E) % 4 = 0 ∨
      (2 * sa + (2 * sa * E + j) / E) % 4 = 3) ↔ j = 0 ∨ 3 * E ≤ j := by
    intro j hj
    have hdiv : (2 * sa * E + j) / E = 2 * sa + j / E := by
      rw [Nat.add_comm, Nat.add_mul_div_right _ _ hE, Nat.add_comm]
    have hdvd : E ∣ 2 * sa * E + j ↔ E ∣ j := Nat.dvd_add_right (Dvd.intro_left _ rfl)
    have h4 : j / E < 4 := (Nat.div_lt_iff_lt_mul hE).mpr hj
    have h3 : 3 ≤ j / E ↔ 3 * E ≤ j := Nat.le_div_iff_mul_le hE
    have h0 : E ∣ j ∧ j / E = 0 ↔ j = 0 := by
      constructor
      · rintro ⟨hd, h⟩
        rw [← Nat.div_mul_cancel hd, h, Nat.zero_mul]
      · rintro rfl
        simp
    have hfirst : ∀ y < 4, (2 * sa + (2 * sa + y)) % 4 = 0 ↔ y = 0 := by omega
    have hlast : ∀ y < 4, (2 * sa + (2 * sa + y)) % 4 = 3 ↔ 3 ≤ y := by omega
    rw [hdiv, hdvd, hfirst _ h4, hlast _ h4, h0, h3]
  rw [Nat.count_congr hstart, Nat.count_eq_card_filter_range]
  have hset : (Finset.range (4 * E)).filter (fun j => j = 0 ∨ 3 * E ≤ j) =
      insert 0 (Finset.Ico (3 * E) (4 * E)) := by
    ext j
    simp only [Finset.mem_filter, Finset.mem_range, Finset.mem_insert, Finset.mem_Ico]
    omega
  rw [hset, Finset.card_insert_of_notMem (by simp [hE.ne']), Nat.card_Ico]
  omega

/-- The samples of a window that fetch. -/
def adpcmFetches (b : DcArmBus ρ) (ch : ℕ) (n : ℤ) (k : ℕ) : ℕ :=
  Nat.count (fun j => b.adpcmFetch ch (n + j) = true) k

/-- In a window the sample address is even, or no sample has the accumulator back at 0. -/
def AdpcmSteady (b : DcArmBus ρ) (ch : ℕ) (n : ℤ) (k : ℕ) : Prop :=
  b.adpcmStart ch % 2 = 0 ∨ ∀ j < k, ¬b.AdpcmWraps ch (n + j)

lemma AdpcmSteady.sample {k : ℕ} (h : b.AdpcmSteady ch n k) {j : ℕ} (hj : j < k) :
    b.adpcmStart ch % 2 = 0 ∨ ¬b.AdpcmWraps ch (n + j) := h.imp_right fun h => h j hj

lemma adpcmFetches_of_nonpos (hf : b.adpcmFns ch = 0) (ho : b.adpcmOctave ch ≤ 0)
    (hn : b.cfg.adpcmOrigin < n)
    (hw : b.AdpcmSteady ch n (4 * 2 ^ (-b.adpcmOctave ch).toNat)) :
    b.adpcmFetches ch n (4 * 2 ^ (-b.adpcmOctave ch).toNat) =
      1 + 2 ^ (-b.adpcmOctave ch).toNat := by
  rw [adpcmFetches, ← count_pattern (b.adpcmStart ch) (b.adpcmCount n) (Nat.two_pow_pos _)]
  refine Nat.count_congr fun j hj => ?_
  rw [adpcmFetch_of_nonpos hf ho (by omega) (hw.sample hj) rfl, adpcmCount_add hn]

lemma adpcmFetches_of_one (hf : b.adpcmFns ch = 0) (ho : b.adpcmOctave ch = 1)
    (hn : b.cfg.adpcmOrigin < n) (hw : b.AdpcmSteady ch n 2) : b.adpcmFetches ch n 2 = 1 := by
  have h0 := adpcmFetch_of_one hf ho (n := n + (0 : ℕ)) (by omega) (hw.sample (by decide))
  have h1 := adpcmFetch_of_one hf ho (n := n + (1 : ℕ)) (by omega) (hw.sample (by decide))
  rw [adpcmCount_add hn] at h0 h1
  rw [adpcmFetches, Nat.count_succ, Nat.count_succ, Nat.count_zero]
  simp only [h0, h1]
  split_ifs <;> omega

end DcArmBus

end Wren7
