import Mathlib.Algebra.Order.Archimedean.Basic
import Mathlib.Data.List.TakeWhile
import Mathlib.Tactic.Linarith
import Mathlib.Tactic.Positivity
import Wren7.Aica.Slots

/-!
# Arrivals of the SH4's accesses

The periodic generator with an unbounded memory: the arrivals one after the other, with no slot
dropped. The bus, which drops slots as time passes, agrees with it from some time on, and no later
access asks about an earlier one.
-/

namespace Wren7

namespace DcArmBus

variable {ρ : Type*} {b b' c : DcArmBus ρ} {h g t n : ℕ}

/-! ### The arrivals -/

/-- The generator is started by the first advance. -/
def primed (b : DcArmBus ρ) : DcArmBus ρ :=
  if 0 < b.cfg.sh4Period ∧ b.sh4Next < 0 then b.setSh4Next b.cfg.sh4Phase else b

/-- The bus after some arrivals. -/
def arrived (b : DcArmBus ρ) (n : ℕ) : DcArmBus ρ := sh4Arrive^[n] b.primed

lemma arrived_succ (b : DcArmBus ρ) (n : ℕ) : b.arrived (n + 1) = (b.arrived n).sh4Arrive :=
  Function.iterate_succ_apply' _ n _

lemma arb_primed (hb : b.SlotsOk) : Arb b b.primed := by
  unfold primed
  split_ifs
  · exact arb_setSh4Next hb _
  · exact .refl hb

lemma primed_sh4Slots (b : DcArmBus ρ) : b.primed.sh4Slots = b.sh4Slots := by
  unfold primed
  split_ifs <;> rfl

lemma arb_sh4Arrive (hb : b.SlotsOk) : Arb b b.sh4Arrive := by
  have ha := (sh4Access_spec hb ⌊b.sh4Next⌋₊ b.cfg.sh4Count).toArb
  exact ha.trans (arb_setSh4Next ha.ok _)

lemma keeps_sh4Arrive (hb : b.SlotsOk) {x : ℕ} (hx : x ∈ b.sh4Slots) : x ∈ b.sh4Arrive.sh4Slots :=
  (sh4Access_spec hb ⌊b.sh4Next⌋₊ b.cfg.sh4Count).keeps x hx

lemma adds_sh4Arrive (hb : b.SlotsOk) {x : ℕ} (hx : x ∈ b.sh4Arrive.sh4Slots) :
    x ∈ b.sh4Slots ∨ ⌊b.sh4Next⌋₊ ≤ x :=
  ((sh4Access_spec hb ⌊b.sh4Next⌋₊ b.cfg.sh4Count).adds x hx).imp_right
    (Nat.le_trans (le_sh4Request _))

/-- An arrival moves the next one by a period at least. -/
lemma le_sh4Arrive_sh4Next (b : DcArmBus ρ) :
    b.sh4Next + b.cfg.sh4Period ≤ b.sh4Arrive.sh4Next := by
  rw [sh4Arrive, setSh4Next_sh4Next]
  split_ifs
  · exact le_max_right _ _
  · exact le_refl _

lemma arb_arrived (hb : b.SlotsOk) (n : ℕ) : Arb b (b.arrived n) := by
  induction n with
  | zero => exact arb_primed hb
  | succ n ih => exact arrived_succ b n ▸ ih.trans (arb_sh4Arrive ih.ok)

section

variable (hb : b.SlotsOk)

include hb

lemma arrived_sh4Next_le (hp : 0 < b.cfg.sh4Period) {m : ℕ} (hmn : m ≤ n) : (b.arrived m).sh4Next ≤ (b.arrived n).sh4Next := by
  induction n, hmn using Nat.le_induction with
  | base => exact le_refl _
  | succ n _ ih =>
    have hs := le_sh4Arrive_sh4Next (b.arrived n)
    rw [(arb_arrived hb n).cfg] at hs
    rw [arrived_succ]
    linarith

lemma arrived_keeps {m x : ℕ} (hmn : m ≤ n) (hx : x ∈ (b.arrived m).sh4Slots) :
    x ∈ (b.arrived n).sh4Slots := by
  induction n, hmn using Nat.le_induction with
  | base => exact hx
  | succ n _ ih => exact arrived_succ b n ▸ keeps_sh4Arrive (arb_arrived hb n).ok ih

/-- A slot of the generator is one of the queue, or of an arrival at or before it. -/
lemma arrived_adds {x : ℕ} (hx : x ∈ (b.arrived n).sh4Slots) : x ∈ b.sh4Slots ∨
    ∃ m < n, ⌊(b.arrived m).sh4Next⌋₊ ≤ x ∧ x ∈ (b.arrived (m + 1)).sh4Slots := by
  induction n with
  | zero => exact .inl (primed_sh4Slots b ▸ hx)
  | succ n ih =>
    have ho := (arb_arrived hb n).ok
    rcases adds_sh4Arrive ho (arrived_succ b n ▸ hx) with hx' | hx'
    · exact (ih hx').imp_right fun ⟨m, hm, hxm⟩ => ⟨m, by omega, hxm⟩
    · exact .inr ⟨n, Nat.lt_succ_self n, hx', hx⟩

end

/-- The slot at a step boundary is held by an access of the SH4 that arrived, in whole MCLK, at or
before it. -/
def Sh4Holds (b : DcArmBus ρ) (g : ℕ) : Prop :=
  g ∈ b.sh4Slots ∨ 0 < b.cfg.sh4Period ∧
    ∃ n, (∀ m ≤ n, ⌊(b.arrived m).sh4Next⌋₊ ≤ g) ∧ g ∈ (b.arrived (n + 1)).sh4Slots

lemma holds_of_mem_arrived (hb : b.SlotsOk) (hp : 0 < b.cfg.sh4Period)
    (hg : g ∈ (b.arrived n).sh4Slots) : b.Sh4Holds g := by
  refine (arrived_adds hb hg).imp_right fun ⟨m, _, hm, hgm⟩ => ⟨hp, m, fun k hk => ?_, hgm⟩
  exact Nat.le_trans (Nat.floor_mono (arrived_sh4Next_le hb hp hk)) hm

/-- Once all arrivals up to a step boundary are in the queue, the queue says who holds it. -/
lemma mem_arrived_iff (hb : b.SlotsOk) (hp : 0 < b.cfg.sh4Period)
    (hn : (g : ℚ) + 1 ≤ (b.arrived n).sh4Next) : g ∈ (b.arrived n).sh4Slots ↔ b.Sh4Holds g := by
  constructor
  · exact holds_of_mem_arrived hb hp
  · rintro (hg | ⟨-, m, hm, hgm⟩)
    · exact arrived_keeps hb (Nat.zero_le n) (primed_sh4Slots b ▸ hg : g ∈ (b.arrived 0).sh4Slots)
    · rcases Nat.lt_or_ge m n with hmn | hmn
      · exact arrived_keeps hb hmn hgm
      · -- the arrival that ends the advance is later than the boundary
        have hfl := hm n hmn
        have hge : g + 1 ≤ ⌊(b.arrived n).sh4Next⌋₊ := Nat.le_floor (by push_cast; exact hn)
        omega

/-! ### Two buses that agree from a time on -/

/-- The same users of the slots, the same arrivals, and the same slots of the SH4 from a time on. -/
structure AgreeFrom (h : ℕ) (b b' : DcArmBus ρ) : Prop where
  ok : b.SlotsOk
  ok' : b'.SlotsOk
  cfg : b'.cfg = b.cfg
  takenAt : b'.takenAt = b.takenAt
  dspStep : b'.dspStep = b.dspStep
  sh4Next : b'.sh4Next = b.sh4Next
  sublist : b'.sh4Slots.Sublist b.sh4Slots
  mem : ∀ g ≥ h, g ∈ b'.sh4Slots ↔ g ∈ b.sh4Slots

namespace AgreeFrom

lemma refl (hb : b.SlotsOk) (h : ℕ) : AgreeFrom h b b :=
  ⟨hb, hb, rfl, rfl, rfl, rfl, .refl _, fun _ _ => .rfl⟩

variable (ha : AgreeFrom h b b')

include ha

lemma mono {h' : ℕ} (hh : h ≤ h') : AgreeFrom h' b b' :=
  { ha with mem := fun g hg => ha.mem g (Nat.le_trans hh hg) }

lemma trans {b'' : DcArmBus ρ} (ha' : AgreeFrom h b' b'') : AgreeFrom h b b'' where
  ok := ha.ok
  ok' := ha'.ok'
  cfg := ha'.cfg.trans ha.cfg
  takenAt := ha'.takenAt.trans ha.takenAt
  dspStep := ha'.dspStep.trans ha.dspStep
  sh4Next := ha'.sh4Next.trans ha.sh4Next
  sublist := ha'.sublist.trans ha.sublist
  mem := fun g hg => (ha'.mem g hg).trans (ha.mem g hg)

lemma heldAt (hg : h ≤ g) : b'.heldAt g = b.heldAt g := by
  have hm : b'.sh4Slots.contains g = b.sh4Slots.contains g := by
    rw [Bool.eq_iff_iff, List.contains_iff_mem, List.contains_iff_mem]
    exact ha.mem g hg
  rw [DcArmBus.heldAt, hm, ha.takenAt, DcArmBus.heldAt]

lemma search (hg : h ≤ g) (n : ℕ) : (sh4Search n g b').1 = (sh4Search n g b).1 := by
  rw [(sh4Search_spec ha.ok n g).1, (sh4Search_spec ha.ok' n g).1]
  exact Grid.search_congr fun i _ => ha.heldAt (by omega)

/-- Both remember a slot, and whatever else happens to them keeps what an arbitration depends on. -/
lemma step {c c' : DcArmBus ρ} (hc : Arb b c) (hc' : Arb b' c') (hn : c'.sh4Next = c.sh4Next)
    (hs : c'.sh4Slots.Sublist c.sh4Slots) (hm : ∀ g ≥ h, g ∈ c'.sh4Slots ↔ g ∈ c.sh4Slots) :
    AgreeFrom h c c' where
  ok := hc.ok
  ok' := hc'.ok
  cfg := by rw [hc.cfg, hc'.cfg, ha.cfg]
  takenAt := by rw [hc.takenAt, hc'.takenAt, ha.takenAt]
  dspStep := by rw [hc.dspStep, hc'.dspStep, ha.dspStep]
  sh4Next := hn
  sublist := hs
  mem := hm

lemma sh4Take (hg : h ≤ g) (n last : ℕ) :
    (DcArmBus.sh4Take n g last b').1 = (DcArmBus.sh4Take n g last b).1 ∧
      AgreeFrom h (DcArmBus.sh4Take n g last b).2 (DcArmBus.sh4Take n g last b').2 := by
  induction n generalizing g last b b' with
  | zero => exact ⟨rfl, ha⟩
  | succ n ih =>
    obtain ⟨hs, hl⟩ := sh4Search_spec ha.ok 256 g
    obtain ⟨-, hl'⟩ := sh4Search_spec ha.ok' 256 g
    have heq := ha.search hg 256
    have hle : g ≤ (sh4Search 256 g b).1 := hs ▸ Grid.le_search _ 4 256 g
    rw [DcArmBus.sh4Take, DcArmBus.sh4Take, heq, ha.cfg]
    refine ih (ha.step (hl.toArb.trans (arb_sh4Insert hl.ok _))
      (hl'.toArb.trans (arb_sh4Insert hl'.ok _)) ?_ ?_ fun x hx => ?_) (by omega) _
    · exact (hl'.sh4Next.trans ha.sh4Next).trans hl.sh4Next.symm
    · rw [sh4Insert, sh4Insert, setSh4Slots_sh4Slots, setSh4Slots_sh4Slots, hl.sh4Slots,
        hl'.sh4Slots]
      exact ha.sublist.orderedInsert_sublist _ ha.ok.2
    · rw [mem_sh4Insert, mem_sh4Insert, hl.sh4Slots, hl'.sh4Slots, ha.mem x hx]

lemma sh4Arrive (hn : h ≤ ⌊b.sh4Next⌋₊) : AgreeFrom h b.sh4Arrive b'.sh4Arrive := by
  have hreq : b'.sh4Request ⌊b.sh4Next⌋₊ = b.sh4Request ⌊b.sh4Next⌋₊ := by
    simp only [sh4Request, ha.cfg, ha.dspStep]
  obtain ⟨h1, h2⟩ := ha.sh4Take (Nat.le_trans hn (le_sh4Request (b := b) _)) b.cfg.sh4Count 0
  have hc := arb_sh4Arrive ha.ok
  have hc' := arb_sh4Arrive ha.ok'
  refine ha.step hc hc' ?_ ?_ ?_
  · simp only [DcArmBus.sh4Arrive, sh4Access, setSh4Next_sh4Next, ha.sh4Next, ha.cfg, hreq, h1]
  · simp only [DcArmBus.sh4Arrive, sh4Access, setSh4Next_sh4Slots, ha.sh4Next, ha.cfg, hreq]
    exact h2.sublist
  · simp only [DcArmBus.sh4Arrive, sh4Access, setSh4Next_sh4Slots, ha.sh4Next, ha.cfg, hreq]
    exact h2.mem

lemma sh4Prune {t : ℕ} (ht : t ≤ h + 1024) : AgreeFrom h b (b'.sh4Prune t) := by
  have hdrop := List.dropWhile_sublist (l := b'.sh4Slots) fun g => decide (g + 1024 < t)
  refine ha.step (.refl ha.ok) (arb_setSh4Slots ha.ok' (ha.ok'.2.sublist hdrop)) ha.sh4Next
    (hdrop.trans ha.sublist) fun g hg => ?_
  rw [← ha.mem g hg, DcArmBus.sh4Prune, setSh4Slots_sh4Slots]
  refine ⟨fun hx => hdrop.mem hx, fun hx => ?_⟩
  rw [← List.takeWhile_append_dropWhile (p := fun g => decide (g + 1024 < t))
    (l := b'.sh4Slots), List.mem_append] at hx
  refine hx.resolve_left fun hx => ?_
  have := List.mem_takeWhile_imp hx
  rw [decide_eq_true_eq] at this
  omega

end AgreeFrom

/-! ### The advance -/

/-- The loop of the advance ends after the last arrival up to its time. -/
lemma sh4Arrivals_eq (t fuel : ℕ) (b : DcArmBus ρ) : ∃ k ≤ fuel,
    sh4Arrivals t fuel b = sh4Arrive^[k] b ∧ (k = fuel ∨ t < (sh4Arrive^[k] b).sh4Next) := by
  induction fuel generalizing b with
  | zero => exact ⟨0, Nat.le_refl 0, rfl, .inl rfl⟩
  | succ fuel ih =>
    rw [sh4Arrivals]
    split_ifs with hn
    · obtain ⟨k, hk, he, hl⟩ := ih b.sh4Arrive
      exact ⟨k + 1, by omega, he, hl.imp_left (congrArg _)⟩
    · exact ⟨0, Nat.zero_le _, rfl, .inr (not_le.mp hn)⟩

lemma iterate_sh4Next (hb : b.SlotsOk) (n : ℕ) :
    Arb b (sh4Arrive^[n] b) ∧ b.sh4Next + n * b.cfg.sh4Period ≤ (sh4Arrive^[n] b).sh4Next := by
  induction n with
  | zero => exact ⟨.refl hb, by simp⟩
  | succ n ih =>
    obtain ⟨ha, hle⟩ := ih
    have hs := le_sh4Arrive_sh4Next (sh4Arrive^[n] b)
    rw [ha.cfg] at hs
    rw [Function.iterate_succ_apply']
    refine ⟨ha.trans (arb_sh4Arrive ha.ok), ?_⟩
    push_cast
    linarith

/-- The number of passes that the model allows is enough: the loop ends because the next arrival is
later. -/
lemma sh4Arrivals_ends (hb : b.SlotsOk) (hp : 0 < b.cfg.sh4Period) (t : ℕ) : ∃ k,
    sh4Arrivals t (⌊(t - b.sh4Next) / b.cfg.sh4Period⌋₊ + 1) b = sh4Arrive^[k] b ∧
      t < (sh4Arrive^[k] b).sh4Next := by
  obtain ⟨k, -, he, hl⟩ := sh4Arrivals_eq t (⌊(t - b.sh4Next) / b.cfg.sh4Period⌋₊ + 1) b
  refine ⟨k, he, hl.elim (fun hk => ?_) id⟩
  have hle := (iterate_sh4Next hb k).2
  have hfl := Nat.lt_floor_add_one ((t - b.sh4Next) / b.cfg.sh4Period)
  rw [div_lt_iff₀ hp] at hfl
  rw [hk] at hle ⊢
  push_cast at hle ⊢
  linarith

lemma sh4Advance_eq (t : ℕ) : b.sh4Advance t =
    (if 0 < b.cfg.sh4Period then
      sh4Arrivals t (⌊(t - b.primed.sh4Next) / b.cfg.sh4Period⌋₊ + 1) b.primed
    else b).sh4Prune t := by
  unfold sh4Advance primed
  by_cases hp : 0 < b.cfg.sh4Period
  · by_cases hn : b.sh4Next < 0 <;> simp [hp, hn]
  · simp [hp]

/-- A bus that has seen all arrivals up to a time, and agrees with the generator of `b` but for slots
far in its past. -/
structure Ahead (b : DcArmBus ρ) (t : ℕ) (b' : DcArmBus ρ) : Prop where
  agree : ∃ n, AgreeFrom (t - 1024) (b.arrived n) b' ∧ (b.cfg.sh4Period ≤ 0 → n = 0)
  later : 0 < b.cfg.sh4Period → t < b'.sh4Next

lemma agreeFrom_iterate (ha : AgreeFrom h b b') (hp : 0 < b.cfg.sh4Period)
    (hn : h ≤ ⌊b.sh4Next⌋₊) (k : ℕ) : AgreeFrom h (sh4Arrive^[k] b) (sh4Arrive^[k] b') := by
  induction k with
  | zero => exact ha
  | succ k ih =>
    rw [Function.iterate_succ_apply', Function.iterate_succ_apply']
    refine ih.sh4Arrive (Nat.le_trans hn (Nat.floor_mono ?_))
    have hle := (iterate_sh4Next ha.ok k).2
    have : (0 : ℚ) ≤ k * b.cfg.sh4Period := by positivity
    linarith

lemma ahead_of_agreeFrom (hb : b.SlotsOk) (ha : AgreeFrom h (b.arrived n) b'.primed)
    (hn : 0 < b.cfg.sh4Period → h ≤ ⌊(b.arrived n).sh4Next⌋₊) (h0 : b.cfg.sh4Period ≤ 0 → n = 0)
    (hht : h ≤ t - 1024) : Ahead b t (b'.sh4Advance t) := by
  have hcfg : b'.primed.cfg = b.cfg := ha.cfg.trans (arb_arrived hb n).cfg
  have hcfg' : b'.cfg = b.cfg := by
    rw [← hcfg]
    unfold primed
    split_ifs <;> rfl
  rw [sh4Advance_eq, hcfg']
  by_cases hp : 0 < b.cfg.sh4Period
  · rw [if_pos hp]
    obtain ⟨k, he, hl⟩ := sh4Arrivals_ends ha.ok' (hcfg ▸ hp) t
    rw [hcfg] at he
    rw [he]
    have hk := agreeFrom_iterate ha ((arb_arrived hb n).cfg ▸ hp) (hn hp) k
    refine ⟨⟨k + n, ?_, fun hp' => absurd hp (not_lt.mpr hp')⟩, fun _ => hl⟩
    rw [arrived, Function.iterate_add_apply]
    exact (hk.mono hht).sh4Prune (by omega)
  · rw [if_neg hp]
    have hpr : b'.primed = b' := by
      unfold primed
      rw [hcfg', if_neg fun h => hp h.1]
    rw [hpr] at ha
    exact ⟨⟨n, (ha.mono hht).sh4Prune (by omega), h0⟩, fun hp' => absurd hp' hp⟩

/-- The first advance. -/
lemma ahead_sh4Advance (hb : b.SlotsOk) (t : ℕ) : Ahead b t (b.sh4Advance t) :=
  ahead_of_agreeFrom hb (n := 0) (.refl (arb_primed hb).ok 0) (fun _ => Nat.zero_le _) (fun _ => rfl)
    (Nat.zero_le _)

namespace Ahead

variable {t' : ℕ} (ha : Ahead b t b')

include ha

lemma advance (hb : b.SlotsOk) (ht : t ≤ t') : Ahead b t' (b'.sh4Advance t') := by
  obtain ⟨n, hn, h0⟩ := ha.agree
  have hpr : b'.primed = b' := by
    unfold primed
    refine if_neg fun ⟨hp, hneg⟩ => ?_
    have hl := ha.later (by rwa [← (arb_arrived hb n).cfg, ← hn.cfg])
    have : (0 : ℚ) ≤ t := Nat.cast_nonneg t
    linarith
  refine ahead_of_agreeFrom hb (n := n) (hpr ▸ hn) (fun hp => ?_) h0 (by omega)
  have hl := ha.later hp
  rw [hn.sh4Next] at hl
  exact Nat.le_trans (Nat.sub_le t 1024) (Nat.le_floor hl.le)

/-- The queue says who holds a slot that is not far in the past. -/
lemma mem_iff (hb : b.SlotsOk) (hlo : t - 1024 ≤ g) (hhi : g < t) :
    g ∈ b'.sh4Slots ↔ b.Sh4Holds g := by
  obtain ⟨n, hn, h0⟩ := ha.agree
  rw [hn.mem g hlo]
  by_cases hp : 0 < b.cfg.sh4Period
  · refine mem_arrived_iff hb hp ?_
    have hl := ha.later hp
    rw [hn.sh4Next] at hl
    have hgt : (g : ℚ) + 1 ≤ t := by exact_mod_cast hhi
    linarith
  · rw [h0 (not_lt.mp hp), arrived, Function.iterate_zero, id, primed_sh4Slots]
    exact ⟨.inl, fun h => h.resolve_right fun h => hp h.1⟩

end Ahead

lemma AgreeFrom.primed (ha : AgreeFrom h b b') : AgreeFrom h b.primed b'.primed := by
  have hc := arb_primed ha.ok
  have hc' := arb_primed ha.ok'
  refine ha.step hc hc' ?_ ?_ fun g hg => ?_
  · unfold DcArmBus.primed
    rw [ha.cfg, ha.sh4Next]
    split_ifs
    · rfl
    · exact ha.sh4Next
  · rw [primed_sh4Slots, primed_sh4Slots]
    exact ha.sublist
  · rw [primed_sh4Slots, primed_sh4Slots, ha.mem g hg]

lemma primed_of_nonneg (hn : 0 ≤ b.sh4Next) : b.primed = b := if_neg fun h => not_lt.mpr hn h.2

/-- The arrivals have no end. -/
lemma exists_le_arrived_sh4Next (hb : b.SlotsOk) (hp : 0 < b.cfg.sh4Period) (q : ℚ) :
    ∃ n, q ≤ (b.arrived n).sh4Next := by
  have hpr := arb_primed hb
  obtain ⟨n, hn⟩ := exists_nat_gt ((q - b.primed.sh4Next) / b.cfg.sh4Period)
  have hle := (iterate_sh4Next hpr.ok n).2
  rw [hpr.cfg] at hle
  rw [div_lt_iff₀ hp] at hn
  exact ⟨n, by rw [arrived]; linarith⟩

/-- A bus that agrees with the generator of `b` from some time on has the same arrivals to come. -/
lemma AgreeFrom.arrived (hb : b.SlotsOk) (hp : 0 < b.cfg.sh4Period)
    (ha : AgreeFrom h (b.arrived n) b'.primed) (hh : h ≤ ⌊(b.arrived n).sh4Next⌋₊) (k : ℕ) :
    AgreeFrom h (b.arrived (k + n)) (b'.arrived k) := by
  rw [DcArmBus.arrived, Function.iterate_add_apply]
  exact agreeFrom_iterate ha ((arb_arrived hb n).cfg ▸ hp) hh k

lemma AgreeFrom.holds_of_le (hb : b.SlotsOk) (hb' : b'.SlotsOk) (hp : 0 < b.cfg.sh4Period)
    (ha : AgreeFrom h (b.arrived n) b'.primed) (hh : h ≤ ⌊(b.arrived n).sh4Next⌋₊) (hg : h ≤ g) :
    b'.Sh4Holds g ↔ b.Sh4Holds g := by
  have hp' : 0 < b'.cfg.sh4Period := by
    rw [← (arb_primed hb').cfg, ha.cfg, (arb_arrived hb n).cfg]
    exact hp
  obtain ⟨k, hk⟩ := exists_le_arrived_sh4Next hb' hp' (g + 1)
  have hag := ha.arrived hb hp hh k
  rw [← mem_arrived_iff hb' hp' hk, hag.mem g hg]
  exact mem_arrived_iff hb hp (hag.sh4Next ▸ hk)

/-- Buses that agree have the same arrivals. -/
lemma AgreeFrom.holds (ha : AgreeFrom 0 b b') : b'.Sh4Holds g ↔ b.Sh4Holds g := by
  have hg (c c' : DcArmBus ρ) (h : AgreeFrom 0 c c') : g ∈ c'.sh4Slots ↔ g ∈ c.sh4Slots :=
    h.mem g (Nat.zero_le g)
  have harr (hp : 0 < b.cfg.sh4Period) (n : ℕ) : AgreeFrom 0 (b.arrived n) (b'.arrived n) :=
    agreeFrom_iterate ha.primed ((arb_primed ha.ok).cfg ▸ hp) (Nat.zero_le _) n
  unfold Sh4Holds
  rw [hg _ _ ha, ha.cfg]
  refine or_congr_right (and_congr_right fun hp => exists_congr fun n => ?_)
  simp only [hg _ _ (harr hp (n + 1)), (harr hp _).sh4Next]

/-! ### What the arbitration of a cycle leaves alone -/

lemma arb_sh4Prune (hb : b.SlotsOk) (t : ℕ) : Arb b (b.sh4Prune t) :=
  arb_setSh4Slots hb (hb.2.sublist (List.dropWhile_sublist _))

lemma arb_sh4Advance (hb : b.SlotsOk) (t : ℕ) : Arb b (b.sh4Advance t) := by
  rw [sh4Advance_eq]
  have hp := arb_primed hb
  split_ifs
  · obtain ⟨k, -, he, -⟩ :=
      sh4Arrivals_eq t (⌊(t - b.primed.sh4Next) / b.cfg.sh4Period⌋₊ + 1) b.primed
    have hk := (iterate_sh4Next hp.ok k).1
    rw [he]
    exact (hp.trans hk).trans (arb_sh4Prune hk.ok t)
  · exact arb_sh4Prune hb t

lemma arb_countHit (hb : b.SlotsOk) : Arb b b.countHit := ⟨hb, rfl⟩

lemma arb_ramSearch (hb : b.SlotsOk) (n g : ℕ) : Arb b (ramSearch n g b).2 := by
  induction n generalizing g b with
  | zero => exact .refl hb
  | succ n ih =>
    have hf := (freeAt_spec hb g).2.toArb
    rw [ramSearch]
    split_ifs
    · exact hf
    · have ha := arb_sh4Advance (arb_countHit hf.ok).ok (g + b.cfg.waits.grid + 64)
      exact ((hf.trans (arb_countHit hf.ok)).trans ha).trans (ih ha.ok _)

lemma arb_blockSearch (hb : b.SlotsOk) (n g : ℕ) : Arb b (blockSearch n g b).2 := by
  induction n generalizing g b with
  | zero => exact .refl hb
  | succ n ih =>
    rw [blockSearch]
    split_ifs
    · exact ih hb _
    · exact (arb_countHit hb).trans (ih (arb_countHit hb).ok _)
    · exact .refl hb

lemma arb_gridStart (hb : b.SlotsOk) (c : BusCycle) : Arb b (b.gridStart c).2 := by
  unfold gridStart
  dsimp only
  split_ifs
  · have ha := arb_sh4Advance hb
    exact (ha _).trans (arb_ramSearch (ha _).ok 256 _)
  · exact (arb_sh4Advance hb _).trans (arb_ramSearch (arb_sh4Advance hb _).ok 256 _)
  all_goals first | exact arb_blockSearch hb _ _ | exact .refl hb

lemma arb_arbitrated (hb : b.SlotsOk) (c : BusCycle) : Arb b (b.arbitrated c) := by
  unfold arbitrated
  split_ifs
  · exact .refl hb
  · exact ⟨hb, rfl⟩
  · have ha := arb_gridStart hb c
    exact ha.trans ⟨ha.ok, rfl⟩

end DcArmBus

end Wren7
