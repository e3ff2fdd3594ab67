import Wren7.Aica.Harness
import Wren7.Grid.Backtrack

/-!
# The fixed user of the wave RAM

Where the fixed user's accesses go between those of the DSP, and the table that caches it.
-/

namespace Wren7

namespace DcArmBus

/-! ### Placements -/

section Place

variable (dsp : ℕ → Bool)

/-- The DSP holds a step. -/
def held (c : ℤ) : Bool := dsp (c % 128).toNat

/-- Where an access with a nominal step goes. -/
def PlacedAt (n c : ℤ) : Prop :=
  if held dsp n then (c = n - 1 ∨ c = n + 1) ∧ held dsp c = false else c = n

/-- A placement: each access at its nominal step, or next to it where the DSP holds that one; consecutive
accesses are at least two steps apart. -/
structure Placement (steps places : List ℤ) : Prop where
  placed : List.Forall₂ (PlacedAt dsp) steps places
  apart : places.IsChain fun p c => p + 2 ≤ c

/-- The steps an access can go to, the earliest first. -/
def stepsNear (n : ℤ) : List ℤ := if held dsp n then [n - 1, n + 1].filter (!held dsp ·) else [n]

def apart (p c : ℤ) : Bool := p + 2 ≤ c

variable {dsp}

lemma mem_stepsNear (n c : ℤ) : c ∈ stepsNear dsp n ↔ PlacedAt dsp n c := by
  unfold stepsNear PlacedAt
  split_ifs <;> simp

lemma stepsNear_sorted (n : ℤ) : (stepsNear dsp n).Pairwise (· < ·) := by
  unfold stepsNear
  split_ifs
  · exact List.Pairwise.filter _ (List.pairwise_pair.mpr (by omega))
  · exact List.pairwise_singleton _ _

lemma fills_iff (steps places : List ℤ) :
    Backtrack.Fills (stepsNear dsp) apart none steps places ↔ Placement dsp steps places := by
  have hopt : (fun a c => c ∈ stepsNear dsp a) = PlacedAt dsp :=
    funext fun n => funext fun c => propext (mem_stepsNear n c)
  have happ : (fun p c => apart p c = true) = fun p c => p + 2 ≤ c :=
    funext fun p => funext fun c => propext decide_eq_true_iff
  constructor
  · rintro ⟨h, h'⟩
    exact ⟨hopt ▸ h, happ ▸ h'⟩
  · rintro ⟨h, h'⟩
    exact ⟨hopt ▸ h, happ ▸ h'⟩

lemma findSome?_filter {β : Type*} (p : ℤ → Bool) (f : ℤ → Option β) (l : List ℤ) :
    (l.findSome? fun c => if p c then none else f c) = (l.filter (!p ·)).findSome? f := by
  induction l with
  | nil => rfl
  | cons c l ih => cases h : p c <;> simp [List.findSome?_cons, h, ih]

/-- The options that the code goes through are these steps. -/
lemma filter_options (n : ℤ) :
    (if held dsp n then [n - 1, n, n + 1] else [n, n - 1, n + 1]).filter
      (fun c => !(held dsp c || decide (c ≠ n) && !held dsp n)) = stepsNear dsp n := by
  unfold stepsNear
  split_ifs with h
  · simp [List.filter_cons, h]
  · simp [h]

/-- The code's search is the backtracking search over these steps. -/
lemma place_eq (prev : Option ℤ) (steps : List ℤ) :
    place dsp prev steps = Backtrack.search (stepsNear dsp) apart prev steps := by
  induction steps generalizing prev with
  | nil => rfl
  | cons n rest ih =>
    have hprev (c : ℤ) : (prev.any fun p => decide (c - p < 2)) = !prev.all fun p => apart p c := by
      cases prev with
      | none => rfl
      | some p =>
        rw [Option.any_some, Option.all_some, apart, ← decide_not]
        exact decide_eq_decide.mpr (by omega)
    have hite (c : ℤ) : (if prev.any fun p => decide (c - p < 2) then none
        else (place dsp (some c) rest).map (c :: ·)) =
        if prev.all fun p => apart p c then
          (Backtrack.search (stepsNear dsp) apart (some c) rest).map (c :: ·) else none := by
      rw [hprev, ih]
      cases prev.all fun p => apart p c <;> rfl
    simp only [place, hite]
    exact (findSome?_filter _ _ _).trans (congrArg _ (filter_options n))

end Place

/-! ### The cached table -/

section Table

variable {ρ : Type*} {b : DcArmBus ρ}

/-- The places of the fixed user: the earliest placement, or the nominal steps where there is none. -/
lemma fixedPlaces_spec (b : DcArmBus ρ) :
    IsLeast {cs | Placement b.dspAccess b.cfg.fixedSteps cs} b.fixedPlaces ∨
      (¬∃ cs, Placement b.dspAccess b.cfg.fixedSteps cs) ∧ b.fixedPlaces = b.cfg.fixedSteps := by
  rw [fixedPlaces, place_eq]
  simp only [← fills_iff]
  rcases @Backtrack.isLeast_search ℤ ℤ (stepsNear b.dspAccess) apart _ stepsNear_sorted none
    b.cfg.fixedSteps with ⟨cs, h, hc⟩ | ⟨h, hc⟩
  · rw [h]
    exact .inl hc
  · rw [h]
    exact .inr ⟨hc, rfl⟩

variable [AicaRegs ρ]

/-- An operation on the bus, or a query of a slot. -/
inductive SlotOp (ρ : Type*)
  | op (o : Op ρ)
  | query (step : ℕ) (sample : ℤ)

def performSlot (b : DcArmBus ρ) : SlotOp ρ → DcArmBus ρ
  | .op o => b.perform o
  | .query step sample => (b.slotUsed step sample).2

lemma perform_cfg (hb : b.SlotsOk) (o : Op ρ) : (b.perform o).cfg = b.cfg := by
  cases o with
  | load addr data => exact load_cfg addr data b
  | cycle c => exact cycle_cfg hb c
  | sh4Access t n => exact (sh4Access_spec hb t n).toArb.cfg
  | _ => rfl

omit [AicaRegs ρ] in
lemma slotUsed_arb (hb : b.SlotsOk) (step : ℕ) (sample : ℤ) : Arb b (b.slotUsed step sample).2 := by
  unfold slotUsed
  split_ifs
  · exact .refl hb
  · exact arb_refreshed hb

lemma performSlot_spec (hb : b.SlotsOk) (o : SlotOp ρ) :
    (b.performSlot o).SlotsOk ∧ (b.performSlot o).cfg = b.cfg := by
  cases o with
  | op o => exact ⟨hb.perform o, perform_cfg hb o⟩
  | query step sample => exact ⟨(slotUsed_arb hb step sample).ok, (slotUsed_arb hb step sample).cfg⟩

lemma performSlots_spec (hb : b.SlotsOk) (ops : List (SlotOp ρ)) :
    (ops.foldl performSlot b).SlotsOk ∧ (ops.foldl performSlot b).cfg = b.cfg := by
  induction ops generalizing b with
  | nil => exact ⟨hb, rfl⟩
  | cons o ops ih =>
    obtain ⟨hok, hcfg⟩ := performSlot_spec hb o
    exact ⟨(ih hok).1, (ih hok).2.trans hcfg⟩

/-- The fixed user over whole runs of register accesses and queries. A query answers with the channels,
the DSP and the fixed user, whose steps are the earliest placement for the MPRO words of the moment, or
the nominal ones if there is none; the table in which they are cached is the one of these words, and an
access that changes an MRD or MWT bit marks it as out of date. -/
theorem fixed_placement (cfg : DcConfig) (period phase latency : ℕ) (ops : List (SlotOp ρ)) :
    let b : DcArmBus ρ := ops.foldl performSlot (new cfg period phase latency)
    (∀ step sample, (b.slotUsed step sample).1 =
      (b.channelFetch step sample || (b.dspAccess (step % 128) ||
        b.fixedPlaces.any fun c => c % 128 = (step % 128 : ℕ)))) ∧
    (IsLeast {cs | Placement b.dspAccess cfg.fixedSteps cs} b.fixedPlaces ∨
      (¬∃ cs, Placement b.dspAccess cfg.fixedSteps cs) ∧ b.fixedPlaces = cfg.fixedSteps) ∧
    (b.block.slotsDirty = false → ∀ step < 128, b.slots step = b.schedule step) ∧
    (∀ c : Call, (∃ step < 128,
        (b.setBlock (b.block.call c).2).dspAccess step ≠ b.dspAccess step) →
      (b.block.call c).2.slotsDirty = true) := by
  intro b
  obtain ⟨hok, hcfg⟩ : b.SlotsOk ∧ b.cfg = cfg :=
    performSlots_spec (slotsOk_new cfg period phase latency) ops
  refine ⟨fun step sample => ?_, hcfg ▸ b.fixedPlaces_spec, hok.1, fun c ⟨step, hs, hne⟩ => ?_⟩
  · rw [slotUsed]
    cases b.channelFetch step sample with
    | true => rfl
    | false =>
      rw [if_neg (by decide), refreshed_slots hok (Nat.mod_lt _ (by decide)), schedule]
      rfl
  · by_contra hd
    have hm := b.block.marks_call c (Bool.eq_false_iff.mpr hd)
    exact hne (@dspAccess_congr ρ b (b.setBlock (b.block.call c).2) hm.2 step hs)

end Table

end DcArmBus

end Wren7
