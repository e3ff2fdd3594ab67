import Wren7.Aica.DcArmBus
import Wren7.Grid.Search

/-!
# Wave RAM slots

The slot schedule is a function of the registers, however it is cached, and an access of the SH4 gets
the first slots that are free of it and of earlier accesses.
-/

namespace Wren7

open Bits

namespace DcArmBus

variable {ρ : Type*} (b : DcArmBus ρ)

/-! ### The schedule -/

/-- The slot at a step boundary is taken by the DSP, the fixed user or the sound generator. -/
def takenAt (g : ℕ) : Bool :=
  b.channelFetch (b.dspStep g) (b.dspSample g) || b.schedule (b.dspStep g)

/-- The cached schedule is the one of the registers, and the SH4's queue is sorted. -/
def SlotsOk : Prop :=
  (b.block.slotsDirty = false → ∀ step < 128, b.slots step = b.schedule step) ∧
    b.sh4Slots.Pairwise (· ≤ ·)

lemma slotsOk_new (cfg : DcConfig) (period phase latency : ℕ) :
    (new cfg period phase latency : DcArmBus ρ).SlotsOk := ⟨nofun, .nil⟩

lemma dspStep_lt (t : ℤ) : b.dspStep t < 128 := by
  rw [dspStep]
  omega

/-- The time of a step boundary, and the step it begins. -/
lemma dspStep_eq_iff (t : ℤ) (s : ℕ) : b.dspStep t = s ↔ s < 128 ∧ ∃ n : ℤ,
    b.block.samplePhase + b.cfg.dspPhase + 512 * n + 4 * s ≤ t ∧
      t < b.block.samplePhase + b.cfg.dspPhase + 512 * n + 4 * s + 4 := by
  rw [dspStep]
  constructor
  · rintro rfl
    refine ⟨by omega, (t - b.block.samplePhase - b.cfg.dspPhase) / 512, ?_, ?_⟩ <;> omega
  · rintro ⟨hs, n, h1, h2⟩
    omega

variable {b}

lemma refreshed_of_dirty (h : b.block.slotsDirty = true) : b.refreshed = b.setSlots b.schedule :=
  if_pos h

lemma refreshed_of_clean (h : b.block.slotsDirty = false) : b.refreshed = b :=
  if_neg (by rw [h]; decide)

lemma refreshed_slots (h : b.SlotsOk) {step : ℕ} (hs : step < 128) :
    b.refreshed.slots step = b.schedule step := by
  cases hd : b.block.slotsDirty
  · rw [refreshed_of_clean hd, h.1 hd step hs]
  · rw [refreshed_of_dirty hd, setSlots_slots]

/-- What the arbitration of slots leaves alone: all but the cached schedule, the SH4's queue, the wait
it works out and the count of hits. -/
def bare (b : DcArmBus ρ) : DcArmBus ρ :=
  { b with
    block := b.block.setDirty false, slots := fun _ => false, sh4Slots := [], sh4Next := 0
    gridWait := 0, blockedHits := 0 }

/-- A step of the arbitration. -/
structure Arb (b b' : DcArmBus ρ) : Prop where
  ok : b'.SlotsOk
  bare : b'.bare = b.bare

namespace Arb

variable {b' b'' : DcArmBus ρ}

lemma refl (h : b.SlotsOk) : Arb b b := ⟨h, rfl⟩

lemma trans (h : Arb b b') (h' : Arb b' b'') : Arb b b'' := ⟨h'.ok, h'.bare.trans h.bare⟩

variable (h : Arb b b')

include h

lemma block : b'.block.setDirty false = b.block.setDirty false :=
  (congrArg DcArmBus.block h.bare : _)

lemma store : b'.block.store = b.block.store :=
  (congrArg RegBlock.store h.block : _)

lemma cfg : b'.cfg = b.cfg := (congrArg DcArmBus.cfg h.bare : _)

lemma ram : b'.ram = b.ram := (congrArg DcArmBus.ram h.bare : _)

lemma takenAt : b'.takenAt = b.takenAt := (congrArg DcArmBus.takenAt h.bare : _)

lemma dspStep : b'.dspStep = b.dspStep := (congrArg DcArmBus.dspStep h.bare : _)

end Arb

lemma arb_setSh4Slots (h : b.SlotsOk) {l : List ℕ} (hl : l.Pairwise (· ≤ ·)) :
    Arb b (b.setSh4Slots l) := ⟨⟨h.1, hl⟩, rfl⟩

lemma arb_setSh4Next (h : b.SlotsOk) (t : ℚ) : Arb b (b.setSh4Next t) := ⟨h, rfl⟩

lemma arb_refreshed (h : b.SlotsOk) : Arb b b.refreshed := by
  cases hd : b.block.slotsDirty
  · rw [refreshed_of_clean hd]
    exact .refl h
  · rw [refreshed_of_dirty hd]
    exact ⟨⟨fun _ _ _ => rfl, h.2⟩, rfl⟩

/-- A look at a slot. -/
structure Looked (b b' : DcArmBus ρ) : Prop extends Arb b b' where
  sh4Slots : b'.sh4Slots = b.sh4Slots
  sh4Next : b'.sh4Next = b.sh4Next

lemma Looked.refl (h : b.SlotsOk) : Looked b b := ⟨.refl h, rfl, rfl⟩

lemma Looked.trans {b' b'' : DcArmBus ρ} (h : Looked b b') (h' : Looked b' b'') : Looked b b'' :=
  ⟨h.toArb.trans h'.toArb, h'.sh4Slots.trans h.sh4Slots, h'.sh4Next.trans h.sh4Next⟩

lemma slotUsedAt_spec (h : b.SlotsOk) (g : ℕ) :
    (b.slotUsedAt g).1 = b.takenAt g ∧ Looked b (b.slotUsedAt g).2 := by
  have hr : Looked b b.refreshed := by
    refine ⟨arb_refreshed h, ?_, ?_⟩ <;> unfold refreshed <;> split_ifs <;> rfl
  unfold slotUsedAt slotUsed takenAt
  rw [Nat.mod_eq_of_lt (b.dspStep_lt g)]
  cases hc : b.channelFetch (b.dspStep g) (b.dspSample g) with
  | true => exact ⟨rfl, .refl h⟩
  | false => exact ⟨refreshed_slots h (b.dspStep_lt g), hr⟩

/-- The slot at a step boundary is in use, or given to the SH4. -/
def heldAt (b : DcArmBus ρ) (g : ℕ) : Bool := b.takenAt g || b.sh4Slots.contains g

lemma Looked.heldAt {b' : DcArmBus ρ} (h : Looked b b') : b'.heldAt = b.heldAt := by
  funext g
  rw [DcArmBus.heldAt, h.takenAt, h.sh4Slots, DcArmBus.heldAt]

lemma freeAt_spec (h : b.SlotsOk) (g : ℕ) :
    (b.freeAt g).1 = !b.heldAt g ∧ Looked b (b.freeAt g).2 := by
  obtain ⟨hu, hl⟩ := slotUsedAt_spec h g
  refine ⟨?_, hl⟩
  rw [freeAt, hu, hl.sh4Slots, heldAt, Bool.not_or]

/-! ### An access of the SH4 -/

lemma sh4Search_spec (h : b.SlotsOk) (n g : ℕ) :
    (sh4Search n g b).1 = Grid.search b.heldAt 4 n g ∧ Looked b (sh4Search n g b).2 := by
  induction n generalizing g b with
  | zero => exact ⟨rfl, .refl h⟩
  | succ n ih =>
    obtain ⟨hu, hl⟩ := slotUsedAt_spec h g
    obtain ⟨hs, hl'⟩ := ih hl.ok (g + 4)
    rw [hl.heldAt] at hs
    rw [sh4Search, Grid.search, heldAt]
    simp only [hu, hl.sh4Slots, Bool.or_eq_true]
    by_cases ht : b.takenAt g = true
    · rw [if_pos ht, if_pos (.inl ht)]
      exact ⟨hs, hl.trans hl'⟩
    · by_cases hq : b.sh4Slots.contains g = true
      · rw [if_neg ht, if_pos hq, if_pos (.inr hq)]
        exact ⟨hs, hl.trans hl'⟩
      · rw [if_neg ht, if_neg hq, if_neg (not_or.mpr ⟨ht, hq⟩)]
        exact ⟨rfl, hl⟩

lemma arb_sh4Insert (h : b.SlotsOk) (g : ℕ) : Arb b (b.sh4Insert g) :=
  arb_setSh4Slots h (h.2.orderedInsert g _)

lemma mem_sh4Insert (g x : ℕ) : x ∈ (b.sh4Insert g).sh4Slots ↔ x = g ∨ x ∈ b.sh4Slots := by
  rw [sh4Insert, setSh4Slots_sh4Slots, List.mem_orderedInsert]

/-- What an access does to the bus: it adds slots from its request on. -/
structure Taken (g : ℕ) (b b' : DcArmBus ρ) : Prop extends Arb b b' where
  sh4Next : b'.sh4Next = b.sh4Next
  keeps : ∀ x ∈ b.sh4Slots, x ∈ b'.sh4Slots
  adds : ∀ x ∈ b'.sh4Slots, x ∈ b.sh4Slots ∨ g ≤ x

lemma sh4Take_spec (h : b.SlotsOk) (n g last : ℕ) : Taken g b (sh4Take n g last b).2 := by
  induction n generalizing g last b with
  | zero => exact ⟨.refl h, rfl, fun _ => id, fun _ => .inl⟩
  | succ n ih =>
    obtain ⟨hs, hl⟩ := sh4Search_spec h 256 g
    have hle : g ≤ (sh4Search 256 g b).1 := hs ▸ Grid.le_search _ 4 256 g
    have hi := arb_sh4Insert hl.ok (sh4Search 256 g b).1
    obtain ⟨ha, hn, hk, hadd⟩ := @ih _ hi.ok ((sh4Search 256 g b).1 + b.cfg.sh4Spacing)
      (sh4Search 256 g b).1
    rw [sh4Take]
    refine ⟨(hl.toArb.trans hi).trans ha, hn.trans hl.sh4Next, fun x hx => ?_, fun x hx => ?_⟩
    · exact hk x ((mem_sh4Insert _ x).mpr (.inr (hl.sh4Slots ▸ hx)))
    · rcases hadd x hx with hx | hx
      · rcases (mem_sh4Insert _ x).mp hx with rfl | hx
        · exact .inr hle
        · exact .inl (hl.sh4Slots ▸ hx)
      · exact .inr (by omega)

lemma le_sh4Request (t : ℕ) : t ≤ b.sh4Request t := by
  unfold sh4Request
  dsimp only
  split_ifs <;> omega

lemma sh4Access_spec (h : b.SlotsOk) (t n : ℕ) : Taken (b.sh4Request t) b (b.sh4Access t n).2 :=
  sh4Take_spec h n (b.sh4Request t) 0

end DcArmBus

end Wren7
