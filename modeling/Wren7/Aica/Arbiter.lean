import Wren7.Aica.Harness

/-!
# Slot arbitration

Where a memory cycle of the ARM starts: at the first step boundary from its time on that the users of
its region leave free. The generator of the SH4 advances while the search runs; the search finds what
a look at all arrivals would.
-/

namespace Wren7

open Bits

namespace DcArmBus

variable {ρ : Type*} {b b' : DcArmBus ρ} {g n t : ℕ}

/-- A memory cycle at an address may start at a step boundary. -/
def Admissible (b : DcArmBus ρ) (addr : Word) (g : ℕ) : Prop :=
  if inRam addr = true then b.takenAt g = false ∧ ¬b.Sh4Holds g else b.portBusy addr g = false

open Classical in
/-- A step boundary is not admissible. -/
noncomputable def busyAt (b : DcArmBus ρ) (addr : Word) (g : ℕ) : Bool :=
  decide (¬b.Admissible addr g)

lemma busyAt_eq_false {addr : Word} : b.busyAt addr g = false ↔ b.Admissible addr g := by
  rw [busyAt, decide_eq_false_iff_not, not_not]

/-! ### The searches -/

lemma Ahead.looked {b'' : DcArmBus ρ} (ha : Ahead b t b') (hl : Looked b' b'') :
    Ahead b t b'' := by
  obtain ⟨n, hn, h0⟩ := ha.agree
  refine ⟨⟨n, ?_, h0⟩, fun hp => hl.sh4Next ▸ ha.later hp⟩
  refine hn.step (.refl hn.ok) hl.toArb (hl.sh4Next.trans hn.sh4Next)
    (hl.sh4Slots ▸ hn.sublist) fun x hx => ?_
  rw [hl.sh4Slots, hn.mem x hx]

lemma Ahead.freeAt (hb : b.SlotsOk) {addr : Word} (hr : inRam addr = true)
    (ha : Ahead b (g + 64) b') : (b'.freeAt g).1 = true ↔ b.busyAt addr g = false := by
  obtain ⟨n, hn, -⟩ := ha.agree
  rw [(freeAt_spec hn.ok' g).1, Bool.not_eq_true', busyAt_eq_false, Admissible, if_pos hr, heldAt,
    Bool.or_eq_false_iff, hn.takenAt, (arb_arrived hb n).takenAt, ← ha.mem_iff hb (by omega) (by omega),
    List.contains_eq_mem, decide_eq_false_iff_not]

/-- The look-ahead is long enough: whoever arrives up to a boundary is in the queue when the search
asks about it. -/
lemma ramSearch_eq (hb : b.SlotsOk) (hw : b.cfg.waits.grid = 4) {addr : Word}
    (hr : inRam addr = true) (ha : Ahead b (g + 64) b') :
    (ramSearch n g b').1 = Grid.search (b.busyAt addr) 4 n g := by
  induction n generalizing g b' with
  | zero => rfl
  | succ n ih =>
    obtain ⟨m, hm, -⟩ := ha.agree
    have hgrid : b'.cfg.waits.grid = 4 := by rw [hm.cfg, (arb_arrived hb m).cfg, hw]
    have hl := (freeAt_spec hm.ok' g).2
    have hhit : Looked (b'.freeAt g).2 (b'.freeAt g).2.countHit := ⟨arb_countHit hl.ok, rfl, rfl⟩
    rw [ramSearch, Grid.search, hgrid]
    by_cases hf : (b'.freeAt g).1 = true
    · rw [if_pos hf, (ha.freeAt hb hr).mp hf, if_neg Bool.false_ne_true]
    · have hbusy : b.busyAt addr g = true :=
        Bool.not_eq_false _ ▸ fun h => hf ((ha.freeAt hb hr).mpr h)
      rw [if_neg hf, if_pos hbusy]
      exact ih (((ha.looked hl).looked hhit).advance hb (by omega))

/-- When the search ends, the arrivals are known up to 64 MCLK after its result. -/
lemma ahead_ramSearch (hb : b.SlotsOk) (hw : b.cfg.waits.grid = 4) (ha : Ahead b (g + 64) b') :
    Ahead b ((ramSearch n g b').1 + 64) (ramSearch n g b').2 := by
  induction n generalizing g b' with
  | zero => exact ha
  | succ n ih =>
    obtain ⟨m, hm, -⟩ := ha.agree
    have hgrid : b'.cfg.waits.grid = 4 := by rw [hm.cfg, (arb_arrived hb m).cfg, hw]
    have hl := (freeAt_spec hm.ok' g).2
    have hhit : Looked (b'.freeAt g).2 (b'.freeAt g).2.countHit := ⟨arb_countHit hl.ok, rfl, rfl⟩
    rw [ramSearch, hgrid]
    split_ifs
    · exact ha.looked hl
    · exact ih (((ha.looked hl).looked hhit).advance hb (by omega))

lemma portSearch_eq (hw : b.cfg.waits.grid = 4) (addr : Word) (n g : ℕ) :
    b.portSearch addr n g = Grid.search (b.portBusy addr) 4 n g := by
  induction n generalizing g with
  | zero => rfl
  | succ n ih => rw [portSearch, Grid.search, hw, ih]

lemma portBusy_of_not {addr : Word} (ht : isTemp addr = false) (he : isEfreg addr = false) :
    b.portBusy addr g = false := by
  simp [portBusy, ht, he]

lemma search_of_free {busy : ℕ → Bool} (h : busy g = false) (n : ℕ) :
    Grid.search busy 4 (n + 1) g = g := by
  rw [Grid.search, if_neg (by rw [h]; decide)]

/-- The start of a memory cycle is the first admissible grid point of the next 256. -/
lemma gridStart_eq (hb : b.SlotsOk) (hw : b.cfg.waits = .dreamcast) (c : BusCycle) :
    (b.gridStart c).1 = Grid.search (b.busyAt c.addr) 4 256 (Grid.up 4 c.t) := by
  have hg : b.cfg.waits.grid = 4 := by rw [hw]; rfl
  have hd : b.cfg.waits.dspSlots = true := by rw [hw]; rfl
  have hbp : b.cfg.waits.blockPeriod = 0 := by rw [hw]; rfl
  unfold gridStart
  dsimp only
  rw [hg, hd, hbp, ← Grid.up]
  cases hr : inRam c.addr
  · -- a register: the ports of TEMP and EFREG, or no obstacle
    have hbusy : b.busyAt c.addr = b.portBusy c.addr := by
      funext g
      rw [Bool.eq_iff_iff, ← Bool.not_eq_false, busyAt_eq_false, Admissible, hr,
        if_neg Bool.false_ne_true, Bool.not_eq_false]
    simp only [Bool.false_and, Bool.false_eq_true, if_false]
    rw [hbusy]
    split_ifs with hport
    · exact portSearch_eq hg c.addr 256 _
    · rw [Bool.or_eq_true, not_or, Bool.not_eq_true, Bool.not_eq_true] at hport
      exact (search_of_free (portBusy_of_not hport.1 hport.2) 255).symm
  · have ht : isTemp c.addr = false := by simp [isTemp, hr]
    have he : isEfreg c.addr = false := by simp [isEfreg, hr]
    simp only [ht, he, Bool.or_self, Bool.false_eq_true, if_false, Bool.and_self, if_true]
    exact ramSearch_eq hb hg hr (ahead_sh4Advance hb _)

lemma ahead_gridStart (hb : b.SlotsOk) (hw : b.cfg.waits = .dreamcast) {c : BusCycle}
    (hr : inRam c.addr = true) : Ahead b ((b.gridStart c).1 + 64) (b.gridStart c).2 := by
  have hg : b.cfg.waits.grid = 4 := by rw [hw]; rfl
  have hd : b.cfg.waits.dspSlots = true := by rw [hw]; rfl
  have ht : isTemp c.addr = false := by simp [isTemp, hr]
  have he : isEfreg c.addr = false := by simp [isEfreg, hr]
  unfold gridStart
  simp only [ht, he, hr, hd, Bool.or_self, Bool.false_eq_true, if_false, Bool.and_self, if_true]
  exact ahead_ramSearch hb hg (ahead_sh4Advance hb _)

/-! ### The wait of a cycle -/

lemma agreeFrom_tick (hb : b.SlotsOk) (t : ℕ) : AgreeFrom 0 b (b.tick t) where
  ok := hb
  ok' := hb.tick t
  cfg := rfl
  takenAt := @takenAt_congr ρ b (b.tick t) rfl (RegBlock.sampleClock_samplePhase t) fun _ hr =>
    RegBlock.sampleClock_store t (ne_of_slotReg hr).1 (ne_of_slotReg hr).2
  dspStep := @dspStep_congr ρ b (b.tick t) rfl (RegBlock.sampleClock_samplePhase t)
  sh4Next := rfl
  sublist := .refl _
  mem := fun _ _ => .rfl

lemma portBusy_tick (hb : b.SlotsOk) (t : ℕ) (addr : Word) :
    (b.tick t).portBusy addr g = b.portBusy addr g := by
  have hs : ∀ r, mproReg r → (b.tick t).block.store r = b.block.store r := fun r hr =>
    RegBlock.sampleClock_store t (ne_of_slotReg (.inr hr)).1 (ne_of_slotReg (.inr hr)).2
  have hlt := b.dspStep_lt (g + b.cfg.dspPortOff)
  have h0 := hs _ (mproReg_regAt
    (show 0x3400 ≤ 0x3400 + 16 * b.dspStep (g + b.cfg.dspPortOff) by omega) (by omega))
  have h8 := hs _ (mproReg_regAt
    (show 0x3400 ≤ 0x3408 + 16 * b.dspStep (g + b.cfg.dspPortOff) by omega) (by omega))
  have hcfg : (b.tick t).cfg = b.cfg := rfl
  simp only [portBusy, hcfg, (agreeFrom_tick hb t).dspStep, h0, h8]

/-- The sample clock leaves the slots alone. -/
lemma busyAt_tick (hb : b.SlotsOk) (t : ℕ) (addr : Word) :
    (b.tick t).busyAt addr = b.busyAt addr := by
  have ha := agreeFrom_tick hb t
  funext g
  rw [Bool.eq_iff_iff, ← Bool.not_eq_false, ← Bool.not_eq_false, not_iff_not, busyAt_eq_false,
    busyAt_eq_false, Admissible, Admissible, ha.takenAt, ha.holds, portBusy_tick hb]

/-- The length of a memory cycle on the console. -/
def slotLength (c : BusCycle) : ℕ := if c.flags.write && c.flags.lock then 4 else 8

lemma toNat_cycleLength (hw : b.cfg.waits = .dreamcast) (c : BusCycle) :
    (b.cycleLength c).toNat = slotLength c := by
  unfold cycleLength slotLength
  rw [hw]
  split_ifs <;> rfl

lemma arbitrated_gridWait (hb : b.SlotsOk) (hw : b.cfg.waits = .dreamcast) {c : BusCycle}
    (hl : isLocal c.addr = false) : (b.arbitrated c).gridWait.toNat =
      Grid.search (b.busyAt c.addr) 4 256 (Grid.up 4 c.t) - c.t + slotLength c - 1 := by
  have hlen : 1 ≤ slotLength c ∧ slotLength c ≤ 8 := by
    unfold slotLength
    split_ifs <;> decide
  obtain ⟨k, hk, hs⟩ := Grid.exists_search (b.busyAt c.addr) 4 256 (Grid.up 4 c.t)
  have hup := Grid.up_lt (d := 4) (by decide) c.t
  have hcl : ((b.gridStart c).2.cycleLength c).toNat = slotLength c :=
    toNat_cycleLength ((arb_gridStart hb c).cfg ▸ hw) c
  have hg : b.cfg.waits.grid ≠ 0 := by rw [hw]; decide
  rw [arbitrated, if_neg hg, hl, if_neg Bool.false_ne_true, setGridWait_gridWait,
    gridStart_eq hb hw]
  have h1 : BitVec.toNat (1 : Word) = 1 := rfl
  simp only [h1, BitVec.toNat_sub, BitVec.toNat_add, BitVec.toNat_ofNat, hcl]
  omega

lemma waitOf_of_grid (hg : b.cfg.waits.grid ≠ 0) (c : BusCycle) :
    b.waitOf c = b.gridWait.toNat := if_pos hg

/-- The advance ends with the next arrival in the future. -/
lemma lt_sh4Next_sh4Advance (hb : b.SlotsOk) (hp : 0 < b.cfg.sh4Period) (t : ℕ) :
    t < (b.sh4Advance t).sh4Next := (ahead_sh4Advance hb t).later hp

variable [AicaRegs ρ]

lemma cycle_wait (hb : b.SlotsOk) (hw : b.cfg.waits = .dreamcast) {c : BusCycle}
    (hm : c.type.isMem = true) (hl : isLocal c.addr = false) : (b.cycle c).1.wait =
      Grid.search (b.busyAt c.addr) 4 256 (Grid.up 4 c.t) - c.t + slotLength c - 1 := by
  have hb' := hb.tick c.t
  have hw' : ((b.tick c.t).arbitrated c).cfg.waits = .dreamcast :=
    (arb_arbitrated hb' c).cfg ▸ hw
  have hg : ((b.tick c.t).arbitrated c).cfg.waits.grid ≠ 0 := by rw [hw']; decide
  rw [cycle, hm, if_neg (by decide)]
  refine (waitOf_of_grid hg c).trans ?_
  rw [arbitrated_gridWait hb' hw hl, busyAt_tick hb]

lemma cycle_wait_zero (hb : b.SlotsOk) (hw : b.cfg.waits = .dreamcast) {c : BusCycle}
    (h : c.type.isMem = false ∨ isLocal c.addr = true) : (b.cycle c).1.wait = 0 := by
  have hb' := hb.tick c.t
  have hg : (b.tick c.t).cfg.waits.grid ≠ 0 := by
    rw [show (b.tick c.t).cfg = b.cfg from rfl, hw]
    decide
  have hw' : ((b.tick c.t).arbitrated c).cfg.waits = .dreamcast :=
    (arb_arbitrated hb' c).cfg ▸ hw
  have hg' : ((b.tick c.t).arbitrated c).cfg.waits.grid ≠ 0 := by rw [hw']; decide
  cases hm : c.type.isMem
  · rw [cycle, hm, if_pos (by decide)]
    exact if_pos hg
  · have hl := h.resolve_left (by rw [hm]; decide)
    rw [cycle, hm, if_neg (by decide)]
    refine (waitOf_of_grid hg' c).trans ?_
    rw [arbitrated, if_neg hg, if_pos hl]
    rfl

end DcArmBus

end Wren7
