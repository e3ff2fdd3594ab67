import Wren7.Aica.Arrivals
import Wren7.Aica.Handshake

/-!
# What can happen to the bus

The operations of the harness and of an attached core on a `DcArmBus`. Whatever their order, the
cached slot schedule is the one of MPRO or is marked as out of date.
-/

namespace Wren7

open Bits

/-! ### The registers of the slot schedule -/

/-- A register of MPRO, the program of the DSP. -/
def mproReg (r : RegNo) : Prop := regNo 0x3400 ≤ r ∧ r < regNo 0x3C00

instance (r : RegNo) : Decidable (mproReg r) := inferInstanceAs (Decidable (_ ∧ _))

/-- A register that the users of the wave RAM slots depend on: a channel's or one of MPRO. -/
def slotReg (r : RegNo) : Prop := r < regNo 0x2000 ∨ mproReg r

lemma toNat_regAt {off : ℕ} (h : off < 0x8000) : (regAt off).toNat = off / 4 := by
  simp only [regAt, regNo, field, BitVec.extractLsb'_toNat, BitVec.toNat_ofNat,
    Nat.shiftRight_eq_div_pow]
  omega

lemma mproReg_iff (r : RegNo) : mproReg r ↔ 0xD00 ≤ r.toNat ∧ r.toNat < 0xF00 := .rfl

lemma slotReg_iff (r : RegNo) : slotReg r ↔ r.toNat < 0x800 ∨ 0xD00 ≤ r.toNat ∧ r.toNat < 0xF00 :=
  .rfl

lemma mproReg_regAt {off : ℕ} (h : 0x3400 ≤ off) (h' : off < 0x3C00) : mproReg (regAt off) := by
  rw [mproReg_iff, toNat_regAt (by omega)]
  omega

lemma slotReg_regAt {off : ℕ} (h : off < 0x2000) : slotReg (regAt off) := by
  rw [slotReg_iff, toNat_regAt (by omega)]
  omega

lemma ne_of_slotReg {r : RegNo} (h : slotReg r) : r ≠ scipd ∧ r ≠ mcipd := by
  rw [slotReg_iff] at h
  constructor <;> rintro rfl <;> revert h <;> decide

namespace RegBlock

variable {ρ : Type*} (s : RegBlock ρ) {t u : RegBlock ρ}

/-- Where a register of MPRO changes, the schedule is marked as out of date. -/
def Marks (s t : RegBlock ρ) : Prop :=
  t.slotsDirty = false → s.slotsDirty = false ∧ ∀ r, mproReg r → t.store r = s.store r

lemma Marks.refl : Marks s s := fun h => ⟨h, fun _ _ => rfl⟩

variable {s}

lemma Marks.trans (h : Marks s t) (h' : Marks t u) : Marks s u := fun hu =>
  ⟨(h (h' hu).1).1, fun r hr => ((h' hu).2 r hr).trans ((h (h' hu).1).2 r hr)⟩

lemma marks_of_store (hd : t.slotsDirty = s.slotsDirty)
    (h : ∀ r, mproReg r → t.store r = s.store r) : Marks s t := fun ht => ⟨hd ▸ ht, h⟩

lemma marks_updateInterrupts : Marks s s.updateInterrupts := by
  refine marks_of_store ?_ fun r _ => by rw [updateInterrupts_store]
  unfold updateInterrupts
  split_ifs <;> rfl

lemma marks_setReg {r : RegNo} (h : ¬mproReg r) (v : BitVec 16) : Marks s (s.setReg r v) := by
  refine marks_of_store rfl fun r' hr' => ?_
  rw [setReg_store, Function.update_of_ne]
  rintro rfl
  exact h hr'

lemma marks_edge : Marks s s.edge := by
  have hm : Marks s s.marked := (marks_setReg (by decide) _).trans (marks_setReg (by decide) _)
  exact (hm.trans marks_updateInterrupts).trans (marks_of_store rfl fun _ _ => rfl)

lemma marks_sampleClock (t : ℕ) : Marks s (s.sampleClock t) := by
  obtain ⟨u, n, hu, h⟩ := sampleClock_eq (s := s) t
  have hs : Marks s u := by
    rcases hu with rfl | ⟨_, rfl⟩
    · exact .refl _
    · exact marks_of_store rfl fun _ _ => rfl
  rcases h with ⟨-, h⟩ | ⟨-, h⟩ <;> rw [h]
  · exact (hs.trans marks_edge).trans (marks_of_store rfl fun _ _ => rfl)
  · exact hs

/-- The clock changes SCIPD and MCIPD only. -/
lemma sampleClock_store (t : ℕ) {r : RegNo} (hp : r ≠ scipd) (hm : r ≠ mcipd) :
    (s.sampleClock t).store r = s.store r := by
  obtain ⟨u, n, hu, h⟩ := sampleClock_eq (s := s) t
  have hs : u.store = s.store := by rcases hu with rfl | ⟨_, rfl⟩ <;> rfl
  rcases h with ⟨-, h⟩ | ⟨-, h⟩ <;> rw [h]
  · rw [setNext_store, edge_eq, setNext_store, updateInterrupts_store, marked_store,
      if_neg (not_or.mpr ⟨hp, hm⟩), hs]
  · rw [hs]

lemma updateInterrupts_samplePhase : s.updateInterrupts.samplePhase = s.samplePhase := by
  unfold updateInterrupts
  split_ifs <;> rfl

lemma sampleClock_samplePhase (t : ℕ) : (s.sampleClock t).samplePhase = s.samplePhase := by
  obtain ⟨u, n, hs, h⟩ := sampleClock_eq (s := s) t
  have hs : u.samplePhase = s.samplePhase := by rcases hs with rfl | ⟨_, rfl⟩ <;> rfl
  rcases h with ⟨-, h⟩ | ⟨-, h⟩ <;> rw [h]
  · rw [setNext_samplePhase, edge_eq, setNext_samplePhase, updateInterrupts_samplePhase]
    exact hs
  · exact hs

section Hook

variable [AicaRegs ρ]

lemma marks_rreg (r : RegNo) : Marks s (s.rreg r).2 := by
  refine marks_of_store ?_ fun r' _ => ?_ <;> unfold rreg <;> split_ifs <;> try rfl
  all_goals split <;> rfl

lemma marks_wreg (r : RegNo) (v mask : BitVec 16) : Marks s (s.wreg r v mask) := by
  unfold wreg
  by_cases hL : r = regL
  · exact if_pos hL ▸ .refl s
  rw [if_neg hL]
  by_cases hM : r = regM
  · rw [if_pos hM]
    split_ifs
    · exact (marks_of_store rfl fun _ _ => rfl).trans marks_updateInterrupts
    · exact .refl s
  rw [if_neg hM]
  split
  · exact (marks_of_store rfl fun _ _ => rfl).trans marks_updateInterrupts
  · refine Marks.trans ?_ marks_updateInterrupts
    by_cases hr : regNo 0x3400 ≤ r ∧ r < regNo 0x3C00
    · -- the flag is set first, and stays
      simp only [if_pos hr]
      split_ifs <;> exact nofun
    · simp only [if_neg hr]
      split_ifs
      · exact marks_setReg (by decide) _
      · exact .refl s
      · exact marks_setReg (by decide) _
      · exact marks_setReg hr _

/-- No call leaves the schedule out of date without a mark. -/
lemma marks_call (c : Call) : Marks s (s.call c).2 := by
  obtain ⟨t, ht, h⟩ := call_eq s c
  have hs : Marks s t := by
    rcases ht with rfl | ⟨_, rfl⟩
    · exact .refl _
    · exact marks_of_store rfl fun _ _ => rfl
  rw [h]
  refine hs.trans ?_
  cases c.access with
  | read r => exact marks_rreg r
  | write r v mask => exact marks_wreg r v mask
  | clock t => exact marks_sampleClock t
  | dropped => exact .refl _

lemma call_samplePhase (c : Call) : (s.call c).2.samplePhase = s.samplePhase := by
  obtain ⟨t, ht, h⟩ := call_eq s c
  have hs : t.samplePhase = s.samplePhase := by rcases ht with rfl | ⟨_, rfl⟩ <;> rfl
  rw [h, ← hs]
  cases c.access with
  | read r =>
    unfold perform rreg
    dsimp only
    split_ifs <;> try rfl
    split <;> rfl
  | write r v mask =>
    unfold perform wreg
    dsimp only
    split_ifs <;> try rfl
    all_goals first
      | exact updateInterrupts_samplePhase
      | (split <;> exact updateInterrupts_samplePhase)
  | clock t => exact sampleClock_samplePhase t
  | dropped => rfl

end Hook

end RegBlock

namespace DcArmBus

variable {ρ : Type*} {b b' : DcArmBus ρ}

lemma dspAccess_congr (h : ∀ r, mproReg r → b'.block.store r = b.block.store r) {step : ℕ}
    (hs : step < 128) : b'.dspAccess step = b.dspAccess step := by
  rw [dspAccess, h _ (mproReg_regAt (by omega) (by omega)), dspAccess]

lemma place_congr {f f' : ℕ → Bool} (h : ∀ step < 128, f' step = f step) (prev : Option ℤ)
    (l : List ℤ) : place f' prev l = place f prev l := by
  have hf (c : ℤ) : f' (c % 128).toNat = f (c % 128).toNat := h _ (by omega)
  induction l generalizing prev with
  | nil => rfl
  | cons n rest ih => simp only [place, hf, ih]

lemma schedule_congr (hc : b'.cfg = b.cfg)
    (h : ∀ r, mproReg r → b'.block.store r = b.block.store r) {step : ℕ} (hs : step < 128) :
    b'.schedule step = b.schedule step := by
  rw [schedule, schedule, fixedPlaces, fixedPlaces, hc, dspAccess_congr h hs,
    place_congr fun s hs => dspAccess_congr h hs]

lemma channelFetch_congr (hc : b'.cfg = b.cfg)
    (h : ∀ r, slotReg r → b'.block.store r = b.block.store r) (step : ℕ) (n : ℤ) :
    b'.channelFetch step n = b.channelFetch step n := by
  have hch {o ch : ℕ} (ho : o < 0x80) (hch : ch < 64) :
      b'.block.store (regAt (0x80 * ch + o)) = b.block.store (regAt (0x80 * ch + o)) :=
    h _ (slotReg_regAt (by omega))
  have hk : ((((step % 128 : ℕ) : ℤ) - b.cfg.sgcStep0) % 128 / 2).toNat < 64 := by omega
  have h0 := hch (o := 0) (by omega) hk
  have h4 := hch (o := 4) (by omega) hk
  have h18 := hch (o := 0x18) (by omega) hk
  rw [Nat.add_zero] at h0
  simp only [channelFetch, adpcmFetch, hc, h0, h4, h18]

lemma dspStep_congr (hc : b'.cfg = b.cfg) (hp : b'.block.samplePhase = b.block.samplePhase) :
    b'.dspStep = b.dspStep := by
  funext t
  rw [dspStep, dspStep, hc, hp]

lemma takenAt_congr (hc : b'.cfg = b.cfg) (hp : b'.block.samplePhase = b.block.samplePhase)
    (h : ∀ r, slotReg r → b'.block.store r = b.block.store r) : b'.takenAt = b.takenAt := by
  funext g
  rw [takenAt, takenAt, dspStep_congr hc hp, dspSample, dspSample, hc, hp,
    channelFetch_congr hc h, schedule_congr hc (fun r hr => h r (.inr hr)) (b.dspStep_lt g)]

/-! ### Operations -/

/-- A bus without a register hook. -/
instance : AicaRegs Empty := ⟨nofun, nofun⟩

/-- What the harness and an attached core do to the bus. -/
inductive Op (ρ : Type*)
  | load (addr : Word) (data : List (BitVec 8))
  | wr32 (addr v : Word)
  | regRead (off : Word)
  | regWrite (off : Word) (v : BitVec 16)
  /-- A register block takes the place of the internal store. -/
  | hook (h : ρ)
  | attach (level : Bool)
  | tick (t : ℕ)
  | cycle (c : BusCycle)
  | sh4Access (t n : ℕ)

variable [AicaRegs ρ]

def perform (b : DcArmBus ρ) : Op ρ → DcArmBus ρ
  | .load addr data => load addr data b
  | .wr32 addr v => b.wr32 addr v
  | .regRead off => b.setBlock (b.block.regRead off).2
  | .regWrite off v => b.regWrite off v
  | .hook h => b.setBlock (b.block.setHook h)
  | .attach level => b.attach level
  | .tick t => b.tick t
  | .cycle c => (b.cycle c).2
  | .sh4Access t n => (b.sh4Access t n).2

/-- A bus that some operations have made of a new one. -/
def Reached (b : DcArmBus ρ) : Prop := ∃ cfg period phase latency, ∃ ops : List (Op ρ),
  b = ops.foldl perform (new cfg period phase latency)

omit [AicaRegs ρ] in
lemma SlotsOk.setBlock (hb : b.SlotsOk) {s : RegBlock ρ} (h : b.block.Marks s) :
    (b.setBlock s).SlotsOk := by
  refine ⟨fun hd step hs => ?_, hb.2⟩
  obtain ⟨hd', hr⟩ := h hd
  have hs' : (b.setBlock s).schedule step = b.schedule step :=
    @schedule_congr ρ b (b.setBlock s) rfl hr step hs
  rw [setBlock_slots, hb.1 hd' step hs, hs']

omit [AicaRegs ρ] in
lemma SlotsOk.setRam (hb : b.SlotsOk) (f : BitVec 21 → BitVec 8) : (b.setRam f).SlotsOk := hb

omit [AicaRegs ρ] in
lemma SlotsOk.tick (hb : b.SlotsOk) (t : ℕ) : (b.tick t).SlotsOk :=
  hb.setBlock (RegBlock.marks_sampleClock t)

omit [AicaRegs ρ] in
lemma load_block (addr : Word) (data : List (BitVec 8)) (b : DcArmBus ρ) :
    (DcArmBus.load addr data b).block = b.block := by
  induction data generalizing addr b with
  | nil => rfl
  | cons v vs ih => exact ih (addr + 1) _

omit [AicaRegs ρ] in
lemma SlotsOk.load (hb : b.SlotsOk) (addr : Word) (data : List (BitVec 8)) :
    (DcArmBus.load addr data b).SlotsOk := by
  induction data generalizing addr b with
  | nil => exact hb
  | cons v vs ih => exact ih (hb.setRam _) (addr + 1)

omit [AicaRegs ρ] in
lemma load_cfg (addr : Word) (data : List (BitVec 8)) (b : DcArmBus ρ) :
    (DcArmBus.load addr data b).cfg = b.cfg := by
  induction data generalizing addr b with
  | nil => rfl
  | cons v vs ih => exact ih (addr + 1) _

lemma SlotsOk.access (hb : b.SlotsOk) (c : BusCycle) : (b.access c).2.SlotsOk := by
  unfold DcArmBus.access
  split_ifs
  · exact hb
  · exact hb
  · exact hb
  · exact SlotsOk.setBlock (b := b.countAccess) hb (RegBlock.marks_call (.arm c))

lemma access_block (c : BusCycle) : (b.access c).2.block =
    if inRam c.addr then b.block else (b.block.regCycle c).2 := by
  unfold access
  split_ifs <;> rfl

lemma access_cfg (c : BusCycle) : (b.access c).2.cfg = b.cfg := by
  unfold access
  split_ifs <;> rfl

section Cycle

variable {c : BusCycle}

/-- A memory cycle: the clock, the arbitration and the access. -/
lemma cycle_mem (hm : c.type.isMem = true) :
    (b.cycle c).2 = (((b.tick c.t).arbitrated c).access c).2 := by
  unfold cycle
  rw [if_neg (by rw [hm]; decide)]

lemma cycle_internal (hm : c.type.isMem = false) : (b.cycle c).2 = b.tick c.t := by
  unfold cycle
  rw [if_pos (by rw [hm]; rfl)]

/-- The bus never aborts. -/
lemma cycle_abort (b : DcArmBus ρ) (c : BusCycle) : (b.cycle c).1.abort = false := by
  unfold cycle
  dsimp only
  split_ifs <;> rfl

lemma cycle_cfg (hb : b.SlotsOk) (c : BusCycle) : (b.cycle c).2.cfg = b.cfg := by
  cases hm : c.type.isMem with
  | false => rw [cycle_internal hm]; rfl
  | true =>
    rw [cycle_mem hm, access_cfg, (arb_arbitrated (hb.tick c.t) c).cfg]
    rfl

omit [AicaRegs ρ] in
lemma Arb.block_eq (h : Arb b b') : b'.block = b.block.setDirty b'.block.slotsDirty := by
  have he := congrArg (RegBlock.setDirty · b'.block.slotsDirty) h.block
  exact he

/-- The registers in a bus cycle: the clock, the mark of the arbitration and the access. -/
lemma block_cycle {P : RegBlock ρ → Prop} (hb : b.SlotsOk) (hd : ∀ u d, P u → P (u.setDirty d))
    (hr : ∀ u, c.type.isMem = true → inRam c.addr = false → P u → P (u.regCycle c).2)
    (h : P (b.tick c.t).block) : P (b.cycle c).2.block := by
  cases hm : c.type.isMem with
  | false => rwa [cycle_internal hm]
  | true =>
    have ha : P ((b.tick c.t).arbitrated c).block := by
      rw [(arb_arbitrated (hb.tick c.t) c).block_eq]
      exact hd _ _ h
    rw [cycle_mem hm, access_block]
    cases hi : inRam c.addr with
    | true => exact ha
    | false => exact hr _ hm hi ha

end Cycle

lemma SlotsOk.cycle (hb : b.SlotsOk) (c : BusCycle) : (b.cycle c).2.SlotsOk := by
  cases hm : c.type.isMem with
  | false =>
    rw [cycle_internal hm]
    exact hb.tick c.t
  | true =>
    rw [cycle_mem hm]
    exact (arb_arbitrated (hb.tick c.t) c).ok.access c

lemma SlotsOk.perform (hb : b.SlotsOk) (op : Op ρ) : (b.perform op).SlotsOk := by
  cases op with
  | load addr data => exact hb.load addr data
  | wr32 addr v => exact hb
  | regRead off => exact hb.setBlock (RegBlock.marks_call (.regRead off))
  | regWrite off v => exact hb.setBlock (RegBlock.marks_call (.regWrite off v))
  | hook h => exact hb.setBlock (RegBlock.marks_of_store rfl fun _ _ => rfl)
  | attach level => exact hb.setBlock (RegBlock.marks_of_store rfl fun _ _ => rfl)
  | tick t => exact hb.tick t
  | cycle c => exact hb.cycle c
  | sh4Access t n => exact (sh4Access_spec hb t n).ok

lemma Reached.slotsOk (hb : b.Reached) : b.SlotsOk := by
  obtain ⟨cfg, period, phase, latency, ops, rfl⟩ := hb
  generalize hn : (new cfg period phase latency : DcArmBus ρ) = b
  have hb : b.SlotsOk := hn ▸ slotsOk_new cfg period phase latency
  clear hn
  induction ops generalizing b with
  | nil => exact hb
  | cons op ops ih => exact ih (b.perform op) (hb.perform op)

end DcArmBus

end Wren7
