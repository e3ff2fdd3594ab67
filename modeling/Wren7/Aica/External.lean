import Wren7.Aica.Grants

/-!
# An SH4 that is driven from outside

A system model calls `sh4_access` itself, between the cycles of the ARM. The bus does not remember
where an access of the ARM starts, so that an access of the SH4 that arrives before that start, and
finds no slot earlier, is given the same one. Nothing else makes the two meet.
-/

namespace Wren7

open Bits Reactive

namespace DcArmBus

variable {ρ : Type*} {b : DcArmBus ρ} {g t : ℕ}

/-! ### Without a generator -/

section Silent

variable (hb : b.SlotsOk) (hp : b.cfg.sh4Period ≤ 0)

include hp

lemma sh4Holds_iff : b.Sh4Holds g ↔ g ∈ b.sh4Slots :=
  or_iff_left fun h => not_lt.mpr hp h.1

lemma busyAt_eq_heldAt {addr : Word} (hr : inRam addr = true) : b.busyAt addr = b.heldAt := by
  funext g
  rw [Bool.eq_iff_iff, ← Bool.not_eq_false, busyAt_eq_false, Admissible, if_pos hr,
    sh4Holds_iff hp, heldAt, Bool.or_eq_true, List.contains_eq_mem, decide_eq_true_eq]
  cases b.takenAt g <;> simp

include hb

lemma ramStart_eq (hw : b.cfg.waits = .dreamcast) {c : BusCycle} (hr : ramCycle c) :
    ramStart b c = Grid.search b.heldAt 4 256 (Grid.up 4 c.t) := by
  rw [ramStart, gridStart_eq (hb.tick c.t) hw, busyAt_tick hb, busyAt_eq_heldAt hp hr.2]

variable [AicaRegs ρ]

/-- A cycle drops only slots from before its end. -/
lemma agreeFrom_cycle_of_silent (hw : b.cfg.waits = .dreamcast) {c : BusCycle}
    (held : ∀ r, slotReg r → (b.cycle c).2.block.store r = b.block.store r) :
    AgreeFrom (c.t + (b.cycle c).1.wait) b (b.cycle c).2 := by
  by_cases hr : ramCycle c
  · have hbt := hb.tick c.t
    obtain ⟨n, hn, h0⟩ := (ahead_gridStart hbt hw hr.2).agree
    have hpr : (b.tick c.t).primed = b.tick c.t := if_neg fun h => not_lt.mpr hp h.1
    rw [h0 hp, arrived, Function.iterate_zero, id, hpr] at hn
    have hstart := ramStart_le hb hw hr
    rw [ramStart] at hstart
    have htick := (agreeFrom_tick hb c.t).mono (Nat.zero_le (c.t + (b.cycle c).1.wait))
    have hcyc := agreeFrom_cycle_of_ramCycle hb held hw hr
    exact (htick.trans (hn.mono (by omega))).trans (hcyc.mono (Nat.zero_le _))
  · exact (agreeFrom_cycle_of_not_ramCycle hb held hr).mono (Nat.zero_le _)

end Silent

/-! ### The run -/

/-- A cycle of the ARM, or an access of the SH4 that arrives at a time. -/
inductive Demand
  | arm (c : BusCycle)
  | sh4 (t : ℕ)

lemma dvd_sh4Request (b : DcArmBus ρ) (t : ℕ) : 4 ∣ b.sh4Request t := by
  unfold sh4Request
  dsimp only
  split_ifs <;> omega

/-- The slot of an access, and what it does to the queue. -/
lemma sh4Access_one (hb : b.SlotsOk) (t : ℕ) :
    (b.sh4Access t 1).1 = Grid.search b.heldAt 4 256 (b.sh4Request t) ∧
      ∀ x, x ∈ (b.sh4Access t 1).2.sh4Slots ↔ x = (b.sh4Access t 1).1 ∨ x ∈ b.sh4Slots := by
  obtain ⟨hs, hl⟩ := sh4Search_spec hb 256 (b.sh4Request t)
  refine ⟨hs, fun x => ?_⟩
  rw [← hl.sh4Slots]
  exact mem_sh4Insert _ x

variable [AicaRegs ρ]

/-- The bus as a machine: it shows the start of an ARM's access and the slot of an SH4's. -/
def demands : Machine (DcArmBus ρ) Demand ℕ where
  out
    | b, .arm c => ramStart b c
    | b, .sh4 t => (b.sh4Access t 1).1
  next
    | b, .arm c => (b.cycle c).2
    | b, .sh4 t => (b.sh4Access t 1).2

/-- A run of `n` demands in time order, with MPRO and the channel registers held fixed, in which the
ARM's searches always have a free slot among the next 256. -/
structure Interleaving (b : DcArmBus ρ) (d : ℕ → Demand) (n : ℕ) : Prop where
  arm_arm : ∀ i j, i < j → j < n → ∀ c c', d i = .arm c → d j = .arm c' →
    c.t + ((demands.after b d i).cycle c).1.wait + 1 ≤ c'.t
  arm_sh4 : ∀ i j, i < j → j < n → ∀ c t, d i = .arm c → d j = .sh4 t → c.t ≤ t
  held : ∀ i ≤ n, ∀ r, slotReg r → (demands.after b d i).block.store r = b.block.store r
  free : ∀ i < n, ∀ c, d i = .arm c → ramCycle c →
    ∃ k < 256, (demands.after b d i).heldAt (Grid.up 4 c.t + k * 4) = false

/-- No slot is granted both to the ARM and to the SH4. -/
def Disjoint (b : DcArmBus ρ) (d : ℕ → Demand) (n : ℕ) : Prop :=
  ∀ i < n, ∀ j < n, ∀ c t, d i = .arm c → ramCycle c → d j = .sh4 t →
    demands.outs b d i ≠ demands.outs b d j

/-- An access of the SH4 begins its search after the start of every earlier access of the ARM, or
finds a free slot before it. -/
def Clear (b : DcArmBus ρ) (d : ℕ → Demand) (n : ℕ) : Prop :=
  ∀ i j, i < j → j < n → ∀ c t, d i = .arm c → ramCycle c → d j = .sh4 t →
    demands.outs b d i < (demands.after b d j).sh4Request t ∨
      ∃ g, 4 ∣ g ∧ (demands.after b d j).sh4Request t ≤ g ∧ g < demands.outs b d i ∧
        (demands.after b d j).heldAt g = false

variable {d : ℕ → Demand} {n : ℕ}

namespace Interleaving

variable (hb : b.SlotsOk) (hw : b.cfg.waits = .dreamcast) (hp : b.cfg.sh4Period ≤ 0)
  (hd : Interleaving b d n)

include hb hd

/-- What does not change in the run. -/
lemma state : ∀ i ≤ n, (demands.after b d i).SlotsOk ∧ (demands.after b d i).cfg = b.cfg ∧
    (demands.after b d i).takenAt = b.takenAt := by
  have hstep : ∀ i, (demands.after b d i).SlotsOk ∧ (demands.after b d i).cfg = b.cfg ∧
      (demands.after b d i).block.samplePhase = b.block.samplePhase := by
    intro i
    induction i with
    | zero => exact ⟨hb, rfl, rfl⟩
    | succ i ih =>
      obtain ⟨hok, hcfg, hph⟩ := ih
      rw [Machine.after_succ]
      cases d i with
      | arm c =>
        exact ⟨hok.cycle c, (cycle_cfg hok c).trans hcfg, (cycle_samplePhase hok c).trans hph⟩
      | sh4 t =>
        have ha := (sh4Access_spec hok t 1).toArb
        exact ⟨ha.ok, ha.cfg.trans hcfg,
          Eq.trans (congrArg RegBlock.samplePhase ha.block : _) hph⟩
  intro i hi
  obtain ⟨hok, hcfg, hph⟩ := hstep i
  exact ⟨hok, hcfg, takenAt_congr hcfg hph (hd.held i hi)⟩

include hw hp

/-- The start of an access of the ARM. -/
lemma arm_start {i : ℕ} (hi : i < n) {c : BusCycle} (hc : d i = .arm c) (hr : ramCycle c) :
    (demands.after b d i).heldAt (demands.outs b d i) = false ∧ c.t ≤ demands.outs b d i ∧
      4 ∣ demands.outs b d i ∧ demands.outs b d i < Grid.up 4 c.t + 1024 := by
  obtain ⟨hok, hcfg, -⟩ := hd.state hb i hi.le
  obtain ⟨k, hk, hf⟩ := hd.free i hi c hc hr
  have hout : demands.outs b d i = Grid.search (demands.after b d i).heldAt 4 256 (Grid.up 4 c.t) := by
    rw [Machine.outs, hc]
    exact ramStart_eq hok (hcfg ▸ hp) (hcfg ▸ hw) hr
  have hup := Grid.le_up (d := 4) (by decide) c.t
  have hle := Grid.le_search (demands.after b d i).heldAt 4 256 (Grid.up 4 c.t)
  have hle' := Grid.search_le hf 256
  rw [hout]
  exact ⟨Grid.search_free ⟨k, hk, hf⟩, by omega, Grid.dvd_search (Grid.dvd_up 4 c.t) 256, by omega⟩

omit hw hp in
/-- The slot of an access of the SH4. -/
lemma sh4_slot {j : ℕ} (hj : j < n) {t : ℕ} (ht : d j = .sh4 t) :
    demands.outs b d j = Grid.search (demands.after b d j).heldAt 4 256
      ((demands.after b d j).sh4Request t) := by
  rw [Machine.outs, ht]
  exact (sh4Access_one (hd.state hb j hj.le).1 t).1

/-- A cycle of the ARM drops only slots from before its end. -/
lemma arm_step {m : ℕ} (hm : m < n) {c : BusCycle} (hc : d m = .arm c) :
    AgreeFrom (c.t + ((demands.after b d m).cycle c).1.wait) (demands.after b d m)
      (demands.after b d (m + 1)) := by
  obtain ⟨hok, hcfg, -⟩ := hd.state hb m hm.le
  have hnext : demands.after b d (m + 1) = ((demands.after b d m).cycle c).2 := by
    rw [Machine.after_succ, hc]
    rfl
  rw [hnext]
  refine agreeFrom_cycle_of_silent hok (hcfg ▸ hp) (hcfg ▸ hw) fun r hr => ?_
  rw [← hnext]
  exact (hd.held (m + 1) hm r hr).trans (hd.held m hm.le r hr).symm

/-- A slot of the SH4 stays in the queue, or is older than a cycle of the ARM that has ended. -/
lemma sh4_kept {j m : ℕ} (hjm : j < m) (hm : m ≤ n) {t : ℕ} (ht : d j = .sh4 t) :
    demands.outs b d j ∈ (demands.after b d m).sh4Slots ∨ ∃ i < m, ∃ c, d i = .arm c ∧
      demands.outs b d j < c.t + ((demands.after b d i).cycle c).1.wait := by
  induction m, hjm using Nat.le_induction with
  | base =>
    rw [Machine.after_succ, Machine.outs, ht]
    exact .inl (((sh4Access_one (hd.state hb j (by omega)).1 t).2 _).mpr (.inl rfl))
  | succ m hjm ih =>
    obtain ⟨hok, hcfg, -⟩ := hd.state hb m (by omega)
    rcases ih (by omega) with hmem | ⟨i, hi, c, hc, hlt⟩
    · cases hdm : d m with
      | arm c =>
        have hag := hd.arm_step hb hw hp hm hdm
        rcases Nat.lt_or_ge (demands.outs b d j)
            (c.t + ((demands.after b d m).cycle c).1.wait) with hlt | hge
        · exact .inr ⟨m, Nat.lt_succ_self m, c, hdm, hlt⟩
        · exact .inl ((hag.mem _ hge).mpr hmem)
      | sh4 t' =>
        rw [Machine.after_succ, hdm]
        exact .inl (((sh4Access_one hok t').2 _).mpr (.inr hmem))
    · exact .inr ⟨i, by omega, c, hc, hlt⟩

/-- What enters the queue is a slot of the SH4. -/
lemma queue_history {i m : ℕ} (him : i ≤ m) (hm : m ≤ n)
    (hg : g ∈ (demands.after b d m).sh4Slots) : g ∈ (demands.after b d i).sh4Slots ∨
      ∃ j, i ≤ j ∧ j < m ∧ ∃ t, d j = .sh4 t ∧ demands.outs b d j = g := by
  induction m, him using Nat.le_induction with
  | base => exact .inl hg
  | succ m him ih =>
    obtain ⟨hok, hcfg, -⟩ := hd.state hb m (by omega)
    have hprev : g ∈ (demands.after b d m).sh4Slots ∨ ∃ t, d m = .sh4 t ∧ demands.outs b d m = g := by
      cases hdm : d m with
      | arm c => exact .inl ((hd.arm_step hb hw hp hm hdm).sublist.mem hg)
      | sh4 t =>
        rw [Machine.after_succ, hdm] at hg
        rcases ((sh4Access_one hok t).2 g).mp hg with heq | hmem
        · exact .inr ⟨t, rfl, by rw [Machine.outs, hdm]; exact heq.symm⟩
        · exact .inl hmem
    rcases hprev with hmem | ⟨t, ht, hout⟩
    · exact (ih (by omega) hmem).imp_right fun ⟨j, h1, h2, h3⟩ => ⟨j, h1, by omega, h3⟩
    · exact .inr ⟨m, him, Nat.lt_succ_self m, t, ht, hout⟩

end Interleaving

/-- In every run in time order, the ARM and the SH4 share no slot if and only if no access of the SH4
begins its search at or before the start of an earlier access of the ARM with no free slot before
it. -/
theorem external_disjoint_iff (hb : b.Reached) (hw : b.cfg.waits = .dreamcast)
    (hp : b.cfg.sh4Period = 0) (hd : Interleaving b d n) : Disjoint b d n ↔ Clear b d n := by
  have hok := hb.slotsOk
  have hp := hp.le
  constructor
  · intro hdis i j hij hj c t hc hr ht
    obtain ⟨hfree, hct, hdvd, hlt⟩ := hd.arm_start hok hw hp (by omega) hc hr
    by_contra hno
    rw [not_or, Nat.not_lt, not_exists] at hno
    obtain ⟨hreq, hheld⟩ := hno
    have hreq4 := dvd_sh4Request (demands.after b d j) t
    have hslot := hd.sh4_slot hok hj ht
    have hne := hdis i (by omega) j hj c t hc hr ht
    by_cases hs : (demands.after b d j).heldAt (demands.outs b d i) = true
    · -- the start is in the queue by now, so an access in between was given it
      rw [heldAt, Bool.or_eq_true, (hd.state hok j hj.le).2.2,
        ← (hd.state hok i (by omega)).2.2, List.contains_iff_mem] at hs
      rw [heldAt, Bool.or_eq_false_iff, List.contains_eq_mem, decide_eq_false_iff_not] at hfree
      have hmem := hs.resolve_left (by rw [hfree.1]; decide)
      rcases hd.queue_history hok hw hp hij.le hj.le hmem with hmem | ⟨k, _, hk, t', ht', hout⟩
      · exact hfree.2 hmem
      · exact hdis i (by omega) k (by omega) c t' hc hr ht' hout.symm
    · -- the start is the first free slot that the access finds
      obtain ⟨k, hk⟩ := Nat.dvd_sub hdvd hreq4
      have hstart : demands.outs b d i = (demands.after b d j).sh4Request t + k * 4 := by omega
      have hle : demands.outs b d j ≤ demands.outs b d i := by
        rw [hslot, hstart]
        exact Grid.search_le (by rw [← hstart]; exact Bool.eq_false_iff.mpr hs) 256
      have hup : Grid.up 4 c.t ≤ (demands.after b d j).sh4Request t :=
        Grid.up_le (by decide) hreq4
          (Nat.le_trans (hd.arm_sh4 i j hij hj c t hc ht) (le_sh4Request t))
      refine hheld (demands.outs b d j) ⟨?_, ?_, by omega, ?_⟩
      · rw [hslot]
        exact Grid.dvd_search hreq4 256
      · rw [hslot]
        exact Grid.le_search _ 4 256 _
      · rw [hslot] at hle hne ⊢
        exact Grid.search_free_of_lt (by omega)
  · intro hclear i hi j hj c t hc hr ht heq
    obtain ⟨hfree, hct, hdvd, hlt⟩ := hd.arm_start hok hw hp hi hc hr
    have hslot := hd.sh4_slot hok hj ht
    rcases Nat.lt_trichotomy i j with hij | rfl | hji
    · rcases hclear i j hij hj c t hc hr ht with hafter | ⟨g, hg4, hg, hgs, hgf⟩
      · have := Grid.le_search (demands.after b d j).heldAt 4 256
          ((demands.after b d j).sh4Request t)
        omega
      · obtain ⟨k, hk⟩ := Nat.dvd_sub hg4 (dvd_sh4Request (demands.after b d j) t)
        have hgk : g = (demands.after b d j).sh4Request t + k * 4 := by omega
        rw [hgk] at hgf
        have := Grid.search_le hgf 256
        omega
    · rw [hc] at ht
      cases ht
    · -- the start was free when the SH4's slot had been taken
      rcases hd.sh4_kept hok hw hp hji hi.le ht with hmem | ⟨k, hk, c', hc', hlt'⟩
      · rw [heldAt, Bool.or_eq_false_iff, List.contains_eq_mem, decide_eq_false_iff_not] at hfree
        exact hfree.2 (heq ▸ hmem)
      · have := hd.arm_arm k i hk hi c' c hc' hc
        omega

/-! ### A read, then an access of the SH4 -/

/-- A new bus with the console's wait states. -/
def console : DcArmBus Empty := new { waits := .dreamcast } 512 0 0

lemma console_reached : console.Reached := ⟨_, _, _, _, [], rfl⟩

/-- A read of the wave RAM at time 1. -/
def earlyRead : BusCycle := ⟨1, 0x100, 0, .N, {}⟩

def readThen (t : ℕ) : ℕ → Demand
  | 0 => .arm earlyRead
  | _ + 1 => .sh4 t

lemma free_at_four : console.heldAt (Grid.up 4 earlyRead.t + 0 * 4) = false := by decide +kernel

lemma after_one (t : ℕ) :
    demands.after console (readThen t) 1 = (console.cycle earlyRead).2 := by
  rw [Machine.after_succ, Machine.after_zero]
  rfl

lemma after_two (t : ℕ) : demands.after console (readThen t) 2 =
    ((console.cycle earlyRead).2.sh4Access t 1).2 := by
  rw [Machine.after_succ, after_one]
  rfl

lemma interleaving_readThen (ht : 1 ≤ t) : Interleaving console (readThen t) 2 where
  arm_arm i j hij hj c c' _ hc' := by
    obtain rfl : j = 1 := by omega
    cases hc'
  arm_sh4 i j hij hj c t' hc ht' := by
    obtain ⟨rfl, rfl⟩ : i = 0 ∧ j = 1 := by omega
    cases hc
    cases ht'
    exact ht
  held i hi r hr := by
    have hok := console_reached.slotsOk
    have h1 : (console.cycle earlyRead).2.block.store r = console.block.store r :=
      @store_cycle_of_ramCycle _ console _ hok earlyRead ⟨rfl, by decide⟩ r hr
    obtain rfl | rfl | rfl : i = 0 ∨ i = 1 ∨ i = 2 := by omega
    · rfl
    · rw [after_one, h1]
    · rw [after_two, (sh4Access_spec (hok.cycle earlyRead) t 1).store, h1]
  free i hi c hc _ := by
    obtain rfl | rfl : i = 0 ∨ i = 1 := by omega
    · cases hc
      exact ⟨0, by decide, free_at_four⟩
    · cases hc

/-- An access of the SH4 that arrives at 2, while the read waits, is given the read's slot 4. -/
theorem external_collision : console.Reached ∧ Interleaving console (readThen 2) 2 ∧
    ¬Disjoint console (readThen 2) 2 := by
  refine ⟨console_reached, interleaving_readThen (by decide), fun h => ?_⟩
  exact h 0 (by decide) 1 (by decide) _ 2 rfl ⟨rfl, by decide⟩ rfl (by decide +kernel)

/-- One that arrives at 5, after the start of the read, is given another. -/
theorem external_disjoint_iff_late : Disjoint console (readThen 5) 2 := by
  refine (external_disjoint_iff console_reached rfl rfl (interleaving_readThen (by decide))).mpr ?_
  intro i j hij hj c t hc _ ht
  obtain ⟨rfl, rfl⟩ : i = 0 ∧ j = 1 := by omega
  cases hc
  cases ht
  exact .inl (by decide +kernel)

end DcArmBus

end Wren7
