import Wren7.Aica.Arbiter

/-!
# No slot is granted twice

The record of the slots that the periodic generator takes, and a run of the ARM beside it. The ARM's
accesses are recorded nowhere: what keeps the two apart is that the arrivals are known 64 MCLK ahead
of every candidate, and that a slot is dropped only where no search comes back to it.
-/

namespace Wren7

open Bits Reactive

namespace DcArmBus

variable {ρ : Type*} {b b' : DcArmBus ρ} {g h n : ℕ}

/-! ### The record of the generator -/

/-- The slots of an access and the points from which they were searched, the newest first. -/
def takeLog : (n g : ℕ) → DcArmBus ρ → List (ℕ × ℕ) → List (ℕ × ℕ)
  | 0, _, _, log => log
  | n + 1, g, b, log =>
    let r := sh4Search 256 g b
    takeLog n (r.1 + b.cfg.sh4Spacing) (r.2.sh4Insert r.1) ((g, r.1) :: log)

/-- The record of the generator after some arrivals. -/
def arrivedLog (b : DcArmBus ρ) : ℕ → List (ℕ × ℕ)
  | 0 => []
  | n + 1 =>
    let c := b.arrived n
    takeLog c.cfg.sh4Count (c.sh4Request ⌊c.sh4Next⌋₊) c (arrivedLog b n)

/-- The queue holds what was recorded, and each search that did not run into its guard found the
first slot free of the users and of the earlier grants. -/
structure Recorded (b : DcArmBus ρ) (log : List (ℕ × ℕ)) : Prop where
  ok : b.SlotsOk
  perm : b.sh4Slots.Perm (log.map Prod.snd)
  granted : (∀ p ∈ log, p.2 < p.1 + 1024) → Grid.Granted 4 b.takenAt log

variable {log : List (ℕ × ℕ)}

lemma Recorded.insert (hr : Recorded b log) (hg : 4 ∣ g) :
    Recorded ((sh4Search 256 g b).2.sh4Insert (sh4Search 256 g b).1)
      ((g, (sh4Search 256 g b).1) :: log) := by
  obtain ⟨hs, hl⟩ := sh4Search_spec hr.ok 256 g
  have ha := arb_sh4Insert hl.ok (sh4Search 256 g b).1
  refine ⟨ha.ok, ?_, fun hlog => ⟨?_, ?_⟩⟩
  · rw [sh4Insert, setSh4Slots_sh4Slots, hl.sh4Slots, List.map_cons]
    exact (List.perm_orderedInsert _ _ _).trans (hr.perm.cons _)
  · have hlt := hlog _ (List.mem_cons_self ..)
    have hleast := @Grid.isLeast_of_lt 4 _ 256 b.heldAt (by decide) hg
      (by rw [← hs]; omega)
    have hset : {x | 4 ∣ x ∧ g ≤ x ∧ b.heldAt x = false} =
        {x | 4 ∣ x ∧ g ≤ x ∧ b.takenAt x = false ∧ x ∉ log.map Prod.snd} := by
      ext x
      simp only [Set.mem_ofPred_eq, heldAt, Bool.or_eq_false_iff, List.contains_eq_mem,
        decide_eq_false_iff_not, hr.perm.mem_iff]
    rw [ha.takenAt, hl.takenAt, hs]
    exact hset ▸ hleast
  · rw [ha.takenAt, hl.takenAt]
    exact hr.granted fun p hp => hlog p (List.mem_cons_of_mem _ hp)

lemma Recorded.take (hsp : 4 ∣ b.cfg.sh4Spacing) (hr : Recorded b log) (hg : 4 ∣ g) (n last : ℕ) :
    Recorded (sh4Take n g last b).2 (takeLog n g b log) := by
  induction n generalizing g last b log with
  | zero => exact hr
  | succ n ih =>
    obtain ⟨hs, hl⟩ := sh4Search_spec hr.ok 256 g
    have hcfg := (hl.toArb.trans (arb_sh4Insert hl.ok (sh4Search 256 g b).1)).cfg
    have hd : 4 ∣ (sh4Search 256 g b).1 := hs ▸ Grid.dvd_search hg 256
    rw [takeLog, sh4Take]
    exact ih (hcfg ▸ hsp) (hr.insert hg) (Nat.dvd_add hd hsp) _

/-- A bus to whose wave RAM the SH4 has had no access. -/
structure Idle (b : DcArmBus ρ) : Prop where
  ok : b.SlotsOk
  sh4Slots : b.sh4Slots = []
  sh4Next : b.sh4Next < 0

lemma recorded_arrived (hb : b.Idle) (hsp : 4 ∣ b.cfg.sh4Spacing) (he : b.cfg.sh4EvenOnly = false)
    (n : ℕ) : Recorded (b.arrived n) (b.arrivedLog n) := by
  have hq : b.primed.sh4Slots = [] := (primed_sh4Slots b).trans hb.sh4Slots
  induction n with
  | zero =>
    exact ⟨(arb_primed hb.ok).ok, hq ▸ List.Perm.nil, fun _ => trivial⟩
  | succ n ih =>
    have hcfg := (arb_arrived hb.ok n).cfg
    have hreq : 4 ∣ (b.arrived n).sh4Request ⌊(b.arrived n).sh4Next⌋₊ := by
      rw [sh4Request, hcfg, he, if_neg (by simp)]
      exact Nat.dvd_mul_left 4 _
    obtain ⟨h1, h2, h3⟩ := ih.take (hcfg ▸ hsp) hreq (b.arrived n).cfg.sh4Count 0
    rw [arrived_succ]
    exact ⟨h1, h2, h3⟩

lemma holds_of_mem_arrivedLog (hb : b.Idle) (hp : 0 < b.cfg.sh4Period) (hsp : 4 ∣ b.cfg.sh4Spacing)
    (he : b.cfg.sh4EvenOnly = false) (hg : g ∈ (b.arrivedLog n).map Prod.snd) : b.Sh4Holds g :=
  holds_of_mem_arrived hb.ok hp ((recorded_arrived hb hsp he n).perm.mem_iff.mpr hg)

/-! ### A cycle of the ARM -/

/-- The start of a wave RAM access. -/
def ramStart (b : DcArmBus ρ) (c : BusCycle) : ℕ := ((b.tick c.t).gridStart c).1

/-- A cycle that accesses the wave RAM. -/
def ramCycle (c : BusCycle) : Prop := c.type.isMem = true ∧ inRam c.addr = true

/-- A bus has seen some arrivals of the generator of `b`, and agrees with it from `h` on. -/
def Follows (b : DcArmBus ρ) (n h : ℕ) (b' : DcArmBus ρ) : Prop :=
  AgreeFrom h (b.arrived n) b'.primed ∧ h ≤ ⌊(b.arrived n).sh4Next⌋₊

lemma Follows.mono {h' : ℕ} (hf : Follows b n h b') (hh : h ≤ h')
    (hn : h' ≤ ⌊(b.arrived n).sh4Next⌋₊) : Follows b n h' b' := ⟨hf.1.mono hh, hn⟩

/-- Steps that leave the users of the slots and the SH4's side alone. -/
lemma Follows.step {b'' : DcArmBus ρ} (hf : Follows b n h b') (ha : AgreeFrom 0 b' b'') :
    Follows b n h b'' :=
  ⟨hf.1.trans (ha.primed.mono (Nat.zero_le h)), hf.2⟩

/-- The search for a slot sees more arrivals, and drops only slots that are too old for any later
search. -/
lemma Follows.gridStart (hb : b.SlotsOk) (hb' : b'.SlotsOk) (hp : 0 < b.cfg.sh4Period)
    (hw : b'.cfg.waits = .dreamcast) {c : BusCycle} (hr : inRam c.addr = true)
    (hf : Follows b n h b') :
    ∃ k, Follows b (k + n) (max h ((b'.gridStart c).1 - 960)) (b'.gridStart c).2 := by
  have hp' : 0 < b'.cfg.sh4Period := by
    rw [← (arb_primed hb').cfg, hf.1.cfg, (arb_arrived hb n).cfg]
    exact hp
  have ha := ahead_gridStart hb' hw hr
  obtain ⟨k, hk, -⟩ := ha.agree
  have hlater := ha.later hp'
  have hag := hf.1.arrived hb hp hf.2 k
  have hpr : (b'.gridStart c).2.primed = (b'.gridStart c).2 :=
    primed_of_nonneg (le_trans (Nat.cast_nonneg _) hlater.le)
  have hle : (b'.gridStart c).1 + 64 ≤ ⌊(b.arrived (k + n)).sh4Next⌋₊ := by
    rw [← hag.sh4Next, ← hk.sh4Next]
    exact Nat.le_floor hlater.le
  refine ⟨k, ?_, ?_⟩
  · rw [hpr]
    exact (hag.mono (le_max_left _ _)).trans (hk.mono (by omega))
  · have hmono := Nat.floor_mono (arrived_sh4Next_le hb hp (Nat.le_add_left n k))
    have := hf.2
    omega

lemma agreeFrom_setGridWait (hb : b.SlotsOk) (w : Word) : AgreeFrom 0 b (b.setGridWait w) :=
  ⟨hb, hb, rfl, rfl, rfl, rfl, .refl _, fun _ _ => .rfl⟩

/-- A cycle that does not access the wave RAM is not arbitrated against the SH4. -/
lemma agreeFrom_arbitrated (hb : b.SlotsOk) {c : BusCycle} (hr : inRam c.addr = false) :
    AgreeFrom 0 b (b.arbitrated c) := by
  have hg : (b.gridStart c).2 = b := by
    unfold gridStart
    simp only [hr, Bool.false_and, Bool.false_eq_true, if_false]
  unfold arbitrated
  dsimp only
  rw [hg]
  split_ifs
  · exact .refl hb 0
  · exact agreeFrom_setGridWait hb _
  · exact agreeFrom_setGridWait hb _

lemma arbitrated_of_inRam (hw : b.cfg.waits = .dreamcast) {c : BusCycle}
    (hr : inRam c.addr = true) : ∃ w, b.arbitrated c = (b.gridStart c).2.setGridWait w := by
  have hg : b.cfg.waits.grid ≠ 0 := by rw [hw]; decide
  have hl : isLocal c.addr = false := by simp [isLocal, hr]
  unfold arbitrated
  rw [if_neg hg, hl, if_neg Bool.false_ne_true]
  exact ⟨_, rfl⟩

variable [AicaRegs ρ]

/-- The data transfer leaves the SH4's side alone, and the users of the slots if it leaves their
registers alone. -/
lemma agreeFrom_access (hb : b.SlotsOk) (c : BusCycle)
    (hr : ∀ r, slotReg r → (b.access c).2.block.store r = b.block.store r) :
    AgreeFrom 0 b (b.access c).2 := by
  have hc : (b.access c).2.cfg = b.cfg ∧ (b.access c).2.sh4Slots = b.sh4Slots ∧
      (b.access c).2.sh4Next = b.sh4Next ∧
      (b.access c).2.block.samplePhase = b.block.samplePhase := by
    unfold access
    split_ifs
    all_goals first
      | exact ⟨rfl, rfl, rfl, rfl⟩
      | exact ⟨rfl, rfl, rfl, RegBlock.call_samplePhase (.arm c)⟩
  obtain ⟨hcfg, hs, hn, hph⟩ := hc
  exact ⟨hb, hb.access c, hcfg, takenAt_congr hcfg hph hr, dspStep_congr hcfg hph, hn,
    hs ▸ .refl _, fun g _ => by rw [hs]⟩

lemma ramStart_le (hb : b.SlotsOk) (hw : b.cfg.waits = .dreamcast) {c : BusCycle}
    (hr : ramCycle c) : ramStart b c ≤ c.t + (b.cycle c).1.wait := by
  have hl : isLocal c.addr = false := by simp [isLocal, hr.2]
  have hlen : 1 ≤ slotLength c := by
    unfold slotLength
    split_ifs <;> decide
  have hup := Grid.le_up (d := 4) (by decide) c.t
  have hle := Grid.le_search (b.busyAt c.addr) 4 256 (Grid.up 4 c.t)
  rw [cycle_wait hb hw hr.1 hl, ramStart, gridStart_eq (hb.tick c.t) hw, busyAt_tick hb]
  omega

section Held

variable (hb : b.SlotsOk) {c : BusCycle}
  (held : ∀ r, slotReg r → (b.cycle c).2.block.store r = b.block.store r)

include hb held

/-- A memory cycle is its arbitration, as far as the slots are concerned. -/
lemma agreeFrom_cycle (hm : c.type.isMem = true) :
    AgreeFrom 0 ((b.tick c.t).arbitrated c) (b.cycle c).2 := by
  have hcyc : (b.cycle c).2 = (((b.tick c.t).arbitrated c).access c).2 := by
    rw [cycle, hm, if_neg (by decide)]
  have harb := arb_arbitrated (hb.tick c.t) c
  rw [hcyc] at held ⊢
  refine agreeFrom_access harb.ok c fun r hr => ?_
  rw [held r hr, harb.store]
  exact (RegBlock.sampleClock_store c.t (ne_of_slotReg hr).1 (ne_of_slotReg hr).2).symm

lemma agreeFrom_cycle_of_not_ramCycle (hr : ¬ramCycle c) : AgreeFrom 0 b (b.cycle c).2 := by
  have ht := agreeFrom_tick hb c.t
  by_cases hm : c.type.isMem = true
  · have hr' : inRam c.addr = false := Bool.eq_false_iff.mpr fun h => hr ⟨hm, h⟩
    exact (ht.trans (agreeFrom_arbitrated ht.ok' hr')).trans (agreeFrom_cycle hb held hm)
  · have hcyc : (b.cycle c).2 = b.tick c.t := by
      rw [cycle, Bool.eq_false_iff.mpr hm, if_pos (by decide)]
    exact hcyc ▸ ht

lemma agreeFrom_cycle_of_ramCycle (hw : b.cfg.waits = .dreamcast) (hr : ramCycle c) :
    AgreeFrom 0 ((b.tick c.t).gridStart c).2 (b.cycle c).2 := by
  have hc := agreeFrom_cycle hb held hr.1
  obtain ⟨w, he⟩ := arbitrated_of_inRam (b := b.tick c.t) hw hr.2
  rw [he] at hc
  exact (agreeFrom_setGridWait (arb_gridStart (hb.tick c.t) c).ok w).trans hc

end Held

/-- A cycle of the ARM, at or after the time from which the bus agrees with the generator. -/
lemma Follows.cycle (hb : b.SlotsOk) (hb' : b'.SlotsOk) (hp : 0 < b.cfg.sh4Period)
    (hw : b'.cfg.waits = .dreamcast) (hf : Follows b n h b') {c : BusCycle}
    (held : ∀ r, slotReg r → (b'.cycle c).2.block.store r = b'.block.store r) :
    ∃ k h', Follows b (k + n) h' (b'.cycle c).2 ∧ h' ≤ max h (c.t + (b'.cycle c).1.wait) := by
  by_cases hr : ramCycle c
  · have hft := hf.step (agreeFrom_tick hb' c.t)
    obtain ⟨k, hk⟩ := hft.gridStart hb (hb'.tick c.t) hp hw hr.2
    have hstart := ramStart_le hb' hw hr
    refine ⟨k, _, hk.step (agreeFrom_cycle_of_ramCycle hb' held hw hr), ?_⟩
    rw [ramStart] at hstart
    omega
  · refine ⟨0, h, ?_, le_max_left _ _⟩
    rw [Nat.zero_add]
    exact hf.step (agreeFrom_cycle_of_not_ramCycle hb' held hr)

omit [AicaRegs ρ] in
/-- An access of the ARM that finds a slot before its guard starts on a boundary that the SH4 is
never given. -/
lemma Follows.not_holds (hb : b.SlotsOk) (hb' : b'.SlotsOk) (hp : 0 < b.cfg.sh4Period)
    (hw : b'.cfg.waits = .dreamcast) (hf : Follows b n h b') {c : BusCycle} (hr : ramCycle c)
    (ht : h ≤ c.t) (hfound : ramStart b' c < Grid.up 4 c.t + 1024) :
    ¬b.Sh4Holds (ramStart b' c) := by
  have hup := Grid.le_up (d := 4) (by decide) c.t
  rw [ramStart, gridStart_eq (hb'.tick c.t) hw, busyAt_tick hb'] at hfound ⊢
  have hle := Grid.le_search (b'.busyAt c.addr) 4 256 (Grid.up 4 c.t)
  have hfree := Grid.search_free_of_lt hfound
  rw [busyAt_eq_false, Admissible, if_pos hr.2] at hfree
  exact fun hh => hfree.2 ((hf.1.holds_of_le hb hb' hp hf.2 (by omega)).mpr hh)

lemma store_cycle_of_ramCycle (hb : b.SlotsOk) {c : BusCycle} (hc : ramCycle c) {r : RegNo}
    (hr : slotReg r) : (b.cycle c).2.block.store r = b.block.store r := by
  have harb := (arb_arbitrated (hb.tick c.t) c).store
  have hacc : (((b.tick c.t).arbitrated c).access c).2.block.store =
      ((b.tick c.t).arbitrated c).block.store := by
    rw [access, if_pos hc.2]
    split_ifs <;> rfl
  rw [cycle, hc.1, if_neg (by decide)]
  refine (congrFun (hacc.trans harb) r).trans ?_
  exact RegBlock.sampleClock_store c.t (ne_of_slotReg hr).1 (ne_of_slotReg hr).2

/-! ### A run -/

/-- The bus as a machine, one cycle of the ARM per step. -/
def cycles : Machine (DcArmBus ρ) BusCycle BusResult where
  out b c := (b.cycle c).1
  next b c := (b.cycle c).2

/-- A run of `n` cycles, each after the end of its predecessor, with MPRO and the channel registers
held fixed, in which no search runs into its guard. -/
structure ArmRun (b : DcArmBus ρ) (c : ℕ → BusCycle) (n : ℕ) : Prop where
  order : ∀ i < n, (c i).t + (cycles.outs b c i).wait + 1 ≤ (c (i + 1)).t
  held : ∀ i ≤ n, ∀ r, slotReg r → (cycles.after b c i).block.store r = b.block.store r
  found : ∀ i < n, ramCycle (c i) →
    ramStart (cycles.after b c i) (c i) < Grid.up 4 (c i).t + 1024
  sh4Found : ∀ k, (cycles.after b c n).primed.sh4Next = (b.arrived k).sh4Next →
    ∀ p ∈ b.arrivedLog k, p.2 < p.1 + 1024

variable {c : ℕ → BusCycle}

lemma cycle_samplePhase (hb : b.SlotsOk) (c : BusCycle) :
    (b.cycle c).2.block.samplePhase = b.block.samplePhase :=
  block_cycle (P := fun u => u.samplePhase = b.block.samplePhase) hb (fun _ _ h => h)
    (fun u _ _ h => (RegBlock.call_samplePhase (s := u) (.arm c)).trans h)
    (RegBlock.sampleClock_samplePhase c.t)

/-- In every state of the run the bus agrees with the generator from the time of the next cycle on. -/
lemma ArmRun.follows (hb : b.SlotsOk) (hw : b.cfg.waits = .dreamcast) (hp : 0 < b.cfg.sh4Period)
    (hrun : ArmRun b c n) : ∀ i ≤ n, (cycles.after b c i).SlotsOk ∧
      (cycles.after b c i).cfg = b.cfg ∧
      ∃ k h, Follows b k h (cycles.after b c i) ∧ h ≤ (c i).t := by
  intro i
  induction i with
  | zero =>
    exact fun _ => ⟨hb, rfl, 0, 0, ⟨.refl (arb_primed hb).ok 0, Nat.zero_le _⟩, Nat.zero_le _⟩
  | succ i ih =>
    intro hi
    obtain ⟨hok, hcfg, k, h, hf, hh⟩ := ih (by omega)
    have held : ∀ r, slotReg r → ((cycles.after b c i).cycle (c i)).2.block.store r =
        (cycles.after b c i).block.store r := fun r hr =>
      (hrun.held (i + 1) hi r hr).trans (hrun.held i (by omega) r hr).symm
    obtain ⟨k', h', hf', hh'⟩ := hf.cycle hb hok hp (hcfg ▸ hw) held
    have hlt : (c i).t + ((cycles.after b c i).cycle (c i)).1.wait < (c (i + 1)).t :=
      hrun.order i hi
    exact ⟨hok.cycle (c i), (cycle_cfg hok (c i)).trans hcfg, _, h', hf', by omega⟩

/-- The periodic generator beside a run of the ARM. In every state of the run the queue is strictly
increasing, and is the generator's from the time of the next cycle on; every slot of the generator is
a multiple of 4, and the first one from its request on that is neither in use nor given to the SH4
before; and no wave RAM access of the ARM starts on a slot that the generator takes at any time. -/
theorem sh4_exclusive (hb : b.Reached) (hq : b.sh4Slots = []) (hn : b.sh4Next < 0)
    (hw : b.cfg.waits = .dreamcast) (hp : 0 < b.cfg.sh4Period) (hsp : 4 ∣ b.cfg.sh4Spacing)
    (he : b.cfg.sh4EvenOnly = false) (hrun : ArmRun b c n) :
    (cycles.after b c n).sh4Slots.Pairwise (· < ·) ∧
      (∃ k, AgreeFrom (c n).t (b.arrived k) (cycles.after b c n).primed ∧
        Grid.Granted 4 b.takenAt (b.arrivedLog k)) ∧
      ∀ i < n, ramCycle (c i) → ∀ k,
        ramStart (cycles.after b c i) (c i) ∉ (b.arrivedLog k).map Prod.snd := by
  have hidle : b.Idle := ⟨hb.slotsOk, hq, hn⟩
  obtain ⟨hok, -, k, h, hf, hh⟩ := hrun.follows hidle.ok hw hp n (Nat.le_refl n)
  have hrec := recorded_arrived hidle hsp he k
  have hgr := hrec.granted (hrun.sh4Found k hf.1.sh4Next)
  rw [(arb_arrived hidle.ok k).takenAt] at hgr
  refine ⟨?_, ⟨k, hf.1.mono hh, hgr⟩, fun i hi hr m hm => ?_⟩
  · have hnodup := (hrec.perm.nodup_iff.mpr hgr.nodup)
    have hlt := (hrec.ok.2.and hnodup).imp fun h => lt_of_le_of_ne h.1 h.2
    exact hlt.sublist (primed_sh4Slots (cycles.after b c n) ▸ hf.1.sublist)
  · obtain ⟨hoki, hcfg, k', h', hf', hh'⟩ := hrun.follows hidle.ok hw hp i hi.le
    exact hf'.not_holds hidle.ok hoki hp (hcfg ▸ hw) hr hh' (hrun.found i hi hr)
      (holds_of_mem_arrivedLog hidle hp hsp he hm)

/-- A read beside a generator with an access every 100 MCLK: the one that begins at 1 starts at 4, and
no access of the SH4 gets that boundary. -/
theorem sh4_exclusive_read :
    let b : DcArmBus Empty := new { waits := .dreamcast, sh4Period := 100 } 512 0 0
    ramStart b ⟨1, 0x100, 0, .N, {}⟩ = 4 ∧ ∀ k, 4 ∉ (b.arrivedLog k).map Prod.snd := by
  intro b
  let c : ℕ → BusCycle := fun i => ⟨1 + 100 * i, 0x100, 0, .N, {}⟩
  have hb : b.Reached := ⟨_, _, _, _, [], rfl⟩
  have hstart : ramStart b (c 0) = 4 := by decide +kernel
  have hrun : ArmRun b c 1 := by
    refine ⟨fun i hi => ?_, fun i hi r hr => ?_, fun i hi _ => ?_, fun k hk => ?_⟩
    · obtain rfl : i = 0 := by omega
      decide +kernel
    · obtain rfl | rfl : i = 0 ∨ i = 1 := by omega
      · rfl
      · exact store_cycle_of_ramCycle (c := c 0) hb.slotsOk ⟨rfl, by decide⟩ hr
    · obtain rfl : i = 0 := by omega
      decide +kernel
    · -- one arrival has been seen
      have hnext : (cycles.after b c 1).primed.sh4Next = 100 := by decide +kernel
      have hfirst : b.primed.sh4Next = 0 := by decide +kernel
      have hper : b.primed.cfg.sh4Period = 100 := by decide +kernel
      have hle := (iterate_sh4Next (arb_primed hb.slotsOk).ok k).2
      rw [← arrived, ← hk, hnext, hfirst, hper] at hle
      have hk1 : k ≤ 1 := by
        by_contra hgt
        have : (2 : ℚ) ≤ k := by exact_mod_cast (by omega : 2 ≤ k)
        linarith
      obtain rfl | rfl : k = 0 ∨ k = 1 := by omega
      · exact nofun
      · decide +kernel
  refine ⟨hstart, fun k => ?_⟩
  have hex : ramStart b (c 0) ∉ (b.arrivedLog k).map Prod.snd :=
    (sh4_exclusive hb rfl (by decide +kernel) rfl (by decide +kernel) (by decide) rfl hrun).2.2 0
      Nat.one_pos ⟨rfl, by decide⟩ k
  rw [hstart] at hex
  exact hex

end DcArmBus

end Wren7
