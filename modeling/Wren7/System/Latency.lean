import Wren7.Aica.SampleClock
import Wren7.System.Jobs

/-!
# From the sample edge to the FIQ entry

A job with the sample interval's request enabled. Between two boundaries the controller waits for the
next edge of the sample clock or holds the request already, whatever cycle or tick finds the edge.
-/

namespace Wren7

open Bits Reactive

/-- A move that leaves the interrupt registers alone, with no tick after `τ`. -/
def Move.quiet (m : Move) (τ : ℕ) : Prop :=
  ∀ c, m.call = some c → ¬c.access.interrupts ∧ ∀ t, c = .tick t → t ≤ τ

namespace Arm7DI

/-- The entry of a FIQ has begun. -/
def entersFiq (s : Arm7DI) : Prop := s.seq = .exc ∧ s.x.vector = 0x1C

end Arm7DI

/-! ### The sample clock of a job -/

namespace RegBlock

variable {ρ : Type*} {s : RegBlock ρ} {period phase τ : ℕ}

/-- The sample clock runs as the harness has set it up, with no extra latency; the calls so far were not
after `τ`. -/
structure Scheduled (s : RegBlock ρ) (period phase τ : ℕ) : Prop extends s.Settled where
  samplePeriod : s.samplePeriod = period
  samplePhase : s.samplePhase = phase
  edgeLatency : s.edgeLatency = 0
  clock : s.ClockOk τ

lemma scheduled_new (core : Option Bool) (τ : ℕ) :
    (new period phase 0 core : RegBlock ρ).Scheduled period phase τ :=
  ⟨settled_new period phase 0 core, rfl, rfl, rfl, clockOk_new period phase 0 core τ⟩

lemma Scheduled.mono (h : s.Scheduled period phase τ) {t : ℕ} (ht : τ ≤ t) :
    s.Scheduled period phase t := { h with clock := h.clock.mono ht }

lemma Scheduled.setDirty (h : s.Scheduled period phase τ) (d : Bool) :
    (s.setDirty d).Scheduled period phase τ := { h with }

lemma ClockOk.of_same {u : RegBlock ρ} (h : s.ClockOk τ)
    (hu : SameClock s u ∧ u.nextSample = s.nextSample) : u.ClockOk τ := by
  obtain ⟨k, hk, hj⟩ := h
  have hn : u.nextEdge = s.nextEdge := by
    unfold nextEdge
    rw [hu.1.init, hu.1.phase, hu.1.period, hu.2]
  have he : u.edgeTime = s.edgeTime := by
    funext j
    rw [edgeTime, edgeTime, hu.1.phase, hu.1.period]
  exact ⟨k, by rw [hn, he, hk], he ▸ hj⟩

variable [AicaRegs ρ]

lemma Scheduled.call (h : s.Scheduled period phase τ) (c : Call) (hc : ∀ t, c = .tick t → t ≤ τ) :
    (s.call c).2.Scheduled period phase τ := by
  have hs := h.toSettled.call c
  by_cases ht : ∃ t, c = .tick t
  · obtain ⟨t, rfl⟩ := ht
    obtain ⟨hk, hper, hph, hl, -⟩ := sampleClock_clock h.clock (hc t rfl)
    exact ⟨hs, hper.trans h.samplePeriod, hph.trans h.samplePhase, hl.trans h.edgeLatency, hk⟩
  · have hu := call_clock (s := s) fun t he => ht ⟨t, he⟩
    exact ⟨hs, hu.1.period.trans h.samplePeriod, hu.1.phase.trans h.samplePhase,
      hu.1.latency.trans h.edgeLatency, h.clock.of_same hu⟩

end RegBlock

/-- The bus cycle accesses a register of the interrupt controller. -/
def DcArmBus.interrupts (c : BusCycle) : Prop :=
  c.type.isMem = true ∧ inRam c.addr = false ∧ (Call.arm c).access.interrupts

namespace System

variable {ρ : Type*} {s : System ρ} {cfg : DcConfig} {stages period phase τ : ℕ}

lemma scheduled_boundary (h : s.bus.block.Scheduled period phase τ) [AicaRegs ρ]
    (ht : s.core.cycles ≤ τ) : s.boundary.bus.block.Scheduled period phase τ := by
  unfold System.boundary
  split_ifs
  · refine h.call (.tick s.core.cycles) fun _ he => ?_
    cases he
    exact ht
  · exact h

variable [AicaRegs ρ]

lemma scheduled_busCycle (hs : s.Sound cfg stages) (h : s.bus.block.Scheduled period phase τ)
    (ht : s.core.cycles ≤ τ) : s.busCycle.bus.block.Scheduled period phase τ := by
  refine DcArmBus.block_cycle (P := (·.Scheduled period phase τ)) hs.boundary.slots
    (fun _ d h => h.setDirty d) (fun _ _ _ h => h.call (.arm s.drive) nofun)
    ((scheduled_boundary h ht).call (.tick s.drive.t) fun _ he => ?_)
  cases he
  rw [drive_t]
  exact ht

lemma scheduled_move (hs : s.Sound cfg stages) (h : s.bus.block.Scheduled period phase τ) {m : Move}
    (hm : ∀ t, m = .tick t → t ≤ τ) : (s.move m).bus.block.Scheduled period phase τ := by
  refine block_move (P := (·.Scheduled period phase τ)) hs.slots (fun _ d h => h.setDirty d)
    (fun c hc => h.call c fun t he => hm t ?_) h
  subst he
  cases m with
  | setup x => cases x <;> cases hc
  | tick t => cases hc; rfl
  | regRead off => cases hc
  | _ => cases hc

lemma scheduled_moves (hs : s.Sound cfg stages) (h : s.bus.block.Scheduled period phase τ)
    {ms : List Move} (hm : ∀ t, .tick t ∈ ms → t ≤ τ) :
    (ms.foldl System.move s).bus.block.Scheduled period phase τ := by
  induction ms generalizing s with
  | nil => exact h
  | cons m ms ih =>
    refine ih (hs.move m) (scheduled_move hs h fun t he => hm t (he ▸ List.mem_cons_self))
      fun t ht => ?_
    exact hm t (List.mem_cons_of_mem _ ht)

/-! ### The run up to a boundary -/

lemma scheduled_untilBoundary (hs : s.Sound cfg stages)
    (h : s.bus.block.Scheduled period phase s.core.cycles) (fuel : ℕ) :
    (untilBoundary fuel s).bus.block.Scheduled period phase
      (untilBoundary fuel s).core.cycles := by
  induction fuel generalizing s with
  | zero => exact h
  | succ fuel ih =>
    have hb := (scheduled_busCycle hs h (Nat.le_refl _)).mono
      (t := s.busCycle.core.cycles) (by rw [busCycle_cycles]; omega)
    rw [System.untilBoundary]
    split_ifs
    · exact hb
    · exact ih hs.busCycle hb

lemma scheduled_setUp {b : DcArmBus ρ} (hb : b.SlotsOk) (h : b.block.Scheduled period phase τ)
    (setup : List Setup) : (setup.foldl setUp b).block.Scheduled period phase τ := by
  induction setup generalizing b with
  | nil => exact h
  | cons x xs ih =>
    have hs := @sound_powerOn _ 0 .shifterLast _ hb
    exact ih (hs.move (.setup x)).slots (scheduled_move (m := .setup x) hs h nofun)

/-- A job starts with its sample clock on schedule. -/
lemma scheduled_job (cfg : DcConfig) (stages : ℕ) (carry : MulCarry) (setup : List Setup) :
    (job cfg period phase 0 stages carry setup : System ρ).bus.block.Scheduled period phase
      (job cfg period phase 0 stages carry setup : System ρ).core.cycles := by
  have hb := DcArmBus.slotsOk_new (ρ := ρ) cfg period phase 0
  have hr := scheduled_untilBoundary (@setUp_sound _ _ stages carry _ hb setup)
    (scheduled_setUp hb (RegBlock.scheduled_new none 0) setup) 3
  unfold job
  rw [← construct] at hr
  generalize construct stages carry (setup.foldl setUp
    (DcArmBus.new cfg period phase 0 : DcArmBus ρ)) = c at hr ⊢
  exact { hr with }

variable {ops : ℕ → List Move}

/-- Up to a boundary, with no tick after it. -/
lemma scheduled_upto (hs : s.Sound cfg stages)
    (h : s.bus.block.Scheduled period phase s.core.cycles) {m : ℕ}
    (ht : ∀ k < m, ∀ t, .tick t ∈ ops k → t ≤ (jobs.after s ops m).core.cycles) :
    (jobs.after s ops m).bus.block.Scheduled period phase (jobs.after s ops m).core.cycles := by
  have h0 := h.mono (cycles_after_le s ops (Nat.zero_le m))
  generalize hτ : (jobs.after s ops m).core.cycles = τ at ht h0 ⊢
  refine (Machine.invariant_upto (I := fun u : System ρ => u.Sound cfg stages ∧
    u.bus.block.Scheduled period phase τ) ⟨hs, h0⟩ (fun k hk hr => ⟨hr.1.next (ops k),
      scheduled_moves hr.1.busCycle (scheduled_busCycle hr.1 hr.2 ?_) (ht k hk)⟩) m le_rfl).2
  exact hτ ▸ cycles_after_le s ops hk.le

/-! ### Between two boundaries -/

/-- The controller waits for the edge at `e`, or has found it, not after `τ`. -/
def Watched (p e τ : ℕ) (u : RegBlock ρ) : Prop := u.Waits p e ∨ u.Holds p ∧ p ≠ 0 ∧ e ≤ τ

variable {p e : ℕ}

omit [AicaRegs ρ] in
lemma stable_watched : RegBlock.Stable (Watched (ρ := ρ) p e τ) where
  regs u h := h.elim ((RegBlock.stable_waits p e).regs u) fun h => (RegBlock.stable_holds p).regs u h.1
  raise u t h := h.imp ((RegBlock.stable_waits p e).raise u t)
    (And.imp_left ((RegBlock.stable_holds p).raise u t))
  dirty u d h := h.imp ((RegBlock.stable_waits p e).dirty u d)
    (And.imp_left ((RegBlock.stable_holds p).dirty u d))
  reg u r v hr h := h.imp ((RegBlock.stable_waits p e).reg u r v hr)
    (And.imp_left ((RegBlock.stable_holds p).reg u r v hr))
  update u h := h.imp ((RegBlock.stable_waits p e).update u)
    (And.imp_left ((RegBlock.stable_holds p).update u))

omit [AicaRegs ρ] in
lemma Watched.sampleClock {u : RegBlock ρ} (h : Watched p e τ u) {t : ℕ} (ht : t ≤ τ) :
    Watched p e τ (u.sampleClock t) := by
  rcases h with h | ⟨h, hp, he⟩
  · have hs := h.sampleClock t
    split_ifs at hs with hd
    · exact .inr ⟨hs, hd.1, hd.2.trans ht⟩
    · exact .inl hs
  · exact .inr ⟨h.sampleClock t, hp, he⟩

omit [AicaRegs ρ] in
/-- The tick of the second boundary decides. -/
lemma Watched.fiq {u : RegBlock ρ} (h : Watched p e τ u) :
    (u.sampleClock τ).fiq = true ↔ p ≠ 0 ∧ e ≤ τ := by
  rcases h with h | ⟨h, hpe⟩
  · have hs := h.sampleClock τ
    split_ifs at hs with hd
    · exact iff_of_true hs.fiq hd
    · exact iff_of_false (by rw [hs.fiq]; decide) hd
  · exact iff_of_true (h.sampleClock τ).fiq hpe

omit [AicaRegs ρ] in
lemma watched_boundary (h : Watched p e τ s.bus.block) (ht : s.core.cycles ≤ τ) :
    Watched p e τ s.boundary.bus.block := by
  unfold System.boundary
  split_ifs
  · exact h.sampleClock ht
  · exact h

lemma watched_moves (ha : s.Attached) (h : Watched p e τ s.bus.block) {ms : List Move}
    (hm : ∀ m ∈ ms, m.quiet τ) : Watched p e τ (ms.foldl System.move s).bus.block := by
  induction ms generalizing s with
  | nil => exact h
  | cons m ms ih =>
    refine ih (ha.move m).1 (block_move ha.1 stable_watched.dirty (fun c hc => ?_) h)
      fun m' hm' => hm m' (List.mem_cons_of_mem _ hm')
    obtain ⟨hc', ht⟩ := hm m List.mem_cons_self c hc
    exact stable_watched.call h hc' fun t he => h.sampleClock (ht t he)

/-- A bus cycle and moves that leave the interrupt registers alone. -/
lemma watched_next (ha : s.Attached) (h : Watched p e τ s.boundary.bus.block) {ms : List Move}
    (ht : s.core.cycles ≤ τ) (hc : ¬DcArmBus.interrupts s.drive) (hm : ∀ m ∈ ms, m.quiet τ) :
    Watched p e τ (jobs.next s ms).bus.block := by
  refine watched_moves ha.busCycle.1 ?_ hm
  refine DcArmBus.block_cycle ha.boundary.1 stable_watched.dirty (fun u hm hi hu => ?_)
    (h.sampleClock (drive_t s ▸ ht))
  exact stable_watched.call (c := .arm s.drive) hu (fun hx => hc ⟨hm, hi, hx⟩) nofun

end System

namespace Arm7DI

variable {s : Arm7DI}

lemma not_entersFiq_decode (op : Word) : ¬(s.decode op).entersFiq := by
  rw [decode_eq]
  dsimp only
  rintro ⟨hseq, hv⟩
  split_ifs at hseq hv with h1 h2
  · exact absurd (show (8 : Word) = 0x1C from hv) (by decide)
  · exact h2 hseq
  · exact Seq.noConfusion hseq

/-- Without a reset or a data abort, the FIQ decides. -/
lemma entersFiq_iff (hq : s.seq = .idle) (hr : s.inReset = false) (he : s.resetExit = false)
    (hd : s.dabortPending = false) : s.start.entersFiq ↔ s.takesFiq = true := by
  cases hf : s.takesFiq with
  | true =>
    rw [start_fiq hq hr he hd hf]
    exact iff_of_true ⟨rfl, rfl⟩ rfl
  | false =>
    refine iff_of_false ?_ (by decide)
    have hexc : ∀ v m, v ≠ 0x1C → ¬((s.setK 0).startExc v m false).entersFiq :=
      fun v m hv h => hv h.2
    cases hi : s.takesIrq with
    | true =>
      rw [start_irq hq hr he hd hf hi]
      exact hexc _ _ (by decide)
    | false =>
      rw [start_slot hq hr he hd hf hi]
      split_ifs
      · exact hexc _ _ (by decide)
      · exact not_entersFiq_decode _

end Arm7DI

namespace System

variable {ρ : Type*}

/-- The sample interval's request alone is enabled, and has a level; the controller is idle, nFIQ is
released, and the core's line shows it. -/
structure Armed (s : System ρ) : Prop where
  scieb : s.bus.block.store scieb = 0x400
  level : bit (s.bus.block.store scilv0) 7 = true ∨ bit (s.bus.block.store (scilv0 + 1)) 7 = true ∨
    bit (s.bus.block.store (scilv0 + 2)) 7 = true
  e68kOut : s.bus.block.e68kOut = false
  fiq : s.bus.block.fiq = false
  inStep : s.InStep

variable {s : System ρ} {period phase τ : ℕ}

/-- An armed controller waits for the next edge. -/
lemma Armed.waits (h : s.Armed) (hs : s.bus.block.Scheduled period phase τ) :
    s.bus.block.Waits period s.bus.block.nextEdge := by
  have he : s.bus.block.Enabled period :=
    ⟨hs.regs, hs.samplePeriod, hs.edgeLatency, h.scieb, h.level⟩
  refine ⟨he, h.e68kOut, h.fiq, Bool.eq_false_iff.mpr fun hp => hs.quiet ?_, rfl⟩
  have hpend : s.bus.block.pend = 0x400 := by rw [he.pend, if_pos hp]
  exact ⟨by rw [hpend]; decide, h.e68kOut, he.level_ne hpend⟩

variable [AicaRegs ρ] {ops : ℕ → List Move} {m n e : ℕ}

/-- From one boundary up to the tick of a later one. -/
lemma watched_upto {s : ℕ → System ρ} (hnext : ∀ k, s (k + 1) = jobs.next (s k) (ops k))
    (ha : ∀ k, (s k).Attached) (hle : ∀ k ≤ n, (s k).core.cycles ≤ τ) (hmn : m < n)
    (hw : Watched period e τ (s m).boundary.bus.block) (hi : (s m).boundary.InStep)
    (hq : ∀ k, m ≤ k → k < n → ¬DcArmBus.interrupts (s k).drive ∧ ∀ mv ∈ ops k, mv.quiet τ) :
    Watched period e τ (s n).bus.block ∧ (s n).InStep := by
  have hstep {k : ℕ} (hmk : m ≤ k) (hkn : k < n)
      (h : Watched period e τ (s k).boundary.bus.block ∧ (s k).boundary.InStep) :
      Watched period e τ (s (k + 1)).bus.block ∧ (s (k + 1)).InStep := by
    rw [hnext]
    exact ⟨watched_next (ha k) h.1 (hle k hkn.le) (hq k hmk hkn).1 (hq k hmk hkn).2,
      (attached_next (ha k) (ops k)).2 h.2⟩
  have hat : ∀ k, m ≤ k → k < n →
      Watched period e τ (s k).boundary.bus.block ∧ (s k).boundary.InStep := by
    intro k hmk
    induction k, hmk using Nat.le_induction with
    | base => exact fun _ => ⟨hw, hi⟩
    | succ k hmk ih =>
      intro hkn
      obtain ⟨hw', hi'⟩ := hstep hmk (by omega) (ih (by omega))
      exact ⟨watched_boundary hw' (hle _ hkn.le), hi'.boundary (ha _)⟩
  obtain ⟨k, rfl⟩ : ∃ k, n = k + 1 := ⟨n - 1, by omega⟩
  exact hstep (by omega) (by omega) (hat k (by omega) (by omega))

/-- With the controller armed at a boundary: at a later one, with FIQs not masked, the FIQ entry begins
if and only if an edge of the sample clock lies after the first and not after the second. -/
theorem fiq_latency (cfg : DcConfig) (period phase : ℕ) (carry : MulCarry) (setup : List Setup)
    (ops : ℕ → List Move) (hmn : m < n) :
    let s : ℕ → System ρ := jobs.after (job cfg period phase 0 0 carry setup) ops
    (s m).core.atBoundary → (s m).boundary.Armed →
    (∀ k < m, ∀ t, .tick t ∈ ops k → t ≤ (s m).core.cycles) →
    (∀ k, m ≤ k → k < n → ¬DcArmBus.interrupts (s k).drive ∧
      ∀ mv ∈ ops k, mv.quiet (s n).core.cycles) →
    (s n).core.atBoundary → (s n).core.inReset = false → (s n).core.resetExit = false →
    bit (s n).core.cpsr 6 = false →
    ((s n).boundary.core.start.entersFiq ↔ period ≠ 0 ∧ ∃ i, (s m).core.cycles <
      phase % period + i * period ∧ phase % period + i * period ≤ (s n).core.cycles) := by
  have hjs := sound_job (ρ := ρ) cfg period phase 0 0 carry setup
  have hja := attached_job (ρ := ρ) cfg period phase 0 0 carry setup
  have hjr := @scheduled_job ρ period phase _ cfg 0 carry setup
  generalize (job cfg period phase 0 0 carry setup : System ρ) = s₀ at hjs hja hjr
  intro s hm harm hticks hq hn hr he hF
  have ha : ∀ k, (s k).Attached :=
    Machine.invariant (I := System.Attached) hja fun k h => (attached_next h (ops k)).1
  have hsound : ∀ k, (s k).Sound cfg 0 :=
    Machine.invariant (I := System.Sound cfg 0) hjs fun k h => h.next (ops k)
  have hrun := scheduled_upto hjs hjr hticks
  -- after the tick of the first boundary the next edge is the first one after it
  have hbm : (s m).boundary.bus.block = (s m).bus.block.sampleClock (s m).core.cycles :=
    congrArg (fun u : System ρ => u.bus.block) (if_pos hm)
  have hb := scheduled_boundary hrun le_rfl
  have hlt := (RegBlock.sampleClock_clock hrun.clock le_rfl).2.2.2.2
  rw [← hbm, hrun.edgeLatency, hrun.samplePeriod] at hlt
  have hedge := @RegBlock.exists_edge_iff _ _ _ (s n).core.cycles hb.clock hb.edgeLatency
    (by rw [hb.samplePeriod, hb.edgeLatency]; exact hlt)
  -- up to the tick of the second one
  obtain ⟨hwn, hin⟩ := watched_upto (fun k => rfl) ha (fun k hk => cycles_after_le s₀ ops hk) hmn
    (.inl (harm.waits hb)) harm.inStep hq
  have hbn : (s n).boundary = (s n).tick (s n).core.cycles := if_pos hn
  have hfiq : (s n).boundary.core.fiqIn = true ↔
      period ≠ 0 ∧ (s m).boundary.bus.block.nextEdge ≤ (s n).core.cycles := by
    rw [hbn, (hin.tick (ha n) _ : _ = _)]
    exact hwn.fiq
  have htakes : (s n).boundary.core.takesFiq = (s n).boundary.core.fiqIn := by
    have hst : (s n).boundary.core.irqSyncStages = 0 := hbn ▸ (hsound n).steady.2.2
    have hF' : bit (s n).boundary.core.cpsr 6 = false := hbn ▸ hF
    rw [Arm7DI.takesFiq, Arm7DI.fiqSeen, if_pos hst, hF']
    exact Bool.and_true _
  rw [Arm7DI.entersFiq_iff (hbn ▸ hn) (hbn ▸ hr) (hbn ▸ he) (hbn ▸ (hsound n).steady.1), htakes, hfiq,
    ← hb.samplePeriod, ← hedge, hb.samplePeriod]
  constructor
  · rintro ⟨g, hg, hg', hp, i, rfl⟩
    rw [RegBlock.edgeTime, hb.samplePeriod, hb.samplePhase] at hg hg'
    exact ⟨hb.samplePeriod ▸ hp, i, hg, hg'⟩
  · rintro ⟨hp, i, hg, hg'⟩
    refine ⟨_, hg, hg', by rwa [hb.samplePeriod], i, ?_⟩
    rw [RegBlock.edgeTime, hb.samplePeriod, hb.samplePhase]

/-- A job that unmasks FIQs with its first instruction, with an edge two cycles later. -/
def unmask : System Empty :=
  job {} 512 5 0 0 .shifterLast [.word 0 0xE321F013, .areg 0x289C 0x400, .areg 0x28A8 0x80]

theorem fiq_latency_unmask :
    (jobs.after unmask (fun _ => []) 2).boundary.core.start.entersFiq := by
  refine (fiq_latency (m := 1) {} 512 5 .shifterLast _ (fun _ => []) (by decide)
    (by decide +kernel) ⟨by decide +kernel, .inl (by decide +kernel), by decide +kernel,
      by decide +kernel, by decide +kernel⟩ nofun (fun k hk hk' => ⟨fun hx => ?_, nofun⟩)
    (by decide +kernel) (by decide +kernel) (by decide +kernel) (by decide +kernel)).mpr
    ⟨by decide, 0, by decide +kernel, by decide +kernel⟩
  obtain rfl : k = 1 := by omega
  exact absurd hx.2.1 (by decide +kernel)

end System

end Wren7
