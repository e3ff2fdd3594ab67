import Wren7.Aica.SampleClock
import Wren7.Equiv.CoreTb
import Wren7.Model.Architecture
import Wren7.System.Jobs

/-!
# The test bench finds nothing

No run of the bench reports a mismatch, in chaos mode or not, unless an instruction's first fetch
reads L: the bench takes the RTL's levels after the inner bus has served that fetch, the model decides
before.
-/

namespace Wren7

open Bits Rtl Reactive Checked

/-! ### The sample clock and the first fetch -/

namespace RegBlock

variable {ρ : Type*} {s : RegBlock ρ}

/-- A call of the clock leaves no edge behind that is due. -/
lemma not_due_sampleClock (t : ℕ) : ¬(s.sampleClock t).edgeDue t := by
  by_cases hp : s.samplePeriod = 0
  · rw [sampleClock, if_pos hp]
    exact fun h => h.1 hp
  rintro ⟨-, hle⟩
  have hclock : ∀ u : RegBlock ρ, u.sampleInit = true → u.samplePeriod ≠ 0 →
      t < (edges t (t + 1) u).nextEdge + (edges t (t + 1) u).edgeLatency := by
    intro u hi hper
    obtain ⟨hc, m, -, hnext, -, hend⟩ := edges_clock (t := t) (t + 1) u
    rw [nextEdge, if_pos (hc.init.trans hi), hc.latency]
    rcases hend with rfl | hlt
    · have : t + 1 ≤ (t + 1) * u.samplePeriod := Nat.le_mul_of_pos_right _ (Nat.pos_of_ne_zero hper)
      omega
    · exact hlt
  rw [sampleClock, if_neg hp] at hle
  dsimp only at hle
  split_ifs at hle with hi
  · exact absurd hle (Nat.not_le.mpr (hclock s hi hp))
  · exact absurd hle (Nat.not_le.mpr (hclock _ rfl hp))

variable [AicaRegs ρ]

lemma rreg_core {r : RegNo} (hr : r ≠ regL) : (s.rreg r).2.core = s.core := by
  unfold rreg
  rw [if_neg hr]
  split_ifs
  · rfl
  · rfl
  · split <;> rfl

end RegBlock

namespace DcArmBus

variable {ρ : Type*} [AicaRegs ρ] {b : DcArmBus ρ} {c : BusCycle}

/-- A read of anything but L leaves the core's line alone, if no sample edge is due. -/
lemma cycle_core (hb : b.SlotsOk) (hd : ¬b.block.edgeDue c.t) (hw : c.flags.write = false)
    (hL : inRam c.addr = false → regNo c.addr ≠ regL) :
    (b.cycle c).2.block.core = b.block.core := by
  have ht : (b.tick c.t).block.core = b.block.core := (RegBlock.sampleClock_of_not_due hd).1
  have harb : ((b.tick c.t).arbitrated c).block.core = b.block.core :=
    (congrArg RegBlock.core (arb_arbitrated (hb.tick c.t) c).block : _).trans ht
  cases hm : c.type.isMem with
  | false => rwa [cycle_internal hm]
  | true =>
    rw [cycle_mem hm, access_block]
    split_ifs with hr
    · exact harb
    · rw [RegBlock.regCycle, if_neg (by rw [hw]; decide)]
      exact (RegBlock.rreg_core (hL (by simpa using hr))).trans harb

lemma wait_internal (hm : c.type.isMem = false) : (b.cycle c).1.wait =
    if b.cfg.waits.grid ≠ 0 then 0 else b.cfg.waits.internal.toNat := by
  unfold cycle
  dsimp only
  rw [if_pos (by rw [hm]; rfl)]
  rfl

end DcArmBus

/-- A bus cycle from a boundary fetches. -/
lemma Arm7DI.boundary_bus {u : Arm7DI} (hb : u.atBoundary) :
    u.busCycle.bus.addr = u.pc ∧ u.busCycle.bus.flags.write = false := by
  let inp : ℕ → Input := fun _ => ⟨[], ⟨⟨0, 0, false⟩, false, false⟩⟩
  have h := @performs_outcome u inp hb
  obtain ⟨row, hrow, -⟩ := outcome_row u.start (answersOf inp)
  change Performs u inp (u.start.outcome (answersOf inp)).1 _ at h
  rw [hrow] at h
  have h0 : u.busCycle.bus.signals = u.start.fetchCycle := h.signals 0 (Nat.succ_pos _)
  refine ⟨?_, ?_⟩
  · rw [show u.busCycle.bus.addr = _ from congrArg Signals.addr h0]
    exact u.start_pc
  · exact congrArg (fun s : Signals => s.flags.write) h0

namespace Lock

variable {ρ : Type*} {L : Lock ρ} {s : Arm7DI} {l : Levels} {c : BusCycle} {r : BusResult}

/-! ### The clocks of a bus cycle -/

/-- The RTL is in the bus cycle `c` that the model drives from `s` on, with the levels `l`. -/
structure InCycle (L : Lock ρ) (s : Arm7DI) (l : Levels) (c : BusCycle) : Prop where
  related : Related L.T s l
  rst : L.pins.rst = false
  ce : L.pins.ce = true
  levels : s.atBoundary → L.pins.levels = l
  bus : (s.poke (if s.atBoundary then l.lines else [])).busCycle.bus = c

/-- What the clocks of the RTL leave alone. -/
def outer (L : Lock ρ) : System ρ × Bool × Bool × Bool × Bool :=
  (L.sys, L.bound, L.cpu, L.fullCheck, L.holdLvl)

lemma step_frame (mem last : Bool) (r : BusResult) : (L.step mem last r).outer = L.outer ∧
    (L.step mem last r).now = L.now + 1 ∧ (L.step mem last r).pins.rst = L.pins.rst ∧
      (L.step mem last r).pins.ce = L.pins.ce := by
  unfold Lock.step answerPins
  split_ifs <;> exact ⟨rfl, rfl, rfl, rfl⟩

lemma present_frame (fiq irq : Bool) :
    (L.present fiq irq).outer = L.outer ∧ (L.present fiq irq).now = L.now := by
  unfold Lock.present
  split_ifs <;> exact ⟨rfl, rfl⟩

namespace InCycle

variable (h : InCycle L s l c)

include h

lemma agree : Agree L.T s c := by
  have ha := h.related.agree ⟨⟨0, 0, false⟩, false, false⟩
  rwa [show lined.out s (l, _) = c from h.bus] at ha

lemma requests : L.Requests c :=
  ⟨h.agree.type, h.agree.req, h.agree.addr, h.agree.flags, h.agree.wdata⟩

lemma atBoundary (hb : L.T.dbgBoundary = true) : s.atBoundary := h.agree.boundary.mp hb

/-- A clock that does not complete the cycle. -/
lemma stall {p : Pins} (hrst : p.rst = false) (hl : p.levels = L.pins.levels)
    (hd : L.T.cdone p = false) : Related (L.T.clock p) s l :=
  h.related.stall hrst hd fun hb _ _ => hl.trans (h.levels (h.atBoundary hb))

lemma stray : InCycle L.stray s l c ∧ L.stray.outer = L.outer ∧ L.stray.now = L.now := by
  unfold Lock.stray
  split_ifs
  · exact ⟨⟨h.stall h.rst rfl rfl, h.rst, rfl, h.levels, h.bus⟩, rfl, rfl⟩
  · exact ⟨⟨h.related, h.rst, h.ce, h.levels, h.bus⟩, rfl, rfl⟩
  · exact ⟨h, rfl, rfl⟩

lemma pause : InCycle L.pause s l c ∧ L.pause.outer = L.outer ∧ L.pause.now = L.now := by
  unfold Lock.pause
  split_ifs
  · exact ⟨⟨h.stall h.rst rfl rfl, h.rst, rfl, h.levels, h.bus⟩, rfl, rfl⟩
  · exact ⟨⟨h.related, h.rst, h.ce, h.levels, h.bus⟩, rfl, rfl⟩
  · exact ⟨h, rfl, rfl⟩

/-- A wait. -/
lemma wait (hm : c.type.isMem = true) : InCycle (L.step true false r) s l c := by
  have hreq : busReq L.T.regs = true := h.agree.req.trans hm
  refine ⟨h.stall h.rst rfl ?_, h.rst, h.ce, h.levels, h.bus⟩
  rw [Core.cdone, hreq]
  exact Bool.and_false _

/-- The last clock. -/
lemma last {a : Answer} (hr : a.toBusResult = r) (l' : Levels) :
    Related (L.step c.type.isMem true r).T (lined.next s (l, a)) l' := by
  have hreq : busReq L.T.regs = c.type.isMem := h.agree.req
  subst hr
  cases hm : c.type.isMem with
  | true =>
    refine h.related.complete (a := a) (i := { L.pins with
        busAck := true, busRdata := a.rdata, busAbort := a.abort }) h.rst ?_ (fun hb _ => h.levels (h.atBoundary hb)) (fun _ => ⟨rfl, rfl⟩) l'
    rw [Core.cdone, hreq, hm]
    exact Bool.and_eq_true_iff.mpr ⟨h.ce, rfl⟩
  | false =>
    rw [hm] at hreq
    refine h.related.complete (a := a) (i := { L.pins with
        busAck := bit (L.rng 0) 0, busRdata := (L.rng 1).setWidth 32, busAbort := bit (L.rng 2) 0 })
      h.rst ?_ (fun hb _ => h.levels (h.atBoundary hb)) (fun hq =>
        Bool.noConfusion (hreq.symm.trans hq)) l'
    rw [Core.cdone, hreq]
    exact Bool.and_eq_true_iff.mpr ⟨h.ce, rfl⟩

end InCycle

/-- The clocks of a cycle in which the waits are a memory cycle's. -/
lemma clocks_yields {a : Answer} (hr : a.toBusResult = r) (n : ℕ) (hn : n = 0 ∨ c.type.isMem = true)
    (h : InCycle L s l c) : Yields (clocks c r n L) fun L' =>
      (∀ l', Related L'.T (lined.next s (l, a)) l') ∧ L'.outer = L.outer ∧ L'.now = L.now + 1 + n ∧
        L'.pins.rst = false ∧ L'.pins.ce = true := by
  induction n generalizing L with
  | zero =>
    obtain ⟨ho, hnow, hrst, hce⟩ := step_frame (L := L) c.type.isMem true r
    exact .ok ⟨h.last hr, ho, hnow, hrst.trans h.rst, hce.trans h.ce⟩
  | succ n ih =>
    have hm : c.type.isMem = true := hn.resolve_left (Nat.succ_ne_zero n)
    obtain ⟨ho, hnow, -, -⟩ := step_frame (L := L) true false r
    have hw := h.wait (r := r) hm
    obtain ⟨hp, hpo, hpnow⟩ := hw.pause
    rw [clocks, hm]
    refine Yields.check_bind ⟨hw.agree.addr, hw.agree.req.trans hm⟩ ?_
    refine (ih (Or.inr hm) hp).mono fun L' ⟨hrel, ho', hnow', hpins⟩ =>
      ⟨hrel, ho'.trans (hpo.trans ho), ?_, hpins⟩
    rw [hnow', hpnow, hnow]
    omega

/-! ### The comparison of the states -/

lemma psr11_psr32 (p : Psr) : psr11 (psr32 p) = packed p := by
  obtain ⟨n, z, c, v, i, f, m⟩ := p
  revert m
  cases n <;> cases z <;> cases c <;> cases v <;> cases i <;> cases f <;> decide +kernel

lemma slot_regOf : ∀ i ∈ List.range 30,
    slot (Wren7.phys (regOf i).1 (regOf i).2) = BitVec.ofNat 5 i := by decide

/-- Where the states agree, `check_state` finds nothing. -/
lemma checkState_yields {u : Arm7DI} (h : AgreeState L.T s) (hpc : u.pc = s.pc)
    (hcpsr : u.cpsr = s.cpsr) (hex : u.ex = s.ex) (hgpr : u.gpr = s.gpr) (hspsr : u.spsr = s.spsr) (p : Place) (full : Bool) :
    Yields (L.checkState u p full) fun _ => True := by
  have hpc' : L.T.regs.pc = u.pc := h.pc.trans hpc.symm
  have hcpsr' : cpsr32 L.T.regs = u.cpsr := h.cpsr.trans hcpsr.symm
  have hex' : L.T.regs.exW = u.ex.word :=
    (congrArg Slot.word h.ex).trans (congrArg Slot.word hex).symm
  unfold checkState
  split_ifs
  · exact .ok True.intro
  · exact .check_bind hpc' (.check_bind hcpsr' (.check_bind hex' (.ok True.intro)))
  · refine .check_bind hpc' (.check_bind hcpsr' (.check_bind hex' (.check_bind (fun i hi => ?_)
      ((Yields.check fun b hb => ?_).mono fun _ _ => True.intro))))
    · rw [← slot_regOf i hi, h.memA, hgpr]
    · rw [hspsr, ← h.spsr b (by rintro rfl; simp at hb), psr11_psr32]

/-- The RTL asks for the bus cycle that the model drives, and the states agree at a boundary. -/
lemma InCycle.compare {u : Arm7DI} (h : InCycle L s l c) (hbound : L.bound = true ↔ s.atBoundary)
    (hu : ∀ {β : Type} (f : Arm7DI → β), (∀ s l, f (s.setLine l) = f s) → f u = f s) :
    Yields (L.compare c u.start) fun _ => True := by
  unfold Lock.compare
  refine .check_bind h.requests (.check_bind ?_ ?_)
  · rw [Bool.eq_iff_iff]
    exact h.agree.boundary.trans hbound.symm
  split_ifs with hb
  · refine checkState_yields (h.agree.state (hbound.mp hb)) ?_ ?_ ?_ ?_ ?_ _ _
    · exact u.start_pc.trans (hu Arm7DI.pc fun _ l => by cases l <;> rfl)
    · exact u.start_cpsr.trans (hu Arm7DI.cpsr fun _ l => by cases l <;> rfl)
    · exact (Arm7DI.start_field Arm7DI.ex (fun _ _ => rfl) (fun _ _ => rfl) (fun _ _ => rfl)
        (fun _ _ => rfl) (fun _ _ => rfl) u).trans (hu Arm7DI.ex fun _ l => by cases l <;> rfl)
    · exact u.start_gpr.trans (hu Arm7DI.gpr fun _ l => by cases l <;> rfl)
    · exact u.start_spsr.trans (hu Arm7DI.spsr fun _ l => by cases l <;> rfl)
  · exact .ok True.intro

/-! ### A boundary -/

/-- The model's lines have moved; nRESET as `hold` says. -/
def Moved (s u : Arm7DI) (hold : Bool) : Prop := u = s.poke (Levels.mk hold u.fiqIn u.irqIn).lines

lemma Moved.refl (s : Arm7DI) : Moved s s s.inReset := by
  have h : (s.resetExit || s.inReset && !s.inReset) = s.resetExit := by
    rw [Bool.and_not_self, Bool.or_false]
  exact (congrArg (fun b => { s with resetExit := b }) h).symm

lemma Moved.setFiq {u : Arm7DI} {hold : Bool} (h : Moved s u hold) (b : Bool) :
    Moved s (u.setFiq b) hold := by
  rw [Moved] at h ⊢
  conv_lhs => rw [h]
  rfl

lemma Moved.setIrq {u : Arm7DI} {hold : Bool} (h : Moved s u hold) (b : Bool) :
    Moved s (u.setIrq b) hold := by
  rw [Moved] at h ⊢
  conv_lhs => rw [h]
  rfl

lemma Moved.setReset {u : Arm7DI} (h : Moved s u s.inReset) (b : Bool) :
    Moved s (u.setReset b) b := by
  have h' : (s.resetExit || s.inReset && !s.inReset || s.inReset && !b) =
      (s.resetExit || s.inReset && !b) := by
    rw [Bool.and_not_self, Bool.or_false]
  rw [Moved] at h ⊢
  conv_lhs => rw [h]
  exact congrArg (fun e =>
    { s with inReset := b, resetExit := e, fiqIn := u.fiqIn, irqIn := u.irqIn }) h'

/-- The inner bus drives the line of the model if the bench knows it; else no line moves. -/
structure Wired (sys : System ρ) (cpu : Bool) : Prop where
  slots : sys.bus.SlotsOk
  line : sys.bus.block.core = if cpu then some sys.core.fiqIn else none
  off : cpu = false → sys.core.fiqIn = false ∧ sys.core.irqIn = false

lemma line_mirrored {b b' : DcArmBus ρ} {level cpu : Bool}
    (hb : b.block.core = if cpu then some level else none) (h : b.block.Mirrors b'.block) :
    b'.block.core = (if cpu then some (b'.line level) else none) ∧
      (cpu = false → b'.line level = level) := by
  cases cpu with
  | true => exact ⟨(System.line_of_mirrors hb h).1, fun h => Bool.noConfusion h⟩
  | false =>
    have hn := System.none_of_mirrors hb h
    exact ⟨hn, fun _ => by rw [DcArmBus.line, hn]; rfl⟩

lemma Wired.tick {sys : System ρ} {cpu : Bool} (h : Wired sys cpu) (t : ℕ) :
    Wired (sys.tick t) cpu := by
  obtain ⟨hc, hl⟩ := @line_mirrored _ sys.bus (sys.bus.tick t) _ _ h.line
    (RegBlock.mirrors_sampleClock t)
  exact ⟨h.slots.tick t, hc, fun hoff => ⟨(hl hoff).trans (h.off hoff).1, (h.off hoff).2⟩⟩

/-- What a boundary leaves. -/
structure Ticked (L L' : Lock ρ) (t : ℕ) : Prop where
  moved : Moved L.sys.core L'.sys.core L'.holdLvl
  wired : Wired L'.sys L'.cpu
  cfg : L'.sys.bus.cfg = L.sys.bus.cfg
  due : ¬L'.sys.bus.block.edgeDue t
  rest : (L'.T, L'.pins, L'.now, L'.bound, L'.cpu) = (L.T, L.pins, L.now, L.bound, L.cpu)

namespace Ticked

variable {L' : Lock ρ} {t : ℕ} (h : Ticked L L' t)

include h

lemma drawn (n : ℕ) : Ticked L (L'.drawn n) t := ⟨h.moved, h.wired, h.cfg, h.due, h.rest⟩

lemma shakeFiq (hcpu : L'.cpu = true) (x : BitVec 64) :
    Ticked L (L'.shakeFiq x) t ∧ (L'.shakeFiq x).holdLvl = L'.holdLvl := by
  unfold Lock.shakeFiq
  split_ifs
  · refine ⟨⟨h.moved.setFiq _, ⟨?_, ?_, ?_⟩, h.cfg, h.due, h.rest⟩, rfl⟩
    · exact h.wired.slots.setBlock (RegBlock.marks_of_store rfl fun _ _ => rfl)
    · have hline := h.wired.line
      rw [hcpu] at hline ⊢
      exact congrArg (Option.map fun _ => !L'.sys.core.fiqIn) hline
    · exact fun hoff => Bool.noConfusion (hcpu.symm.trans hoff)
  · exact ⟨h, rfl⟩

lemma shakeIrq (hcpu : L'.cpu = true) (x : BitVec 64) :
    Ticked L (L'.shakeIrq x) t ∧ (L'.shakeIrq x).holdLvl = L'.holdLvl := by
  unfold Lock.shakeIrq
  split_ifs
  · exact ⟨⟨h.moved.setIrq _, ⟨h.wired.slots, h.wired.line, fun hoff =>
      Bool.noConfusion (hcpu.symm.trans hoff)⟩, h.cfg, h.due, h.rest⟩, rfl⟩
  · exact ⟨h, rfl⟩

lemma shakeReset (hh : L'.holdLvl = L.sys.core.inReset) (x : BitVec 64) :
    Ticked L (L'.shakeReset x) t := by
  have hset : ∀ b, Ticked L (L'.setHold b) t := fun b =>
    ⟨(hh ▸ h.moved).setReset b, ⟨h.wired.slots, h.wired.line, h.wired.off⟩, h.cfg, h.due, h.rest⟩
  unfold Lock.shakeReset
  split_ifs
  · exact hset true
  · exact hset false
  · exact h

lemma disturb (hcpu : L.cpu = true) (hh : L'.holdLvl = L.sys.core.inReset) :
    Ticked L L'.disturb t := by
  have hcpu' : ∀ {L' : Lock ρ}, Ticked L L' t → L'.cpu = true := fun h =>
    (congrArg (fun p : Core × Pins × ℕ × Bool × Bool => p.2.2.2.2) h.rest).trans hcpu
  have hd := h.drawn 1
  obtain ⟨hf, hfh⟩ := hd.shakeFiq (hcpu' hd) (L'.rng 0)
  obtain ⟨hi, hih⟩ := hf.shakeIrq (hcpu' hf) (L'.rng 0)
  exact hi.shakeReset (hih.trans (hfh.trans hh)) _

end Ticked

lemma tick_ticked (hw : Wired L.sys L.cpu) (hh : L.sys.core.inReset = L.holdLvl) (t : ℕ) :
    Ticked { L with bound := true } (L.tick t) t := by
  have h : Ticked L { L with sys := L.sys.tick t } t :=
    ⟨hh ▸ (Moved.refl L.sys.core).setFiq _, hw.tick t, rfl, RegBlock.not_due_sampleClock t, rfl⟩
  have hbound : ∀ {L' : Lock ρ}, Ticked L L' t →
      Ticked { L with bound := true } { L' with bound := true } t := fun h =>
    ⟨h.moved, h.wired, h.cfg, h.due, congrArg (fun p : Core × Pins × ℕ × Bool × Bool =>
      (p.1, p.2.1, p.2.2.1, true, p.2.2.2.2)) h.rest⟩
  unfold tick
  dsimp only
  split_ifs with hc
  · exact hbound (h.disturb (Bool.and_eq_true_iff.mp hc).2 hh.symm)
  · exact hbound h

/-! ### A bus cycle -/

/-- The bench between two bus cycles. -/
structure Locked (L : Lock ρ) : Prop where
  related : ∀ l, Related L.T L.sys.core l
  rst : L.pins.rst = false
  ce : L.pins.ce = true
  now : L.now = L.sys.core.cycles
  bound : L.bound = false
  hold : L.sys.core.inReset = L.holdLvl
  wired : Wired L.sys L.cpu
  /-- The RTL has no waits in internal cycles. -/
  waits : L.sys.bus.cfg.waits.grid ≠ 0 ∨ L.sys.bus.cfg.waits.internal = 0

/-- The levels of a boundary cycle. -/
def levels (L : Lock ρ) : Levels := ⟨L.holdLvl, L.sys.core.fiqIn, L.sys.core.irqIn⟩

variable [AicaRegs ρ]

/-- The bench before the bus cycle that the model drives from `s` on. -/
structure Begins (L : Lock ρ) (s : Arm7DI) : Prop where
  related : ∀ l, Related L.T s l
  rst : L.pins.rst = false
  ce : L.pins.ce = true
  now : L.now = s.cycles
  core : L.sys.core = s.poke (if s.atBoundary then L.levels.lines else [])
  bound : L.bound = true ↔ s.atBoundary
  hold : L.sys.core.inReset = L.holdLvl
  wired : Wired L.sys L.cpu
  waits : L.sys.bus.cfg.waits.grid ≠ 0 ∨ L.sys.bus.cfg.waits.internal = 0
  line : s.atBoundary →
    (L.sys.bus.cycle L.sys.core.busCycle.bus).2.block.core = L.sys.bus.block.core

omit [AicaRegs ρ] in
lemma next_inReset (u : Arm7DI) (a : Answer) : (u.busCycle.next a).inReset = u.inReset :=
  (congrArg Lines.inReset (u.next_lines a)).trans
    (Arm7DI.start_field Arm7DI.inReset (fun _ _ => rfl) (fun _ _ => rfl) (fun _ _ => rfl)
      (fun _ _ => rfl) (fun _ _ => rfl) u)

/-- The answer draws a number at most. -/
lemma answer_spec (L : Lock ρ) (c : BusCycle) : ∃ n, (L.answer c).2 = L.drawn n ∧
    (c.type.isMem = false → (L.answer c).1.wait = (L.sys.bus.cycle c).1.wait) := by
  have h0 : L = L.drawn 0 :=
    congrArg (fun f => { L with rng := f }) (funext fun k => by rw [Nat.zero_add])
  unfold answer
  dsimp only
  by_cases h : (L.chaos && c.type.isMem) = true
  · rw [if_pos h]
    exact ⟨1, rfl, fun hm => Bool.noConfusion (hm.symm.trans (Bool.and_eq_true_iff.mp h).2)⟩
  · rw [if_neg h]
    exact ⟨0, h0, fun _ => rfl⟩

namespace Begins

variable {L' : Lock ρ} (h : Begins L s)

include h

lemma drawn (n : ℕ) : Begins (L.drawn n) s := { h with }

/-- The bench presents the levels that the model has decided on. -/
lemma present : InCycle ((L.present
    ((L.sys.bus.cycle L.sys.core.busCycle.bus).2.line L.sys.core.fiqIn) L.sys.core.irqIn).drive false 0 false) s L.levels L.sys.core.busCycle.bus := by
  have hbus : (s.poke (if s.atBoundary then L.levels.lines else [])).busCycle.bus =
      L.sys.core.busCycle.bus := by rw [← h.core]
  by_cases hb : s.atBoundary
  · have hline : (L.sys.bus.cycle L.sys.core.busCycle.bus).2.line L.sys.core.fiqIn =
        L.sys.core.fiqIn := by
      rw [DcArmBus.line, h.line hb, h.wired.line]
      split_ifs <;> rfl
    have hknown : (L.cpu && L.sys.core.fiqIn) = L.sys.core.fiqIn ∧
        (L.cpu && L.sys.core.irqIn) = L.sys.core.irqIn := by
      cases hcpu : L.cpu with
      | true => exact ⟨rfl, rfl⟩
      | false =>
        obtain ⟨hf, hi⟩ := h.wired.off hcpu
        rw [hf, hi]
        exact ⟨rfl, rfl⟩
    rw [Lock.present, if_pos (h.bound.mpr hb), hline, hknown.1, hknown.2]
    exact ⟨h.related _, h.rst, h.ce, fun _ => rfl, hbus⟩
  · rw [Lock.present, if_neg fun hbd => hb (h.bound.mp hbd)]
    exact ⟨h.related _, h.rst, h.ce, fun hb' => absurd hb' hb, hbus⟩

/-- What the clocks leave is the bench after the bus cycle. -/
lemma finish {L' : Lock ρ} {a : Answer}
    (ha : a.fiq = (L.sys.bus.cycle L.sys.core.busCycle.bus).2.line L.sys.core.fiqIn)
    (hirq : a.irq = L.sys.core.irqIn)
    (hrel : ∀ l, Related L'.T (lined.next s (L.levels, a)) l) (hcpu : L'.cpu = L.cpu)
    (hhold : L'.holdLvl = L.holdLvl) (hbound : L'.bound = false)
    (hnow : L'.now = L.now + 1 + a.wait) (hrst : L'.pins.rst = false) (hce : L'.pins.ce = true) :
    Locked (L'.finish ⟨L.sys.core.busCycle.next a,
      (L.sys.bus.cycle L.sys.core.busCycle.bus).2⟩) := by
  have hnext : lined.next s (L.levels, a) = L.sys.core.busCycle.next a := by rw [h.core]; rfl
  have hcycles : L.sys.core.cycles = s.cycles := by
    rw [h.core]
    exact Arm7DI.poke_field _ Arm7DI.cycles (fun _ l => by cases l <;> rfl) _
  obtain ⟨hline, hoff⟩ := line_mirrored h.wired.line
    (DcArmBus.mirrors_cycle h.wired.slots L.sys.core.busCycle.bus)
  constructor
  case related => exact fun l => hnext ▸ hrel l
  case rst => exact hrst
  case ce => exact hce
  case now => exact hnow.trans (by rw [h.now, ← hcycles]; exact (L.sys.core.next_cycles a).symm)
  case bound => exact hbound
  case hold => exact (next_inReset _ a).trans (h.hold.trans hhold.symm)
  case wired =>
    refine ⟨h.wired.slots.cycle _, ?_, fun hL' => ?_⟩
    · refine hline.trans ?_
      change _ = if L'.cpu then some (L.sys.core.busCycle.next a).fiqIn else none
      rw [L.sys.core.next_fiqIn a, ha, hcpu]
    · have hcpu' : L.cpu = false := hcpu.symm.trans hL'
      exact ⟨(L.sys.core.next_fiqIn a).trans (ha.trans ((hoff hcpu').trans (h.wired.off hcpu').1)),
        (L.sys.core.next_irqIn a).trans (hirq.trans (h.wired.off hcpu').2)⟩
  case waits =>
    change (L.sys.bus.cycle _).2.cfg.waits.grid ≠ 0 ∨ (L.sys.bus.cycle _).2.cfg.waits.internal = 0
    rw [DcArmBus.cycle_cfg h.wired.slots]
    exact h.waits

/-- A bus cycle on the bench reports nothing. -/
lemma cycle : Yields L.cycle fun L' => Locked L' ∧ L'.cpu = L.cpu ∧
    ∃ i, L'.sys.core = Arm7DI.core.next s i := by
  obtain ⟨n, hdrawn, hwait⟩ := L.answer_spec L.sys.core.busCycle.bus
  have hcore : ∀ {β : Type} (f : Arm7DI → β), (∀ s l, f (s.setLine l) = f s) →
      f L.sys.core = f s := fun f hf => by rw [h.core, Arm7DI.poke_field _ f hf]
  have hint : L.sys.core.busCycle.bus.type.isMem = true ∨
      (L.answer L.sys.core.busCycle.bus).1.wait = 0 := by
    refine or_iff_not_imp_left.mpr fun hm => ?_
    rw [Bool.not_eq_true] at hm
    rw [hwait hm, DcArmBus.wait_internal hm]
    rcases h.waits with hg | hi
    · exact if_pos hg
    · rw [hi]
      exact ite_self _
  have ht : L.now = L.sys.core.busCycle.bus.t := by
    rw [h.now, Arm7DI.bus_t]
    exact (hcore Arm7DI.cycles fun _ l => by cases l <;> rfl).symm
  set a : Answer := ⟨(L.answer L.sys.core.busCycle.bus).1,
    (L.sys.bus.cycle L.sys.core.busCycle.bus).2.line L.sys.core.fiqIn, L.sys.core.irqIn⟩ with ha
  obtain ⟨hin, hout, hnow⟩ := (h.drawn n).present.stray
  rw [drawn_sys] at hin hout hnow
  obtain ⟨hpout, hpnow⟩ := present_frame (L := L.drawn n)
    ((L.sys.bus.cycle L.sys.core.busCycle.bus).2.line L.sys.core.fiqIn) L.sys.core.irqIn
  unfold Lock.cycle
  dsimp only
  rw [hdrawn]
  refine .check_bind hint (.check_bind ht ?_)
  set L₁ := (((L.drawn n).present
    ((L.sys.bus.cycle L.sys.core.busCycle.bus).2.line L.sys.core.fiqIn) L.sys.core.irqIn).drive false 0 false).stray with hL₁
  have hout' : L₁.outer = L.outer := hout.trans hpout
  have hbound : L₁.bound = true ↔ s.atBoundary := by
    rw [show L₁.bound = L.bound from congrArg (fun o => o.2.1) hout']
    exact h.bound
  refine (hin.compare hbound hcore).bind fun _ _ => ?_
  have hin' : InCycle (L₁.setBound false) s L.levels L.sys.core.busCycle.bus := { hin with }
  refine (clocks_yields (a := a) rfl _ hint.symm hin').bind fun L' ⟨hrel, ho, hn, hrst, hce⟩ => ?_
  have hcpu : L'.cpu = L.cpu :=
    (congrArg (fun o => o.2.2.1) ho).trans (congrArg (fun o => o.2.2.1) hout')
  have hhold : L'.holdLvl = L.holdLvl :=
    (congrArg (fun o => o.2.2.2.2) ho).trans (congrArg (fun o => o.2.2.2.2) hout')
  have hn' : L'.now = L.now + 1 + a.wait :=
    hn.trans (congrArg (fun t => t + 1 + a.wait) (hnow.trans hpnow))
  refine .ok ⟨h.finish rfl rfl hrel hcpu hhold (congrArg (fun o => o.2.1) ho) hn' hrst hce, hcpu,
    s.seen (L.levels, a), ?_⟩
  change L.sys.core.busCycle.next a = (s.poke _).busCycle.next a
  rw [h.core]
  rfl

end Begins

/-- The first fetch of an instruction or an entry reads L. -/
def FetchesL (L : Lock ρ) : Prop :=
  L.sys.core.atBoundary ∧ DcArmBus.inRam L.sys.core.pc = false ∧ regNo L.sys.core.pc = regL

namespace Locked

variable (h : Locked L)

include h

lemma begins (hb : ¬L.sys.core.atBoundary) : Begins L L.sys.core := by
  refine ⟨h.related, h.rst, h.ce, h.now, ?_, ?_, h.hold, h.wired, h.waits, fun hb' => absurd hb' hb⟩
  · rw [if_neg hb]
    rfl
  · rw [h.bound]
    exact ⟨fun h => Bool.noConfusion h, fun hb' => absurd hb' hb⟩

/-- A boundary that is no fetch of L. -/
lemma begins_tick {L' : Lock ρ} (hb : L.sys.core.atBoundary) (hL : ¬L.FetchesL)
    (ht : Ticked { L with bound := true } L' L.sys.core.cycles) : Begins L' L.sys.core := by
  have hrest := ht.rest
  simp only [Prod.mk.injEq] at hrest
  obtain ⟨hT, hpins, hnow, hbound, -⟩ := hrest
  have hmoved : L'.sys.core = L.sys.core.poke L'.levels.lines := ht.moved
  have hcore : ∀ {β : Type} (f : Arm7DI → β), (∀ s l, f (s.setLine l) = f s) →
      f L'.sys.core = f L.sys.core := fun f hf => by rw [hmoved, Arm7DI.poke_field _ f hf]
  have hb' : L'.sys.core.atBoundary := (hcore Arm7DI.seq fun _ l => by cases l <;> rfl).trans hb
  obtain ⟨haddr, hwrite⟩ := Arm7DI.boundary_bus hb'
  constructor
  case related => exact fun l => hT ▸ h.related l
  case rst => exact hpins ▸ h.rst
  case ce => exact hpins ▸ h.ce
  case now => exact hnow.trans h.now
  case core => rw [if_pos hb, hmoved]
  case bound => exact ⟨fun _ => hb, fun _ => hbound⟩
  case hold => rw [hmoved]; rfl
  case wired => exact ht.wired
  case waits => exact ht.cfg ▸ h.waits
  case line =>
    intro _
    refine DcArmBus.cycle_core ht.wired.slots ?_ hwrite fun hr hreg => hL ⟨hb, ?_⟩
    · rw [Arm7DI.bus_t, hcore Arm7DI.cycles fun _ l => by cases l <;> rfl]
      exact ht.due
    · rw [haddr, hcore Arm7DI.pc fun _ l => by cases l <;> rfl] at hr hreg
      exact ⟨hr, hreg⟩

/-- A bus cycle of the model. -/
lemma busCycle (hL : ¬L.FetchesL) : Yields L.busCycle fun L' => (Locked L' ∧ L'.cpu = L.cpu) ∧
    ∃ i, L'.sys.core = Arm7DI.core.next L.sys.core i := by
  unfold Lock.busCycle
  split_ifs with hb
  · have ht := tick_ticked h.wired h.hold L.sys.core.cycles
    refine (h.begins_tick hb hL ht).cycle.mono fun L' ⟨hl, hcpu, hi⟩ => ⟨⟨hl, hcpu.trans ?_⟩, hi⟩
    exact congrArg (fun p : Core × Pins × ℕ × Bool × Bool => p.2.2.2.2) ht.rest
  · exact (h.begins hb).cycle.mono fun L' ⟨hl, hcpu, hi⟩ => ⟨⟨hl, hcpu⟩, hi⟩

omit [AicaRegs ρ] in
/-- The bench gets to know the model. -/
lemma attach : Locked L.attach :=
  { h with wired := ⟨h.wired.slots.setBlock (RegBlock.marks_of_store rfl fun _ _ => rfl), rfl,
      fun hoff => Bool.noConfusion hoff⟩ }

omit [AicaRegs ρ] in
/-- The comparison at the end. -/
lemma compareEnd (hb : L.sys.core.atBoundary) :
    L.T.dbgBoundary = true ∧ Yields (L.checkState L.sys.core .atEnd true) fun _ => True := by
  have ha := (h.related L.levels).agree ⟨⟨0, 0, false⟩, false, false⟩
  exact ⟨ha.boundary.mpr hb, checkState_yields (ha.state hb) rfl rfl rfl rfl rfl _ _⟩

/-- A loop of bus cycles that stops at a boundary, at the latest when `limit` cycles have passed. -/
lemma loop (again : Lock ρ → Bool) (limit n : ℕ)
    (hagain : ∀ L, again L = true → L.sys.core.atBoundary → L.sys.core.cycles < limit)
    (hrest : ∀ inp, ∃ m < n, (Arm7DI.core.after L.sys.core inp m).atBoundary ∧
      limit ≤ L.sys.core.cycles + m) :
    Yields (loop again (·.busCycle) n L) (fun L' => Locked L' ∧ again L' = false) ∨
      ∃ k < n, ∃ L', Visits again (·.busCycle) L k L' ∧ L'.FetchesL := by
  have : Nonempty Input := ⟨⟨[], ⟨⟨0, 0, false⟩, false, false⟩⟩⟩
  refine (loop_yields Arm7DI.core (fun L : Lock ρ => L.sys.core) Arm7DI.atBoundary Arm7DI.cycles
    limit (I := Locked) (B := FetchesL) ?_ hagain ?_ h hrest).imp id ?_
  · exact fun L h _ hL => (h.busCycle hL).mono fun L' h' => ⟨h'.1.1, h'.2⟩
  · intro s i
    have hc : (s.poke i.lines).cycles = s.cycles :=
      Arm7DI.poke_field _ Arm7DI.cycles (fun _ l => by cases l <;> rfl) _
    have hn : (Arm7DI.core.next s i).cycles = (s.poke i.lines).cycles + 1 + i.ans.wait :=
      Arm7DI.next_cycles _ _
    omega
  · rintro ⟨k, hk, L', hv, -, hB⟩
    exact ⟨k, hk, L', hv, hB⟩

end Locked

omit [AicaRegs ρ] in
/-- The bench at the power-on of the model. -/
lemma locked_new {bus : DcArmBus ρ} {T : Core} {chaos full : Bool} {rng : ℕ → BitVec 64}
    (hok : bus.SlotsOk) (hcore : bus.block.core = none) (hw : bus.cfg.waits.grid ≠ 0 ∨ bus.cfg.waits.internal = 0)
    (hT : AfterRst T) (hA : ∀ i, T.uRf.memA i = 0) (hB : ∀ i, T.uRf.memB i = 0) :
    Locked (new bus T chaos full rng) := by
  constructor
  case related => exact Related.start hT (fun p => hA _) (fun p => hB _)
  case wired => exact ⟨hok, hcore, fun _ => ⟨rfl, rfl⟩⟩
  case waits => exact hw
  all_goals rfl

omit [AicaRegs ρ] in
@[simp] lemma atBoundary_iff : L.atBoundary = true ↔ L.sys.core.atBoundary := decide_eq_true_iff

omit [AicaRegs ρ] in
lemma running_iff {stop : System ρ → Bool} {max : ℕ} : running stop max L = true ↔
    (L.sys.core.atBoundary → stop L.sys = false ∧ L.sys.core.cycles < max) := by
  simp only [running, Bool.or_eq_true, Bool.not_eq_true', Bool.and_eq_true, decide_eq_true_eq,
    ← Bool.not_eq_true, atBoundary_iff]
  exact imp_iff_not_or.symm

/-- The power-on of the model ends at a boundary. -/
lemma powerOn_yields (h : Locked L) (hb : L.sys.core.atBoundary) (hL : ¬L.FetchesL) {fuel : ℕ}
    (hfuel : 20 < fuel) : Yields (L.powerOn fuel) fun L' => Locked L' ∧ L'.sys.core.atBoundary := by
  refine (h.busCycle hL).bind fun L' ⟨⟨hl, _⟩, i, hi⟩ => ?_
  have hbusy : ∀ L'' : Lock ρ, (!L''.atBoundary) = true → ¬L''.sys.core.atBoundary := by
    intro L'' ha hb'
    rw [atBoundary_iff.mpr hb'] at ha
    exact Bool.noConfusion ha
  have hloop := hl.loop (!·.atBoundary) 0 fuel (fun L'' ha hb' => absurd hb' (hbusy L'' ha))
    fun inp => ?_
  · refine hloop.elim (fun hy => hy.mono fun L'' ⟨hl', ha⟩ => ⟨hl', ?_⟩) ?_
    · exact atBoundary_iff.mp (Bool.not_eq_eq_eq_not.mp ha)
    · rintro ⟨k, -, L'', hv, hB⟩
      exact absurd hB.1 (hbusy L'' hv.2)
  · obtain ⟨m, hm, hle, hr⟩ : ∃ m, 0 < m ∧ m ≤ 0 + 20 ∧ (Arm7DI.core.after L.sys.core
        (fun k => if k = 0 then i else inp (k - 1)) m).atBoundary :=
      Arm7DI.isa_follows.rests_within ⟨hb, rfl⟩ Arm7DI.burst_length_le 0
    obtain ⟨m, rfl⟩ := Nat.exists_eq_succ_of_ne_zero hm.ne'
    rw [Machine.after_succ', if_pos rfl, ← hi] at hr
    exact ⟨m, by omega, hr, Nat.zero_le _⟩

/-- The bench reports no mismatch in any run, unless the first fetch of an instruction or an entry
reads L; the run ends at a boundary. -/
theorem no_mismatch (cfg : DcConfig) (period phase latency : ℕ) (setup : List Setup) (T : Core)
    (chaos full : Bool) (rng : ℕ → BitVec 64) (stop : System ρ → Bool) (max fuel : ℕ)
    (hw : cfg.waits.grid ≠ 0 ∨ cfg.waits.internal = 0) (hT : AfterRst T)
    (hA : ∀ i, T.uRf.memA i = 0) (hB : ∀ i, T.uRf.memB i = 0) (hfuel : max + 20 < fuel) :
    let L : Lock ρ :=
      new (setup.foldl System.setUp (DcArmBus.new cfg period phase latency)) T chaos full rng
    Yields (L.runOne stop max fuel) (fun L' => L'.sys.core.atBoundary ∧
      (stop L'.sys = true ∨ max ≤ L'.sys.core.cycles)) ∨
      ∃ L₀, L.powerOn fuel = .ok L₀ ∧ ∃ k < fuel, ∃ L',
        Visits (running stop max) (·.busCycle) L₀.attach k L' ∧ L'.FetchesL := by
  intro L
  have hok := DcArmBus.slotsOk_new cfg period phase latency (ρ := ρ)
  obtain ⟨hslots, hcore⟩ := System.setUp_detached setup hok rfl
  have hcfg := (@System.setUp_sound _ _ 0 .shifterLast _ hok setup).cfg
  have hl : Locked L := locked_new hslots hcore (hcfg ▸ hw) hT hA hB
  have hram : DcArmBus.inRam L.sys.core.pc ≠ false := show DcArmBus.inRam 0 ≠ false by decide
  obtain ⟨L₀, h₀, hl₀, hb₀⟩ := powerOn_yields hl rfl (fun hL => hram hL.2.1)
    (show 20 < fuel by omega)
  have hrun := hl₀.attach.loop (running stop max) max fuel (fun L' ha hb => ?_) fun inp => ?_
  · refine hrun.imp (fun hy => ?_) fun hv => ⟨L₀, h₀, hv⟩
    unfold runOne
    rw [h₀]
    refine hy.bind fun L' ⟨hl', ha⟩ => ?_
    have hstop : L'.sys.core.atBoundary ∧ (stop L'.sys = true ∨ max ≤ L'.sys.core.cycles) := by
      rw [← Bool.not_eq_true, running_iff, Classical.not_imp, not_and_or, Bool.not_eq_false,
        Nat.not_lt] at ha
      exact ha
    obtain ⟨hdbg, hcheck⟩ := hl'.compareEnd hstop.1
    exact .check_bind hdbg (hcheck.bind fun _ _ => .ok hstop)
  · exact (running_iff.mp ha hb).2
  · obtain ⟨m, hm, hle, hr⟩ : ∃ m, max < m ∧ m ≤ max + 20 ∧
        (Arm7DI.core.after L₀.sys.core inp m).atBoundary :=
      Arm7DI.isa_follows.rests_within ⟨hb₀, rfl⟩ Arm7DI.burst_length_le max
    exact ⟨m, by omega, hr, by omega⟩

/-- In chaos, with the waits of the console. -/
theorem no_mismatch_dreamcast :
    let L : Lock Empty := new ([.word 0 0xEAFFFFFE].foldl System.setUp
      (DcArmBus.new { waits := .dreamcast } 512 0 0)) (Core.ofReset 0) true true
        fun k => BitVec.ofNat 64 (3 * k)
    Yields (L.runOne (fun _ => false) 100 121) (fun L' => L'.sys.core.atBoundary ∧
      (false = true ∨ 100 ≤ L'.sys.core.cycles)) ∨
      ∃ L₀, L.powerOn 121 = .ok L₀ ∧ ∃ k < 121, ∃ L',
        Visits (running (fun _ => false) 100) (·.busCycle) L₀.attach k L' ∧ L'.FetchesL :=
  no_mismatch { waits := .dreamcast } 512 0 0 [.word 0 0xEAFFFFFE] (Core.ofReset 0) true true
    (fun k => BitVec.ofNat 64 (3 * k)) (fun _ => false) 100 121 (Or.inl (by decide))
    (afterRst_ofReset 0) (fun _ => rfl) (fun _ => rfl) (by decide)

end Lock

end Wren7
