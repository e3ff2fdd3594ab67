import Wren7.Equiv.Boundary

/-!
# The RTL refines the model

Lock step: the RTL started by `rst` and the model at its power-on, one bus cycle of the model for
each cycle that the RTL completes, however many clocks that takes.
-/

namespace Wren7

open Bits Rtl Reactive Reactive.Machine

/-! ### One bus cycle -/

section Step

variable {r : CoreRegs} {mem : BitVec 5 → Word} {s : Arm7DI} {l : Levels}

/-- What the model reads in a cycle: the lines move at boundaries only. -/
def Arm7DI.seen (s : Arm7DI) (i : Levels × Answer) : Input where
  lines := if s.atBoundary then i.1.lines else []
  ans := i.2

/-- The model on a bus that moves the lines at the boundaries. -/
def lined : Machine Arm7DI (Levels × Answer) BusCycle where
  out s i := Arm7DI.core.out s (s.seen i)
  next s i := Arm7DI.core.next s (s.seen i)

lemma Sim.atBoundary_iff (h : Sim r mem s) : s.atBoundary ↔ r.st = .bound := by
  have hin := h.inFlight
  unfold Arm7DI.atBoundary
  rw [InFlightSim] at hin
  cases hst : r.st <;> rw [hst] at hin <;> simp_all

/-- Every bus cycle, at a boundary or not. -/
theorem step_sim (h : Sim r mem s) (a : Answer) :
    StepSim r mem l (s.poke (s.seen (l, a)).lines).busCycle := by
  by_cases hst : r.st = .bound
  · rw [Arm7DI.seen, if_pos (h.atBoundary_iff.mpr hst)]
    exact bound_sim h hst
  rw [Arm7DI.seen, if_neg (mt h.atBoundary_iff.mp hst)]
  change StepSim r mem l s.busCycle
  cases hst' : r.st with
  | bound => exact absurd hst' hst
  | dp2 => exact dp2_sim h hst'
  | mul => exact mul_sim h hst'
  | swp1 => exact swp1_sim h hst'
  | swp2 => exact swp2_sim h hst'
  | swp3 => exact swp3_sim h hst'
  | sdt2 => exact sdt2_sim h hst'
  | sdt3 => exact sdt3_sim h hst'
  | bdtx => exact bdtx_sim h hst'
  | bdtf => exact bdtf_sim h hst'
  | und2 => exact und2_sim h hst'
  | ref0 => exact ref0_sim h hst'
  | ref1 => exact ref1_sim h hst'

end Step

/-! ### Clocks -/

section Clock

variable {c : Core} {s : Arm7DI} {l : Levels} {i : Pins} {a : Answer}

/-- The RTL before a clock of a bus cycle, the model before the cycle; `l` are the levels of the
cycle's first `ce` clock. -/
structure Related (c : Core) (s : Arm7DI) (l : Levels) : Prop where
  coherent : c.uRf.Coherent
  ports : ∀ p, c.uRf.memB (slot p) = c.uRf.memA (slot p)
  sim : Sim c.regs c.uRf.memA s
  latched : c.fc = false → c.regs.st = .bound → c.latched = l

namespace Related

variable (h : Related c s l)

include h

lemma va_eq : c.va = portA c.regs (c.uRf.memA (raIdx c.regs)) := Core.va_eq h.coherent

/-- The two copies of the register file agree where a port reads. -/
lemma vb_eq : c.vb = portB c.regs (c.uRf.memA (rbIdx c.regs)) := by
  rw [Core.vb_eq h.coherent, portB, portB]
  by_cases h15 : rbR c.regs = 15
  · rw [if_pos h15, if_pos h15]
  · rw [if_neg h15, if_neg h15, rbIdx, ← slot_phys h15, h.ports]

/-- A clock that does not complete the cycle. -/
lemma stall (hrst : i.rst = false) (hdone : c.cdone i = false)
    (hl : c.dbgBoundary = true → c.fc = true → i.ce = true → i.levels = l) :
    Related (c.clock i) s l := by
  have hs : c.Stalls i := ⟨hrst, fun hce => by
    rw [Core.cdone, hce, Bool.true_and] at hdone
    by_cases hq : busReq c.regs = true
    · exact ⟨hq, by simpa [hq] using hdone⟩
    · simp [hq] at hdone⟩
  rw [Core.clock_of_stalls hs]
  refine ⟨Regfile.coherent_clock _ _ _ _ _, h.ports, h.sim, fun hfc hst => ?_⟩
  have hb : c.dbgBoundary = true := by simpa [Core.dbgBoundary] using hst
  cases hce : i.ce <;> cases hc : c.fc
  · simp [h.latched hc hst]
  · simp [hce, hc] at hfc
  · simp [h.latched hc hst]
  · simp [hl hb hc hce]

/-- The clock that completes it. -/
lemma complete (hrst : i.rst = false) (hdone : c.cdone i = true)
    (hl : c.dbgBoundary = true → c.fc = true → i.levels = l)
    (ha : busReq c.regs = true → i.busRdata = a.rdata ∧ i.busAbort = a.abort) (l' : Levels) :
    Related (c.clock i) (lined.next s (l, a)) l' := by
  have hfin : c.Completes i := by
    rw [Core.cdone, Bool.and_eq_true] at hdone
    exact ⟨hrst, hdone.1, fun hq => by simpa [hq] using hdone.2⟩
  have hreq := h.sim.req
  have hstep := (step_sim (l := c.sampled i) h.sim a).next a i.busRdata fun hm =>
    (ha (hreq.trans hm)).1
  have hab : (c.regs.st.isMem && a.abort) = c.abE i := by
    rw [Core.abE, hreq]
    cases hm : c.regs.st.isMem
    · rfl
    · rw [(ha (hreq.trans hm)).2]
  -- at a boundary the levels the RTL decides on are those the model was given
  have hseen : s.seen (c.sampled i, a) = s.seen (l, a) := by
    unfold Arm7DI.seen
    by_cases hb : s.atBoundary
    · have hst := h.sim.atBoundary_iff.mp hb
      have hlev : c.sampled i = l := by
        unfold Core.sampled
        cases hc : c.fc
        · simp [h.latched hc hst]
        · simp [hl (by simp [Core.dbgBoundary, hst]) hc]
      rw [hlev]
    · simp only [if_neg hb]
  rw [hab, hseen, ← h.va_eq, ← h.vb_eq] at hstep
  rw [Core.clock_of_completes hfin]
  refine ⟨Regfile.coherent_clock _ _ _ _ _, fun p => ?_, hstep, fun hfc => by simp at hfc⟩
  simp only [Regfile.clock_memA, Regfile.clock_memB]
  split_ifs with hw
  · simp only [Function.update_apply, h.ports]
  · exact h.ports p

end Related

end Clock

/-! ### Runs -/

section Run

variable (c : Core) (pins : ℕ → Pins)

/-- The clock completes a bus cycle. -/
def completed (n : ℕ) : Bool := (rtl.after c pins n).cdone (pins n)

/-- The number of the bus cycle that a clock belongs to. -/
def cycleAt (n : ℕ) : ℕ := visibleBefore (completed c pins) n

/-- The first clock of its bus cycle with `ce`. -/
def FirstCe (n : ℕ) : Prop :=
  (pins n).ce = true ∧ ∀ m < n, cycleAt c pins m = cycleAt c pins n → (pins m).ce = false

/-- The pins present the `k`-th levels in the first `ce` clock of the `k`-th cycle, if it is a
boundary cycle, and the `k`-th answer in its last clock, if it is a memory cycle. Everything else
about them is arbitrary: the number of clocks, the pins in wait clocks and with `ce` low, the data
of internal cycles. -/
structure Presents (lv : ℕ → Levels) (ans : ℕ → Answer) : Prop where
  rst : ∀ n, (pins n).rst = false
  levels : ∀ n, (rtl.after c pins n).dbgBoundary = true → FirstCe c pins n →
    (pins n).levels = lv (cycleAt c pins n)
  answer : ∀ n, completed c pins n = true → busReq (rtl.after c pins n).regs = true →
    (pins n).busRdata = (ans (cycleAt c pins n)).rdata ∧
      (pins n).busAbort = (ans (cycleAt c pins n)).abort

/-- The architectural state and the pipeline of the two machines at a boundary. -/
structure AgreeState (c : Core) (s : Arm7DI) : Prop where
  pc : c.regs.pc = s.pc
  cpsr : cpsr32 c.regs = s.cpsr
  ex : ⟨c.regs.exW, c.regs.exA⟩ = s.ex
  de : ⟨c.regs.deW, c.regs.deA⟩ = s.de
  dab : c.regs.dab = s.dabortPending
  inRst : c.regs.inRst = s.inReset
  rstExit : c.regs.rstExit = s.resetExit
  memA : ∀ p, c.uRf.memA (slot p) = s.gpr p
  memB : ∀ p, c.uRf.memB (slot p) = s.gpr p
  spsr : ∀ b, b ≠ .usr → psr32 (c.regs.spsr b) = s.spsr b

/-- What the RTL shows in a clock, against the model's state and its bus cycle. -/
structure Agree (c : Core) (s : Arm7DI) (b : BusCycle) : Prop where
  type : c.outputs.type = b.type
  req : c.outputs.req = b.type.isMem
  addr : c.outputs.addr = b.addr
  flags : c.outputs.flags = b.flags
  wdata : b.flags.write = true → c.outputs.wdata = b.wdata
  boundary : c.dbgBoundary = true ↔ s.atBoundary
  state : s.atBoundary → AgreeState c s

/-- The model at its power-on, with any register file. -/
def powered (g : Fin 31 → Word) : Arm7DI := { Arm7DI.powerOn 0 .shifterLast with gpr := g }

variable {c pins}

/-- `fc` marks the first `ce` clock. -/
lemma firstCe_of_fc (hrst : ∀ n, (pins n).rst = false) (n : ℕ)
    (hfc : (rtl.after c pins n).fc = true) (m : ℕ) (hm : m < n)
    (hk : cycleAt c pins m = cycleAt c pins n) : (pins m).ce = false := by
  induction n with
  | zero => omega
  | succ n ih =>
    have hle : cycleAt c pins m ≤ cycleAt c pins n := visibleBefore_mono (by omega)
    have hsucc : cycleAt c pins (n + 1) = cycleAt c pins n + (completed c pins n).toNat := rfl
    have hfc' : (if (pins n).ce then completed c pins n else (rtl.after c pins n).fc) = true := by
      have h : ((rtl.after c pins n).clock (pins n)).fc = true := hfc
      simpa [Core.clock, hrst n, completed] using h
    cases hce : (pins n).ce with
    | true =>
      -- the cycle of clock `n` is over
      simp only [hce, if_true] at hfc'
      rw [hfc'] at hsucc
      simp only [Bool.toNat_true] at hsucc
      omega
    | false =>
      have hnot : completed c pins n = false := by simp [completed, Core.cdone, hce]
      simp only [hce, Bool.false_eq_true, if_false] at hfc'
      rw [hnot] at hsucc
      rcases Nat.lt_or_ge m n with hlt | hge
      · exact ih hfc' hlt (by simpa [hsucc] using hk)
      · rwa [show m = n by omega]

/-- The two machines at the start. -/
lemma Related.start (hc : AfterRst c) {g : Fin 31 → Word} (hA : ∀ p, c.uRf.memA (slot p) = g p)
    (hB : ∀ p, c.uRf.memB (slot p) = g p) (l : Levels) : Related c (powered g) l := by
  refine ⟨Regfile.coherent_of_lwV hc.lwV, fun p => by rw [hA, hB], ?_, fun hfc => ?_⟩
  · rw [hc.regs]
    refine ⟨?_, rfl, by simp [busReq_eq, CoreRegs.reset, CycleType.isMem, St.isMem],
      by simp [InFlightSim, CoreRegs.reset, powered, Arm7DI.powerOn]⟩
    constructor <;> simp [CoreRegs.reset, powered, Arm7DI.powerOn, hA]
    · simp [psr32, mSvc, psrI, psrF]
    · simp [psr32]
  · rw [hc.fc] at hfc
    cases hfc

variable {lv : ℕ → Levels} {ans : ℕ → Answer}

/-- The relation along a run. -/
lemma related_after {s : Arm7DI} (hp : Presents c pins lv ans) (h0 : Related c s (lv 0)) (n : ℕ) :
    Related (rtl.after c pins n)
      (lined.after s (fun k => (lv k, ans k)) (cycleAt c pins n)) (lv (cycleAt c pins n)) := by
  refine stuttering (R := fun n c' s' => Related c' s' (lv (cycleAt c pins n))) h0 ?_ ?_ n
  · intro n hv h
    refine h.complete (hp.rst n) hv (fun hb hfc => hp.levels n hb ⟨?_, ?_⟩) (hp.answer n hv) _
    · rw [completed, Core.cdone, Bool.and_eq_true] at hv
      exact hv.1
    · exact firstCe_of_fc hp.rst n hfc
  · intro n hv h
    have hk : cycleAt c pins (n + 1) = cycleAt c pins n := by
      rw [cycleAt, visibleBefore_succ, hv]; rfl
    rw [hk]
    exact h.stall (hp.rst n) hv fun hb hfc hce =>
      hp.levels n hb ⟨hce, firstCe_of_fc hp.rst n hfc⟩

/-- What the relation lets the two machines show. -/
lemma Related.agree {c : Core} {s : Arm7DI} {l : Levels} (h : Related c s l) (a : Answer) :
    Agree c s (lined.out s (l, a)) := by
  have hstep := step_sim (l := l) h.sim a
  have hb := h.sim.atBoundary_iff
  have hc := h.sim.common
  refine ⟨hstep.type.symm, ?_, hstep.addr.symm, hstep.flags.symm, fun hw => ?_, ?_, fun hs => ?_⟩
  · change busReq c.regs = (s.poke (s.seen (l, a)).lines).busCycle.bus.type.isMem
    rw [hstep.type, busReq_eq, busType]
  · have hw' := hstep.wdata hw
    change busWdata c.regs c.vb = (s.poke (s.seen (l, a)).lines).busCycle.bus.wdata
    rw [hw', h.vb_eq]
  · rw [hb, Core.dbgBoundary, beq_iff_eq]
  · have hpw : c.regs.pwV = false := by
      have := h.sim.inFlight
      rw [InFlightSim, hb.mp hs] at this
      exact this.2
    have hA := fun p => (hc.gpr_eq hpw p).symm
    exact ⟨hc.pc.symm, hc.cpsr.symm, hc.ex.symm, hc.de.symm, hc.dab.symm, hc.inReset.symm,
      hc.resetExit.symm, hA, fun p => (h.ports p).trans (hA p), fun b hne => (hc.spsr b hne).symm⟩

/-- The RTL refines the model: in every clock it shows the bus cycle of the model that belongs to
it, at the boundaries the states agree, and as long as cycles complete none is left out. -/
theorem lock_step (hc : AfterRst c) {g : Fin 31 → Word} (hA : ∀ p, c.uRf.memA (slot p) = g p)
    (hB : ∀ p, c.uRf.memB (slot p) = g p) (hp : Presents c pins lv ans) :
    (∀ n, Agree (rtl.after c pins n)
      (lined.after (powered g) (fun k => (lv k, ans k)) (cycleAt c pins n))
      (lined.outs (powered g) (fun k => (lv k, ans k)) (cycleAt c pins n))) ∧
    ((∀ n, ∃ m, n ≤ m ∧ completed c pins m = true) →
      ∀ k, ∃ n, completed c pins n = true ∧ cycleAt c pins n = k) :=
  ⟨fun n => (related_after hp (Related.start hc hA hB _) n).agree _, exists_visibleBefore⟩

/-- A program of no-ops: `MOV r0, r0` from every address, in one clock each. -/
theorem lock_step_nop :
    let pins : ℕ → Pins := fun _ => ⟨false, true, ⟨false, false, false⟩, true, 0xE1A00000, false⟩
    let inp : ℕ → Levels × Answer := fun _ =>
      (⟨false, false, false⟩, { rdata := 0xE1A00000, wait := 0, abort := false, fiq := false, irq := false })
    let c := Core.ofReset 0
    (∀ n, Agree (rtl.after c pins n) (lined.after (powered fun _ => 0) inp (cycleAt c pins n))
      (lined.outs (powered fun _ => 0) inp (cycleAt c pins n))) ∧
    ((∀ n, ∃ m, n ≤ m ∧ completed c pins m = true) →
      ∀ k, ∃ n, completed c pins n = true ∧ cycleAt c pins n = k) := by
  intro pins inp c
  exact lock_step (afterRst_ofReset 0) (fun _ => rfl) (fun _ => rfl)
    ⟨fun _ => rfl, fun _ _ _ => rfl, fun _ _ _ => ⟨rfl, rfl⟩⟩

end Run

end Wren7
