import Wren7.Aica.RegBlock

/-!
# The interrupt handshake

Every sequence of register accesses from the two sides and of sample-clock calls, on the internal
register store. The controller is idle or holds a request; one relation, `Moved`, says what any
access may do to it.
-/

namespace Wren7

open Bits Reactive

/-- A call on the register block: the register lanes of an ARM bus cycle, the harness, the sample
clock. -/
inductive Call
  | arm (c : BusCycle)
  | regRead (off : Word)
  | regWrite (off : Word) (v : BitVec 16)
  | tick (t : ℕ)

/-- What a call does to the registers. -/
inductive Access
  | read (r : RegNo)
  | write (r : RegNo) (v mask : BitVec 16)
  | clock (t : ℕ)
  | dropped
  deriving DecidableEq

/-- The access of a call, with its byte lanes. -/
def Call.access : Call → Access
  | .arm c =>
    if c.flags.write then
      if !c.flags.byte then .write (regNo c.addr) (field c.wdata 0 16) 0xFFFF
      else if (field c.addr 0 2).toNat < 2 then
        .write (regNo c.addr) ((c.wdata &&& 0xFF).setWidth 16 <<< (8 * (field c.addr 0 2).toNat))
          (0xFF <<< (8 * (field c.addr 0 2).toNat))
      else .dropped
    else .read (regNo c.addr)
  | .regRead off => .read (regNo off)
  | .regWrite off v => .write (regNo off) v 0xFFFF
  | .tick t => .clock t

/-- The ones that an access writes to a register. -/
def Access.ones : Access → RegNo → BitVec 16
  | .write r v mask, r' => if r = r' then v &&& mask else 0
  | _, _ => 0

/-- A write of M with bit 0 set. -/
def Access.accepts (a : Access) : Prop := bit (a.ones regM) 0 = true

instance (a : Access) : Decidable a.accepts := inferInstanceAs (Decidable (_ = true))

namespace RegBlock

variable {ρ : Type*} [AicaRegs ρ] (s : RegBlock ρ)

/-- The value a call returns and the state it leaves. -/
def call : Call → BitVec 16 × RegBlock ρ
  | .arm c => s.regCycle c
  | .regRead off => s.regRead off
  | .regWrite off v => (0, s.regWrite off v)
  | .tick t => (0, s.sampleClock t)

/-- The register block as a machine, one call per step. -/
def calls : Machine (RegBlock ρ) Call (BitVec 16) where
  out s c := (s.call c).1
  next s c := (s.call c).2

/-- A call latches a request: it leaves one held, and none was, or it ended the service of the one
before. -/
def latches (c : Call) : Prop :=
  (s.call c).2.e68kOut = true ∧ (s.e68kOut = false ∨ c.access.accepts)

instance (c : Call) : Decidable (s.latches c) := inferInstanceAs (Decidable (_ ∧ _))

/-- What an access does to the state. -/
def perform : Access → RegBlock ρ
  | .read r => (s.rreg r).2
  | .write r v mask => s.wreg r v mask
  | .clock t => s.sampleClock t
  | .dropped => s

/-- A call is its access, up to the record of the interrupt to the SH4. -/
lemma call_eq (c : Call) : ∃ t, (t = s ∨ ∃ at', t = s.raiseScpu at') ∧
    (s.call c).2 = t.perform c.access := by
  cases c with
  | regRead off => exact ⟨s, Or.inl rfl, rfl⟩
  | regWrite off v => exact ⟨s, Or.inl rfl, rfl⟩
  | tick t => exact ⟨s, Or.inl rfl, rfl⟩
  | arm c =>
    simp only [call, regCycle, Call.access]
    by_cases hw : c.flags.write = true
    · rw [if_pos hw, if_pos hw]
      dsimp only
      split_ifs <;> first
        | exact ⟨_, Or.inr ⟨_, rfl⟩, rfl⟩
        | exact ⟨_, Or.inl rfl, rfl⟩
    · rw [if_neg hw, if_neg hw]
      exact ⟨s, Or.inl rfl, rfl⟩

/-! ### The request latch -/

section Update

omit [AicaRegs ρ]

@[simp] lemma updateInterrupts_store : s.updateInterrupts.store = s.store := by
  unfold updateInterrupts
  split_ifs <;> rfl

/-- The line is driven with nFIQ. -/
lemma updateInterrupts_core :
    s.updateInterrupts.core = s.core.map fun _ => s.updateInterrupts.fiq := by
  unfold updateInterrupts
  split_ifs <;> rfl

@[simp] lemma updateInterrupts_regs : s.updateInterrupts.regs = s.regs := by
  unfold updateInterrupts
  split_ifs <;> rfl

lemma pend_congr {s t : RegBlock ρ} (h : s.store = t.store) : s.pend = t.pend := by
  simp only [pend, h]

lemma level_congr {s t : RegBlock ρ} (h : s.store = t.store) : s.level = t.level := by
  simp only [level, pend_congr h, h]

/-- A request waits, and nothing is in the way of it. -/
def ready : Prop := s.pend ≠ 0 ∧ s.e68kOut = false ∧ s.level ≠ 0

instance : Decidable s.ready := inferInstanceAs (Decidable (_ ∧ _))

variable {s}

lemma updateInterrupts_of_ready (h : s.ready) :
    s.updateInterrupts = (s.hold s.level).setLine true := by
  unfold updateInterrupts
  rw [if_pos ⟨h.1, h.2.1⟩, if_pos h.2.2]
  rfl

lemma updateInterrupts_of_not_ready (h : ¬s.ready) : s.updateInterrupts = s.setLine s.fiq := by
  unfold updateInterrupts
  split_ifs with hp hl
  · exact absurd ⟨hp.1, hp.2, hl⟩ h
  · rfl
  · rfl

/-- A request that could be latched is. -/
lemma not_ready_updateInterrupts : ¬s.updateInterrupts.ready := by
  by_cases h : s.ready
  · rw [updateInterrupts_of_ready h]
    exact fun h' => Bool.noConfusion h'.2.1
  · rw [updateInterrupts_of_not_ready h]
    exact h

lemma setLine_fiq_updateInterrupts :
    s.updateInterrupts.setLine s.updateInterrupts.fiq = s.updateInterrupts := by
  have hmap : ∀ (b : Bool) (o : Option Bool),
      (o.map fun _ => b).map (fun _ => b) = o.map fun _ => b := by
    intro b o
    cases o <;> rfl
  by_cases h : s.ready
  · rw [updateInterrupts_of_ready h]
    simp [setLine, hold, hmap]
  · rw [updateInterrupts_of_not_ready h]
    simp [setLine, hmap]

lemma updateInterrupts_idem : s.updateInterrupts.updateInterrupts = s.updateInterrupts := by
  rw [updateInterrupts_of_not_ready not_ready_updateInterrupts, setLine_fiq_updateInterrupts]

lemma updateInterrupts_setNext (n : ℕ) :
    (s.setNext n).updateInterrupts = s.updateInterrupts.setNext n := by
  by_cases h : s.ready
  · rw [updateInterrupts_of_ready h, updateInterrupts_of_ready (s := s.setNext n) h]
    rfl
  · rw [updateInterrupts_of_not_ready h, updateInterrupts_of_not_ready (s := s.setNext n) h]
    rfl

end Update

/-! ### The sample clock -/

section Clock

omit [AicaRegs ρ]

/-- SCIPD and MCIPD with the sample interval's bit set. -/
def marked : RegBlock ρ :=
  (s.setReg scipd (s.store scipd ||| 0x400)).setReg mcipd (s.store mcipd ||| 0x400)

lemma edge_eq : s.edge = s.marked.updateInterrupts.setNext
    (s.marked.updateInterrupts.nextSample + s.marked.updateInterrupts.samplePeriod) := rfl

lemma marked_store (r : RegNo) : s.marked.store r =
    if r = scipd ∨ r = mcipd then s.store r ||| 0x400 else s.store r := by
  simp only [marked, setReg, Function.update_apply]
  by_cases hm : r = mcipd
  · subst hm
    rw [if_pos rfl, if_pos (Or.inr rfl)]
  · rw [if_neg hm]
    by_cases hp : r = scipd <;> simp [hm, hp]

lemma setReg_self (r : RegNo) : s.setReg r (s.store r) = s := by
  simp only [setReg, Function.update_eq_self]

variable {s}

lemma marked_of_store (hp : s.store scipd ||| 0x400 = s.store scipd)
    (hm : s.store mcipd ||| 0x400 = s.store mcipd) : s.marked = s := by
  unfold marked
  rw [hp, hm, setReg_self, setReg_self]

/-- Another edge changes nothing but the time of the next one. -/
lemma edge_edge : s.edge.edge = s.edge.setNext (s.edge.nextSample + s.edge.samplePeriod) := by
  have hmark : ∀ r, r = scipd ∨ r = mcipd → s.edge.store r ||| 0x400 = s.edge.store r := by
    intro r hr
    rw [edge_eq, setNext_store, updateInterrupts_store, marked_store, if_pos hr, BitVec.or_assoc,
      BitVec.or_self]
  have hidem : s.edge.updateInterrupts = s.edge := by
    rw [edge_eq, updateInterrupts_setNext, updateInterrupts_idem]
  rw [edge_eq s.edge, marked_of_store (hmark _ (Or.inl rfl)) (hmark _ (Or.inr rfl)), hidem]

/-- The time of the next sample edge. -/
def nextEdge (s : RegBlock ρ) : ℕ :=
  if s.sampleInit then s.nextSample else s.samplePhase % s.samplePeriod

/-- A sample edge is due when the clock is called. -/
def edgeDue (s : RegBlock ρ) (t : ℕ) : Prop :=
  s.samplePeriod ≠ 0 ∧ s.nextEdge + s.edgeLatency ≤ t

lemma edges_of_edge (t fuel : ℕ) : ∃ n, edges t fuel s.edge = s.edge.setNext n := by
  induction fuel generalizing s with
  | zero => exact ⟨_, rfl⟩
  | succ fuel ih =>
    rw [edges]
    split_ifs
    · obtain ⟨n, hn⟩ := ih (s := s.edge)
      exact ⟨n, by rw [hn, edge_edge]; rfl⟩
    · exact ⟨_, rfl⟩

/-- The clock does one edge's work if any is due; more of them only move the next one. -/
lemma sampleClock_eq (t : ℕ) : ∃ u n, (u = s ∨ ∃ at', u = s.initClock at') ∧
    (s.edgeDue t ∧ s.sampleClock t = u.edge.setNext n ∨ ¬s.edgeDue t ∧ s.sampleClock t = u) := by
  by_cases hp : s.samplePeriod = 0
  · exact ⟨s, 0, Or.inl rfl, Or.inr ⟨fun h => h.1 hp, if_pos hp⟩⟩
  have hclock : ∀ u : RegBlock ρ, u.nextSample = s.nextEdge → u.edgeLatency = s.edgeLatency →
      ∃ n, s.edgeDue t ∧ edges t (t + 1) u = u.edge.setNext n ∨
        ¬s.edgeDue t ∧ edges t (t + 1) u = u := by
    intro u hn hl
    rw [edges, hn, hl]
    split_ifs with h
    · obtain ⟨n, h'⟩ := edges_of_edge (s := u) t t
      exact ⟨n, Or.inl ⟨⟨hp, h⟩, h'⟩⟩
    · exact ⟨0, Or.inr ⟨fun h' => h h'.2, rfl⟩⟩
  unfold sampleClock
  rw [if_neg hp]
  by_cases hi : s.sampleInit = true
  · obtain ⟨n, h⟩ := hclock s (if_pos hi).symm rfl
    rw [if_pos hi]
    exact ⟨s, n, Or.inl rfl, h⟩
  · obtain ⟨n, h⟩ := hclock (s.initClock (s.samplePhase % s.samplePeriod)) (if_neg hi).symm rfl
    rw [if_neg hi]
    exact ⟨_, n, Or.inr ⟨_, rfl⟩, h⟩

end Clock

/-! ### What an access may do -/

/-- The effect of an access on the controller, on a register block without a hook. `accept` and
`ack` say whether the access is a write of M with bit 0 set or a read of L. -/
structure Moved (accept ack : Prop) (s t : RegBlock ρ) : Prop where
  quiet : ¬t.ready
  latch : t.e68kOut = true → (s.e68kOut = false ∨ accept) →
    t.e68kL = t.level ∧ t.level ≠ 0 ∧ t.fiq = true
  keep : ¬(t.e68kOut = true ∧ (s.e68kOut = false ∨ accept)) →
    t.e68kL = s.e68kL ∧ (t.fiq = true ↔ s.fiq = true ∧ ¬ack)
  held : s.e68kOut = true → ¬accept → t.e68kOut = true

variable {s}

section Moved

omit [AicaRegs ρ]

/-- An access that leaves the registers and the request alone. -/
lemma moved_of_same {ack : Prop} {t : RegBlock ρ} (hq : ¬s.ready) (hs : t.store = s.store)
    (ho : t.e68kOut = s.e68kOut) (hL : t.e68kL = s.e68kL)
    (hf : t.fiq = true ↔ s.fiq = true ∧ ¬ack) : Moved False ack s t := by
  refine ⟨?_, fun h h' => ?_, fun _ => ⟨hL, hf⟩, fun h _ => ho.trans h⟩
  · simpa only [ready, pend_congr hs, level_congr hs, ho] using hq
  · simp [← ho, h] at h'

/-- `update_interrupts` after the work of an access that does not acknowledge. -/
lemma moved_updateInterrupts {accept : Prop} {u : RegBlock ρ} (hL : u.e68kL = s.e68kL)
    (hf : u.fiq = s.fiq) (ho : u.e68kOut = true ↔ s.e68kOut = true ∧ ¬accept) :
    Moved accept False s u.updateInterrupts := by
  by_cases h : u.ready
  · have hidle : s.e68kOut = false ∨ accept := by
      have : ¬(s.e68kOut = true ∧ ¬accept) := fun h' => by simpa [h.2.1] using ho.mpr h'
      by_cases ha : accept
      · exact Or.inr ha
      · exact Or.inl (Bool.eq_false_iff.mpr fun h' => this ⟨h', ha⟩)
    refine ⟨not_ready_updateInterrupts, ?_, ?_, ?_⟩ <;> rw [updateInterrupts_of_ready h]
    · exact fun _ _ => ⟨rfl, h.2.2, rfl⟩
    · exact fun h' => absurd ⟨rfl, hidle⟩ h'
    · exact fun _ _ => rfl
  · refine ⟨not_ready_updateInterrupts, ?_, ?_, ?_⟩ <;> rw [updateInterrupts_of_not_ready h]
    · -- nothing was latched, so an idle controller is still idle
      intro h' hidle
      obtain ⟨hs, ha⟩ := ho.mp h'
      rcases hidle with h0 | h0
      · exact absurd hs (by simp [h0])
      · exact absurd h0 ha
    · exact fun _ => ⟨hL, by simp [hf]⟩
    · exact fun h1 h2 => ho.mpr ⟨h1, h2⟩

end Moved

lemma perform_regs (hr : s.regs = none) (a : Access) : (s.perform a).regs = none := by
  cases a with
  | read r =>
    simp only [perform, rreg, hr]
    split_ifs <;> exact hr
  | write r v mask =>
    simp only [perform, wreg, hr]
    split_ifs <;> simp [hr]
  | clock t =>
    obtain ⟨u, n, hu, ⟨-, h⟩ | ⟨-, h⟩⟩ := s.sampleClock_eq t
    all_goals
      simp only [perform, h]
      rcases hu with rfl | ⟨_, rfl⟩ <;> simp [edge_eq, marked, hr]
  | dropped => exact hr

/-- SCIPD after a write: ones written to SCIRE clear, a one written to bit 5 sets. -/
def scipdAfter (p : BitVec 16) (a : Access) : BitVec 16 :=
  (p &&& ~~~(a.ones scire)) ||| (a.ones scipd &&& 0x20)

/-- A write to a register other than L and M: some work on the store, then `update_interrupts`. -/
lemma wreg_store (hr : s.regs = none) {r : RegNo} (hL : r ≠ regL) (hM : r ≠ regM)
    (v mask : BitVec 16) : ∃ u : RegBlock ρ, s.wreg r v mask = u.updateInterrupts ∧
      u.e68kL = s.e68kL ∧ u.fiq = s.fiq ∧ u.e68kOut = s.e68kOut ∧
      u.store scipd = scipdAfter (s.store scipd) (.write r v mask) := by
  have hne : scire ≠ scipd := by decide
  have h20 : ∀ w : BitVec 16, w &&& 0x20 = if bit w 5 = true then 0x20 else 0 :=
    fun w => BitVec.and_twoPow w 5
  have hones : ∀ w : BitVec 16, w &&& 65535#16 = w := fun w => BitVec.and_allOnes
  simp only [wreg, hL, hM, hr, if_false]
  refine ⟨_, rfl, ?_, ?_, ?_, ?_⟩
  · split_ifs <;> rfl
  · split_ifs <;> rfl
  · split_ifs <;> rfl
  · have hdirty : ∀ (p : Prop) [Decidable p],
        (if p then s.setDirty true else s).store = s.store := by
      intro p _
      split_ifs <;> rfl
    simp only [scipdAfter, Access.ones, h20]
    by_cases hp : r = scipd
    · subst hp
      rw [if_pos rfl, if_neg hne.symm, if_pos rfl]
      split_ifs with hb <;> simp [hones]
    by_cases hc : r = scire
    · subst hc
      simp [hne, hdirty, bit]
    · simp [hp, hc, hdirty, hones, bit, Function.update_of_ne (Ne.symm hp)]

/-- Every access moves the controller as its kind allows. -/
lemma perform_moved (hq : ¬s.ready) (hr : s.regs = none) (a : Access) :
    Moved a.accepts (a = .read regL) s (s.perform a) := by
  cases a with
  | read r =>
    have hacc : ¬(Access.read r).accepts := by simp [Access.accepts, Access.ones, bit]
    simp only [hacc]
    by_cases hL : r = regL
    · subst hL
      rcases Bool.eq_false_or_eq_true s.fiq with hf | hf <;>
        exact moved_of_same hq (by simp [perform, rreg, hf]) (by simp [perform, rreg, hf])
          (by simp [perform, rreg, hf]) (by simp [perform, rreg, hf])
    · have hsame : s.perform (.read r) = s := by
        simp only [perform, rreg, hr, hL, if_false]
        split_ifs <;> rfl
      rw [hsame]
      exact moved_of_same hq rfl rfl rfl (by simp [hL])
  | write r v mask =>
    have hack : ¬Access.write r v mask = .read regL := Access.noConfusion
    simp only [hack]
    by_cases hM : r = regM
    · subst hM
      by_cases hb : bit (v &&& mask) 0 = true
      · have hacc : (Access.write regM v mask).accepts := by simpa [Access.accepts, Access.ones]
        have hw : s.perform (.write regM v mask) = (s.setOut false).updateInterrupts := by
          simp [perform, wreg, hb, regM, regL, regNo, field]
        rw [hw]
        exact moved_updateInterrupts rfl rfl (by simp [hacc])
      · have hacc : ¬(Access.write regM v mask).accepts := by
          simp [Access.accepts, Access.ones, hb]
        have hw : s.perform (.write regM v mask) = s := by
          simp [perform, wreg, hb]
        rw [hw]
        simp only [hacc]
        exact moved_of_same hq rfl rfl rfl (by simp)
    · have hacc : ¬(Access.write r v mask).accepts := by
        simp [Access.accepts, Access.ones, hM, bit]
      simp only [hacc]
      by_cases hL : r = regL
      · rw [perform, wreg, if_pos hL]
        exact moved_of_same hq rfl rfl rfl (by simp)
      · obtain ⟨u, hw, huL, huf, huo, -⟩ := wreg_store hr hL hM v mask
        rw [perform, hw]
        exact moved_updateInterrupts huL huf (by simp [huo])
  | clock t =>
    have hacc : ¬(Access.clock t).accepts := by simp [Access.accepts, Access.ones, bit]
    have hack : ¬Access.clock t = .read regL := Access.noConfusion
    simp only [hacc, hack]
    obtain ⟨u, n, hu, ⟨-, h⟩ | ⟨-, h⟩⟩ := s.sampleClock_eq t
    · have hm : Moved False False s u.marked.updateInterrupts := moved_updateInterrupts
        (by rcases hu with rfl | ⟨_, rfl⟩ <;> rfl) (by rcases hu with rfl | ⟨_, rfl⟩ <;> rfl)
        (by rcases hu with rfl | ⟨_, rfl⟩ <;> simp [marked])
      rw [perform, h]
      exact ⟨hm.quiet, hm.latch, hm.keep, hm.held⟩
    · rw [perform, h]
      rcases hu with rfl | ⟨_, rfl⟩ <;> exact moved_of_same hq rfl rfl rfl (by simp)
  | dropped =>
    have hacc : ¬Access.dropped.accepts := by simp [Access.accepts, Access.ones, bit]
    have hack : ¬Access.dropped = .read regL := Access.noConfusion
    simp only [hacc, hack]
    exact moved_of_same hq rfl rfl rfl (by simp [perform])

omit [AicaRegs ρ] in
lemma bit_scipdAfter (p : BitVec 16) (a : Access) (i : ℕ) : bit (scipdAfter p a) i =
    (bit p i && !bit (a.ones scire) i || bit (a.ones scipd) i && decide (i = 5)) := by
  have h20 : (0x20 : BitVec 16).getLsbD i = decide (i = 5) := by
    change (BitVec.twoPow 16 5).getLsbD i = _
    rw [BitVec.getLsbD_twoPow]
    simp [eq_comm]
  simp only [bit, scipdAfter, BitVec.getLsbD_or, BitVec.getLsbD_and, BitVec.getLsbD_not, h20]
  by_cases hi : i < 16
  · simp [hi]
  · simp [hi, BitVec.getLsbD_of_ge p i (Nat.le_of_not_lt hi)]

omit [AicaRegs ρ] in
lemma bit_or_400 (p : BitVec 16) (i : ℕ) : bit (p ||| 0x400) i = (bit p i || decide (i = 10)) := by
  have h400 : (0x400 : BitVec 16).getLsbD i = decide (i = 10) := by
    change (BitVec.twoPow 16 10).getLsbD i = _
    rw [BitVec.getLsbD_twoPow]
    simp [eq_comm]
  simp only [bit, BitVec.getLsbD_or, h400]

omit [AicaRegs ρ] in
lemma scipdAfter_of_none {a : Access} (hc : a.ones scire = 0) (hp : a.ones scipd = 0)
    (p : BitVec 16) : scipdAfter p a = p := by
  have hones : p &&& 65535#16 = p := BitVec.and_allOnes
  simp [scipdAfter, hc, hp, hones]

lemma rreg_store (hr : s.regs = none) (r : RegNo) : (s.rreg r).2.store = s.store := by
  simp only [rreg, hr]
  split_ifs <;> rfl

/-- SCIPD after an access; a sample edge sets bit 10. -/
lemma perform_scipd (hr : s.regs = none) (a : Access) :
    (s.perform a).store scipd = scipdAfter (s.store scipd) a ∨
      ∃ t, a = .clock t ∧ s.edgeDue t ∧
        (s.perform a).store scipd = s.store scipd ||| 0x400 := by
  cases a with
  | read r =>
    rw [perform, rreg_store hr, scipdAfter_of_none rfl rfl]
    exact Or.inl rfl
  | write r v mask =>
    refine Or.inl ?_
    have hother : r = regL ∨ r = regM → ∀ p, scipdAfter p (.write r v mask) = p := by
      rintro (rfl | rfl) p <;> exact scipdAfter_of_none rfl rfl p
    rw [perform]
    by_cases hL : r = regL
    · rw [wreg, if_pos hL, hother (Or.inl hL)]
    by_cases hM : r = regM
    · rw [wreg, if_neg hL, if_pos hM, hother (Or.inr hM)]
      split_ifs <;> simp
    · obtain ⟨u, hw, -, -, -, hp⟩ := wreg_store hr hL hM v mask
      rw [hw, updateInterrupts_store, hp]
  | clock t =>
    rw [scipdAfter_of_none rfl rfl, perform]
    obtain ⟨u, n, hu, ⟨hd, h⟩ | ⟨-, h⟩⟩ := s.sampleClock_eq t
    · have hstore : u.store = s.store := by rcases hu with rfl | ⟨_, rfl⟩ <;> rfl
      refine Or.inr ⟨t, rfl, hd, ?_⟩
      rw [h, edge_eq, setNext_store, setNext_store, updateInterrupts_store, marked_store,
        if_pos (Or.inl rfl), hstore]
    · rw [h]
      rcases hu with rfl | ⟨_, rfl⟩ <;> exact Or.inl rfl
  | dropped =>
    rw [scipdAfter_of_none rfl rfl]
    exact Or.inl rfl

/-! ### Runs -/

/-- What holds between any two calls. -/
structure Settled (s : RegBlock ρ) : Prop where
  regs : s.regs = none
  quiet : ¬s.ready
  scipd : ∀ i, i ≠ 5 → i ≠ 10 → bit (s.store scipd) i = false

/-- A call moves the controller as its access does. -/
lemma call_moved (h : s.Settled) (c : Call) :
    Moved c.access.accepts (c.access = .read regL) s (s.call c).2 := by
  obtain ⟨t, ht, hc⟩ := s.call_eq c
  rw [hc]
  rcases ht with rfl | ⟨u, rfl⟩
  · exact perform_moved h.quiet h.regs _
  · have hm := perform_moved (s := s.raiseScpu u) h.quiet h.regs c.access
    exact ⟨hm.quiet, hm.latch, hm.keep, hm.held⟩

lemma call_scipd (h : s.Settled) (c : Call) :
    (s.call c).2.store Wren7.scipd = scipdAfter (s.store Wren7.scipd) c.access ∨
      ∃ t, c.access = .clock t ∧ s.edgeDue t ∧
        (s.call c).2.store Wren7.scipd = s.store Wren7.scipd ||| 0x400 := by
  obtain ⟨t, ht, hc⟩ := s.call_eq c
  rw [hc]
  rcases ht with rfl | ⟨_, rfl⟩
  · exact perform_scipd h.regs _
  · exact perform_scipd (s := s.raiseScpu _) h.regs _

lemma Settled.call (h : s.Settled) (c : Call) : (s.call c).2.Settled := by
  refine ⟨?_, (call_moved h c).quiet, fun i h5 h10 => ?_⟩
  · obtain ⟨t, ht, hc⟩ := s.call_eq c
    rw [hc]
    rcases ht with rfl | ⟨u, rfl⟩
    · exact perform_regs h.regs _
    · exact perform_regs (s := s.raiseScpu u) h.regs _
  · rcases call_scipd h c with hp | ⟨-, -, -, hp⟩
    · rw [hp, bit_scipdAfter]
      simp [h.scipd i h5 h10, h5]
    · rw [hp, bit_or_400]
      simp [h.scipd i h5 h10, h10]

omit [AicaRegs ρ] in
lemma settled_new (period phase latency : ℕ) (core : Option Bool) :
    (new period phase latency core : RegBlock ρ).Settled where
  regs := rfl
  quiet := fun h => h.1 (by simp [pend, new])
  scipd := fun i _ _ => by simp [bit, new]

variable {ops : ℕ → Call}

lemma settled_after (h : s.Settled) (n : ℕ) : (calls.after s ops n).Settled :=
  Machine.invariant h (fun n h => h.call (ops n)) n

/-- The call at position `n` of a run latches a request. -/
def latchesAt (s : RegBlock ρ) (ops : ℕ → Call) (n : ℕ) : Prop :=
  (calls.after s ops n).latches (ops n)

/-- Between two latchings the service of the first ended. -/
lemma accepts_between (h : s.Settled) {m n : ℕ} (hmn : m < n) (hm : latchesAt s ops m)
    (hn : latchesAt s ops n) : ∃ j, m < j ∧ j ≤ n ∧ (ops j).access.accepts := by
  by_contra hno
  have hheld : ∀ j, m < j → j ≤ n → (calls.after s ops j).e68kOut = true := by
    intro j hj
    induction j, hj using Nat.le_induction with
    | base => exact fun _ => hm.1
    | succ j hj ih =>
      intro hjn
      exact (call_moved (settled_after h j) (ops j)).held (ih (by omega))
        fun ha => hno ⟨j, hj, by omega, ha⟩
  rcases hn.2 with h0 | ha
  · simp [hheld n hmn (le_refl n)] at h0
  · exact hno ⟨n, hmn, le_refl n, ha⟩

/-- While a request is held or nFIQ is asserted, L is the level of the last latching. -/
lemma exists_latch (period phase latency : ℕ) (core : Option Bool) (n : ℕ) :
    let s : ℕ → RegBlock ρ := calls.after (new period phase latency core) ops
    (s n).e68kOut = true ∨ (s n).fiq = true →
      ∃ m < n, (s m).latches (ops m) ∧ (∀ j, m < j → j < n → ¬(s j).latches (ops j)) ∧
        (s (m + 1)).level ≠ 0 ∧ (s n).e68kL = (s (m + 1)).level := by
  intro s
  induction n with
  | zero => exact fun h => Bool.noConfusion (h.elim id id)
  | succ n ih =>
    intro hon
    have hset : (s n).Settled := settled_after (settled_new period phase latency core) n
    have hmove := call_moved hset (ops n)
    by_cases hl : (s n).latches (ops n)
    · obtain ⟨hL, hne, -⟩ := hmove.latch hl.1 hl.2
      exact ⟨n, Nat.lt_succ_self n, hl, fun j h h' => absurd h' (by omega), hne, hL⟩
    · obtain ⟨hL, hf⟩ := hmove.keep hl
      have hon' : (s n).e68kOut = true ∨ (s n).fiq = true := by
        rcases hon with h | h
        · exact Or.inl (by_contra fun h' => hl ⟨h, Or.inl (Bool.eq_false_iff.mpr h')⟩)
        · exact Or.inr (hf.mp h).1
      obtain ⟨m, hm, hml, hlast, hne, hmL⟩ := ih hon'
      refine ⟨m, by omega, hml, fun j hj hjn => ?_, hne, hL.trans hmL⟩
      rcases Nat.lt_succ_iff_lt_or_eq.mp hjn with h | rfl
      · exact hlast j hj h
      · exact hl

/-- The handshake over whole runs. A controller that is idle after a call has nothing to latch; a
request is latched only after the one before was accepted; nFIQ rises with a latching and falls with
a read of L; while a request is held or nFIQ is asserted, L reads the level that the registers gave
when the last request was latched; and SCIPD has bits 5 and 10 only, set by their own sources and
cleared through SCIRE. -/
theorem handshake (period phase latency : ℕ) (core : Option Bool) (ops : ℕ → Call) (n : ℕ) :
    let s : ℕ → RegBlock ρ := calls.after (new period phase latency core) ops
    ((s n).e68kOut = false → (s n).pend = 0 ∨ (s n).level = 0) ∧
    (∀ m < n, (s m).latches (ops m) → (s n).latches (ops n) →
      ∃ j, m < j ∧ j ≤ n ∧ (ops j).access.accepts) ∧
    ((s n).fiq = false → (s (n + 1)).fiq = true → (s n).latches (ops n)) ∧
    ((s n).fiq = true → (s (n + 1)).fiq = false → (ops n).access = .read regL) ∧
    ((s n).e68kOut = true ∨ (s n).fiq = true →
      ∃ m < n, (s m).latches (ops m) ∧ (∀ j, m < j → j < n → ¬(s j).latches (ops j)) ∧
        (s (m + 1)).level ≠ 0 ∧ ((s n).rreg regL).1 = (s (m + 1)).level.setWidth 16) ∧
    (∀ i, bit ((s n).store scipd) i = true → i = 5 ∨ i = 10) ∧
    (∀ i, bit ((s n).store scipd) i = false → bit ((s (n + 1)).store scipd) i = true →
      i = 5 ∧ bit ((ops n).access.ones scipd) 5 = true ∨
        i = 10 ∧ ∃ t, (ops n).access = .clock t ∧ (s n).edgeDue t) ∧
    (∀ i, bit ((s n).store scipd) i = true → bit ((s (n + 1)).store scipd) i = false →
      bit ((ops n).access.ones scire) i = true) := by
  intro s
  have hset : ∀ n, (s n).Settled := settled_after (settled_new period phase latency core)
  have hmove := call_moved (hset n) (ops n)
  refine ⟨fun hidle => ?_, fun m hm => accepts_between (settled_new period phase latency core) hm,
    fun h0 h1 => ?_, fun h1 h0 => ?_, fun hon => ?_, fun i hi => ?_, fun i h0 h1 => ?_,
    fun i h1 h0 => ?_⟩
  · by_contra hno
    rw [not_or] at hno
    exact (hset n).quiet ⟨hno.1, hidle, hno.2⟩
  · by_contra hl
    have := ((hmove.keep hl).2.mp h1).1
    simp [h0] at this
  · by_contra hread
    have hstays : (s (n + 1)).fiq = true := by
      by_cases hl : (s n).latches (ops n)
      · exact (hmove.latch hl.1 hl.2).2.2
      · exact (hmove.keep hl).2.mpr ⟨h1, hread⟩
    simp [h0] at hstays
  · obtain ⟨m, hm, hml, hlast, hne, hL⟩ :=
      exists_latch (ρ := ρ) period phase latency core n hon
    refine ⟨m, hm, hml, hlast, hne, ?_⟩
    rw [← hL]
    rfl
  · by_contra hno
    rw [not_or] at hno
    simp [(hset n).scipd i hno.1 hno.2] at hi
  · rcases call_scipd (hset n) (ops n) with hp | ⟨t, ht, hd, hp⟩
    · have h : bit (scipdAfter ((s n).store scipd) (ops n).access) i = true := hp ▸ h1
      rw [bit_scipdAfter, h0] at h
      simp at h
      exact Or.inl ⟨h.2, h.2 ▸ h.1⟩
    · have h : bit ((s n).store scipd ||| 0x400) i = true := hp ▸ h1
      rw [bit_or_400, h0] at h
      exact Or.inr ⟨by simpa using h, t, ht, hd⟩
  · rcases call_scipd (hset n) (ops n) with hp | ⟨t, ht, hd, hp⟩
    · have h : bit (scipdAfter ((s n).store scipd) (ops n).access) i = false := hp ▸ h0
      rw [bit_scipdAfter, h1, Bool.or_eq_false_iff] at h
      simpa using h.1
    · have h : bit ((s n).store scipd ||| 0x400) i = false := hp ▸ h0
      rw [bit_or_400, h1] at h
      simp at h

/-- The sample interval, enabled with level 1: the edge at time 0 is latched. -/
example : letI : AicaRegs Unit := ⟨fun h _ => (0, h), fun h _ _ _ => h⟩
    (calls.after (new 512 0 0 none : RegBlock Unit)
      (fun n => [Call.regWrite 0x289C 0x400, .regWrite 0x28A8 0x80].getD n (.tick 0))
      3).e68kL = 1 := by
  decide

end RegBlock

end Wren7
