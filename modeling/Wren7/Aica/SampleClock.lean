import Wren7.Aica.Harness

/-!
# The sample clock and its request

The edges of the sample clock come at fixed times, though they are looked for only when a cycle or a
tick calls the clock. With the sample interval's request enabled, the controller holds a request as
soon as the first call after an edge.
-/

namespace Wren7

open Bits

namespace RegBlock

variable {ρ : Type*} {s : RegBlock ρ} {t τ e k : ℕ}

/-- The time of a sample edge. -/
def edgeTime (s : RegBlock ρ) (k : ℕ) : ℕ := s.samplePhase % s.samplePeriod + k * s.samplePeriod

/-- A sample edge lies at a time. -/
def SampleEdge (s : RegBlock ρ) (t : ℕ) : Prop := s.samplePeriod ≠ 0 ∧ ∃ k, t = s.edgeTime k

/-- The clock waits for one of its edges, and the ones before it are not in the future. -/
def ClockOk (s : RegBlock ρ) (τ : ℕ) : Prop :=
  ∃ k, s.nextEdge = s.edgeTime k ∧ ∀ j < k, s.edgeTime j ≤ τ

lemma clockOk_new (period phase latency : ℕ) (core : Option Bool) (τ : ℕ) :
    (new period phase latency core : RegBlock ρ).ClockOk τ :=
  ⟨0, by simp [nextEdge, edgeTime, new], fun _ h => absurd h (Nat.not_lt_zero _)⟩

lemma ClockOk.mono (h : s.ClockOk τ) (ht : τ ≤ t) : s.ClockOk t := by
  obtain ⟨k, hk, hj⟩ := h
  exact ⟨k, hk, fun j hjk => Nat.le_trans (hj j hjk) ht⟩

/-- What the clock's loop leaves of the clock itself. -/
structure SameClock (s t : RegBlock ρ) : Prop where
  period : t.samplePeriod = s.samplePeriod
  phase : t.samplePhase = s.samplePhase
  latency : t.edgeLatency = s.edgeLatency
  init : t.sampleInit = s.sampleInit

lemma SameClock.trans {u v : RegBlock ρ} (h : SameClock s u) (h' : SameClock u v) : SameClock s v :=
  ⟨h'.period.trans h.period, h'.phase.trans h.phase, h'.latency.trans h.latency,
    h'.init.trans h.init⟩

lemma sameClock_updateInterrupts :
    SameClock s s.updateInterrupts ∧ s.updateInterrupts.nextSample = s.nextSample := by
  unfold updateInterrupts
  split_ifs <;> exact ⟨⟨rfl, rfl, rfl, rfl⟩, rfl⟩

lemma sameClock_edge : SameClock s s.edge ∧ s.edge.nextSample = s.nextSample + s.samplePeriod := by
  obtain ⟨hc, hn⟩ := sameClock_updateInterrupts (s := s.marked)
  refine ⟨⟨hc.period, hc.phase, hc.latency, hc.init⟩, ?_⟩
  rw [edge_eq, setNext_nextSample, hn, hc.period]
  rfl

lemma edges_clock (fuel : ℕ) (s : RegBlock ρ) : SameClock s (edges t fuel s) ∧
    ∃ k ≤ fuel, (edges t fuel s).nextSample = s.nextSample + k * s.samplePeriod ∧
      (∀ j < k, s.nextSample + j * s.samplePeriod ≤ t) ∧
      (k = fuel ∨ t < (edges t fuel s).nextSample + s.edgeLatency) := by
  induction fuel generalizing s with
  | zero => exact ⟨⟨rfl, rfl, rfl, rfl⟩, 0, Nat.le_refl 0, by simp [edges], by omega, .inl rfl⟩
  | succ fuel ih =>
    rw [edges]
    split_ifs with hdue
    · obtain ⟨hc, hn⟩ := sameClock_edge (s := s)
      obtain ⟨hc', k, hk, hn', hj, hend⟩ := ih s.edge
      rw [hn, hc.period] at hn' hj
      rw [hc.latency] at hend
      refine ⟨hc.trans hc', k + 1, by omega, by rw [hn', Nat.succ_mul]; omega, fun j hjk => ?_,
        hend.imp_left (congrArg _)⟩
      cases j with
      | zero => omega
      | succ j =>
        have := hj j (by omega)
        rw [Nat.succ_mul]
        omega
    · exact ⟨⟨rfl, rfl, rfl, rfl⟩, 0, Nat.zero_le _, by simp, by omega, .inr (by omega)⟩

/-- A call of the clock keeps its schedule, and leaves no edge behind that is due. -/
lemma sampleClock_clock (h : s.ClockOk τ) (ht : t ≤ τ) :
    (s.sampleClock t).ClockOk τ ∧ (s.sampleClock t).samplePeriod = s.samplePeriod ∧
      (s.sampleClock t).samplePhase = s.samplePhase ∧
      (s.sampleClock t).edgeLatency = s.edgeLatency ∧
      (s.samplePeriod ≠ 0 → t < (s.sampleClock t).nextEdge + s.edgeLatency) := by
  unfold sampleClock
  by_cases hp : s.samplePeriod = 0
  · rw [if_pos hp]
    exact ⟨h, rfl, rfl, rfl, fun h' => absurd hp h'⟩
  rw [if_neg hp]
  obtain ⟨k, hk, hj⟩ := h
  have hu : ∃ u : RegBlock ρ, (if s.sampleInit = true then s
      else s.initClock (s.samplePhase % s.samplePeriod)) = u ∧ u.nextSample = s.nextEdge ∧
      u.sampleInit = true ∧ u.samplePeriod = s.samplePeriod ∧ u.samplePhase = s.samplePhase ∧
      u.edgeLatency = s.edgeLatency := by
    unfold nextEdge
    split_ifs with hi
    · exact ⟨s, rfl, rfl, hi, rfl, rfl, rfl⟩
    · exact ⟨_, rfl, rfl, rfl, rfl, rfl, rfl⟩
  obtain ⟨u, he, hn, hi, hper, hph, hl⟩ := hu
  dsimp only
  rw [he]
  obtain ⟨hc, m, hm, hnext, hdue, hend⟩ := edges_clock (t := t) (t + 1) u
  have hper' := hc.period.trans hper
  have hph' := hc.phase.trans hph
  have hnx : (edges t (t + 1) u).nextEdge = (edges t (t + 1) u).nextSample :=
    if_pos (hc.init.trans hi)
  have htime : ∀ j, (edges t (t + 1) u).edgeTime j = s.edgeTime j := fun j => by
    rw [edgeTime, edgeTime, hper', hph']
  refine ⟨⟨k + m, ?_, fun j hjk => ?_⟩, hper', hph', hc.latency.trans hl, fun _ => ?_⟩
  · rw [hnx, htime, hnext, hn, hk, hper, edgeTime, edgeTime, Nat.add_mul]
    omega
  · rw [htime]
    rcases Nat.lt_or_ge j k with hjk' | hjk'
    · exact hj j hjk'
    · obtain ⟨i, rfl⟩ := Nat.exists_eq_add_of_le hjk'
      have := hdue i (by omega)
      rw [hn, hk, hper, edgeTime] at this
      rw [edgeTime, Nat.add_mul]
      omega
  · rw [hnx, ← hl]
    refine hend.elim (fun hfuel => ?_) id
    have hpos : 0 < u.samplePeriod := hper ▸ Nat.pos_of_ne_zero hp
    have : t + 1 ≤ (t + 1) * u.samplePeriod := Nat.le_mul_of_pos_right _ hpos
    rw [hfuel] at hnext
    omega

/-- Without an edge, the clock at most starts. -/
lemma sampleClock_nextEdge_of_not_due (h : ¬s.edgeDue t) :
    (s.sampleClock t).nextEdge = s.nextEdge := by
  unfold sampleClock
  by_cases hp : s.samplePeriod = 0
  · rw [if_pos hp]
  have hlt : ¬s.nextEdge + s.edgeLatency ≤ t := fun hle => h ⟨hp, hle⟩
  rw [if_neg hp]
  dsimp only
  unfold nextEdge at hlt ⊢
  by_cases hi : s.sampleInit = true
  · rw [if_pos hi] at hlt ⊢
    rw [if_pos hi, edges, if_neg hlt, if_pos hi]
  · rw [if_neg hi] at hlt ⊢
    rw [if_neg hi, edges, initClock_nextSample, initClock_edgeLatency, if_neg hlt]
    rfl

/-- After a call of the clock, the next edge is the first one after the call. -/
lemma exists_edge_iff {t₁ : ℕ} (h : s.ClockOk t) (hl : s.edgeLatency = 0)
    (hlt : s.samplePeriod ≠ 0 → t < s.nextEdge + s.edgeLatency) :
    (∃ g, t < g ∧ g ≤ t₁ ∧ s.SampleEdge g) ↔ s.samplePeriod ≠ 0 ∧ s.nextEdge ≤ t₁ := by
  obtain ⟨k, hk, hj⟩ := h
  constructor
  · rintro ⟨g, hg, hg', hp, j, rfl⟩
    have hkj : k ≤ j := by
      by_contra hjk
      have := hj j (by omega)
      omega
    have : k * s.samplePeriod ≤ j * s.samplePeriod := Nat.mul_le_mul_right _ hkj
    refine ⟨hp, ?_⟩
    rw [hk]
    rw [edgeTime] at hg' ⊢
    omega
  · rintro ⟨hp, hle⟩
    exact ⟨s.nextEdge, by have := hlt hp; omega, hle, hp, k, hk⟩

/-! ### The request of the sample interval -/

/-- The registers of the interrupt controller. -/
def intReg (r : RegNo) : Prop :=
  r = regL ∨ r = regM ∨ r = scieb ∨ r = scipd ∨ r = scire ∨ r = scilv0 ∨ r = scilv0 + 1 ∨
    r = scilv0 + 2

end RegBlock

/-- An access of one of them. -/
def Access.interrupts : Access → Prop
  | .read r => RegBlock.intReg r
  | .write r _ _ => RegBlock.intReg r
  | .clock _ => False
  | .dropped => False

/-- Only a tick calls the clock. -/
lemma call_of_clock {c : Call} {t : ℕ} (h : c.access = .clock t) : c = .tick t := by
  cases c with
  | arm c =>
    rw [Call.access] at h
    split_ifs at h
  | regRead off => cases h
  | regWrite off v => cases h
  | tick t' => cases h; rfl

namespace RegBlock

variable {ρ : Type*} {s : RegBlock ρ} {t τ e k p : ℕ}

/-- The request of the sample interval is the only one enabled, and has a level. -/
structure Enabled (s : RegBlock ρ) (p : ℕ) : Prop where
  regs : s.regs = none
  period : s.samplePeriod = p
  latency : s.edgeLatency = 0
  scieb : s.store scieb = 0x400
  level : bit (s.store scilv0) 7 = true ∨ bit (s.store (scilv0 + 1)) 7 = true ∨
    bit (s.store (scilv0 + 2)) 7 = true

/-- The controller is idle, and waits for the edge at `e`. -/
structure Waits (s : RegBlock ρ) (p e : ℕ) : Prop extends s.Enabled p where
  e68kOut : s.e68kOut = false
  fiq : s.fiq = false
  scipd : bit (s.store scipd) 10 = false
  nextEdge : s.nextEdge = e

/-- The controller holds the request, and drives nFIQ. -/
structure Holds (s : RegBlock ρ) (p : ℕ) : Prop extends s.Enabled p where
  e68kOut : s.e68kOut = true
  fiq : s.fiq = true

lemma Enabled.pend (h : s.Enabled p) : s.pend = if bit (s.store Wren7.scipd) 10 then 0x400 else 0 := by
  rw [RegBlock.pend, h.scieb]
  generalize s.store Wren7.scipd = w
  have hw : (0x400 : BitVec 16) &&& w = if bit w 10 then 0x400 else 0 := by
    rw [BitVec.and_comm]
    exact BitVec.and_twoPow w 10
  rw [hw]
  split_ifs <;> rfl

/-- The request's level. -/
lemma Enabled.level_ne (h : s.Enabled p) (hp : s.pend = 0x400) : s.level ≠ 0 := by
  have hb : levelBit s.pend = 7 := by rw [hp]; decide
  have hbits : ∀ x y z : Bool, x = true ∨ y = true ∨ z = true →
      maskIf x (1 : Word) ||| maskIf y 2 ||| maskIf z 4 ≠ 0 := by decide
  rw [RegBlock.level, hb]
  exact hbits _ _ _ h.level

lemma Waits.not_ready (h : s.Waits p e) : ¬s.ready := fun hr =>
  hr.1 (by rw [h.pend, h.scipd]; rfl)

lemma Holds.not_ready (h : s.Holds p) : ¬s.ready := fun hr =>
  Bool.noConfusion (h.e68kOut.symm.trans hr.2.1)

lemma Waits.update (h : s.Waits p e) : s.updateInterrupts.Waits p e := by
  rw [updateInterrupts_of_not_ready h.not_ready]
  exact { h with }

lemma Holds.update (h : s.Holds p) : s.updateInterrupts.Holds p := by
  rw [updateInterrupts_of_not_ready h.not_ready]
  exact { h with }

/-- The flags that play no part. -/
lemma Waits.setDirty (h : s.Waits p e) (d : Bool) : (s.setDirty d).Waits p e := { h with }

lemma Holds.setDirty (h : s.Holds p) (d : Bool) : (s.setDirty d).Holds p := { h with }

/-- A change of a register that is none of the controller's. -/
lemma Enabled.setReg (h : s.Enabled p) {r : RegNo} (hr : ¬intReg r) (v : BitVec 16) :
    (s.setReg r v).Enabled p := by
  simp only [intReg, not_or] at hr
  obtain ⟨-, -, h1, h2, h3, h4, h5, h6⟩ := hr
  refine ⟨h.regs, h.period, h.latency, ?_, ?_⟩
  · rw [setReg_store, Function.update_of_ne (Ne.symm h1), h.scieb]
  · rw [setReg_store, Function.update_of_ne (Ne.symm h4),
      Function.update_of_ne (Ne.symm h5), Function.update_of_ne (Ne.symm h6)]
    exact h.level

lemma Waits.setReg (h : s.Waits p e) {r : RegNo} (hr : ¬intReg r) (v : BitVec 16) :
    (s.setReg r v).Waits p e := by
  refine { h.toEnabled.setReg hr v with
    e68kOut := h.e68kOut, fiq := h.fiq, scipd := ?_, nextEdge := h.nextEdge }
  rw [setReg_store, Function.update_of_ne fun he => hr (.inr (.inr (.inr (.inl he.symm)))), h.scipd]

lemma Holds.setReg (h : s.Holds p) {r : RegNo} (hr : ¬intReg r) (v : BitVec 16) :
    (s.setReg r v).Holds p := { h.toEnabled.setReg hr v with e68kOut := h.e68kOut, fiq := h.fiq }

/-- The edge latches the request. -/
lemma Waits.edge (h : s.Waits p e) : s.edge.Holds p := by
  have hm : s.marked.Enabled p := by
    refine ⟨h.regs, h.period, h.latency, ?_, ?_⟩
    · rw [marked_store, if_neg (by decide), h.scieb]
    · rw [marked_store, marked_store, marked_store, if_neg (by decide), if_neg (by decide),
        if_neg (by decide)]
      exact h.level
  have hp : s.marked.pend = 0x400 := by
    have hbit : bit (s.marked.store Wren7.scipd) 10 = true := by
      rw [marked_store, if_pos (Or.inl rfl), bit_or_400]
      simp
    rw [hm.pend, if_pos hbit]
  have hr : s.marked.ready := ⟨by rw [hp]; decide, h.e68kOut, hm.level_ne hp⟩
  rw [edge_eq, updateInterrupts_of_ready hr]
  exact { hm with e68kOut := rfl, fiq := rfl }

lemma Holds.edge (h : s.Holds p) : s.edge.Holds p := by
  have hm : s.marked.Holds p := by
    refine ⟨⟨h.regs, h.period, h.latency, ?_, ?_⟩, h.e68kOut, h.fiq⟩
    · rw [marked_store, if_neg (by decide), h.scieb]
    · rw [marked_store, marked_store, marked_store, if_neg (by decide), if_neg (by decide),
        if_neg (by decide)]
      exact h.level
  rw [edge_eq]
  exact { hm.update with }

/-- Before the edge the clock changes nothing that matters; after it, the request is held. -/
lemma Waits.sampleClock (h : s.Waits p e) (t : ℕ) :
    if p ≠ 0 ∧ e ≤ t then (s.sampleClock t).Holds p else (s.sampleClock t).Waits p e := by
  have hdue : s.edgeDue t ↔ p ≠ 0 ∧ e ≤ t := by
    rw [edgeDue, h.nextEdge, h.latency, Nat.add_zero, h.period]
  obtain ⟨u, n, hu, ⟨hd, he⟩ | ⟨hd, he⟩⟩ := sampleClock_eq (s := s) t
  · rw [if_pos (hdue.mp hd), he]
    have hw : u.Waits p u.nextEdge := by
      rcases hu with rfl | ⟨_, rfl⟩
      · exact { h with nextEdge := rfl }
      · exact { h with nextEdge := rfl }
    exact { hw.edge with }
  · have hn := sampleClock_nextEdge_of_not_due hd
    rw [if_neg fun hd' => hd (hdue.mpr hd')]
    rw [he] at hn ⊢
    rcases hu with rfl | ⟨_, rfl⟩
    · exact h
    · exact { h with nextEdge := hn.trans h.nextEdge }

lemma Holds.sampleClock (h : s.Holds p) (t : ℕ) : (s.sampleClock t).Holds p := by
  obtain ⟨u, n, hu, ⟨-, he⟩ | ⟨-, he⟩⟩ := sampleClock_eq (s := s) t
  · have hw : u.Holds p := by rcases hu with rfl | ⟨_, rfl⟩ <;> exact { h with }
    rw [he]
    exact { hw.edge with }
  · rw [he]
    rcases hu with rfl | ⟨_, rfl⟩ <;> exact { h with }

/-! ### Calls that leave the controller's registers alone -/

variable [AicaRegs ρ] {P : RegBlock ρ → Prop}

omit [AicaRegs ρ] in
/-- A property that only the controller's registers and the clock decide. -/
structure Stable (P : RegBlock ρ → Prop) : Prop where
  regs : ∀ u, P u → u.regs = none
  raise : ∀ u t, P u → P (u.raiseScpu t)
  dirty : ∀ u d, P u → P (u.setDirty d)
  reg : ∀ u r v, ¬intReg r → P u → P (u.setReg r v)
  update : ∀ u, P u → P u.updateInterrupts

omit [AicaRegs ρ] in
lemma stable_waits (p e : ℕ) : Stable fun u : RegBlock ρ => u.Waits p e where
  regs _ h := h.regs
  raise _ _ h := { h with }
  dirty _ d h := h.setDirty d
  reg _ _ v hr h := h.setReg hr v
  update _ h := h.update

omit [AicaRegs ρ] in
lemma stable_holds (p : ℕ) : Stable fun u : RegBlock ρ => u.Holds p where
  regs _ h := h.regs
  raise _ _ h := { h with }
  dirty _ d h := h.setDirty d
  reg _ _ v hr h := h.setReg hr v
  update _ h := h.update

lemma Stable.wreg (hP : Stable P) (h : P s) {r : RegNo} (hr : ¬intReg r) (v mask : BitVec 16) :
    P (s.wreg r v mask) := by
  have hr' := hr
  simp only [intReg, not_or] at hr'
  obtain ⟨hL, hM, -, hp, hsc, -⟩ := hr'
  unfold RegBlock.wreg
  rw [if_neg hL, if_neg hM, hP.regs s h]
  dsimp only
  rw [if_neg hp, if_neg hsc]
  split_ifs
  · exact hP.update _ (hP.reg _ _ _ hr (hP.dirty s true h))
  · exact hP.update _ (hP.reg _ _ _ hr h)

lemma Stable.rreg (hP : Stable P) (h : P s) {r : RegNo} (hr : ¬intReg r) : P (s.rreg r).2 := by
  unfold RegBlock.rreg
  rw [if_neg fun he => hr (.inl he), hP.regs s h]
  split_ifs <;> exact h

/-- A call that accesses none of the controller's registers. -/
lemma Stable.call (hP : Stable P) (h : P s) {c : Call} (hc : ¬c.access.interrupts)
    (ht : ∀ t, c = .tick t → P (s.sampleClock t)) : P (s.call c).2 := by
  obtain ⟨u, hu, he⟩ := call_eq s c
  have hw : P u := by
    rcases hu with rfl | ⟨_, rfl⟩
    · exact h
    · exact hP.raise s _ h
  by_cases htick : ∃ t, c = .tick t
  · obtain ⟨t, rfl⟩ := htick
    exact ht t rfl
  rw [he]
  cases ha : c.access with
  | read r => exact hP.rreg hw (by rwa [ha] at hc)
  | write r v mask => exact hP.wreg hw (by rwa [ha] at hc) v mask
  | clock t => exact absurd ⟨t, call_of_clock ha⟩ htick
  | dropped => exact hw

/-! ### Calls other than the clock's -/

lemma wreg_clock (r : RegNo) (v mask : BitVec 16) :
    SameClock s (s.wreg r v mask) ∧ (s.wreg r v mask).nextSample = s.nextSample := by
  have hupd (u : RegBlock ρ) (h : SameClock s u ∧ u.nextSample = s.nextSample) :
      SameClock s u.updateInterrupts ∧ u.updateInterrupts.nextSample = s.nextSample :=
    ⟨h.1.trans sameClock_updateInterrupts.1, sameClock_updateInterrupts.2.trans h.2⟩
  unfold wreg
  by_cases hL : r = regL
  · rw [if_pos hL]
    exact ⟨⟨rfl, rfl, rfl, rfl⟩, rfl⟩
  rw [if_neg hL]
  by_cases hM : r = regM
  · rw [if_pos hM]
    split_ifs
    · exact hupd _ ⟨⟨rfl, rfl, rfl, rfl⟩, rfl⟩
    · exact ⟨⟨rfl, rfl, rfl, rfl⟩, rfl⟩
  rw [if_neg hM]
  split <;> refine hupd _ ?_
  · exact ⟨⟨rfl, rfl, rfl, rfl⟩, rfl⟩
  · split_ifs <;> exact ⟨⟨rfl, rfl, rfl, rfl⟩, rfl⟩

lemma rreg_clock (r : RegNo) :
    SameClock s (s.rreg r).2 ∧ (s.rreg r).2.nextSample = s.nextSample := by
  unfold rreg
  split_ifs
  · exact ⟨⟨rfl, rfl, rfl, rfl⟩, rfl⟩
  · exact ⟨⟨rfl, rfl, rfl, rfl⟩, rfl⟩
  · exact ⟨⟨rfl, rfl, rfl, rfl⟩, rfl⟩
  · exact ⟨⟨rfl, rfl, rfl, rfl⟩, rfl⟩
  · split <;> exact ⟨⟨rfl, rfl, rfl, rfl⟩, rfl⟩

/-- Only the clock itself moves the clock. -/
lemma call_clock {c : Call} (hc : ∀ t, c ≠ .tick t) :
    SameClock s (s.call c).2 ∧ (s.call c).2.nextSample = s.nextSample := by
  obtain ⟨u, hu, he⟩ := call_eq s c
  have hs : SameClock s u ∧ u.nextSample = s.nextSample := by
    rcases hu with rfl | ⟨_, rfl⟩ <;> exact ⟨⟨rfl, rfl, rfl, rfl⟩, rfl⟩
  rw [he]
  cases ha : c.access with
  | read r => exact ⟨hs.1.trans (rreg_clock r).1, (rreg_clock r).2.trans hs.2⟩
  | write r v mask => exact ⟨hs.1.trans (wreg_clock r v mask).1, (wreg_clock r v mask).2.trans hs.2⟩
  | clock t => exact absurd (call_of_clock ha) (hc t)
  | dropped => exact hs

end RegBlock

end Wren7
