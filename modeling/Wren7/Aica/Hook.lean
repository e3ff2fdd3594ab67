import Wren7.Aica.Handshake

/-!
# The register hook

A register block of the harness with the rules of the internal store, in the place of it, against the
internal store itself: the same calls on two configurations.
-/

namespace Wren7

open Bits Reactive

/-- A register block that stores what the internal store would. -/
structure RegStore where
  store : RegNo → BitVec 16 := fun _ => 0

/-- The rules of the internal store for a write. -/
def writeRules (f : RegNo → BitVec 16) (r : RegNo) (v mask : BitVec 16) : RegNo → BitVec 16 :=
  if r = scipd then if bit (v &&& mask) 5 then Function.update f scipd (f scipd ||| 0x20) else f
  else if r = scire then Function.update f scipd (f scipd &&& ~~~(v &&& mask))
  else Function.update f r ((f r &&& ~~~mask) ||| (v &&& mask))

instance : AicaRegs RegStore where
  read16 h r := (h.store r, h)
  write16 h r v mask := { store := writeRules h.store r v mask }

/-- The bits that a sample edge sets: they may differ, since it sets them in the internal store. -/
def edgeBit (r : RegNo) (i : ℕ) : Prop := i = 10 ∧ (r = scipd ∨ r = mcipd)

/-- Two register files that differ in these bits only. -/
def Near (f g : RegNo → BitVec 16) : Prop := ∀ r i, ¬edgeBit r i → bit (g r) i = bit (f r) i

lemma Near.write {f g : RegNo → BitVec 16} (h : Near f g) (r : RegNo) (v mask : BitVec 16) :
    Near (writeRules f r v mask) (writeRules g r v mask) := by
  intro r' i hi
  have h' := h r' i hi
  unfold writeRules
  split_ifs with hp hb hc
  · by_cases hr : r' = scipd
    · subst hr
      simpa [bit] using congrArg (· || _) h'
    · simpa [Function.update_of_ne hr] using h'
  · exact h'
  · by_cases hr : r' = scipd
    · subst hr
      simp only [bit, Function.update_self, BitVec.getLsbD_and] at h' ⊢
      rw [h']
    · simpa [Function.update_of_ne hr] using h'
  · by_cases hr : r' = r
    · subst hr
      simp only [bit, Function.update_self, BitVec.getLsbD_or, BitVec.getLsbD_and] at h' ⊢
      rw [h']
    · simpa [Function.update_of_ne hr] using h'

namespace RegBlock

/-! ### What the clock and the controller's updates leave alone -/

section Frame

variable {ρ : Type*} (s : RegBlock ρ)

/-- The sample clock of a register block. -/
def clockOf : ℕ × ℕ × ℕ × ℕ × Bool :=
  (s.samplePeriod, s.samplePhase, s.edgeLatency, s.nextSample, s.sampleInit)

lemma updateInterrupts_clockOf : s.updateInterrupts.clockOf = s.clockOf := by
  unfold updateInterrupts
  split_ifs <;> rfl

lemma edgeDue_congr {s t : RegBlock ρ} (h : t.clockOf = s.clockOf) (n : ℕ) :
    t.edgeDue n ↔ s.edgeDue n := by
  simp only [clockOf, Prod.mk.injEq] at h
  obtain ⟨h1, h2, h3, h4, h5⟩ := h
  simp only [edgeDue, nextEdge, h1, h2, h3, h4, h5]

end Frame

/-! ### The two configurations -/

/-- The internal store `s` and the hook's `t` after the same calls: the registers and the clocks agree. The
hook's configuration has no request in its internal store, and so none in its controller. -/
structure Hooked (s t : RegBlock RegStore) (h : RegStore) : Prop where
  internal : s.regs = none
  hook : t.regs = some h
  near : Near s.store h.store
  clock : t.clockOf = s.clockOf
  scieb : t.store Wren7.scieb = 0
  fiq : t.fiq = false
  out : t.e68kOut = false
  level : t.e68kL = 0

namespace Hooked

variable {s t : RegBlock RegStore} {h : RegStore} (H : Hooked s t h)

include H

lemma not_ready : ¬t.ready := fun h => h.1 (by simp [pend, H.scieb])

lemma updateInterrupts : Hooked s.updateInterrupts t.updateInterrupts h := by
  rw [updateInterrupts_of_not_ready H.not_ready]
  exact ⟨by rw [updateInterrupts_regs, H.internal], H.hook, by rw [updateInterrupts_store]; exact H.near,
    by rw [updateInterrupts_clockOf]; exact H.clock, H.scieb, H.fiq, H.out, H.level⟩

lemma setNext (n : ℕ) : Hooked (s.setNext n) (t.setNext n) h := by
  refine ⟨H.internal, H.hook, H.near, ?_, H.scieb, H.fiq, H.out, H.level⟩
  have := H.clock
  simp only [clockOf, Prod.mk.injEq] at this
  simp [clockOf, this]

lemma marked : Hooked s.marked t.marked h := by
  refine ⟨H.internal, H.hook, fun r i hi => ?_, H.clock, ?_, H.fiq, H.out, H.level⟩
  · rw [H.near r i hi, marked_store]
    split_ifs with hr
    · rw [bit_or_400, decide_eq_false fun h => hi ⟨h, hr⟩, Bool.or_false]
    · rfl
  · rw [marked_store, if_neg (by decide)]
    exact H.scieb

lemma edge : Hooked s.edge t.edge h := by
  have hm := H.marked.updateInterrupts
  have hc := hm.clock
  simp only [clockOf, Prod.mk.injEq] at hc
  rw [edge_eq, edge_eq, hc.1, hc.2.2.2.1]
  exact hm.setNext _

lemma edges (t' fuel : ℕ) : Hooked (RegBlock.edges t' fuel s) (RegBlock.edges t' fuel t) h := by
  induction fuel generalizing s t with
  | zero => exact H
  | succ fuel ih =>
    have hc := H.clock
    simp only [clockOf, Prod.mk.injEq] at hc
    rw [RegBlock.edges, RegBlock.edges, hc.2.2.1, hc.2.2.2.1]
    split_ifs
    · exact ih H.edge
    · exact H

lemma sampleClock (n : ℕ) : Hooked (s.sampleClock n) (t.sampleClock n) h := by
  have hc := H.clock
  simp only [clockOf, Prod.mk.injEq] at hc
  unfold RegBlock.sampleClock
  rw [hc.1, hc.2.1, hc.2.2.2.2]
  split_ifs
  · exact H
  · exact H.edges n _
  · have hi : Hooked (s.initClock (s.samplePhase % s.samplePeriod))
        (t.initClock (s.samplePhase % s.samplePeriod)) h :=
      ⟨H.internal, H.hook, H.near, by simp [clockOf, hc], H.scieb, H.fiq, H.out, H.level⟩
    exact hi.edges n _

lemma raiseScpu {s' t' : RegBlock RegStore} (hs : s' = s ∨ ∃ n, s' = s.raiseScpu n)
    (ht : t' = t ∨ ∃ n, t' = t.raiseScpu n) : Hooked s' t' h := by
  rcases hs with rfl | ⟨_, rfl⟩ <;> rcases ht with rfl | ⟨_, rfl⟩ <;>
    exact ⟨H.internal, H.hook, H.near, H.clock, H.scieb, H.fiq, H.out, H.level⟩

/-- A write other than one of L or M. -/
lemma wreg {r : RegNo} (hL : r ≠ regL) (hM : r ≠ regM) (v mask : BitVec 16) :
    Hooked (s.wreg r v mask) (t.wreg r v mask) { store := writeRules h.store r v mask } := by
  obtain ⟨u, hu, hregs, hclock, hstore⟩ : ∃ u : RegBlock RegStore,
      s.wreg r v mask = u.updateInterrupts ∧ u.regs = none ∧ u.clockOf = s.clockOf ∧
        u.store = writeRules s.store r v mask := by
    rw [RegBlock.wreg, if_neg hL, if_neg hM, H.internal]
    refine ⟨_, rfl, ?_, ?_, ?_⟩
    · split_ifs <;> exact H.internal
    · split_ifs <;> rfl
    · unfold writeRules
      split_ifs <;> rfl
  have ht : t.wreg r v mask =
      (t.setHook { store := writeRules h.store r v mask }).updateInterrupts := by
    rw [RegBlock.wreg, if_neg hL, if_neg hM, H.hook]
    rfl
  rw [hu, ht]
  exact Hooked.updateInterrupts ⟨hregs, rfl, hstore ▸ H.near.write r v mask,
    H.clock.trans hclock.symm, H.scieb, H.fiq, H.out, H.level⟩

/-- Reads of the hook leave it as it is. -/
lemma rreg_hook (r : RegNo) : (t.rreg r).2 = t := by
  have hset : t.setHook h = t := by
    rw [setHook, ← H.hook]
  rw [rreg, H.fiq, H.hook]
  simp only [Bool.false_eq_true, if_false]
  split_ifs
  · rfl
  · rfl
  · rfl
  · exact hset

lemma rreg_internal (hf : s.fiq = false) (r : RegNo) : (s.rreg r).2 = s := by
  rw [rreg, hf, H.internal]
  simp only [Bool.false_eq_true, if_false]
  split_ifs <;> rfl

/-- Every access keeps the two together. -/
lemma perform (hf : s.fiq = false) (a : Access) : ∃ h', Hooked (s.perform a) (t.perform a) h' := by
  cases a with
  | read r =>
    rw [RegBlock.perform, RegBlock.perform, H.rreg_internal hf, H.rreg_hook]
    exact ⟨h, H⟩
  | write r v mask =>
    rw [RegBlock.perform, RegBlock.perform]
    by_cases hL : r = regL
    · rw [RegBlock.wreg, RegBlock.wreg, if_pos hL, if_pos hL]
      exact ⟨h, H⟩
    by_cases hM : r = regM
    · rw [RegBlock.wreg, RegBlock.wreg, if_neg hL, if_neg hL, if_pos hM, if_pos hM]
      split_ifs
      · exact ⟨h, Hooked.updateInterrupts
          ⟨H.internal, H.hook, H.near, H.clock, H.scieb, H.fiq, rfl, H.level⟩⟩
      · exact ⟨h, H⟩
    · exact ⟨_, H.wreg hL hM v mask⟩
  | clock n => exact ⟨h, H.sampleClock n⟩
  | dropped => exact ⟨h, H⟩

end Hooked

/-! ### nFIQ and the line -/

section Line

variable {ρ : Type*} [AicaRegs ρ] {s : RegBlock ρ}

/-- An access drives the line. -/
def Drives (s : RegBlock ρ) : Access → Prop
  | .write r v mask => r ≠ regL ∧ (r = regM → bit (v &&& mask) 0 = true)
  | .clock t => s.edgeDue t
  | _ => False

/-- While nFIQ is not asserted, an access drives the line with what it leaves, or leaves it alone. -/
lemma perform_core (hf : s.fiq = false) (a : Access) :
    (s.Drives a → (s.perform a).core = s.core.map fun _ => (s.perform a).fiq) ∧
      (¬s.Drives a → (s.perform a).core = s.core) := by
  cases a with
  | read r =>
    refine ⟨False.elim, fun _ => ?_⟩
    rw [perform, rreg, hf]
    simp only [Bool.false_eq_true, if_false]
    split_ifs <;> try rfl
    split <;> rfl
  | write r v mask =>
    rw [perform]
    by_cases hL : r = regL
    · rw [wreg, if_pos hL]
      exact ⟨fun hd => absurd hL hd.1, fun _ => rfl⟩
    by_cases hM : r = regM
    · rw [wreg, if_neg hL, if_pos hM]
      split_ifs with hb
      · exact ⟨fun _ => updateInterrupts_core _, fun hd => absurd ⟨hL, fun _ => hb⟩ hd⟩
      · exact ⟨fun hd => absurd (hd.2 hM) hb, fun _ => rfl⟩
    · obtain ⟨u, hu, hcore⟩ : ∃ u : RegBlock ρ, s.wreg r v mask = u.updateInterrupts ∧
          u.core = s.core := by
        rw [wreg, if_neg hL, if_neg hM]
        cases s.regs with
        | some h => exact ⟨_, rfl, rfl⟩
        | none =>
          refine ⟨_, rfl, ?_⟩
          split_ifs <;> rfl
      rw [hu, ← hcore]
      exact ⟨fun _ => updateInterrupts_core u, fun hd => absurd ⟨hL, (absurd · hM)⟩ hd⟩
  | clock n =>
    obtain ⟨u, m, hu, ⟨hd, h⟩ | ⟨hd, h⟩⟩ := s.sampleClock_eq n
    all_goals
      have hcore : u.core = s.core := by rcases hu with rfl | ⟨_, rfl⟩ <;> rfl
      rw [perform, h, ← hcore]
    · exact ⟨fun _ => updateInterrupts_core u.marked, fun hd' => absurd hd hd'⟩
    · exact ⟨fun hd' => absurd hd' hd, fun _ => rfl⟩
  | dropped => exact ⟨False.elim, fun _ => rfl⟩

end Line

/-! ### One call -/

/-- What the two configurations show of a call: the value it returns, and nFIQ, the core's line and L
after it. -/
structure Agrees (s t : RegBlock RegStore) (c : Call) : Prop where
  value : (t.call c).1 = (s.call c).1
  fiq : (t.call c).2.fiq = (s.call c).2.fiq
  line : (t.call c).2.core = (s.call c).2.core
  level : (t.call c).2.e68kL = (s.call c).2.e68kL

/-- Nothing shows that the controller looks at the internal store: it has no request to latch in the
registers as they were written, and the call does not read an edge's bit that the hook has not got. -/
structure Unseen (s t : RegBlock RegStore) (c : Call) : Prop where
  idle : s.pend = 0 ∨ s.level = 0
  edge : ∀ r h, c.access = .read r → r = scipd ∨ r = mcipd → t.regs = some h →
    bit (h.store r) 10 = bit (s.store r) 10

section Latch

variable {ρ : Type*} [AicaRegs ρ] {s : RegBlock ρ}

omit [AicaRegs ρ] in
/-- A request that is latched stays in the registers. -/
lemma ready_of_out (ho : s.e68kOut = false) (h : s.updateInterrupts.e68kOut = true) :
    s.updateInterrupts.pend ≠ 0 ∧ s.updateInterrupts.level ≠ 0 := by
  by_cases hr : s.ready
  · rw [pend_congr s.updateInterrupts_store, level_congr s.updateInterrupts_store]
    exact ⟨hr.1, hr.2.2⟩
  · rw [updateInterrupts_of_not_ready hr] at h
    exact absurd (ho.symm.trans h) (by decide)

lemma perform_of_out (hr : s.regs = none) (ho : s.e68kOut = false) {a : Access}
    (h : (s.perform a).e68kOut = true) : (s.perform a).pend ≠ 0 ∧ (s.perform a).level ≠ 0 := by
  have hno : ¬s.e68kOut = true := by simp [ho]
  cases a with
  | read r =>
    refine absurd ?_ hno
    revert h
    rw [perform, rreg, hr]
    split_ifs <;> exact id
  | write r v mask =>
    rw [perform] at *
    by_cases hL : r = regL
    · rw [wreg, if_pos hL] at h
      exact absurd h hno
    by_cases hM : r = regM
    · rw [wreg, if_neg hL, if_pos hM] at *
      split_ifs at *
      · exact ready_of_out rfl h
      · exact absurd h hno
    · obtain ⟨u, hu, -, -, huo, -⟩ := wreg_store hr hL hM v mask
      rw [hu] at h ⊢
      exact ready_of_out (huo.trans ho) h
  | clock n =>
    obtain ⟨u, m, hu, ⟨-, hc⟩ | ⟨-, hc⟩⟩ := s.sampleClock_eq n
    all_goals
      have huo : u.e68kOut = false := by rcases hu with rfl | ⟨_, rfl⟩ <;> exact ho
      rw [perform, hc] at h ⊢
    · exact ready_of_out (s := u.marked) huo h
    · exact absurd h (by simp [huo])
  | dropped => exact absurd h hno

/-- The value of a call is that of its read. -/
lemma call_fst (s : RegBlock ρ) (c : Call) : (s.call c).1 =
    match c.access with
    | .read r => (s.rreg r).1
    | _ => 0 := by
  cases c with
  | arm c =>
    simp only [call, regCycle, Call.access]
    split_ifs <;> rfl
  | _ => rfl

end Latch

/-- The two configurations before a call, as long as nothing was latched. -/
structure Level (s t : RegBlock RegStore) : Prop where
  hooked : ∃ h, Hooked s t h
  settled : s.Settled
  fiq : s.fiq = false
  out : s.e68kOut = false
  zero : s.e68kL = 0
  core : t.core = s.core

namespace Level

variable {s t : RegBlock RegStore} (hst : Level s t)

include hst

/-- The hook's configuration does not assert nFIQ. -/
lemma hook_fiq (c : Call) : (t.call c).2.fiq = false := by
  obtain ⟨h, H⟩ := hst.hooked
  obtain ⟨t', ht, htc⟩ := t.call_eq c
  obtain ⟨h', Hn⟩ := (H.raiseScpu (Or.inl rfl) ht).perform hst.fiq c.access
  rw [htc]
  exact Hn.fiq

/-- A call that latches a request shows it. -/
lemma of_out {c : Call} (ho : (s.call c).2.e68kOut = true) :
    (s.call c).2.fiq = true ∧ (s.call c).2.pend ≠ 0 ∧ (s.call c).2.level ≠ 0 := by
  refine ⟨((call_moved hst.settled c).latch ho (Or.inl hst.out)).2.2, ?_⟩
  obtain ⟨h, H⟩ := hst.hooked
  obtain ⟨s', hs, hsc⟩ := s.call_eq c
  have H' := H.raiseScpu hs (Or.inl rfl)
  have ho' : s'.e68kOut = false := by rcases hs with rfl | ⟨_, rfl⟩ <;> exact hst.out
  rw [hsc] at ho ⊢
  exact perform_of_out H'.internal ho' ho

/-- A call that latches nothing keeps them level. -/
lemma call {c : Call} (ho : (s.call c).2.e68kOut = false) :
    Level (s.call c).2 (t.call c).2 := by
  obtain ⟨h, H⟩ := hst.hooked
  obtain ⟨s', hs, hsc⟩ := s.call_eq c
  obtain ⟨t', ht, htc⟩ := t.call_eq c
  have H' := H.raiseScpu hs ht
  have hmove := call_moved hst.settled c
  have hkeep := hmove.keep fun h => by simp [ho] at h
  have hf : (s.call c).2.fiq = false :=
    Bool.eq_false_iff.mpr fun h => by simpa [hst.fiq] using (hkeep.2.mp h).1
  have hf' : s'.fiq = false := by rcases hs with rfl | ⟨_, rfl⟩ <;> exact hst.fiq
  have hc' : t'.core = s'.core := by
    rcases hs with rfl | ⟨_, rfl⟩ <;> rcases ht with rfl | ⟨_, rfl⟩ <;> exact hst.core
  obtain ⟨h', Hn⟩ := H'.perform hf' c.access
  refine ⟨⟨h', by rw [hsc, htc]; exact Hn⟩, hst.settled.call c, hf, ho, ?_, ?_⟩
  · rw [hkeep.1, hst.zero]
  · have hdrive : t'.Drives c.access ↔ s'.Drives c.access := by
      cases c.access with
      | clock n => exact edgeDue_congr H'.clock n
      | _ => rfl
    obtain ⟨hs1, hs2⟩ := perform_core hf' c.access
    obtain ⟨ht1, ht2⟩ := perform_core H'.fiq c.access
    rw [hsc] at hf ⊢
    rw [htc]
    by_cases hd : s'.Drives c.access
    · rw [hs1 hd, ht1 (hdrive.mpr hd), hf, Hn.fiq, hc']
    · rw [hs2 hd, ht2 (mt hdrive.mp hd), hc']

/-- The values of a call agree unless it reads an edge's bit that the hook has not got. -/
lemma value_iff {c : Call} : (t.call c).1 = (s.call c).1 ↔
    ∀ r h, c.access = .read r → r = scipd ∨ r = mcipd → t.regs = some h →
      bit (h.store r) 10 = bit (s.store r) 10 := by
  obtain ⟨h, H⟩ := hst.hooked
  rw [call_fst, call_fst]
  cases c.access with
  | read r =>
    have hread : (t.rreg r).1 = (s.rreg r).1 ↔
        (r = scipd ∨ r = mcipd → bit (h.store r) 10 = bit (s.store r) 10) := by
      rw [rreg, rreg, H.level, hst.zero, H.hook, H.internal, H.fiq, hst.fiq]
      simp only [Bool.false_eq_true, if_false]
      split_ifs with hL hM hV
      · subst hL
        exact iff_of_true rfl fun h => absurd h (by decide)
      · subst hM
        exact iff_of_true rfl fun h => absurd h (by decide)
      · refine iff_of_true rfl fun h => ?_
        rcases h with rfl | rfl <;> exact absurd hV (by decide)
      · refine ⟨fun h' _ => congrArg (bit · 10) h', fun h' => ?_⟩
        apply BitVec.eq_of_getLsbD_eq
        intro i hi
        by_cases he : edgeBit r i
        · obtain ⟨rfl, hr⟩ := he
          exact h' hr
        · exact H.near r i he
    rw [hread]
    constructor
    · rintro h' r h2 ha hr hh
      cases ha
      cases H.hook.symm.trans hh
      exact h' hr
    · exact fun h' hr => h' r h rfl hr H.hook
  | _ => exact iff_of_true rfl fun _ _ ha => Access.noConfusion ha

end Level

/-- The internal store and a hook with the same rules, over a run of calls. The hook's configuration shows
what the other one does in every call if and only if no request is ever enabled with a level in the
registers, and no call reads SCIPD or MCIPD while an edge's bit is in the internal store only: the
controller looks at the internal store, which a write through the hook does not reach. -/
theorem hook_agrees_iff (period phase latency : ℕ) (core : Option Bool) (ops : ℕ → Call) :
    let s := calls.after (new period phase latency core : RegBlock RegStore) ops
    let t := calls.after ((new period phase latency core).setHook {} : RegBlock RegStore) ops
    (∀ n, Agrees (s n) (t n) (ops n)) ↔ ∀ n, Unseen (s n) (t n) (ops n) := by
  intro s t
  have hset : ∀ n, (s n).Settled := settled_after (settled_new period phase latency core)
  have h0 : Level (s 0) (t 0) := by
    refine ⟨⟨{}, rfl, rfl, fun _ _ _ => rfl, rfl, rfl, rfl, rfl, rfl⟩, hset 0, rfl, rfl, rfl, rfl⟩
  constructor
  · intro h
    have hlevel : ∀ n, Level (s n) (t n) := by
      intro n
      induction n with
      | zero => exact h0
      | succ n ih =>
        refine ih.call (Bool.eq_false_iff.mpr fun ho => ?_)
        have hf := (h n).fiq
        rw [ih.hook_fiq, (ih.of_out ho).1] at hf
        cases hf
    intro n
    refine ⟨?_, (hlevel n).value_iff.mp (h n).value⟩
    by_contra hno
    rw [not_or] at hno
    exact (hset n).quiet ⟨hno.1, (hlevel n).out, hno.2⟩
  · intro h
    have hout : ∀ n, Level (s n) (t n) → ((s n).call (ops n)).2.e68kOut = false := by
      intro n hn
      refine Bool.eq_false_iff.mpr fun ho => ?_
      obtain ⟨-, hp, hl⟩ := hn.of_out ho
      exact (h (n + 1)).idle.elim hp hl
    have hlevel : ∀ n, Level (s n) (t n) := by
      intro n
      induction n with
      | zero => exact h0
      | succ n ih => exact ih.call (hout n ih)
    intro n
    have hnext := (hlevel n).call (hout n (hlevel n))
    obtain ⟨g, G⟩ := hnext.hooked
    exact ⟨(hlevel n).value_iff.mpr (h n).edge, G.fiq.trans hnext.fiq.symm, hnext.core,
      G.level.trans hnext.zero.symm⟩

/-- SCPU is enabled with level 1 and set: the internal store's configuration asserts nFIQ, the hook's does
not. -/
theorem hook_silent :
    let ops : ℕ → Call := fun n =>
      [Call.regWrite 0x289C 0x20, .regWrite 0x28A8 0x20, .regWrite 0x28A0 0x20].getD n (.tick 0)
    let s := calls.after (new 512 0 0 none : RegBlock RegStore) ops
    let t := calls.after ((new 512 0 0 none).setHook {} : RegBlock RegStore) ops
    ((s 2).call (ops 2)).2.fiq = true ∧ ((t 2).call (ops 2)).2.fiq = false ∧
      ¬Agrees (s 2) (t 2) (ops 2) := by
  refine ⟨by decide, by decide, fun h => ?_⟩
  have := h.fiq
  revert this
  decide

end RegBlock

end Wren7
