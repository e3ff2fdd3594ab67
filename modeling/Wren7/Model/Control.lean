import Mathlib.Tactic.Ring
import Wren7.Model.Spec

/-!
# The control invariant

What links one bus cycle of the core to the next: the announced type to the next address, the
pipeline slots to what the bus returned for them, the locked read of a swap to its write. The
invariant has one clause for each state in which a run can stop between two cycles; a sequence that
drives a single cycle has none.
-/

namespace Wren7

open Bits Reactive

/-! ### Word-aligned addresses -/

/-- A multiple of 4. -/
def Aligned (w : Word) : Prop := w.toNat % 4 = 0

instance (w : Word) : Decidable (Aligned w) := inferInstanceAs (Decidable (_ = _))

lemma Aligned.add_four {w : Word} (h : Aligned w) : Aligned (w + 4) := by
  unfold Aligned at *
  bv_omega

lemma Aligned.add {v w : Word} (hv : Aligned v) (hw : Aligned w) : Aligned (v + w) := by
  unfold Aligned at *
  bv_omega

lemma aligned_mask (w : Word) : Aligned (w &&& ~~~3) := by
  have h : (w &&& ~~~3).toNat % 2 ^ 2 = 0 := by
    rw [BitVec.toNat_and, Nat.and_mod_two_pow]
    exact Nat.and_zero _
  exact h

/-- The offset of a branch. -/
lemma aligned_offset (op : Word) : Aligned ((op <<< 8).sshiftRight 6) := by
  have h : ((op <<< 8).sshiftRight 6).toNat % 2 ^ 2 = 0 := by
    refine Nat.eq_of_testBit_eq fun i => ?_
    rw [Nat.testBit_mod_two_pow, Nat.zero_testBit, ← BitVec.getLsbD]
    by_cases hi : i < 2
    · rw [BitVec.getLsbD_sshiftRight, BitVec.getLsbD_shiftLeft]
      simp [hi, show 6 + i < 32 by omega, show 6 + i < 8 by omega]
    · simp [hi]
  exact h

/-! ### Histories of bus cycles -/

/-- What a run has shown so far: its last cycle, and what the bus returned for the last opcode fetch
at each address. -/
structure History where
  last : Option BusCycle
  fetched : Word → Option Slot

/-- An opcode fetch that accesses memory. -/
def BusCycle.isFetch (b : BusCycle) : Bool := b.type.isMem && b.flags.opc

namespace History

def record (g : History) (b : BusCycle) (a : Answer) : History where
  last := some b
  fetched := if b.isFetch then Function.update g.fetched b.addr (some ⟨a.rdata, a.abort⟩) else g.fetched

variable (g : History)

/-- What an S cycle promises: it follows a memory cycle at the address before it, in the same
direction and with the same nOPC, or an I cycle at its own address. -/
def Follows (addr : Word) (write opc : Bool) : Prop :=
  ∃ p, g.last = some p ∧
    (p.type.isMem = true ∧ addr = p.addr + 4 ∧ p.flags.write = write ∧ p.flags.opc = opc ∨
      p.type = .I ∧ p.addr = addr)

/-- A memory cycle that may be driven with the announced type. -/
def Announced (t : CycleType) (addr : Word) (write opc : Bool) : Prop :=
  t = .N ∨ t = .S ∧ g.Follows addr write opc

/-- The last cycle was the locked read of a swap. -/
def LockedRead (addr : Word) (byte : Bool) : Prop :=
  ∃ p, g.last = some p ∧ p.flags.lock = true ∧ p.flags.write = false ∧ p.addr = addr ∧
    p.flags.byte = byte

/-- No locked read waits for its write. -/
def Unlocked : Prop := ∀ p, g.last = some p → p.flags.lock = true → p.flags.write = true

/-- Two successive words before `pc` as the bus returned them. -/
def Holds (pc : Word) (first second : Slot) : Prop :=
  g.fetched (pc - 8) = some first ∧ g.fetched (pc - 4) = some second

end History

/-! ### The protocol of one cycle -/

/-- A cycle keeps the protocol after a history. -/
structure Proper (g : History) (b : BusCycle) : Prop where
  sequential : b.type = .S → g.Follows b.addr b.flags.write b.flags.opc
  lockedWrite : b.flags.lock = true → b.flags.write = true → g.LockedRead b.addr b.flags.byte
  afterLock : g.Unlocked ∨ b.flags.lock = true ∧ b.flags.write = true
  internal : b.type = .I → b.flags.write = false ∧ b.flags.byte = false ∧ b.flags.lock = false
  type : b.type ≠ .C
  fetch : b.flags.opc = true → b.flags.write = false ∧ Aligned b.addr

namespace Arm7DI

/-- The clause of the invariant for a state in which a run can stop. -/
def Phase (g : History) (s : Arm7DI) : Prop :=
  match s.seq with
  | .idle => g.Announced s.nextType s.pc false true ∧ g.Unlocked ∧
      (s.inReset = false → s.resetExit = false → g.Holds s.pc s.ex s.de)
  | .dp | .mul => s.k ≠ 0 ∧ s.nextType = .I ∧ g.Unlocked ∧ g.Holds s.pc s.de s.f1
  | .swp => g.Holds s.pc s.de s.f1 ∧
      (s.k = 1 ∧ s.nextType = .N ∧ g.Unlocked ∨
        s.k = 2 ∧ s.nextType = .N ∧ g.LockedRead s.x.addr (bit s.x.op 22) ∨
        s.k = 3 ∧ s.nextType = .I ∧ g.Unlocked)
  | .sdt => g.Holds s.pc s.de s.f1 ∧ g.Unlocked ∧
      (s.k = 1 ∧ s.nextType = .N ∧ s.x.bf.lock = false ∧ s.x.bf.opc = false ∨
        s.k = 2 ∧ s.nextType = .I ∧ bit s.x.op 20 = true)
  | .bdt => g.Holds s.pc s.de s.f1 ∧ g.Unlocked ∧ s.k ≠ 0 ∧
      (s.x.r = 16 ∧ s.nextType = .I ∨
        s.x.r ≠ 16 ∧ g.Announced s.nextType s.x.addr (!bit s.x.op 20) false)
  | .undefTrap => s.k ≠ 0 ∧ s.nextType = .I ∧ Aligned s.x.addr ∧ g.Unlocked
  | .refill => Aligned s.x.target ∧ g.Unlocked ∧
      (s.k = 0 ∧ s.nextType = .N ∨
        s.k ≠ 0 ∧ s.nextType = .S ∧ g.Follows (s.x.target + 4) false true ∧
          g.fetched s.x.target = some s.x.fa)
  | _ => False

/-- The invariant between two bus cycles. -/
structure Control (g : History) (s : Arm7DI) : Prop where
  aligned : Aligned s.pc
  phase : Phase g s

/-- A cycle that keeps the protocol, and after which the invariant holds again. -/
structure Keeps (g : History) (d : Drive) : Prop where
  proper : Proper g d.bus
  control : ∀ a, Control (g.record d.bus a) (d.next a)

/-! ### Cycles and their histories -/

section Record

variable {g : History} {b : BusCycle} {a : Answer}

lemma record_last : (g.record b a).last = some b := rfl

lemma record_fetched_of_not (h : b.isFetch = false) : (g.record b a).fetched = g.fetched := by
  simp [History.record, h]

lemma record_fetched (h : b.isFetch = true) : (g.record b a).fetched =
    Function.update g.fetched b.addr (some ⟨a.rdata, a.abort⟩) := by
  simp [History.record, h]

lemma record_unlocked (h : b.flags.lock = false) : (g.record b a).Unlocked := by
  rintro p ⟨rfl⟩ hl
  exact absurd (hl.symm.trans h) (by decide)

lemma holds_record {pc : Word} {f f' : Slot} (h : g.Holds pc f f') (hb : b.isFetch = false) :
    (g.record b a).Holds pc f f' := by
  unfold History.Holds
  rw [record_fetched_of_not hb]
  exact h

end Record

variable {g : History} {q u : Arm7DI}

/-- A state at the start of a sequence: its first cycle is an opcode fetch at `pc`. -/
structure Fresh (g : History) (q : Arm7DI) : Prop where
  aligned : Aligned q.pc
  announced : g.Announced q.nextType q.pc false true
  unlocked : g.Unlocked

/-- A state at the start of an instruction's sequence. -/
structure Ready (g : History) (q : Arm7DI) : Prop extends Fresh g q where
  holds : g.Holds q.pc q.ex q.de

/-- A state after the first cycle, with the fetched word in `f1`. -/
structure Mid (g : History) (u : Arm7DI) : Prop where
  aligned : Aligned u.pc
  unlocked : g.Unlocked
  holds : g.Holds u.pc u.de u.f1

lemma Mid.congr (h : Mid g q) (hpc : u.pc = q.pc) (hde : u.de = q.de) (hf1 : u.f1 = q.f1) :
    Mid g u := by
  refine ⟨?_, h.unlocked, ?_⟩
  · rw [hpc]; exact h.aligned
  · rw [hpc, hde, hf1]; exact h.holds

lemma Mid.setX (h : Mid g q) (x : InFlight) : Mid g (q.setX x) :=
  ⟨h.aligned, h.unlocked, h.holds⟩

lemma Ready.setX (h : Ready g q) (x : InFlight) : Ready g (q.setX x) :=
  ⟨⟨h.aligned, h.announced, h.unlocked⟩, h.holds⟩

lemma Ready.setK (h : Ready g q) (k : ℕ) : Ready g (q.setK k) :=
  ⟨⟨h.aligned, h.announced, h.unlocked⟩, h.holds⟩

/-- A sequence that ends with the pipeline advanced. -/
lemma Mid.done (h : Mid g u) (hn : g.Announced u.nextType u.pc false true) :
    Control g u.advance.done :=
  ⟨h.aligned, hn, h.unlocked, fun _ _ => h.holds⟩

/-- A sequence that goes on with a refill. -/
lemma control_refill {t : Word} (ha : Aligned u.pc) (hu : g.Unlocked) (hn : u.nextType = .N)
    (ht : Aligned t) : Control g (u.startRefill t) :=
  ⟨ha, ht, hu, Or.inl ⟨rfl, hn⟩⟩

lemma Announced.ne_I {t : CycleType} {addr : Word} {w o : Bool} (h : g.Announced t addr w o) :
    t.isMem = true ∧ t ≠ .I ∧ t ≠ .C := by
  rcases h with rfl | ⟨rfl, -⟩ <;> decide

/-- The protocol of an opcode fetch. -/
lemma proper_fetch {b : BusCycle} (hn : g.Announced b.type b.addr false true) (hu : g.Unlocked)
    (ha : Aligned b.addr) (hf : b.flags = q.fetchFlags) : Proper g b := by
  have hw : b.flags.write = false := by rw [hf]; rfl
  have ho : b.flags.opc = true := by rw [hf]; rfl
  have hl : b.flags.lock = false := by rw [hf]; rfl
  refine ⟨fun hS => ?_, fun h => ?_, Or.inl hu, fun h => absurd h (Announced.ne_I hn).2.1,
    (Announced.ne_I hn).2.2, fun _ => ⟨hw, ha⟩⟩
  · rw [hw, ho]
    rcases hn with h | ⟨-, h⟩
    · rw [h] at hS
      exact CycleType.noConfusion hS
    · exact h
  · rw [hl] at h
    exact Bool.noConfusion h

lemma isFetch_cyc (hm : q.nextType.isMem = true) {addr : Word} {next : CycleType}
    {K : Word → Arm7DI → Arm7DI} : (q.cyc addr q.fetchFlags 0 next K).bus.isFetch = true := by
  simp [BusCycle.isFetch, fetchFlags, hm]

/-- The protocol of a cycle without a lock that is no fetch. -/
lemma proper_data {b : BusCycle} (hn : g.Announced b.type b.addr b.flags.write false)
    (hu : g.Unlocked) (hl : b.flags.lock = false) (ho : b.flags.opc = false) : Proper g b := by
  refine ⟨fun hS => ?_, fun h => ?_, Or.inl hu, fun h => absurd h (Announced.ne_I hn).2.1,
    (Announced.ne_I hn).2.2, fun h => ?_⟩
  · rw [ho]
    rcases hn with h | ⟨-, h⟩
    · rw [h] at hS
      exact CycleType.noConfusion hS
    · exact h
  · rw [hl] at h
    exact Bool.noConfusion h
  · rw [ho] at h
    exact Bool.noConfusion h

/-- The protocol of an internal cycle. -/
lemma proper_internal {b : BusCycle} (hI : b.type = .I) (hu : g.Unlocked)
    (hf : b.flags = q.idleFlags) : Proper g b := by
  have hw : b.flags.write = false ∧ b.flags.byte = false ∧ b.flags.lock = false := by
    rw [hf]; exact ⟨rfl, rfl, rfl⟩
  refine ⟨fun hS => ?_, fun h => ?_, Or.inl hu, fun _ => hw, ?_, fun h => ?_⟩
  · rw [hI] at hS
    exact CycleType.noConfusion hS
  · rw [hw.2.2] at h
    exact Bool.noConfusion h
  · rw [hI]
    exact CycleType.noConfusion
  · rw [hf] at h
    exact Bool.noConfusion h

/-! ### The three kinds of cycles -/

section Cycles

variable {next : CycleType}

/-- The first cycle of a sequence. What follows it may use that the word is in `f1`, which type was
announced, and that the latches are as before. -/
lemma keeps_cycle1 (h : Ready g q) {K : Arm7DI → Arm7DI}
    (hK : ∀ g' u, Mid g' u → u.nextType = next → g'.Follows u.pc false true → u.x = q.x →
      u.k = q.k → u.seq = q.seq → Control g' (K u)) : Keeps g (q.cycle1Fetch next K) := by
  have hmem := (Announced.ne_I h.announced).1
  refine ⟨proper_fetch (q := q) h.announced h.unlocked h.aligned rfl, fun a => ?_⟩
  have hfetch : (q.cycle1Fetch next K).bus.isFetch = true := isFetch_cyc hmem
  have hslot : (⟨a.rdata, (q.sampled a next).lastAbort⟩ : Slot) = ⟨a.rdata, a.abort⟩ := by
    simp [hmem]
  have hrec : (g.record (q.cycle1Fetch next K).bus a).fetched =
      Function.update g.fetched q.pc (some ⟨a.rdata, a.abort⟩) := record_fetched hfetch
  change Control _ (K ((q.sampled a next).capture ⟨a.rdata, (q.sampled a next).lastAbort⟩))
  rw [hslot]
  refine hK _ _ ⟨h.aligned.add_four, record_unlocked rfl, ?_, ?_⟩ rfl ?_ rfl rfl rfl
  · have hne : q.pc + 4 - 8 ≠ q.pc := by bv_omega
    have hpc : q.pc + 4 - 8 = q.pc - 4 := by bv_omega
    simp only [hrec, capture_pc, sampled_pc, capture_de, sampled_de]
    rw [Function.update_of_ne hne, hpc]
    exact h.holds.2
  · have hpc : q.pc + 4 - 4 = q.pc := by bv_omega
    simp only [hrec, capture_pc, sampled_pc, capture_f1]
    rw [hpc, Function.update_self]
  · exact ⟨_, rfl, Or.inl ⟨hmem, rfl, rfl, rfl⟩⟩

/-- An internal cycle at `pc`. -/
lemma keeps_internal (h : Mid g q) (hI : q.nextType = .I) {K : Word → Arm7DI → Arm7DI}
    (hK : ∀ g' w u, Mid g' u → u.nextType = next → g'.Follows u.pc false true → u.x = q.x →
      u.k = q.k → u.seq = q.seq → Control g' (K w u)) :
    Keeps g (q.cyc q.pc q.idleFlags 0 next K) := by
  refine ⟨proper_internal (q := q) hI h.unlocked rfl, fun a => ?_⟩
  refine hK _ _ _ ⟨h.aligned, record_unlocked rfl, holds_record h.holds ?_⟩ rfl ?_ rfl rfl rfl
  · simp [BusCycle.isFetch, idleFlags]
  · exact ⟨_, rfl, Or.inr ⟨hI, rfl⟩⟩

/-- A data cycle without a lock. -/
lemma keeps_data (h : Mid g q) {addr wdata : Word} {f : BusFlags}
    (hn : g.Announced q.nextType addr f.write false) (hl : f.lock = false) (ho : f.opc = false)
    {K : Word → Arm7DI → Arm7DI}
    (hK : ∀ g' w u, Mid g' u → u.nextType = next → g'.Follows (addr + 4) f.write false →
      u.x = q.x → u.k = q.k → u.seq = q.seq → Control g' (K w u)) :
    Keeps g (q.cyc addr f wdata next K) := by
  refine ⟨proper_data hn h.unlocked hl ho, fun a => ?_⟩
  refine hK _ _ _ ⟨h.aligned, record_unlocked hl, holds_record h.holds ?_⟩ rfl ?_ rfl rfl rfl
  · simp [BusCycle.isFetch, ho]
  · exact ⟨_, rfl, Or.inl ⟨(Announced.ne_I hn).1, rfl, rfl, ho⟩⟩

/-- A locked cycle of a swap: the read, or the write right after it. -/
lemma keeps_locked (ha : Aligned q.pc) (hh : g.Holds q.pc q.de q.f1) (hn : q.nextType = .N)
    {addr wdata : Word} {f : BusFlags} (hl : f.lock = true) (ho : f.opc = false)
    (hread : f.write = false → g.Unlocked) (hwrite : f.write = true → g.LockedRead addr f.byte)
    {K : Word → Arm7DI → Arm7DI}
    (hK : ∀ g' w u, Aligned u.pc → g'.Holds u.pc u.de u.f1 → u.nextType = next →
      (f.write = false → g'.LockedRead addr f.byte) → (f.write = true → g'.Unlocked) →
      u.x = q.x → u.k = q.k → u.seq = q.seq → Control g' (K w u)) :
    Keeps g (q.cyc addr f wdata next K) := by
  refine ⟨⟨fun hS => absurd (hn.symm.trans hS) (by decide), fun _ hw => hwrite hw, ?_,
    fun hI => absurd (hn.symm.trans hI) (by decide),
    fun hC => absurd (hn.symm.trans hC) (by decide), fun hf => absurd (hf.symm.trans ho) (by decide)⟩,
    fun a => ?_⟩
  · rcases Bool.eq_false_or_eq_true f.write with hw | hw
    · exact Or.inr ⟨hl, hw⟩
    · exact Or.inl (hread hw)
  · refine hK _ _ _ ha (holds_record hh ?_) rfl ?_ ?_ rfl rfl rfl
    · simp [BusCycle.isFetch, ho]
    · exact fun hw => ⟨_, rfl, hl, hw, rfl, rfl⟩
    · rintro hw p ⟨rfl⟩ _
      exact hw

end Cycles

/-! ### The sequences -/

section Sequences

lemma control_dpFinish (h : Mid g u) (hn : u.nextType = dpNext u.x.op)
    (hf : g.Follows u.pc false true) (a b : Word) (sc : Bool) : Control g (u.dpFinish a b sc) := by
  rw [dpFinish_eq]
  by_cases hw : writesPc u.x.op = true
  · rw [if_pos hw]
    rw [dpNext, if_pos hw] at hn
    exact control_refill h.aligned h.unlocked hn (aligned_mask _)
  · rw [if_neg hw]
    rw [dpNext, if_neg hw] at hn
    refine Mid.done (h.congr ?_ ?_ ?_) (Or.inr ⟨?_, ?_⟩) <;>
      (by_cases ht : isTest u.x.op = true <;> simp [ht, hn, hf])

lemma keeps_dp_shift (h : Mid g q) (hI : q.nextType = .I) (hk : q.k ≠ 0) : Keeps g q.cDp := by
  rw [cDp_shift hk]
  exact keeps_internal h hI fun g' w u hm hn hf hx _ _ =>
    control_dpFinish hm (by rw [hn, hx]) hf _ _ _

lemma mulFlags_frame : u.mulFlags.pc = u.pc ∧ u.mulFlags.de = u.de ∧ u.mulFlags.f1 = u.f1 ∧
    u.mulFlags.nextType = u.nextType := by
  unfold mulFlags
  dsimp only
  split_ifs <;> exact ⟨rfl, rfl, rfl, rfl⟩

lemma keeps_mul_step (h : Mid g q) (hI : q.nextType = .I) (hk : q.k ≠ 0) (hq : q.seq = .mul) :
    Keeps g q.cMul := by
  unfold cMul
  rw [if_neg hk]
  refine keeps_internal (h.setX _) (by exact hI) fun g' w u hm hn hf _ _ hs => ?_
  cases hlast : q.k - 1 == q.x.m - 1 with
  | true =>
    obtain ⟨hpc, hde, hf1, hnt⟩ := mulFlags_frame (u := u.mulStep (q.k - 1)
      (q.rd (field q.x.op 0 4) q.pc) (digit (bit q.x.mul 1) (bit q.x.mul 0) q.x.borrow))
    rw [hlast] at hn
    exact (hm.congr hpc hde hf1).done (Or.inr ⟨hnt.trans hn, hpc ▸ hf⟩)
  | false =>
    rw [hlast] at hn
    refine ⟨hm.aligned, ?_⟩
    have hs' : u.seq = .mul := hs.trans hq
    simpa [Phase, hs', mulStep, hn] using ⟨hm.unlocked, hm.holds⟩

lemma msrWrite_frame {p : Bool} {v m : Word} : (u.msrWrite p v m).pc = u.pc ∧
    (u.msrWrite p v m).de = u.de ∧ (u.msrWrite p v m).f1 = u.f1 ∧
    (u.msrWrite p v m).nextType = u.nextType := by
  unfold msrWrite setSpsrCur
  split_ifs <;> exact ⟨rfl, rfl, rfl, rfl⟩

/-! #### Later cycles -/

section Later

variable (h : Mid g q)

include h

lemma keeps_sdt_store (hn : q.nextType = .N) (hk : q.k ≠ 0) (hL : bit q.x.op 20 = false)
    (hl : q.x.bf.lock = false) (ho : q.x.bf.opc = false) : Keeps g q.cSdt := by
  rw [cSdt_store hk hL]
  refine keeps_data h (Or.inl hn) (by exact hl) (by exact ho) fun g' w u hm hn' hf _ _ _ => ?_
  refine (hm.congr ?_ ?_ ?_).done (Or.inl ?_) <;>
    (unfold sdtBase; split_ifs <;> first | rfl | exact hn')

lemma keeps_sdt_load (hn : q.nextType = .N) (hk : q.k = 1) (hL : bit q.x.op 20 = true)
    (hl : q.x.bf.lock = false) (ho : q.x.bf.opc = false)
    (hq : q.seq = .sdt) : Keeps g q.cSdt := by
  rw [cSdt_load hk hL]
  refine keeps_data h (Or.inl hn) hl ho fun g' w u hm hn' hf hx _ hs => ?_
  have hs' : u.seq = .sdt := hs.trans hq
  have hop : bit u.x.op 20 = true := by rw [hx]; exact hL
  unfold sdtBase
  split_ifs <;> exact ⟨hm.aligned, by simpa [Phase, hs', hn', hop] using ⟨hm.holds, hm.unlocked⟩⟩

lemma keeps_sdt_end (hI : q.nextType = .I) (hk : q.k = 2) (hL : bit q.x.op 20 = true) :
    Keeps g q.cSdt := by
  rw [cSdt_end (Nat.le_of_eq hk.symm) hL]
  refine keeps_internal h hI fun g' w u hm hn hf hx _ _ => ?_
  unfold sdtEnd
  rw [sdtRefills, ← hx] at hn
  split_ifs with hab h15
  · rw [hab, Bool.not_true, Bool.and_false] at hn
    exact Mid.done (u := u.setDabort true) (hm.congr rfl rfl rfl) (Or.inr ⟨hn, hf⟩)
  · rw [hx, beq_iff_eq.mpr h15, ← hx, Bool.eq_false_iff.mpr hab] at hn
    exact control_refill hm.aligned hm.unlocked hn (aligned_mask _)
  · rw [hx, beq_false_of_ne h15, Bool.false_and] at hn
    exact Mid.done (u := u.wr _ _) (hm.congr rfl rfl rfl) (Or.inr ⟨hn, hf⟩)

lemma keeps_swp_read (hn : q.nextType = .N) (hk : q.k = 1) (hq : q.seq = .swp) :
    Keeps g q.cSwp := by
  rw [cSwp_read hk]
  refine keeps_locked (q := q.setK 2) h.aligned h.holds hn rfl rfl (fun _ => h.unlocked)
    (fun hw => Bool.noConfusion hw) fun g' w u ha hh hnu hlock _ hx hku hs => ⟨ha, ?_⟩
  have hs' : u.seq = .swp := hs.trans hq
  have hk' : u.k = 2 := hku
  have haddr : u.x.addr = q.x.addr := congrArg InFlight.addr hx
  have hop : u.x.op = q.x.op := congrArg InFlight.op hx
  have hlock' : g'.LockedRead u.x.addr (bit u.x.op 22) := by
    rw [haddr, hop]
    exact hlock rfl
  simpa [Phase, hs', hk', hnu] using ⟨hh, hlock'⟩

omit h in
lemma keeps_swp_write (ha : Aligned q.pc) (hh : g.Holds q.pc q.de q.f1) (hn : q.nextType = .N)
    (hlock : g.LockedRead q.x.addr (bit q.x.op 22)) (hk : q.k = 2) (hq : q.seq = .swp) :
    Keeps g q.cSwp := by
  rw [cSwp_write hk]
  refine keeps_locked (q := q.setK 3) ha hh hn rfl rfl (fun hw => Bool.noConfusion hw)
    (fun _ => hlock) fun g' w u ha hh hnu _ hu hx hku hs => ⟨ha, ?_⟩
  have hs' : u.seq = .swp := hs.trans hq
  have hk' : u.k = 3 := hku
  simpa [Phase, hs', hk', hnu] using ⟨hh, hu rfl⟩

lemma keeps_swp_end (hI : q.nextType = .I) (hk : q.k = 3) : Keeps g q.cSwp := by
  rw [cSwp_end (Nat.le_of_eq hk.symm)]
  refine keeps_internal (q := q.setK (q.k + 1)) ⟨h.aligned, h.unlocked, h.holds⟩ hI
    fun g' w u hm hn hf _ _ _ => ?_
  refine (hm.congr ?_ ?_ ?_).done (Or.inr ⟨?_, ?_⟩) <;>
    (unfold swpEnd; split_ifs <;> first | rfl | exact hn | exact hf)

lemma keeps_bdt_load (hk : q.k ≠ 0) (hr : q.x.r ≠ 16) (hL : bit q.x.op 20 = true)
    (hn : g.Announced q.nextType q.x.addr false false) (hq : q.seq = .bdt) : Keeps g q.cBdt := by
  unfold cBdt
  rw [if_neg hk, if_neg hr, if_pos hL]
  refine keeps_data h hn rfl rfl fun g' w u hm hnu hf hx _ hs => ?_
  have hs' : u.seq = .bdt := hs.trans hq
  have hlast : q.bdtLast = u.bdtLast := by rw [bdtLast, bdtLast, hx]
  have hL' : bit u.x.op 20 = true := hx ▸ hL
  have hf' : g'.Follows (u.x.addr + 4) false false := hx ▸ hf
  rw [bdt_load_eq w hL']
  rw [hlast] at hnu
  cases hl : u.bdtLast with
  | true =>
    rw [hl] at hnu
    refine ⟨by simpa using hm.aligned, ?_⟩
    simpa [Phase, hs', hl, hnu] using ⟨hm.holds, hm.unlocked⟩
  | false =>
    rw [hl] at hnu
    have hne : u.x.r + 1 + ctz (u.x.list >>> (u.x.r + 1)) ≠ 16 := Nat.ne_of_lt (bdtNext_lt u hl)
    refine ⟨by simpa using hm.aligned, ?_⟩
    simpa [Phase, hs', hl, hne, hL'] using ⟨hm.holds, hm.unlocked, Or.inr ⟨hnu, hf'⟩⟩

lemma keeps_bdt_store (hk : q.k ≠ 0) (hr : q.x.r ≠ 16) (hL : bit q.x.op 20 = false)
    (hn : g.Announced q.nextType q.x.addr true false) (hq : q.seq = .bdt) : Keeps g q.cBdt := by
  unfold cBdt
  rw [if_neg hk, if_neg hr, if_neg (by simp [hL])]
  refine keeps_data h hn rfl rfl fun g' w u hm hnu hf hx _ hs => ?_
  have hs' : u.seq = .bdt := hs.trans hq
  have hlast : q.bdtLast = u.bdtLast := by rw [bdtLast, bdtLast, hx]
  have hL' : bit u.x.op 20 = false := hx ▸ hL
  have hf' : g'.Follows (u.x.addr + 4) true false := hx ▸ hf
  rw [bdt_store_eq hL']
  rw [hlast] at hnu
  cases hl : u.bdtLast with
  | true =>
    rw [hl] at hnu
    refine (hm.congr ?_ ?_ ?_).done (Or.inl ?_) <;> simp [hnu]
  | false =>
    rw [hl] at hnu
    have hne : u.x.r + 1 + ctz (u.x.list >>> (u.x.r + 1)) ≠ 16 := Nat.ne_of_lt (bdtNext_lt u hl)
    refine ⟨by simpa using hm.aligned, ?_⟩
    simpa [Phase, hs', hl, hne, hL'] using ⟨hm.holds, hm.unlocked, Or.inr ⟨hnu, hf'⟩⟩

lemma keeps_bdt_final (hk : q.k ≠ 0) (hr : q.x.r = 16) (hI : q.nextType = .I) :
    Keeps g q.cBdt := by
  rw [cBdt_final hk hr]
  refine keeps_internal h hI fun g' w u hm hn hf hx _ _ => ?_
  rw [← hx] at hn
  unfold bdtEnd
  cases hpc : u.x.pcLoaded with
  | true =>
    rw [hpc] at hn
    by_cases hab : u.x.ab = true
    · rw [if_pos hab]
      exact Mid.done (u := (u.wr _ _).setDabort true) (hm.congr rfl rfl rfl) (Or.inl hn)
    · rw [if_neg hab, if_pos rfl]
      exact control_refill (u := u.setCpsr _) hm.aligned hm.unlocked hn (aligned_mask _)
  | false =>
    rw [hpc] at hn
    by_cases hab : u.x.ab = true
    · rw [if_pos hab]
      exact Mid.done (u := (u.wr _ _).setDabort true) (hm.congr rfl rfl rfl) (Or.inr ⟨hn, hf⟩)
    · rw [if_neg hab, if_neg Bool.false_ne_true]
      exact hm.done (Or.inr ⟨hn, hf⟩)

end Later

/-! #### First cycles -/

variable (h : Ready g q)

include h

lemma keeps_skip : Keeps g q.cSkip :=
  keeps_cycle1 h fun _ _ hm hn hf _ _ _ => hm.done (Or.inr ⟨hn, hf⟩)

lemma keeps_branch : Keeps g q.cBranch := by
  unfold cBranch
  refine keeps_cycle1 h fun g' u hm hn _ _ _ _ => ?_
  have ht : Aligned (q.pc + (q.x.op <<< 8).sshiftRight 6) := h.aligned.add (aligned_offset _)
  dsimp only
  split_ifs
  · exact control_refill (u := u.wr _ _) hm.aligned hm.unlocked hn ht
  · exact control_refill hm.aligned hm.unlocked hn ht

lemma keeps_dp (hq : q.seq = .dp) (hk : q.k = 0) : Keeps g q.cDp := by
  rcases Bool.eq_false_or_eq_true (regShift q.x.op) with hr | hr
  · rw [cDp_amount hk hr]
    refine keeps_cycle1 (h.setX _) fun g' u hm hn _ _ _ hs => ⟨hm.aligned, ?_⟩
    have hs' : u.seq = .dp := hs.trans hq
    simpa [Phase, hs', hn] using ⟨hm.unlocked, hm.holds⟩
  · rw [cDp_single hk hr]
    exact keeps_cycle1 (h.setX _) fun g' u hm hn hf hx _ _ =>
      control_dpFinish hm (by rw [hn, hx]; rfl) hf _ _ _

lemma keeps_psr : Keeps g q.cPsr := by
  cases hop : bit q.x.op 21 with
  | false =>
    rw [cPsr_mrs hop]
    split_ifs
    · exact keeps_cycle1 h fun g' u hm hn _ _ _ _ =>
        control_refill hm.aligned hm.unlocked hn (aligned_mask _)
    · exact keeps_cycle1 h fun g' u hm hn hf _ _ _ =>
        Mid.done (u := u.wr _ _) (hm.congr rfl rfl rfl) (Or.inr ⟨hn, hf⟩)
  | true =>
    rw [cPsr_msr hop]
    refine keeps_cycle1 h fun g' u hm hn hf _ _ _ => ?_
    obtain ⟨hpc, hde, hf1, hnt⟩ := msrWrite_frame (u := u) (p := bit q.x.op 22)
      (v := q.msrSource q.x.op) (m := msrMask q.x.op)
    exact (hm.congr hpc hde hf1).done (Or.inr ⟨hnt.trans hn, hpc ▸ hf⟩)

lemma keeps_mul (hq : q.seq = .mul) (hk : q.k = 0) : Keeps g q.cMul := by
  unfold cMul cMulStart
  rw [if_pos hk]
  refine keeps_cycle1 (h.setX _) fun g' u hm hn _ _ _ hs => ⟨hm.aligned, ?_⟩
  have hs' : u.seq = .mul := hs.trans hq
  simpa [Phase, hs', hn] using ⟨hm.unlocked, hm.holds⟩

lemma keeps_swp (hq : q.seq = .swp) (hk : q.k = 0) : Keeps g q.cSwp := by
  rw [cSwp_start hk]
  refine keeps_cycle1 ((h.setK _).setX _) fun g' u hm hn _ _ hku hs => ⟨hm.aligned, ?_⟩
  have hs' : u.seq = .swp := hs.trans hq
  have hk' : u.k = 1 := hku
  simpa [Phase, hs', hk', hn] using ⟨hm.holds, hm.unlocked⟩

lemma keeps_sdt (hq : q.seq = .sdt) (hk : q.k = 0) : Keeps g q.cSdt := by
  unfold cSdt
  rw [if_pos hk]
  refine keeps_cycle1 (h.setX _) fun g' u hm hn _ hx _ hs => ⟨hm.aligned, ?_⟩
  have hs' : u.seq = .sdt := hs.trans hq
  simpa [Phase, hs', hn, hx] using ⟨hm.holds, hm.unlocked⟩

lemma keeps_bdt (hq : q.seq = .bdt) (hk : q.k = 0) : Keeps g q.cBdt := by
  unfold cBdt cBdtStart
  rw [if_pos hk]
  refine keeps_cycle1 (h.setX _) fun g' u hm hn _ hx _ hs => ⟨hm.aligned, ?_⟩
  have hs' : u.seq = .bdt := hs.trans hq
  have hr : ctz (effList q.x.op) ≠ 16 := Nat.ne_of_lt (lowest_lt (effList_ne_zero _))
  simpa [Phase, hs', hx, hr] using ⟨hm.holds, hm.unlocked, Or.inl hn⟩

end Sequences

/-! #### Entries and refills -/

section Entries

lemma keeps_undef (h : Fresh g q) (hq : q.seq = .undefTrap) (hk : q.k = 0) : Keeps g q.cUndef := by
  unfold cUndef
  rw [if_pos hk]
  refine ⟨proper_fetch (q := q) h.announced h.unlocked h.aligned rfl, fun a => ⟨h.aligned, ?_⟩⟩
  have hu : (g.record (q.cyc q.pc q.fetchFlags 0 .I fun _ s => s).bus a).Unlocked :=
    record_unlocked rfl
  simpa [Phase, hq] using ⟨h.aligned, hu⟩

/-- The second cycle of the trap is internal although it looks like a fetch. -/
lemma keeps_undef_entry (ha : Aligned q.pc) (hx : Aligned q.x.addr) (hu : g.Unlocked)
    (hI : q.nextType = .I) (hk : q.k ≠ 0) : Keeps g q.cUndef := by
  unfold cUndef
  rw [if_neg hk]
  refine ⟨⟨fun hS => absurd (hI.symm.trans hS) (by decide), fun hl => Bool.noConfusion hl,
    Or.inl hu, fun _ => ⟨rfl, rfl, rfl⟩, fun hC => absurd (hI.symm.trans hC) (by decide),
    fun _ => ⟨rfl, hx⟩⟩, fun a => ?_⟩
  exact control_refill (u := (q.sampled a .N).enter _ _ _ _) ha (record_unlocked rfl) rfl
    (by decide : Aligned 4)

lemma keeps_exc (h : Fresh g q) (hv : Aligned q.x.vector) : Keeps g q.cExc := by
  unfold cExc
  exact ⟨proper_fetch (q := q) h.announced h.unlocked h.aligned rfl, fun a =>
    control_refill (u := (q.sampled a .N).enter _ _ _ _) h.aligned (record_unlocked rfl) rfl hv⟩

lemma keeps_reset (h : Fresh g q) (hr : q.inReset = true) : Keeps g q.cReset := by
  unfold cReset
  refine ⟨proper_fetch (q := q) h.announced h.unlocked h.aligned rfl, fun a =>
    ⟨h.aligned.add_four, Or.inr ⟨rfl, ?_⟩, record_unlocked rfl, fun h0 => ?_⟩⟩
  · exact ⟨_, rfl, Or.inl ⟨(Announced.ne_I h.announced).1, rfl, rfl, rfl⟩⟩
  · exact absurd (hr.symm.trans h0) (by decide)

lemma keeps_refill (ha : Aligned q.pc) (ht : Aligned q.x.target) (hu : g.Unlocked)
    (hn : q.nextType = .N) (hk : q.k = 0) (hq : q.seq = .refill) : Keeps g q.cRefill := by
  have hmem : q.nextType.isMem = true := by rw [hn]; rfl
  unfold cRefill
  rw [if_pos hk]
  refine ⟨proper_fetch (q := q) (Or.inl hn) hu ht rfl, fun a => ⟨ha, ?_⟩⟩
  generalize hb : (q.cyc q.x.target q.fetchFlags 0 .S _).bus = b
  have hfetch : b.isFetch = true := hb ▸ isFetch_cyc hmem
  have haddr : b.addr = q.x.target := by rw [← hb]; rfl
  have hfa : (g.record b a).fetched q.x.target = some ⟨a.rdata, a.abort⟩ := by
    rw [record_fetched hfetch, haddr, Function.update_self]
  have hfollows : (g.record b a).Follows (q.x.target + 4) false true :=
    ⟨b, rfl, Or.inl ⟨by rw [← hb]; exact hmem, by rw [haddr], by rw [← hb]; rfl, by rw [← hb]; rfl⟩⟩
  have hu' : (g.record b a).Unlocked := record_unlocked (by rw [← hb]; rfl)
  simpa [Phase, hq, hmem, hfa] using ⟨ht, hu', hfollows⟩

lemma keeps_refill_end (ht : Aligned q.x.target) (hu : g.Unlocked) (hn : q.nextType = .S)
    (hf : g.Follows (q.x.target + 4) false true) (hfa : g.fetched q.x.target = some q.x.fa)
    (hk : q.k ≠ 0) : Keeps g q.cRefill := by
  have hmem : q.nextType.isMem = true := by rw [hn]; rfl
  unfold cRefill
  rw [if_neg hk]
  refine ⟨proper_fetch (q := q) (Or.inr ⟨hn, hf⟩) hu ht.add_four rfl, fun a =>
    ⟨ht.add (by decide : Aligned 8), Or.inr ⟨rfl, ?_⟩, record_unlocked rfl, fun _ _ => ?_⟩⟩
  · have haddr : q.x.target + 8 = q.x.target + 4 + 4 := by bv_omega
    exact ⟨_, rfl, Or.inl ⟨hmem, haddr, rfl, rfl⟩⟩
  · generalize hb : (q.cyc (q.x.target + 4) q.fetchFlags 0 .S _).bus = b
    have hfetch : b.isFetch = true := hb ▸ isFetch_cyc hmem
    have haddr : b.addr = q.x.target + 4 := by rw [← hb]; rfl
    have h8 : q.x.target + 8 - 8 = q.x.target := by bv_omega
    have h4 : q.x.target + 8 - 4 = q.x.target + 4 := by bv_omega
    have hne : q.x.target ≠ q.x.target + 4 := by bv_omega
    change (g.record b a).Holds (q.x.target + 8) q.x.fa ⟨a.rdata, a.abort && q.nextType.isMem⟩
    rw [hmem, Bool.and_true, History.Holds, record_fetched hfetch, haddr, h8, h4]
    exact ⟨by rw [Function.update_of_ne hne, hfa], Function.update_self _ _ _⟩

end Entries

/-! ### The step -/

lemma poke_control (h : Control g q) (ls : List Line) : Control g (q.poke ls) := by
  refine ⟨by simpa using h.aligned, ?_⟩
  have hp := h.phase
  cases hs : q.seq
  case idle =>
    simp only [Phase, poke_seq, hs, poke_nextType, poke_pc, poke_ex, poke_de] at hp ⊢
    refine ⟨hp.1, hp.2.1, fun h0 h1 => ?_⟩
    obtain ⟨h0', h1'⟩ := poke_reset q ls h0 h1
    exact hp.2.2 h0' h1'
  case reset | skip | psr | branch | exc => exact absurd hp (by simp [Phase, hs])
  all_goals
    simp only [Phase, poke_seq, hs, poke_nextType, poke_pc, poke_de, poke_f1, poke_k, poke_x] at hp ⊢
    exact hp

/-- The sequence of an instruction word. -/
lemma keeps_decode (h : Ready g q) (hk : q.k = 0) (op : Word) : Keeps g (q.decode op).sequence := by
  have ht := h.setX { q.x with op := op }
  have htk : (q.setX { q.x with op := op }).k = 0 := hk
  rw [decode_eq]
  generalize q.setX { q.x with op := op } = t at ht htk
  have hseq : ∀ x, Ready g (t.setSeq x) := fun x =>
    ⟨⟨ht.aligned, ht.announced, ht.unlocked⟩, ht.holds⟩
  dsimp only
  by_cases hc : t.condPass op = true
  · rw [if_pos hc]
    rcases seqOf_cases op with hs | hs | hs | hs | hs | hs | hs | hs | hs <;> rw [hs]
    · exact keeps_dp (hseq .dp) rfl htk
    · exact keeps_psr (hseq .psr)
    · exact keeps_mul (hseq .mul) rfl htk
    · exact keeps_swp (hseq .swp) rfl htk
    · exact keeps_sdt (hseq .sdt) rfl htk
    · exact keeps_bdt (hseq .bdt) rfl htk
    · exact keeps_branch (hseq .branch)
    · exact keeps_undef (hseq .undefTrap).toFresh rfl htk
    · exact keeps_exc ⟨ht.aligned, ht.announced, ht.unlocked⟩ (by decide : Aligned 0x08)
  · rw [if_neg hc]
    exact keeps_skip (hseq .skip)

/-- What begins at a boundary. -/
lemma keeps_begin (h : Control g q) (hq : q.seq = .idle) : Keeps g q.begin.sequence := by
  have hp := h.phase
  simp only [Phase, hq] at hp
  have hfresh : Fresh g (q.setK 0) := ⟨h.aligned, hp.1, hp.2.1⟩
  have hexc : ∀ (u : Arm7DI) v m f, Fresh g u → Aligned v → Keeps g (u.startExc v m f).sequence :=
    fun u v m f hu hv => keeps_exc ⟨hu.aligned, hu.announced, hu.unlocked⟩ hv
  unfold begin
  dsimp only
  split_ifs with h1 h2 h3 h4 h5 h6
  · exact keeps_reset ⟨hfresh.aligned, hfresh.announced, hfresh.unlocked⟩ h1
  · exact hexc _ _ _ _ ⟨hfresh.aligned, hfresh.announced, hfresh.unlocked⟩ (by decide)
  · exact hexc _ _ _ _ ⟨hfresh.aligned, hfresh.announced, hfresh.unlocked⟩ (by decide)
  · exact hexc _ _ _ _ hfresh (by decide)
  · exact hexc _ _ _ _ hfresh (by decide)
  · exact hexc _ _ _ _ hfresh (by decide)
  · exact keeps_decode ⟨hfresh, hp.2.2 (Bool.eq_false_iff.mpr h1) (Bool.eq_false_iff.mpr h2)⟩ rfl _

lemma keeps_busCycle (h : Control g q) : Keeps g q.busCycle := by
  by_cases hq : q.seq = .idle
  · rw [busCycle_idle hq]
    exact keeps_begin h hq
  have hp := h.phase
  rw [busCycle_of_ne hq]
  unfold sequence
  unfold Phase at hp
  cases hs : q.seq with
  | idle => exact absurd hs hq
  | reset => simp [hs] at hp
  | skip => simp [hs] at hp
  | psr => simp [hs] at hp
  | branch => simp [hs] at hp
  | exc => simp [hs] at hp
  | dp =>
    simp only [hs] at hp
    obtain ⟨hk, hI, hu, hh⟩ := hp
    exact keeps_dp_shift ⟨h.aligned, hu, hh⟩ hI hk
  | mul =>
    simp only [hs] at hp
    obtain ⟨hk, hI, hu, hh⟩ := hp
    exact keeps_mul_step ⟨h.aligned, hu, hh⟩ hI hk hs
  | swp =>
    simp only [hs] at hp
    obtain ⟨hh, ⟨hk, hn, hu⟩ | ⟨hk, hn, hl⟩ | ⟨hk, hI, hu⟩⟩ := hp
    · exact keeps_swp_read ⟨h.aligned, hu, hh⟩ hn hk hs
    · exact keeps_swp_write h.aligned hh hn hl hk hs
    · exact keeps_swp_end ⟨h.aligned, hu, hh⟩ hI hk
  | sdt =>
    simp only [hs] at hp
    obtain ⟨hh, hu, ⟨hk, hn, hl, ho⟩ | ⟨hk, hI, hL⟩⟩ := hp
    · cases hL : bit q.x.op 20 with
      | true => exact keeps_sdt_load ⟨h.aligned, hu, hh⟩ hn hk hL hl ho hs
      | false => exact keeps_sdt_store ⟨h.aligned, hu, hh⟩ hn (by omega) hL hl ho
    · exact keeps_sdt_end ⟨h.aligned, hu, hh⟩ hI hk hL
  | bdt =>
    simp only [hs] at hp
    obtain ⟨hh, hu, hk, ⟨hr, hI⟩ | ⟨hr, hn⟩⟩ := hp
    · exact keeps_bdt_final ⟨h.aligned, hu, hh⟩ hk hr hI
    · cases hL : bit q.x.op 20 with
      | true => exact keeps_bdt_load ⟨h.aligned, hu, hh⟩ hk hr hL (by simpa [hL] using hn) hs
      | false => exact keeps_bdt_store ⟨h.aligned, hu, hh⟩ hk hr hL (by simpa [hL] using hn) hs
  | undefTrap =>
    simp only [hs] at hp
    obtain ⟨hk, hI, ha, hu⟩ := hp
    exact keeps_undef_entry h.aligned ha hu hI hk
  | refill =>
    simp only [hs] at hp
    obtain ⟨ht, hu, ⟨hk, hn⟩ | ⟨hk, hn, hf, hfa⟩⟩ := hp
    · exact keeps_refill h.aligned ht hu hn hk hs
    · exact keeps_refill_end ht hu hn hf hfa hk

/-! ### Runs from power-on -/

/-- The history of a run. -/
def histories (s : Arm7DI) (inp : ℕ → Input) (n : ℕ) : History :=
  core.history (fun g s i => g.record (core.out s i) i.ans) ⟨none, fun _ => none⟩ s inp n

variable (stages : ℕ) (carry : MulCarry) (inp : ℕ → Input)

lemma control_powerOn : Control ⟨none, fun _ => none⟩ (powerOn stages carry) := by
  refine ⟨(by decide : Aligned 0), Or.inl rfl, ?_, ?_⟩
  · rintro p ⟨⟩
  · rintro - ⟨⟩

lemma control_after (n : ℕ) : Control (histories (powerOn stages carry) inp n)
    (core.after (powerOn stages carry) inp n) :=
  Machine.invariant_history (control_powerOn stages carry)
    (fun n h => (keeps_busCycle (poke_control h (inp n).lines)).control (inp n).ans) n

lemma proper_outs (n : ℕ) : Proper (histories (powerOn stages carry) inp n)
    (core.outs (powerOn stages carry) inp n) :=
  (keeps_busCycle (poke_control (control_after stages carry inp n) (inp n).lines)).proper

end Arm7DI

end Wren7
