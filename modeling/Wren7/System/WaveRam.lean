import Wren7.Equiv.MemoryMap
import Wren7.Model.Instr
import Wren7.System.Jobs

/-!
# The wave RAM under the core

What a bus cycle does to the wave RAM and what it reads there, and an instruction of a system as a
row of bus cycles.
-/

namespace Wren7

open Bits Reactive

/-- The bytes of the wave RAM. -/
abbrev Ram := BitVec 21 → BitVec 8

namespace Ram

variable {f : Ram} {w w' : BitVec 19} {v : Word} {d : ℕ → Word} {n j : ℕ}

/-! ### Words -/

/-- The word at a place. -/
def wordAt (f : Ram) (w : BitVec 19) : Word :=
  f (byteAt w 3) ++ f (byteAt w 2) ++ f (byteAt w 1) ++ f (byteAt w 0)

/-- A word replaced. -/
def putWord (f : Ram) (w : BitVec 19) (v : Word) : Ram := fun i =>
  if i.extractLsb' 2 19 = w then v.extractLsb' (8 * (i.extractLsb' 0 2).toNat) 8 else f i

lemma wordAt_congr {g : Ram} (h : ∀ l, g (byteAt w l) = f (byteAt w l)) :
    wordAt g w = wordAt f w := by
  simp only [wordAt, h]

/-- The word of a place, bit by bit. -/
lemma getLsbD_wordAt {k : ℕ} (hk : k < 32) :
    (wordAt f w).getLsbD k = (f (byteAt w (BitVec.ofNat 2 (k / 8)))).getLsbD (k % 8) := by
  have hbyte {b : BitVec 2} {m : ℕ} (hb : BitVec.ofNat 2 (k / 8) = b) (hm : k % 8 = m) :
      (f (byteAt w b)).getLsbD m = (f (byteAt w (BitVec.ofNat 2 (k / 8)))).getLsbD (k % 8) := by
    rw [hb, hm]
  refine BitVec.getLsbD_append.trans ?_
  split_ifs with h0
  · exact hbyte (by rw [show k / 8 = 0 by omega]; rfl) (by omega)
  refine BitVec.getLsbD_append.trans ?_
  split_ifs with h1
  · exact hbyte (by rw [show k / 8 = 1 by omega]; rfl) (by omega)
  refine BitVec.getLsbD_append.trans ?_
  split_ifs with h2
  · exact hbyte (by rw [show k / 8 = 2 by omega]; rfl) (by omega)
  · exact hbyte (by rw [show k / 8 = 3 by omega]; rfl) (by omega)

lemma wordAt_putWord_self : wordAt (putWord f w v) w = v := by
  apply BitVec.eq_of_getLsbD_eq
  intro k hk
  rw [getLsbD_wordAt hk, putWord, byteAt_word, if_pos rfl, byteAt_lane, BitVec.toNat_ofNat,
    BitVec.getLsbD_extractLsb', decide_eq_true (Nat.mod_lt k (by decide)), Bool.true_and]
  congr 1
  omega

/-- A byte of a word. -/
lemma wordAt_byte (l : BitVec 2) :
    (wordAt f w >>> (8 * l.toNat)) &&& 0xFF = (f (byteAt w l)).setWidth 32 := by
  have hl := l.isLt
  apply BitVec.eq_of_getLsbD_eq
  intro k hk
  have hmask : (0xFF : Word).getLsbD k = decide (k < 8) := by
    revert k
    decide
  rw [BitVec.getLsbD_and, BitVec.getLsbD_ushiftRight, BitVec.getLsbD_setWidth, hmask,
    decide_eq_true hk, Bool.true_and]
  by_cases h8 : k < 8
  · rw [getLsbD_wordAt (by omega), decide_eq_true h8, Bool.and_true]
    have hlane : BitVec.ofNat 2 ((8 * l.toNat + k) / 8) = l := by
      rw [show (8 * l.toNat + k) / 8 = l.toNat by omega, BitVec.ofNat_toNat, BitVec.setWidth_eq]
    rw [hlane, show (8 * l.toNat + k) % 8 = k by omega]
  · rw [decide_eq_false h8, Bool.and_false, BitVec.getLsbD_of_ge _ _ (by omega)]

lemma wordAt_putWord_of_ne (h : w' ≠ w) : wordAt (putWord f w v) w' = wordAt f w' :=
  wordAt_congr fun l => by rw [putWord, byteAt_word, if_neg h]

/-! ### Blocks -/

/-- `n` successive words replaced. -/
def putWords (f : Ram) (w : BitVec 19) (d : ℕ → Word) : ℕ → Ram
  | 0 => f
  | n + 1 => (putWords f w d n).putWord (w + BitVec.ofNat 19 n) (d n)

/-- The places of a block are different. -/
lemma place_ne {i : ℕ} (hi : i < n) (hj : j < n) (hn : n ≤ 2 ^ 19) (hne : i ≠ j) :
    w + BitVec.ofNat 19 i ≠ w + BitVec.ofNat 19 j := by
  intro h
  have := congrArg BitVec.toNat ((BitVec.add_right_inj w).mp h)
  rw [BitVec.toNat_ofNat, BitVec.toNat_ofNat, Nat.mod_eq_of_lt (by omega),
    Nat.mod_eq_of_lt (by omega)] at this
  exact hne this

lemma wordAt_putWords (hn : n ≤ 2 ^ 19) (hj : j < n) :
    wordAt (putWords f w d n) (w + BitVec.ofNat 19 j) = d j := by
  induction n with
  | zero => exact absurd hj (Nat.not_lt_zero j)
  | succ n ih =>
    rw [putWords]
    rcases Nat.lt_succ_iff_lt_or_eq.mp hj with h | rfl
    · rw [wordAt_putWord_of_ne (place_ne (Nat.lt_succ_of_lt h) (Nat.lt_succ_self n) hn h.ne),
        ih (by omega) h]
    · exact wordAt_putWord_self

lemma putWords_other {i : BitVec 21}
    (h : ∀ j < n, i.extractLsb' 2 19 ≠ w + BitVec.ofNat 19 j) : putWords f w d n i = f i := by
  induction n with
  | zero => rfl
  | succ n ih =>
    rw [putWords, putWord, if_neg (h n (Nat.lt_succ_self n)),
      ih fun j hj => h j (Nat.lt_succ_of_lt hj)]

end Ram

/-! ### Bus cycles -/

/-- The wave RAM after a bus cycle. -/
def Signals.stored (c : Signals) (f : Ram) : Ram :=
  if c.type.isMem && DcArmBus.inRam c.addr && c.flags.write then
    if c.flags.byte then
      Function.update f (DcArmBus.ramIndex c.addr)
        ((c.wdata >>> (8 * (field c.addr 0 2).toNat)).setWidth 8)
    else f.putWord (DcArmBus.ramWord c.addr) c.wdata
  else f

lemma Signals.stored_read {c : Signals} {f : Ram} (h : c.flags.write = false) : c.stored f = f := by
  rw [stored, h, Bool.and_false, if_neg Bool.false_ne_true]

/-- Cycles that write nothing leave the wave RAM as it is. -/
lemma Signals.foldl_stored_reads {l : List Signals} {f : Ram}
    (h : ∀ c ∈ l, c.flags.write = false) : l.foldl (fun f c => c.stored f) f = f := by
  induction l with
  | nil => rfl
  | cons c l ih =>
    rw [List.foldl_cons, Signals.stored_read (h c List.mem_cons_self),
      ih fun c hc => h c (List.mem_cons_of_mem _ hc)]

section Stored

variable {c : Signals} {f : Ram} (hm : c.type.isMem = true) (hr : DcArmBus.inRam c.addr = true)
  (hw : c.flags.write = true)

include hm hr hw

lemma Signals.stored_word (hb : c.flags.byte = false) :
    c.stored f = f.putWord (DcArmBus.ramWord c.addr) c.wdata := by
  rw [stored, hm, hr, hw, hb]
  rfl

lemma Signals.stored_byte (hb : c.flags.byte = true) :
    c.stored f = Function.update f (DcArmBus.ramIndex c.addr)
      ((c.wdata >>> (8 * (field c.addr 0 2).toNat)).setWidth 8) := by
  rw [stored, hm, hr, hw, hb]
  rfl

end Stored

namespace DcArmBus

variable {ρ : Type*} {b : DcArmBus ρ} {c : BusCycle}

lemma rd32_eq_wordAt (addr : Word) : b.rd32 addr = Ram.wordAt b.ram (ramWord addr) :=
  rd32_eq b addr

lemma wr32_ram (addr v : Word) : (b.wr32 addr v).ram = Ram.putWord b.ram (ramWord addr) v := by
  rw [wr32_eq]
  rfl

lemma toNat_ramWord (addr : Word) : (ramWord addr).toNat = addr.toNat / 4 % 2 ^ 19 := by
  rw [ramWord, field, BitVec.extractLsb'_toNat, Nat.shiftRight_eq_div_pow]

lemma ramWord_add (addr : Word) (j : ℕ) :
    ramWord (addr + 4 * BitVec.ofNat 32 j) = ramWord addr + BitVec.ofNat 19 j := by
  apply BitVec.eq_of_toNat_eq
  rw [BitVec.toNat_add, toNat_ramWord, toNat_ramWord, BitVec.toNat_add, BitVec.toNat_mul,
    BitVec.toNat_ofNat, BitVec.toNat_ofNat, show (4 : Word).toNat = 4 from rfl]
  omega

/-! #### The arbitration leaves the wave RAM alone -/

section Arbitration

variable (b)

lemma slotUsedAt_ram (g : ℕ) : (b.slotUsedAt g).2.ram = b.ram := by
  unfold slotUsedAt slotUsed refreshed
  split_ifs <;> rfl

lemma sh4Search_ram (n g : ℕ) : (sh4Search n g b).2.ram = b.ram := by
  induction n generalizing g b with
  | zero => rfl
  | succ n ih =>
    rw [sh4Search]
    split_ifs
    · rw [ih, slotUsedAt_ram]
    · rw [ih, slotUsedAt_ram]
    · exact b.slotUsedAt_ram g

lemma sh4Take_ram (n g last : ℕ) : (sh4Take n g last b).2.ram = b.ram := by
  induction n generalizing g last b with
  | zero => rfl
  | succ n ih =>
    rw [sh4Take]
    exact (ih _ _ _).trans (b.sh4Search_ram 256 g)

lemma sh4Arrivals_ram (t n : ℕ) : (sh4Arrivals t n b).ram = b.ram := by
  induction n generalizing b with
  | zero => rfl
  | succ n ih =>
    rw [sh4Arrivals]
    split_ifs
    · exact (ih _).trans (b.sh4Take_ram _ _ _)
    · rfl

lemma sh4Advance_ram (t : ℕ) : (b.sh4Advance t).ram = b.ram := by
  unfold sh4Advance
  dsimp only [sh4Prune, setSh4Slots_ram]
  split_ifs
  · exact sh4Arrivals_ram _ _ _
  · exact sh4Arrivals_ram _ _ _
  · rfl

lemma ramSearch_ram (n g : ℕ) : (ramSearch n g b).2.ram = b.ram := by
  induction n generalizing g b with
  | zero => rfl
  | succ n ih =>
    rw [ramSearch]
    split_ifs
    · exact b.slotUsedAt_ram g
    · exact (ih _ _).trans ((sh4Advance_ram _ _).trans (b.slotUsedAt_ram g))

lemma blockSearch_ram (n g : ℕ) : (blockSearch n g b).2.ram = b.ram := by
  induction n generalizing g b with
  | zero => rfl
  | succ n ih =>
    rw [blockSearch]
    split_ifs <;> first | rfl | exact ih _ _

lemma gridStart_ram (c : BusCycle) : (b.gridStart c).2.ram = b.ram := by
  have hram (n g t : ℕ) : (ramSearch n g (b.sh4Advance t)).2.ram = b.ram :=
    (ramSearch_ram _ n g).trans (b.sh4Advance_ram t)
  unfold gridStart
  dsimp only
  split_ifs <;> first | rfl | exact hram _ _ _ | exact b.blockSearch_ram _ _

lemma arbitrated_ram (c : BusCycle) : (b.arbitrated c).ram = b.ram := by
  unfold arbitrated
  split_ifs <;> first | rfl | exact b.gridStart_ram c

end Arbitration

variable [AicaRegs ρ]

lemma cycle_ram : (b.cycle c).2.ram = c.signals.stored b.ram := by
  have hsig : c.signals.type = c.type ∧ c.signals.addr = c.addr ∧ c.signals.flags = c.flags :=
    ⟨rfl, rfl, rfl⟩
  rw [Signals.stored, hsig.1, hsig.2.1, hsig.2.2]
  cases hm : c.type.isMem with
  | false => rw [cycle_internal hm]; rfl
  | true =>
    rw [cycle_mem hm, access]
    cases hr : inRam c.addr with
    | false => exact arbitrated_ram _ c
    | true =>
      cases hw : c.flags.write with
      | false => exact arbitrated_ram _ c
      | true =>
        cases hb : c.flags.byte with
        | false => exact (wr32_ram _ _).trans (by rw [arbitrated_ram]; rfl)
        | true =>
          exact congrArg (fun f => Function.update f (ramIndex c.addr)
            ((c.wdata >>> (8 * (field c.addr 0 2).toNat)).setWidth 8)) (arbitrated_ram _ c)

/-- A read of the wave RAM. -/
lemma cycle_rdata (hm : c.type.isMem = true) (hr : inRam c.addr = true)
    (hw : c.flags.write = false) :
    (b.cycle c).1.rdata = Ram.wordAt b.ram (ramWord c.addr) := by
  have h : (b.cycle c).1.rdata = ((b.tick c.t).arbitrated c).rd32 c.addr := by
    unfold cycle
    rw [if_neg (by rw [hm]; decide)]
    change (((b.tick c.t).arbitrated c).access c).1 = _
    unfold access
    rw [if_pos hr, if_neg (by rw [hw]; decide)]
  rw [h, rd32_eq_wordAt, arbitrated_ram]
  rfl

end DcArmBus

namespace System

variable {ρ : Type*}

lemma boundary_ram (s : System ρ) : s.boundary.bus.ram = s.bus.ram := by
  unfold boundary
  split_ifs <;> rfl

variable [AicaRegs ρ] (s : System ρ)

lemma busCycle_ram : s.busCycle.bus.ram = s.drive.signals.stored s.bus.ram := by
  rw [← boundary_ram s]
  exact DcArmBus.cycle_ram

lemma answer_abort : s.answer.abort = false := DcArmBus.cycle_abort _ _

variable {s}

lemma answer_rdata (hm : s.drive.type.isMem = true) (hr : DcArmBus.inRam s.drive.addr = true)
    (hw : s.drive.flags.write = false) :
    s.answer.rdata = Ram.wordAt s.bus.ram (DcArmBus.ramWord s.drive.addr) := by
  rw [← boundary_ram s]
  exact DcArmBus.cycle_rdata hm hr hw

/-! ### An instruction of a system -/

lemma jobs_after (s : System ρ) (n : ℕ) : jobs.after s (fun _ => []) n = System.busCycle^[n] s := by
  induction n with
  | zero => rfl
  | succ n ih =>
    rw [Machine.after_succ, ih, Function.iterate_succ_apply']
    rfl

/-- The inputs of the core in a run of the system: its lines as the bus moves them, and the answers
of the bus. -/
structure Feeds (s : System ρ) (inp : ℕ → Input) : Prop where
  core : ∀ k, (System.busCycle^[k] s).boundary.core =
    (Arm7DI.core.after s.core inp k).poke (inp k).lines
  ans : ∀ k, (inp k).ans = (System.busCycle^[k] s).answer

lemma exists_feeds (s : System ρ) : ∃ inp, s.Feeds inp := by
  obtain ⟨inp, h⟩ := s.exists_inputs fun _ => []
  simp only [jobs_after] at h
  exact ⟨inp, fun k => (h k).1, fun k => (h k).2⟩

/-- A boundary of a system at which the word `op` is executed. -/
structure Executes (s : System ρ) (op : Word) : Prop where
  quiet : s.boundary.core.Quiet
  word : s.core.ex.word = op
  passes : s.core.condPass op = true

/-- The system's next boundary comes after `n` bus cycles. -/
structure NextBoundary (s : System ρ) (n : ℕ) : Prop where
  pos : 0 < n
  busy : ∀ j, 0 < j → j < n → ¬(System.busCycle^[j] s).core.atBoundary
  boundary : (System.busCycle^[n] s).core.atBoundary

namespace Feeds

variable {inp : ℕ → Input} (hf : s.Feeds inp) {k n : ℕ}

include hf

lemma drive : (System.busCycle^[k] s).drive = Arm7DI.core.outs s.core inp k := by
  rw [Machine.outs, Arm7DI.core_out, ← hf.core k]
  rfl

lemma abort : (inp k).ans.abort = false := by
  rw [hf.ans k]
  exact answer_abort _

/-- What the lines do not move is the same in the system and in the run of the core. -/
lemma field {β : Type*} (f : Arm7DI → β) (h : ∀ u l, f (u.setLine l) = f u) :
    f (System.busCycle^[k] s).core = f (Arm7DI.core.after s.core inp k) := by
  obtain ⟨ls, hls⟩ := boundary_core (System.busCycle^[k] s)
  rw [← Arm7DI.poke_field _ f h ls, ← hls, hf.core k, Arm7DI.poke_field _ f h]

lemma quiet {op : Word} (h : s.Executes op) : (s.core.poke (inp 0).lines).Quiet := by
  have h0 := hf.core 0
  exact h0 ▸ h.quiet

lemma nextBoundary (h : Arm7DI.NextBoundary s.core inp n) : s.NextBoundary n := by
  have hseq (k : ℕ) : (System.busCycle^[k] s).core.atBoundary ↔
      (Arm7DI.core.after s.core inp k).atBoundary := by
    rw [Arm7DI.atBoundary, Arm7DI.atBoundary, hf.field (·.seq) fun u l => by cases l <;> rfl]
  exact ⟨h.pos, fun j h0 hj hb => h.busy j h0 hj ((hseq j).mp hb), (hseq n).mpr h.boundary⟩

variable {row : List Signals} {A : Arch}

/-- The wave RAM during the cycles of an instruction. -/
lemma ram (h : Arm7DI.Performs s.core inp row A) (hn : n ≤ row.length) :
    (System.busCycle^[n] s).bus.ram = (row.take n).foldl (fun f c => c.stored f) s.bus.ram := by
  induction n with
  | zero => rfl
  | succ n ih =>
    rw [Function.iterate_succ_apply', busCycle_ram, ih (Nat.le_of_succ_le hn), hf.drive,
      h.signals n hn, List.take_succ_eq_append_getElem hn, List.foldl_append]
    rfl

lemma ram_of_reads (h : Arm7DI.Performs s.core inp row A) (hn : n ≤ row.length)
    (hr : ∀ c ∈ row, c.flags.write = false) : (System.busCycle^[n] s).bus.ram = s.bus.ram := by
  rw [hf.ram h hn]
  exact Signals.foldl_stored_reads fun c hc => hr c (List.mem_of_mem_take hc)

/-- What a read of the wave RAM answers. -/
lemma rdata (hm : (Arm7DI.core.outs s.core inp k).type.isMem = true)
    (hr : DcArmBus.inRam (Arm7DI.core.outs s.core inp k).addr = true)
    (hw : (Arm7DI.core.outs s.core inp k).flags.write = false) : (inp k).ans.rdata =
      Ram.wordAt (System.busCycle^[k] s).bus.ram
        (DcArmBus.ramWord (Arm7DI.core.outs s.core inp k).addr) := by
  rw [← hf.drive] at hm hr hw ⊢
  rw [hf.ans k]
  exact answer_rdata hm hr hw

end Feeds

/-! ### A sample boundary -/

/-- A system at the boundary after reset, with R13_svc, R0 and R1 as given. -/
def holding (op sp r0 r1 : Word) (b : DcArmBus Empty) : System Empty where
  core := { Arm7DI.resting op with
    gpr := fun p => if p = phys 13 .svc then sp else
      if p = phys 0 .svc then r0 else if p = phys 1 .svc then r1 else 0 }
  bus := b

lemma holding_executes {op sp r0 r1 : Word} {b : DcArmBus Empty}
    (hc : (Arm7DI.resting op).condPass op = true) : (holding op sp r0 r1 b).Executes op := by
  -- reset masks both interrupts
  have hcpsr : (holding op sp r0 r1 b).boundary.core.cpsr =
      (Arm7DI.powerOn 0 .shifterLast).cpsr := rfl
  have hfiq : bit (Arm7DI.powerOn 0 .shifterLast).cpsr 6 = true := by decide
  have hirq : bit (Arm7DI.powerOn 0 .shifterLast).cpsr 7 = true := by decide
  refine ⟨⟨rfl, rfl, rfl, rfl, ?_, ?_, rfl⟩, rfl, hc⟩
  · rw [Arm7DI.takesFiq, hcpsr, hfiq, Bool.not_true, Bool.and_false]
  · rw [Arm7DI.takesIrq, hcpsr, hirq, Bool.not_true, Bool.and_false]

end System

end Wren7
