import Mathlib.Tactic.IntervalCases
import Wren7.Model.Conditions
import Wren7.Model.Outcome
import Wren7.Model.Reset

/-!
# Exceptions and their return

What a boundary takes, what the entry leaves, and what the return instruction in the first place of the
handler makes of that.
-/

namespace Wren7

open Bits Reactive

/-- The last two bits of a multiple of 4 are zero. -/
lemma Aligned.mask {w : Word} (h : Aligned w) : w &&& ~~~3 = w := by
  have hbits : ∀ i < 2, w.getLsbD i = false := fun i hi => by
    rw [BitVec.getLsbD, Nat.testBit_eq_decide_div_mod_eq, decide_eq_false_iff_not]
    unfold Aligned at h
    interval_cases i <;> omega
  refine BitVec.eq_of_getLsbD_eq fun i hi => ?_
  by_cases h2 : i < 2
  · rw [hbits i h2, BitVec.getLsbD_and, hbits i h2, Bool.false_and]
  · have h3 : (~~~3 : Word).getLsbD i = true := by interval_cases i <;> rfl
    rw [BitVec.getLsbD_and, h3, Bool.and_true]

/-- What a boundary can take, but for the reset. -/
inductive Exception
  | dataAbort | fiq | irq | prefetchAbort | swi | undefined
  deriving DecidableEq

namespace Exception

def vector : Exception → Word
  | .undefined => 0x04
  | .swi => 0x08
  | .prefetchAbort => 0x0C
  | .dataAbort => 0x10
  | .irq => 0x18
  | .fiq => 0x1C

def mode : Exception → BitVec 5
  | .undefined => mUnd
  | .swi => mSvc
  | .prefetchAbort | .dataAbort => mAbt
  | .irq => mIrq
  | .fiq => mFiq

/-- The entry masks FIQ too. -/
def setF (e : Exception) : Bool := e == .fiq

/-- The bus cycles of the entry. -/
def cycles : Exception → ℕ
  | .undefined => 4
  | _ => 3

/-- The instruction that returns: SUBS pc, r14, #8, SUBS pc, r14, #4 or MOVS pc, r14. -/
def ret : Exception → Word
  | .dataAbort => 0xE25EF008
  | .fiq | .irq | .prefetchAbort => 0xE25EF004
  | .swi | .undefined => 0xE1B0F00E

/-- Where the program goes on, with R15 at the boundary. -/
def resume (pc : Word) : Exception → Word
  | .dataAbort => pc - 12
  | .fiq | .irq | .prefetchAbort => pc - 8
  | .swi | .undefined => pc - 4

/-- The instruction in the execute slot is not executed and comes again. -/
def repeats : Exception → Bool
  | .fiq | .irq | .prefetchAbort => true
  | _ => false

/-- What the return instruction subtracts from R14. -/
def offset : Exception → Word
  | .dataAbort => 8
  | .fiq | .irq | .prefetchAbort => 4
  | .swi | .undefined => 0

lemma resume_eq (e : Exception) (pc : Word) : pc - 4 - e.offset = e.resume pc := by
  cases e <;> simp [offset, resume, BitVec.sub_sub]

lemma aligned_resume (e : Exception) {pc : Word} (h : Aligned pc) : Aligned (e.resume pc) := by
  unfold Aligned at *
  cases e <;> simp only [resume] <;> bv_omega

end Exception

namespace Arm7DI

variable {s t u : Arm7DI} {inp : ℕ → Input} {e : Exception}

/-! ### What is taken -/

/-- Reset, data abort, FIQ, IRQ, prefetch abort, and the instruction. -/
def taken (s : Arm7DI) : Option Exception :=
  if s.inReset || s.resetExit then none
  else if s.dabortPending then some .dataAbort
  else if s.takesFiq then some .fiq
  else if s.takesIrq then some .irq
  else if s.ex.abort then some .prefetchAbort
  else if s.condPass s.ex.word && seqOf s.ex.word == .exc then some .swi
  else if s.condPass s.ex.word && seqOf s.ex.word == .undefTrap then some .undefined
  else none

/-- The registers when the entry is done. -/
def entered (s : Arm7DI) (e : Exception) (a b : Answer) : Arch :=
  ({ s.arch with dabort := false }.enter (bankOf e.mode) e.mode e.setF (s.pc - 4)).refill e.vector a b

/-- The entry has begun. -/
def Entry (u : Arm7DI) (e : Exception) : Prop :=
  u.seq = .undefTrap ∧ e = .undefined ∨
    u.seq = .exc ∧ e ≠ .undefined ∧ u.x.vector = e.vector ∧ u.x.mode = e.mode ∧ u.x.setF = e.setF

lemma entry_startExc (u : Arm7DI) (e : Exception) (he : e ≠ .undefined) :
    Entry (u.startExc e.vector e.mode e.setF) e := .inr ⟨rfl, he, rfl, rfl, rfl⟩

section Taken

variable (hq : s.seq = .idle) (ht : s.taken = some e)

include ht

lemma not_reset_of_taken : s.inReset = false ∧ s.resetExit = false := by
  rw [← Bool.or_eq_false_iff]
  refine Bool.eq_false_iff.mpr fun h => ?_
  rw [taken, if_pos h] at ht
  cases ht

include hq

/-- What is taken begins, and leaves the registers alone. -/
lemma entry_of_taken : Entry s.start e ∧ s.start.arch = { s.arch with dabort := false } := by
  obtain ⟨hr, he⟩ := not_reset_of_taken ht
  rw [taken, hr, he, Bool.or_self, if_neg Bool.false_ne_true] at ht
  split_ifs at ht with hd hf hi ha hswi hund
  · cases ht
    rw [start_dabort hq hr he hd]
    exact ⟨entry_startExc _ .dataAbort (by decide), rfl⟩
  all_goals
    cases ht
    rw [Bool.not_eq_true] at hd
  · rw [start_fiq hq hr he hd hf]
    exact ⟨entry_startExc _ .fiq (by decide), congrArg (fun d => { s.arch with dabort := d }) hd⟩
  all_goals rw [Bool.not_eq_true] at hf
  · rw [start_irq hq hr he hd hf hi]
    exact ⟨entry_startExc _ .irq (by decide), congrArg (fun d => { s.arch with dabort := d }) hd⟩
  all_goals rw [Bool.not_eq_true] at hi
  · rw [start_slot hq hr he hd hf hi, if_pos ha]
    exact ⟨entry_startExc _ .prefetchAbort (by decide), congrArg (fun d => { s.arch with dabort := d }) hd⟩
  all_goals
    have hquiet : s.Quiet := ⟨hq, hr, he, hd, hf, hi, Bool.eq_false_iff.mpr ha⟩
  · rw [Bool.and_eq_true, beq_iff_eq] at hswi
    rw [hquiet.start_swi hswi.1 hswi.2]
    exact ⟨entry_startExc _ .swi (by decide), congrArg (fun d => { s.arch with dabort := d }) hd⟩
  · rw [Bool.and_eq_true, beq_iff_eq] at hund
    rw [hquiet.start_seq hund.1 hund.2 (by decide)]
    exact ⟨.inl ⟨rfl, rfl⟩, congrArg (fun d => { s.arch with dabort := d }) hd⟩

end Taken

/-- The entry in a run: it writes nothing, and its last two cycles fetch from the vector. -/
lemma performs_exception (hb : s.atBoundary) (ht : (s.poke (inp 0).lines).taken = some e) :
    ∃ r row f, row.length + 3 = e.cycles ∧ f.opc = true ∧
      (∀ c ∈ r :: (row ++ refillRow e.vector f), c.flags.write = false) ∧
      Performs s inp (r :: (row ++ refillRow e.vector f))
        (s.entered e (inp (e.cycles - 2)).ans (inp (e.cycles - 1)).ans) := by
  have hq : (s.poke (inp 0).lines).seq = .idle := (poke_seq s _).trans hb
  obtain ⟨hbegins, harch⟩ := entry_of_taken hq ht
  have hpoke : (s.poke (inp 0).lines).arch = s.arch :=
    poke_field _ arch (fun _ l => by cases l <;> rfl) _
  have hp := @performs_outcome s inp hb
  generalize (s.poke (inp 0).lines).start = u at *
  generalize s.poke (inp 0).lines = p at *
  have hpc : u.pc = s.pc := (congrArg Arch.pc harch).trans (congrArg Arch.pc hpoke)
  rw [hpoke] at harch
  rcases hbegins with ⟨hseq, rfl⟩ | ⟨hseq, hne, hv, hm, hf⟩
  · refine ⟨⟨u.nextType, u.pc, 0, u.fetchFlags⟩, [⟨.I, u.pc, 0, u.fetchFlags⟩],
      (u.enter .und mUnd false (u.pc - 4)).fetchFlags, rfl, rfl, by simp [refillRow], ?_⟩
    rw [outcome, hseq] at hp
    dsimp only at hp
    rw [undefOutcome, harch, hpc] at hp
    rw [hpc]
    exact hp
  · have hc : e.cycles = 3 := by cases e <;> first | rfl | exact absurd rfl hne
    refine ⟨⟨u.nextType, u.pc, 0, u.fetchFlags⟩, [],
      (u.enter (bankOf e.mode) e.mode e.setF (u.pc - 4)).fetchFlags, hc.symm, rfl,
      by simp [refillRow], ?_⟩
    rw [outcome, hseq] at hp
    dsimp only at hp
    rw [excOutcome, harch, hpc, hv, hm, hf] at hp
    rw [hc, hpc]
    exact hp

/-! ### The return -/

lemma seqOf_ret (e : Exception) : seqOf e.ret = .dp ∧ regShift e.ret = false ∧
    writesPc e.ret = true ∧ bit e.ret 20 = true ∧ field e.ret 12 4 = 15 := by
  cases e <;> decide

/-- The return instruction computes its target from R14. -/
lemma dpAlu_ret (u : Arm7DI) (e : Exception) (cin sc v : Bool) :
    (dpAlu (field e.ret 21 4) (u.rd (field e.ret 16 4) u.pc) (u.dpOperand e.ret cin).1 cin sc v).1 =
      u.gpr (phys 14 u.bank) - e.offset := by
  have hsub : ∀ n : Word, (add (u.gpr (phys 14 u.bank)) (~~~n) true).1 =
      u.gpr (phys 14 u.bank) - n := fun n => by
    rw [add_eq, addc_not]
  cases e with
  | dataAbort => exact hsub 8
  | fiq => exact hsub 4
  | irq => exact hsub 4
  | prefetchAbort => exact hsub 4
  | swi => exact (BitVec.sub_zero _).symm
  | undefined => exact (BitVec.sub_zero _).symm

/-- A return instruction: the CPSR comes from the SPSR, and the last two cycles fetch from the target. -/
lemma performs_ret (hs : (t.poke (inp 0).lines).Quiet) (hop : t.ex.word = e.ret) :
    ∃ r f, f.opc = true ∧ r.flags.write = false ∧ f.write = false ∧ Performs t inp
      (r :: refillRow ((t.gpr (phys 14 t.bank) - e.offset) &&& ~~~3) f)
      ((t.arch.setCpsr t.restored).refill ((t.gpr (phys 14 t.bank) - e.offset) &&& ~~~3)
        (inp 1).ans (inp 2).ans) := by
  obtain ⟨hseq, hshift, hwrites, hS, hrd⟩ := seqOf_ret e
  have hc : t.condPass e.ret = true := by cases e <;> rfl
  set q := t.begun inp .dp with hq
  have hqop : q.x.op = e.ret := begun_op hop
  have hvalue : (q.dpLatched.dpValue (q.rd (field q.x.op 16 4) q.pc)
      (q.dpOperand q.x.op (bit q.cpsr 29)).1 (q.dpOperand q.x.op (bit q.cpsr 29)).2).1 =
        t.gpr (phys 14 t.bank) - e.offset := by
    rw [hqop, dpValue, show q.dpLatched.x.op = e.ret from hqop, show q.dpLatched.x.cin = bit q.cpsr 29
      from rfl, dpAlu_ret q e, hq, begun_gpr, begun_bank]
  have hcpsr : ∀ a b c, q.dpLatched.dpCpsr a b c = t.restored := fun a b c => by
    rw [dpCpsr, show q.dpLatched.x.op = e.ret from hqop, hS, hrd]
    change q.restored = t.restored
    rw [restored, restored, hq, begun_bank, begun_cpsr, begun_spsr]
  have harch : q.arch = t.arch := poke_field _ arch (fun _ l => by cases l <;> rfl) _
  have h := @finishes_dpPc (fun n => (inp n).ans) 0 q _ _ _ rfl rfl (by rw [hqop, hshift])
    (by rw [hqop, hwrites]) rfl Prod.mk.eta.symm
  rw [hvalue, hcpsr, harch] at h
  exact ⟨_, (q.setCpsr t.restored).fetchFlags, rfl, rfl, rfl, hs.performs hop hc hseq (by decide) h⟩

/-! ### Entry and return -/

/-- The bus answers the opcode fetches of the run with one word per address. -/
def FetchesFrom (s : Arm7DI) (inp : ℕ → Input) (code : Word → Slot) : Prop :=
  ∀ m, (core.outs s inp m).isFetch = true →
    ⟨(inp m).ans.rdata, (inp m).ans.abort⟩ = code (core.outs s inp m).addr

/-- Nothing but the execute slot and a masked interrupt can be taken. -/
structure Undisturbed (s : Arm7DI) : Prop where
  inReset : s.inReset = false
  resetExit : s.resetExit = false
  fiq : s.takesFiq = false

/-- The registers at the first instruction of the handler of `e`. -/
@[simps]
def inHandler (s : Arm7DI) (e : Exception) (code : Word → Slot) : Arch where
  gpr := Function.update s.gpr (phys 14 (bankOf e.mode)) (s.pc - 4)
  pc := e.vector + 8
  cpsr := (s.cpsr &&& ~~~psrM) ||| e.mode.setWidth 32 ||| psrI ||| maskIf e.setF psrF
  spsr := Function.update s.spsr (bankOf e.mode) s.cpsr
  ex := code e.vector
  de := code (e.vector + 4)
  nextType := .S
  dabort := false

/-- The registers to which the handler of `e` returns. -/
def returned (s : Arm7DI) (e : Exception) (code : Word → Slot) : Arch where
  gpr := Function.update s.gpr (phys 14 (bankOf e.mode)) (s.pc - 4)
  pc := e.resume s.pc + 8
  cpsr := s.cpsr
  spsr := Function.update s.spsr (bankOf e.mode) s.cpsr
  ex := code (e.resume s.pc)
  de := code (e.resume s.pc + 4)
  nextType := .S
  dabort := false

section Return

variable {code : Word → Slot}

lemma FetchesFrom.after (h : FetchesFrom s inp code) (n : ℕ) :
    FetchesFrom (core.after s inp n) (fun j => inp (n + j)) code := by
  intro m hm
  rw [← Machine.outs_add] at hm ⊢
  exact h (n + m) hm

/-- What a refill at the end of a sequence has fetched. -/
lemma FetchesFrom.refill (h : FetchesFrom s inp code) {row : List Signals} {target : Word}
    {f : BusFlags} {A : Arch} (hf : f.opc = true) (hp : Performs s inp (row ++ refillRow target f) A) :
    ⟨(inp row.length).ans.rdata, (inp row.length).ans.abort⟩ = code target ∧
      ⟨(inp (row.length + 1)).ans.rdata, (inp (row.length + 1)).ans.abort⟩ = code (target + 4) := by
  have hfetch : ∀ n a t, t.isMem = true → (core.outs s inp n).signals = ⟨t, a, 0, f⟩ →
      ⟨(inp n).ans.rdata, (inp n).ans.abort⟩ = code a := by
    intro n a t ht hs
    simp only [BusCycle.signals, Signals.mk.injEq] at hs
    obtain ⟨rfl, rfl, -, rfl⟩ := hs
    exact h n (by rw [BusCycle.isFetch, ht, hf]; rfl)
  have hlast : (row ++ refillRow target f).length = row.length + 2 := by simp [refillRow]
  refine ⟨hfetch _ _ .N rfl ?_, hfetch _ _ .S rfl ?_⟩
  · rw [hp.signals row.length (by omega)]
    simp [refillRow]
  · rw [hp.signals (row.length + 1) (by omega)]
    simp [refillRow]

/-- The PSR of an entry. -/
lemma entry_psr (c : Word) (m : BitVec 5) (F : Bool) :
    let p := (c &&& ~~~psrM) ||| m.setWidth 32 ||| psrI ||| maskIf F psrF
    modeOf p = m ∧ bit p 7 = true ∧ bit p 6 = (F || bit c 6) := by
  intro p
  refine ⟨?_, ?_, ?_⟩
  · ext i hi
    interval_cases i <;> cases F <;> simp [p, modeOf, field, psrM, psrI, psrF, maskIf]
  · simp [p, bit, psrI]
  · cases F <;> simp [p, bit, psrM, psrI, psrF, maskIf]

lemma Performs.ends {row : List Signals} {A : Arch} {n : ℕ} (h : Performs s inp row A)
    (hn : row.length = n) : (core.after s inp n).atBoundary ∧ (core.after s inp n).arch = A :=
  hn ▸ ⟨h.boundary, h.arch⟩

/-- From the boundary that takes an exception to the first instruction of its handler. -/
lemma performs_entry (hb : s.atBoundary) (ht : (s.poke (inp 0).lines).taken = some e)
    (hcode : FetchesFrom s inp code) :
    ∃ r row, row.length + 1 = e.cycles ∧ (∀ c ∈ r :: row, c.flags.write = false) ∧
      Performs s inp (r :: row) (s.inHandler e code) := by
  obtain ⟨r, row, f, hlen, hf, hw, hp⟩ := performs_exception hb ht
  refine ⟨r, _, by rw [← hlen]; simp [refillRow], hw, ?_⟩
  obtain ⟨hex, hde⟩ := @FetchesFrom.refill _ _ _ hcode (r :: row) _ _ _ hf hp
  have harch : s.entered e (inp (e.cycles - 2)).ans (inp (e.cycles - 1)).ans = s.inHandler e code := by
    rw [inHandler, ← hex, ← hde, List.length_cons, show e.cycles - 2 = row.length + 1 by omega,
      show e.cycles - 1 = row.length + 1 + 1 by omega]
    rfl
  rwa [harch] at hp

/-- The return instruction at the first place of the handler. -/
lemma performs_return (hb : s.atBoundary) (ht : (s.poke (inp 0).lines).taken = some e)
    (ha : Aligned s.pc) (hc : Impl s.cpsr) (hcode : FetchesFrom s inp code)
    (hret : code e.vector = ⟨e.ret, false⟩) (hh : (poked s inp e.cycles).Undisturbed) :
    ∃ r row, row.length = 2 ∧ (∀ c ∈ r :: row, c.flags.write = false) ∧
      Performs (core.after s inp e.cycles) (fun j => inp (e.cycles + j)) (r :: row)
        (s.returned e code) := by
  obtain ⟨r₀, row₀, hlen, -, hentry⟩ := performs_entry hb ht hcode
  obtain ⟨hidle, harch⟩ := hentry.ends hlen
  set t := core.after s inp e.cycles with htdef
  have hpoke : (poked s inp e.cycles).arch = t.arch :=
    poke_field _ arch (fun _ l => by cases l <;> rfl) _
  obtain ⟨hmode, hI, -⟩ := entry_psr s.cpsr e.mode e.setF
  have hcpsr : t.cpsr = _ := congrArg Arch.cpsr harch
  have hbank : t.bank = bankOf e.mode := by
    rw [bank, hcpsr]
    exact congrArg bankOf hmode
  have hex : t.ex = ⟨e.ret, false⟩ := (congrArg Arch.ex harch).trans hret
  have hquiet : (poked s inp e.cycles).Quiet := by
    refine ⟨(poke_seq _ _).trans hidle, hh.inReset, hh.resetExit, ?_, hh.fiq, ?_, ?_⟩
    · exact congrArg Arch.dabort (hpoke.trans harch)
    · rw [takesIrq, show (poked s inp e.cycles).cpsr = _ from congrArg Arch.cpsr (hpoke.trans harch)]
      exact (congrArg (fun b => _ && !b) hI).trans (Bool.and_false _)
    · rw [show (poked s inp e.cycles).ex = _ from congrArg Arch.ex (hpoke.trans harch),
        inHandler_ex, hret]
  obtain ⟨r, f, hf, hr, hfw, hp⟩ :=
    @performs_ret t (fun j => inp (e.cycles + j)) e hquiet (congrArg Slot.word hex)
  have hr14 : t.gpr (phys 14 t.bank) = s.pc - 4 := by
    rw [hbank, show t.gpr = _ from congrArg Arch.gpr harch]
    exact Function.update_self _ _ _
  have htarget : (t.gpr (phys 14 t.bank) - e.offset) &&& ~~~3 = e.resume s.pc := by
    rw [hr14, e.resume_eq, (e.aligned_resume ha).mask]
  have hrestored : t.restored = s.cpsr := by
    have hne : bankOf e.mode ≠ .usr := by cases e <;> decide
    rw [restored_eq, hbank, if_neg hne, show t.spsr = _ from congrArg Arch.spsr harch,
      inHandler_spsr, Function.update_self, hc.and_psrImpl]
  rw [htarget, hrestored] at hp
  obtain ⟨hcex, hcde⟩ := @FetchesFrom.refill _ _ _ (hcode.after e.cycles) [r] _ _ _ hf hp
  have hreturned : (t.arch.setCpsr s.cpsr).refill (e.resume s.pc) (inp (e.cycles + 1)).ans
      (inp (e.cycles + 2)).ans = s.returned e code := by
    rw [harch, Arch.refill, returned, ← hcex, ← hcde]
    rfl
  rw [hreturned] at hp
  exact ⟨r, _, rfl, by simp [refillRow, hr, hfw], hp⟩

end Return

/-! ### Runs from power-on -/

section Runs

variable {stages n : ℕ} {carry : MulCarry} {code : Word → Slot}

/-- The program's registers at a boundary. -/
structure Prefetched (s : Arm7DI) (code : Word → Slot) : Prop where
  aligned : Aligned s.pc
  impl : Impl s.cpsr
  nextType : s.nextType.isMem = true
  ex : s.ex = code (s.pc - 8)
  de : s.de = code (s.pc - 4)

lemma prefetched_after (hcode : FetchesFrom (powerOn stages carry) inp code)
    (hb : (core.after (powerOn stages carry) inp n).atBoundary)
    (hr : (poked (powerOn stages carry) inp n).inReset = false)
    (he : (poked (powerOn stages carry) inp n).resetExit = false) :
    (core.after (powerOn stages carry) inp n).Prefetched code := by
  have hcontrol := control_after stages carry inp n
  have hp := hcontrol.phase
  rw [Phase, show (core.after (powerOn stages carry) inp n).seq = .idle from hb] at hp
  obtain ⟨hannounced, -, hholds⟩ := hp
  obtain ⟨hr', he'⟩ := poke_reset _ _ hr he
  obtain ⟨hex, hde⟩ := hholds hr' he'
  have hslot : ∀ {addr w}, LastFetch (powerOn stages carry) inp n addr w → w = code addr := by
    rintro addr w ⟨m, -, hf, rfl, rfl, -⟩
    exact hcode m hf
  exact ⟨hcontrol.aligned, (psrOk_after stages carry inp n).cpsr, (Announced.ne_I hannounced).1,
    hslot (lastFetch_of_fetched inp hex), hslot (lastFetch_of_fetched inp hde)⟩

/-- In every run from power-on whose opcode fetches see one word per address: from the boundary at which
an exception is taken the handler begins, in the mode of the exception and with IRQ masked, FIQ as
before unless it is one; and if the handler begins with its return instruction, the program goes on where
it was left with nothing changed but R14 and the SPSR of the exception. After an interrupt or a prefetch
abort the very instruction that it replaced is next. -/
theorem exception_return (hcode : FetchesFrom (powerOn stages carry) inp code)
    (hb : (core.after (powerOn stages carry) inp n).atBoundary)
    (ht : (poked (powerOn stages carry) inp n).taken = some e)
    (hret : code e.vector = ⟨e.ret, false⟩)
    (hh : (poked (powerOn stages carry) inp (n + e.cycles)).Undisturbed) :
    let s := core.after (powerOn stages carry) inp n
    let t := core.after (powerOn stages carry) inp (n + e.cycles)
    let u := core.after (powerOn stages carry) inp (n + e.cycles + 3)
    (t.atBoundary ∧ t.pc - 8 = e.vector ∧ modeOf t.cpsr = e.mode ∧ bit t.cpsr 7 = true ∧
        bit t.cpsr 6 = (e.setF || bit s.cpsr 6)) ∧
      u.atBoundary ∧ u.arch = s.returned e code ∧
      (e.repeats = true → u.pc = s.pc ∧ u.ex = s.ex ∧ u.de = s.de) := by
  intro s t u
  have ha : Aligned s.pc := (control_after stages carry inp n).aligned
  have hc : Impl s.cpsr := (psrOk_after stages carry inp n).cpsr
  have hlater : ∀ k, core.after (powerOn stages carry) inp (n + k) =
      core.after s (fun j => inp (n + j)) k := fun k => Machine.after_add _ _ _ n k
  obtain ⟨r, row, hlen, -, hentry⟩ := @performs_entry s (fun j => inp (n + j)) e code hb ht (hcode.after n)
  obtain ⟨hmode, hI, hF⟩ := entry_psr s.cpsr e.mode e.setF
  rw [poked, hlater] at hh
  obtain ⟨r', row', hlen', -, hreturn⟩ :=
    @performs_return s (fun j => inp (n + j)) e code hb ht ha hc (hcode.after n) hret hh
  have hboundary := hentry.ends hlen
  have hu : u = core.after (core.after s (fun j => inp (n + j)) e.cycles)
      (fun j => inp (n + (e.cycles + j))) (r' :: row').length := by
    rw [List.length_cons, hlen', ← Machine.after_add, ← hlater, ← Nat.add_assoc]
  have htarch : t.arch = s.inHandler e code := by rw [← hboundary.2, ← hlater]
  have huarch : u.arch = s.returned e code := by rw [hu, hreturn.arch]
  have htcpsr : t.cpsr = _ := congrArg Arch.cpsr htarch
  refine ⟨⟨?_, ?_, ?_, ?_, ?_⟩, ?_, huarch, fun hrep => ?_⟩
  · rw [show t = _ from hlater e.cycles]
    exact hboundary.1
  · rw [show t.pc = _ from congrArg Arch.pc htarch, inHandler_pc, BitVec.add_sub_cancel]
  · rw [htcpsr]
    exact hmode
  · rw [htcpsr]
    exact hI
  · rw [htcpsr]
    exact hF
  · rw [hu]
    exact hreturn.boundary
  · have hres : e.resume s.pc = s.pc - 8 := by cases e <;> first | rfl | cases hrep
    obtain ⟨hr, he⟩ := not_reset_of_taken ht
    have hs : s.Prefetched code := prefetched_after hcode hb hr he
    have h4 : s.pc - 8 + 4 = s.pc - 4 := by bv_omega
    refine ⟨?_, ?_, ?_⟩
    · rw [show u.pc = _ from congrArg Arch.pc huarch, returned, hres, BitVec.sub_add_cancel]
    · rw [show u.ex = _ from congrArg Arch.ex huarch, returned, hres, hs.ex]
    · rw [show u.de = _ from congrArg Arch.de huarch, returned, hres, h4, hs.de]

/-- A bus that answers at once, from a memory of instructions. -/
def readsCode (code : Word → Slot) (s : Arm7DI) : Input :=
  ⟨[], ⟨⟨(code s.busCycle.bus.addr).word, 0, (code s.busCycle.bus.addr).abort⟩, false, false⟩⟩

/-- The inputs of a run on such a bus. -/
def readsFrom (s : Arm7DI) (code : Word → Slot) (n : ℕ) : Input :=
  readsCode code (core.loop s (readsCode code) n)

lemma fetchesFrom_readsFrom (s : Arm7DI) (code : Word → Slot) :
    FetchesFrom s (s.readsFrom code) code := by
  intro m _
  rw [Machine.outs, show core.after s (s.readsFrom code) m = _ from
    Machine.after_loop _ _ (readsCode code) m]
  rfl

/-- SWI at 0, and a handler that returns at once. -/
def swiCode (a : Word) : Slot := ⟨if a = 0 then 0xEF000000 else if a = 8 then 0xE1B0F00E else 0, false⟩

lemma swi_begins : (core.after (powerOn 0 .keep) ((powerOn 0 .keep).readsFrom swiCode) 3).atBoundary ∧
    (poked (powerOn 0 .keep) ((powerOn 0 .keep).readsFrom swiCode) 3).taken = some .swi := by
  decide +kernel

lemma swi_undisturbed :
    (poked (powerOn 0 .keep) ((powerOn 0 .keep).readsFrom swiCode) (3 + Exception.swi.cycles)).Undisturbed :=
  ⟨by decide +kernel, by decide +kernel, by decide +kernel⟩

theorem exception_return_swi :
    (core.after (powerOn 0 .keep) ((powerOn 0 .keep).readsFrom swiCode)
      (3 + Exception.swi.cycles + 3)).arch =
        (core.after (powerOn 0 .keep) ((powerOn 0 .keep).readsFrom swiCode) 3).returned .swi swiCode :=
  (exception_return (fetchesFrom_readsFrom _ _) swi_begins.1 swi_begins.2 rfl swi_undisturbed).2.2.1

end Runs

/-! ### Reset -/

section Reset

variable {k m : ℕ}

/-- A pulse of nRESET, whatever it interrupts: the entry takes three cycles from the release on, its
second fetches from address 0, and of the state before the pulse it leaves the registers (R14_svc is
lost, SPSR_svc has the CPSR), the flags of the CPSR and a data abort that was pending. If one was, it
is taken first; if none was, the word from address 0 is executed first. -/
theorem reset_pulse (h : ResetPulse s inp k m) :
    NextBoundary (core.after s inp m) (fun j => inp (m + j)) 3 ∧
      (core.outs s inp (m + 1)).signals.shape = zeroFetch ∧
      (∃ r14, (core.after s inp (m + 3)).arch =
        (core.after s inp k).resetEntry r14 (inp (m + 1)).ans (inp (m + 2)).ans) ∧
      ((poked s inp (m + 3)).inReset = false → (poked s inp (m + 3)).resetExit = false →
        (inp (m + 1)).ans.abort = false →
        ((poked s inp (m + 3)).taken = some .dataAbort ↔
          (core.after s inp k).dabortPending = true) ∧
        ((poked s inp (m + 3)).start =
            ((poked s inp (m + 3)).setK 0).decode (inp (m + 1)).ans.rdata ↔
          (core.after s inp k).dabortPending = false)) := by
  obtain ⟨hnext, hzero, r14, harch⟩ := h.entered
  refine ⟨hnext, hzero, ⟨r14, harch⟩, fun hr he hab => ?_⟩
  obtain ⟨hword, hissues⟩ := h.issues_iff hr he hab
  have hd : (poked s inp (m + 3)).dabortPending = (core.after s inp k).dabortPending :=
    (poke_dabortPending _ _).trans (congrArg Arch.dabort harch)
  refine ⟨?_, ?_⟩
  · rw [← hd, taken, hr, he, Bool.or_self, if_neg Bool.false_ne_true]
    split_ifs with hp
    all_goals simp [hp]
  · rw [← hissues, Issues, hword]

/-- nRESET low for one boundary, after the reset entry of power-on. -/
def onePulse (n : ℕ) : Input :=
  { calm 0xE1A00000 n with lines := if n = 3 then [.reset true] else if n = 4 then [.reset false] else [] }

lemma resetPulse_onePulse : ResetPulse (powerOn 0 .keep) onePulse 3 4 := by
  refine ⟨by decide, fun j h3 h4 => ?_, by decide +kernel⟩
  obtain rfl : j = 3 := by omega
  exact ⟨by decide +kernel, by decide +kernel⟩

theorem reset_pulse_once :
    NextBoundary (core.after (powerOn 0 .keep) onePulse 4) (fun j => onePulse (4 + j)) 3 :=
  (reset_pulse resetPulse_onePulse).1

end Reset

end Arm7DI

end Wren7
