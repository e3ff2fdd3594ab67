import Wren7.Equiv.Shifter
import Wren7.Model.Sequences
import Wren7.System.WaveRam

/-!
# Single transfers and swaps on the wave RAM

LDR, STR and SWP of a system, against the data sheet's addressing modes and a memory of bytes.
-/

namespace Wren7

open Bits Reactive

/-! ### The reference semantics -/

/-- An operand shifted by an immediate amount; amount 0 encodes LSR #32, ASR #32 and RRX. -/
def shifted (v : Word) (type : BitVec 2) (n : ℕ) (c : Bool) : Word :=
  match type with
  | 0 => v <<< n
  | 1 => v >>> (if n = 0 then 32 else n)
  | 2 => v.sshiftRight (if n = 0 then 32 else n)
  | _ => if n = 0 then BitVec.cons c (v.extractLsb' 1 31) else v.rotateRight n

lemma ror32_eq_rotateRight (v : Word) (n : ℕ) : ror32 v n = v.rotateRight n := by
  apply BitVec.eq_of_getLsbD_eq
  intro i hi
  rw [getLsbD_ror32 v n hi, BitVec.getLsbD_rotateRight, Bool.cond_decide]
  split_ifs with h
  · congr 1
    omega
  · rw [decide_eq_true hi, Bool.true_and]
    congr 1
    omega

lemma signFill_eq (v : Word) : signFill v = v.sshiftRight 32 := by
  apply BitVec.eq_of_getLsbD_eq
  intro i hi
  rw [BitVec.getLsbD_sshiftRight, if_neg (by omega), decide_eq_false (by omega), signFill,
    BitVec.msb_eq_getLsbD_last]
  change (if v.getLsbD 31 then _ else _ : Word).getLsbD i = (true && v.getLsbD 31)
  cases v.getLsbD 31 with
  | false => simp
  | true =>
    change (0xFFFFFFFF : Word).getLsbD i = true
    revert i
    decide

/-- RRX. -/
lemma rrx_eq (v : Word) (c : Bool) :
    maskIf c 0x80000000 ||| (v >>> 1) = BitVec.cons c (v.extractLsb' 1 31) := by
  apply BitVec.eq_of_getLsbD_eq
  intro i hi
  have h31 : (0x80000000 : Word).getLsbD i = decide (i = 31) := by
    revert i
    decide
  rw [BitVec.getLsbD_or, BitVec.getLsbD_ushiftRight, BitVec.getLsbD_cons,
    BitVec.getLsbD_extractLsb']
  have hmask : (maskIf c 0x80000000 : Word).getLsbD i = (c && decide (i = 31)) := by
    cases c
    · exact BitVec.getLsbD_zero
    · exact h31
  rw [hmask]
  split_ifs with h
  · subst h
    simp
  · simp [h, show i < 31 by omega]

lemma shiftImm_eq_shifted (v : Word) (type : BitVec 2) (n : ℕ) (c : Bool) :
    (shiftImm v type n c).1 = shifted v type n c := by
  rcases shiftType_cases type with rfl | rfl | rfl | rfl
  · change (if n = 0 then (v, c) else (v <<< n, bit v (32 - n))).1 = v <<< n
    split_ifs with h
    · simp [h]
    · rfl
  · change (if n = 0 then ((0 : Word), bit v 31) else (v >>> n, bit v (n - 1))).1 =
      v >>> (if n = 0 then 32 else n)
    split_ifs with h
    · exact (BitVec.ushiftRight_eq_zero (le_refl 32)).symm
    · rfl
  · change (if n = 0 then (signFill v, bit v 31) else (v.sshiftRight n, bit v (n - 1))).1 =
      v.sshiftRight (if n = 0 then 32 else n)
    split_ifs with h
    · exact signFill_eq v
    · rfl
  · change (if n = 0 then (maskIf c 0x80000000 ||| (v >>> 1), bit v 0)
      else (ror32 v n, bit v (n - 1))).1 =
        if n = 0 then BitVec.cons c (v.extractLsb' 1 31) else v.rotateRight n
    split_ifs with h
    · exact rrx_eq v c
    · exact ror32_eq_rotateRight v n

namespace Ram

open DcArmBus

/-- What a load gives: a byte, or the aligned word rotated so that the addressed byte comes lowest. -/
def load (f : Ram) (byte : Bool) (a : Word) : Word :=
  if byte then (f (ramIndex a)).setWidth 32
  else (f.wordAt (ramWord a)).rotateRight (8 * (field a 0 2).toNat)

/-- What a store leaves: one byte or one aligned word is replaced. -/
def store (f : Ram) (byte : Bool) (a v : Word) : Ram :=
  if byte then Function.update f (ramIndex a) (v.setWidth 8) else f.putWord (ramWord a) v

/-- The core and the bus pick the lane together. -/
lemma loadVal_wordAt (f : Ram) (byte : Bool) (a : Word) :
    loadVal byte (f.wordAt (ramWord a)) a = f.load byte a := by
  cases byte with
  | false => exact ror32_eq_rotateRight _ _
  | true =>
    rw [loadVal, if_pos rfl, load, if_pos rfl, ramIndex_eq, wordAt_byte]

/-- The cycle of a store. -/
lemma stored_storeVal {f : Ram} {c : Signals} {byte : Bool} {v : Word}
    (hm : c.type.isMem = true) (hr : inRam c.addr = true) (hw : c.flags.write = true)
    (hb : c.flags.byte = byte) (hd : c.wdata = storeVal byte v) :
    c.stored f = f.store byte c.addr v := by
  cases byte with
  | false => rw [Signals.stored_word hm hr hw hb, hd]; rfl
  | true =>
    rw [Signals.stored_byte hm hr hw hb, hd, store, if_pos rfl, ← lane_storeVal v (field c.addr 0 2)]
    rfl

end Ram

namespace Arm7DI

variable (s : Arm7DI) (op : Word)

/-- The base of a single transfer; R15 is the instruction's address plus 8. -/
def singleBase : Word := s.rd (field op 16 4) (s.executing + 8)

/-- The offset. -/
def singleOffset : Word :=
  if bit op 25 then
    shifted (s.rd (field op 0 4) (s.executing + 8)) (field op 5 2) (field op 7 5).toNat
      (bit s.cpsr 29)
  else (field op 0 12).setWidth 32

/-- The base plus or minus the offset. -/
def singleMoved : Word :=
  if bit op 23 then s.singleBase op + s.singleOffset op else s.singleBase op - s.singleOffset op

/-- The address: before the move if post-indexed. -/
def singleAddr : Word := if bit op 24 then s.singleMoved op else s.singleBase op

/-- The registers after the base write-back, which post-indexing and W ask for. -/
def singleBack : Fin 31 → Word :=
  if (bit op 24 = false ∨ bit op 21 = true) ∧ field op 16 4 ≠ 15 then
    Function.update s.gpr (phys (field op 16 4) s.bank) (s.singleMoved op)
  else s.gpr

variable {s op} {inp : ℕ → Input} {r : Seq}

lemma sdtOffset_eq : s.sdtOffset op = s.singleOffset op := by
  rw [sdtOffset, singleOffset, shiftImm_eq_shifted, executing_add_8]
  split_ifs
  · rfl
  · apply BitVec.eq_of_getLsbD_eq
    intro i hi
    have hmask : (0xFFF : Word).getLsbD i = decide (i < 12) := by
      revert i
      decide
    rw [BitVec.getLsbD_and, hmask, BitVec.getLsbD_setWidth, field, BitVec.getLsbD_extractLsb',
      decide_eq_true hi, Bool.true_and, Nat.zero_add, Bool.and_comm]

lemma sdtCalc_eq : s.sdtCalc op = s.singleMoved op := by
  rw [sdtCalc, singleMoved, singleBase, sdtOffset_eq, executing_add_8]

lemma sdtAddr_eq : s.sdtAddr op = s.singleAddr op := by
  rw [sdtAddr, singleAddr, sdtCalc_eq, singleBase, executing_add_8]

/-- The base write-back. -/
lemma wrIf_singleBack {A : Arch} (hg : A.gpr = s.gpr) (hb : A.bank = s.bank) :
    (A.wrIf (sdtWb op) (field op 16 4) (s.singleMoved op)).gpr = s.singleBack op := by
  rw [singleBack, Arch.wrIf, sdtWb]
  by_cases h15 : field op 16 4 = 15
  · cases bit op 24 <;> cases bit op 21 <;> simp [Arch.wr, Arch.wrBank, h15, hg]
  · cases bit op 24 <;> cases bit op 21 <;> simp_all [Arch.wr, Arch.wrBank]

end Arm7DI

namespace System

open Arm7DI

variable {ρ : Type*} [AicaRegs ρ]

/-- After `n` bus cycles comes the next boundary, with this instruction to execute, these registers
and this wave RAM, and with the PSRs as they were. -/
structure Leaves (s : System ρ) (n : ℕ) (pc : Word) (g : Fin 31 → Word) (f : Ram) : Prop where
  next : s.NextBoundary n
  executing : (System.busCycle^[n] s).core.executing = pc
  gpr : (System.busCycle^[n] s).core.gpr = g
  ram : (System.busCycle^[n] s).bus.ram = f
  cpsr : (System.busCycle^[n] s).core.cpsr = s.core.cpsr
  spsr : (System.busCycle^[n] s).core.spsr = s.core.spsr

variable {s : System ρ} {inp : ℕ → Input} {op : Word} {row : List Signals} {A : Arch}

lemma Feeds.leaves (hf : s.Feeds inp) {c : Signals} (hp : Performs s.core inp (c :: row) A)
    {n : ℕ} {pc : Word} {g : Fin 31 → Word} {f : Ram} (hn : (c :: row).length = n)
    (hpc : A.pc - 8 = pc) (hg : A.gpr = g) (hc : A.cpsr = s.core.cpsr) (hs : A.spsr = s.core.spsr)
    (hram : (c :: row).foldl (fun f c => c.stored f) s.bus.ram = f) : s.Leaves n pc g f := by
  have hfield {β : Type} (f : Arm7DI → β) (h : ∀ u l, f (setLine u l) = f u) (F : Arch → β)
      (hF : ∀ u, F (arch u) = f u) : f (System.busCycle^[n] s).core = F A := by
    rw [hf.field f h, ← hF, ← hn, hp.arch]
  refine ⟨hn ▸ hf.nextBoundary hp.next, ?_, ?_, ?_, ?_, ?_⟩
  · rw [Arm7DI.executing, ← hpc, hfield (·.pc) (fun u l => by cases l <;> rfl) (·.pc) fun _ => rfl]
  · rw [← hg, hfield (·.gpr) (fun u l => by cases l <;> rfl) (·.gpr) fun _ => rfl]
  · have h := hf.ram hp (Nat.le_refl _)
    rwa [List.take_length, hram, hn] at h
  · rw [← hc, hfield (·.cpsr) (fun u l => by cases l <;> rfl) (·.cpsr) fun _ => rfl]
  · rw [← hs, hfield (·.spsr) (fun u l => by cases l <;> rfl) (·.spsr) fun _ => rfl]

omit [AicaRegs ρ] in
/-- The boundary after an instruction that fetched one word. -/
lemma stepped_executing (r : Seq) (a : Answer) (t : CycleType) :
    ((s.core.begun inp r).stepped a t).pc - 8 = s.core.executing + 4 := by
  change (s.core.begun inp r).pc + 4 - 8 = s.core.pc - 8 + 4
  rw [begun_pc]
  bv_omega

/-! ### STR and LDR -/

section Single

variable (h : s.Executes op) (hsdt : seqOf op = .sdt)
  (hin : DcArmBus.inRam (s.core.singleAddr op) = true)

include h hsdt hin

lemma leaves_store (hL : bit op 20 = false) :
    s.Leaves 2 (s.core.executing + 4) (s.core.singleBack op)
      (Ram.store s.bus.ram (bit op 22) (s.core.singleAddr op)
        (s.core.rd (field op 12 4) (s.core.executing + 12))) := by
  obtain ⟨inp, hf⟩ := s.exists_feeds
  set q := s.core.begun inp .sdt
  have hqop : q.x.op = op := begun_op h.word
  have hp := (hf.quiet h).performs h.word h.passes hsdt (by decide)
    (finishes_str (q := q) rfl rfl (hqop ▸ hL))
  have hab : ((inp (0 + 1)).ans.abort) = false := hf.abort
  rw [hqop, begun_sdtCalc, begun_sdtAddr, sdtCalc_eq, sdtAddr_eq, hab, begun_rd, begun_pc] at hp
  refine hf.leaves hp rfl ?_ ?_ ?_ ?_ ?_
  · rw [Arch.wrIf_pc]
    exact stepped_executing _ _ _
  · exact wrIf_singleBack (A := (q.stepped (inp 0).ans .N).abortIf false)
      (begun_gpr (r := .sdt)) (begun_bank (r := .sdt))
  · rw [Arch.wrIf_cpsr]
    exact begun_cpsr (r := .sdt)
  · rw [Arch.wrIf_spsr]
    exact begun_spsr (r := .sdt)
  · rw [List.foldl_cons, Signals.stored_read rfl, List.foldl_cons, List.foldl_nil, executing_add_12]
    exact Ram.stored_storeVal rfl hin rfl rfl rfl

omit h hsdt in
/-- The word that the load of the instruction finds. -/
lemma load_rdata {inp : ℕ → Input} (hf : s.Feeds inp) {l : List Signals} {A : Arch}
    (hp : Performs s.core inp ((s.core.begun inp .sdt).fetchCycle ::
      ⟨.N, s.core.singleAddr op, 0, (s.core.begun inp .sdt).sdtFlags op⟩ :: l) A) :
    (inp 1).ans.rdata = Ram.wordAt s.bus.ram (DcArmBus.ramWord (s.core.singleAddr op)) := by
  have hsig := hp.signals 1 (by simp)
  have haddr : (Arm7DI.core.outs s.core inp 1).addr = s.core.singleAddr op :=
    congrArg Signals.addr hsig
  have hram : (System.busCycle^[1] s).bus.ram = s.bus.ram := by
    rw [hf.ram hp (n := 1) (by simp)]
    exact Signals.stored_read rfl
  rw [hf.rdata (congrArg (·.type.isMem) hsig) (by rw [haddr]; exact hin)
    (congrArg (·.flags.write) hsig), haddr, hram]

lemma leaves_load (hL : bit op 20 = true) (h15 : field op 12 4 ≠ 15) :
    s.Leaves 3 (s.core.executing + 4)
      (Function.update (s.core.singleBack op) (phys (field op 12 4) s.core.bank)
        (Ram.load s.bus.ram (bit op 22) (s.core.singleAddr op))) s.bus.ram := by
  obtain ⟨inp, hf⟩ := s.exists_feeds
  set q := s.core.begun inp .sdt
  have hqop : q.x.op = op := begun_op h.word
  have hp := (hf.quiet h).performs h.word h.passes hsdt (by decide)
    (finishes_ldr (q := q) rfl rfl (hqop ▸ hL) hf.abort (hqop ▸ h15))
  rw [hqop, begun_sdtCalc, begun_sdtAddr, sdtCalc_eq, sdtAddr_eq] at hp
  have hval : loadVal (bit op 22) (inp 1).ans.rdata (s.core.singleAddr op) =
      Ram.load s.bus.ram (bit op 22) (s.core.singleAddr op) := by
    rw [load_rdata hin hf hp, Ram.loadVal_wordAt]
  have hbank : ((q.stepped (inp 0).ans .S).wrIf (sdtWb op) (field op 16 4)
      (s.core.singleMoved op)).bank = s.core.bank := by
    rw [Arch.bank, Arch.wrIf_cpsr]
    exact begun_bank (r := .sdt)
  refine hf.leaves hp rfl ?_ ?_ ?_ ?_ ?_
  · change (Arch.wrIf _ _ _ _).pc - 8 = _
    rw [Arch.wrIf_pc]
    exact stepped_executing _ _ _
  · change (if field op 12 4 = 15 then _ else Function.update _ _ _) = _
    rw [if_neg h15, hbank, wrIf_singleBack (A := q.stepped (inp 0).ans .S)
      (begun_gpr (r := .sdt)) (begun_bank (r := .sdt)), ← hval]
  · exact (Arch.wrIf_cpsr ..).trans (begun_cpsr (r := .sdt))
  · exact (Arch.wrIf_spsr ..).trans (begun_spsr (r := .sdt))
  · refine Signals.foldl_stored_reads ?_
    simp [fetchCycle, fetchFlags, sdtFlags, idleCycle, idleFlags]

lemma leaves_loadPc (hL : bit op 20 = true) (h15 : field op 12 4 = 15) :
    s.Leaves 5 (Ram.load s.bus.ram (bit op 22) (s.core.singleAddr op) &&& ~~~3)
      (s.core.singleBack op) s.bus.ram := by
  obtain ⟨inp, hf⟩ := s.exists_feeds
  set q := s.core.begun inp .sdt
  have hqop : q.x.op = op := begun_op h.word
  have hp := (hf.quiet h).performs h.word h.passes hsdt (by decide)
    (finishes_ldrPc (q := q) rfl rfl (hqop ▸ hL) hf.abort (hqop ▸ h15) rfl)
  rw [hqop, begun_sdtCalc, begun_sdtAddr, sdtCalc_eq, sdtAddr_eq] at hp
  have hval : loadVal (bit op 22) (inp 1).ans.rdata (s.core.singleAddr op) =
      Ram.load s.bus.ram (bit op 22) (s.core.singleAddr op) := by
    rw [load_rdata hin hf hp, Ram.loadVal_wordAt]
  refine hf.leaves hp rfl ?_ ?_ ?_ ?_ ?_
  · rw [Arch.wrIf_pc, Arch.refill_pc, ← hval]
  · exact wrIf_singleBack (begun_gpr (r := .sdt)) (begun_bank (r := .sdt))
  · exact (Arch.wrIf_cpsr ..).trans (begun_cpsr (r := .sdt))
  · exact (Arch.wrIf_spsr ..).trans (begun_spsr (r := .sdt))
  · refine Signals.foldl_stored_reads ?_
    simp [fetchCycle, fetchFlags, sdtFlags, idleCycle, idleFlags, refillRow]

end Single

/-! ### SWP -/

lemma leaves_swp (h : s.Executes op) (hswp : seqOf op = .swp)
    (hin : DcArmBus.inRam (s.core.singleBase op) = true)
    (hrd : field op 12 4 ≠ 15) (hrm : field op 0 4 ≠ 15) :
    s.Leaves 4 (s.core.executing + 4)
      (Function.update s.core.gpr (phys (field op 12 4) s.core.bank)
        (Ram.load s.bus.ram (bit op 22) (s.core.singleBase op)))
      (Ram.store s.bus.ram (bit op 22) (s.core.singleBase op)
        (s.core.gpr (phys (field op 0 4) s.core.bank))) := by
  obtain ⟨inp, hf⟩ := s.exists_feeds
  set q := s.core.begun inp .swp
  have hqop : q.x.op = op := begun_op h.word
  have hab : ((inp (0 + 1)).ans.abort || (inp (0 + 2)).ans.abort) = false := by
    rw [hf.abort, hf.abort]
    rfl
  have hp := (hf.quiet h).performs h.word h.passes hswp (by decide)
    (finishes_swp (q := q) rfl rfl hab)
  have haddr : q.swpAddr op = s.core.singleBase op := by
    rw [swpAddr, begun_rd, begun_pc, singleBase, executing_add_8]
  rw [hqop] at hp
  have hval : q.rd (field op 0 4) (q.pc + 4) = s.core.gpr (phys (field op 0 4) s.core.bank) := by
    rw [begun_rd, rd, if_neg hrm]
  rw [haddr, hval] at hp
  have hsig := hp.signals 1 (by simp)
  have haddr1 : (Arm7DI.core.outs s.core inp 1).addr = s.core.singleBase op :=
    congrArg Signals.addr hsig
  have hram : (System.busCycle^[1] s).bus.ram = s.bus.ram := by
    rw [hf.ram hp (n := 1) (by simp)]
    exact Signals.stored_read rfl
  have hrd1 : (inp 1).ans.rdata =
      Ram.wordAt s.bus.ram (DcArmBus.ramWord (s.core.singleBase op)) := by
    rw [hf.rdata (congrArg (·.type.isMem) hsig) (by rw [haddr1]; exact hin)
      (congrArg (·.flags.write) hsig), haddr1, hram]
  refine hf.leaves hp rfl (stepped_executing .swp (inp 0).ans .S) ?_ (begun_cpsr (r := .swp))
    (begun_spsr (r := .swp)) ?_
  · change (if field op 12 4 = 15 then _ else Function.update _ _ _) = _
    rw [if_neg hrd, ← Ram.loadVal_wordAt, ← hrd1]
    exact congrArg₂ (fun g b => Function.update g (phys (field op 12 4) b) _)
      (begun_gpr (r := .swp)) (begun_bank (r := .swp))
  · have hbyte : (q.swpFlags true).byte = bit op 22 := by rw [swpFlags, hqop]
    simp only [List.foldl_cons, List.foldl_nil]
    rw [Signals.stored_read (c := q.idleCycle) rfl, Signals.stored_read (c := q.fetchCycle) rfl,
      Signals.stored_read (c := ⟨.N, s.core.singleBase op, 0, q.swpFlags false⟩) rfl]
    exact Ram.stored_storeVal (c := ⟨.N, s.core.singleBase op, _, q.swpFlags true⟩) rfl hin rfl
      hbyte rfl

/-- LDR, LDRB, STR or STRB. -/
def IsSingle (op : Word) : Prop := field op 25 3 = 2 ∨ field op 25 3 = 3 ∧ bit op 4 = false

/-- SWP or SWPB. -/
def IsSwap (op : Word) : Prop := op &&& 0x0FB00FF0 = 0x01000090

/-- A single transfer or a swap at an address of the wave RAM does what the data sheet says: a store
replaces one aligned word or one byte, a load gives the rotated word or the byte, the base moves if
it is asked to, and nothing else changes. -/
theorem ram_transfer (h : s.Executes op) :
    let c := s.core
    let byte := bit op 22
    let rd := field op 12 4
    let a := c.singleAddr op
    let b := c.singleBase op
    (IsSingle op → DcArmBus.inRam a = true →
      (bit op 20 = false → s.Leaves 2 (c.executing + 4) (c.singleBack op)
        (Ram.store s.bus.ram byte a (c.rd rd (c.executing + 12)))) ∧
      (bit op 20 = true → rd ≠ 15 → s.Leaves 3 (c.executing + 4)
        (Function.update (c.singleBack op) (phys rd c.bank) (Ram.load s.bus.ram byte a)) s.bus.ram) ∧
      (bit op 20 = true → rd = 15 → s.Leaves 5 (Ram.load s.bus.ram byte a &&& ~~~3)
        (c.singleBack op) s.bus.ram)) ∧
    (IsSwap op → DcArmBus.inRam b = true → rd ≠ 15 → field op 0 4 ≠ 15 → field op 16 4 ≠ 15 →
      s.Leaves 4 (c.executing + 4)
        (Function.update c.gpr (phys rd c.bank) (Ram.load s.bus.ram byte b))
        (Ram.store s.bus.ram byte b (c.gpr (phys (field op 0 4) c.bank)))) := by
  refine ⟨fun hsdt hin => ?_, fun hswp hin hrd hrm _ => ?_⟩
  · have hseq : seqOf op = .sdt := seqOf_eq_sdt.mpr hsdt
    exact ⟨leaves_store h hseq hin, leaves_load h hseq hin, leaves_loadPc h hseq hin⟩
  · exact leaves_swp h (seqOf_of_swap hswp) hin hrd hrm

/-- `STR r0, [r13]`. -/
theorem ram_transfer_str :
    (holding 0xE58D0000 0x8004 7 9 (.new {} 0 0 0)).Leaves 2 4
      (holding 0xE58D0000 0x8004 7 9 (.new {} 0 0 0)).core.gpr
      (Ram.store (fun _ => 0) false 0x8004 7) := by
  have h := (ram_transfer (s := holding 0xE58D0000 0x8004 7 9 (.new {} 0 0 0))
    (holding_executes (by decide))).1 (by unfold IsSingle; decide) (by decide)
  exact h.1 (by decide)

end System

end Wren7
