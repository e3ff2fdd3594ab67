import Wren7.Reactive.Machine
import Wren7.Rtl.Core

/-!
# One bus cycle of the RTL

A bus cycle takes any number of clocks. All but the last are stalls: `ce` is low, or a memory cycle
has no `bus_ack`. A stall leaves every register of the core as it is but for the latched levels, and
the reads of the register file do not depend on its bypass, so the whole cycle does what its last
clock does on its own.
-/

namespace Wren7.Rtl

open Bits Reactive

/-- The RTL as a machine, one clock per step. -/
def rtl : Machine Core Pins Core.Outputs where
  out c _ := c.outputs
  next c i := c.clock i

/-- The states `rst` leaves: the registers it clears are clear, all other latches are arbitrary. -/
structure AfterRst (c : Core) : Prop where
  regs : c.regs = c.regs.reset
  fc : c.fc = true
  lwV : c.uRf.lwV = false

lemma afterRst_clock (c : Core) (i : Pins) (h : i.rst = true) : AfterRst (c.clock i) where
  regs := by simp [Core.clock, h, CoreRegs.reset]
  fc := by simp [Core.clock, h]
  lwV := by simp [Core.clock, Regfile.clock, h]

/-- A core that `rst` has just left, with the same word in every register. -/
def Core.ofReset (v : Word) : Core where
  regs := CoreRegs.reset default
  fc := true
  latched := ⟨false, false, false⟩
  uRf := { memA := fun _ => v, memB := fun _ => v, lwV := false, lwA := 0, lwD := 0 }

lemma afterRst_ofReset (v : Word) : AfterRst (Core.ofReset v) := ⟨rfl, rfl, rfl⟩

/-- The register file after the clock that completes a cycle. -/
def Comb.mem (c : Comb) (r : CoreRegs) (mem : BitVec 5 → Word) : BitVec 5 → Word :=
  if c.wEn then Function.update mem (c.wIdx r) c.wD else mem

/-- The sequencer states whose cycle is a memory cycle. -/
def St.isMem : St → Bool
  | .bound | .swp1 | .swp2 | .sdt2 | .bdtx | .ref0 | .ref1 => true
  | _ => false

lemma isMem_eq_req (t : CycleType) : t.isMem = !bit t.code 1 := by
  cases t <;> rfl

lemma busReq_eq (r : CoreRegs) : busReq r = r.ctype.isMem := (isMem_eq_req r.ctype).symm

/-! ### Fields of a conditional -/

section Ite

variable {p : Prop} [Decidable p]

@[simp] lemma Comb.ite_n (c d : Comb) : (if p then c else d).n = if p then c.n else d.n :=
  apply_ite Comb.n p c d

@[simp] lemma Comb.ite_spWe (c d : Comb) : (if p then c else d).spWe = if p then c.spWe else d.spWe :=
  apply_ite Comb.spWe p c d

@[simp] lemma Comb.ite_spB (c d : Comb) : (if p then c else d).spB = if p then c.spB else d.spB :=
  apply_ite Comb.spB p c d

@[simp] lemma Comb.ite_spV (c d : Comb) : (if p then c else d).spV = if p then c.spV else d.spV :=
  apply_ite Comb.spV p c d

@[simp] lemma Comb.ite_cap (c d : Comb) : (if p then c else d).cap = if p then c.cap else d.cap :=
  apply_ite Comb.cap p c d

@[simp] lemma Comb.ite_adv (c d : Comb) : (if p then c else d).adv = if p then c.adv else d.adv :=
  apply_ite Comb.adv p c d

@[simp] lemma Comb.ite_wReq (c d : Comb) : (if p then c else d).wReq = if p then c.wReq else d.wReq :=
  apply_ite Comb.wReq p c d

@[simp] lemma Comb.ite_wPhys (c d : Comb) : (if p then c else d).wPhys = if p then c.wPhys else d.wPhys :=
  apply_ite Comb.wPhys p c d

@[simp] lemma Comb.ite_wR (c d : Comb) : (if p then c else d).wR = if p then c.wR else d.wR :=
  apply_ite Comb.wR p c d

@[simp] lemma Comb.ite_wB (c d : Comb) : (if p then c else d).wB = if p then c.wB else d.wB :=
  apply_ite Comb.wB p c d

@[simp] lemma Comb.ite_wD (c d : Comb) : (if p then c else d).wD = if p then c.wD else d.wD :=
  apply_ite Comb.wD p c d

@[simp] lemma CoreRegs.ite_st (r q : CoreRegs) :
    (if p then r else q).st = if p then r.st else q.st :=
  apply_ite CoreRegs.st p r q

@[simp] lemma CoreRegs.ite_mulK (r q : CoreRegs) :
    (if p then r else q).mulK = if p then r.mulK else q.mulK :=
  apply_ite CoreRegs.mulK p r q

@[simp] lemma CoreRegs.ite_ctype (r q : CoreRegs) :
    (if p then r else q).ctype = if p then r.ctype else q.ctype :=
  apply_ite CoreRegs.ctype p r q

@[simp] lemma CoreRegs.ite_pc (r q : CoreRegs) :
    (if p then r else q).pc = if p then r.pc else q.pc :=
  apply_ite CoreRegs.pc p r q

@[simp] lemma CoreRegs.ite_psr (r q : CoreRegs) :
    (if p then r else q).psr = if p then r.psr else q.psr :=
  apply_ite CoreRegs.psr p r q

@[simp] lemma CoreRegs.ite_spsr (r q : CoreRegs) :
    (if p then r else q).spsr = if p then r.spsr else q.spsr :=
  apply_ite CoreRegs.spsr p r q

@[simp] lemma CoreRegs.ite_exW (r q : CoreRegs) :
    (if p then r else q).exW = if p then r.exW else q.exW :=
  apply_ite CoreRegs.exW p r q

@[simp] lemma CoreRegs.ite_deW (r q : CoreRegs) :
    (if p then r else q).deW = if p then r.deW else q.deW :=
  apply_ite CoreRegs.deW p r q

@[simp] lemma CoreRegs.ite_f1W (r q : CoreRegs) :
    (if p then r else q).f1W = if p then r.f1W else q.f1W :=
  apply_ite CoreRegs.f1W p r q

@[simp] lemma CoreRegs.ite_exA (r q : CoreRegs) :
    (if p then r else q).exA = if p then r.exA else q.exA :=
  apply_ite CoreRegs.exA p r q

@[simp] lemma CoreRegs.ite_deA (r q : CoreRegs) :
    (if p then r else q).deA = if p then r.deA else q.deA :=
  apply_ite CoreRegs.deA p r q

@[simp] lemma CoreRegs.ite_f1A (r q : CoreRegs) :
    (if p then r else q).f1A = if p then r.f1A else q.f1A :=
  apply_ite CoreRegs.f1A p r q

@[simp] lemma CoreRegs.ite_dab (r q : CoreRegs) :
    (if p then r else q).dab = if p then r.dab else q.dab :=
  apply_ite CoreRegs.dab p r q

@[simp] lemma CoreRegs.ite_inRst (r q : CoreRegs) :
    (if p then r else q).inRst = if p then r.inRst else q.inRst :=
  apply_ite CoreRegs.inRst p r q

@[simp] lemma CoreRegs.ite_rstExit (r q : CoreRegs) :
    (if p then r else q).rstExit = if p then r.rstExit else q.rstExit :=
  apply_ite CoreRegs.rstExit p r q

@[simp] lemma CoreRegs.ite_xAddr (r q : CoreRegs) :
    (if p then r else q).xAddr = if p then r.xAddr else q.xAddr :=
  apply_ite CoreRegs.xAddr p r q

@[simp] lemma CoreRegs.ite_xData (r q : CoreRegs) :
    (if p then r else q).xData = if p then r.xData else q.xData :=
  apply_ite CoreRegs.xData p r q

@[simp] lemma CoreRegs.ite_xCalc (r q : CoreRegs) :
    (if p then r else q).xCalc = if p then r.xCalc else q.xCalc :=
  apply_ite CoreRegs.xCalc p r q

@[simp] lemma CoreRegs.ite_xBase (r q : CoreRegs) :
    (if p then r else q).xBase = if p then r.xBase else q.xBase :=
  apply_ite CoreRegs.xBase p r q

@[simp] lemma CoreRegs.ite_xFab (r q : CoreRegs) :
    (if p then r else q).xFab = if p then r.xFab else q.xFab :=
  apply_ite CoreRegs.xFab p r q

@[simp] lemma CoreRegs.ite_xAmt (r q : CoreRegs) :
    (if p then r else q).xAmt = if p then r.xAmt else q.xAmt :=
  apply_ite CoreRegs.xAmt p r q

@[simp] lemma CoreRegs.ite_xCin (r q : CoreRegs) :
    (if p then r else q).xCin = if p then r.xCin else q.xCin :=
  apply_ite CoreRegs.xCin p r q

@[simp] lemma CoreRegs.ite_xBbyte (r q : CoreRegs) :
    (if p then r else q).xBbyte = if p then r.xBbyte else q.xBbyte :=
  apply_ite CoreRegs.xBbyte p r q

@[simp] lemma CoreRegs.ite_xBuser (r q : CoreRegs) :
    (if p then r else q).xBuser = if p then r.xBuser else q.xBuser :=
  apply_ite CoreRegs.xBuser p r q

@[simp] lemma CoreRegs.ite_xWb (r q : CoreRegs) :
    (if p then r else q).xWb = if p then r.xWb else q.xWb :=
  apply_ite CoreRegs.xWb p r q

@[simp] lemma CoreRegs.ite_xAb (r q : CoreRegs) :
    (if p then r else q).xAb = if p then r.xAb else q.xAb :=
  apply_ite CoreRegs.xAb p r q

@[simp] lemma CoreRegs.ite_xFirst (r q : CoreRegs) :
    (if p then r else q).xFirst = if p then r.xFirst else q.xFirst :=
  apply_ite CoreRegs.xFirst p r q

@[simp] lemma CoreRegs.ite_xPcl (r q : CoreRegs) :
    (if p then r else q).xPcl = if p then r.xPcl else q.xPcl :=
  apply_ite CoreRegs.xPcl p r q

@[simp] lemma CoreRegs.ite_xUb (r q : CoreRegs) :
    (if p then r else q).xUb = if p then r.xUb else q.xUb :=
  apply_ite CoreRegs.xUb p r q

@[simp] lemma CoreRegs.ite_xBorrow (r q : CoreRegs) :
    (if p then r else q).xBorrow = if p then r.xBorrow else q.xBorrow :=
  apply_ite CoreRegs.xBorrow p r q

@[simp] lemma CoreRegs.ite_xList (r q : CoreRegs) :
    (if p then r else q).xList = if p then r.xList else q.xList :=
  apply_ite CoreRegs.xList p r q

@[simp] lemma CoreRegs.ite_pwV (r q : CoreRegs) :
    (if p then r else q).pwV = if p then r.pwV else q.pwV :=
  apply_ite CoreRegs.pwV p r q

@[simp] lemma CoreRegs.ite_pwIdx (r q : CoreRegs) :
    (if p then r else q).pwIdx = if p then r.pwIdx else q.pwIdx :=
  apply_ite CoreRegs.pwIdx p r q

end Ite

namespace Core

variable {c c' : Core} {i : Pins}

/-! ### Reads -/

lemma coherent_clock (c : Core) (i : Pins) : (c.clock i).uRf.Coherent :=
  Regfile.coherent_clock _ _ _ _ _

lemma coherent_after {c : Core} (h : AfterRst c) (pins : ℕ → Pins) (n : ℕ) :
    (rtl.after c pins n).uRf.Coherent :=
  Machine.invariant (I := fun c : Core => c.uRf.Coherent) (Regfile.coherent_of_lwV h.lwV)
    (fun _ _ => coherent_clock _ _) n

lemma va_eq (h : c.uRf.Coherent) :
    c.va = portA c.regs (c.uRf.memA (raIdx c.regs)) := by
  rw [va, h.qa_eq]

lemma vb_eq (h : c.uRf.Coherent) :
    c.vb = portB c.regs (c.uRf.memB (rbIdx c.regs)) := by
  rw [vb, h.qb_eq]

/-- Two states with the same registers and the same memories: what a stall cannot tell apart. -/
structure SameData (c c' : Core) : Prop where
  regs : c'.regs = c.regs
  memA : c'.uRf.memA = c.uRf.memA
  memB : c'.uRf.memB = c.uRf.memB
  coherent : c.uRf.Coherent
  coherent' : c'.uRf.Coherent

lemma SameData.refl (h : c.uRf.Coherent) : SameData c c := ⟨rfl, rfl, rfl, h, h⟩

lemma SameData.va_eq (h : SameData c c') : c'.va = c.va := by
  rw [Core.va_eq h.coherent, Core.va_eq h.coherent', h.regs, h.memA]

lemma SameData.vb_eq (h : SameData c c') : c'.vb = c.vb := by
  rw [Core.vb_eq h.coherent, Core.vb_eq h.coherent', h.regs, h.memB]

lemma SameData.outputs_eq (h : SameData c c') : c'.outputs = c.outputs := by
  rw [outputs, outputs, h.regs, h.vb_eq]

/-! ### Stalls -/

/-- A clock in which the cycle of `c` does not end. -/
def Stalls (c : Core) (i : Pins) : Prop :=
  i.rst = false ∧ (i.ce = true → busReq c.regs = true ∧ i.busAck = false)

/-- A clock that completes the cycle of `c`. -/
def Completes (c : Core) (i : Pins) : Prop :=
  i.rst = false ∧ i.ce = true ∧ (busReq c.regs = true → i.busAck = true)

lemma cdone_of_stalls (h : c.Stalls i) : c.cdone i = false := by
  unfold cdone
  cases hce : i.ce with
  | false => rfl
  | true => simp [h.2 hce]

lemma cdone_of_completes (h : c.Completes i) : c.cdone i = true := by
  unfold cdone
  cases hreq : busReq c.regs with
  | false => simp [h.2.1]
  | true => simp [h.2.1, h.2.2 hreq]

/-- What a stall does: it may latch the levels, and nothing else happens. -/
lemma clock_of_stalls (h : c.Stalls i) :
    c.clock i =
      { c with
        fc := if i.ce then false else c.fc
        latched := if i.ce && c.fc then i.levels else c.latched
        uRf := c.uRf.clock false false ((c.next i).wIdx c.regs) (c.next i).wD } := by
  simp [clock, cdone_of_stalls h, h.1]

lemma SameData.stall (h : SameData c c') (hs : c.Stalls i) : SameData c (c'.clock i) := by
  have hs' : c'.Stalls i := by simpa [Stalls, h.regs] using hs
  rw [clock_of_stalls hs']
  exact ⟨h.regs, h.memA, h.memB, h.coherent, Regfile.coherent_clock _ _ _ _ _⟩

/-- The levels of the first `ce` clock of a cycle that stalls and then ends. -/
def firstLevels (stall : List Pins) (fin : Pins) : Levels :=
  ((stall.find? (·.ce)).getD fin).levels

/-- What the levels of the first `ce` clock will be, from the middle of the cycle on. -/
def levelsFrom (c : Core) (stall : List Pins) (fin : Pins) : Levels :=
  if c.fc then firstLevels stall fin else c.latched

lemma levelsFrom_stall (h : c.Stalls i) (stall : List Pins) (fin : Pins) :
    levelsFrom (c.clock i) stall fin = levelsFrom c (i :: stall) fin := by
  rw [clock_of_stalls h]
  cases hfc : c.fc <;> cases hce : i.ce <;>
    simp [levelsFrom, firstLevels, hfc, hce]

/-- What a completing clock does. -/
lemma clock_of_completes (h : c.Completes i) :
    c.clock i =
      { regs := (c.next i).regs c.regs i.busRdata (c.abE i)
        fc := true
        latched := if c.fc then i.levels else c.latched
        uRf := c.uRf.clock false (c.next i).wEn ((c.next i).wIdx c.regs) (c.next i).wD } := by
  simp [clock, cdone_of_completes h, h.1, h.2.1]

/-- A completing clock depends on the data, and on the levels of the first `ce` clock. -/
lemma clock_completes (h : SameData c c') (hfc : c.fc = true) (hfin : c.Completes i) :
    c'.clock i = c.clock { i with levels := levelsFrom c' [] i } := by
  have hfin' : c'.Completes i := by simpa [Completes, h.regs] using hfin
  have hlev : c'.sampled i = c.sampled { i with levels := levelsFrom c' [] i } := by
    simp [sampled, levelsFrom, firstLevels, hfc]
  have hnext : c'.next i = c.next { i with levels := levelsFrom c' [] i } := by
    simp only [next, hlev, h.va_eq, h.vb_eq, h.regs, abE]
  have hlat : (if c'.fc then i.levels else c'.latched) = levelsFrom c' [] i := rfl
  have hfin'' : c.Completes { i with levels := levelsFrom c' [] i } := hfin
  rw [clock_of_completes hfin', clock_of_completes hfin'']
  simp [hnext, hlat, h.regs, hfc, abE, Regfile.clock, h.memA, h.memB]

variable {stall : List Pins} {fin : Pins}

/-- Through the stalls of a cycle the data stay, and so do the levels it will decide on. -/
lemma sameData_foldl (h : SameData c c') (hs : ∀ i ∈ stall, c.Stalls i) (fin : Pins) :
    SameData c (stall.foldl clock c') ∧
      levelsFrom (stall.foldl clock c') [] fin = levelsFrom c' stall fin := by
  induction stall generalizing c' with
  | nil => exact ⟨h, rfl⟩
  | cons i stall ih =>
    have hi : c.Stalls i := hs i (by simp)
    have hi' : c'.Stalls i := by simpa [Stalls, h.regs] using hi
    rw [List.foldl_cons, ← levelsFrom_stall hi']
    exact ih (h.stall hi) fun j hj => hs j (by simp [hj])

/-- One bus cycle, however long it stalls, from any reachable state: the outputs stand still, and
the state after it is the one that its last clock alone reaches when it is given the levels of the
first `ce` clock. -/
theorem cycle_of_stalls {c₀ : Core} (h₀ : AfterRst c₀) (pins : ℕ → Pins) (n : ℕ)
    (hfc : (rtl.after c₀ pins n).fc = true)
    (hstall : ∀ i ∈ stall, (rtl.after c₀ pins n).Stalls i)
    (hfin : (rtl.after c₀ pins n).Completes fin) :
    (∀ l, l <+: stall →
      (l.foldl clock (rtl.after c₀ pins n)).outputs = (rtl.after c₀ pins n).outputs) ∧
    (stall.foldl clock (rtl.after c₀ pins n)).clock fin =
      (rtl.after c₀ pins n).clock { fin with levels := firstLevels stall fin } := by
  have hd := SameData.refl (coherent_after h₀ pins n)
  constructor
  · intro l hl
    exact (sameData_foldl hd (fun i hi => hstall i (hl.subset hi)) fin).1.outputs_eq
  · obtain ⟨hd', hlev⟩ := sameData_foldl hd hstall fin
    rw [clock_completes hd' hfc hfin, hlev, levelsFrom, hfc]
    rfl

/-- The first fetch after `rst`, stalled by `ce` with a stray acknowledge and then by a wait clock in
which nFIQ is low. -/
theorem cycle_of_stalls_fetch :
    let idle : Levels := ⟨false, false, false⟩
    let stray : Pins := ⟨false, false, ⟨true, true, true⟩, true, 0xE1A00000, true⟩
    let wait : Pins := ⟨false, true, ⟨false, true, false⟩, false, 0, true⟩
    let fin : Pins := ⟨false, true, idle, true, 0xE3A00001, false⟩
    let c := rtl.after (ofReset 0) (fun _ => fin) 0
    (∀ l, l <+: [stray, wait] → (l.foldl clock c).outputs = c.outputs) ∧
      ([stray, wait].foldl clock c).clock fin =
        c.clock { fin with levels := firstLevels [stray, wait] fin } := by
  intro idle stray wait fin c
  refine cycle_of_stalls (afterRst_ofReset 0) (fun _ => fin) 0 rfl ?_ ⟨rfl, rfl, fun _ => rfl⟩
  intro i hi
  rcases List.mem_cons.mp hi with rfl | hi
  · exact ⟨rfl, fun h => by cases h⟩
  · rcases List.mem_singleton.mp hi with rfl
    exact ⟨rfl, fun _ => ⟨by simp [busReq, ofReset, CoreRegs.reset, CycleType.code, bit], rfl⟩⟩

end Core

end Wren7.Rtl
