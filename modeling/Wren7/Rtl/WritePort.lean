import Wren7.Rtl.Cycle

/-!
# The register write port

The next-state block assigns the write request in several places, and the last assignment counts. No
reachable state makes two of them in one cycle, so no loaded register is lost.
-/

namespace Wren7.Rtl

open Bits Reactive

/-- An assignment of the write request: `WREG`, or the delayed write of a loaded register. -/
inductive WriteReq
  | reg (r : Reg) (b : Bank) (d : Word)
  | pending (d : Word)
  deriving DecidableEq

/-- The request that the block ends with. -/
def Comb.request (c : Comb) : Option WriteReq :=
  if c.wReq then some (if c.wPhys then .pending c.wD else .reg c.wR c.wB c.wD) else none

section Requests

variable (r : CoreRegs) (va vb : Word) (l : Levels)

/-- The assignments of a data operation's last cycle. -/
def dpRequests : List WriteReq :=
  if wpc r.exW then []
  else if !test r.exW then [.reg (fRd r.exW) (bank r) (dpRes r va vb)]
  else []

/-- The assignments of `S_BOUND`. -/
def boundRequests : List WriteReq :=
  let w := r.exW
  if dHold l then []
  else if dExc r l then [.reg 14 (bankOf (entry r l).2.1) (pcm4 r)]
  else if !cond r then []
  else if isDp w && dpRs w then []
  else if isDp w then dpRequests r va vb
  else if isPsr w then
    if !bit w 21 then
      if fRd w = 15 then []
      else [.reg (fRd w) (bank r) (if bB w then psr32 (spsrCur r) else cpsr32 r)]
    else []
  else if isMul w then [.reg (field w 16 4) (bank r) (if bit w 21 then va else 0)]
  else if isSwp w then []
  else if isSdt w then []
  else if isBdt w then []
  else if isBr w then if bit w 24 then [.reg 14 (bank r) (pcm4 r)] else []
  else []

/-- The assignments of `S_BDTX`: the base write-back, and the register loaded before. -/
def bdtxRequests : List WriteReq :=
  (if r.xFirst && bW r.exW then [.reg (fRn r.exW) (bank r) r.xCalc] else []) ++
    if bL r.exW then if r.pwV then [.pending r.xData] else [] else []

/-- The assignments of `S_BDTF`: the last register, and the base after an abort. -/
def bdtfRequests : List WriteReq :=
  (if r.pwV then [.pending r.xData] else []) ++
    if r.xAb then [.reg (fRn r.exW) (bank r) (if bW r.exW then r.xCalc else r.xBase)] else []

/-- The assignments of a cycle, in the order of the block. -/
def writeRequests : List WriteReq :=
  let w := r.exW
  match r.st with
  | .bound => boundRequests r va vb l
  | .dp2 => dpRequests r va vb
  | .mul => [.reg (field w 16 4) (bank r) (mAcc r va vb)]
  | .swp1 => []
  | .swp2 => []
  | .swp3 => if r.xAb then [] else [.reg (fRd w) (bank r) (ldV r)]
  | .sdt2 => if r.xWb && fRn w != 15 then [.reg (fRn w) (bank r) r.xCalc] else []
  | .sdt3 => if r.xAb then [] else if fRd w = 15 then [] else [.reg (fRd w) (bank r) (ldV r)]
  | .bdtx => bdtxRequests r
  | .bdtf => bdtfRequests r
  | .und2 => [.reg 14 .und (pcm4 r)]
  | .ref0 => []
  | .ref1 => []

end Requests

section Block

variable {r : CoreRegs} {va vb : Word} {l : Levels} {rdata : Word} {abE : Bool}

lemma request_dpTail {c : Comb} (hc : c.request = none) :
    (dpTail r va vb c).request = (dpRequests r va vb).getLast? := by
  unfold dpTail dpRequests
  split_ifs <;> first | exact hc | rfl

lemma request_ite {p : Prop} [Decidable p] (c d : Comb) :
    (if p then c else d).request = if p then c.request else d.request :=
  apply_ite Comb.request p c d

lemma getLast?_ite {p : Prop} [Decidable p] (k m : List WriteReq) :
    (if p then k else m).getLast? = if p then k.getLast? else m.getLast? :=
  apply_ite List.getLast? p k m

lemma ite_both {α : Type*} {p : Prop} [Decidable p] {a b c d : α} (h : a = c) (h' : b = d) :
    (if p then a else b) = if p then c else d := by
  rw [h, h']

lemma request_psrArm : (psrArm r vb).request =
    (if !bit r.exW 21 then
      if fRd r.exW = 15 then []
      else [.reg (fRd r.exW) (bank r) (if bB r.exW then psr32 (spsrCur r) else cpsr32 r)]
    else ([] : List WriteReq)).getLast? := by
  unfold psrArm
  by_cases h : (!bit r.exW 21) = true
  · simp only [if_pos h]
    split_ifs <;> rfl
  · simp only [if_neg h]
    split_ifs <;> rfl

lemma request_brArm : (brArm r va).request =
    (if bit r.exW 24 then [.reg 14 (bank r) (pcm4 r)] else ([] : List WriteReq)).getLast? := by
  unfold brArm
  split_ifs <;> rfl

lemma request_boundArm :
    (boundArm r va vb l).request = (boundRequests r va vb l).getLast? := by
  simp only [boundArm, boundRequests, request_ite, getLast?_ite]
  refine ite_both rfl (ite_both rfl (ite_both rfl (ite_both rfl (ite_both (request_dpTail rfl)
    (ite_both ?_ (ite_both rfl (ite_both rfl (ite_both rfl (ite_both rfl (ite_both ?_ rfl))))))))))
  · simpa only [getLast?_ite] using request_psrArm
  · simpa only [getLast?_ite] using request_brArm

lemma request_sdt2Arm : (sdt2Arm r rdata abE).request =
    (if r.xWb && fRn r.exW != 15 then [.reg (fRn r.exW) (bank r) r.xCalc]
      else ([] : List WriteReq)).getLast? := by
  cases hw : (r.xWb && fRn r.exW != 15) <;> cases hL : bL r.exW <;> cases abE <;>
    simp only [sdt2Arm, hw, hL, Bool.false_eq_true, if_true, if_false] <;> rfl

lemma request_sdt3Arm : (sdt3Arm r).request =
    (if r.xAb then [] else if fRd r.exW = 15 then []
      else ([.reg (fRd r.exW) (bank r) (ldV r)] : List WriteReq)).getLast? := by
  cases hx : r.xAb <;> by_cases hd : fRd r.exW = 15 <;>
    simp only [sdt3Arm, hx, hd, Bool.false_eq_true, if_true, if_false] <;> rfl

lemma request_bdtxArm : (bdtxArm r rdata abE).request = (bdtxRequests r).getLast? := by
  cases hw : (r.xFirst && bW r.exW) <;> cases hL : bL r.exW <;> cases hp : r.pwV <;>
    simp [Comb.request, bdtxArm, bdtxRequests, Comb.pendingWrite, Comb.wreg, Comb.dflt, hw, hL, hp]

lemma request_bdtfArm : (bdtfArm r).request = (bdtfRequests r).getLast? := by
  cases hx : r.xAb <;> cases hp : r.pwV <;> cases hl : r.xPcl <;>
    simp [Comb.request, bdtfArm, bdtfRequests, Comb.pendingWrite, Comb.wreg, Comb.dflt, hx, hp, hl]

/-- The last assignment is the one of the block. -/
lemma request_comb (r : CoreRegs) (va vb : Word) (l : Levels) (rdata : Word) (abE : Bool) :
    (comb r va vb l rdata abE).request = (writeRequests r va vb l).getLast? := by
  unfold comb writeRequests
  cases hst : r.st <;> dsimp only
  · exact request_boundArm
  · exact request_dpTail rfl
  · unfold mulStepArm
    split_ifs <;> rfl
  · rfl
  · rfl
  · unfold swp3Arm
    split_ifs <;> rfl
  · exact request_sdt2Arm
  · exact request_sdt3Arm
  · exact request_bdtxArm
  · exact request_bdtfArm
  all_goals rfl

/-! ### The announced type and the pending write -/

/-- What every arm other than that of `S_BDTX` does: it announces a memory cycle just for the memory
states, and leaves no write pending that was not. -/
structure Steady (r : CoreRegs) (c : Comb) : Prop where
  type : c.n.ctype.isMem = c.n.st.isMem
  pending : c.n.pwV = true → r.pwV = true

lemma steady_ite {p : Prop} [Decidable p] {c d : Comb} (h : Steady r c) (h' : Steady r d) :
    Steady r (if p then c else d) := by
  split_ifs
  · exact h
  · exact h'

lemma steady_dpTail {c : Comb} (h : c.n.pwV = true → r.pwV = true) :
    Steady r (dpTail r va vb c) := by
  unfold dpTail
  cases hw : wpc r.exW <;> cases ht : test r.exW <;>
    simp only [Bool.false_eq_true, Bool.not_false, Bool.not_true, if_true, if_false] <;>
    exact ⟨rfl, h⟩

lemma steady_boundArm : Steady r (boundArm r va vb l) := by
  have hpsr : Steady r (psrArm r vb) := by
    cases h : bit r.exW 21 <;> by_cases hd : fRd r.exW = 15 <;> cases hB : bB r.exW <;>
      cases hb : bank r != .usr <;>
      simp only [psrArm, h, hd, hB, hb, Bool.false_eq_true, Bool.not_false, Bool.not_true, if_true,
        if_false] <;> exact ⟨rfl, id⟩
  have hbr : Steady r (brArm r va) := by
    cases h : bit r.exW 24 <;> simp only [brArm, h, Bool.false_eq_true, if_true, if_false] <;>
      exact ⟨rfl, id⟩
  have hexc : Steady r (excArm r l) := by
    cases h : dRexit r l <;> cases h' : dDab r l <;>
      simp only [excArm, h, h', Bool.false_eq_true, if_true, if_false] <;> exact ⟨rfl, id⟩
  have hsame (c : Comb) (h : c.n.ctype.isMem = c.n.st.isMem) (h' : c.n.pwV = r.pwV) :
      Steady r c := ⟨h, fun hp => h' ▸ hp⟩
  unfold boundArm
  refine steady_ite (hsame _ rfl rfl) (steady_ite hexc (steady_ite (hsame _ rfl rfl)
    (steady_ite (hsame _ rfl rfl) (steady_ite (steady_dpTail id) (steady_ite hpsr
    (steady_ite (hsame _ rfl rfl) (steady_ite (hsame _ rfl rfl) (steady_ite (hsame _ rfl rfl)
    (steady_ite ⟨rfl, nofun⟩ (steady_ite hbr (hsame _ rfl rfl)))))))))))

lemma steady_comb (hst : r.st ≠ .bdtx) : Steady r (comb r va vb l rdata abE) := by
  have hNS (b : Bool) : (if b then .N else .S : CycleType).isMem = true := by cases b <;> rfl
  unfold comb
  cases h : r.st <;> dsimp only
  · exact steady_boundArm
  · exact steady_dpTail id
  · cases hl : mLast r <;> cases hs : bS r.exW <;>
      simp only [mulStepArm, hl, hs, Bool.false_eq_true, if_true, if_false]
    · exact ⟨(congrArg St.isMem h).symm, id⟩
    · exact ⟨(congrArg St.isMem h).symm, id⟩
    all_goals exact ⟨rfl, id⟩
  · exact ⟨rfl, id⟩
  · exact ⟨rfl, id⟩
  · cases hx : r.xAb <;> simp only [swp3Arm, hx, Bool.false_eq_true, if_true, if_false] <;>
      exact ⟨rfl, id⟩
  · cases hw : (r.xWb && fRn r.exW != 15) <;> cases hL : bL r.exW <;> cases abE <;>
      simp only [sdt2Arm, hw, hL, Bool.false_eq_true, if_true, if_false] <;> exact ⟨rfl, id⟩
  · cases hx : r.xAb <;> by_cases hd : fRd r.exW = 15 <;>
      simp only [sdt3Arm, hx, hd, Bool.false_eq_true, if_true, if_false]
    all_goals first | exact ⟨rfl, id⟩ | exact ⟨hNS _, id⟩
  · exact absurd h hst
  · cases hx : r.xAb <;> cases hl : r.xPcl <;> cases hp : r.pwV <;>
      cases hb : bit r.exW 22 && bank r != .usr <;>
      simp only [bdtfArm, Comb.pendingWrite, hx, hl, hp, hb, Bool.false_eq_true, if_true, if_false]
    all_goals exact ⟨rfl, fun h => Bool.noConfusion (h : false = true)⟩
  all_goals exact ⟨rfl, id⟩

lemma bdtf_pwV : (bdtfArm r).n.pwV = false := by
  cases hx : r.xAb <;> cases hl : r.xPcl <;> cases hp : r.pwV <;>
    cases hb : bit r.exW 22 && bank r != .usr <;>
    simp only [bdtfArm, Comb.pendingWrite, hx, hl, hp, hb, Bool.false_eq_true, if_true, if_false] <;>
    rfl

/-- The word of a transfer is loaded: no abort up to it, and it is not for R15. -/
def loads (r : CoreRegs) (abE : Bool) : Bool := bL r.exW && !(r.xAb || abE) && bdtR r != 15

/-- Where the loaded word goes. -/
def loadIdx (r : CoreRegs) : BitVec 5 := phys (bdtR r) (if r.xUb then .usr else bank r)

/-- What a transfer leaves behind. -/
lemma bdtx_next (hst : r.st = .bdtx) (hpw : r.pwV = true → bL r.exW = true) :
    let c := bdtxArm r rdata abE
    c.n.ctype.isMem = c.n.st.isMem ∧ c.n.xFirst = false ∧ c.n.xAb = (r.xAb || abE) ∧
      c.n.pwV = loads r abE ∧
      (loads r abE = true → c.n.pwIdx = loadIdx r ∧ c.n.xData = rdata ∧ c.adv = false ∧
        (c.n.st = .bdtx ∨ c.n.st = .bdtf)) := by
  intro c
  cases hw : (r.xFirst && bW r.exW)
  all_goals
    cases hL : bL r.exW
    · have hp : r.pwV = false := Bool.eq_false_iff.mpr fun h => by simp [hpw h] at hL
      cases hl : bdtLast r <;> cases hx : (r.xAb || abE) <;>
        simp [c, bdtxArm, loads, Comb.dflt, Comb.wreg, CycleType.isMem, St.isMem, hw, hL, hl, hx,
          hp, hst]
    · cases hp : r.pwV <;> cases hl : bdtLast r <;> cases hx : (r.xAb || abE) <;>
        by_cases h15 : bdtR r = 15#4 <;>
        simp [c, bdtxArm, loads, loadIdx, Comb.pendingWrite, Comb.dflt, Comb.wreg,
          CycleType.isMem, St.isMem, hw, hL, hl, hx, hp, h15]

end Block

/-- One assignment at most, and no delayed write. -/
def Plain (k : List WriteReq) : Prop := k = [] ∨ ∃ r b d, k = [.reg r b d]

lemma plain_ite {p : Prop} [Decidable p] {k m : List WriteReq} (h : Plain k) (h' : Plain m) :
    Plain (if p then k else m) := by
  split_ifs
  · exact h
  · exact h'

lemma plain_nil : Plain [] := .inl rfl

lemma plain_reg (r : Reg) (b : Bank) (d : Word) : Plain [.reg r b d] := .inr ⟨r, b, d, rfl⟩

lemma Plain.length_le {k : List WriteReq} (h : Plain k) : k.length ≤ 1 := by
  rcases h with rfl | ⟨_, _, _, rfl⟩
  · exact Nat.zero_le 1
  · exact Nat.le_refl 1

section Plain

variable {r : CoreRegs} {va vb : Word} {l : Levels}

lemma plain_dpRequests : Plain (dpRequests r va vb) :=
  plain_ite plain_nil (plain_ite (plain_reg _ _ _) plain_nil)

lemma plain_boundRequests : Plain (boundRequests r va vb l) := by
  have h0 := plain_nil
  have h1 := plain_reg
  unfold boundRequests
  exact plain_ite h0 (plain_ite (h1 _ _ _) (plain_ite h0 (plain_ite h0 (plain_ite plain_dpRequests
    (plain_ite (plain_ite (plain_ite h0 (h1 _ _ _)) h0) (plain_ite (h1 _ _ _) (plain_ite h0
    (plain_ite h0 (plain_ite h0 (plain_ite (plain_ite (h1 _ _ _) h0) h0))))))))))

/-- Without a pending write. -/
lemma plain_writeRequests (hp : r.pwV = false) : Plain (writeRequests r va vb l) := by
  unfold writeRequests
  cases r.st <;> dsimp only
  · exact plain_boundRequests
  · exact plain_dpRequests
  · exact plain_reg _ _ _
  · exact plain_nil
  · exact plain_nil
  · exact plain_ite plain_nil (plain_reg _ _ _)
  · exact plain_ite (plain_reg _ _ _) plain_nil
  · exact plain_ite plain_nil (plain_ite plain_nil (plain_reg _ _ _))
  · rw [bdtxRequests, hp]
    simpa using plain_ite (plain_reg _ _ _) plain_nil
  · rw [bdtfRequests, hp]
    simpa using plain_ite (plain_reg _ _ _) plain_nil
  · exact plain_reg _ _ _
  · exact plain_nil
  · exact plain_nil

end Plain

/-! ### The invariant -/

/-- What holds of the registers in every reachable state. -/
structure CoreRegs.Ok (r : CoreRegs) : Prop where
  type : r.ctype.isMem = r.st.isMem
  pending : r.pwV = true →
    (r.st = .bdtx ∧ bL r.exW = true ∧ r.xFirst = false ∨ r.st = .bdtf) ∧ r.xAb = false

namespace CoreRegs.Ok

variable {r : CoreRegs} {va vb : Word} {l : Levels} {rdata : Word} {abE : Bool} (h : r.Ok)

include h

lemma bL_of_pending (hst : r.st = .bdtx) (hp : r.pwV = true) : bL r.exW = true := by
  rcases (h.pending hp).1 with h | h
  · exact h.2.1
  · rw [hst] at h
    cases h

/-- A pending write is the only one of its cycle. -/
lemma requests_of_pending (hp : r.pwV = true) : writeRequests r va vb l = [.pending r.xData] := by
  obtain ⟨hst | hst, hx⟩ := h.pending hp
  · simp [writeRequests, bdtxRequests, hst.1, hst.2.1, hst.2.2, hp]
  · simp [writeRequests, bdtfRequests, hst, hp, hx]

/-- No cycle asks for two writes. -/
lemma requests_le : (writeRequests r va vb l).length ≤ 1 := by
  cases hp : r.pwV with
  | true => rw [h.requests_of_pending hp]; exact Nat.le_refl 1
  | false => exact (plain_writeRequests hp).length_le

/-- A completed cycle keeps the invariant; the write that it leaves pending is that of the word it loaded. -/
lemma step (r' : CoreRegs) (hr' : r' = (comb r va vb l rdata abE).regs r rdata abE) :
    r'.Ok ∧ r'.pwV = (r.st == .bdtx && loads r abE) ∧
      (r'.pwV = true → r'.pwIdx = loadIdx r ∧ r'.xData = rdata) := by
  subst hr'
  by_cases hst : r.st = .bdtx
  · have hc : comb r va vb l rdata abE = bdtxArm r rdata abE := by rw [comb, hst]
    obtain ⟨htype, hfirst, hab, hpw, hload⟩ := @bdtx_next r rdata abE hst (h.bL_of_pending hst)
    rw [hc]
    refine ⟨⟨htype, fun hp => ?_⟩, by rw [hst]; exact hpw, fun hp => ?_⟩
    · obtain ⟨-, -, hadv, hnext⟩ := hload (hpw ▸ hp)
      have hl : loads r abE = true := hpw ▸ hp
      have hex : ((bdtxArm r rdata abE).regs r rdata abE).exW = r.exW := by
        rw [Comb.regs]
        simp [hst, hadv]
      simp only [loads, Bool.and_eq_true, Bool.not_eq_true'] at hl
      refine ⟨hnext.imp (fun hn => ⟨hn, ?_, hfirst⟩) id, hab.trans hl.1.2⟩
      rw [hex]
      exact hl.1.1
    · obtain ⟨hidx, hdata, -⟩ := hload (hpw ▸ hp)
      exact ⟨hidx, hdata⟩
  · have hs : Steady r (comb r va vb l rdata abE) := steady_comb hst
    have hp : (comb r va vb l rdata abE).n.pwV = false := by
      refine Bool.eq_false_iff.mpr fun hp => ?_
      rcases (h.pending (hs.pending hp)).1 with h' | h'
      · exact hst h'.1
      · rw [comb, h'] at hp
        exact absurd (bdtf_pwV.symm.trans hp) (by decide)
    have hne : (r.st == .bdtx) = false := beq_eq_false_iff_ne.mpr hst
    refine ⟨⟨hs.type, fun h' => absurd (hp.symm.trans h') (by decide)⟩, ?_, fun h' =>
      absurd (hp.symm.trans h') (by decide)⟩
    rw [hne]
    exact hp

end CoreRegs.Ok

/-! ### Runs -/

namespace Core

variable (c : Core) (i : Pins)

/-- The assignments of the write request in a clock. -/
def requests : List WriteReq := writeRequests c.regs c.va c.vb (c.sampled i)

/-- The register that a clock loads, with its word. -/
def loaded : List (BitVec 5 × Word) :=
  if c.cdone i && (c.regs.st == .bdtx && loads c.regs (c.abE i)) then
    [(loadIdx c.regs, i.busRdata)]
  else []

/-- What a clock writes through the port as a delayed write. -/
def delayed : List (BitVec 5 × Word) :=
  if c.cdone i && ((c.next i).wEn && (c.next i).wPhys) then
    [((c.next i).wIdx c.regs, (c.next i).wD)]
  else []

/-- The write that is still pending. -/
def pending : List (BitVec 5 × Word) := if c.regs.pwV then [(c.regs.pwIdx, c.regs.xData)] else []

/-- The events of the first `n` clocks of a run. -/
def history {α : Type*} (f : Core → Pins → List α) (pins : ℕ → Pins) : ℕ → List α
  | 0 => []
  | n + 1 => history f pins n ++ f (rtl.after c pins n) (pins n)

variable {c i}

lemma ok_of_afterRst (hc : AfterRst c) : c.regs.Ok := by
  rw [hc.regs]
  exact ⟨rfl, fun h => Bool.noConfusion h⟩

lemma request_next : (c.next i).request = (c.requests i).getLast? := request_comb _ _ _ _ _ _

/-- A pending write is performed by the clock that completes the cycle. -/
lemma next_of_pending (h : c.regs.Ok) (hp : c.regs.pwV = true) :
    (c.next i).wEn = true ∧ (c.next i).wPhys = true ∧ (c.next i).wD = c.regs.xData := by
  have hreq := @request_next c i
  rw [requests, h.requests_of_pending hp, Comb.request] at hreq
  cases hr : (c.next i).wReq <;> cases hw : (c.next i).wPhys <;> simp [hr, hw] at hreq
  exact ⟨by simp [Comb.wEn, hr, hw], rfl, hreq⟩

/-- Without one there is no delayed write. -/
lemma next_of_not_pending (hp : c.regs.pwV = false) :
    ((c.next i).wEn && (c.next i).wPhys) = false := by
  have hreq := @request_next c i
  rw [Comb.request] at hreq
  cases hr : (c.next i).wReq <;> cases hw : (c.next i).wPhys
  · rw [Bool.and_false]
  · rw [Comb.wEn, hr, Bool.false_and, Bool.false_and]
  · rw [Bool.and_false]
  · rw [hr, hw, if_pos rfl, if_pos rfl] at hreq
    rcases @plain_writeRequests c.regs c.va c.vb (c.sampled i) hp with
      h | ⟨_, _, _, h⟩ <;> rw [requests, h] at hreq <;> cases hreq

variable (c)

/-- One clock of the history: what is loaded is pending afterwards, what was pending is written. -/
lemma pending_clock (h : c.regs.Ok) (hrst : i.rst = false) : (c.clock i).regs.Ok ∧
    c.pending ++ c.loaded i = c.delayed i ++ (c.clock i).pending := by
  have hregs : (c.clock i).regs =
      if c.cdone i then (c.next i).regs c.regs i.busRdata (c.abE i) else c.regs := by
    simp [clock, hrst]
  cases hd : c.cdone i with
  | false =>
    rw [hd, if_neg (by decide)] at hregs
    refine ⟨hregs ▸ h, ?_⟩
    simp [pending, loaded, delayed, hd, hregs]
  | true =>
    rw [hd, if_pos rfl] at hregs
    obtain ⟨hok, hpw, hload⟩ := h.step _ hregs
    refine ⟨hok, ?_⟩
    have hnext : c.loaded i = (c.clock i).pending := by
      rw [loaded, pending, hd, Bool.true_and, ← hpw]
      split_ifs with hp
      · rw [(hload hp).1, (hload hp).2]
      · rfl
    have hnow : c.pending = c.delayed i := by
      rw [pending, delayed, hd, Bool.true_and]
      cases hp : c.regs.pwV with
      | false => rw [next_of_not_pending hp, if_neg (by decide), if_neg (by decide)]
      | true =>
        obtain ⟨hen, hphys, hdata⟩ := @next_of_pending c i h hp
        rw [hen, hphys, hdata, Comb.wIdx, hphys]
        rfl
    rw [hnext, hnow]

/-- The invariant and the history along a run. -/
lemma ok_after (hc : AfterRst c) {pins : ℕ → Pins} (hrst : ∀ n, (pins n).rst = false) (n : ℕ) :
    (rtl.after c pins n).regs.Ok ∧ history c loaded pins n =
      history c delayed pins n ++ (rtl.after c pins n).pending := by
  induction n with
  | zero =>
    refine ⟨ok_of_afterRst hc, ?_⟩
    have hp : c.regs.pwV = false := by
      rw [hc.regs]
      rfl
    simp [history, pending, hp]
  | succ n ih =>
    obtain ⟨hok, hp⟩ := pending_clock _ ih.1 (hrst n)
    refine ⟨hok, ?_⟩
    rw [history, history, ih.2, List.append_assoc, hp, List.append_assoc]
    rfl

/-- One register write port is enough. In every state of a run from a reset, whatever the inputs: the
next-state block assigns the write request once at most, and ends with that assignment; a delayed write is
pending only in an LDM transfer after the first or in its final cycle, without a base write-back or a
restored base, and not at a boundary; every register that an LDM has loaded was written once with the word
of its transfer, or that is the pending write, which the clock that completes the cycle puts into both
copies of the register file. A request is on the bus in the memory states, so a cycle of another state
never waits and one of these never ends without its acknowledge. -/
theorem one_write_port {c : Core} (hc : AfterRst c) {pins : ℕ → Pins}
    (hrst : ∀ n, (pins n).rst = false) (n : ℕ) :
    let s := rtl.after c pins n
    let i := pins n
    ((s.requests i).length ≤ 1 ∧ (s.next i).request = (s.requests i).head?) ∧
    (s.regs.pwV = true →
      (s.regs.st = .bdtx ∧ bL s.regs.exW = true ∧ s.regs.xFirst = false ∨ s.regs.st = .bdtf) ∧
      ¬(s.regs.st = .bdtx ∧ s.regs.xFirst = true ∧ bW s.regs.exW = true) ∧
      ¬(s.regs.st = .bdtf ∧ s.regs.xAb = true)) ∧
    (s.dbgBoundary = true → s.regs.pwV = false) ∧
    history c loaded pins n = history c delayed pins n ++ s.pending ∧
    (s.regs.pwV = true → s.cdone i = true →
      (s.clock i).uRf.memA s.regs.pwIdx = s.regs.xData ∧
        (s.clock i).uRf.memB s.regs.pwIdx = s.regs.xData) ∧
    (busReq s.regs = true ↔ s.regs.st = .bound ∨ s.regs.st = .swp1 ∨ s.regs.st = .swp2 ∨
      s.regs.st = .sdt2 ∨ s.regs.st = .bdtx ∨ s.regs.st = .ref0 ∨ s.regs.st = .ref1) ∧
    (busReq s.regs = false → s.cdone i = i.ce) ∧
    (busReq s.regs = true → s.cdone i = (i.ce && i.busAck)) := by
  intro s i
  obtain ⟨hok, hhist⟩ : s.regs.Ok ∧ _ := ok_after c hc hrst n
  have hlen : (s.requests i).length ≤ 1 := hok.requests_le
  refine ⟨⟨hlen, ?_⟩, fun hp => ⟨(hok.pending hp).1, ?_, ?_⟩, fun hb => ?_, hhist, fun hp hd => ?_,
    ?_, fun hq => ?_, fun hq => ?_⟩
  · rw [request_next]
    match hk : s.requests i, hlen with
    | [], _ => rfl
    | [q], _ => rfl
  · rintro ⟨hst, hf, -⟩
    rcases (hok.pending hp).1 with h | h
    · exact absurd (h.2.2.symm.trans hf) (by decide)
    · exact absurd (h.symm.trans hst) (by decide)
  · rintro ⟨-, hx⟩
    exact absurd ((hok.pending hp).2.symm.trans hx) (by decide)
  · have hst : s.regs.st = .bound := by simpa [dbgBoundary] using hb
    refine Bool.eq_false_iff.mpr fun hp => ?_
    rcases (hok.pending hp).1 with h | h
    · exact absurd (h.1.symm.trans hst) (by decide)
    · exact absurd (h.symm.trans hst) (by decide)
  · obtain ⟨hen, hphys, hdata⟩ := @next_of_pending s i hok hp
    have hidx : (s.next i).wIdx s.regs = s.regs.pwIdx := by rw [Comb.wIdx, hphys, if_pos rfl]
    simp [clock, hd, hen, hidx, hdata]
  · rw [busReq_eq, hok.type]
    cases s.regs.st <;> simp [St.isMem]
  · rw [cdone, hq, if_neg (by decide), Bool.and_true]
  · rw [cdone, hq, if_pos rfl]

/-- `LDMIA r13!, {r1, r2}` from every address, in one clock each: the clock is in its second transfer. -/
theorem one_write_port_ldm :
    let pins : ℕ → Pins := fun _ =>
      ⟨false, true, ⟨false, false, false⟩, true, 0xE8BD0006, false⟩
    let s := rtl.after (ofReset 0) pins 9
    (s.requests (pins 9)).length ≤ 1 ∧
      history (ofReset 0) loaded pins 9 = history (ofReset 0) delayed pins 9 ++ s.pending := by
  intro pins s
  have h := @one_write_port (ofReset 0) (afterRst_ofReset 0) pins (fun _ => rfl) 9
  exact ⟨h.1.1, h.2.2.2.1⟩

end Core

end Wren7.Rtl
