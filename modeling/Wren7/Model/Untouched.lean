import Wren7.Model.Run
import Wren7.Model.Spec

/-!
# What no sequencer touches

A part of the state that none of the elementary writes changes is the same all along a run: the
configuration of the core.
-/

namespace Wren7

open Bits Reactive

namespace Arm7DI

variable {s u : Arm7DI} {a : Answer}

/-- A part of the state that no work of a sequencer touches. -/
structure Untouched {β : Type*} (f : Arm7DI → β) : Prop where
  setX : ∀ s x, f (setX s x) = f s
  setK : ∀ s k, f (setK s k) = f s
  setPc : ∀ s p, f (setPc s p) = f s
  setSeq : ∀ s q, f (setSeq s q) = f s
  setDabort : ∀ s b, f (setDabort s b) = f s
  setPipe : ∀ s x y, f (setPipe s x y) = f s
  setCpsr : ∀ s v, f (setCpsr s v) = f s
  setSpsr : ∀ s b v, f (setSpsr s b v) = f s
  wrBank : ∀ s r b v, f (wrBank s r b v) = f s
  capture : ∀ s c, f (capture s c) = f s
  sampled : ∀ s a t, f (sampled s a t) = f s

namespace Untouched

variable {β : Type*} {f : Arm7DI → β} (h : Untouched f)

include h

lemma done : f u.advance.done = f u := by
  rw [advance, Arm7DI.done, h.setSeq, h.setPipe]

lemma refill (t : Word) : f (u.startRefill t) = f u := by
  rw [startRefill, h.setX, h.setK, h.setSeq]

lemma cycle1 {n : CycleType} {K : Arm7DI → Arm7DI} (hK : ∀ u, f (K u) = f u) :
    f ((s.cycle1Fetch n K).next a) = f s := by
  rw [cycle1Fetch, cyc_next, hK, h.capture, h.sampled]

lemma cyc {addr w : Word} {b : BusFlags} {n : CycleType} {K : Word → Arm7DI → Arm7DI}
    (hK : ∀ w u, f (K w u) = f u) : f ((s.cyc addr b w n K).next a) = f s := by
  rw [cyc_next, hK, h.sampled]

lemma dpFinish (x y : Word) (c : Bool) : f (u.dpFinish x y c) = f u := by
  rw [dpFinish_eq]
  split_ifs
  · rw [h.refill, h.setCpsr]
  · rw [h.done, h.setCpsr]
  · rw [h.done, h.setCpsr, wr, h.wrBank]

lemma dp : f (s.cDp.next a) = f s := by
  by_cases hk : s.k = 0
  · cases hr : regShift s.x.op with
    | true => rw [cDp_amount hk hr, h.cycle1 fun u => h.setK u 1, h.setX]
    | false => rw [cDp_single hk hr, h.cycle1 fun u => h.dpFinish _ _ _, h.setX]
  · rw [cDp_shift hk, h.cyc fun _ u => h.dpFinish _ _ _]

lemma msrWrite (p : Bool) (v m : Word) : f (u.msrWrite p v m) = f u := by
  unfold Arm7DI.msrWrite setSpsrCur
  split_ifs
  · rfl
  · rw [h.setSpsr]
  · rw [writeCpsr, h.setCpsr]
  · rw [writeCpsr, h.setCpsr]

lemma psr : f (s.cPsr.next a) = f s := by
  cases hop : bit s.x.op 21 with
  | true => rw [cPsr_msr hop, h.cycle1 fun u => by rw [h.done, h.msrWrite]]
  | false =>
    rw [cPsr_mrs hop]
    split_ifs
    · rw [h.cycle1 fun u => h.refill _]
    · rw [h.cycle1 fun u => by rw [h.done, wr, h.wrBank]]

lemma mulFlags : f u.mulFlags = f u := by
  unfold Arm7DI.mulFlags
  split_ifs
  · rw [h.setCpsr]
  · rfl

lemma mul : f (s.cMul.next a) = f s := by
  unfold cMul cMulStart
  split_ifs
  · rw [h.cycle1 fun u => by rw [h.setK, h.setX, wr, h.wrBank], h.setX]
  · rw [h.cyc, h.setX]
    intro _ u
    have hstep : ∀ k M d, f (u.mulStep k M d) = f u := fun k M d => by
      rw [mulStep, wr, h.wrBank, h.setX]
    dsimp only
    split_ifs
    · rw [h.setK, hstep]
    · rw [h.done, h.mulFlags, hstep]

lemma swp : f (s.cSwp.next a) = f s := by
  match hk : s.k with
  | 0 => rw [cSwp_start hk, h.cycle1 (K := id) fun _ => rfl, h.setX, h.setK]
  | 1 => rw [cSwp_read hk, h.cyc fun _ u => h.setX u _, h.setK]
  | 2 => rw [cSwp_write hk, h.cyc fun _ u => h.setX u _, h.setK]
  | k + 3 =>
    rw [cSwp_end (by omega), h.cyc, h.setK]
    intro _ u
    unfold swpEnd
    rw [h.done]
    split_ifs
    · rw [h.setDabort]
    · rw [wr, h.wrBank]

lemma sdtBase (op : Word) : f (u.sdtBase op) = f u := by
  unfold Arm7DI.sdtBase
  split_ifs
  · rw [wr, h.wrBank]
  · rfl

lemma sdt : f (s.cSdt.next a) = f s := by
  by_cases hk : s.k = 0
  · rw [cSdt_start hk, h.cycle1 fun u => h.setK u 1, h.setX]
  cases hL : bit s.x.op 20 with
  | false =>
    rw [cSdt_store hk hL, h.cyc]
    intro _ u
    rw [h.done, h.sdtBase]
    split_ifs
    · rw [h.setDabort]
    · rfl
  | true =>
    by_cases hk1 : s.k = 1
    · rw [cSdt_load hk1 hL, h.cyc fun _ u => by rw [h.setK, h.sdtBase, h.setX]]
    · rw [cSdt_end (by omega) hL, h.cyc]
      intro _ u
      unfold sdtEnd
      split_ifs
      · rw [h.done, h.setDabort]
      · rw [h.refill]
      · rw [h.done, wr, h.wrBank]

lemma bdtBase : f u.bdtBase = f u := by
  rw [bdtBase_eq, h.setX]
  exact u.wrBase_field f fun r b v => h.wrBank u r b v

lemma bdtLoad (w : Word) : f (u.bdtLoad w) = f u := by
  unfold Arm7DI.bdtLoad
  split_ifs
  · rfl
  · rw [h.setX]
  · rw [h.wrBank]
  · rw [wr, h.wrBank]

lemma bdtAdvance : f u.bdtAdvance = f u := by
  unfold Arm7DI.bdtAdvance
  dsimp only
  split_ifs
  · rw [h.setX, h.setK, h.setX]
  · rw [h.setX, h.setK, h.setX]
  · rw [h.done, h.setDabort, h.setK, h.setX]
  · rw [h.done, h.setK, h.setX]

lemma bdt : f (s.cBdt.next a) = f s := by
  by_cases hk : s.k = 0
  · unfold cBdt
    rw [if_pos hk, cBdtStart, h.cycle1 fun u => by rw [h.setK, h.setX], h.setX]
  by_cases hr : s.x.r = 16
  · rw [cBdt_final hk hr, h.cyc]
    intro _ u
    unfold bdtEnd
    by_cases hab : u.x.ab = true
    · rw [if_pos hab, h.done, h.setDabort, wr, h.wrBank]
    · rw [if_neg hab]
      split
      · rw [h.refill, h.setCpsr]
      · rw [h.done]
  unfold cBdt
  rw [if_neg hk, if_neg hr]
  by_cases hL : bit s.x.op 20 = true
  · rw [if_pos hL, h.cyc fun _ u => by rw [h.bdtAdvance, h.bdtLoad, h.bdtBase]]
  · rw [if_neg hL, h.cyc fun _ u => by rw [h.bdtAdvance, h.bdtBase]]

lemma entry (b : Bank) (m : BitVec 5) (F : Bool) (r14 : Word) : f (u.enter b m F r14) = f u := by
  rw [enter, h.wrBank, h.setCpsr, h.setSpsr]

lemma sequence (a : Answer) : f (s.sequence.next a) = f s := by
  unfold Arm7DI.sequence
  split
  · rw [cReset, h.cyc fun _ u => by rw [Arm7DI.done, h.setSeq, h.setPc]]
  · rw [cSkip, h.cycle1 fun u => h.done]
  · exact h.dp
  · exact h.psr
  · exact h.mul
  · exact h.swp
  · exact h.sdt
  · exact h.bdt
  · rw [cBranch, h.cycle1]
    intro u
    dsimp only
    rw [h.refill]
    split_ifs
    · rw [wr, h.wrBank]
    · rfl
  · unfold cUndef
    split_ifs
    · rw [h.cyc fun _ u => h.setK u 1, h.setX]
    · rw [h.cyc fun _ u => by rw [h.refill, h.entry]]
  · rw [cExc, h.cyc fun _ u => by rw [h.refill, h.entry]]
  · unfold cRefill
    split_ifs
    · rw [h.cyc fun _ u => by rw [h.setK, h.setX]]
    · rw [h.cyc fun _ u => by rw [Arm7DI.done, h.setSeq, h.setPc, h.setPipe]]

end Untouched

/-! ### The configuration -/

/-- What the constructor is given. -/
def config (s : Arm7DI) : ℕ × MulCarry := (s.irqSyncStages, s.mulCarry)

lemma untouched_config : Untouched config :=
  ⟨fun _ _ => rfl, fun _ _ => rfl, fun _ _ => rfl, fun _ _ => rfl, fun _ _ => rfl, fun _ _ _ => rfl,
    fun _ _ => rfl, fun _ _ _ => rfl, fun _ _ _ _ => rfl, fun _ _ => rfl, fun _ _ _ => rfl⟩

lemma start_config (s : Arm7DI) : s.start.config = s.config :=
  start_field config (fun _ _ => rfl) (fun _ _ => rfl) (fun _ _ => rfl) (fun _ _ => rfl)
    (fun _ _ => rfl) s

/-- The configuration stays. -/
lemma config_after (s : Arm7DI) (inp : ℕ → Input) (n : ℕ) :
    (core.after s inp n).config = s.config := by
  refine Machine.invariant (I := fun t : Arm7DI => t.config = s.config) rfl (fun n ih => ?_) n
  rw [core_next, busCycle, untouched_config.sequence, start_config]
  exact (poke_field _ config (fun _ l => by cases l <;> rfl) _).trans ih

end Arm7DI

end Wren7
