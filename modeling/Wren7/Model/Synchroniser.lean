import Wren7.Model.Pace
import Wren7.Model.Untouched
import Wren7.Reactive.Delay

/-!
# The interrupt synchroniser

The core with `n` stages of synchroniser does what the core without one does behind lines that are `n`
bus cycles late.
-/

namespace Wren7

open Bits Reactive

/-- A move of nRESET. -/
def Line.isReset : Line → Bool
  | .reset _ => true
  | .fiq _ => false
  | .irq _ => false

namespace Arm7DI

/-- The state with another number of stages. -/
def restage (s : Arm7DI) (n : ℕ) : Arm7DI := { s with irqSyncStages := n }

variable {s : Arm7DI} {inp : ℕ → Input}

/-! ### Late lines -/

/-- The inputs of the core behind lines that are as late as the stages of `s` make them. -/
def late (s : Arm7DI) (inp : ℕ → Input) (m : ℕ) : Input where
  lines := (inp m).lines.filter Line.isReset ++
    [.fiq (delayed (bit s.fiqPipe) (fun k => (inp k).ans.fiq) s.irqSyncStages m),
      .irq (delayed (bit s.irqPipe) (fun k => (inp k).ans.irq) s.irqSyncStages m)]
  ans := (inp m).ans

lemma lines_next (s : Arm7DI) (a : Answer) :
    (s.busCycle.next a).lines = s.start.lines.sampled s.start.nextType.isMem a :=
  congrArg lines ((commutes_sequence s.start s.start.lines).2 a)

lemma bit_pushed (p : Word) (b : Bool) (i : ℕ) :
    bit ((p <<< 1) ||| maskIf b 1) i = if i = 0 then b else decide (i < 32) && bit p (i - 1) := by
  rw [bit, BitVec.getLsbD_or, BitVec.getLsbD_shiftLeft, getLsbD_maskIf, bit]
  cases i with
  | zero => simp
  | succ i => simp

lemma shifts_of_pushed {p : ℕ → Word} {x : ℕ → Bool}
    (h : ∀ m, p (m + 1) = (p m <<< 1) ||| maskIf (x m) 1) : Shifts 32 (fun m => bit (p m)) x where
  first m := by rw [h, bit_pushed, if_pos rfl]
  move m i hi := by
    rw [h, bit_pushed, if_neg (Nat.succ_ne_zero i), decide_eq_true hi, Bool.true_and,
      Nat.add_sub_cancel]

/-- What the boundaries see is the levels of some bus cycles before. -/
lemma seen_after (h0 : 0 < s.irqSyncStages) (h32 : s.irqSyncStages ≤ 32) (m : ℕ) (ls : List Line) :
    ((core.after s inp m).poke ls).fiqSeen =
        delayed (bit s.fiqPipe) (fun k => (inp k).ans.fiq) s.irqSyncStages m ∧
      ((core.after s inp m).poke ls).irqSeen =
        delayed (bit s.irqPipe) (fun k => (inp k).ans.irq) s.irqSyncStages m := by
  have hpipe : ∀ (f : Arm7DI → Word) (g : Lines → Word) (x : Answer → Bool),
      (∀ s, f s = g s.lines) → (∀ τ b a, g (τ.sampled b a) = (g τ <<< 1) ||| maskIf (x a) 1) →
      (∀ s l, f (setLine s l) = f s) → (∀ s, f s.start = f s) →
      Shifts 32 (fun m => bit (f (core.after s inp m))) fun k => x (inp k).ans := by
    intro f g x hg hs hl hstart
    refine shifts_of_pushed fun m => ?_
    rw [Machine.after_succ, core_next, hg, lines_next, hs, ← hg, hstart, poke_field _ f hl]
  have hstages : ((core.after s inp m).poke ls).irqSyncStages = s.irqSyncStages :=
    (poke_irqSyncStages _ _).trans (congrArg Prod.fst (config_after s inp m))
  obtain ⟨i, hi⟩ := Nat.exists_eq_add_of_lt h0
  rw [Nat.zero_add] at hi
  have hne : s.irqSyncStages ≠ 0 := Nat.ne_of_gt h0
  rw [fiqSeen, irqSeen, hstages, if_neg hne, if_neg hne, hi, Nat.add_sub_cancel]
  constructor
  · rw [poke_field _ fiqPipe fun _ l => by cases l <;> rfl]
    exact (hpipe fiqPipe Lines.fiqPipe Answer.fiq (fun _ => rfl) (fun _ _ _ => rfl)
      (fun _ l => by cases l <;> rfl) fun s => start_field fiqPipe (fun _ _ => rfl) (fun _ _ => rfl)
        (fun _ _ => rfl) (fun _ _ => rfl) (fun _ _ => rfl) s).eq_delayed (by omega) m
  · rw [poke_field _ irqPipe fun _ l => by cases l <;> rfl]
    exact (hpipe irqPipe Lines.irqPipe Answer.irq (fun _ => rfl) (fun _ _ _ => rfl)
      (fun _ l => by cases l <;> rfl) fun s => start_field irqPipe (fun _ _ => rfl) (fun _ _ => rfl)
        (fun _ _ => rfl) (fun _ _ => rfl) (fun _ _ => rfl) s).eq_delayed (by omega) m

/-! ### The two cores -/

/-- The state of the core behind late lines. -/
def Unsynced (s t : Arm7DI) : Prop :=
  ∃ τ : Lines, t = s.repace τ 0 ∧ τ.cycles = s.cycles ∧ τ.inReset = s.inReset ∧
    τ.resetExit = s.resetExit

/-- The moves of nRESET alone do to nRESET what all moves do. -/
lemma poke_resets {t : Arm7DI} (hr : t.inReset = s.inReset) (he : t.resetExit = s.resetExit)
    (ls : List Line) : (t.poke (ls.filter Line.isReset)).inReset = (s.poke ls).inReset ∧
      (t.poke (ls.filter Line.isReset)).resetExit = (s.poke ls).resetExit := by
  induction ls generalizing s t with
  | nil => exact ⟨hr, he⟩
  | cons l ls ih =>
    cases l with
    | reset b =>
      refine @ih (s.setReset b) (t.setReset b) rfl ?_
      rw [setReset_resetExit, setReset_resetExit, hr, he]
    | fiq b => exact @ih (s.setFiq b) t hr he
    | irq b => exact @ih (s.setIrq b) t hr he

lemma Unsynced.poke {t : Arm7DI} (h : Unsynced s t) (ls : List Line) (f i : Bool) :
    ∃ τ : Lines,
      t.poke (ls.filter Line.isReset ++ [.fiq f, .irq i]) = (s.poke ls).repace τ 0 ∧
        τ.cycles = (s.poke ls).cycles ∧ τ.inReset = (s.poke ls).inReset ∧
          τ.resetExit = (s.poke ls).resetExit ∧ τ.fiqIn = f ∧ τ.irqIn = i := by
  obtain ⟨τ, rfl, hc, hr, he⟩ := h
  set t := s.repace τ 0 with ht
  set ls' := ls.filter Line.isReset with hls
  obtain ⟨hr', he'⟩ := poke_resets (t := t) hr he ls
  have hpoke : ∀ ls, t.poke ls = s.repace (t.poke ls).lines 0 := fun ls =>
    poke_eq_retime t ls
  have hlines : t.poke (ls' ++ [.fiq f, .irq i]) = ((t.poke ls').setFiq f).setIrq i :=
    List.foldl_append ..
  refine ⟨(t.poke (ls' ++ [.fiq f, .irq i])).lines, ?_, ?_, ?_, ?_, ?_, ?_⟩
  · rw [hpoke, poke_eq_retime s]
    rfl
  · exact ((poke_field t cycles (fun _ l => by cases l <;> rfl) _).trans hc).trans
      (poke_field s cycles (fun _ l => by cases l <;> rfl) _).symm
  all_goals rw [hlines]
  · exact hr'
  · exact he'
  · rfl
  · rfl

/-- A bus cycle of the two cores. -/
lemma unsynced_busCycle {τ : Lines} (hc : τ.cycles = s.cycles) (hr : τ.inReset = s.inReset)
    (he : τ.resetExit = s.resetExit) (hf : τ.fiqIn = s.fiqSeen) (hi : τ.irqIn = s.irqSeen)
    (a : Answer) : (s.repace τ 0).busCycle.bus = s.busCycle.bus ∧
      Unsynced (s.busCycle.next a) ((s.repace τ 0).busCycle.next a) := by
  have hstart : SameStart s τ 0 :=
    ⟨hr, he, fun _ => congrArg (· && !bit s.cpsr 6) hf, fun _ => congrArg (· && !bit s.cpsr 7) hi⟩
  obtain ⟨hbus, hnext⟩ := busCycle_repace hstart (a := a) rfl rfl
  have hlines := lines_next s a
  have hcycles : s.start.cycles = s.cycles := start_field cycles (fun _ _ => rfl) (fun _ _ => rfl)
    (fun _ _ => rfl) (fun _ _ => rfl) (fun _ _ => rfl) s
  have hreset : s.start.inReset = s.inReset := start_field inReset (fun _ _ => rfl) (fun _ _ => rfl)
    (fun _ _ => rfl) (fun _ _ => rfl) (fun _ _ => rfl) s
  refine ⟨?_, _, hnext, ?_, ?_, ?_⟩
  · have ht : s.busCycle.bus = { s.busCycle.bus with t := s.start.cycles } :=
      (commutes_sequence s.start s.start.lines).1
    rw [hbus, hc, ← hcycles]
    exact ht.symm
  · rw [show (s.busCycle.next a).cycles = _ from congrArg Lines.cycles hlines]
    exact congrArg (· + 1 + a.wait) (hc.trans hcycles.symm)
  · exact hr.trans (hreset.symm.trans (congrArg Lines.inReset hlines).symm)
  · exact (congrArg Lines.resetExit hlines).symm

/-- One bus cycle of the two runs. -/
lemma unsynced_step (h0 : 0 < s.irqSyncStages) (h32 : s.irqSyncStages ≤ 32) {m : ℕ} {t : Arm7DI}
    (h : Unsynced (core.after s inp m) t) : core.out t (s.late inp m) = core.outs s inp m ∧
      Unsynced (core.after s inp (m + 1)) (core.next t (s.late inp m)) := by
  obtain ⟨hf, hi⟩ := @seen_after s inp h0 h32 m (inp m).lines
  obtain ⟨τ, hpoke, hc, hr, he, hτf, hτi⟩ := h.poke (inp m).lines _ _
  rw [core_out, core_next, late, hpoke]
  exact unsynced_busCycle hc hr he (hτf.trans hf.symm) (hτi.trans hi.symm) _

lemma unsynced_after (h0 : 0 < s.irqSyncStages) (h32 : s.irqSyncStages ≤ 32) (m : ℕ) :
    Unsynced (core.after s inp m) (core.after (s.restage 0) (s.late inp) m) := by
  induction m with
  | zero => exact ⟨s.lines, rfl, rfl, rfl, rfl⟩
  | succ m ih => exact (unsynced_step h0 h32 ih).2

/-- The core with `n` stages of synchroniser drives, in every run and from every state, what the core
without one drives behind lines that are `n` bus cycles late; its registers are the same. -/
theorem synchroniser (s : Arm7DI) (inp : ℕ → Input) (h0 : 0 < s.irqSyncStages)
    (h32 : s.irqSyncStages ≤ 32) (m : ℕ) :
    core.outs s inp m = core.outs (s.restage 0) (s.late inp) m ∧
      (core.after s inp m).arch = (core.after (s.restage 0) (s.late inp) m).arch ∧
        ((core.after s inp m).atBoundary ↔ (core.after (s.restage 0) (s.late inp) m).atBoundary) := by
  have h := @unsynced_after s inp h0 h32 m
  refine ⟨(unsynced_step h0 h32 h).1.symm, ?_⟩
  obtain ⟨τ, hτ, -⟩ := h
  rw [hτ]
  exact ⟨rfl, Iff.rfl⟩

theorem synchroniser_two :
    let s := powerOn 2 .shifterLast
    core.outs s (calm 0) 5 = core.outs (s.restage 0) (s.late (calm 0)) 5 ∧
      (core.after s (calm 0) 5).arch = (core.after (s.restage 0) (s.late (calm 0)) 5).arch ∧
        ((core.after s (calm 0) 5).atBoundary ↔
          (core.after (s.restage 0) (s.late (calm 0)) 5).atBoundary) :=
  synchroniser (powerOn 2 .shifterLast) (calm 0) (by decide) (by decide) 5

end Arm7DI

end Wren7
