import Wren7.Aica.Arbiter
import Wren7.Grid.Stages
import Wren7.Model.Pipeline
import Wren7.Model.Sequences
import Wren7.System.Jobs

/-!
# What an instruction costs

The time from an instruction's fetch on a step boundary to the next one's, where no memory cycle
meets an occupied slot. Its bus cycles are the stages of a job on the grid.
-/

namespace Wren7

open Bits Reactive

/-- How long a bus cycle takes on the console where it finds its slot free. Internal cycles and the
accesses to L and M use none. -/
def Signals.stage (c : Signals) : Grid.Stage :=
  if c.type.isMem && !DcArmBus.isLocal c.addr then
    .aligned (if c.flags.write && c.flags.lock then 4 else 8)
  else .prompt 1

namespace Arm7DI

/-! ### The cost of a row -/

/-- What an instruction costs, in MCLK. -/
def cost (s : Arm7DI) (op : Word) : ℕ :=
  if s.condPass op then
    match seqOf op with
    | .dp => if writesPc op then (if regShift op then 28 else 24) else if regShift op then 12 else 8
    | .psr => if bit op 21 = false ∧ field op 12 4 = 15 then 24 else 8
    | .mul => 8 + 4 * ((mulSteps (s.rd (field op 8 4) s.pc) + 3) / 4)
    | .swp => 24
    | .sdt =>
      let r15 := bit op 20 = true ∧ field op 12 4 = 15
      if DcArmBus.isLocal (s.sdtAddr op) then (if r15 then 28 else 12)
      else if r15 then 36 else if bit op 20 then 20 else 16
    | .bdt =>
      let n := (blockList op).length
      if bit op 20 then (if 15 ∈ blockList op then 28 + 8 * n else 12 + 8 * n) else 8 + 8 * n
    | .branch => 24
    | .undefTrap => 28
    -- SWI
    | _ => 24
  else 8

section Row

variable {s : Arm7DI} {op t : Word}

/-- Fetches avoid L and M, and so do the data accesses of all instructions but LDR and STR. -/
def Apart (op : Word) (row : List Signals) : Prop :=
  ∀ c ∈ row, c.type.isMem = true → DcArmBus.isLocal c.addr = true →
    c.flags.opc = false ∧ seqOf op = .sdt

lemma stage_internal {c : Signals} (hm : c.type.isMem = false) : c.stage = .prompt 1 := by
  rw [Signals.stage, hm]
  rfl

lemma stage_local {c : Signals} (hl : DcArmBus.isLocal c.addr = true) : c.stage = .prompt 1 := by
  rw [Signals.stage, hl, Bool.not_true, Bool.and_false, if_neg Bool.false_ne_true]

lemma stage_slot {c : Signals} (hm : c.type.isMem = true) (hl : DcArmBus.isLocal c.addr = false) :
    c.stage = .aligned (if c.flags.write && c.flags.lock then 4 else 8) := by
  rw [Signals.stage, hm, hl]
  rfl

lemma stage_unlocked {c : Signals} (hm : c.type.isMem = true) (h : c.flags.lock = false) :
    c.stage = if DcArmBus.isLocal c.addr then .prompt 1 else .aligned 8 := by
  split_ifs with hl
  · exact stage_local hl
  · rw [stage_slot hm (Bool.eq_false_iff.mpr hl), h, Bool.and_false]
    rfl

variable {row : List Signals} (ha : Apart op row)

include ha

/-- A fetch takes a slot. -/
lemma Apart.fetch {c : Signals} (hc : c ∈ row) (hm : c.type.isMem = true)
    (ho : c.flags.opc = true) (hw : c.flags.write = false) : c.stage = .aligned 8 := by
  rw [stage_slot hm, hw]
  · rfl
  · refine Bool.eq_false_iff.mpr fun h => ?_
    rw [(ha c hc hm h).1] at ho
    cases ho

/-- A data access takes a slot, but for LDR and STR. -/
lemma Apart.data {c : Signals} (hc : c ∈ row) (hm : c.type.isMem = true) (hn : seqOf op ≠ .sdt) :
    c.stage = .aligned (if c.flags.write && c.flags.lock then 4 else 8) :=
  stage_slot hm (Bool.eq_false_iff.mpr fun h => hn (ha c hc hm h).2)

lemma Apart.of_append {r r' : List Signals} (h : row = r ++ r') : Apart op r ∧ Apart op r' :=
  ⟨fun c hc => ha c (h ▸ List.mem_append_left r' hc),
    fun c hc => ha c (h ▸ List.mem_append_right r hc)⟩

end Row

section Refills

variable {op t : Word}

lemma Apart.stages_refills (ha : Apart op (refills t)) :
    (refills t).map Signals.stage = [.aligned 8, .aligned 8] := by
  have h0 := ha.fetch (c := ⟨.N, t, 0, { opc := true }⟩) (by simp [refills]) rfl rfl rfl
  have h1 := ha.fetch (c := ⟨.S, t + 4, 0, { opc := true }⟩) (by simp [refills]) rfl rfl rfl
  rw [refills, List.map_cons, List.map_singleton, h0, h1]

/-- The fetches that refill the pipeline, where an instruction has them. -/
lemma Apart.stages_refillsIf {c : Prop} [Decidable c] (ha : Apart op (if c then refills t else [])) :
    (if c then refills t else []).map Signals.stage =
      if c then [.aligned 8, .aligned 8] else [] := by
  split_ifs at ha ⊢
  · exact ha.stages_refills
  · rfl

end Refills

/-- The stages after the first fetch of an instruction. -/
def stagesRest (s : Arm7DI) (op : Word) : List Grid.Stage :=
  let refilled : List Grid.Stage := [.aligned 8, .aligned 8]
  match seqOf op with
  | .dp => (if regShift op then [.prompt 1] else []) ++ if writesPc op then refilled else []
  | .psr => if bit op 21 = false ∧ field op 12 4 = 15 then refilled else []
  | .mul => List.replicate (mulSteps (s.rd (field op 8 4) s.pc)) (.prompt 1)
  | .swp => [.aligned 8, .aligned 4, .prompt 1]
  | .sdt =>
    (if DcArmBus.isLocal (s.sdtAddr op) then .prompt 1 else .aligned 8) ::
      if bit op 20 then .prompt 1 :: if field op 12 4 = 15 then refilled else [] else []
  | .bdt =>
    List.replicate (blockList op).length (.aligned 8) ++
      if bit op 20 then .prompt 1 :: if 15 ∈ blockList op then refilled else [] else []
  | .undefTrap => .prompt 1 :: refilled
  | _ => refilled

section Stages

variable {s : Arm7DI} {op t : Word} (ha : Apart op (s.sequenceRest op t))

include ha

lemma stages_swp (h : seqOf op = .swp) :
    (s.sequenceRest op t).map Signals.stage = [.aligned 8, .aligned 4, .prompt 1] := by
  have hn : seqOf op ≠ .sdt := by rw [h]; decide
  simp only [sequenceRest, h] at ha ⊢
  have hread := ha.data (List.mem_cons_self) rfl hn
  have hwrite := ha.data (List.mem_cons_of_mem _ List.mem_cons_self) rfl hn
  rw [List.map_cons, List.map_cons, List.map_singleton, hread, hwrite]
  rfl

lemma stages_sdt (h : seqOf op = .sdt) : (s.sequenceRest op t).map Signals.stage =
    (if DcArmBus.isLocal (s.sdtAddr op) then .prompt 1 else .aligned 8) ::
      if bit op 20 then .prompt 1 :: if field op 12 4 = 15 then [.aligned 8, .aligned 8] else []
      else [] := by
  have hread : Signals.stage ⟨.N, s.sdtAddr op, 0, { byte := bit op 22 }⟩ =
      if DcArmBus.isLocal (s.sdtAddr op) then .prompt 1 else .aligned 8 := stage_unlocked rfl rfl
  have hwrite : Signals.stage ⟨.N, s.sdtAddr op, 0, { byte := bit op 22, write := true }⟩ =
      if DcArmBus.isLocal (s.sdtAddr op) then .prompt 1 else .aligned 8 := stage_unlocked rfl rfl
  simp only [sequenceRest, h] at ha ⊢
  cases hL : bit op 20 with
  | false => rw [if_neg Bool.false_ne_true, List.map_singleton, hwrite, if_neg Bool.false_ne_true]
  | true =>
    rw [hL, if_pos rfl] at ha
    obtain ⟨-, hr⟩ := ha.of_append (r := [_, _]) rfl
    rw [if_pos rfl, List.map_cons, List.map_cons, hread, hr.stages_refillsIf, if_pos rfl]
    rfl

lemma stages_bdt (h : seqOf op = .bdt) : (s.sequenceRest op t).map Signals.stage =
    List.replicate (blockList op).length (.aligned 8) ++
      if bit op 20 then .prompt 1 :: if 15 ∈ blockList op then [.aligned 8, .aligned 8] else []
      else [] := by
  have hn : seqOf op ≠ .sdt := by rw [h]; decide
  simp only [sequenceRest, h] at ha ⊢
  obtain ⟨hdata, hrest⟩ := ha.of_append rfl
  rw [List.map_append, List.map_map]
  congr 1
  · refine List.eq_replicate_iff.mpr ⟨by simp, fun x hx => ?_⟩
    obtain ⟨j, hj, rfl⟩ := List.mem_map.mp hx
    refine (hdata.data (List.mem_map_of_mem hj) ?_ hn).trans ?_
    · change (if j = 0 then CycleType.N else .S).isMem = true
      split_ifs <;> rfl
    · rw [Bool.and_false]
      rfl
  · cases hL : bit op 20 with
    | false => rfl
    | true =>
      rw [hL, if_pos rfl] at hrest
      obtain ⟨-, hr⟩ := hrest.of_append (r := [_]) rfl
      rw [if_pos rfl, List.map_cons, hr.stages_refillsIf, if_pos rfl]
      rfl

/-- The stages of a row. -/
lemma stages_rest : (s.sequenceRest op t).map Signals.stage = s.stagesRest op := by
  have hrest := ha
  rcases seqOf_cases op with h | h | h | h | h | h | h | h | h
  case inr.inr.inr.inl => rw [stages_swp ha h, stagesRest, h]
  case inr.inr.inr.inr.inl => rw [stages_sdt ha h, stagesRest, h]
  case inr.inr.inr.inr.inr.inl => rw [stages_bdt ha h, stagesRest, h]
  all_goals simp only [sequenceRest, stagesRest, h] at hrest ⊢
  · obtain ⟨-, hr⟩ := hrest.of_append rfl
    rw [List.map_append, hr.stages_refillsIf]
    cases regShift op <;> rfl
  · exact hrest.stages_refillsIf
  · rw [List.map_replicate, datasheetM_eq]
    rfl
  · exact hrest.stages_refills
  · obtain ⟨-, hr⟩ := hrest.of_append (r := [_]) rfl
    rw [List.map_cons, hr.stages_refills]
    rfl
  · exact hrest.stages_refills

end Stages

section Span

open Grid

variable (s : Arm7DI) (op : Word)

/-- Booth steps are rounded up to the grid. -/
lemma span_mul (m : ℕ) :
    span 4 (.aligned 8 :: List.replicate m (.prompt 1)) = 8 + 4 * ((m + 3) / 4) := by
  rw [← List.singleton_append, span_append (by decide) (by decide), span, finish_prompt, up]
  change 8 + (0 + m * 1 + 4 - 1) / 4 * 4 = _
  omega

/-- The transfers of an LDM or STM follow the fetch without a gap. -/
lemma span_transfers (n : ℕ) (l : List Stage) :
    span 4 (.aligned 8 :: (List.replicate n (.aligned 8) ++ l)) = 8 + 8 * n + span 4 l := by
  have hfin := finish_aligned (d := 4) (t := 0) (n := 8) (by decide) (by decide) (by decide) (n + 1)
  rw [← List.cons_append, ← List.replicate_succ, span_append (by decide) (hfin ▸ by omega), hfin]
  omega

/-- The costs are what the stages take. -/
lemma span_stages : span 4 (.aligned 8 :: if s.condPass op then s.stagesRest op else []) =
    s.cost op := by
  cases hc : s.condPass op with
  | false =>
    rw [cost, hc, if_neg Bool.false_ne_true, if_neg Bool.false_ne_true]
    rfl
  | true =>
    rw [if_pos rfl, cost, if_pos hc]
    rcases seqOf_cases op with h | h | h | h | h | h | h | h | h <;> simp only [stagesRest, h]
    · cases regShift op <;> cases writesPc op <;> rfl
    · split_ifs <;> rfl
    · exact span_mul _
    · rfl
    · cases DcArmBus.isLocal (s.sdtAddr op) <;> cases bit op 20 <;>
        by_cases h15 : field op 12 4 = 15 <;> simp only [h15] <;> rfl
    · have h1 : span 4 [.prompt 1, .aligned 8, .aligned 8] = 20 := rfl
      have h2 : span 4 [.prompt 1] = 4 := rfl
      have h3 : span 4 [] = 0 := rfl
      rw [span_transfers]
      cases bit op 20 <;> by_cases h15 : 15 ∈ blockList op <;> simp [h15, h1, h2, h3] <;> omega
    · rfl
    · rfl
    · rfl

end Span

/-! ### What a boundary begins with -/

/-- What a boundary begins with costs: the entry of an interrupt or abort, or an instruction. -/
def startCost (s : Arm7DI) : ℕ := if s.preempted || s.ex.abort then 24 else s.cost s.ex.word

section Entry

variable {s : Arm7DI} (hi : s.seq = .idle) (hr : s.inReset = false) (he : s.resetExit = false)

include hi hr he

lemma quiet_of_not_preempted (h : (s.preempted || s.ex.abort) = false) : s.Quiet := by
  simp only [preempted, Bool.or_eq_false_iff] at h
  obtain ⟨⟨⟨hd, hf⟩, hirq⟩, hx⟩ := h
  exact ⟨hi, hr, he, hd, hf, hirq, hx⟩

lemma start_entry (h : (s.preempted || s.ex.abort) = true) : ∃ u vector mode setF,
    s.start = startExc u vector mode setF ∧ u.nextType = s.nextType := by
  cases hd : s.dabortPending with
  | true => exact ⟨_, _, _, _, start_dabort hi hr he hd, rfl⟩
  | false =>
    cases hf : s.takesFiq with
    | true => exact ⟨_, _, _, _, start_fiq hi hr he hd hf, rfl⟩
    | false =>
      cases hirq : s.takesIrq with
      | true => exact ⟨_, _, _, _, start_irq hi hr he hd hf hirq, rfl⟩
      | false =>
        have hx : s.ex.abort = true := by simpa [preempted, hd, hf, hirq] using h
        exact ⟨_, _, _, _, (start_slot hi hr he hd hf hirq).trans (if_pos hx), rfl⟩

end Entry

section Run

variable {s : Arm7DI} {inp : ℕ → Input} (hr : (s.poke (inp 0).lines).inReset = false)
  (he : (s.poke (inp 0).lines).resetExit = false) (hi : s.seq = .idle)
  (hn : s.nextType.isMem = true)

include hn in
/-- The row of an instruction takes its cost. -/
lemma span_row {op t : Word} (ha : Apart op (s.sequenceRow op t)) :
    Grid.span 4 ((s.sequenceRow op t).map Signals.stage) = s.cost op := by
  have hfetch := ha.fetch (c := ⟨s.nextType, _, 0, { opc := true }⟩) List.mem_cons_self hn rfl rfl
  have hrest := (ha.of_append (r := [_]) (List.singleton_append).symm).2
  rw [← span_stages, sequenceRow, List.map_cons, hfetch]
  cases hc : s.condPass op with
  | false => rfl
  | true =>
    rw [hc, if_pos rfl] at hrest
    rw [if_pos rfl, if_pos rfl, stages_rest hrest]

include hn in
/-- So does the row of an entry. -/
lemma span_excRow {op vector : Word} {mode : BitVec 5} {setF : Bool}
    (ha : Apart op ((s.excRow vector mode setF).map Signals.shape)) :
    Grid.span 4 (((s.excRow vector mode setF).map Signals.shape).map Signals.stage) = 24 := by
  have hfetch := ha.fetch (c := ⟨s.nextType, s.pc, 0, { opc := true }⟩) List.mem_cons_self hn rfl rfl
  have hrest := (ha.of_append (r := [_]) (List.singleton_append).symm).2
  have hrefills := Apart.stages_refills (t := vector) hrest
  change Grid.span 4 (Signals.stage ⟨s.nextType, s.pc, 0, { opc := true }⟩ ::
    (refills vector).map Signals.stage) = 24
  rw [hfetch, hrefills]
  rfl

include hr he hi hn in
/-- The cycles from a boundary to the next are stages that take the cost of what begins there, if
they are apart from L and M. -/
lemma exists_row (hans : ∀ k, (inp k).ans.abort = false) : ∃ row : List Signals,
    NextBoundary s inp row.length ∧
      (∀ j (hj : j < row.length), (core.outs s inp j).signals.shape = row[j]) ∧
      (Apart s.ex.word row →
        Grid.span 4 (row.map Signals.stage) = (s.poke (inp 0).lines).startCost) := by
  have hidle : (s.poke (inp 0).lines).seq = .idle := (poke_seq s _).trans hi
  unfold startCost
  cases h : (s.poke (inp 0).lines).preempted || (s.poke (inp 0).lines).ex.abort with
  | false =>
    have hcost : (s.poke (inp 0).lines).cost (s.poke (inp 0).lines).ex.word = s.cost s.ex.word :=
      poke_field s (fun u => u.cost u.ex.word) (fun _ l => by cases l <;> rfl) _
    obtain ⟨n, hnext, hrow, -⟩ := cycle_sequence (quiet_of_not_preempted hidle hr he h) hans
    have hlen : n = (s.sequenceRow s.ex.word (core.after s inp n).executing).length := by
      rw [← hrow, List.length_map, List.length_range]
    refine ⟨_, hlen ▸ hnext, fun j hj => ?_, fun ha => ?_⟩
    · simp only [← hrow, List.getElem_map, List.getElem_range]
    · rw [if_neg Bool.false_ne_true, hcost]
      exact span_row hn ha
  | true =>
    obtain ⟨u, vector, mode, setF, hstart, hu⟩ := start_entry hidle hr he h
    have hp := performs_exc hstart
    refine ⟨(u.excRow vector mode setF).map Signals.shape, ?_, fun j hj => ?_, fun ha => ?_⟩
    · rw [List.length_map]
      exact hp.next
    · rw [List.getElem_map, hp.signals]
    · rw [if_pos rfl]
      exact span_excRow (hu ▸ (poke_nextType s _).symm ▸ hn) ha

end Run

end Arm7DI

namespace DcArmBus

variable {ρ : Type*} [AicaRegs ρ] {b : DcArmBus ρ} {c : BusCycle}

/-- The end of a bus cycle that finds its slot free. -/
lemma cycle_ends (hb : b.SlotsOk) (hw : b.cfg.waits = .dreamcast)
    (hfree : c.type.isMem = true → b.Admissible c.addr (Grid.up 4 c.t)) :
    c.t + 1 + (b.cycle c).1.wait = c.signals.stage.ends 4 c.t := by
  have hinternal (h : c.type.isMem = false ∨ isLocal c.addr = true) :
      c.t + 1 + (b.cycle c).1.wait = c.t + 1 := by rw [cycle_wait_zero hb hw h]
  cases hm : c.type.isMem with
  | false =>
    rw [hinternal (.inl hm), Arm7DI.stage_internal (c := c.signals) hm]
    rfl
  | true =>
    cases hl : isLocal c.addr with
    | true =>
      rw [hinternal (.inr hl), Arm7DI.stage_local (c := c.signals) hl]
      rfl
    | false =>
      have hup := Grid.le_up (d := 4) (by decide) c.t
      rw [cycle_wait hb hw hm hl, search_of_free (busyAt_eq_false.mpr (hfree hm)),
        Arm7DI.stage_slot (c := c.signals) hm hl, Grid.Stage.ends, slotLength]
      change _ = Grid.up 4 c.t + if c.flags.write && c.flags.lock then 4 else 8
      split_ifs <;> omega

end DcArmBus

namespace System

variable {ρ : Type*} {s : System ρ}

/-- A boundary of the console's system at a step boundary, outside reset. -/
structure OnGrid (s : System ρ) : Prop where
  boundary : s.core.atBoundary
  fetches : s.core.nextType.isMem = true
  inReset : s.core.inReset = false
  resetExit : s.core.resetExit = false
  slots : s.bus.SlotsOk
  waits : s.bus.cfg.waits = .dreamcast
  time : 4 ∣ s.core.cycles

/-- The bus cycle of an instruction `op` meets no occupied slot and stays away from TEMP and EFREG.
Only LDR and STR access L and M. -/
structure Unhindered (s : System ρ) (op : Word) : Prop where
  slot : s.drive.type.isMem = true → DcArmBus.inRam s.drive.addr = true →
    s.boundary.bus.Admissible s.drive.addr (Grid.up 4 s.core.cycles)
  ports : s.drive.type.isMem = true →
    DcArmBus.isTemp s.drive.addr = false ∧ DcArmBus.isEfreg s.drive.addr = false
  data : s.drive.type.isMem = true → s.drive.flags.opc = false →
    DcArmBus.isLocal s.drive.addr = true → Arm7DI.seqOf op = .sdt

/-- The bus cycle is no fetch from L or M. -/
def FetchesApart (s : System ρ) : Prop := s.drive.type.isMem = true → s.drive.flags.opc = true →
  DcArmBus.isLocal s.drive.addr = false

variable [AicaRegs ρ]

/-- In a run with the harness's moves the next boundary comes after `n` bus cycles. -/
structure Spans (s : System ρ) (ops : ℕ → List Move) (n : ℕ) : Prop where
  pos : 0 < n
  busy : ∀ j, 0 < j → j < n → ¬(jobs.after s ops j).core.atBoundary
  boundary : (jobs.after s ops n).core.atBoundary

/-- The boundaries of a job's run that are on a step boundary and outside reset. -/
lemma Reached.onGrid {cfg : DcConfig} (h : s.Reached cfg) (hw : cfg.waits = .dreamcast)
    (hb : s.core.atBoundary) (hr : s.core.inReset = false) (he : s.core.resetExit = false)
    (ht : 4 ∣ s.core.cycles) : s.OnGrid := by
  obtain ⟨-, stages, hs⟩ := h.sound
  obtain ⟨g, hg⟩ := hs.control
  have hphase := hg.phase
  rw [Arm7DI.Phase, show s.core.seq = .idle from hb] at hphase
  exact ⟨hb, (Arm7DI.Announced.ne_I hphase.1).1, hr, he, hs.slots, hs.cfg ▸ hw, ht⟩

section Run

variable {ops : ℕ → List Move} {k : ℕ}

lemma bus_after (hb : s.bus.SlotsOk) (ops : ℕ → List Move) (k : ℕ) :
    (jobs.after s ops k).bus.SlotsOk ∧ (jobs.after s ops k).bus.cfg = s.bus.cfg :=
  Machine.invariant (I := fun u : System ρ => u.bus.SlotsOk ∧ u.bus.cfg = s.bus.cfg) ⟨hb, rfl⟩
    (fun k h => ⟨(next_bus h.1 (ops k)).1, (next_bus h.1 (ops k)).2.trans h.2⟩) k

/-- A bus cycle that finds its slot free is a stage on the grid. -/
lemma cycles_stage (hb : s.bus.SlotsOk) (hw : s.bus.cfg.waits = .dreamcast) {op : Word}
    (hs : s.Unhindered op) (ms : List Move) :
    (jobs.next s ms).core.cycles = s.drive.signals.stage.ends 4 s.core.cycles := by
  obtain ⟨hb', hc'⟩ := boundary_bus hb
  have hends := DcArmBus.cycle_ends hb' (hc' ▸ hw) (c := s.drive) fun hm => by
    rw [drive_t]
    cases hr : DcArmBus.inRam s.drive.addr with
    | true => exact hs.slot hm hr
    | false =>
      rw [DcArmBus.Admissible, hr, if_neg Bool.false_ne_true]
      exact DcArmBus.portBusy_of_not (hs.ports hm).1 (hs.ports hm).2
  rw [cycles_next, ← drive_t s]
  exact hends

/-- The time in a run of cycles that find their slots free. -/
lemma cycles_finish (hb : s.bus.SlotsOk) (hw : s.bus.cfg.waits = .dreamcast) {op : Word}
    {row : List Signals} (hrow : ∀ k (hk : k < row.length),
      (jobs.after s ops k).drive.signals.shape = row[k])
    (hs : ∀ k < row.length, (jobs.after s ops k).Unhindered op) :
    (jobs.after s ops row.length).core.cycles =
      Grid.finish 4 (row.map Signals.stage) s.core.cycles := by
  have hk : ∀ k ≤ row.length, (jobs.after s ops k).core.cycles =
      Grid.finish 4 ((row.take k).map Signals.stage) s.core.cycles := by
    intro k
    induction k with
    | zero => exact fun _ => rfl
    | succ k ih =>
      intro hk
      obtain ⟨hb', hc'⟩ := bus_after hb ops k
      rw [Machine.after_succ, cycles_stage hb' (hc' ▸ hw) (hs k hk), ih (Nat.le_of_succ_le hk),
        List.take_succ_eq_append_getElem hk, List.map_append, Grid.finish_append, ← hrow k hk]
      rfl
  have h := hk _ (Nat.le_refl _)
  rwa [List.take_length] at h

end Run

/-- The cost of every instruction, and of the entries of interrupts and aborts, from a step boundary
up to the start of the next fetch on the grid, where the bus cycles meet no occupied slot and no
fetch goes to L or M. -/
theorem instruction_cost (hs : s.OnGrid) (ops : ℕ → List Move) : ∃ n, s.Spans ops n ∧
    ((∀ k < n, (jobs.after s ops k).Unhindered s.core.ex.word) →
      (∀ k < n, (jobs.after s ops k).FetchesApart) →
        Grid.up 4 (jobs.after s ops n).core.cycles = s.core.cycles + s.boundary.core.startCost) := by
  obtain ⟨inp, hinp⟩ := s.exists_inputs ops
  have h0 : s.boundary.core = s.core.poke (inp 0).lines := (hinp 0).1
  have hlines : s.boundary.core.inReset = false ∧ s.boundary.core.resetExit = false := by
    unfold System.boundary
    split_ifs <;> exact ⟨hs.inReset, hs.resetExit⟩
  rw [h0] at hlines ⊢
  obtain ⟨row, hnext, hrow, hspan⟩ := Arm7DI.exists_row hlines.1 hlines.2 hs.boundary hs.fetches
    fun k => by rw [(hinp k).2]; exact DcArmBus.cycle_abort _ _
  have hdrive (k : ℕ) : (jobs.after s ops k).drive = Arm7DI.core.outs s.core inp k := by
    rw [Machine.outs, Arm7DI.core_out, ← (hinp k).1]
    rfl
  have hseq (k : ℕ) : (jobs.after s ops k).core.seq = (Arm7DI.core.after s.core inp k).seq := by
    rw [← boundary_seq, (hinp k).1, Arm7DI.poke_seq]
  refine ⟨row.length, ⟨hnext.pos, fun j h0 hj hb => hnext.busy j h0 hj ?_, ?_⟩, fun hun hf => ?_⟩
  · exact (hseq j).symm.trans hb
  · exact (hseq _).trans hnext.boundary
  · have hapart : Arm7DI.Apart s.core.ex.word row := by
      intro c hc hm hl
      obtain ⟨k, hk, rfl⟩ := List.mem_iff_getElem.mp hc
      rw [← hrow k hk, ← hdrive] at hm hl ⊢
      have ho : (jobs.after s ops k).drive.flags.opc = false :=
        Bool.eq_false_iff.mpr fun ho => Bool.false_ne_true ((hf k hk hm ho).symm.trans hl)
      exact ⟨ho, (hun k hk).data hm ho hl⟩
    rw [cycles_finish hs.slots hs.waits (fun k hk => by rw [hdrive]; exact hrow k hk) hun,
      Grid.up_finish (by decide) hs.time, hspan hapart]

/-! ### Two jobs -/

/-- A job on the console, with nothing but its first words in the wave RAM. -/
def started (words : List Setup) : System Empty :=
  job { waits := .dreamcast } 512 0 0 0 .shifterLast words

/-- A cycle of the wave RAM in a job without the SH4. -/
lemma unhindered_ram {u : System Empty} {op : Word} (hr : DcArmBus.inRam u.drive.addr = true)
    (hq : u.boundary.bus.sh4Slots = [] ∧ u.boundary.bus.cfg.sh4Period = 0)
    (ht : u.boundary.bus.takenAt (Grid.up 4 u.core.cycles) = false) :
    u.Unhindered op ∧ u.FetchesApart := by
  have hl : DcArmBus.isLocal u.drive.addr = false := by simp [DcArmBus.isLocal, hr]
  have hport : DcArmBus.isTemp u.drive.addr = false ∧ DcArmBus.isEfreg u.drive.addr = false := by
    simp [DcArmBus.isTemp, DcArmBus.isEfreg, hr]
  refine ⟨⟨fun _ _ => ?_, fun _ => hport, fun _ _ h => ?_⟩, fun _ _ => hl⟩
  · rw [DcArmBus.Admissible, if_pos hr, DcArmBus.Sh4Holds, hq.1, hq.2]
    exact ⟨ht, fun h => h.elim (fun h => absurd h List.not_mem_nil) fun h => absurd h.1 (lt_irrefl 0)⟩
  · rw [hl] at h
    cases h

/-- `LDR r0, [r0]` after reset. -/
theorem instruction_cost_ldr :
    Grid.up 4 (jobs.after (started [.word 0 0xE5900000]) (fun _ => []) 3).core.cycles = 44 := by
  set s := started [.word 0 0xE5900000] with hsdef
  have hs : s.OnGrid := Reached.onGrid ⟨512, 0, 0, 0, .shifterLast, _, fun _ => [], 0, rfl⟩ rfl
    (by decide +kernel) (by decide +kernel) (by decide +kernel) (by decide +kernel)
  obtain ⟨n, hn, hcost⟩ := instruction_cost hs fun _ => []
  have hn3 : n = 3 := by
    have h1 : ¬(jobs.after s (fun _ => []) 1).core.atBoundary := by decide +kernel
    have h2 : ¬(jobs.after s (fun _ => []) 2).core.atBoundary := by decide +kernel
    have h3 : (jobs.after s (fun _ => []) 3).core.atBoundary := by decide +kernel
    have hpos := hn.pos
    have hle : n ≤ 3 := Nat.not_lt.mp fun h => hn.busy 3 (by decide) h h3
    have hb := hn.boundary
    interval_cases n
    · exact absurd hb h1
    · exact absurd hb h2
    · rfl
  subst hn3
  have hun : ∀ k < 3, (jobs.after s (fun _ => []) k).Unhindered s.core.ex.word ∧
      (jobs.after s (fun _ => []) k).FetchesApart := by
    intro k hk
    interval_cases k
    · exact unhindered_ram (by decide +kernel) (by decide +kernel) (by decide +kernel)
    · exact unhindered_ram (by decide +kernel) (by decide +kernel) (by decide +kernel)
    · exact unhindered_ram (by decide +kernel) (by decide +kernel) (by decide +kernel)
  rw [hcost (fun k hk => (hun k hk).1) fun k hk => (hun k hk).2]
  decide +kernel

/-- A job that branches to the words before the ARM's interrupt controller. -/
def atController : System Empty :=
  jobs.after (started [.word 0 0xE51FF004, .word 4 0x802CF8]) (fun _ => []) 5

/-- The instruction before the controller fetches L, and takes four MCLK for the eight of an
instruction whose condition fails. -/
theorem controller_fetch : ¬∀ (s : System Empty) (n : ℕ), s.Reached { waits := .dreamcast } →
    s.OnGrid → s.Spans (fun _ => []) n →
      (∀ k < n, (jobs.after s (fun _ => []) k).Unhindered s.core.ex.word) →
        Grid.up 4 (jobs.after s (fun _ => []) n).core.cycles =
          s.core.cycles + s.boundary.core.startCost := by
  intro h
  have hreached : atController.Reached { waits := .dreamcast } :=
    ⟨512, 0, 0, 0, .shifterLast, _, fun _ => [], 5, rfl⟩
  have hs : atController.OnGrid := hreached.onGrid rfl (by decide +kernel)
    (by decide +kernel) (by decide +kernel) (by decide +kernel)
  have hn : atController.Spans (fun _ => []) 1 :=
    ⟨Nat.one_pos, fun j h0 h1 => absurd h0 (by omega), by decide +kernel⟩
  -- a fetch from a register other than TEMP and EFREG
  have hram : DcArmBus.inRam atController.drive.addr = false := by decide +kernel
  have hport : DcArmBus.isTemp atController.drive.addr = false ∧
    DcArmBus.isEfreg atController.drive.addr = false := by decide +kernel
  have hopc : atController.drive.flags.opc = true := by decide +kernel
  have hun : ∀ k < 1, (jobs.after atController (fun _ => []) k).Unhindered
      atController.core.ex.word := by
    intro k hk
    rw [Nat.lt_one_iff.mp hk, Machine.after_zero]
    refine ⟨fun _ hr => ?_, fun _ => hport, fun _ ho => ?_⟩
    · rw [hram] at hr
      cases hr
    · rw [hopc] at ho
      cases ho
  exact absurd (h atController 1 hreached hs hn hun) (by decide +kernel)

end System

end Wren7
