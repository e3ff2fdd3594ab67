import Wren7.Model.Control
import Wren7.Model.Status

/-!
# The pipeline

At every boundary outside reset the execute and the decode slot hold what the bus returned last for
the two words before `pc`, so the instruction at an address is the word last fetched from it.
-/

namespace Wren7

open Bits Reactive

namespace Arm7DI

variable (stages : ℕ) (carry : MulCarry) (inp : ℕ → Input)

/-- `w` is what the bus returned for the last opcode fetch from `addr` in the first `n` cycles. -/
def LastFetch (s : Arm7DI) (inp : ℕ → Input) (n : ℕ) (addr : Word) (w : Slot) : Prop :=
  ∃ m < n, (core.outs s inp m).isFetch = true ∧ (core.outs s inp m).addr = addr ∧
    w = ⟨(inp m).ans.rdata, (inp m).ans.abort⟩ ∧
    ∀ j, m < j → j < n → ¬((core.outs s inp j).isFetch = true ∧ (core.outs s inp j).addr = addr)

/-- The history keeps the last fetch from each address. -/
lemma lastFetch_of_fetched {s : Arm7DI} {n : ℕ} {addr : Word} {w : Slot}
    (h : (histories s inp n).fetched addr = some w) : LastFetch s inp n addr w := by
  induction n with
  | zero => cases h
  | succ n ih =>
    have hrec : histories s inp (n + 1) =
        (histories s inp n).record (core.outs s inp n) (inp n).ans := rfl
    rw [hrec] at h
    by_cases hf : (core.outs s inp n).isFetch = true ∧ (core.outs s inp n).addr = addr
    · obtain ⟨hf, rfl⟩ := hf
      rw [record_fetched hf, Function.update_self] at h
      exact ⟨n, Nat.lt_succ_self n, hf, rfl, (Option.some.inj h).symm, fun j hj hjn => by omega⟩
    · have h' : (histories s inp n).fetched addr = some w := by
        by_cases hb : (core.outs s inp n).isFetch = true
        · rwa [record_fetched hb, Function.update_of_ne fun ha => hf ⟨hb, ha.symm⟩] at h
        · rwa [record_fetched_of_not (Bool.eq_false_iff.mpr hb)] at h
      obtain ⟨m, hm, hfm, ha, hw, hlast⟩ := ih h'
      refine ⟨m, by omega, hfm, ha, hw, fun j hj hjn => ?_⟩
      rcases Nat.lt_succ_iff_lt_or_eq.mp hjn with hlt | rfl
      · exact hlast j hj hlt
      · exact hf

/-- An exception of higher priority than a prefetch abort is taken. -/
def preempted (s : Arm7DI) : Bool := s.dabortPending || s.takesFiq || s.takesIrq

/-- The entry of a prefetch abort has begun. -/
def prefetchAborts (s : Arm7DI) : Prop := s.seq = .exc ∧ s.x.vector = 0x0C

lemma lastFetch_unique {s : Arm7DI} {n : ℕ} {addr : Word} {v w : Slot}
    (hv : LastFetch s inp n addr v) (hw : LastFetch s inp n addr w) : v = w := by
  obtain ⟨i, hi, hfi, hai, rfl, hlasti⟩ := hv
  obtain ⟨j, hj, hfj, haj, rfl, hlastj⟩ := hw
  rcases Nat.lt_trichotomy i j with hlt | rfl | hgt
  · exact absurd ⟨hfj, haj⟩ (hlasti j hlt hj)
  · rfl
  · exact absurd ⟨hfi, hai⟩ (hlastj i hgt hi)

section Begin

variable {s : Arm7DI}

lemma not_prefetchAborts_decode (op : Word) : ¬(s.decode op).prefetchAborts := by
  rw [decode_eq]
  dsimp only
  rintro ⟨hseq, hv⟩
  split_ifs at hseq hv with h1 h2
  · exact absurd (show (8 : Word) = 12 from hv) (by decide)
  · exact h2 hseq
  · exact Seq.noConfusion hseq

variable (hq : s.seq = .idle) (hr : s.inReset = false) (he : s.resetExit = false)

include hq hr he

lemma start_of_not_preempted (hp : s.preempted = false) : s.start =
    if s.ex.abort then (s.setK 0).startExc 0x0C mAbt false else (s.setK 0).decode s.ex.word := by
  simp only [preempted, Bool.or_eq_false_iff] at hp
  exact start_slot hq hr he hp.1.1 hp.1.2 hp.2

lemma not_prefetchAborts_of_preempted (hp : s.preempted = true) : ¬s.start.prefetchAborts := by
  have hother : ∀ (u : Arm7DI) v m f, v ≠ 0x0C → ¬(u.startExc v m f).prefetchAborts :=
    fun u v m f hv h => hv h.2
  cases hd : s.dabortPending with
  | true =>
    rw [start_dabort hq hr he hd]
    exact hother _ _ _ _ (by decide)
  | false =>
    cases hf : s.takesFiq with
    | true =>
      rw [start_fiq hq hr he hd hf]
      exact hother _ _ _ _ (by decide)
    | false =>
      have hi : s.takesIrq = true := by simpa [preempted, hd, hf] using hp
      rw [start_irq hq hr he hd hf hi]
      exact hother _ _ _ _ (by decide)

lemma prefetchAborts_iff : s.start.prefetchAborts ↔ s.preempted = false ∧ s.ex.abort = true := by
  cases hp : s.preempted with
  | true => simpa using not_prefetchAborts_of_preempted hq hr he hp
  | false =>
    rw [start_of_not_preempted hq hr he hp]
    by_cases ha : s.ex.abort = true
    · rw [if_pos ha]
      exact iff_of_true ⟨rfl, rfl⟩ ⟨rfl, ha⟩
    · rw [if_neg ha]
      exact iff_of_false (not_prefetchAborts_decode _) fun h => ha h.2

end Begin

/-- In every run from power-on: `pc` is a multiple of 4 and the PSRs have implemented bits only; at
a boundary outside reset the execute and the decode slot are what the bus returned for the last
fetches from `pc - 8` and `pc - 4`. So the instruction that executes is the word last fetched from
its address, and a prefetch abort is taken exactly when an aborted word is there and nothing of
higher priority replaces it. -/
theorem pipeline :
    let s : ℕ → Arm7DI := core.after (powerOn stages carry) inp
    let last := LastFetch (powerOn stages carry) inp
    (∀ n, Aligned (s n).pc ∧ (s n).PsrOk) ∧
    (∀ n, (s n).seq = .idle → (s n).inReset = false → (s n).resetExit = false →
      last n ((s n).pc - 8) (s n).ex ∧ last n ((s n).pc - 4) (s n).de) ∧
    (∀ n, (s n).seq = .idle → let p := (s n).poke (inp n).lines
      p.inReset = false → p.resetExit = false →
      (p.start.prefetchAborts ↔ p.preempted = false ∧ ∃ w, last n (p.pc - 8) ⟨w, true⟩) ∧
      (p.preempted = false → ∀ w, last n (p.pc - 8) ⟨w, false⟩ →
        p.start = (p.setK 0).decode w)) := by
  intro s last
  have hslots : ∀ n, (s n).seq = .idle → (s n).inReset = false → (s n).resetExit = false →
      last n ((s n).pc - 8) (s n).ex ∧ last n ((s n).pc - 4) (s n).de := by
    intro n hq hr he
    have hp := (control_after stages carry inp n).phase
    rw [Phase, show (core.after (powerOn stages carry) inp n).seq = .idle from hq] at hp
    obtain ⟨hex, hde⟩ := hp.2.2 hr he
    exact ⟨lastFetch_of_fetched inp hex, lastFetch_of_fetched inp hde⟩
  refine ⟨fun n => ⟨(control_after stages carry inp n).aligned, psrOk_after stages carry inp n⟩,
    hslots, ?_⟩
  intro n hq p hr he
  have hpq : p.seq = .idle := (poke_seq _ _).trans hq
  obtain ⟨hr', he'⟩ := poke_reset (s n) (inp n).lines hr he
  have hex : last n (p.pc - 8) p.ex := by
    simpa only [p, poke_pc, poke_ex] using (hslots n hq hr' he').1
  refine ⟨?_, fun hp w hw => ?_⟩
  · rw [prefetchAborts_iff hpq hr he]
    refine and_congr_right fun _ => ⟨fun ha => ⟨p.ex.word, ?_⟩, fun h => ?_⟩
    · rw [← ha]
      exact hex
    · obtain ⟨w, hw⟩ := h
      rw [lastFetch_unique inp hex hw]
  · have hslot := lastFetch_unique inp hex hw
    rw [start_of_not_preempted hpq hr he hp, hslot]
    rfl

end Arm7DI

end Wren7
