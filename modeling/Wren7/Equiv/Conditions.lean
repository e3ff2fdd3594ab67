import Wren7.Equiv.LockStep
import Wren7.Model.Conditions

/-!
# Conditions in the model and the RTL

What the flags mean after comparisons and carry chains, for every run of the model. The RTL, in lock
step, decides every condition alike.
-/

namespace Wren7

open Bits Rtl Reactive Arm7DI

/-- The condition decoder of the RTL is the model's. -/
lemma cond_eq {c : Core} {s : Arm7DI} (h : AgreeState c s) (w : Word) :
    Rtl.cond { c.regs with exW := w } = s.condPass w := by
  unfold Arm7DI.condPass Rtl.cond
  simp only [← h.cpsr, cpsr32, bit_psr32_n, bit_psr32_z, bit_psr32_c, bit_psr32_v] <;> rfl

/-- After CMP each condition compares the operands. Adding or subtracting word by word, the first
with ADDS, SUBS or RSBS and the others with the carry, adds or subtracts the numbers, with their
carry and overflow, and after a subtraction HS, LO, GE and LT compare them. -/
theorem flags_mean :
    (∀ (s : Arm7DI) (inp : ℕ → Input) (op : Word), s.IssuesDp inp op → field op 21 4 = 0xA →
      field op 12 4 ≠ 15 →
      (core.after s inp (dpCycles op)).atBoundary ∧
      ∀ w, (core.after s inp (dpCycles op)).condPass w = true ↔
        Compares (field w 28 4) (s.operands op).1 (s.operands op).2.1) ∧
    (∀ (s : Arm7DI) (inp : ℕ → Input) (ops : ℕ → Word) (time : ℕ → ℕ) (n : ℕ),
      let A := number (wordA s inp ops time) (n + 1)
      let B := number (wordB s inp ops time) (n + 1)
      let R := number (wordR s inp ops time) (n + 1)
      let t := s.behind inp ops time n
      (s.Chain inp 0x4 0x5 ops time (n + 1) → R = A + B ∧
        (bit t.cpsr 29 = true ↔ 2 ^ (32 * (n + 1)) ≤ A.toNat + B.toNat) ∧
        (bit t.cpsr 28 = true ↔ Overflows (32 * (n + 1)) (A.toInt + B.toInt))) ∧
      (s.Chain inp 0x2 0x6 ops time (n + 1) → Subtracts t R A B) ∧
      (s.Chain inp 0x3 0x7 ops time (n + 1) → Subtracts t R B A)) ∧
    (∀ (c : Core) (pins : ℕ → Pins) (g : Fin 31 → Word) (lv : ℕ → Levels) (ans : ℕ → Answer),
      AfterRst c → (∀ p, c.uRf.memA (slot p) = g p) → (∀ p, c.uRf.memB (slot p) = g p) →
      Presents c pins lv ans → ∀ n, (rtl.after c pins n).dbgBoundary = true → ∀ w,
        Rtl.cond { (rtl.after c pins n).regs with exW := w } =
          (lined.after (powered g) (fun k => (lv k, ans k)) (cycleAt c pins n)).condPass w) := by
  refine ⟨fun s inp op h hopc hrd => ?_, fun s inp ops time n => ?_, ?_⟩
  · exact ⟨(h.ends hrd (sets_of_cmp h.seq hopc)).1, h.compares hopc hrd⟩
  · exact ⟨Chain.adds, Chain.subs, Chain.rsbs⟩
  · intro c pins g lv ans hc hA hB hp n hb w
    have hagree := (related_after hp (Related.start hc hA hB _) n).agree (ans (cycleAt c pins n))
    exact cond_eq (hagree.state (hagree.boundary.mp hb)) w

/-- ADDS r0, r0, r1; ANDEQ; ADCS r2, r2, r3: two words that are zero. -/
theorem flags_mean_adds :
    let s := resting 0xE0900001
    let inp := calm 0xE0B22003
    let ops : ℕ → Word := fun k => if k = 0 then 0xE0900001 else 0xE0B22003
    bit (s.behind inp ops (2 * ·) 1).cpsr 29 = true ↔
      2 ^ (32 * (1 + 1)) ≤ (number (wordA s inp ops (2 * ·)) (1 + 1)).toNat +
        (number (wordB s inp ops (2 * ·)) (1 + 1)).toNat := by
  intro s inp ops
  have hk : ∀ k < 2, k = 0 ∨ k = 1 := by omega
  have hquiet : ((s.before inp (2 * ·) 1).poke (inp 2).lines).Quiet :=
    ⟨by decide +kernel, by decide +kernel, by decide +kernel, by decide +kernel,
      by decide +kernel, by decide +kernel, by decide +kernel⟩
  have hchain : s.Chain inp 0x4 0x5 ops (2 * ·) 2 := by
    refine ⟨fun k hk' => ?_, fun k hk' => ?_, fun k hk' => ?_, fun k hk' => ?_, fun k hk' => ?_⟩
    · rcases hk k hk' with rfl | rfl
      · exact ⟨resting_quiet _, rfl, by decide +kernel, by decide +kernel⟩
      · exact ⟨hquiet, by decide +kernel, by decide +kernel, by decide +kernel⟩
    · rcases hk k hk' with rfl | rfl <;> decide +kernel
    · rcases hk k hk' with rfl | rfl <;> decide +kernel
    · rcases hk k hk' with rfl | rfl <;> decide +kernel
    · obtain rfl : k = 0 := by omega
      decide +kernel
  exact ((flags_mean.2.1 s inp ops (2 * ·) 1).1 hchain).2.1

end Wren7
