import Mathlib.Data.List.Forall2
import Mathlib.Data.List.Lex
import Mathlib.Order.Bounds.Basic
import Mathlib.Tactic.Common

/-!
# Backtracking

Each element of a list is given one of its options, and consecutive ones must go together. The search
tries the options in their order and returns the first list that works; where the options are sorted
that is the least one.
-/

namespace Backtrack

variable {α β : Type*} (opts : α → List β) (ok : β → β → Bool)

/-- A choice of options for a list of elements, after the choice `prev`. -/
def search : Option β → List α → Option (List β)
  | _, [] => some []
  | prev, a :: as => (opts a).findSome? fun c =>
    if prev.all fun p => ok p c then (search (some c) as).map (c :: ·) else none

/-- A list chooses one option for each element, and consecutive ones go together. -/
structure Fills (prev : Option β) (as : List α) (cs : List β) : Prop where
  options : List.Forall₂ (fun a c => c ∈ opts a) as cs
  chain : (prev.toList ++ cs).IsChain fun p c => ok p c = true

variable {opts ok} {prev : Option β} {a : α} {c : β} {as : List α} {cs : List β}

@[simp] lemma fills_nil : Fills opts ok prev [] cs ↔ cs = [] := by
  constructor
  · intro h
    exact List.forall₂_nil_left_iff.mp h.options
  · rintro rfl
    exact ⟨.nil, by cases prev <;> simp⟩

lemma fills_cons : Fills opts ok prev (a :: as) (c :: cs) ↔
    c ∈ opts a ∧ (prev.all fun p => ok p c) = true ∧ Fills opts ok (some c) as cs := by
  constructor
  · intro h
    cases h.options with
    | cons hc hcs =>
      have hchain := h.chain
      cases prev with
      | none => exact ⟨hc, rfl, hcs, by simpa using hchain⟩
      | some p =>
        simp only [Option.toList_some, List.cons_append, List.nil_append,
          List.isChain_cons_cons] at hchain
        exact ⟨hc, hchain.1, hcs, hchain.2⟩
  · rintro ⟨hc, hp, h⟩
    refine ⟨.cons hc h.options, ?_⟩
    have hchain := h.chain
    cases prev with
    | none => simpa using hchain
    | some p =>
      simp only [Option.toList_some, List.cons_append, List.nil_append,
        List.isChain_cons_cons] at hchain ⊢
      exact ⟨hp, hchain⟩

/-- What the search finds works. -/
lemma fills_of_search (h : search opts ok prev as = some cs) : Fills opts ok prev as cs := by
  induction as generalizing prev cs with
  | nil => simpa [search, eq_comm] using h
  | cons a as ih =>
    obtain ⟨c, hc, hf⟩ := List.exists_of_findSome?_eq_some h
    split_ifs at hf with hp
    obtain ⟨ds, hd, rfl⟩ := Option.map_eq_some_iff.mp hf
    exact fills_cons.mpr ⟨hc, hp, ih hd⟩

variable [LinearOrder β]

/-- Where a list works the search finds one, and none that works is less. -/
lemma exists_search_le (hs : ∀ a, (opts a).Pairwise (· < ·)) (h : Fills opts ok prev as cs) :
    ∃ ds, search opts ok prev as = some ds ∧ ds ≤ cs := by
  induction as generalizing prev cs with
  | nil => exact ⟨[], rfl, (fills_nil.mp h).ge⟩
  | cons a as ih =>
    cases cs with
    | nil => cases h.options
    | cons c cs =>
      obtain ⟨hc, hp, hrest⟩ := fills_cons.mp h
      obtain ⟨ds, hd, hle⟩ := ih hrest
      -- the search is not empty-handed at `c`, so it stops there or at an earlier option
      cases hf : search opts ok prev (a :: as) with
      | none =>
        have := List.findSome?_eq_none_iff.mp hf c hc
        simp [hp, hd] at this
      | some es =>
        refine ⟨es, rfl, ?_⟩
        obtain ⟨l₁, e, l₂, hl, he, hno⟩ := List.findSome?_eq_some_iff.mp hf
        split_ifs at he
        obtain ⟨es, hes, rfl⟩ := Option.map_eq_some_iff.mp he
        have hsort := hs a
        rw [hl, List.pairwise_append] at hsort
        rw [hl, List.mem_append, List.mem_cons] at hc
        rcases hc with hc | rfl | hc
        · have := hno c hc
          simp [hp, hd] at this
        · rw [hd, Option.some_inj] at hes
          exact List.cons_le_cons _ (hes ▸ hle)
        · have hlt : e :: es < c :: cs := .rel ((List.pairwise_cons.mp hsort.2.1).1 c hc)
          exact hlt.le

/-- The search returns the least list that works, or there is none. -/
theorem isLeast_search (hs : ∀ a, (opts a).Pairwise (· < ·)) (prev : Option β) (as : List α) :
    (∃ cs, search opts ok prev as = some cs ∧ IsLeast {ds | Fills opts ok prev as ds} cs) ∨
      search opts ok prev as = none ∧ ¬∃ ds, Fills opts ok prev as ds := by
  cases h : search opts ok prev as with
  | none =>
    refine .inr ⟨rfl, fun ⟨ds, hd⟩ => ?_⟩
    obtain ⟨cs, hc, -⟩ := exists_search_le hs hd
    simp [h] at hc
  | some cs =>
    refine .inl ⟨cs, rfl, fills_of_search h, fun ds hd => ?_⟩
    obtain ⟨es, he, hle⟩ := exists_search_le hs hd
    rw [h, Option.some_inj] at he
    exact he ▸ hle

end Backtrack
