import Mathlib.Algebra.BigOperators.Finprod
import Mathlib.Algebra.Order.Ring.Int

/-!
# Tables

A table of a database is a map from keys to rows that has finitely many rows.  A query sums up a
column over the rows that meet a condition.
-/

namespace Tables

universe u v w

variable {κ : Type u} {ρ : Type v}

/-- The table has finitely many rows. -/
def FiniteRows (t : κ → Option ρ) : Prop := {k | t k ≠ none}.Finite

open Classical in
/-- A column, summed up over the rows of a table that meet a condition. -/
noncomputable def sum (t : κ → Option ρ) (column : ρ → ℤ) (p : κ → ρ → Prop) : ℤ :=
  ∑ᶠ k, (t k).elim 0 fun row => if p k row then column row else 0

section FiniteRows

variable {t : κ → Option ρ}

/-- A table with no more keys than a finite table is finite. -/
theorem FiniteRows.of_keys {γ : Type w} {t' : κ → Option γ} (h : FiniteRows t)
    (hkeys : ∀ k, t k = none → t' k = none) :
  FiniteRows t'
  := h.subset fun k hk hnone => hk (hkeys k hnone)

/-- A table with one more row is finite. -/
theorem FiniteRows.update [DecidableEq κ] (h : FiniteRows t) (k₀ : κ) (row : Option ρ) :
  FiniteRows (Function.update t k₀ row)
  := by
  apply (h.insert k₀).subset
  intro k hk
  rcases eq_or_ne k k₀ with rfl | hne
  · apply Set.mem_insert
  · apply Set.mem_insert_of_mem
    rwa [Set.mem_ofPred_eq, Function.update_of_ne hne] at hk

end FiniteRows

section Sums

variable {t t' : κ → Option ρ} {column : ρ → ℤ} {p q : κ → ρ → Prop}

open Classical in
private theorem hasFiniteSupport (h : FiniteRows t) :
  Function.HasFiniteSupport fun k => (t k).elim 0 fun row => if p k row then column row else 0
  := by
  apply h.subset
  intro k hk hnone
  apply hk
  simp [hnone]

/-- A sum depends only on the rows that meet the condition. -/
theorem sum_congr (h : ∀ k row, t k = some row → (p k row ↔ q k row)) :
  sum t column p = sum t column q
  := by
  apply finsum_congr
  intro k
  cases hrow : t k with
  | none => rfl
  | some row =>
    rw [Option.elim_some, Option.elim_some]
    have := h k row hrow
    grind

/-- A sum over no rows. -/
theorem sum_eq_zero (h : ∀ k row, t k = some row → ¬ p k row) :
  sum t column p = 0
  := by
  apply finsum_eq_zero_of_forall_eq_zero
  intro k
  cases hrow : t k with
  | none => rfl
  | some row => rw [Option.elim_some, if_neg (h k row hrow)]

open Classical in
/-- A sum is at most another one that counts a row with no smaller a column at each of its keys,
and whose column is not negative. -/
theorem sum_le_sum {γ : Type w} {t' : κ → Option γ} {column' : γ → ℤ} {q : κ → γ → Prop}
    (hfinite : FiniteRows t) (hfinite' : FiniteRows t')
    (hcolumn : ∀ k row, t' k = some row → 0 ≤ column' row)
    (h : ∀ k row, t k = some row → p k row →
      ∃ row', t' k = some row' ∧ column row ≤ column' row' ∧ q k row') :
  sum t column p ≤ sum t' column' q
  := by
  apply finsum_le_finsum' (hasFiniteSupport hfinite) (hasFiniteSupport hfinite')
  intro k
  have hnonneg : 0 ≤ (t' k).elim 0 fun row => if q k row then column' row else 0 := by
    cases hrow : t' k with
    | none => rfl
    | some row =>
      rw [Option.elim_some]
      split
      · apply hcolumn k row hrow
      · rfl
  beta_reduce
  cases hrow : t k with
  | none => apply hnonneg
  | some row =>
    rw [Option.elim_some]
    split
    · next hp =>
      obtain ⟨row', hrow', hle, hq⟩ := h k row hrow hp
      rw [hrow', Option.elim_some, if_pos hq]
      apply hle
    · apply hnonneg

/-- The rows that meet one of two conditions that exclude each other. -/
theorem sum_or (hfinite : FiniteRows t)
    (hdisjoint : ∀ k row, t k = some row → p k row → ¬ q k row) :
  sum t column (fun k row => p k row ∨ q k row) = sum t column p + sum t column q
  := by
  rw [sum, sum, sum, ← finsum_add_distrib (hasFiniteSupport hfinite) (hasFiniteSupport hfinite)]
  apply finsum_congr
  intro k
  cases hrow : t k with
  | none => rfl
  | some row =>
    have := hdisjoint k row hrow
    simp only [Option.elim_some]
    grind

/-- A sum does not count a new row that does not meet the condition. -/
theorem sum_update [DecidableEq κ] {k₀ : κ} {row₀ : ρ} (hfresh : t k₀ = none) (hp : ¬ p k₀ row₀) :
  sum (Function.update t k₀ (some row₀)) column p = sum t column p
  := by
  apply finsum_congr
  intro k
  rcases eq_or_ne k k₀ with rfl | hne
  · rw [Function.update_self, hfresh, Option.elim_some, if_neg hp, Option.elim_none]
  · rw [Function.update_of_ne hne]

/-- The row at one key. -/
theorem sum_single (column : ρ → ℤ) {k₀ : κ} {row : ρ} (hrow : t k₀ = some row) (hp : ∀ k row, p k row → k = k₀)
    (hp₀ : p k₀ row) :
  sum t column p = column row
  := by
  rw [sum, finsum_eq_single _ k₀, hrow, Option.elim_some, if_pos hp₀]
  intro k hk
  cases hrow : t k with
  | none => rfl
  | some row => rw [Option.elim_some, if_neg fun h => hk (hp k row h)]

end Sums

end Tables
