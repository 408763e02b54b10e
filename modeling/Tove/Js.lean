import Tove.Base.Checks
import Mathlib.Algebra.Order.Ring.Int
import Mathlib.Data.List.Lex
import Mathlib.Data.List.Sort

/-!
# The JavaScript of the services

What the models of the TypeScript services use of the language: strings, compared by code units,
`Array.prototype.sort` with a comparator, and the `RangeError` that a failed check throws.
A `BigInt` is an integer, and its division is the truncated `Int.tdiv`.
-/

namespace Js

/-- A string, as the list of its UTF-16 code units. -/
abbrev JsString : Type := List ℕ

/-- A `RangeError` with its message. -/
structure RangeError where
  message : String
  deriving DecidableEq, Repr

/-- Throw a `RangeError` when `c` holds. -/
abbrev throwIf (c : Prop) [Decidable c] (message : String) : Except RangeError Unit :=
  Checks.rejectIf c ⟨message⟩

/-- `Array.prototype.sort` with a comparator: a stable sort that puts `a` before `b`
when `compare a b` is negative. -/
def sort {α : Type*} (compare : α → α → ℤ) (ℓ : List α) : List α :=
  ℓ.insertionSort fun a b => compare a b ≤ 0

theorem sort_perm {α : Type*} (compare : α → α → ℤ) (ℓ : List α) :
  (sort compare ℓ).Perm ℓ
  := List.perm_insertionSort _ ℓ

/-- When the comparator decides the order of a key, sorting sorts by the key. -/
theorem sort_pairwise {α κ : Type*} [LinearOrder κ] {compare : α → α → ℤ} {key : α → κ}
    (h : ∀ a b, compare a b ≤ 0 ↔ key a ≤ key b) (ℓ : List α) :
  (sort compare ℓ).Pairwise (key · ≤ key ·)
  := by
  have hsort : sort compare ℓ = ℓ.insertionSort fun a b => key a ≤ key b := by
    simp only [sort, h]
  rw [hsort]
  apply List.pairwise_insertionSort fun a b => key a ≤ key b

end Js
