import Mathlib.Algebra.Order.Ring.Int
import Mathlib.Logic.Function.Basic
import Tove.Base.Total

/-!
# Ledgers

A ledger holds an integer balance for each account.  Moving an amount debits one account and
credits another; when both are the same account nothing changes.
-/

namespace Ledgers

open Totals

universe u

variable {α : Type u} [DecidableEq α]

/-- The balances of the accounts. -/
abbrev Ledger (α : Type u) : Type u := α → ℤ

/-- Move an amount from one account to another. -/
def Ledger.move (b : Ledger α) (source target : α) (amount : ℤ) : Ledger α :=
  let debited := Function.update b source (b source - amount)
  Function.update debited target (debited target + amount)

namespace Ledger

variable (b : Ledger α) {source target : α} (amount : ℤ)

/-- The payer of an amount is debited. -/
theorem move_source (h : target ≠ source) :
  b.move source target amount source = b source - amount
  := by simp [move, Function.update_of_ne h.symm]

/-- The payee of an amount is credited. -/
theorem move_target (h : target ≠ source) :
  b.move source target amount target = b target + amount
  := by simp [move, Function.update_of_ne h]

/-- Moving an amount within an account changes nothing. -/
theorem move_self (source : α) :
  b.move source source amount = b
  := by simp [move]

/-- The balance of the payer goes down by the amount at most. -/
theorem le_move_source (target : α) (h : 0 ≤ amount) :
  b source - amount ≤ b.move source target amount source
  := by
  by_cases ht : target = source
  · rw [ht, move_self]
    omega
  · rw [move_source b amount ht]

/-- The balance of anyone but the payer does not go down. -/
theorem le_move_of_ne {account : α} (h : account ≠ source) (target : α) (hamount : 0 ≤ amount) :
  b account ≤ b.move source target amount account
  := by
  by_cases ht : account = target
  · rw [ht, move_target b amount (ht ▸ h), ← ht]
    omega
  · simp [move, Function.update_of_ne ht, Function.update_of_ne h]

end Ledger

end Ledgers
