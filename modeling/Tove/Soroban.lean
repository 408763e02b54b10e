import Tove.Base.Checks
import Tove.Base.Ledger

/-!
# The host of the contracts

What the models of the contracts use of the Soroban host: addresses, byte strings, checked
integer arithmetic, authorisation, and calls of other contracts.  A contract call either returns
an error of the contract or traps; in both cases the host reverts all its writes.
-/

namespace Soroban

open Ledgers

/-- A string of 32 bytes. -/
abbrev BytesN32 : Type := BitVec 256

/-- The address of an account, by its public key, or of a contract, by its hash. -/
inductive Address where
  | account (key : BytesN32)
  | contract (hash : BytesN32)
  deriving DecidableEq, Repr

/-- How a call fails: with an error of the contract, or with a trap of the host. -/
inductive Failure (ε : Type) where
  | error (e : ε)
  | trap
  deriving DecidableEq, Repr

/-- What the host decides from outside the contract: who has authorised the call, and whether the
calls of the USDC token and of the fraction token go through. -/
structure Env where
  auth : Address → Bool
  usdcAccepts : Bool
  mintSettleAccepts : Bool

/-- The least and the greatest 128-bit integer, and the greatest 32-bit natural number. -/
def MIN_I128 : ℤ := -2 ^ 127

def MAX_I128 : ℤ := 2 ^ 127 - 1

def MAX_U32 : ℕ := 2 ^ 32 - 1

/-- The ceiling of a single amount of stroops, which the services respect. -/
def MAX_STROOPS : ℤ := 2 ^ 96 - 1

/-- The range of a 128-bit integer. -/
def InI128 (x : ℤ) : Prop := MIN_I128 ≤ x ∧ x ≤ MAX_I128

instance (x : ℤ) : Decidable (InI128 x) := inferInstanceAs (Decidable (_ ∧ _))

/-- A 128-bit integer. -/
abbrev I128 : Type := { x : ℤ // InI128 x }

theorem inI128_of_nonneg {x : ℤ} (h : 0 ≤ x) (hle : x ≤ MAX_I128) :
  InI128 x
  := ⟨le_trans (by decide) h, hle⟩

theorem inI128_zero :
  InI128 0
  := by decide

section Host

variable {ε : Type}

/-- Return an error of the contract when `c` holds. -/
abbrev errorIf (c : Prop) [Decidable c] (e : ε) : Except (Failure ε) Unit :=
  Checks.rejectIf c (.error e)

/-- Trap when `c` holds. -/
abbrev trapIf (c : Prop) [Decidable c] : Except (Failure ε) Unit :=
  Checks.rejectIf c .trap

/-- Checked 128-bit arithmetic: the result has to be in range. -/
def i128 (x : ℤ) : Except (Failure ε) ℤ := do
  trapIf (¬ InI128 x)
  return x

/-- Checked 32-bit arithmetic. -/
def u32 (n : ℕ) : Except (Failure ε) ℕ := do
  trapIf (MAX_U32 < n)
  return n

/-- `require_auth`: trap unless the address has authorised the call. -/
def requireAuth (env : Env) (a : Address) : Except (Failure ε) Unit :=
  trapIf (env.auth a = false)

/-- `transfer` of the USDC token: the amount moves one to one, or the call traps. -/
def usdcTransfer (env : Env) (balances : Ledger Address) (source target : Address) (amount : ℤ) :
    Except (Failure ε) (Ledger Address) := do
  trapIf (env.usdcAccepts = false ∨ amount < 0 ∨ balances source < amount)
  return balances.move source target amount

/-- An arithmetic says what becomes of the result of an operation. -/
abbrev Arithmetic (ε : Type) : Type := ℤ → Except (Failure ε) ℤ

/-- The arithmetic is right on 128-bit integers.  Nothing is said about the results that overflow:
they may trap, wrap around, or be right as well. -/
def Arithmetic.Right (arith : Arithmetic ε) : Prop := ∀ x, InI128 x → arith x = .ok x

theorem i128_eq_ok {x y : ℤ} :
  (i128 x : Except (Failure ε) ℤ) = .ok y ↔ InI128 x ∧ x = y
  := by
  simp only [i128, trapIf, Checks.bind_eq_ok, Checks.rejectIf_eq_ok, Checks.pure_eq_ok,
    exists_const, not_not]

/-- Checked arithmetic is right. -/
theorem i128_right :
  Arithmetic.Right (i128 : Arithmetic ε)
  := by
  intro x hx
  rw [i128_eq_ok]
  exact ⟨hx, rfl⟩

theorem u32_eq_ok {n m : ℕ} :
  (u32 n : Except (Failure ε) ℕ) = .ok m ↔ n ≤ MAX_U32 ∧ n = m
  := by
  simp only [u32, trapIf, Checks.bind_eq_ok, Checks.rejectIf_eq_ok, Checks.pure_eq_ok,
    exists_const, not_lt]

theorem requireAuth_eq_ok {env : Env} {a : Address} {x : Unit} :
  (requireAuth env a : Except (Failure ε) Unit) = .ok x ↔ env.auth a = true
  := by simp [requireAuth]

theorem usdcTransfer_eq_ok {env : Env} {b b' : Ledger Address} {source target : Address}
    {amount : ℤ} :
  (usdcTransfer env b source target amount : Except (Failure ε) (Ledger Address)) = .ok b'
    ↔ (env.usdcAccepts = true ∧ 0 ≤ amount ∧ amount ≤ b source)
      ∧ b.move source target amount = b'
  := by
  simp only [usdcTransfer, trapIf, Checks.bind_eq_ok, Checks.rejectIf_eq_ok, Checks.pure_eq_ok,
    exists_const, not_or, not_lt, Bool.not_eq_false]

end Host

end Soroban
