import Mathlib.Data.Nat.Notation
import Mathlib.Logic.Function.Basic

/-!
# What calls have

Calls run side by side, each in a phase, and a call may have something in a phase. What is had
by one call at most stays so, when a call enters a phase and has there what it had, or what no
other call has.
-/

namespace Calls

universe u v

variable {φ : Type u} {κ : Type v} {has : φ → Option κ} {calls calls' : ℕ → φ} {m n : ℕ} {phase : φ}
  {k : κ}

/-- Nothing is had by two calls. -/
def Exclusive (has : φ → Option κ) (calls : ℕ → φ) : Prop :=
  ∀ m n k, has (calls m) = some k → has (calls n) = some k → m = n

/-- What holds of a call after one has entered a phase holds of the phase, or held of the call. -/
theorem update_cases (p : φ → Prop) (h : p (Function.update calls n phase m)) :
  m = n ∧ p phase ∨ m ≠ n ∧ p (calls m)
  := by
  rw [Function.update_apply] at h
  split at h
  · rename_i hm
    exact .inl ⟨hm, h⟩
  · rename_i hm
    exact .inr ⟨hm, h⟩

/-- What is had after a call has entered a phase was had before, when this is so of the call. -/
theorem of_update (hphase : ∀ k, has phase = some k → has (calls n) = some k)
    (h : has (Function.update calls n phase m) = some k) :
  has (calls m) = some k
  := by
  rw [Function.update_apply] at h
  split at h
  · rename_i hm
    rw [hm]
    exact hphase k h
  · exact h

theorem Exclusive.mono (h : Exclusive has calls)
    (hcalls : ∀ m k, has (calls' m) = some k → has (calls m) = some k) :
  Exclusive has calls'
  := fun m n k hm hn => h m n k (hcalls m k hm) (hcalls n k hn)

theorem Exclusive.update (h : Exclusive has calls)
    (hphase : ∀ m k, has phase = some k → has (calls m) = some k → m = n) :
  Exclusive has (Function.update calls n phase)
  := by
  intro m m' k hm hm'
  rw [Function.update_apply] at hm hm'
  split at hm
  · rename_i hmn
    split at hm'
    · rename_i hmn'
      rw [hmn, hmn']
    · rw [hmn, hphase m' k hm hm']
  · split at hm'
    · rename_i hmn'
      rw [hmn', hphase m k hm' hm]
    · exact h m m' k hm hm'

/-- A call that has nothing of the kind in its new phase. -/
theorem Exclusive.update_none (h : Exclusive has calls) (hphase : has phase = none) :
  Exclusive has (Function.update calls n phase)
  := by
  apply h.update
  intro m k hk
  rw [hphase] at hk
  cases hk

end Calls
