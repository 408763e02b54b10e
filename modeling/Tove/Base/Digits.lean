import Mathlib.Data.Nat.ModEq
import Mathlib.Tactic.Ring

/-!
# Big-endian digits

The digits of a number to the base 256, the most significant one first, in a fixed number of bytes.
-/

namespace Digits

/-- The last `k` digits of a number to the base 256. -/
def bigEndian (n : ℕ) : ℕ → List UInt8
  | 0 => []
  | k + 1 => bigEndian (n / 256) k ++ [UInt8.ofNat n]

theorem length_bigEndian (n k : ℕ) :
  (bigEndian n k).length = k
  := by
  induction k generalizing n with
  | zero => rfl
  | succ k ih => rw [bigEndian, List.length_append, ih, List.length_singleton]

/-- The digits determine a number that fits. -/
theorem bigEndian_injective {n m k : ℕ} (hn : n < 256 ^ k) (hm : m < 256 ^ k)
    (h : bigEndian n k = bigEndian m k) :
  n = m
  := by
  induction k generalizing n m with
  | zero =>
    rw [pow_zero, Nat.lt_one_iff] at hn hm
    rw [hn, hm]
  | succ k ih =>
    rw [pow_succ, mul_comm] at hn hm
    obtain ⟨hinit, hlast⟩ := List.append_inj h (by rw [length_bigEndian, length_bigEndian])
    have hdiv : n / 256 = m / 256 :=
      ih (Nat.div_lt_of_lt_mul hn) (Nat.div_lt_of_lt_mul hm) hinit
    have hmod : n % 256 = m % 256 := by
      have := congrArg UInt8.toNat (List.cons.inj hlast).1
      rwa [UInt8.toNat_ofNat', UInt8.toNat_ofNat'] at this
    rw [← Nat.div_add_mod n 256, hdiv, hmod, Nat.div_add_mod]

/-- What follows the digits of a number that fits can be told from them. -/
theorem bigEndian_append_inj {n m k : ℕ} {s t : List UInt8} (hn : n < 256 ^ k) (hm : m < 256 ^ k)
    (h : bigEndian n k ++ s = bigEndian m k ++ t) :
  n = m ∧ s = t
  := by
  obtain ⟨hdigits, hrest⟩ := List.append_inj h (by rw [length_bigEndian, length_bigEndian])
  exact ⟨bigEndian_injective hn hm hdigits, hrest⟩

end Digits
