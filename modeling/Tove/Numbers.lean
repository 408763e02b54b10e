import Mathlib.Data.Int.Log
import Mathlib.Data.List.TakeWhile
import Mathlib.Data.Rat.Floor
import Mathlib.Tactic.Positivity
import Tove.Base.Decimal

/-!
# Numbers in JSON texts

`JSON.parse` reads a number as the double that is nearest to it, and `JSON.stringify` writes an
integer in decimal notation.  A safe integer is read back from what is written for it.
-/

namespace Js

open Decimal

/-! ### Reading -/

/-- The number that is written with digits, and perhaps a point and an exponent. -/
def unsignedValue (s : List ℕ) : ℚ :=
  let whole := s.takeWhile Json.isDigit
  let (frac, scale) := match s.dropWhile Json.isDigit with
    | 46 :: r => (r.takeWhile Json.isDigit, r.dropWhile Json.isDigit)
    | r => ([], r)
  let exponent : ℤ := match scale with
    | [] => 0
    | _ :: 43 :: r => value r
    | _ :: 45 :: r => -value r
    | _ :: r => value r
  (value whole + fraction frac) * 10 ^ exponent

/-- The number that is written. -/
def numberValue (x : Json.Number) : ℚ :=
  match x.val with
  | 45 :: s => -unsignedValue s
  | s => unsignedValue s

/-- The nearest integer, and the even one of two. -/
def roundEven (q : ℚ) : ℤ :=
  if q - ⌊q⌋ < 1 / 2 then ⌊q⌋
  else if 1 / 2 < q - ⌊q⌋ then ⌊q⌋ + 1
  else if ⌊q⌋ % 2 = 0 then ⌊q⌋
  else ⌊q⌋ + 1

/-- The double that is nearest to a number, when there is no overflow. -/
def toDouble (q : ℚ) : ℚ :=
  let e := max (Int.log 2 |q|) (-1022) - 52
  roundEven (q / 2 ^ e) * 2 ^ e

/-- The largest integer up to which all integers are doubles. -/
def MAX_SAFE_INTEGER : ℤ := 2 ^ 53 - 1

/-- The safe integer that a number is read as, if it is read as one. -/
def safeInteger (x : Json.Number) : Option ℤ :=
  let d := toDouble (numberValue x)
  if d.den = 1 ∧ |d.num| ≤ MAX_SAFE_INTEGER then some d.num else none

/-! ### Integers -/

section Integers

variable {n : ℕ} {k : ℤ}

theorem isDigit_iff {c : ℕ} :
  Json.isDigit c = true ↔ IsDigit c
  := by simp [Json.isDigit, IsDigit]

/-- Only the number zero begins with a zero. -/
theorem head_decimal_ne_zero (hn : n ≠ 0) {c : ℕ} {s : List ℕ} (h : Json.decimal n = c :: s) :
  c ≠ 48
  := by
  have hdigits : Nat.digits 10 n ≠ [] := Nat.digits_ne_nil_iff_ne_zero.mpr hn
  have hlast := Nat.getLast_digit_ne_zero 10 hn
  rw [Json.decimal, if_neg hn] at h
  have hhead : ((Nat.digits 10 n).map (48 + ·)).getLast? = some c := by
    rw [← List.head?_reverse, h]
    rfl
  rw [List.getLast?_map, List.getLast?_eq_some_getLast hdigits] at hhead
  have hc : 48 + (Nat.digits 10 n).getLast hdigits = c := Option.some.inj hhead
  omega

theorem takeWhile_digits {s : List ℕ} (hs : ∀ c ∈ s, IsDigit c) :
  s.takeWhile Json.isDigit = s ∧ s.dropWhile Json.isDigit = []
  := by
  have hall : ∀ c ∈ s, Json.isDigit c = true := fun c hc => isDigit_iff.mpr (hs c hc)
  exact ⟨List.takeWhile_eq_self_iff.mpr hall, List.dropWhile_eq_nil_iff.mpr hall⟩

theorem isUnsigned_decimal (n : ℕ) :
  Json.isUnsigned (Json.decimal n) = true
  := by
  rcases eq_or_ne n 0 with rfl | hn
  · rfl
  obtain ⟨c, s, hcons⟩ := List.exists_cons_of_ne_nil (Json.decimal_ne_nil n)
  have hc : c ≠ 48 := head_decimal_ne_zero hn hcons
  have hdigits : ∀ d ∈ c :: s, IsDigit d := fun d hd => Json.mem_decimal (hcons ▸ hd)
  obtain ⟨hdigit, hrest⟩ := List.forall_mem_cons.mp hdigits
  rw [hcons, Json.isUnsigned.eq_def]
  split
  · rename_i heq
    exact absurd (List.cons.inj heq).1 hc
  · rename_i heq
    obtain ⟨rfl, rfl⟩ := List.cons.inj heq
    rw [(takeWhile_digits hrest).2, isDigit_iff.mpr hdigit]
    rfl
  · rename_i heq
    cases heq

theorem unsignedValue_decimal (n : ℕ) :
  unsignedValue (Json.decimal n) = n
  := by
  obtain ⟨htake, hdrop⟩ := takeWhile_digits fun c (hc : c ∈ Json.decimal n) => Json.mem_decimal hc
  simp [unsignedValue, htake, hdrop, value_decimal, fraction]

/-- A natural number is written without a sign. -/
theorem decimal_ne_sign (n : ℕ) (s : List ℕ) :
  Json.decimal n ≠ 45 :: s
  := by
  intro h
  have hmem : 45 ∈ Json.decimal n := by
    rw [h]
    exact List.mem_cons_self
  have hdigit := Json.mem_decimal hmem
  omega

/-- The text of an integer is that of a number. -/
theorem isNumber_text (k : ℤ) :
  Json.isNumber (Json.Numeral.text k) ∧ (Json.Numeral.text k).all Json.isNumeral
  := by
  refine ⟨?_, List.all_eq_true.mpr (Json.Numeral.isNumeral_of_mem k)⟩
  change Json.isNumber (if k < 0 then 45 :: Json.decimal k.natAbs else Json.decimal k.natAbs) = true
  split
  · exact isUnsigned_decimal k.natAbs
  · rw [Json.isNumber.eq_2 _ (decimal_ne_sign k.natAbs)]
    exact isUnsigned_decimal k.natAbs

/-- An integer, as `JSON.stringify` writes it. -/
def ofInt (k : ℤ) : Json.Number := ⟨Json.Numeral.text k, isNumber_text k⟩

theorem numberValue_ofInt (k : ℤ) :
  numberValue (ofInt k) = k
  := by
  have hvalue := unsignedValue_decimal k.natAbs
  have hval : (ofInt k).val
      = if k < 0 then 45 :: Json.decimal k.natAbs else Json.decimal k.natAbs := rfl
  rw [numberValue, hval]
  split
  · rename_i s heq
    split at heq
    · rename_i hneg
      rw [← (List.cons.inj heq).2, hvalue, Nat.cast_natAbs, abs_of_neg hneg]
      simp
    · exact absurd heq (decimal_ne_sign k.natAbs s)
  · rename_i hsign
    split
    · rename_i hneg
      exact absurd (if_pos hneg) (hsign (Json.decimal k.natAbs))
    · rename_i hnonneg
      rw [hvalue, Nat.cast_natAbs, abs_of_nonneg (not_lt.mp hnonneg)]

theorem roundEven_intCast (k : ℤ) :
  roundEven k = k
  := by simp [roundEven]

/-- A safe integer is a double: it is a multiple of the last place of its binary digits. -/
theorem toDouble_intCast (hk : |k| ≤ MAX_SAFE_INTEGER) :
  toDouble k = k
  := by
  rcases eq_or_ne k 0 with rfl | hne
  · simp [toDouble, roundEven]
  have hpos : (0 : ℚ) < |(k : ℚ)| := by
    rw [abs_pos]
    exact_mod_cast hne
  have hlt : |(k : ℚ)| < 2 ^ (53 : ℤ) := by
    have hk' : |k| < 2 ^ 53 := by
      rw [MAX_SAFE_INTEGER] at hk
      omega
    exact_mod_cast hk'
  have hlog : Int.log 2 |(k : ℚ)| < 53 :=
    (Int.lt_zpow_iff_log_lt (by decide : 1 < (2 : ℕ)) hpos).mp (by exact_mod_cast hlt)
  obtain ⟨m, hm⟩ : ∃ m : ℕ, max (Int.log 2 |(k : ℚ)|) (-1022) - 52 = -(m : ℤ) := by
    refine ⟨(52 - max (Int.log 2 |(k : ℚ)|) (-1022)).toNat, ?_⟩
    omega
  have hscaled : (k : ℚ) / 2 ^ (-(m : ℤ)) = (k * 2 ^ m : ℤ) := by
    rw [zpow_neg, zpow_natCast]
    push_cast
    field_simp
  rw [toDouble, hm, hscaled, roundEven_intCast, zpow_neg, zpow_natCast]
  push_cast
  field_simp

/-- A safe integer is read back from what is written for it. -/
theorem safeInteger_ofInt (hk : |k| ≤ MAX_SAFE_INTEGER) :
  safeInteger (ofInt k) = some k
  := by
  simp only [safeInteger, numberValue_ofInt, toDouble_intCast hk]
  exact if_pos ⟨rfl, hk⟩

end Integers

end Js
