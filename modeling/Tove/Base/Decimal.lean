import Mathlib.Computability.RegularExpressions
import Mathlib.Data.Nat.Digits.Lemmas
import Mathlib.Tactic.FieldSimp
import Mathlib.Tactic.Linarith
import Tove.Base.Json

/-!
# Decimal notation

Texts of decimal digits, as lists of code units, and the numbers that they denote: digits with
or without a point and further digits.  The regular expressions for such texts match just the
texts that denote a number.
-/

namespace Decimal

/-! ### Digits -/

/-- A decimal digit. -/
def IsDigit (c : ℕ) : Prop := 48 ≤ c ∧ c ≤ 57

/-- The number that the digits denote when the last one counts units. -/
def value (s : List ℕ) : ℕ := Nat.ofDigits 10 (s.reverse.map (· - 48))

/-- The number that the digits denote when the first one counts tenths. -/
def fraction : List ℕ → ℚ
  | [] => 0
  | c :: s => ((c - 48 : ℕ) + fraction s) / 10

theorem value_append (s t : List ℕ) :
  value (s ++ t) = value s * 10 ^ t.length + value t
  := by
  rw [value, List.reverse_append, List.map_append, Nat.ofDigits_append, List.length_map]
  rw [List.length_reverse, add_comm, mul_comm]
  rfl

theorem value_singleton (c : ℕ) :
  value [c] = c - 48
  := Nat.ofDigits_singleton

theorem value_zeros (k : ℕ) :
  value (List.replicate k 48) = 0
  := by
  rw [value, List.reverse_replicate, List.map_replicate]
  exact Nat.ofDigits_replicate_zero

/-- Zeros in front do not change the number. -/
theorem value_leftpad (k : ℕ) (s : List ℕ) :
  value (s.leftpad k 48) = value s
  := by
  rw [List.leftpad, value_append, value_zeros, zero_mul, zero_add]

/-- Zeros at the end each multiply by ten. -/
theorem value_rightpad (k : ℕ) (s : List ℕ) :
  value (s.rightpad k 48) = value s * 10 ^ (k - s.length)
  := by
  rw [List.rightpad, value_append, value_zeros, List.length_replicate, add_zero]

/-- The digits after a point are those of a number, divided by a power of ten. -/
theorem fraction_eq (s : List ℕ) :
  fraction s = value s / 10 ^ s.length
  := by
  induction s with
  | nil => simp [fraction, value]
  | cons c s ih =>
    rw [fraction, ih, ← List.singleton_append, value_append, value_singleton]
    rw [List.length_append, List.length_singleton]
    push_cast
    field_simp
    ring

/-- Zeros after the last digit after the point do not change the number. -/
theorem fraction_append_zeros (s : List ℕ) (k : ℕ) :
  fraction (s ++ List.replicate k 48) = fraction s
  := by
  rw [fraction_eq, fraction_eq, value_append, value_zeros, List.length_append]
  rw [List.length_replicate, pow_add]
  push_cast
  field_simp
  ring

/-! ### The digits of a number -/

theorem readDecimal_of_digits {s : List ℕ} (hne : s ≠ []) (hs : ∀ c ∈ s, IsDigit c) :
  Json.readDecimal s = some (value s)
  := if_pos ⟨hne, hs⟩

theorem value_decimal (n : ℕ) :
  value (Json.decimal n) = n
  := by
  have hread := readDecimal_of_digits (Json.decimal_ne_nil n) fun c hc => Json.mem_decimal hc
  rw [Json.readDecimal_decimal] at hread
  exact (Option.some.inj hread).symm

theorem length_decimal_le {n k : ℕ} (hk : 0 < k) (hn : n < 10 ^ k) :
  (Json.decimal n).length ≤ k
  := by
  rw [Json.decimal]
  split
  · exact hk
  · rw [List.length_reverse, List.length_map]
    exact (Nat.digits_length_le_iff (by decide) n).mpr hn

/-! ### Texts -/

/-- A text with the given digits before and after the point; without digits after it there is
no point. -/
structure Written (s whole frac : List ℕ) : Prop where
  ne_nil : whole ≠ []
  whole_digits : ∀ c ∈ whole, IsDigit c
  frac_digits : ∀ c ∈ frac, IsDigit c
  eq : s = if frac = [] then whole else whole ++ 46 :: frac

/-- A text denotes a number. -/
def Denotes (s : List ℕ) (q : ℚ) : Prop :=
  ∃ whole frac, Written s whole frac ∧ q = value whole + fraction frac

section Texts

variable {s whole frac whole' frac' : List ℕ}

theorem not_mem_of_digits {c : ℕ} (h : ∀ c ∈ s, IsDigit c) (hc : ¬ IsDigit c) :
  c ∉ s
  := fun hmem => hc (h c hmem)

/-- A text is split at its point. -/
theorem Written.splitOn (h : Written s whole frac) :
  s.splitOn 46 = if frac = [] then [whole] else [whole, frac]
  := by
  have hpoint : ¬ IsDigit 46 := by
    unfold IsDigit
    omega
  rw [h.eq]
  split
  · exact List.splitOn_eq_singleton (not_mem_of_digits h.whole_digits hpoint)
  · rw [List.splitOn_append_cons_self_of_not_mem (not_mem_of_digits h.whole_digits hpoint)]
    rw [List.splitOn_eq_singleton (not_mem_of_digits h.frac_digits hpoint)]

theorem Written.whole_eq (h : Written s whole frac) (default : List ℕ) :
  (s.splitOn 46)[0]?.getD default = whole
  := by
  rw [h.splitOn]
  split <;> rfl

theorem Written.frac_eq (h : Written s whole frac) :
  (s.splitOn 46)[1]?.getD [] = frac
  := by
  rw [h.splitOn]
  split
  · rename_i hnil
    exact hnil.symm
  · rfl

/-- A text denotes one number at most. -/
theorem Denotes.unique {q q' : ℚ} (h : Denotes s q) (h' : Denotes s q') :
  q = q'
  := by
  obtain ⟨whole, frac, hwritten, rfl⟩ := h
  obtain ⟨whole', frac', hwritten', rfl⟩ := h'
  rw [← hwritten.whole_eq [], ← hwritten'.whole_eq [], ← hwritten.frac_eq, ← hwritten'.frac_eq]

end Texts

/-! ### Regular expressions -/

open RegularExpression

/-- `\d`. -/
def digit : RegularExpression ℕ := ((List.range' 48 10).map char).sum

/-- `P+`. -/
def plus (P : RegularExpression ℕ) : RegularExpression ℕ := P * P.star

/-- `^\d+$`. -/
def integerRe : RegularExpression ℕ := plus digit

/-- `^\d+(\.\d+)?$`. -/
def decimalRe : RegularExpression ℕ := plus digit * (1 + char 46 * plus digit)

section Expressions

variable {s : List ℕ}

theorem sum_rmatch_iff {α : Type*} [DecidableEq α] (ℓ : List (RegularExpression α)) (s : List α) :
  ℓ.sum.rmatch s ↔ ∃ P ∈ ℓ, P.rmatch s
  := by
  induction ℓ with
  | nil => simp
  | cons P ℓ ih => rw [List.sum_cons, add_rmatch_iff, ih, List.exists_mem_cons_iff]

theorem digit_rmatch_iff :
  digit.rmatch s ↔ ∃ c, IsDigit c ∧ s = [c]
  := by
  rw [digit, sum_rmatch_iff]
  constructor
  · rintro ⟨P, hP, hs⟩
    obtain ⟨c, hc, rfl⟩ := List.mem_map.mp hP
    have hrange := List.mem_range'_1.mp hc
    exact ⟨c, ⟨hrange.1, by omega⟩, (char_rmatch_iff c s).mp hs⟩
  · rintro ⟨c, hc, rfl⟩
    refine ⟨char c, List.mem_map_of_mem (List.mem_range'_1.mpr ⟨hc.1, ?_⟩), ?_⟩
    · have hle := hc.2
      omega
    · exact (char_rmatch_iff c [c]).mpr rfl

/-- `\d*` matches digits. -/
theorem star_digit_rmatch_iff :
  digit.star.rmatch s ↔ ∀ c ∈ s, IsDigit c
  := by
  rw [star_rmatch_iff]
  constructor
  · rintro ⟨ℓ, rfl, hℓ⟩ c hc
    obtain ⟨t, ht, hct⟩ := List.mem_flatten.mp hc
    obtain ⟨d, hd, rfl⟩ := digit_rmatch_iff.mp (hℓ t ht).2
    obtain rfl := List.mem_singleton.mp hct
    exact hd
  · intro hs
    refine ⟨s.map fun c => [c], ?_, ?_⟩
    · rw [← List.flatMap_def, List.flatMap_singleton']
    · intro t ht
      obtain ⟨c, hc, rfl⟩ := List.mem_map.mp ht
      exact ⟨List.cons_ne_nil c [], digit_rmatch_iff.mpr ⟨c, hs c hc, rfl⟩⟩

theorem integerRe_rmatch_iff :
  integerRe.rmatch s ↔ s ≠ [] ∧ ∀ c ∈ s, IsDigit c
  := by
  rw [integerRe, plus, mul_rmatch_iff]
  constructor
  · rintro ⟨t, u, rfl, ht, hu⟩
    obtain ⟨c, hc, rfl⟩ := digit_rmatch_iff.mp ht
    refine ⟨List.cons_ne_nil c u, ?_⟩
    intro d hd
    rcases List.mem_cons.mp hd with rfl | hd
    · exact hc
    · exact star_digit_rmatch_iff.mp hu d hd
  · rintro ⟨hne, hs⟩
    obtain ⟨c, u, rfl⟩ := List.exists_cons_of_ne_nil hne
    refine ⟨[c], u, rfl, ?_, ?_⟩
    · exact digit_rmatch_iff.mpr ⟨c, hs c List.mem_cons_self, rfl⟩
    · exact star_digit_rmatch_iff.mpr fun d hd => hs d (List.mem_cons_of_mem c hd)

/-- The texts that the expression matches are those that denote numbers. -/
theorem decimalRe_rmatch_iff :
  decimalRe.rmatch s ↔ ∃ whole frac, Written s whole frac
  := by
  rw [decimalRe, mul_rmatch_iff]
  constructor
  · rintro ⟨whole, rest, rfl, hwhole, hrest⟩
    obtain ⟨hne, hdigits⟩ := integerRe_rmatch_iff.mp hwhole
    rcases (add_rmatch_iff _ _ _).mp hrest with hone | hpoint
    · obtain rfl := (one_rmatch_iff rest).mp hone
      refine ⟨whole, [], hne, hdigits, nofun, ?_⟩
      rw [if_pos rfl, List.append_nil]
    · obtain ⟨t, frac, rfl, ht, hfrac⟩ := (mul_rmatch_iff _ _ _).mp hpoint
      obtain rfl := (char_rmatch_iff 46 t).mp ht
      obtain ⟨hfracne, hfracdigits⟩ := integerRe_rmatch_iff.mp hfrac
      refine ⟨whole, frac, hne, hdigits, hfracdigits, ?_⟩
      rw [if_neg hfracne, List.singleton_append]
  · rintro ⟨whole, frac, h⟩
    have hwhole := integerRe_rmatch_iff.mpr ⟨h.ne_nil, h.whole_digits⟩
    rw [h.eq]
    split
    · refine ⟨whole, [], (List.append_nil whole).symm, hwhole, ?_⟩
      exact (add_rmatch_iff _ _ _).mpr (.inl ((one_rmatch_iff []).mpr rfl))
    · rename_i hne
      refine ⟨whole, 46 :: frac, rfl, hwhole, (add_rmatch_iff _ _ _).mpr (.inr ?_)⟩
      apply (mul_rmatch_iff _ _ _).mpr
      refine ⟨[46], frac, rfl, (char_rmatch_iff 46 [46]).mpr rfl, ?_⟩
      exact integerRe_rmatch_iff.mpr ⟨hne, h.frac_digits⟩

end Expressions

end Decimal
