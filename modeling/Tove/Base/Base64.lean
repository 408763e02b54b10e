import Mathlib.Data.List.TakeWhile
import Mathlib.Data.UInt
import Mathlib.Tactic.IntervalCases

/-!
# Base 64

The text of bytes in the alphabet for URLs, without padding, and the reader of such texts: the
bytes are read back.
-/

namespace Base64

/-- A digit to the base 64, in the alphabet for URLs. -/
def digit (d : ℕ) : ℕ :=
  if d < 26 then 65 + d
  else if d < 52 then 71 + d
  else if d < 62 then d - 4
  else if d = 62 then 45
  else 95

/-- The text of bytes. -/
def encode : List UInt8 → List ℕ
  | a :: b :: c :: s =>
    let n := a.toNat * 0x10000 + b.toNat * 0x100 + c.toNat
    [n / 0x40000, n / 0x1000 % 0x40, n / 0x40 % 0x40, n % 0x40].map digit ++ encode s
  | [a, b] =>
    let n := (a.toNat * 0x100 + b.toNat) * 4
    [n / 0x1000, n / 0x40 % 0x40, n % 0x40].map digit
  | [a] => [a.toNat / 4, a.toNat % 4 * 0x10].map digit
  | [] => []

/-- The value of a digit, in the alphabet for URLs or in the other one. -/
def value (c : ℕ) : Option ℕ :=
  if 65 ≤ c ∧ c ≤ 90 then some (c - 65)
  else if 97 ≤ c ∧ c ≤ 122 then some (c - 71)
  else if 48 ≤ c ∧ c ≤ 57 then some (c + 4)
  else if c = 45 ∨ c = 43 then some 62
  else if c = 95 ∨ c = 47 then some 63
  else none

/-- The bytes with the given digits; digits that do not make up a byte are left out. -/
def ofDigits : List ℕ → List UInt8
  | a :: b :: c :: d :: s =>
    let n := a * 0x40000 + b * 0x1000 + c * 0x40 + d
    [n / 0x10000, n / 0x100, n].map UInt8.ofNat ++ ofDigits s
  | [a, b, c] =>
    let n := (a * 0x1000 + b * 0x40 + c) / 4
    [n / 0x100, n].map UInt8.ofNat
  | [a, b] => [UInt8.ofNat ((a * 0x40 + b) / 0x10)]
  | _ => []

/-- The characters of a text that are read: the low bytes of its code units, up to a padding
character. -/
def symbols (s : List ℕ) : List ℕ := (s.map (· % 0x100)).takeWhile (· ≠ 61)

/-- The bytes of a text; what is no digit is skipped. -/
def decode (s : List ℕ) : List UInt8 := ofDigits ((symbols s).filterMap value)

theorem value_digit {d : ℕ} (h : d < 64) :
  value (digit d) = some d
  := by
  interval_cases d <;> rfl

theorem filterMap_value {ds : List ℕ} (h : ∀ d ∈ ds, d < 64) :
  (ds.map digit).filterMap value = ds
  := by
  induction ds with
  | nil => rfl
  | cons d ds ih =>
    obtain ⟨hd, hds⟩ := List.forall_mem_cons.mp h
    rw [List.map_cons, List.filterMap_cons_some (value_digit hd), ih hds]

theorem ofNat_of_eq {n : ℕ} {b : UInt8} (h : n % 256 = b.toNat) :
  UInt8.ofNat n = b
  := by
  apply UInt8.toNat_inj.mp
  rw [UInt8.toNat_ofNat', h]

/-- Three bytes are read back from four digits. -/
theorem ofDigits_three (a b c : UInt8) (s : List ℕ) {n : ℕ}
    (hn : n = a.toNat * 0x10000 + b.toNat * 0x100 + c.toNat) :
  ofDigits ([n / 0x40000, n / 0x1000 % 0x40, n / 0x40 % 0x40, n % 0x40] ++ s)
    = a :: b :: c :: ofDigits s
  := by
  have ha := a.toNat_lt
  have hb := b.toNat_lt
  have hc := c.toNat_lt
  have hself : n / 0x40000 * 0x40000 + n / 0x1000 % 0x40 * 0x1000 + n / 0x40 % 0x40 * 0x40
      + n % 0x40 = n := by omega
  simp only [List.cons_append, List.nil_append, ofDigits, hself, List.map_cons, List.map_nil]
  rw [ofNat_of_eq (b := a), ofNat_of_eq (b := b), ofNat_of_eq (b := c)] <;> omega

theorem ofDigits_two (a b : UInt8) {n : ℕ} (hn : n = (a.toNat * 0x100 + b.toNat) * 4) :
  ofDigits [n / 0x1000, n / 0x40 % 0x40, n % 0x40] = [a, b]
  := by
  have ha := a.toNat_lt
  have hb := b.toNat_lt
  have hself : n / 0x1000 * 0x1000 + n / 0x40 % 0x40 * 0x40 + n % 0x40 = n := by omega
  simp only [ofDigits, hself, List.map_cons, List.map_nil]
  rw [ofNat_of_eq (b := a), ofNat_of_eq (b := b)] <;> omega

theorem ofDigits_one (a : UInt8) :
  ofDigits [a.toNat / 4, a.toNat % 4 * 0x10] = [a]
  := by
  have ha := a.toNat_lt
  rw [ofDigits, ofNat_of_eq (b := a)]
  omega

theorem digit_symbol {d : ℕ} (h : d < 64) :
  digit d % 0x100 = digit d ∧ digit d ≠ 61
  := by
  interval_cases d <;> exact ⟨rfl, by decide⟩

/-- The digits of bytes. -/
theorem exists_digits (s : List UInt8) :
  ∃ ds : List ℕ, (∀ d ∈ ds, d < 64) ∧ encode s = ds.map digit ∧ ofDigits ds = s
  := by
  induction s using encode.induct with
  | case1 a b c s ih =>
    obtain ⟨ds, hds, hencode, hdigits⟩ := ih
    have ha := a.toNat_lt
    have hb := b.toNat_lt
    have hc := c.toNat_lt
    let n := a.toNat * 0x10000 + b.toNat * 0x100 + c.toNat
    refine ⟨[n / 0x40000, n / 0x1000 % 0x40, n / 0x40 % 0x40, n % 0x40] ++ ds, ?_, ?_, ?_⟩
    · intro d hd
      rcases List.mem_append.mp hd with hd | hd
      · simp only [List.mem_cons, List.not_mem_nil, or_false] at hd
        omega
      · exact hds d hd
    · rw [encode, hencode, List.map_append]
    · rw [ofDigits_three a b c _ rfl, hdigits]
  | case2 a b =>
    have ha := a.toNat_lt
    have hb := b.toNat_lt
    let n := (a.toNat * 0x100 + b.toNat) * 4
    refine ⟨[n / 0x1000, n / 0x40 % 0x40, n % 0x40], ?_, rfl, ofDigits_two a b rfl⟩
    intro d hd
    simp only [List.mem_cons, List.not_mem_nil, or_false] at hd
    omega
  | case3 a =>
    have ha := a.toNat_lt
    refine ⟨[a.toNat / 4, a.toNat % 4 * 0x10], ?_, rfl, ofDigits_one a⟩
    intro d hd
    simp only [List.mem_cons, List.not_mem_nil, or_false] at hd
    omega
  | case4 => exact ⟨[], List.forall_mem_nil _, rfl, rfl⟩

/-- The characters of digits are all read. -/
theorem symbols_digits {ds : List ℕ} (h : ∀ d ∈ ds, d < 64) :
  symbols (ds.map digit) = ds.map digit
  := by
  have hlow : (ds.map digit).map (· % 0x100) = ds.map digit := by
    rw [List.map_map]
    exact List.map_congr_left fun d hd => (digit_symbol (h d hd)).1
  rw [symbols, hlow, List.takeWhile_eq_self_iff]
  intro c hc
  obtain ⟨d, hd, rfl⟩ := List.mem_map.mp hc
  simpa using (digit_symbol (h d hd)).2

/-- Bytes are read back from their text. -/
theorem decode_encode (s : List UInt8) :
  decode (encode s) = s
  := by
  obtain ⟨ds, hds, hencode, hdigits⟩ := exists_digits s
  rw [hencode, decode, symbols_digits hds, filterMap_value hds, hdigits]

end Base64
