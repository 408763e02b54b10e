import Tove.Base.Checks
import Tove.Money.Codecs

/-!
# The service and the web client agree on amounts

A text that both read denotes the same number of stroops for both, and no digit of it is lost.
The web client reads back the text that it writes for a number of stroops, and what it displays
denotes that number of stroops.
-/

namespace Money

open Js Decimal Checks

/-- The stroops of a number with the given digits before and after the point, when there are at
most `decimals` digits after it. -/
def scaled (decimals : ℕ) (whole frac : List ℕ) : ℕ :=
  value whole * 10 ^ decimals + value frac * 10 ^ (decimals - frac.length)

theorem scaled_eq {decimals : ℕ} {whole frac : List ℕ} (h : frac.length ≤ decimals) :
  (scaled decimals whole frac : ℚ) = (value whole + fraction frac) * 10 ^ decimals
  := by
  have hpow : (10 : ℚ) ^ decimals = 10 ^ (decimals - frac.length) * 10 ^ frac.length := by
    rw [← pow_add, Nat.sub_add_cancel h]
  rw [scaled, fraction_eq]
  push_cast
  rw [hpow]
  field_simp

section BigInts

variable {s : JsString} {n : ℕ} {x : ℤ}

theorem toText_natCast (n : ℕ) :
  toText n = Json.decimal n
  := if_neg (not_lt.mpr (Int.natCast_nonneg n))

theorem bigInt_of_digits (hne : s ≠ []) (hs : ∀ c ∈ s, IsDigit c) :
  bigInt s = .ok (value s)
  := by
  rw [bigInt, readDecimal_of_digits hne hs]

theorem bigInt_decimal (n : ℕ) :
  bigInt (Json.decimal n) = .ok n
  := by
  rw [bigInt, Json.readDecimal_decimal]

theorem digits_append_zeros (hs : ∀ c ∈ s, IsDigit c) (k : ℕ) :
  ∀ c ∈ s ++ List.replicate k 48, IsDigit c
  := by
  intro c hc
  rcases List.mem_append.mp hc with hc | hc
  · exact hs c hc
  · rw [List.eq_of_mem_replicate hc]
    exact ⟨le_rfl, by decide⟩

end BigInts

/-! ### Reading -/

section Reading

variable {s whole frac : List ℕ} {decimals : ℕ}

/-- The digits before the point, followed by those after it and by zeros. -/
theorem bigInt_whole_append (h : Written s whole frac) (hle : frac.length ≤ decimals) :
  bigInt (whole ++ frac.rightpad decimals 48) = .ok (scaled decimals whole frac)
  := by
  have hlength : (frac.rightpad decimals 48).length = decimals := by
    rw [List.length_rightpad, max_eq_left hle]
  rw [bigInt_of_digits (List.append_ne_nil_of_left_ne_nil h.ne_nil _)]
  · rw [value_append, hlength, value_rightpad, scaled]
  · rw [List.rightpad, ← List.append_assoc]
    apply digits_append_zeros
    intro c hc
    rcases List.mem_append.mp hc with hc | hc
    · exact h.whole_digits c hc
    · exact h.frac_digits c hc

theorem bigInt_rightpad (h : Written s whole frac) (hle : frac.length ≤ decimals)
    (hpos : 0 < decimals) :
  bigInt (frac.rightpad decimals 48) = .ok (value frac * 10 ^ (decimals - frac.length) : ℕ)
  := by
  have hlength : (frac.rightpad decimals 48).length = decimals := by
    rw [List.length_rightpad, max_eq_left hle]
  have hne : frac.rightpad decimals 48 ≠ [] := by
    apply List.ne_nil_of_length_pos
    rw [hlength]
    exact hpos
  rw [bigInt_of_digits hne, value_rightpad]
  exact digits_append_zeros h.frac_digits _

/-- The service reads the amounts that are positive, fit, and have not too many decimals. -/
theorem scaleAmountToI128_eq_ok {v : ℤ} :
  Service.scaleAmountToI128 s decimals = .ok v
    ↔ ∃ whole frac, Written s whole frac ∧ frac.length ≤ decimals
      ∧ v = scaled decimals whole frac ∧ 1 ≤ v ∧ v ≤ Service.I128_MAX
  := by
  simp only [Service.scaleAmountToI128, bind_eq_ok, rejectIf_eq_ok, pure_eq_ok, exists_const,
    not_not, not_lt, not_le, gt_iff_lt]
  constructor
  · rintro ⟨hre, hle, v, hbig, hpos, hmax, rfl⟩
    obtain ⟨whole, frac, h⟩ := decimalRe_rmatch_iff.mp hre
    rw [h.frac_eq] at hle
    rw [h.frac_eq, h.whole_eq, bigInt_whole_append h hle] at hbig
    exact ⟨whole, frac, h, hle, (Except.ok.inj hbig).symm, hpos, hmax⟩
  · rintro ⟨whole, frac, h, hle, rfl, hpos, hmax⟩
    refine ⟨decimalRe_rmatch_iff.mpr ⟨whole, frac, h⟩, ?_, _, ?_, hpos, hmax, rfl⟩
    · rw [h.frac_eq]
      exact hle
    · rw [h.frac_eq, h.whole_eq, bigInt_whole_append h hle]

/-- The web client reads the amounts that have not too many decimals. -/
theorem usdcToStroops_eq_ok {t : JsString} :
  Web.usdcToStroops s = .ok (.ok t)
    ↔ ∃ whole frac, Written s whole frac ∧ frac.length ≤ Web.USDC_DECIMALS
      ∧ t = Json.decimal (scaled Web.USDC_DECIMALS whole frac)
  := by
  have hread : ∀ whole frac, Written s whole frac → frac.length ≤ Web.USDC_DECIMALS →
      Web.usdcToStroops s = .ok (.ok (Json.decimal (scaled Web.USDC_DECIMALS whole frac))) := by
    intro whole frac h hle
    have hre : decimalRe.rmatch s = true := decimalRe_rmatch_iff.mpr ⟨whole, frac, h⟩
    have hwhole := bigInt_of_digits h.ne_nil h.whole_digits
    have hfrac := bigInt_rightpad h hle (by decide)
    have htext : (value whole : ℤ) * Web.STROOPS_PER_USDC
          + (value frac * 10 ^ (Web.USDC_DECIMALS - frac.length) : ℕ)
        = (scaled Web.USDC_DECIMALS whole frac : ℕ) := by
      rw [scaled, Web.STROOPS_PER_USDC, Web.USDC_DECIMALS]
      push_cast
      ring
    rw [Web.usdcToStroops, if_neg (not_not.mpr hre), h.whole_eq, h.frac_eq, if_neg (not_lt.mpr hle)]
    simp only [hwhole, hfrac, ok_bind, htext, toText_natCast]
    rfl
  constructor
  · intro hok
    by_cases hre : decimalRe.rmatch s
    · obtain ⟨whole, frac, h⟩ := decimalRe_rmatch_iff.mp hre
      by_cases hle : frac.length ≤ Web.USDC_DECIMALS
      · rw [hread whole frac h hle] at hok
        exact ⟨whole, frac, h, hle, (Except.ok.inj (Except.ok.inj hok)).symm⟩
      · rw [Web.usdcToStroops, if_neg (not_not.mpr hre), h.frac_eq, if_pos (not_le.mp hle)] at hok
        cases Except.ok.inj hok
    · rw [Web.usdcToStroops, if_pos hre] at hok
      cases Except.ok.inj hok
  · rintro ⟨whole, frac, h, hle, rfl⟩
    exact hread whole frac h hle

end Reading

/-! ### Writing -/

section Writing

variable {n : ℕ}

/-- The whole part of a number of stroops, and the decimals. -/
theorem stroopsToUsdc_decimal (n : ℕ) :
  Web.stroopsToUsdc (Json.decimal n)
    = .ok (Json.decimal (n / 10 ^ 7) ++ 46 :: (Json.decimal (n % 10 ^ 7)).leftpad 7 48)
  := by
  have hre : integerRe.rmatch (Json.decimal n) = true :=
    integerRe_rmatch_iff.mpr ⟨Json.decimal_ne_nil n, fun c hc => Json.mem_decimal hc⟩
  have hdiv : (n : ℤ).tdiv Web.STROOPS_PER_USDC = (n / 10 ^ 7 : ℕ) := rfl
  have hmod : (n : ℤ).tmod Web.STROOPS_PER_USDC = (n % 10 ^ 7 : ℕ) := rfl
  rw [Web.stroopsToUsdc, rejectIf, if_neg (not_not.mpr hre), ok_bind, bigInt_decimal, ok_bind]
  simp only [hdiv, hmod, toText_natCast]
  rfl

/-- The text that the web client writes. -/
theorem written_stroopsToUsdc (n : ℕ) :
  Written (Json.decimal (n / 10 ^ 7) ++ 46 :: (Json.decimal (n % 10 ^ 7)).leftpad 7 48)
    (Json.decimal (n / 10 ^ 7)) ((Json.decimal (n % 10 ^ 7)).leftpad 7 48)
    ∧ ((Json.decimal (n % 10 ^ 7)).leftpad 7 48).length = 7
  := by
  have hlength : ((Json.decimal (n % 10 ^ 7)).leftpad 7 48).length = 7 := by
    rw [List.length_leftpad]
    exact max_eq_left (length_decimal_le (by decide) (Nat.mod_lt n (by decide)))
  refine ⟨⟨Json.decimal_ne_nil _, fun c hc => Json.mem_decimal hc, ?_, ?_⟩, hlength⟩
  · intro c hc
    rcases List.mem_append.mp hc with hc | hc
    · rw [List.eq_of_mem_replicate hc]
      exact ⟨le_rfl, by decide⟩
    · exact Json.mem_decimal hc
  · rw [if_neg]
    intro hnil
    rw [hnil] at hlength
    cases hlength

/-- What the web client writes for a number of stroops, it reads back. -/
theorem usdcToStroops_stroopsToUsdc (n : ℕ) :
  ∃ t, Web.stroopsToUsdc (Json.decimal n) = .ok t
    ∧ Web.usdcToStroops t = .ok (.ok (Json.decimal n))
  := by
  obtain ⟨hwritten, hlength⟩ := written_stroopsToUsdc n
  refine ⟨_, stroopsToUsdc_decimal n, ?_⟩
  apply usdcToStroops_eq_ok.mpr
  refine ⟨_, _, hwritten, hlength.le, ?_⟩
  rw [scaled, hlength, value_leftpad, value_decimal, value_decimal, Web.USDC_DECIMALS]
  rw [Nat.sub_self, pow_zero, mul_one, Nat.div_add_mod' n]

/-- What is displayed of the decimals: the others are zeros. -/
theorem shown_append_zeros {frac : List ℕ} (hfrac : 2 ≤ frac.length) {shown : List ℕ}
    (hshown : shown = if (frac.rdropWhile (· = 48)).length ≥ 2 then frac.rdropWhile (· = 48)
      else frac.take 2) :
  shown ≠ [] ∧ ∃ k, frac = shown ++ List.replicate k 48
  := by
  obtain ⟨trimmed, htrimmed⟩ : ∃ trimmed, trimmed = frac.rdropWhile (· = 48) := ⟨_, rfl⟩
  obtain ⟨zeros, hzeros⟩ : ∃ zeros, zeros = frac.rtakeWhile (· = 48) := ⟨_, rfl⟩
  have hsplit : frac = trimmed ++ zeros := by
    rw [htrimmed, hzeros, List.rdropWhile_append_rtakeWhile]
  have hzero : ∀ c ∈ zeros, c = 48 := by
    intro c hc
    rw [hzeros] at hc
    simpa using List.mem_rtakeWhile_imp hc
  rw [← htrimmed] at hshown
  rw [hshown]
  split
  · rename_i hlong
    constructor
    · apply List.ne_nil_of_length_pos
      omega
    · exact ⟨zeros.length, by rw [hsplit, List.eq_replicate_of_mem hzero, List.length_replicate]⟩
  · rename_i hshort
    constructor
    · apply List.ne_nil_of_length_pos
      rw [List.length_take]
      omega
    · have hdrop : ∀ c ∈ frac.drop 2, c = 48 := by
        intro c hc
        rw [hsplit, List.drop_append, List.drop_eq_nil_of_le (by omega), List.nil_append] at hc
        exact hzero c (List.mem_of_mem_drop hc)
      refine ⟨(frac.drop 2).length, ?_⟩
      rw [← List.eq_replicate_of_mem hdrop, List.take_append_drop]

/-- Without the commas, what is displayed for a number of stroops denotes this number. -/
theorem denotes_formatUsdc {format : ℤ → JsString}
    (hformat : ∀ n : ℕ, (format n).filter (· ≠ 44) = Json.decimal n) (n : ℕ) :
  ∃ t, Web.formatUsdc format (Json.decimal n) = .ok t
    ∧ Denotes (t.filter (· ≠ 44)) (n / 10 ^ 7)
  := by
  obtain ⟨hwritten, hlength⟩ := written_stroopsToUsdc n
  obtain ⟨frac, hfrac⟩ : ∃ frac, frac = (Json.decimal (n % 10 ^ 7)).leftpad 7 48 := ⟨_, rfl⟩
  rw [← hfrac] at hwritten hlength
  obtain ⟨shown, hshown⟩ : ∃ shown, shown = if (frac.rdropWhile (· = 48)).length ≥ 2 then
    frac.rdropWhile (· = 48) else frac.take 2 := ⟨_, rfl⟩
  obtain ⟨hne, k, hzeros⟩ := shown_append_zeros (by omega) hshown
  have hdigits : ∀ c ∈ shown, IsDigit c := by
    intro c hc
    apply hwritten.frac_digits
    rw [hzeros]
    exact List.mem_append_left _ hc
  refine ⟨format (n / 10 ^ 7 : ℕ) ++ 46 :: shown, ?_, ?_⟩
  · rw [Web.formatUsdc, stroopsToUsdc_decimal, ok_bind, ← hfrac]
    simp only [hwritten.whole_eq, hwritten.frac_eq, bigInt_decimal, ok_bind, ← hshown]
    rfl
  · refine ⟨Json.decimal (n / 10 ^ 7), shown,
      ⟨hwritten.ne_nil, hwritten.whole_digits, hdigits, ?_⟩, ?_⟩
    · have hself : shown.filter (· ≠ 44) = shown := by
        rw [List.filter_eq_self]
        intro c hc
        have hge := (hdigits c hc).1
        simp only [ne_eq, decide_not, Bool.not_eq_true', decide_eq_false_iff_not]
        omega
      rw [if_neg hne, List.filter_append, hformat, List.filter_cons_of_pos (by decide), hself]
    · have hvalue : fraction shown = (n % 10 ^ 7 : ℕ) / 10 ^ 7 := by
        rw [← fraction_append_zeros shown k, ← hzeros, fraction_eq, hlength, hfrac, value_leftpad]
        rw [value_decimal]
      rw [value_decimal, hvalue]
      have hdiv : (n : ℚ) = (n / 10 ^ 7 : ℕ) * 10 ^ 7 + (n % 10 ^ 7 : ℕ) := by
        exact_mod_cast (Nat.div_add_mod' n (10 ^ 7)).symm
      rw [hdiv]
      field_simp

theorem filter_groups {s : List ℕ} (hs : ∀ c ∈ s, c ≠ 44) :
  (Web.groups s).filter (· ≠ 44) = s
  := by
  induction s using Web.groups.induct with
  | case1 a b c d s ih =>
    have htail : ∀ x ∈ d :: s, x ≠ 44 := fun x hx => hs x (by simp [hx])
    have ha : a ≠ 44 := hs a (by simp)
    have hb : b ≠ 44 := hs b (by simp)
    have hc : c ≠ 44 := hs c (by simp)
    rw [Web.groups, List.filter_cons_of_pos (by simpa using ha)]
    rw [List.filter_cons_of_pos (by simpa using hb), List.filter_cons_of_pos (by simpa using hc)]
    rw [List.filter_cons_of_neg (by decide), ih htail]
  | case2 s hshort =>
    rw [Web.groups.eq_2 s hshort, List.filter_eq_self]
    intro c hc
    simpa using hs c hc

/-- Grouping only inserts commas. -/
theorem filter_groupThousands (n : ℕ) :
  (Web.groupThousands n).filter (· ≠ 44) = Json.decimal n
  := by
  rw [Web.groupThousands, toText_natCast, List.filter_reverse, filter_groups, List.reverse_reverse]
  intro c hc
  have hdigit := Json.mem_decimal (List.mem_reverse.mp hc)
  omega

end Writing

/-! ### Agreement -/

/-- The service and the web client agree on amounts: on a text that denotes a positive number of
stroops that fits, the service and the web client give the same number, the one that the text
denotes; on all other texts the service fails. The web client reads back what it writes; and what
it displays, without the commas, denotes the number of stroops, so that no two numbers are
displayed the same. -/
theorem codecs_agree {format : ℤ → JsString}
    (hformat : ∀ n : ℕ, (format n).filter (· ≠ 44) = Json.decimal n) :
  (∀ s v, Service.scaleAmountToI128 s Service.USDC_DECIMALS = .ok v
      ↔ ∃ t, Web.usdcToStroops s = .ok (.ok t) ∧ bigInt t = .ok v ∧ 1 ≤ v ∧ v ≤ 2 ^ 127 - 1)
    ∧ (∀ s v, Service.scaleAmountToI128 s Service.USDC_DECIMALS = .ok v →
      ∃ q, Denotes s q ∧ (v : ℚ) = q * 10 ^ 7)
    ∧ (∀ n : ℕ, ∃ t, Web.stroopsToUsdc (Json.decimal n) = .ok t
      ∧ Web.usdcToStroops t = .ok (.ok (Json.decimal n)))
    ∧ (∀ n : ℕ, ∃ t, Web.formatUsdc format (Json.decimal n) = .ok t
      ∧ Denotes (t.filter (· ≠ 44)) (n / 10 ^ 7))
    ∧ (∀ n m : ℕ,
      Web.formatUsdc format (Json.decimal n) = Web.formatUsdc format (Json.decimal m) → n = m)
  := by
  refine ⟨?_, ?_, usdcToStroops_stroopsToUsdc, denotes_formatUsdc hformat, ?_⟩
  · intro s v
    rw [scaleAmountToI128_eq_ok]
    constructor
    · rintro ⟨whole, frac, h, hle, rfl, hpos, hmax⟩
      refine ⟨_, usdcToStroops_eq_ok.mpr ⟨whole, frac, h, hle, rfl⟩, ?_, hpos, hmax⟩
      rw [bigInt_decimal]
      rfl
    · rintro ⟨t, hread, hbig, hpos, hmax⟩
      obtain ⟨whole, frac, h, hle, rfl⟩ := usdcToStroops_eq_ok.mp hread
      rw [bigInt_decimal] at hbig
      exact ⟨whole, frac, h, hle, (Except.ok.inj hbig).symm, hpos, hmax⟩
  · intro s v hv
    obtain ⟨whole, frac, h, hle, rfl, -⟩ := scaleAmountToI128_eq_ok.mp hv
    refine ⟨_, ⟨whole, frac, h, rfl⟩, ?_⟩
    rw [Int.cast_natCast, scaled_eq hle]
    rfl
  · intro n m heq
    obtain ⟨t, ht, hdenotes⟩ := denotes_formatUsdc hformat n
    obtain ⟨t', ht', hdenotes'⟩ := denotes_formatUsdc hformat m
    rw [ht, ht'] at heq
    obtain rfl := Except.ok.inj heq
    have hvalue := hdenotes.unique hdenotes'
    field_simp at hvalue
    exact_mod_cast hvalue

/-- The agreement, with the grouping of the thousands. -/
theorem codecs_agree_groupThousands :
  Service.scaleAmountToI128 (Utf8.text "0012.5") Service.USDC_DECIMALS = .ok 125000000
    ∧ (∃ t, Web.usdcToStroops (Utf8.text "0012.5") = .ok (.ok t) ∧ bigInt t = .ok 125000000)
    ∧ Web.formatUsdc Web.groupThousands (Json.decimal 12345678900000)
      = .ok (Utf8.text "1,234,567.89")
    ∧ ∃ t, Web.formatUsdc Web.groupThousands (Json.decimal 12345678900000) = .ok t
      ∧ Denotes (t.filter (· ≠ 44)) ((12345678900000 : ℕ) / 10 ^ 7)
  := by
  obtain ⟨hread, -, -, hshow, -⟩ := codecs_agree filter_groupThousands
  have hscale : Service.scaleAmountToI128 (Utf8.text "0012.5") Service.USDC_DECIMALS
      = .ok 125000000 := by decide +kernel
  obtain ⟨t, ht, hbig, -⟩ := (hread _ _).mp hscale
  exact ⟨hscale, ⟨t, ht, hbig⟩, by decide +kernel, hshow 12345678900000⟩

end Money
