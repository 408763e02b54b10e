import Mathlib.Data.List.DropRight
import Tove.Base.Decimal
import Tove.Base.Utf8
import Tove.Js

/-!
# Amounts of USDC as texts

The service reads an amount of USDC by `scaleAmountToI128` of `wallets/transfer/amount.ts`. The
web client has `usdcToStroops`, `stroopsToUsdc` and `formatUsdc` of `lib/money/format.ts`. There
are ten million stroops to the USDC.

The texts of the amounts are JavaScript strings.  Their digits are the code units 48 to 57, the
point is 46 and the comma 44.
-/

namespace Money

open Js Decimal Checks

/-! ### JavaScript -/

/-- What the functions throw, with its message. -/
inductive Thrown where
  | error (message : JsString)
  | rangeError (message : JsString)
  | syntaxError (message : JsString)
  deriving DecidableEq

/-- `BigInt(s)`, for a text of digits; the functions pass no other. -/
def bigInt (s : JsString) : Except Thrown ℤ :=
  match Json.readDecimal s with
  | some n => .ok n
  | none => .error (.syntaxError (Utf8.text "Cannot convert " ++ s ++ Utf8.text " to a BigInt"))

/-- `x.toString()` of a `BigInt`. -/
abbrev toText (x : ℤ) : JsString := Json.Numeral.text x

/-! ### The service -/

namespace Service

/-- The decimals of USDC. -/
def USDC_DECIMALS : ℕ := 7

/-- The largest signed number of 128 bits. -/
def I128_MAX : ℤ := 2 ^ 127 - 1

/-- A decimal number without a sign. -/
def DECIMAL_STRING_RE : RegularExpression ℕ := decimalRe

/-- Scale a decimal text to the smallest unit of a token. -/
def scaleAmountToI128 (amount : JsString) (decimals : ℕ) : Except Thrown ℤ := do
  rejectIf (¬ DECIMAL_STRING_RE.rmatch amount)
    (.error (Utf8.text "amount must be a non-negative decimal string"))
  let whole := (amount.splitOn 46)[0]?.getD []
  let fraction := (amount.splitOn 46)[1]?.getD []
  rejectIf (fraction.length > decimals)
    (.error (Utf8.text "amount has more than " ++ Json.decimal decimals
      ++ Utf8.text " fractional digits"))
  let scaled ← bigInt (whole ++ fraction.rightpad decimals 48)
  rejectIf (scaled ≤ 0) (.error (Utf8.text "amount must be greater than zero"))
  rejectIf (scaled > I128_MAX) (.error (Utf8.text "amount exceeds the maximum i128 value"))
  return scaled

end Service

/-! ### The web client -/

namespace Web

/-- The decimals of USDC. -/
def USDC_DECIMALS : ℕ := 7

/-- How many stroops there are to the USDC. -/
def STROOPS_PER_USDC : ℤ := 10000000

/-- Why a text is not an amount of USDC. -/
inductive Reason where
  | invalid
  | tooPrecise
  deriving DecidableEq

/-- Read a decimal text as stroops. -/
def usdcToStroops (input : JsString) : Except Thrown (Except Reason JsString) :=
  if ¬ decimalRe.rmatch input then
    return .error .invalid
  else
    let whole := (input.splitOn 46)[0]?.getD [48]
    let frac := (input.splitOn 46)[1]?.getD []
    if frac.length > USDC_DECIMALS then
      return .error .tooPrecise
    else do
      let fracPadded := frac.rightpad USDC_DECIMALS 48
      let stroops := (← bigInt whole) * STROOPS_PER_USDC + (← bigInt fracPadded)
      return .ok (toText stroops)

/-- Write stroops as USDC, with all the decimals. -/
def stroopsToUsdc (stroops : JsString) : Except Thrown JsString := do
  rejectIf (¬ integerRe.rmatch stroops)
    (.rangeError (Utf8.text "stroopsToUsdc: expected a decimal-integer string, got \""
      ++ stroops ++ Utf8.text "\""))
  let value ← bigInt stroops
  let whole := value.tdiv STROOPS_PER_USDC
  let frac := value.tmod STROOPS_PER_USDC
  return toText whole ++ 46 :: (toText frac).leftpad USDC_DECIMALS 48

/-- The digits from the last one to the first one, with a comma after every three. -/
def groups : List ℕ → List ℕ
  | a :: b :: c :: d :: s => a :: b :: c :: 44 :: groups (d :: s)
  | s => s

/-- What `Intl.NumberFormat('en-US')` writes for a number that is not negative. -/
def groupThousands (x : ℤ) : JsString := (groups (toText x).reverse).reverse

/-- Write stroops as USDC for display, when `format` writes a whole number for display, as
`Intl.NumberFormat('en-US')` does: at least two decimals, and no more zeros at the end. -/
def formatUsdc (format : ℤ → JsString) (stroops : JsString) : Except Thrown JsString := do
  let text ← stroopsToUsdc stroops
  let whole := (text.splitOn 46)[0]?.getD [48]
  let frac := (text.splitOn 46)[1]?.getD []
  let grouped := format (← bigInt whole)
  let trimmed := frac.rdropWhile (· = 48)
  let shown := if trimmed.length ≥ 2 then trimmed else frac.take 2
  return grouped ++ 46 :: shown

end Web

end Money
