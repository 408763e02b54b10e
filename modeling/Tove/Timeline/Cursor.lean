import Tove.Base.Base64
import Tove.Base.Checks
import Tove.Base.Utf8
import Tove.Dates
import Tove.Numbers

/-!
# Cursors of the timeline

`timeline-cursor.ts` writes the position of an event in the timeline, its time and its id, as an
opaque text, and reads the text back: what it has written itself, it accepts.
-/

namespace Timeline

open Checks Js

/-! ### Ids -/

/-- A UUID, as a number. -/
abbrev Uuid : Type := Fin (2 ^ 128)

/-- A hexadecimal digit, in lower case. -/
def hexChar (d : ℕ) : ℕ := if d < 10 then 48 + d else 87 + d

namespace Uuid

/-- The 32 hexadecimal digits. -/
def digits (u : Uuid) : JsString := ((Nat.digits 16 u.val).map hexChar).reverse.leftpad 32 48

/-- The canonical text, with hyphens after 8, 12, 16 and 20 digits. -/
def text (u : Uuid) : JsString :=
  u.digits.take 8 ++ 45 :: ((u.digits.drop 8).take 4 ++ 45 :: ((u.digits.drop 12).take 4
    ++ 45 :: ((u.digits.drop 16).take 4 ++ 45 :: u.digits.drop 20)))

/-- The UUIDs of the standard: the versions 1 to 8 of its variant, and the two special ones. -/
def Standard (u : Uuid) : Prop :=
  u.val = 0 ∨ u.val = 2 ^ 128 - 1
    ∨ 1 ≤ u.val / 2 ^ 76 % 16 ∧ u.val / 2 ^ 76 % 16 ≤ 8 ∧ u.val / 2 ^ 62 % 4 = 2

instance (u : Uuid) : Decidable u.Standard := inferInstanceAs (Decidable (_ ∨ _))

end Uuid

/-! ### Errors -/

/-- The body of an error response. -/
structure HttpException where
  statusCode : ℕ
  error : String
  message : String
  errorCode : String
  deriving DecidableEq

def invalidCursor : HttpException where
  statusCode := 400
  error := "Bad Request"
  message := "Invalid timeline cursor"
  errorCode := "TIMELINE_INVALID_CURSOR"

/-! ### Cursors -/

def CURSOR_VERSION : ℤ := 1

def MAX_CURSOR_EPOCH_MS : ℤ := 8640000000000000

/-- `CursorPosition`. -/
structure CursorPosition where
  occurredAtMs : ℤ
  id : JsString
  deriving DecidableEq

/-- The payload of a position. -/
def CursorPosition.payload (position : CursorPosition) : Json.Value Json.Number :=
  .obj [(Utf8.text "v", .num (ofInt CURSOR_VERSION)),
    (Utf8.text "o", .num (ofInt position.occurredAtMs)), (Utf8.text "i", .str position.id)]

/-- Write a position: its payload as JSON, in UTF-8, to the base 64. -/
def encodeCursor (position : CursorPosition) : JsString :=
  Base64.encode (Utf8.encode (Json.stringify position.payload))

/-- A property that is a safe integer. -/
def integerProperty (value : Json.Value Json.Number) (key : JsString) : Option ℤ :=
  match value.property key with
  | some (.num x) => safeInteger x
  | _ => none

section Decoding

-- the validator of UUIDs, of the package `class-validator`
variable (isUUID : JsString → Bool)

/-- The position of a value that is a payload. -/
def isCursorPayload (value : Json.Value Json.Number) : Option CursorPosition := do
  let v ← integerProperty value (Utf8.text "v")
  guard (v = CURSOR_VERSION)
  let o ← integerProperty value (Utf8.text "o")
  guard (0 ≤ o ∧ o ≤ MAX_CURSOR_EPOCH_MS)
  let i ← value.stringProperty (Utf8.text "i")
  guard (isUUID i)
  return ⟨o, i⟩

/-- Read a position. -/
def decodeCursor (raw : JsString) : Except HttpException CursorPosition :=
  match Json.parse (Utf8.decode (Base64.decode raw)) with
  | none => throw invalidCursor
  | some parsed => orReject (isCursorPayload isUUID parsed) invalidCursor

end Decoding

/-! ### Round trip -/

section RoundTrip

variable {c : ℕ} {s : JsString}

theorem ascii_escape (h : c < 0x80) :
  ∀ d ∈ Json.escape c, d < 0x80
  := by
  have hhex : ∀ d ∈ Json.hex c, d < 0x80 := by
    intro d hd
    obtain ⟨n, hn, rfl⟩ := List.mem_map.mp hd
    have hlt : n < 16 := by
      simp only [List.mem_cons, List.not_mem_nil, or_false] at hn
      omega
    split <;> omega
  unfold Json.escape
  split_ifs <;> simp only [List.forall_mem_cons, List.not_mem_nil] <;> grind

/-- A text of ASCII characters is quoted in ASCII characters. -/
theorem ascii_quote (h : ∀ c ∈ s, c < 0x80) :
  ∀ d ∈ Json.quote s, d < 0x80
  := by
  have hescapes : ∀ d ∈ Json.escapes false s, d < 0x80 := by
    induction s with
    | nil => nofun
    | cons c s ih =>
      obtain ⟨hc, hs⟩ := List.forall_mem_cons.mp h
      have hhigh : Json.isHigh c = false := by
        simp only [Json.isHigh, Bool.and_eq_false_iff, decide_eq_false_iff_not]
        omega
      intro d hd
      rw [Json.escapes, if_neg Bool.false_ne_true, if_neg (by simp [hhigh])] at hd
      rcases List.mem_append.mp hd with hd | hd
      · exact ascii_escape hc d hd
      · exact ih hs d hd
  intro d hd
  rw [Json.quote, List.mem_cons, List.mem_append, List.mem_singleton] at hd
  rcases hd with rfl | hd | rfl
  · decide
  · exact hescapes d hd
  · decide

theorem ascii_number (x : Json.Number) :
  ∀ d ∈ Json.Numeral.text x, d < 0x80
  := by
  intro d hd
  have hnumeral := Json.Numeral.isNumeral_of_mem x d hd
  simp only [Json.isNumeral, Bool.or_eq_true, Bool.and_eq_true, decide_eq_true_eq, beq_iff_eq]
    at hnumeral
  omega

variable {isUUID : JsString → Bool} {position : CursorPosition}

theorem ascii_separated {texts : List JsString} (h : ∀ t ∈ texts, ∀ c ∈ t, c < 0x80) :
  ∀ d ∈ Json.separated texts, d < 0x80
  := by
  induction texts with
  | nil => nofun
  | cons t texts ih =>
    obtain ⟨ht, htexts⟩ := List.forall_mem_cons.mp h
    cases texts with
    | nil => exact ht
    | cons t' texts =>
      rw [Json.separated_cons_cons]
      intro d hd
      rcases List.mem_append.mp hd with hd | hd
      · exact ht d hd
      · rcases List.mem_cons.mp hd with rfl | hd
        · decide
        · exact ih htexts d hd

/-- A key with its value. -/
theorem ascii_field {key value : JsString} (hkey : ∀ c ∈ Json.quote key, c < 0x80)
    (hvalue : ∀ c ∈ value, c < 0x80) :
  ∀ d ∈ Json.quote key ++ 58 :: value, d < 0x80
  := by
  intro d hd
  rcases List.mem_append.mp hd with hd | hd
  · exact hkey d hd
  · rcases List.mem_cons.mp hd with rfl | hd
    · decide
    · exact hvalue d hd

theorem ascii_payload (h : ∀ c ∈ position.id, c < 0x80) :
  ∀ d ∈ Json.stringify position.payload, d < 0x80
  := by
  have hfields : ∀ d ∈ Json.separated (Json.fieldTexts [
      (Utf8.text "v", .num (ofInt CURSOR_VERSION)),
      (Utf8.text "o", .num (ofInt position.occurredAtMs)), (Utf8.text "i", .str position.id)]),
      d < 0x80 := by
    apply ascii_separated
    simp only [Json.fieldTexts, Json.stringify, List.forall_mem_cons, List.not_mem_nil]
    refine ⟨?_, ?_, ?_, fun _ => False.elim⟩
    · exact ascii_field (by decide) (ascii_number _)
    · exact ascii_field (by decide) (ascii_number _)
    · exact ascii_field (by decide) (ascii_quote h)
  intro d hd
  rw [CursorPosition.payload, Json.stringify, List.mem_cons, List.mem_append,
    List.mem_singleton] at hd
  rcases hd with rfl | hd | rfl
  · decide
  · exact hfields d hd
  · decide

theorem isCursorPayload_payload (ho : 0 ≤ position.occurredAtMs)
    (hle : position.occurredAtMs ≤ MAX_CURSOR_EPOCH_MS) (hid : isUUID position.id = true) :
  isCursorPayload isUUID position.payload = some position
  := by
  have hsafe : |position.occurredAtMs| ≤ MAX_SAFE_INTEGER := by
    rw [abs_of_nonneg ho, MAX_SAFE_INTEGER]
    rw [MAX_CURSOR_EPOCH_MS] at hle
    omega
  have hv : integerProperty position.payload (Utf8.text "v") = some CURSOR_VERSION :=
    safeInteger_ofInt (by decide)
  have ho' : integerProperty position.payload (Utf8.text "o") = some position.occurredAtMs :=
    safeInteger_ofInt hsafe
  have hi : position.payload.stringProperty (Utf8.text "i") = some position.id := rfl
  simp [isCursorPayload, hv, ho', hi, ho, hle, hid, guard]

/-- A cursor that was written is accepted, and gives the position back. -/
theorem decodeCursor_encodeCursor (ho : 0 ≤ position.occurredAtMs)
    (hle : position.occurredAtMs ≤ MAX_CURSOR_EPOCH_MS) (hid : isUUID position.id = true)
    (hascii : ∀ c ∈ position.id, c < 0x80) :
  decodeCursor isUUID (encodeCursor position) = .ok position
  := by
  rw [decodeCursor, encodeCursor, Base64.decode_encode, Utf8.decode_encode (ascii_payload hascii),
    Json.parse_stringify]
  exact orReject_eq_ok.mpr (isCursorPayload_payload ho hle hid)

end RoundTrip

/-! ### Texts of ids -/

namespace Uuid

/-- The number with the given hexadecimal digits, apart from hyphens. -/
def read (s : JsString) : Option Uuid :=
  let n := Nat.ofDigits 16 ((s.filter (· ≠ 45)).reverse.map fun c => if c < 58 then c - 48
    else c - 87)
  if h : n < 2 ^ 128 then some ⟨n, h⟩ else none

variable (u : Uuid)

theorem mem_digits {u : Uuid} {c : ℕ} (h : c ∈ u.digits) :
  48 ≤ c ∧ c < 0x80
  := by
  rcases List.mem_append.mp h with hzero | hdigit
  · rw [List.eq_of_mem_replicate hzero]
    decide
  · rw [List.mem_reverse] at hdigit
    obtain ⟨d, hd, rfl⟩ := List.mem_map.mp hdigit
    have hlt := Nat.digits_lt_base (by decide : 1 < 16) hd
    unfold hexChar
    split <;> omega

theorem filter_text :
  u.text.filter (· ≠ 45) = u.digits
  := by
  have hself : u.digits.filter (· ≠ 45) = u.digits := by
    rw [List.filter_eq_self]
    intro c hc
    have hge := (mem_digits hc).1
    simp only [ne_eq, decide_not, Bool.not_eq_true', decide_eq_false_iff_not]
    omega
  have hjoin : u.digits.take 8 ++ ((u.digits.drop 8).take 4 ++ ((u.digits.drop 12).take 4
      ++ ((u.digits.drop 16).take 4 ++ u.digits.drop 20))) = u.digits := by
    have h16 := List.take_append_drop 4 (u.digits.drop 16)
    have h12 := List.take_append_drop 4 (u.digits.drop 12)
    have h8 := List.take_append_drop 4 (u.digits.drop 8)
    rw [List.drop_drop] at h16 h12 h8
    rw [h16, h12, h8, List.take_append_drop]
  have hhyphen : ∀ s : JsString, (45 :: s).filter (· ≠ 45) = s.filter (· ≠ 45) :=
    fun _ => List.filter_cons_of_neg (by decide)
  simp only [text, List.filter_append, hhyphen]
  rw [← List.filter_append, ← List.filter_append, ← List.filter_append, ← List.filter_append,
    hjoin, hself]

theorem ascii_text :
  ∀ c ∈ u.text, c < 0x80
  := by
  intro c hc
  by_cases hhyphen : c = 45
  · rw [hhyphen]
    decide
  · have hmem : c ∈ u.text.filter (· ≠ 45) := List.mem_filter.mpr ⟨hc, by simpa using hhyphen⟩
    rw [filter_text] at hmem
    exact (mem_digits hmem).2

/-- A UUID is read back from its text. -/
theorem read_text :
  read u.text = some u
  := by
  have hdigits : (u.digits.reverse.map fun c => if c < 58 then c - 48 else c - 87)
      = Nat.digits 16 u.val ++ List.replicate (32 - (Nat.digits 16 u.val).length) 0 := by
    have hself : ∀ d ∈ Nat.digits 16 u.val,
        (if hexChar d < 58 then hexChar d - 48 else hexChar d - 87) = d := by
      intro d hd
      have hlt := Nat.digits_lt_base (by decide : 1 < 16) hd
      unfold hexChar
      split_ifs <;> omega
    rw [digits, List.leftpad, List.reverse_append, List.reverse_reverse, List.map_append,
      List.map_map, List.reverse_replicate, List.map_replicate, List.length_reverse,
      List.length_map]
    congr 1
    exact (List.map_congr_left hself).trans (List.map_id _)
  have hvalue : Nat.ofDigits 16 (u.digits.reverse.map fun c => if c < 58 then c - 48 else c - 87)
      = u.val := by
    rw [hdigits, Nat.ofDigits_append_replicate_zero, Nat.ofDigits_digits]
  simp only [read, filter_text, hvalue]
  exact dif_pos u.isLt

end Uuid

end Timeline
