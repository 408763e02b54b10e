import Mathlib.Data.Int.Basic
import Mathlib.Data.List.Basic
import Mathlib.Data.Nat.Digits.Defs
import Mathlib.Tactic.IntervalCases

/-!
# JSON

The values that JSON can represent, their texts as lists of UTF-16 code units, and the reader of
such texts: a value is read back from its text. The numbers are of a type of their own, with
texts of their own.
-/

namespace Json

universe u v

/-- The code units that the texts of numbers are made of. -/
def isNumeral (c : ℕ) : Bool :=
  48 ≤ c && c ≤ 57 || c == 45 || c == 43 || c == 46 || c == 69 || c == 101

/-- Numbers, with texts from which they are read back. -/
class Numeral (ν : Type u) where
  text : ν → List ℕ
  read : List ℕ → Option ν
  text_ne_nil : ∀ x, text x ≠ []
  isNumeral_of_mem : ∀ x, ∀ c ∈ text x, isNumeral c
  read_text : ∀ x, read (text x) = some x

/-- The values that JSON can represent. -/
inductive Value (ν : Type u) where
  | null
  | bool (b : Bool)
  | num (x : ν)
  | str (s : List ℕ)
  | arr (items : List (Value ν))
  | obj (fields : List (List ℕ × Value ν))

/-! ### The texts -/

/-- The four hexadecimal digits of a code unit. -/
def hex (c : ℕ) : List ℕ :=
  [c / 4096 % 16, c / 256 % 16, c / 16 % 16, c % 16].map fun d => if d < 10 then 48 + d else 87 + d

/-- The first unit of a surrogate pair. -/
def isHigh (c : ℕ) : Bool := 0xD800 ≤ c && c < 0xDC00

/-- The second unit of a surrogate pair. -/
def isLow (c : ℕ) : Bool := 0xDC00 ≤ c && c < 0xE000

/-- A code unit that is not in a surrogate pair. -/
def escape (c : ℕ) : List ℕ :=
  if c = 34 ∨ c = 92 then [92, c]
  else if c = 8 then [92, 98]
  else if c = 9 then [92, 116]
  else if c = 10 then [92, 110]
  else if c = 12 then [92, 102]
  else if c = 13 then [92, 114]
  else if c < 32 ∨ isHigh c ∨ isLow c then 92 :: 117 :: hex c
  else [c]

/-- The code units of a string; `paired` says that the first of them ends a surrogate pair. -/
def escapes (paired : Bool) : List ℕ → List ℕ
  | [] => []
  | c :: s =>
    if paired then c :: escapes false s
    else if isHigh c ∧ s.head?.any isLow then c :: escapes true s
    else escape c ++ escapes false s

/-- A string in quotes. -/
def quote (s : List ℕ) : List ℕ := 34 :: (escapes false s ++ [34])

/-- Texts that are separated by commas. -/
def separated : List (List ℕ) → List ℕ
  | [] => []
  | [s] => s
  | s :: s' :: texts => s ++ 44 :: separated (s' :: texts)

section Text

variable {ν : Type u} [Numeral ν]

mutual

/-- `JSON.stringify`. -/
def stringify : Value ν → List ℕ
  | .null => [110, 117, 108, 108]
  | .bool true => [116, 114, 117, 101]
  | .bool false => [102, 97, 108, 115, 101]
  | .num x => Numeral.text x
  | .str s => quote s
  | .arr items => 91 :: (separated (itemTexts items) ++ [93])
  | .obj fields => 123 :: (separated (fieldTexts fields) ++ [125])

def itemTexts : List (Value ν) → List (List ℕ)
  | [] => []
  | x :: items => stringify x :: itemTexts items

def fieldTexts : List (List ℕ × Value ν) → List (List ℕ)
  | [] => []
  | (key, x) :: fields => (quote key ++ 58 :: stringify x) :: fieldTexts fields

end

end Text

/-! ### The reader -/

/-- White space. -/
def isSpace (c : ℕ) : Bool := c == 32 || c == 9 || c == 10 || c == 13

/-- White space is skipped. -/
def skip (s : List ℕ) : List ℕ := s.dropWhile isSpace

/-- The value of a hexadecimal digit. -/
def hexDigit (c : ℕ) : Option ℕ :=
  if 48 ≤ c ∧ c ≤ 57 then some (c - 48)
  else if 97 ≤ c ∧ c ≤ 102 then some (c - 87)
  else if 65 ≤ c ∧ c ≤ 70 then some (c - 55)
  else none

/-- The code unit that is written with a backslash and one other unit. -/
def unescape (c : ℕ) : Option ℕ :=
  if c = 34 ∨ c = 92 ∨ c = 47 then some c
  else if c = 98 then some 8
  else if c = 116 then some 9
  else if c = 110 then some 10
  else if c = 102 then some 12
  else if c = 114 then some 13
  else none

/-- The code unit with four hexadecimal digits. -/
def readHex (a b c d : ℕ) : Option ℕ := do
  let a ← hexDigit a
  let b ← hexDigit b
  let c ← hexDigit c
  let d ← hexDigit d
  some (4096 * a + 256 * b + 16 * c + d)

/-- A string begins with a code unit. -/
def push (c : ℕ) (p : List ℕ × List ℕ) : List ℕ × List ℕ := (c :: p.1, p.2)

/-- The rest of a string in quotes, and what follows it. -/
def unquote : List ℕ → Option (List ℕ × List ℕ)
  | [] => none
  | 34 :: r => some ([], r)
  | 92 :: 117 :: a :: b :: c :: d :: r =>
    (readHex a b c d).bind fun c => (unquote r).map (push c)
  | 92 :: c :: r => (unescape c).bind fun c => (unquote r).map (push c)
  | c :: r => if c < 32 then none else (unquote r).map (push c)

section Sequence

variable {α : Type v} (read : List ℕ → Option (α × List ℕ)) (close : ℕ)

/-- At least one item, up to the closing unit, in at most as many items as the fuel says. -/
def readItems : ℕ → List ℕ → Option (List α × List ℕ)
  | 0, _ => none
  | n + 1, s => do
    let (x, r) ← read s
    match skip r with
    | [] => none
    | c :: r =>
      if c = 44 then (readItems n r).map fun (items, r) => (x :: items, r)
      else if c = close then some ([x], r)
      else none

/-- The items up to the closing unit. -/
def readSequence (s : List ℕ) : Option (List α × List ℕ) :=
  match skip s with
  | [] => none
  | c :: r => if c = close then some ([], r) else readItems read close s.length s

/-- A key with its value. -/
def readField (s : List ℕ) : Option ((List ℕ × α) × List ℕ) :=
  match skip s with
  | 34 :: r => (unquote r).bind fun (key, r) =>
    match skip r with
    | 58 :: r => (read r).map fun (x, r) => ((key, x), r)
    | _ => none
  | _ => none

end Sequence

section Read

variable {ν : Type u} [Numeral ν]

/-- A value at the head of a text, nested at most as deep as the fuel says, and what follows it. -/
def readValue : ℕ → List ℕ → Option (Value ν × List ℕ)
  | 0, _ => none
  | n + 1, s =>
    match skip s with
    | 110 :: 117 :: 108 :: 108 :: r => some (.null, r)
    | 116 :: 114 :: 117 :: 101 :: r => some (.bool true, r)
    | 102 :: 97 :: 108 :: 115 :: 101 :: r => some (.bool false, r)
    | 34 :: r => (unquote r).map fun (s, r) => (.str s, r)
    | 91 :: r => (readSequence (readValue n) 93 r).map fun (items, r) => (.arr items, r)
    | 123 :: r => (readSequence (readField (readValue n)) 125 r).map fun (fields, r) => (.obj fields, r)
    | s => (Numeral.read (s.takeWhile isNumeral)).map fun x => (.num x, s.dropWhile isNumeral)

/-- `JSON.parse`: the text of a value, and nothing else. -/
def parse (s : List ℕ) : Option (Value ν) :=
  match readValue (s.length + 1) s with
  | some (x, r) => if skip r = [] then some x else none
  | none => none

end Read

/-! ### Strings -/

section Strings

variable {c : ℕ} {s r : List ℕ}

theorem hexDigit_hex (d : ℕ) (h : d < 16) :
  hexDigit (if d < 10 then 48 + d else 87 + d) = some d
  := by
  interval_cases d <;> rfl

/-- A code unit is read back from its hexadecimal digits. -/
theorem unquote_hex (h : c < 65536) :
  unquote (92 :: 117 :: (hex c ++ r)) = (unquote r).map (push c)
  := by
  have hdigits : 4096 * (c / 4096 % 16) + 256 * (c / 256 % 16) + 16 * (c / 16 % 16) + c % 16 = c := by
    omega
  simp only [hex, List.map_cons, List.map_nil, List.cons_append, List.nil_append, unquote, readHex]
  rw [hexDigit_hex _ (Nat.mod_lt _ (by decide)), hexDigit_hex _ (Nat.mod_lt _ (by decide)),
    hexDigit_hex _ (Nat.mod_lt _ (by decide)), hexDigit_hex _ (Nat.mod_lt _ (by decide))]
  simp only [Option.bind_eq_bind, Option.bind_some, hdigits]

/-- A code unit that is not escaped is read as it is. -/
theorem unquote_raw (hquote : c ≠ 34) (hslash : c ≠ 92) (hcontrol : 32 ≤ c) :
  unquote (c :: r) = (unquote r).map (push c)
  := by
  rw [unquote.eq_def]
  split <;> simp_all [Nat.not_lt.mpr]

/-- A code unit is read back from its escaped form. -/
theorem unquote_escape :
  unquote (escape c ++ r) = (unquote r).map (push c)
  := by
  rw [escape]
  split_ifs with hself hback htab hline hform hreturn hhex
  · rcases hself with rfl | rfl <;> rfl
  · rw [hback]
    rfl
  · rw [htab]
    rfl
  · rw [hline]
    rfl
  · rw [hform]
    rfl
  · rw [hreturn]
    rfl
  · apply unquote_hex
    simp only [isHigh, isLow, Bool.and_eq_true, decide_eq_true_eq] at hhex
    omega
  · apply unquote_raw <;> omega

/-- A string is read back from its quoted form. -/
theorem unquote_escapes {paired : Bool} (h : paired → s.head?.any isLow) :
  unquote (escapes paired s ++ 34 :: r) = some (s, r)
  := by
  induction s generalizing paired with
  | nil => cases paired <;> rfl
  | cons c s ih =>
    have hrest : unquote (escapes false s ++ 34 :: r) = some (s, r) := ih (by simp)
    rw [escapes]
    split_ifs with hpaired hpair
    · have hlow : isLow c := h hpaired
      simp only [isLow, Bool.and_eq_true, decide_eq_true_eq] at hlow
      rw [List.cons_append, unquote_raw (by omega) (by omega) (by omega), hrest]
      rfl
    · have hhigh : isHigh c := hpair.1
      simp only [isHigh, Bool.and_eq_true, decide_eq_true_eq] at hhigh
      rw [List.cons_append, unquote_raw (by omega) (by omega) (by omega), ih fun _ => hpair.2]
      rfl
    · rw [List.append_assoc, unquote_escape, hrest]
      rfl

theorem unquote_quote :
  unquote (escapes false s ++ [34] ++ r) = some (s, r)
  := by
  rw [List.append_assoc, List.singleton_append]
  apply unquote_escapes (by simp)

end Strings

/-! ### Sequences -/

section Sequences

variable {α : Type v} {read : List ℕ → Option (α × List ℕ)} {write : α → List ℕ} {close c : ℕ}
  {items : List α} {r : List ℕ} {n : ℕ}

/-- What follows a text: nothing, or a unit that does not continue a number. -/
def Follows (r : List ℕ) : Prop := ∀ c ∈ r.head?, isNumeral c = false ∧ isSpace c = false

/-- A text is not empty, and its first unit is neither white space nor closes a sequence. -/
def Starts (s : List ℕ) : Prop := ∃ c r, s = c :: r ∧ isSpace c = false ∧ c ≠ 93 ∧ c ≠ 125

/-- Every item is read back from its text. -/
def Reads (read : List ℕ → Option (α × List ℕ)) (write : α → List ℕ) (items : List α) : Prop :=
  ∀ x ∈ items, ∀ r, Follows r → read (write x ++ r) = some (x, r)

theorem skip_cons (h : isSpace c = false) :
  skip (c :: r) = c :: r
  := by rw [skip, List.dropWhile_cons_of_neg (by simp [h])]

theorem separated_cons_cons (s s' : List ℕ) (texts : List (List ℕ)) :
  separated (s :: s' :: texts) = s ++ 44 :: separated (s' :: texts)
  := rfl

/-- Texts that are not empty are at most as many as their units. -/
theorem length_le_separated {texts : List (List ℕ)} (h : ∀ s ∈ texts, s ≠ []) :
  texts.length ≤ (separated texts).length
  := by
  induction texts with
  | nil => simp
  | cons s texts ih =>
    have hs : 0 < s.length := List.length_pos_iff.mpr (h s (by simp))
    cases texts with
    | nil =>
      rw [separated, List.length_singleton]
      omega
    | cons s' texts =>
      have hrest := ih fun t ht => h t (List.mem_cons_of_mem s ht)
      simp only [separated_cons_cons, List.length_append, List.length_cons] at hrest ⊢
      omega

/-- The items of a sequence are read back from their texts. -/
theorem readItems_separated (hclose : close = 93 ∨ close = 125) (hne : items ≠ [])
    (hread : Reads read write items) (hn : items.length ≤ n) :
  readItems read close n (separated (items.map write) ++ close :: r) = some (items, r)
  := by
  have hfollows : Follows (close :: r) := by
    rcases hclose with rfl | rfl <;> simp [Follows, isSpace, isNumeral]
  have hcomma : close ≠ 44 := by
    rcases hclose with rfl | rfl <;> decide
  induction items generalizing n with
  | nil => exact absurd rfl hne
  | cons x items ih =>
    obtain ⟨n, rfl⟩ : ∃ m, n = m + 1 := ⟨n - 1, by rw [List.length_cons] at hn; omega⟩
    cases items with
    | nil =>
      rw [List.map_singleton, separated, readItems, hread x (by simp) _ hfollows]
      simp [skip_cons (hfollows close rfl).2, hcomma]
    | cons y items =>
      have hrest := ih (n := n) (by simp) (fun z hz => hread z (List.mem_cons_of_mem x hz))
        (by simpa using hn)
      have hsep : Follows (44 :: (separated ((y :: items).map write) ++ close :: r)) := by
        simp [Follows, isSpace, isNumeral]
      rw [List.map_cons, List.map_cons, separated_cons_cons, List.append_assoc, List.cons_append,
        ← List.map_cons, readItems, hread x (by simp) _ hsep]
      simp only [Option.bind_eq_bind, Option.bind_some, skip_cons (hsep 44 rfl).2, if_true, hrest,
        Option.map_some]

/-- A sequence is read back from its text. -/
theorem readSequence_separated (hclose : close = 93 ∨ close = 125) (hread : Reads read write items)
    (hstarts : ∀ x ∈ items, Starts (write x)) :
  readSequence read close (separated (items.map write) ++ close :: r) = some (items, r)
  := by
  cases items with
  | nil =>
    have hspace : isSpace close = false := by
      rcases hclose with rfl | rfl <;> rfl
    rw [List.map_nil, separated, List.nil_append, readSequence, skip_cons hspace]
    simp
  | cons x items =>
    have hne : ∀ s ∈ (x :: items).map write, s ≠ [] := by
      intro s hs
      obtain ⟨y, hy, rfl⟩ := List.mem_map.mp hs
      obtain ⟨c, t, hc, _⟩ := hstarts y hy
      rw [hc]
      apply List.cons_ne_nil
    have hlength := length_le_separated hne
    rw [List.length_map] at hlength
    have hfuel : (x :: items).length
        ≤ (separated ((x :: items).map write) ++ close :: r).length := by
      rw [List.length_append]
      omega
    have hitems := readItems_separated (r := r) hclose (List.cons_ne_nil x items) hread hfuel
    obtain ⟨c, t, hc, hspace, hbracket, hbrace⟩ := hstarts x (by simp)
    obtain ⟨t', ht'⟩ : ∃ t', separated ((x :: items).map write) ++ close :: r = c :: t' := by
      cases items <;> simp [separated, hc]
    have hother : c ≠ close := by
      rcases hclose with rfl | rfl
      · exact hbracket
      · exact hbrace
    rw [readSequence, ← hitems, ht', skip_cons hspace]
    simp [hother]

end Sequences

/-! ### Values -/

section Values

variable {ν : Type u}

mutual

/-- What holds of a value when it holds of its parts holds of every value. -/
theorem Value.of_parts {P : Value ν → Prop} (null : P .null) (bool : ∀ b, P (.bool b))
    (num : ∀ x, P (.num x)) (str : ∀ s, P (.str s))
    (arr : ∀ items, (∀ x ∈ items, P x) → P (.arr items))
    (obj : ∀ fields, (∀ field ∈ fields, P field.2) → P (.obj fields)) :
  ∀ x : Value ν, P x
  | .null => null
  | .bool b => bool b
  | .num x => num x
  | .str s => str s
  | .arr items => arr items (Value.of_items null bool num str arr obj items)
  | .obj fields => obj fields (Value.of_fields null bool num str arr obj fields)

theorem Value.of_items {P : Value ν → Prop} (null : P .null) (bool : ∀ b, P (.bool b))
    (num : ∀ x, P (.num x)) (str : ∀ s, P (.str s))
    (arr : ∀ items, (∀ x ∈ items, P x) → P (.arr items))
    (obj : ∀ fields, (∀ field ∈ fields, P field.2) → P (.obj fields)) :
  ∀ items : List (Value ν), ∀ x ∈ items, P x
  | [] => List.forall_mem_nil P
  | x :: items => List.forall_mem_cons.mpr ⟨Value.of_parts null bool num str arr obj x,
    Value.of_items null bool num str arr obj items⟩

theorem Value.of_fields {P : Value ν → Prop} (null : P .null) (bool : ∀ b, P (.bool b))
    (num : ∀ x, P (.num x)) (str : ∀ s, P (.str s))
    (arr : ∀ items, (∀ x ∈ items, P x) → P (.arr items))
    (obj : ∀ fields, (∀ field ∈ fields, P field.2) → P (.obj fields)) :
  ∀ fields : List (List ℕ × Value ν), ∀ field ∈ fields, P field.2
  | [] => List.forall_mem_nil fun field : List ℕ × Value ν => P field.2
  | (_, x) :: fields => List.forall_mem_cons.mpr ⟨Value.of_parts null bool num str arr obj x,
    Value.of_fields null bool num str arr obj fields⟩

end

variable [Numeral ν]

/-- The text of a field. -/
def fieldText (field : List ℕ × Value ν) : List ℕ := quote field.1 ++ 58 :: stringify field.2

theorem itemTexts_eq_map (items : List (Value ν)) :
  itemTexts items = items.map stringify
  := by
  induction items with
  | nil => rfl
  | cons x items ih => rw [itemTexts, ih, List.map_cons]

theorem fieldTexts_eq_map (fields : List (List ℕ × Value ν)) :
  fieldTexts fields = fields.map fieldText
  := by
  induction fields with
  | nil => rfl
  | cons field fields ih => rw [fieldTexts, ih, List.map_cons, fieldText]

theorem not_isSpace {c : ℕ} (h : isNumeral c) :
  isSpace c = false
  := by
  simp only [isNumeral, isSpace, Bool.or_eq_true, Bool.or_eq_false_iff, Bool.and_eq_true,
    decide_eq_true_eq, beq_iff_eq, beq_eq_false_iff_ne] at h ⊢
  omega

/-- The text of a value is the head of what is read. -/
theorem starts_stringify (x : Value ν) :
  Starts (stringify x)
  := by
  cases x with
  | null => exact ⟨110, _, rfl, rfl, by decide, by decide⟩
  | bool b => cases b <;> exact ⟨_, _, rfl, rfl, by decide, by decide⟩
  | num x =>
    obtain ⟨c, r, hc⟩ := List.exists_cons_of_ne_nil (Numeral.text_ne_nil x)
    have hnumeral := Numeral.isNumeral_of_mem x c (by simp [hc])
    refine ⟨c, r, hc, not_isSpace hnumeral, ?_, ?_⟩
    · rintro rfl
      cases hnumeral
    · rintro rfl
      cases hnumeral
  | str s => exact ⟨34, _, rfl, rfl, by decide, by decide⟩
  | arr items => exact ⟨91, _, rfl, rfl, by decide, by decide⟩
  | obj fields => exact ⟨123, _, rfl, rfl, by decide, by decide⟩

/-- The text of a sequence is longer than that of each of its items. -/
theorem length_le_of_mem {texts : List (List ℕ)} {s : List ℕ} (h : s ∈ texts) :
  s.length ≤ (separated texts).length
  := by
  induction texts with
  | nil => cases h
  | cons t texts ih =>
    cases texts with
    | nil =>
      obtain rfl := List.mem_singleton.mp h
      rfl
    | cons t' texts =>
      rw [separated_cons_cons, List.length_append, List.length_cons]
      rcases List.mem_cons.mp h with rfl | h
      · omega
      · have := ih h
        omega

theorem readValue_numeral {c n : ℕ} {r : List ℕ} (h : isNumeral c) :
  readValue (ν := ν) (n + 1) (c :: r)
    = (Numeral.read ((c :: r).takeWhile isNumeral)).map
      fun x => (.num x, (c :: r).dropWhile isNumeral)
  := by
  rw [readValue, skip_cons (not_isSpace h)]
  split <;> simp_all [isNumeral]

/-- A number is read up to what does not continue it. -/
theorem readValue_num (x : ν) {n : ℕ} {r : List ℕ} (hr : Follows r) :
  readValue (n + 1) (Numeral.text x ++ r) = some (.num x, r)
  := by
  have hall := Numeral.isNumeral_of_mem x
  have htake : (Numeral.text x ++ r).takeWhile isNumeral = Numeral.text x := by
    rw [List.takeWhile_append_of_pos hall]
    cases r with
    | nil => simp
    | cons c r => simp [(hr c rfl).1]
  have hdrop : (Numeral.text x ++ r).dropWhile isNumeral = r := by
    rw [List.dropWhile_append_of_pos hall]
    cases r with
    | nil => rfl
    | cons c r => simp [(hr c rfl).1]
  obtain ⟨c, t, hc⟩ := List.exists_cons_of_ne_nil (Numeral.text_ne_nil x)
  have hnumeral := hall c (by simp [hc])
  have hread := readValue_numeral (ν := ν) (n := n) (r := t ++ r) hnumeral
  rw [← List.cons_append, ← hc, htake, hdrop, Numeral.read_text] at hread
  apply hread

/-- A field is read back from its text. -/
theorem readField_fieldText {read : List ℕ → Option (Value ν × List ℕ)} {field : List ℕ × Value ν}
    {r : List ℕ} (hread : read (stringify field.2 ++ r) = some (field.2, r)) :
  readField read (fieldText field ++ r) = some (field, r)
  := by
  have hquote : fieldText field ++ r
      = 34 :: (escapes false field.1 ++ [34] ++ (58 :: (stringify field.2 ++ r))) := by
    simp [fieldText, quote]
  have hskip : skip (34 :: (escapes false field.1 ++ [34] ++ (58 :: (stringify field.2 ++ r))))
      = 34 :: (escapes false field.1 ++ [34] ++ (58 :: (stringify field.2 ++ r))) := rfl
  have hcolon : skip (58 :: (stringify field.2 ++ r)) = 58 :: (stringify field.2 ++ r) := rfl
  rw [hquote, readField, hskip]
  simp only [unquote_quote, Option.bind_some, hcolon, hread, Option.map_some]

/-- A value is read back from its text, which is the head of what is read. -/
theorem readValue_stringify (x : Value ν) :
  ∀ n r, (stringify x).length < n → Follows r → readValue n (stringify x ++ r) = some (x, r)
  := by
  induction x using Value.of_parts with
  | null =>
    intro n r hn hr
    obtain ⟨n, rfl⟩ : ∃ m, n = m + 1 := ⟨n - 1, by omega⟩
    rfl
  | bool b =>
    intro n r hn hr
    obtain ⟨n, rfl⟩ : ∃ m, n = m + 1 := ⟨n - 1, by omega⟩
    cases b <;> rfl
  | num x =>
    intro n r hn hr
    obtain ⟨n, rfl⟩ : ∃ m, n = m + 1 := ⟨n - 1, by omega⟩
    apply readValue_num x hr
  | str s =>
    intro n r hn hr
    obtain ⟨n, rfl⟩ : ∃ m, n = m + 1 := ⟨n - 1, by omega⟩
    change (unquote (escapes false s ++ [34] ++ r)).map _ = _
    rw [unquote_quote]
    rfl
  | arr items ih =>
    intro n r hn hr
    obtain ⟨n, rfl⟩ : ∃ m, n = m + 1 := ⟨n - 1, by omega⟩
    rw [stringify, itemTexts_eq_map, List.length_cons, List.length_append] at hn
    have hreads : Reads (readValue n) stringify items := by
      intro x hx r hr
      have hlength := length_le_of_mem (List.mem_map_of_mem (f := stringify) hx)
      apply ih x hx n r (by omega) hr
    have hitems := readSequence_separated (r := r) (.inl rfl) hreads fun x _ => starts_stringify x
    rw [stringify, itemTexts_eq_map, List.cons_append, List.append_assoc, List.singleton_append]
    change (readSequence (readValue n) 93 _).map _ = _
    rw [hitems]
    rfl
  | obj fields ih =>
    intro n r hn hr
    obtain ⟨n, rfl⟩ : ∃ m, n = m + 1 := ⟨n - 1, by omega⟩
    rw [stringify, fieldTexts_eq_map, List.length_cons, List.length_append] at hn
    have hreads : Reads (readField (readValue n)) fieldText fields := by
      intro field hfield r hr
      have hlength := length_le_of_mem (List.mem_map_of_mem (f := fieldText) hfield)
      rw [fieldText, List.length_append, List.length_cons] at hlength
      apply readField_fieldText (ih field hfield n r (by omega) hr)
    have hstarts : ∀ field ∈ fields, Starts (fieldText field) :=
      fun field _ => ⟨34, _, rfl, rfl, by decide, by decide⟩
    have hfields := readSequence_separated (r := r) (.inr rfl) hreads hstarts
    rw [stringify, fieldTexts_eq_map, List.cons_append, List.append_assoc, List.singleton_append]
    change (readSequence (readField (readValue n)) 125 _).map _ = _
    rw [hfields]
    rfl

/-- A value is read back from its text. -/
theorem parse_stringify (x : Value ν) :
  parse (stringify x) = some x
  := by
  have hread := readValue_stringify x ((stringify x).length + 1) [] (Nat.lt_succ_self _) nofun
  rw [List.append_nil] at hread
  rw [parse, hread]
  rfl

end Values

/-! ### Integers -/

section Integers

/-- The decimal digits of a natural number. -/
def decimal (n : ℕ) : List ℕ :=
  if n = 0 then [48] else ((Nat.digits 10 n).map (48 + ·)).reverse

/-- The natural number with the given decimal digits. -/
def readDecimal (s : List ℕ) : Option ℕ :=
  if s ≠ [] ∧ ∀ c ∈ s, 48 ≤ c ∧ c ≤ 57 then some (Nat.ofDigits 10 (s.reverse.map (· - 48))) else none

/-- The integer with the given decimal text. -/
def readInteger : List ℕ → Option ℤ
  | 45 :: s => (readDecimal s).map fun n : ℕ => -(n : ℤ)
  | s => (readDecimal s).map fun n : ℕ => (n : ℤ)

theorem decimal_ne_nil (n : ℕ) :
  decimal n ≠ []
  := by
  rw [decimal]
  split
  · exact List.cons_ne_nil 48 []
  · rename_i h
    simpa [Nat.digits_eq_nil_iff_eq_zero] using h

theorem mem_decimal {n c : ℕ} (h : c ∈ decimal n) :
  48 ≤ c ∧ c ≤ 57
  := by
  rw [decimal] at h
  split at h
  · obtain rfl := List.mem_singleton.mp h
    decide
  · rw [List.mem_reverse, List.mem_map] at h
    obtain ⟨d, hd, rfl⟩ := h
    have := Nat.digits_lt_base (by decide) hd
    omega

theorem readDecimal_decimal (n : ℕ) :
  readDecimal (decimal n) = some n
  := by
  rw [readDecimal, if_pos ⟨decimal_ne_nil n, fun c hc => mem_decimal hc⟩, decimal]
  split
  · rename_i hzero
    rw [hzero]
    rfl
  · have hself : (fun c => c - 48) ∘ (fun d => 48 + d) = id := by
      funext d
      rw [Function.comp_apply, Nat.add_sub_cancel_left, id]
    rw [List.reverse_reverse, List.map_map, hself, List.map_id, Nat.ofDigits_digits]

/-- The integers, with their decimal texts. -/
instance : Numeral ℤ where
  text x := if x < 0 then 45 :: decimal x.natAbs else decimal x.natAbs
  read := readInteger
  text_ne_nil x := by
    split
    · apply List.cons_ne_nil
    · apply decimal_ne_nil
  isNumeral_of_mem x c hc := by
    have hdigit : c ∈ decimal x.natAbs → isNumeral c := by
      intro h
      have := mem_decimal h
      simp [isNumeral, this]
    split at hc
    · rcases List.mem_cons.mp hc with rfl | h
      · rfl
      · apply hdigit h
    · apply hdigit hc
  read_text x := by
    split
    · rw [readInteger, readDecimal_decimal, Option.map_some]
      congr 1
      omega
    · obtain ⟨c, s, hc⟩ := List.exists_cons_of_ne_nil (decimal_ne_nil x.natAbs)
      have hdigit := mem_decimal (n := x.natAbs) (c := c) (by simp [hc])
      have hread : readInteger (decimal x.natAbs)
          = (readDecimal (decimal x.natAbs)).map fun n : ℕ => (n : ℤ) := by
        rw [readInteger.eq_def, hc]
        split
        · rename_i heq
          cases heq
          omega
        · rfl
      rw [hread, readDecimal_decimal, Option.map_some]
      congr 1
      omega

end Integers

/-! ### Numbers as they are written -/

section Numbers

def isDigit (c : ℕ) : Bool := 48 ≤ c && c ≤ 57

/-- The digits of an exponent. -/
def isExponent : List ℕ → Bool
  | 43 :: c :: s | 45 :: c :: s | c :: s => isDigit c && s.all isDigit
  | [] => false

/-- What follows the digits of a number: nothing, or an exponent. -/
def isScale : List ℕ → Bool
  | [] => true
  | 69 :: s | 101 :: s => isExponent s
  | _ => false

/-- What follows the integer part of a number. -/
def isFraction : List ℕ → Bool
  | 46 :: c :: s => isDigit c && isScale (s.dropWhile isDigit)
  | s => isScale s

/-- A number without its sign: no zero stands before another digit. -/
def isUnsigned : List ℕ → Bool
  | 48 :: s => isFraction s
  | c :: s => isDigit c && isFraction (s.dropWhile isDigit)
  | [] => false

/-- The text of a number. -/
def isNumber : List ℕ → Bool
  | 45 :: s => isUnsigned s
  | s => isUnsigned s

/-- A number, as it is written. -/
abbrev Number : Type := { s : List ℕ // isNumber s ∧ s.all isNumeral }

instance : Numeral Number where
  text x := x.val
  read s := if h : isNumber s ∧ s.all isNumeral then some ⟨s, h⟩ else none
  text_ne_nil x h := by simpa [h, isNumber, isUnsigned] using x.property
  isNumeral_of_mem x := List.all_eq_true.mp x.property.2
  read_text x := dif_pos x.property

end Numbers

/-! ### Properties -/

section Properties

variable {ν : Type u}

/-- A property of a value: the last field of an object with the key. -/
def Value.property : Value ν → List ℕ → Option (Value ν)
  | .obj fields, key => fields.reverse.lookup key
  | _, _ => none

/-- A property that is a string. -/
def Value.stringProperty (x : Value ν) (key : List ℕ) : Option (List ℕ) :=
  match x.property key with
  | some (.str s) => some s
  | _ => none

/-- A property that is `true`. -/
def Value.trueProperty (x : Value ν) (key : List ℕ) : Bool :=
  match x.property key with
  | some (.bool b) => b
  | _ => false

def Value.isNull : Value ν → Bool
  | .null => true
  | _ => false

end Properties

end Json
