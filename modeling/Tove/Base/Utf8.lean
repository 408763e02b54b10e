import Mathlib.Data.List.Basic
import Mathlib.Data.UInt

/-!
# UTF-8

Texts are lists of UTF-16 code units. The bytes of a text, and the decoder that replaces what is
malformed by U+FFFD: a text of ASCII characters is decoded from its own bytes and from no others.
-/

namespace Utf8

/-- The code units of a code point. -/
def units (c : ℕ) : List ℕ :=
  if c < 0x10000 then [c]
  else [0xD800 + (c - 0x10000) / 0x400, 0xDC00 + (c - 0x10000) % 0x400]

/-! ### The encoder -/

/-- The bytes of a code point. -/
def bytes (c : ℕ) : List UInt8 :=
  List.map UInt8.ofNat
    (if c < 0x80 then [c]
    else if c < 0x800 then [0xC0 + c / 0x40, 0x80 + c % 0x40]
    else if c < 0x10000 then [0xE0 + c / 0x1000, 0x80 + c / 0x40 % 0x40, 0x80 + c % 0x40]
    else [0xF0 + c / 0x40000, 0x80 + c / 0x1000 % 0x40, 0x80 + c / 0x40 % 0x40, 0x80 + c % 0x40])

/-- The bytes of a text, with U+FFFD for a surrogate that is not in a pair. -/
def encode : List ℕ → List UInt8
  | [] => []
  | [c] => if 0xD800 ≤ c ∧ c < 0xE000 then bytes 0xFFFD else bytes c
  | c :: c' :: s =>
    if 0xD800 ≤ c ∧ c < 0xDC00 ∧ 0xDC00 ≤ c' ∧ c' < 0xE000 then
      bytes (0x10000 + (c - 0xD800) * 0x400 + (c' - 0xDC00)) ++ encode s
    else (if 0xD800 ≤ c ∧ c < 0xE000 then bytes 0xFFFD else bytes c) ++ encode (c' :: s)

/-! ### The decoder -/

/-- A character of which some bytes have been read: its bits so far, how many bytes are missing,
and the range of the next one. -/
structure Pending where
  bits : ℕ
  missing : ℕ
  lower : ℕ
  upper : ℕ

/-- The first byte of a character. -/
def first (b : ℕ) : List ℕ × Option Pending :=
  if b < 0x80 then ([b], none)
  else if 0xC2 ≤ b ∧ b ≤ 0xDF then ([], some ⟨b % 0x20, 1, 0x80, 0xBF⟩)
  else if 0xE0 ≤ b ∧ b ≤ 0xEF then
    ([], some ⟨b % 0x10, 2, if b = 0xE0 then 0xA0 else 0x80, if b = 0xED then 0x9F else 0xBF⟩)
  else if 0xF0 ≤ b ∧ b ≤ 0xF4 then
    ([], some ⟨b % 0x08, 3, if b = 0xF0 then 0x90 else 0x80, if b = 0xF4 then 0x8F else 0xBF⟩)
  else ([0xFFFD], none)

/-- A further byte of a character; a byte that does not continue it begins the next one. -/
def Pending.next (p : Pending) (b : ℕ) : List ℕ × Option Pending :=
  if p.lower ≤ b ∧ b ≤ p.upper then
    if p.missing = 1 then (units (p.bits * 0x40 + b % 0x40), none)
    else ([], some ⟨p.bits * 0x40 + b % 0x40, p.missing - 1, 0x80, 0xBF⟩)
  else (0xFFFD :: (first b).1, (first b).2)

/-- The text of the bytes that follow those of a pending character. -/
def decodeFrom : Option Pending → List UInt8 → List ℕ
  | none, [] => []
  | some _, [] => [0xFFFD]
  | none, b :: s => (first b.toNat).1 ++ decodeFrom (first b.toNat).2 s
  | some p, b :: s => (p.next b.toNat).1 ++ decodeFrom (p.next b.toNat).2 s

/-- The text of some bytes. -/
def decode (s : List UInt8) : List ℕ := decodeFrom none s

/-! ### ASCII -/

/-- The text begins with a code unit that is not ASCII. -/
def Foreign (t : List ℕ) : Prop := ∃ c t', t = c :: t' ∧ 0x80 ≤ c

/-- A pending character is not ASCII, whatever its missing bytes are. -/
structure Pending.Long (p : Pending) : Prop where
  missing_pos : 1 ≤ p.missing
  le_lower : 0x80 ≤ p.lower
  upper_le : p.upper ≤ 0xBF
  bits : 2 ≤ p.bits ∨ 2 ≤ p.missing ∧ (1 ≤ p.bits ∨ 0x90 ≤ p.lower)

/-- The first byte is an ASCII character, or begins a longer one, or is not the first byte of
a character. -/
theorem first_cases (b : ℕ) :
  b < 0x80 ∧ first b = ([b], none)
    ∨ (∃ p, p.Long ∧ first b = ([], some p)) ∨ first b = ([0xFFFD], none)
  := by
  unfold first
  by_cases hascii : b < 0x80
  · exact .inl ⟨hascii, if_pos hascii⟩
  rw [if_neg hascii]
  by_cases htwo : 0xC2 ≤ b ∧ b ≤ 0xDF
  · rw [if_pos htwo]
    exact .inr (.inl ⟨_, ⟨le_rfl, le_rfl, le_rfl, .inl (by dsimp only; omega)⟩, rfl⟩)
  rw [if_neg htwo]
  by_cases hthree : 0xE0 ≤ b ∧ b ≤ 0xEF
  · rw [if_pos hthree]
    refine .inr (.inl ⟨_, ⟨?_, ?_, ?_, .inr ⟨le_rfl, ?_⟩⟩, rfl⟩) <;> dsimp only <;> grind
  rw [if_neg hthree]
  by_cases hfour : 0xF0 ≤ b ∧ b ≤ 0xF4
  · rw [if_pos hfour]
    refine .inr (.inl ⟨_, ⟨?_, ?_, ?_, .inr ⟨?_, ?_⟩⟩, rfl⟩) <;> dsimp only <;> grind
  rw [if_neg hfour]
  exact .inr (.inr rfl)

theorem foreign_units {c : ℕ} (h : 0x80 ≤ c) (t : List ℕ) :
  Foreign (units c ++ t)
  := by
  unfold units
  split_ifs
  · exact ⟨c, t, rfl, h⟩
  · exact ⟨_, _, rfl, by omega⟩

/-- A pending character is replaced, or decoded to a character that is not ASCII. -/
theorem Pending.Long.foreign {p : Pending} (h : p.Long) (s : List UInt8) :
  Foreign (decodeFrom (some p) s)
  := by
  induction s generalizing p with
  | nil => exact ⟨0xFFFD, [], rfl, by decide⟩
  | cons b s ih =>
    obtain ⟨hmissing, hlower, hupper, hbits⟩ := h
    rw [decodeFrom, Pending.next]
    split_ifs with hrange hlast
    · apply foreign_units
      omega
    · apply ih ⟨_, le_rfl, le_rfl, .inl _⟩ <;> dsimp only <;> omega
    · exact ⟨0xFFFD, _, rfl, by decide⟩

/-- The bytes of ASCII characters are decoded one by one. -/
theorem decode_of_ascii {s : List UInt8} (h : ∀ b ∈ s, b.toNat < 0x80) :
  decode s = s.map UInt8.toNat
  := by
  induction s with
  | nil => rfl
  | cons b s ih =>
    have hfirst : first b.toNat = ([b.toNat], none) := if_pos (h b (by simp))
    rw [decode, decodeFrom, hfirst, List.map_cons, List.singleton_append, ← decode,
      ih fun b' hb' => h b' (List.mem_cons_of_mem b hb')]

/-- An ASCII character is encoded as one byte, whatever follows it. -/
theorem encode_cons {c : ℕ} (hc : c < 0x80) (s : List ℕ) :
  encode (c :: s) = UInt8.ofNat c :: encode s
  := by
  have hbytes : bytes c = [UInt8.ofNat c] := by
    rw [bytes, if_pos hc]
    rfl
  cases s with
  | nil =>
    rw [encode.eq_2, if_neg (by omega), hbytes, encode]
  | cons c' s =>
    rw [encode.eq_3, if_neg (by omega), if_neg (by omega), hbytes]
    rfl

/-- A text of ASCII characters is decoded from its bytes. -/
theorem decode_encode {t : List ℕ} (ht : ∀ c ∈ t, c < 0x80) :
  decode (encode t) = t
  := by
  suffices h : encode t = t.map UInt8.ofNat by
    have htoNat : ∀ c ∈ t, (UInt8.ofNat c).toNat = c := by
      intro c hc
      have hlt := ht c hc
      rw [UInt8.toNat_ofNat', Nat.mod_eq_of_lt (by omega)]
    rw [h, decode_of_ascii, List.map_map]
    · exact (List.map_congr_left htoNat).trans (List.map_id t)
    · intro b hb
      obtain ⟨c, hc, rfl⟩ := List.mem_map.mp hb
      rw [htoNat c hc]
      exact ht c hc
  induction t with
  | nil => rfl
  | cons c t ih =>
    obtain ⟨hc, ht⟩ := List.forall_mem_cons.mp ht
    rw [encode_cons hc, ih ht, List.map_cons]

theorem Foreign.ne {t t' : List ℕ} (h : Foreign t') (ht : ∀ c ∈ t, c < 0x80) :
  t' ≠ t
  := by
  obtain ⟨c, t', rfl, hc⟩ := h
  rintro rfl
  exact absurd (ht c (by simp)) (by omega)

/-- A text of ASCII characters is decoded from its own bytes only. -/
theorem eq_map_of_decode {s : List UInt8} {t : List ℕ} (ht : ∀ c ∈ t, c < 0x80)
    (h : decode s = t) :
  s.map UInt8.toNat = t
  := by
  induction s generalizing t with
  | nil => exact h
  | cons b s ih =>
    rw [decode, decodeFrom] at h
    obtain ⟨_, hfirst⟩ | ⟨p, hp, hfirst⟩ | hfirst := first_cases b.toNat <;>
      simp only [hfirst] at h
    · subst h
      rw [List.map_cons, ih (fun c hc => ht c (List.mem_cons_of_mem _ hc)) rfl]
      rfl
    · exact absurd h ((hp.foreign s).ne ht)
    · exact absurd h (Foreign.ne ⟨_, _, rfl, by decide⟩ ht)

/-! ### Literals -/

/-- The text of a string literal. -/
def text (s : String) : List ℕ := s.toList.map Char.toNat

/-- The bytes of a literal of ASCII characters. -/
def ascii (s : String) : List UInt8 := s.toList.map fun c => UInt8.ofNat c.toNat

/-- The text of an ASCII literal is decoded from the bytes of the literal only. -/
theorem decode_eq_text {s : String} (hs : ∀ c ∈ s.toList, c.toNat < 0x80) {b : List UInt8} :
  decode b = text s ↔ b = ascii s
  := by
  have hunits : (ascii s).map UInt8.toNat = text s := by
    rw [ascii, text, List.map_map]
    apply List.map_congr_left
    intro c hc
    have := hs c hc
    rw [Function.comp_apply, UInt8.toNat_ofNat']
    omega
  have hinjective : Function.Injective (List.map UInt8.toNat) :=
    List.map_injective_iff.mpr fun _ _ => UInt8.toNat_inj.mp
  constructor
  · intro h
    apply hinjective
    rw [hunits]
    apply eq_map_of_decode _ h
    simpa [text] using hs
  · rintro rfl
    rw [decode_of_ascii, hunits]
    intro b hb
    have hmem := List.mem_map_of_mem (f := UInt8.toNat) hb
    rw [hunits, text, List.mem_map] at hmem
    obtain ⟨c, hc, hcb⟩ := hmem
    rw [← hcb]
    exact hs c hc

end Utf8
