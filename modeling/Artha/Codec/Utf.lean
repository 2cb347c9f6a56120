import Mathlib.Tactic.Basic
import Mathlib.Tactic.SplitIfs

/-!
# UTF-8 octets and UTF-16 code units

A text is a list of scalar values.  Its octets are those of `String.utf8EncodeChar`; `leadingOnes`
tells from the first octet of a character how many there are, and `decodeOctets` is the character
that they encode, if there is one.
-/

namespace Artha.Codec.Utf

/-- The UTF-8 octets of a text. -/
def utf8 (text : List Char) : List UInt8 := text.flatMap String.utf8EncodeChar

/-- The UTF-16 code units of a character. -/
def utf16Char (c : Char) : List UInt16 :=
  if c.toNat < 0x10000 then [.ofNat c.toNat]
  else
    [.ofNat (0xD800 + (c.toNat - 0x10000) / 0x400), .ofNat (0xDC00 + (c.toNat - 0x10000) % 0x400)]

/-- The UTF-16 code units of a text. -/
def utf16 (text : List Char) : List UInt16 := text.flatMap utf16Char

/-- How many of the highest bits of an octet are ones, up to five. -/
def leadingOnes (b : UInt8) : Nat :=
  if b < 0x80 then 0
  else if b < 0xC0 then 1
  else if b < 0xE0 then 2
  else if b < 0xF0 then 3
  else if b < 0xF8 then 4
  else 5

/-- The character whose encoding the octets are. -/
def decodeOctets (octets : List UInt8) : Option Char :=
  (octets.toByteArray.utf8DecodeChar? 0).filter fun c => String.utf8EncodeChar c = octets

theorem decodeOctets_eq_some_iff {octets : List UInt8} {c : Char} :
    decodeOctets octets = some c ↔ String.utf8EncodeChar c = octets := by
  constructor
  · intro h
    have hfilter := (Option.filter_eq_some_iff.mp h).2
    exact of_decide_eq_true hfilter
  · rintro rfl
    have hdecode := ByteArray.utf8DecodeChar?_utf8EncodeChar_append (b := .empty) (c := c)
    rw [ByteArray.append_empty] at hdecode
    rw [decodeOctets, hdecode, Option.filter_some, if_pos (decide_eq_true rfl)]

/-- The first octet of a character says how many there are. -/
theorem utf8EncodeChar_cases (c : Char) :
    (∃ b, String.utf8EncodeChar c = [b] ∧ leadingOnes b = 0) ∨
    (∃ b b', String.utf8EncodeChar c = [b, b'] ∧ leadingOnes b = 2) ∨
    (∃ b b' b'', String.utf8EncodeChar c = [b, b', b''] ∧ leadingOnes b = 3) ∨
    ∃ b b' b'' b''', String.utf8EncodeChar c = [b, b', b'', b'''] ∧ leadingOnes b = 4 := by
  have hone : ∀ n, n ≤ 127 → leadingOnes (.ofNat n) = 0 := by decide
  have htwo : ∀ n, n < 32 → leadingOnes (.ofNat (n + 0xc0)) = 2 := by decide
  have hthree : ∀ n, n < 16 → leadingOnes (.ofNat (n + 0xe0)) = 3 := by decide
  have hfour : ∀ n, n < 8 → leadingOnes (.ofNat (n + 0xf0)) = 4 := by decide
  unfold String.utf8EncodeChar
  dsimp only
  split_ifs with h1 h2 h3
  · exact Or.inl ⟨_, rfl, hone _ h1⟩
  · exact Or.inr (Or.inl ⟨_, _, rfl, htwo _ (Nat.mod_lt _ (by decide))⟩)
  · exact Or.inr (Or.inr (Or.inl ⟨_, _, _, rfl, hthree _ (Nat.mod_lt _ (by decide))⟩))
  · exact Or.inr (Or.inr (Or.inr ⟨_, _, _, _, rfl, hfour _ (Nat.mod_lt _ (by decide))⟩))

end Artha.Codec.Utf
