import Mathlib.Tactic.Basic
import Mathlib.Tactic.Set

/-!
# Base64

Bytes are grouped by three, each group is written as four sextets, and a sextet as a character of an
alphabet.  `toSextets` and `ofSextets` regroup the bits, without padding: a last group of one or two
bytes takes two or three sextets, with zeros at the end.  `forgivingDecode` is the decoder of the
web: white space is dropped, padding is optional, and what is left over in the last sextet is
ignored.
-/

namespace Artha.Codec.Base64

/-! ### Sextets -/

/-- The bits of the bytes, by six. -/
def toSextets : List UInt8 → List Nat
  | a :: b :: c :: bytes =>
    a.toNat / 4 :: (a.toNat % 4 * 16 + b.toNat / 16) :: (b.toNat % 16 * 4 + c.toNat / 64) ::
      c.toNat % 64 :: toSextets bytes
  | [a, b] => [a.toNat / 4, a.toNat % 4 * 16 + b.toNat / 16, b.toNat % 16 * 4]
  | [a] => [a.toNat / 4, a.toNat % 4 * 16]
  | [] => []

/-- The bits of the sextets, by eight; a single sextet is no byte. -/
def ofSextets : List Nat → List UInt8
  | a :: b :: c :: d :: sextets =>
    .ofNat (a * 4 + b / 16) :: .ofNat (b % 16 * 16 + c / 4) :: .ofNat (c % 4 * 64 + d) ::
      ofSextets sextets
  | [a, b, c] => [.ofNat (a * 4 + b / 16), .ofNat (b % 16 * 16 + c / 4)]
  | [a, b] => [.ofNat (a * 4 + b / 16)]
  | _ => []

theorem ofNat_eq_of_toNat {n : Nat} {b : UInt8} (h : n = b.toNat) : UInt8.ofNat n = b := by
  rw [h, UInt8.ofNat_toNat]

theorem ofSextets_toSextets (bytes : List UInt8) : ofSextets (toSextets bytes) = bytes := by
  induction bytes using toSextets.induct with
  | case1 a b c bytes ih =>
    have ha := a.toNat_lt
    have hb := b.toNat_lt
    have hc := c.toNat_lt
    rw [toSextets, ofSextets, ih, ofNat_eq_of_toNat (b := a) (by omega),
      ofNat_eq_of_toNat (b := b) (by omega), ofNat_eq_of_toNat (b := c) (by omega)]
  | case2 a b =>
    have ha := a.toNat_lt
    have hb := b.toNat_lt
    rw [toSextets, ofSextets, ofNat_eq_of_toNat (b := a) (by omega),
      ofNat_eq_of_toNat (b := b) (by omega)]
  | case3 a =>
    rw [toSextets, ofSextets, ofNat_eq_of_toNat (b := a) (by omega)]
  | case4 => rfl

theorem lt_of_mem_toSextets (bytes : List UInt8) : ∀ n ∈ toSextets bytes, n < 64 := by
  induction bytes using toSextets.induct with
  | case1 a b c bytes ih =>
    have ha := a.toNat_lt
    have hb := b.toNat_lt
    have hc := c.toNat_lt
    intro n hn
    simp only [toSextets, List.mem_cons] at hn
    rcases hn with rfl | rfl | rfl | rfl | hn
    · omega
    · omega
    · omega
    · omega
    · exact ih n hn
  | case2 a b =>
    have ha := a.toNat_lt
    have hb := b.toNat_lt
    intro n hn
    simp only [toSextets, List.mem_cons, List.not_mem_nil, or_false] at hn
    omega
  | case3 a =>
    have ha := a.toNat_lt
    intro n hn
    simp only [toSextets, List.mem_cons, List.not_mem_nil, or_false] at hn
    omega
  | case4 =>
    intro n hn
    cases hn

/-- No group of bytes takes a single sextet. -/
theorem length_toSextets_mod (bytes : List UInt8) : (toSextets bytes).length % 4 ≠ 1 := by
  induction bytes using toSextets.induct with
  | case1 a b c bytes ih =>
    simp only [toSextets, List.length_cons]
    omega
  | case2 a b => simp [toSextets]
  | case3 a => simp [toSextets]
  | case4 => simp [toSextets]

/-! ### Alphabets -/

/-- The characters of a sextet but the last two, which an alphabet chooses. -/
def character (plus slash : UInt16) (n : Nat) : UInt16 :=
  if n < 26 then .ofNat (65 + n)
  else if n < 52 then .ofNat (97 + (n - 26))
  else if n < 62 then .ofNat (48 + (n - 52))
  else if n = 62 then plus
  else slash

/-- The sextet of a character of the alphabet with `+` and `/`. -/
def sextet (c : UInt16) : Option Nat :=
  if 65 ≤ c ∧ c ≤ 90 then some (c.toNat - 65)
  else if 97 ≤ c ∧ c ≤ 122 then some (c.toNat - 97 + 26)
  else if 48 ≤ c ∧ c ≤ 57 then some (c.toNat - 48 + 52)
  else if c = 43 then some 62
  else if c = 47 then some 63
  else none

/-- Base64url without padding: `-` and `_` are the last two characters. -/
def encodeUrl (bytes : List UInt8) : List UInt16 := (toSextets bytes).map (character 45 95)

/-! ### The forgiving decoder -/

def isAsciiWhiteSpace (c : UInt16) : Bool := c = 9 || c = 10 || c = 12 || c = 13 || c = 32

/-- A last `=` is dropped. -/
def dropPad (s : List UInt16) : List UInt16 := if s.getLast? = some 61 then s.dropLast else s

/-- One or two `=` at the end are dropped, if with them the text has a length divisible by four. -/
def unpad (s : List UInt16) : List UInt16 :=
  if s.length % 4 = 0 then dropPad (dropPad s) else s

/-- Forgiving-base64 decode. -/
def forgivingDecode (s : List UInt16) : Option (List UInt8) :=
  let data := unpad (s.filter fun c => !isAsciiWhiteSpace c)
  if data.length % 4 = 1 then none else (data.mapM sextet).map ofSextets

theorem dropPad_of_not_mem {s : List UInt16} (h : 61 ∉ s) : dropPad s = s :=
  if_neg fun hlast => h (List.mem_of_getLast? hlast)

theorem unpad_of_not_mem {s : List UInt16} (h : 61 ∉ s) : unpad s = s := by
  rw [unpad, dropPad_of_not_mem h, dropPad_of_not_mem h, ite_self]

/-- The characters of the decoder's alphabet are neither white space nor padding. -/
theorem character_ordinary : ∀ n < 64, sextet (character 43 47 n) = some n ∧
    isAsciiWhiteSpace (character 43 47 n) = false ∧ character 43 47 n ≠ 61 := by
  decide

theorem mapM_sextet_map_character {sextets : List Nat} (h : ∀ n ∈ sextets, n < 64) :
    (sextets.map (character 43 47)).mapM sextet = some sextets := by
  induction sextets with
  | nil => rfl
  | cons n sextets ih =>
    have hn := (character_ordinary n (h n (List.mem_cons_self ..))).1
    rw [List.map_cons, List.mapM_cons, hn, ih fun m hm => h m (List.mem_cons_of_mem _ hm)]
    rfl

/-- What was written in the decoder's alphabet, without padding, is read back. -/
theorem forgivingDecode_map_character (bytes : List UInt8) :
    forgivingDecode ((toSextets bytes).map (character 43 47)) = some bytes := by
  have hlt := lt_of_mem_toSextets bytes
  set data := (toSextets bytes).map (character 43 47) with hdata
  have hfilter : data.filter (fun c => !isAsciiWhiteSpace c) = data := by
    rw [List.filter_eq_self]
    intro c hc
    obtain ⟨n, hn, rfl⟩ := List.mem_map.mp hc
    rw [(character_ordinary n (hlt n hn)).2.1]
    rfl
  have hpad : 61 ∉ data := by
    intro hc
    obtain ⟨n, hn, h61⟩ := List.mem_map.mp hc
    exact (character_ordinary n (hlt n hn)).2.2 h61
  rw [forgivingDecode, hfilter, unpad_of_not_mem hpad, mapM_sextet_map_character hlt,
    hdata, List.length_map, if_neg (length_toSextets_mod bytes), Option.map_some,
    ofSextets_toSextets]

end Artha.Codec.Base64
