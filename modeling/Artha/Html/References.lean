import Mathlib.Tactic.SplitIfs
import Artha.JavaScript.Number

/-!
# Character references

What a text of an HTML document, or the value of an attribute, denotes: a reference is replaced by
the characters it names.  A reference by name is the longest one that the table of names has, and
may lack its semicolon; in an attribute such a one is not taken before a letter, a digit or `=`.  A
reference by number takes the digits up to an optional semicolon.

The table is the browser's; a `NamedReferences` has the properties of it that are used.  No
reference is shorter than what it denotes, so that a text that denotes itself has none
(`decode_eq_self_iff`).
-/

namespace Artha.Html

open JavaScript

/-- An ASCII letter or digit. -/
def isAlphanumeric (c : UInt16) : Bool := (digitValue c).isSome

/-- The table of names, each with its semicolon if it has one. -/
structure NamedReferences where
  lookup : JsString → Option JsString
  shrinks : ∀ name text, lookup name = some text → text.length ≤ name.length
  /-- A name is a word, with or without a semicolon. -/
  word : ∀ name text, lookup name = some text →
    ∃ stem, stem ≠ [] ∧ (∀ c ∈ stem, isAlphanumeric c = true) ∧
      (name = stem ∨ name = stem ++ [59])
  /-- No text of more than one unit has `&`, an apostrophe or a backslash. -/
  single : ∀ name text, lookup name = some text →
    text.length = 1 ∨ ∀ c ∈ text, c ≠ 38 ∧ c ≠ 39 ∧ c ≠ 92
  /-- `&amp;`. -/
  amp : lookup [97, 109, 112, 59] = some [38]
  /-- `&lt;`. -/
  lt : lookup [108, 116, 59] = some [60]
  /-- `&gt;`. -/
  gt : lookup [103, 116, 59] = some [62]
  /-- `&quot;`. -/
  quot : lookup [113, 117, 111, 116, 59] = some [34]

/-- The names for the units that have a meaning in HTML. -/
def escapeNames : List (JsString × JsString) :=
  [([97, 109, 112, 59], [38]), ([108, 116, 59], [60]), ([103, 116, 59], [62]),
    ([113, 117, 111, 116, 59], [34])]

theorem escapeNames_cases {name text : JsString} (h : escapeNames.lookup name = some text) :
    text.length = 1 ∧ ∃ stem, stem ≠ [] ∧ (∀ c ∈ stem, isAlphanumeric c = true) ∧
      name = stem ++ [59] := by
  obtain ⟨pre, post, heq, -⟩ := List.lookup_eq_some_iff.mp h
  have hmem : (name, text) ∈ escapeNames := by
    rw [heq]
    simp
  simp only [escapeNames, List.mem_cons, Prod.mk.injEq, List.not_mem_nil, or_false] at hmem
  rcases hmem with ⟨rfl, rfl⟩ | ⟨rfl, rfl⟩ | ⟨rfl, rfl⟩ | ⟨rfl, rfl⟩
  · exact ⟨rfl, [97, 109, 112], by simp, by simp [isAlphanumeric, digitValue], rfl⟩
  · exact ⟨rfl, [108, 116], by simp, by simp [isAlphanumeric, digitValue], rfl⟩
  · exact ⟨rfl, [103, 116], by simp, by simp [isAlphanumeric, digitValue], rfl⟩
  · exact ⟨rfl, [113, 117, 111, 116], by simp, by simp [isAlphanumeric, digitValue], rfl⟩

/-- A table with these names alone. -/
def NamedReferences.escapes : NamedReferences where
  lookup name := escapeNames.lookup name
  shrinks := by
    intro name text h
    obtain ⟨hlength, stem, -, -, rfl⟩ := escapeNames_cases h
    simp [hlength]
  word := by
    intro name text h
    obtain ⟨-, stem, hne, hstem, hname⟩ := escapeNames_cases h
    exact ⟨stem, hne, hstem, Or.inr hname⟩
  single := fun _ _ h => Or.inl (escapeNames_cases h).1
  amp := rfl
  lt := rfl
  gt := rfl
  quot := rfl

/-! ### By number -/

/-- The code points from `0x80` on that are read as in windows-1252. -/
def windows1252 : List (Nat × UInt16) :=
  [(0x80, 0x20AC), (0x82, 0x201A), (0x83, 0x0192), (0x84, 0x201E), (0x85, 0x2026), (0x86, 0x2020),
    (0x87, 0x2021), (0x88, 0x02C6), (0x89, 0x2030), (0x8A, 0x0160), (0x8B, 0x2039), (0x8C, 0x0152),
    (0x8E, 0x017D), (0x91, 0x2018), (0x92, 0x2019), (0x93, 0x201C), (0x94, 0x201D), (0x95, 0x2022),
    (0x96, 0x2013), (0x97, 0x2014), (0x98, 0x02DC), (0x99, 0x2122), (0x9A, 0x0161), (0x9B, 0x203A),
    (0x9C, 0x0153), (0x9E, 0x017E), (0x9F, 0x0178)]

/-- What a number denotes. -/
def codePoint (n : Nat) : JsString :=
  if n = 0 ∨ 0x10FFFF < n ∨ 0xD800 ≤ n ∧ n ≤ 0xDFFF then [0xFFFD]
  else if n < 0x10000 then [(windows1252.lookup n).getD (.ofNat n)]
  else [.ofNat (0xD800 + (n - 0x10000) / 0x400), .ofNat (0xDC00 + (n - 0x10000) % 0x400)]

/-- Digits and an optional semicolon, behind the `skipped` units that select the radix: what they
denote, and how many units there are in all. -/
def digitsReference (radix skipped : Nat) (s : JsString) : Option (JsString × Nat) :=
  let digits := s.takeWhile (isDigit radix)
  let semicolon := if (s.drop digits.length).head? = some 59 then 1 else 0
  if digits = [] then none
  else some (codePoint (ofDigits radix digits), skipped + digits.length + semicolon)

/-- A reference by number, behind the `&`. -/
def numericReference : JsString → Option (JsString × Nat)
  | c :: x :: s =>
    if c = 35 then
      if x = 120 ∨ x = 88 then digitsReference 16 2 s else digitsReference 10 1 (x :: s)
    else none
  | _ => none

/-! ### References -/

section Decode

variable (names : NamedReferences)

/-- The longest name at the start of a text, of at most `n` units. -/
def longestName (s : JsString) : Nat → Option (JsString × Nat)
  | 0 => none
  | n + 1 =>
    match names.lookup (s.take (n + 1)) with
    | some text => some (text, n + 1)
    | none => longestName s n

/-- The reference at the start of a text, behind its `&`: what it denotes, and its length. -/
def reference (inValue : Bool) (s : JsString) : Option (JsString × Nat) :=
  match numericReference s with
  | some found => some found
  | none =>
    (longestName names s s.length).filter fun found =>
      !(inValue && (s.take found.2).getLast? ≠ some 59 &&
        (s.drop found.2).head?.any fun c => c = 61 || isAlphanumeric c)

/-- The characters of a text, the first `skip` units of which belong to a reference. -/
def decodeFrom (inValue : Bool) : Nat → JsString → JsString
  | _, [] => []
  | 0, c :: s =>
    if c = 38 then
      match reference names inValue s with
      | some (text, n) => text ++ decodeFrom inValue n s
      | none => c :: decodeFrom inValue 0 s
    else c :: decodeFrom inValue 0 s
  | skip + 1, _ :: s => decodeFrom inValue skip s

/-- What a text denotes. -/
def decode (inValue : Bool) (s : JsString) : JsString := decodeFrom names inValue 0 s

end Decode

/-! ### No reference is shorter than what it denotes -/

theorem length_codePoint_le (n : Nat) : (codePoint n).length ≤ 2 := by
  unfold codePoint
  split_ifs <;> simp

theorem digitsReference_bounds {radix skipped n : Nat} {s text : JsString} (hskipped : 1 ≤ skipped)
    (h : digitsReference radix skipped s = some (text, n)) :
    text.length ≤ n ∧ n ≤ skipped + s.length := by
  unfold digitsReference at h
  dsimp only at h
  split_ifs at h with hdigits hsemicolon
  · obtain ⟨rfl, rfl⟩ := Prod.mk.inj (Option.some.inj h)
    have hpos : 0 < (s.takeWhile (isDigit radix)).length := List.length_pos_iff.mpr hdigits
    have hcode := length_codePoint_le (ofDigits radix (s.takeWhile (isDigit radix)))
    have hlt : (s.takeWhile (isDigit radix)).length < s.length := by
      by_contra hnot
      rw [List.drop_eq_nil_of_le (by omega)] at hsemicolon
      cases hsemicolon
    omega
  · obtain ⟨rfl, rfl⟩ := Prod.mk.inj (Option.some.inj h)
    have hpos : 0 < (s.takeWhile (isDigit radix)).length := List.length_pos_iff.mpr hdigits
    have hcode := length_codePoint_le (ofDigits radix (s.takeWhile (isDigit radix)))
    have hle := (List.takeWhile_prefix (l := s) (isDigit radix)).length_le
    omega

theorem numericReference_bounds {n : Nat} {s text : JsString}
    (h : numericReference s = some (text, n)) : text.length ≤ n ∧ n ≤ s.length := by
  obtain _ | ⟨c, _ | ⟨x, s⟩⟩ := s
  · cases h
  · cases h
  · rw [numericReference] at h
    split_ifs at h
    · have hbounds := digitsReference_bounds (by omega) h
      simp only [List.length_cons]
      omega
    · have hbounds := digitsReference_bounds (by omega) h
      simp only [List.length_cons] at hbounds ⊢
      omega

variable {names : NamedReferences} {inValue : Bool}

theorem longestName_eq_some {s text : JsString} {bound n : Nat}
    (h : longestName names s bound = some (text, n)) :
    n ≤ bound ∧ names.lookup (s.take n) = some text := by
  induction bound with
  | zero => cases h
  | succ bound ih =>
    unfold longestName at h
    split at h
    · next text' hlookup =>
      obtain ⟨rfl, rfl⟩ := Prod.mk.inj (Option.some.inj h)
      exact ⟨le_rfl, hlookup⟩
    · obtain ⟨hle, hlookup⟩ := ih h
      exact ⟨by omega, hlookup⟩

theorem reference_bounds {s text : JsString} {n : Nat}
    (h : reference names inValue s = some (text, n)) : text.length ≤ n ∧ n ≤ s.length := by
  unfold reference at h
  split at h
  · next found hfound =>
    obtain rfl := Option.some.inj h
    exact numericReference_bounds hfound
  · obtain ⟨hname, -⟩ := Option.filter_eq_some_iff.mp h
    obtain ⟨hle, hlookup⟩ := longestName_eq_some hname
    have hshrinks := names.shrinks _ _ hlookup
    rw [List.length_take, min_eq_left hle] at hshrinks
    exact ⟨hshrinks, hle⟩

theorem length_decodeFrom_le (skip : Nat) (s : JsString) :
    (decodeFrom names inValue skip s).length ≤ s.length - skip := by
  induction s generalizing skip with
  | nil => simp [decodeFrom]
  | cons c s ih =>
    cases skip with
    | zero =>
      unfold decodeFrom
      split_ifs
      · split
        · next text n href =>
          have hbounds := reference_bounds href
          have hrest := ih n
          rw [List.length_append, List.length_cons]
          omega
        · have hrest := ih 0
          simp only [List.length_cons]
          omega
      · have hrest := ih 0
        simp only [List.length_cons]
        omega
    | succ skip =>
      have hrest := ih skip
      unfold decodeFrom
      simp only [List.length_cons]
      omega

theorem length_decode_le (s : JsString) : (decode names inValue s).length ≤ s.length :=
  length_decodeFrom_le 0 s

/-! ### What a reference is made of -/

/-- The units behind the `&`. -/
def IsReferenceUnit (c : UInt16) : Prop := isAlphanumeric c = true ∨ c = 35 ∨ c = 59

theorem isReferenceUnit_of_isDigit {radix : Nat} {c : UInt16} (hc : isDigit radix c = true) :
    IsReferenceUnit c := by
  left
  unfold isDigit at hc
  rw [isAlphanumeric]
  cases hvalue : digitValue c with
  | none =>
    rw [hvalue] at hc
    cases hc
  | some d => rfl

theorem digitsReference_units {radix skipped n : Nat} {s text : JsString}
    (h : digitsReference radix skipped s = some (text, n)) :
    ∃ m, n = skipped + m ∧ ∀ c ∈ s.take m, IsReferenceUnit c := by
  unfold digitsReference at h
  dsimp only at h
  have hdigits : ∀ c ∈ s.takeWhile (isDigit radix), IsReferenceUnit c := by
    intro c hc
    exact isReferenceUnit_of_isDigit (List.mem_takeWhile_imp hc)
  have htake : s.take (s.takeWhile (isDigit radix)).length = s.takeWhile (isDigit radix) :=
    (List.prefix_iff_eq_take.mp (List.takeWhile_prefix _)).symm
  split_ifs at h with hnone hsemicolon
  · obtain ⟨-, rfl⟩ := Prod.mk.inj (Option.some.inj h)
    refine ⟨(s.takeWhile (isDigit radix)).length + 1, by omega, ?_⟩
    rw [List.take_add_one, htake]
    intro c hc
    rcases List.mem_append.mp hc with hc | hc
    · exact hdigits c hc
    · rw [← List.head?_drop, hsemicolon] at hc
      simp at hc
      exact Or.inr (Or.inr hc)
  · obtain ⟨-, rfl⟩ := Prod.mk.inj (Option.some.inj h)
    refine ⟨(s.takeWhile (isDigit radix)).length, by omega, ?_⟩
    rw [htake]
    exact hdigits

theorem numericReference_units {n : Nat} {s text : JsString}
    (h : numericReference s = some (text, n)) : ∀ c ∈ s.take n, IsReferenceUnit c := by
  obtain _ | ⟨c, _ | ⟨x, s⟩⟩ := s
  · cases h
  · cases h
  · rw [numericReference] at h
    split_ifs at h with hnumber hx
    · obtain ⟨m, rfl, hunits⟩ := digitsReference_units h
      rw [Nat.add_comm 2 m, List.take_succ_cons, List.take_succ_cons]
      intro d hd
      rcases List.mem_cons.mp hd with rfl | hd
      · exact Or.inr (Or.inl hnumber)
      · rcases List.mem_cons.mp hd with rfl | hd
        · left
          rcases hx with rfl | rfl <;> rfl
        · exact hunits d hd
    · obtain ⟨m, rfl, hunits⟩ := digitsReference_units h
      rw [Nat.add_comm 1 m, List.take_succ_cons]
      intro d hd
      rcases List.mem_cons.mp hd with rfl | hd
      · exact Or.inr (Or.inl hnumber)
      · exact hunits d hd

theorem reference_units {s text : JsString} {n : Nat}
    (h : reference names inValue s = some (text, n)) : ∀ c ∈ s.take n, IsReferenceUnit c := by
  unfold reference at h
  split at h
  · next found hfound =>
    obtain rfl := Option.some.inj h
    exact numericReference_units hfound
  · obtain ⟨hname, -⟩ := Option.filter_eq_some_iff.mp h
    obtain ⟨-, hlookup⟩ := longestName_eq_some hname
    obtain ⟨stem, -, hstem, hword⟩ := names.word _ _ hlookup
    intro c hc
    rcases hword with heq | heq
    · rw [heq] at hc
      exact Or.inl (hstem c hc)
    · rw [heq, List.mem_append, List.mem_singleton] at hc
      rcases hc with hc | hc
      · exact Or.inl (hstem c hc)
      · exact Or.inr (Or.inr hc)

/-- A pair of units begins beyond the ASCII range. -/
theorem codePoint_single (n : Nat) :
    (codePoint n).length = 1 ∨ ∀ c ∈ codePoint n, c ≠ 38 ∧ c ≠ 39 ∧ c ≠ 92 := by
  unfold codePoint
  split_ifs with hinvalid hsmall
  · exact Or.inl rfl
  · exact Or.inl rfl
  · right
    have hunit : ∀ m, 0xD800 ≤ m → m < 0x10000 → UInt16.ofNat m ≠ 38 ∧ UInt16.ofNat m ≠ 39 ∧
        UInt16.ofNat m ≠ 92 := by
      intro m hlow hhigh
      have htoNat : (UInt16.ofNat m).toNat = m := UInt16.toNat_ofNat_of_lt' hhigh
      refine ⟨?_, ?_, ?_⟩
      all_goals
        intro heq
        rw [heq] at htoNat
        have hval := htoNat.symm
        simp at hval
        omega
    intro c hc
    simp only [List.mem_cons, List.not_mem_nil, or_false] at hc
    rcases hc with rfl | rfl
    · exact hunit _ (by omega) (by omega)
    · exact hunit _ (by omega) (by omega)

theorem digitsReference_single {radix skipped n : Nat} {s text : JsString}
    (h : digitsReference radix skipped s = some (text, n)) :
    text.length = 1 ∨ ∀ c ∈ text, c ≠ 38 ∧ c ≠ 39 ∧ c ≠ 92 := by
  unfold digitsReference at h
  dsimp only at h
  split at h
  · cases h
  · obtain ⟨rfl, -⟩ := Prod.mk.inj (Option.some.inj h)
    exact codePoint_single _

theorem reference_single {s text : JsString} {n : Nat}
    (h : reference names inValue s = some (text, n)) :
    text.length = 1 ∨ ∀ c ∈ text, c ≠ 38 ∧ c ≠ 39 ∧ c ≠ 92 := by
  unfold reference at h
  split at h
  · next found hfound =>
    obtain rfl := Option.some.inj h
    obtain _ | ⟨c, _ | ⟨x, s⟩⟩ := s
    · cases hfound
    · cases hfound
    · rw [numericReference] at hfound
      split_ifs at hfound
      · exact digitsReference_single hfound
      · exact digitsReference_single hfound
  · obtain ⟨hname, -⟩ := Option.filter_eq_some_iff.mp h
    obtain ⟨-, hlookup⟩ := longestName_eq_some hname
    exact names.single _ _ hlookup

/-- A unit that belongs to no reference stays at the end of a text. -/
theorem decodeFrom_concat {c : UInt16} (hc : ¬IsReferenceUnit c) (hamp : c ≠ 38) {skip : Nat}
    {s : JsString} (hskip : skip ≤ s.length) :
    ∃ d, decodeFrom names inValue skip (s ++ [c]) = d ++ [c] := by
  induction s generalizing skip with
  | nil =>
    obtain rfl := Nat.le_zero.mp hskip
    exact ⟨[], by simp [decodeFrom, hamp]⟩
  | cons x s ih =>
    cases skip with
    | zero =>
      obtain ⟨d, hd⟩ := ih (Nat.zero_le _)
      rw [List.cons_append]
      unfold decodeFrom
      split_ifs
      · split
        · next text n href =>
          have hle : n ≤ s.length := by
            by_contra hnot
            have hunits := reference_units href
            have hbounds := reference_bounds href
            rw [List.length_append, List.length_singleton] at hbounds
            rw [List.take_of_length_le (by simp; omega)] at hunits
            exact hc (hunits c (by simp))
          obtain ⟨d', hd'⟩ := ih hle
          exact ⟨text ++ d', by rw [hd', List.append_assoc]⟩
        · exact ⟨x :: d, by rw [hd]; rfl⟩
      · exact ⟨x :: d, by rw [hd]; rfl⟩
    | succ skip =>
      rw [List.length_cons] at hskip
      obtain ⟨d, hd⟩ := @ih skip (by omega)
      exact ⟨d, by rw [List.cons_append, decodeFrom, hd]⟩

/-! ### Texts without references -/

/-- No `&` of the text begins a reference. -/
def NoReference (names : NamedReferences) (inValue : Bool) (s : JsString) : Prop :=
  ∀ a b, s = a ++ 38 :: b → reference names inValue b = none

theorem noReference_cons {c : UInt16} {s : JsString} :
    NoReference names inValue (c :: s) ↔
      (c = 38 → reference names inValue s = none) ∧ NoReference names inValue s := by
  constructor
  · intro h
    refine ⟨?_, ?_⟩
    · rintro rfl
      exact h [] s rfl
    · rintro a b rfl
      exact h (c :: a) b rfl
  · rintro ⟨hhead, htail⟩ a b heq
    cases a with
    | nil =>
      obtain ⟨rfl, rfl⟩ := List.cons.inj heq
      exact hhead rfl
    | cons d a =>
      obtain ⟨-, hrest⟩ := List.cons.inj heq
      exact htail a b hrest

theorem decode_cons_of_ne {c : UInt16} {s : JsString} (hc : c ≠ 38) :
    decode names inValue (c :: s) = c :: decode names inValue s := by
  rw [decode, decodeFrom, if_neg hc]
  rfl

theorem decode_cons_of_none {s : JsString} (h : reference names inValue s = none) :
    decode names inValue (38 :: s) = 38 :: decode names inValue s := by
  rw [decode, decodeFrom, if_pos rfl, h]
  rfl

theorem decodeFrom_eq (n : Nat) (s : JsString) :
    decodeFrom names inValue n s = decode names inValue (s.drop n) := by
  induction s generalizing n with
  | nil => cases n <;> rfl
  | cons c s ih =>
    cases n with
    | zero => rfl
    | succ n =>
      rw [decodeFrom, List.drop_succ_cons]
      exact ih n

theorem decode_cons_of_some {s text : JsString} {n : Nat}
    (h : reference names inValue s = some (text, n)) :
    decode names inValue (38 :: s) = text ++ decode names inValue (s.drop n) := by
  rw [decode, decodeFrom, if_pos rfl, h]
  exact congrArg (text ++ ·) (decodeFrom_eq n s)

/-- A text denotes itself exactly if it has no reference. -/
theorem decode_eq_self_iff (s : JsString) :
    decode names inValue s = s ↔ NoReference names inValue s := by
  induction s with
  | nil =>
    refine iff_of_true rfl ?_
    intro a b h
    simp at h
  | cons c s ih =>
    rw [noReference_cons, ← ih]
    by_cases hc : c = 38
    · obtain rfl := hc
      cases href : reference names inValue s with
      | none => simp [decode_cons_of_none href]
      | some found =>
        refine iff_of_false ?_ (by simp)
        intro h
        have hlength := congrArg List.length h
        have hbounds := reference_bounds href
        have hrest := @length_decodeFrom_le names inValue found.2 s
        rw [decode, decodeFrom, if_pos rfl, href, List.length_append, List.length_cons] at hlength
        omega
    · simp [decode_cons_of_ne hc, hc]

/-- In the value of an attribute there are no more references than in a text. -/
theorem NoReference.of_text {s : JsString} (h : NoReference names false s) :
    NoReference names true s := by
  intro a b heq
  have hnone := h a b heq
  unfold reference at hnone ⊢
  split at hnone
  · cases hnone
  · cases hname : longestName names b b.length with
    | none => rfl
    | some found =>
      rw [hname] at hnone
      simp [Option.filter] at hnone

theorem decode_of_not_mem {s : JsString} (h : 38 ∉ s) : decode names inValue s = s := by
  rw [decode_eq_self_iff]
  rintro a b rfl
  simp at h

theorem decode_append_of_not_mem {a : JsString} (ha : 38 ∉ a) (s : JsString) :
    decode names inValue (a ++ s) = a ++ decode names inValue s := by
  induction a with
  | nil => rfl
  | cons c a ih =>
    rw [List.mem_cons, not_or] at ha
    rw [List.cons_append, decode_cons_of_ne (Ne.symm ha.1), ih ha.2, List.cons_append]

/-! ### A reference ends before other units -/

/-- A text that begins with a unit that belongs to no reference, and matters behind none. -/
def Delimits (t : JsString) : Prop :=
  ∃ c rest, t = c :: rest ∧ ¬IsReferenceUnit c ∧ c ≠ 61

theorem takeWhile_isDigit_append {t : JsString} (ht : Delimits t) (radix : Nat) (s : JsString) :
    (s ++ t).takeWhile (isDigit radix) = s.takeWhile (isDigit radix) := by
  obtain ⟨c, rest, rfl, hc, -⟩ := ht
  have hdigit : isDigit radix c = false := by
    rw [Bool.eq_false_iff]
    exact fun h => hc (isReferenceUnit_of_isDigit h)
  rw [List.takeWhile_append]
  split_ifs with hall
  · rw [List.takeWhile_cons, hdigit, List.takeWhile_prefix _ |>.eq_of_length hall]
    simp
  · rfl

theorem head_drop_append {t : JsString} (ht : Delimits t) {s : JsString} {n : Nat}
    (hn : n ≤ s.length) {p : UInt16 → Bool} (hp : ∀ c, p c = true → IsReferenceUnit c ∨ c = 61) :
    ((s ++ t).drop n).head?.any p = (s.drop n).head?.any p := by
  obtain ⟨c, rest, rfl, hc, hequals⟩ := ht
  have hfalse : p c = false := by
    rw [Bool.eq_false_iff]
    intro h
    rcases hp c h with h | h
    · exact hc h
    · exact hequals h
  rw [List.drop_append_of_le_length hn]
  cases hdrop : s.drop n with
  | nil => simp [hfalse]
  | cons d s' => rfl

theorem digitsReference_append {t : JsString} (ht : Delimits t) (radix skipped : Nat)
    (s : JsString) : digitsReference radix skipped (s ++ t) = digitsReference radix skipped s := by
  have hle : (s.takeWhile (isDigit radix)).length ≤ s.length :=
    (List.takeWhile_prefix _).length_le
  have hsemicolon := head_drop_append ht hle (p := fun c => c = 59)
    (fun c hc => Or.inl (Or.inr (Or.inr (by simpa using hc))))
  have hhead : ∀ l : JsString,
      l.head?.any (fun c => decide (c = 59)) = true ↔ l.head? = some 59 := by
    intro l
    cases l <;> simp
  have hiff : ((s ++ t).drop (s.takeWhile (isDigit radix)).length).head? = some 59 ↔
      (s.drop (s.takeWhile (isDigit radix)).length).head? = some 59 := by
    rw [← hhead, ← hhead, hsemicolon]
  unfold digitsReference
  simp only [takeWhile_isDigit_append ht, hiff]

theorem numericReference_append {t : JsString} (ht : Delimits t) (s : JsString) :
    numericReference (s ++ t) = numericReference s := by
  obtain _ | ⟨x, _ | ⟨y, s⟩⟩ := s
  · obtain ⟨c, rest, rfl, hc, -⟩ := ht
    have hne : c ≠ 35 := fun h => hc (Or.inr (Or.inl h))
    cases rest with
    | nil => rfl
    | cons d rest => simp [numericReference, hne]
  · have hnone := digitsReference_append ht 10 1 []
    obtain ⟨c, rest, rfl, hc, -⟩ := ht
    have hx : ¬(c = 120 ∨ c = 88) := by
      rintro (rfl | rfl) <;> exact hc (Or.inl rfl)
    rw [List.nil_append] at hnone
    simp only [List.cons_append, List.nil_append, numericReference, if_neg hx, hnone]
    simp [digitsReference]
  · have hradix := digitsReference_append ht 10 1 (y :: s)
    rw [List.cons_append] at hradix
    simp only [List.cons_append, numericReference, hradix, digitsReference_append ht]

theorem longestName_append {t : JsString} (ht : Delimits t) {s : JsString} {bound : Nat}
    (hbound : bound ≤ (s ++ t).length) :
    longestName names (s ++ t) bound = longestName names s (min bound s.length) := by
  induction bound with
  | zero => rfl
  | succ bound ih =>
    rcases Nat.lt_or_ge bound s.length with hlt | hge
    · rw [min_eq_left (by omega), longestName, longestName,
        List.take_append_of_le_length (by omega), ih (by omega), min_eq_left (by omega)]
    · have hnone : names.lookup ((s ++ t).take (bound + 1)) = none := by
        by_contra hsome
        obtain ⟨text, htext⟩ := Option.ne_none_iff_exists'.mp hsome
        obtain ⟨stem, -, hstem, hname⟩ := names.word _ _ htext
        obtain ⟨c, rest, rfl, hc, -⟩ := ht
        have hmem : c ∈ (s ++ c :: rest).take (bound + 1) := by
          rw [List.take_append, show bound + 1 - s.length = bound - s.length + 1 by omega,
            List.take_succ_cons]
          simp
        rcases hname with heq | heq
        · rw [heq] at hmem
          exact hc (Or.inl (hstem c hmem))
        · rw [heq, List.mem_append, List.mem_singleton] at hmem
          rcases hmem with hmem | hmem
          · exact hc (Or.inl (hstem c hmem))
          · exact hc (Or.inr (Or.inr hmem))
      rw [longestName, hnone, min_eq_right (by omega)]
      dsimp only
      rw [ih (by omega), min_eq_right hge]

theorem reference_append {t : JsString} (ht : Delimits t) (s : JsString) :
    reference names inValue (s ++ t) = reference names inValue s := by
  unfold reference
  rw [numericReference_append ht, longestName_append ht le_rfl,
    min_eq_right (by rw [List.length_append]; omega)]
  cases hnumeric : numericReference s with
  | some found => rfl
  | none =>
    cases hname : longestName names s s.length with
    | none => rfl
    | some found =>
      obtain ⟨text, n⟩ := found
      obtain ⟨hle, -⟩ := longestName_eq_some hname
      have hhead := head_drop_append ht hle (p := fun c => c = 61 || isAlphanumeric c) (by
        intro c hc
        rcases Bool.or_eq_true_iff.mp hc with h | h
        · exact Or.inr (by simpa using h)
        · exact Or.inl (Or.inl h))
      simp only [Option.filter, List.take_append_of_le_length hle, hhead]

theorem decode_append {t : JsString} (ht : Delimits t) (s : JsString) :
    decode names inValue (s ++ t) = decode names inValue s ++ decode names inValue t := by
  induction hn : s.length using Nat.strong_induction_on generalizing s with
  | _ n ih =>
    cases s with
    | nil => rfl
    | cons c s =>
      rw [List.length_cons] at hn
      have hrest := ih s.length (by omega) s rfl
      by_cases hc : c = 38
      · obtain rfl := hc
        cases href : reference names inValue s with
        | none =>
          rw [List.cons_append, decode_cons_of_none (by rw [reference_append ht, href]),
            decode_cons_of_none href, hrest, List.cons_append]
        | some found =>
          obtain ⟨text, m⟩ := found
          have hbounds := reference_bounds href
          have hdrop := ih (s.drop m).length (by rw [List.length_drop]; omega) (s.drop m) rfl
          rw [List.cons_append, decode_cons_of_some (by rw [reference_append ht, href]),
            decode_cons_of_some href, List.drop_append_of_le_length hbounds.2, hdrop,
            List.append_assoc]
      · rw [List.cons_append, decode_cons_of_ne hc, decode_cons_of_ne hc, hrest, List.cons_append]

/-! ### Escaped texts -/

theorem decode_of_reference {a s text : JsString}
    (h : reference names inValue (a ++ s) = some (text, a.length)) :
    decode names inValue (38 :: (a ++ s)) = text ++ decode names inValue s := by
  rw [decode_cons_of_some h, List.drop_left]

/-- No name goes on behind a semicolon. -/
theorem lookup_eq_none {stem rest : JsString} (hrest : rest ≠ []) :
    names.lookup (stem ++ 59 :: rest) = none := by
  by_contra hsome
  obtain ⟨text, htext⟩ := Option.ne_none_iff_exists'.mp hsome
  obtain ⟨word, -, hword, hname⟩ := names.word _ _ htext
  have hmem : 59 ∈ word := by
    rcases hname with heq | heq
    · rw [← heq]
      simp
    · have hlast := congrArg List.dropLast heq
      rw [List.dropLast_concat, List.dropLast_append_of_ne_nil (by simp),
        List.dropLast_cons_of_ne_nil hrest] at hlast
      rw [← hlast]
      simp
  exact absurd (hword 59 hmem) (by decide)

/-- A name with its semicolon is the longest one, whatever follows. -/
theorem longestName_semicolon {stem rest text : JsString}
    (h : names.lookup (stem ++ [59]) = some text) {bound : Nat} (hlow : stem.length + 1 ≤ bound)
    (hhigh : bound ≤ (stem ++ 59 :: rest).length) :
    longestName names (stem ++ 59 :: rest) bound = some (text, stem.length + 1) := by
  induction bound, hlow using Nat.le_induction with
  | base =>
    have htake : (stem ++ 59 :: rest).take (stem.length + 1) = stem ++ [59] := by
      simp [List.take_append]
    rw [longestName, htake, h]
  | succ bound hlow ih =>
    obtain ⟨k, rfl⟩ := Nat.exists_eq_add_of_le hlow
    have htake : (stem ++ 59 :: rest).take (stem.length + 1 + k + 1) =
        stem ++ 59 :: rest.take (k + 1) := by
      rw [List.take_append, List.take_of_length_le (by omega),
        show stem.length + 1 + k + 1 - stem.length = k + 1 + 1 by omega, List.take_succ_cons]
    have hne : rest.take (k + 1) ≠ [] := by
      intro hnil
      have hlength := congrArg List.length hnil
      simp only [List.length_append, List.length_cons] at hhigh
      rw [List.length_take, List.length_nil] at hlength
      omega
    rw [longestName, htake, lookup_eq_none hne]
    exact ih (by omega)

theorem decode_named {c : UInt16} {w rest text : JsString} (hc : c ≠ 35)
    (h : names.lookup (c :: w ++ [59]) = some text) :
    decode names false (38 :: (c :: w ++ 59 :: rest)) = text ++ decode names false rest := by
  have hnumeric : numericReference (c :: w ++ 59 :: rest) = none := by
    cases w with
    | nil => simp [numericReference, hc]
    | cons d w => simp [numericReference, hc]
  have hlongest : longestName names (c :: w ++ 59 :: rest) (c :: w ++ 59 :: rest).length =
      some (text, (c :: w).length + 1) :=
    longestName_semicolon h (by simp) le_rfl
  have href : reference names false (c :: w ++ [59] ++ rest) =
      some (text, (c :: w ++ [59]).length) := by
    rw [List.append_assoc, List.singleton_append, reference, hnumeric, hlongest]
    simp
  have hdecode := decode_of_reference href
  rw [List.append_assoc, List.singleton_append] at hdecode
  exact hdecode

/-- The reference that a unit is written as, where it would mean something else. -/
def escapeUnit (c : UInt16) : JsString :=
  if c = 38 then [38, 97, 109, 112, 59]
  else if c = 60 then [38, 108, 116, 59]
  else if c = 62 then [38, 103, 116, 59]
  else if c = 34 then [38, 113, 117, 111, 116, 59]
  else if c = 39 then [38, 35, 48, 51, 57, 59]
  else [c]

theorem decode_apostrophe (s : JsString) :
    decode names false (38 :: 35 :: 48 :: 51 :: 57 :: 59 :: s) = 39 :: decode names false s := by
  have href : reference names false ([35, 48, 51, 57, 59] ++ s) = some ([39], 5) := by
    have htake : (48 :: 51 :: 57 :: 59 :: s).takeWhile (isDigit 10) = [48, 51, 57] := by
      simp only [List.takeWhile_cons]
      rfl
    rw [reference]
    simp only [List.cons_append, List.nil_append, numericReference, digitsReference, htake]
    rfl
  exact decode_of_reference (a := [35, 48, 51, 57, 59]) href

/-- An escaped text denotes the text. -/
theorem decode_flatMap_escapeUnit (s : JsString) :
    decode names false (s.flatMap escapeUnit) = s := by
  induction s with
  | nil => rfl
  | cons c s ih =>
    rw [List.flatMap_cons, escapeUnit]
    split_ifs with hamp hlt hgt hquot hapos
    · rw [hamp]
      exact (decode_named (w := [109, 112]) (by decide) names.amp).trans
        (congrArg (38 :: ·) ih)
    · rw [hlt]
      exact (decode_named (w := [116]) (by decide) names.lt).trans (congrArg (60 :: ·) ih)
    · rw [hgt]
      exact (decode_named (w := [116]) (by decide) names.gt).trans (congrArg (62 :: ·) ih)
    · rw [hquot]
      exact (decode_named (w := [117, 111, 116]) (by decide) names.quot).trans
        (congrArg (34 :: ·) ih)
    · rw [hapos]
      exact (decode_apostrophe _).trans (congrArg (39 :: ·) ih)
    · rw [List.singleton_append, decode_cons_of_ne hamp, ih]

end Artha.Html
