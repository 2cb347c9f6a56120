import Mathlib.Tactic.SplitIfs
import Artha.JavaScript.Json

/-!
# `JSON.parse`

`parse` reads a text by recursive descent; of the fields with one name the last one counts, so an
object lists them backwards.  The fuel of `parseValue` bounds how deep the values are nested and how
many of them a list has, and the length of the text is always enough (`parseValue_eq_of_le`).

`marks` counts `&` and `'` in a text, also where they are written as `\u0026` and `\u0027`: no text
denotes more of them than it has (`valueMarks_le_of_parse`).
-/

namespace Artha.JavaScript

open Binary64

namespace Json

/-! ### Tokens -/

/-- White space between tokens. -/
def isSpace (c : UInt16) : Bool := c = 9 || c = 10 || c = 13 || c = 32

def skipSpace (s : JsString) : JsString := s.dropWhile isSpace

/-- What a backslash and a letter stand for. -/
def simpleEscape (c : UInt16) : Option UInt16 :=
  if c = 34 ∨ c = 92 ∨ c = 47 then some c
  else if c = 98 then some 8
  else if c = 102 then some 12
  else if c = 110 then some 10
  else if c = 114 then some 13
  else if c = 116 then some 9
  else none

/-- A string from behind its first quote on, and what follows the second one. -/
def parseString : JsString → Option (JsString × JsString)
  | [] => none
  | c :: s =>
    if c = 34 then some ([], s)
    else if c < 32 then none
    else if c = 92 then
      match s with
      | [] => none
      | x :: s =>
        if x = 117 then
          match s with
          | d₁ :: d₂ :: d₃ :: d₄ :: s =>
            if [d₁, d₂, d₃, d₄].all (isDigit 16) then
              (parseString s).map fun r => (.ofNat (ofDigits 16 [d₁, d₂, d₃, d₄]) :: r.1, r.2)
            else none
          | _ => none
        else
          (simpleEscape x).bind fun y => (parseString s).map fun r => (y :: r.1, r.2)
    else (parseString s).map fun r => (c :: r.1, r.2)

/-- The digits behind a point, if there is one. -/
def parseFraction : JsString → Option (JsString × JsString)
  | [] => some ([], [])
  | c :: s =>
    if c = 46 then
      if s.takeWhile (isDigit 10) = [] then none
      else some (s.takeWhile (isDigit 10), s.dropWhile (isDigit 10))
    else some ([], c :: s)

/-- The exponent, if there is one. -/
def parseExponent : JsString → Option (ℤ × JsString)
  | [] => some (0, [])
  | c :: s =>
    if c = 101 ∨ c = 69 then
      let digits := (sign s).2.takeWhile (isDigit 10)
      if digits = [] then none
      else
        some (if (sign s).1 then -(ofDigits 10 digits) else ofDigits 10 digits,
          (sign s).2.dropWhile (isDigit 10))
    else some (0, c :: s)

/-- A number without its sign; it begins with a zero only if that is all there is before the
point. -/
def parseUnsigned (negative : Bool) (s : JsString) : Option (Number × JsString) :=
  let whole := s.takeWhile (isDigit 10)
  if whole = [] ∨ whole.head? = some 48 ∧ whole ≠ [48] then none
  else do
    let (fraction, rest) ← parseFraction (s.dropWhile (isDigit 10))
    let (e, rest) ← parseExponent rest
    some (.ofRat (signed negative
      ((ofDigits 10 (whole ++ fraction) : ℚ) * 10 ^ (e - fraction.length))), rest)

def parseNumber : JsString → Option (Number × JsString)
  | [] => none
  | c :: s => if c = 45 then parseUnsigned true s else parseUnsigned false (c :: s)

/-! ### Values -/

/-- `null`, `true` and `false`. -/
def literals : List (JsString × Json) :=
  [([110, 117, 108, 108], .null), ([116, 114, 117, 101], .bool true),
    ([102, 97, 108, 115, 101], .bool false)]

/-- A value that is neither a string nor an array nor an object. -/
def parseScalar (s : JsString) : Option (Json × JsString) :=
  match literals.find? fun p => p.1.isPrefixOf s with
  | some (word, v) => some (v, s.drop word.length)
  | none => (parseNumber s).map fun r => (.number r.1, r.2)

/-- Items with commas between them, up to the closing bracket; at most `n`. -/
def parseItems {α : Type} (item : JsString → Option (α × JsString)) (close : UInt16) :
    Nat → JsString → Option (List α × JsString)
  | 0, _ => none
  | n + 1, s => do
    let (v, rest) ← item s
    match skipSpace rest with
    | [] => none
    | c :: rest =>
      if c = close then some ([v], rest)
      else if c = 44 then (parseItems item close n rest).map fun r => (v :: r.1, r.2)
      else none

/-- Items as before, or none of them. -/
def parseList {α : Type} (item : JsString → Option (α × JsString)) (close : UInt16) (n : Nat)
    (s : JsString) : Option (List α × JsString) :=
  if (skipSpace s).head? = some close then some ([], (skipSpace s).tail)
  else parseItems item close n s

/-- The text behind one unit, which is the next one after white space. -/
def expect (c : UInt16) (s : JsString) : Option JsString :=
  if (skipSpace s).head? = some c then some (skipSpace s).tail else none

/-- A field of an object. -/
def parseMember (value : JsString → Option (Json × JsString)) (s : JsString) :
    Option ((JsString × Json) × JsString) := do
  let rest ← expect 34 s
  let (key, rest) ← parseString rest
  let rest ← expect 58 rest
  let (v, rest) ← value rest
  some ((key, v), rest)

/-- A value after white space, and what follows it. -/
def parseValue : Nat → JsString → Option (Json × JsString)
  | 0, _ => none
  | fuel + 1, s =>
    match skipSpace s with
    | [] => none
    | c :: rest =>
      if c = 34 then (parseString rest).map fun r => (.string r.1, r.2)
      else if c = 91 then
        (parseList (parseValue fuel) 93 fuel rest).map fun r => (.array r.1, r.2)
      else if c = 123 then
        (parseList (parseMember (parseValue fuel)) 125 fuel rest).map fun r =>
          (.object r.1.reverse, r.2)
      else parseScalar (c :: rest)

/-- `JSON.parse(s)`; none is a `SyntaxError`. -/
def parse (s : JsString) : Option Json :=
  (parseValue s.length s).bind fun r => if skipSpace r.2 = [] then some r.1 else none

end Json

/-! ### Counting through escapes -/

/-- `&` and `'`. -/
def isMark (c : UInt16) : Bool := c = 38 || c = 39

/-- Four hexadecimal digits that stand for a mark. -/
def isMarkCode (s : JsString) : Bool :=
  s.length = 4 && s.all (isDigit 16) && isMark (.ofNat (ofDigits 16 s))

/-- The marks that a text can denote, where it is read behind a backslash or not. -/
def marks : Bool → JsString → Nat
  | _, [] => 0
  | false, c :: s => if c = 92 then marks true s else (if isMark c then 1 else 0) + marks false s
  | true, c :: s => (if c = 117 ∧ isMarkCode (s.take 4) then 1 else 0) + marks false s

theorem marks_cons_of_ne {c : UInt16} (hc : c ≠ 92) (s : JsString) :
    marks false (c :: s) = (if isMark c then 1 else 0) + marks false s := by
  rw [marks, if_neg hc]

/-- A unit that is read as it is and is no mark. -/
def Neutral (c : UInt16) : Prop := c ≠ 92 ∧ isMark c = false

theorem marks_append_of_neutral {a : JsString} (ha : ∀ c ∈ a, Neutral c) (s : JsString) :
    marks false (a ++ s) = marks false s := by
  induction a with
  | nil => rfl
  | cons c a ih =>
    obtain ⟨hescape, hmark⟩ := ha c List.mem_cons_self
    rw [List.cons_append, marks_cons_of_ne hescape, hmark, ih fun d hd => ha d (by simp [hd])]
    simp

theorem not_isMark_of_ne {c : UInt16} (hamp : c ≠ 38) (hapos : c ≠ 39) : isMark c = false := by
  simp [isMark, hamp, hapos]

/-- What differs from the units that count is neutral. -/
theorem neutral_of_apply {p : UInt16 → Bool} {c : UInt16} (hc : p c = true)
    (hescape : p 92 = false) (hamp : p 38 = false) (hapos : p 39 = false) : Neutral c := by
  refine ⟨?_, not_isMark_of_ne ?_ ?_⟩
  · rintro rfl
    rw [hescape] at hc
    cases hc
  · rintro rfl
    rw [hamp] at hc
    cases hc
  · rintro rfl
    rw [hapos] at hc
    cases hc

theorem neutral_of_isDigit {radix : Nat} {c : UInt16} (hc : isDigit radix c = true) : Neutral c :=
  neutral_of_apply hc rfl rfl rfl

/-- `rest` is a proper suffix of `s`, and the part before it denotes at most the marks that it
has. -/
structure Reads (k : Nat) (s rest : JsString) : Prop where
  shorter : rest.length < s.length
  marks_le : k + marks false rest ≤ marks false s

namespace Reads

variable {k l : Nat} {s t rest : JsString}

theorem mono (h : Reads k s rest) (hle : l ≤ k) : Reads l s rest where
  shorter := h.shorter
  marks_le := by
    have hmarks := h.marks_le
    omega

theorem trans (h : Reads k s t) (h' : Reads l t rest) : Reads (k + l) s rest where
  shorter := by
    have hfirst := h.shorter
    have hsecond := h'.shorter
    omega
  marks_le := by
    have hfirst := h.marks_le
    have hsecond := h'.marks_le
    omega

theorem cons {c : UInt16} (hc : c ≠ 92) (s : JsString) :
    Reads (if isMark c then 1 else 0) (c :: s) s where
  shorter := by simp
  marks_le := by rw [marks_cons_of_ne hc]

theorem escape (x : UInt16) (s : JsString) : Reads 0 (92 :: x :: s) s where
  shorter := by
    simp only [List.length_cons]
    omega
  marks_le := by
    rw [marks, if_pos rfl, marks]
    omega

theorem code {digits : JsString} (hlength : digits.length = 4) (hdigits : digits.all (isDigit 16))
    (s : JsString) :
    Reads (if isMark (.ofNat (ofDigits 16 digits)) then 1 else 0) (92 :: 117 :: (digits ++ s)) s
    where
  shorter := by
    simp only [List.length_cons, List.length_append]
    omega
  marks_le := by
    have htake : (digits ++ s).take 4 = digits := by rw [← hlength, List.take_left]
    have hneutral : ∀ c ∈ digits, Neutral c := by
      intro c hc
      exact neutral_of_isDigit (List.all_eq_true.mp hdigits c hc)
    rw [marks, if_pos rfl, marks, htake, marks_append_of_neutral hneutral]
    simp [isMarkCode, hlength, hdigits]

theorem append {a : JsString} (hne : a ≠ []) (ha : ∀ c ∈ a, Neutral c) (s : JsString) :
    Reads 0 (a ++ s) s where
  shorter := by
    have hpos := List.length_pos_iff.mpr hne
    rw [List.length_append]
    omega
  marks_le := by rw [marks_append_of_neutral ha, Nat.zero_add]

end Reads

namespace Json

theorem neutral_of_isSpace {c : UInt16} (hc : isSpace c = true) : Neutral c :=
  neutral_of_apply hc rfl rfl rfl

theorem length_skipSpace_le (s : JsString) : (skipSpace s).length ≤ s.length :=
  (List.dropWhile_suffix isSpace).length_le

theorem marks_skipSpace (s : JsString) : marks false (skipSpace s) = marks false s := by
  have hsplit : s.takeWhile isSpace ++ skipSpace s = s := List.takeWhile_append_dropWhile
  have hspace : ∀ c ∈ s.takeWhile isSpace, Neutral c := by
    intro c hc
    exact neutral_of_isSpace (List.mem_takeWhile_imp hc)
  rw [← marks_append_of_neutral hspace, hsplit]

theorem reads_of_skipSpace {k : Nat} {s rest : JsString} (h : Reads k (skipSpace s) rest) :
    Reads k s rest where
  shorter := h.shorter.trans_le (length_skipSpace_le s)
  marks_le := by
    rw [← marks_skipSpace s]
    exact h.marks_le

theorem reads_tail {c : UInt16} (hc : c ≠ 92) {s : JsString}
    (h : (skipSpace s).head? = some c) : Reads 0 s (skipSpace s).tail := by
  obtain ⟨rest, hrest⟩ := List.head?_eq_some_iff.mp h
  refine reads_of_skipSpace ?_
  rw [hrest]
  exact (Reads.cons hc rest).mono (Nat.zero_le _)

theorem reads_expect {c : UInt16} (hc : c ≠ 92) {s rest : JsString}
    (h : expect c s = some rest) : Reads 0 s rest := by
  unfold expect at h
  split_ifs at h with hhead
  obtain rfl := Option.some.inj h
  exact reads_tail hc hhead

/-- No escape by a letter stands for a mark. -/
theorem isMark_of_simpleEscape {x c : UInt16} (h : simpleEscape x = some c) :
    isMark c = false := by
  unfold simpleEscape at h
  split_ifs at h with hself
  all_goals obtain rfl := Option.some.inj h
  · rcases hself with rfl | rfl | rfl <;> decide
  all_goals decide

/-- One unit of a string has been read, and the rest of it. -/
theorem reads_map {c : UInt16} {s t w rest : JsString}
    (hunit : Reads (if isMark c then 1 else 0) s t)
    (ih : ∀ {w rest : JsString}, parseString t = some (w, rest) → Reads (w.countP isMark) t rest)
    (h : (parseString t).map (fun r => (c :: r.1, r.2)) = some (w, rest)) :
    Reads (w.countP isMark) s rest := by
  obtain ⟨⟨w', rest'⟩, hrest, heq⟩ := Option.map_eq_some_iff.mp h
  dsimp only at heq
  obtain ⟨rfl, rfl⟩ := Prod.mk.inj heq
  refine (hunit.trans (ih hrest)).mono ?_
  rw [List.countP_cons]
  omega

theorem reads_parseString {s w rest : JsString} (h : parseString s = some (w, rest)) :
    Reads (w.countP isMark) s rest := by
  fun_induction parseString s generalizing w rest with
  | case1 => cases h
  | case2 s =>
    obtain ⟨rfl, rfl⟩ := Prod.mk.inj (Option.some.inj h)
    exact Reads.cons (c := 34) (by decide) s
  | case3 => cases h
  | case4 => cases h
  | case5 d₁ d₂ d₃ d₄ s hdigits _ _ ih =>
    exact reads_map (@Reads.code [d₁, d₂, d₃, d₄] rfl hdigits s) ih h
  | case6 => cases h
  | case7 => cases h
  | case8 x s _ _ _ ih =>
    obtain ⟨c, hc, hmap⟩ := Option.bind_eq_some_iff.mp h
    refine reads_map ?_ ih hmap
    rw [isMark_of_simpleEscape hc]
    exact .escape x s
  | case9 c s _ _ hescape ih => exact reads_map (.cons hescape s) ih h

/-! ### What a number reads -/

/-- `rest` follows some digits, signs, points and letters in `s`. -/
def Follows (s rest : JsString) : Prop := ∃ a, (∀ c ∈ a, Neutral c) ∧ s = a ++ rest

theorem Follows.refl (s : JsString) : Follows s s := ⟨[], by simp, rfl⟩

theorem Follows.trans {s t rest : JsString} (h : Follows s t) (h' : Follows t rest) :
    Follows s rest := by
  obtain ⟨a, ha, rfl⟩ := h
  obtain ⟨b, hb, rfl⟩ := h'
  refine ⟨a ++ b, ?_, (List.append_assoc a b rest).symm⟩
  intro c hc
  rcases List.mem_append.mp hc with hc | hc
  · exact ha c hc
  · exact hb c hc

theorem Follows.cons {c : UInt16} (hc : Neutral c) (s : JsString) : Follows (c :: s) s :=
  ⟨[c], by simpa using hc, rfl⟩

theorem follows_dropWhile (s : JsString) : Follows s (s.dropWhile (isDigit 10)) := by
  refine ⟨s.takeWhile (isDigit 10), ?_, List.takeWhile_append_dropWhile.symm⟩
  intro c hc
  exact neutral_of_isDigit (List.mem_takeWhile_imp hc)

theorem follows_sign (s : JsString) : Follows s (sign s).2 := by
  cases s with
  | nil => exact .refl []
  | cons c s =>
    rw [sign]
    split_ifs with hminus hplus
    · exact .cons ⟨by simp [hminus], by rw [hminus]; rfl⟩ s
    · exact .cons ⟨by simp [hplus], by rw [hplus]; rfl⟩ s
    · exact .refl _

theorem follows_parseFraction {s digits rest : JsString}
    (h : parseFraction s = some (digits, rest)) : Follows s rest := by
  cases s with
  | nil =>
    obtain ⟨rfl, rfl⟩ := Prod.mk.inj (Option.some.inj h)
    exact .refl []
  | cons c s =>
    rw [parseFraction] at h
    split_ifs at h with hpoint
    · obtain ⟨rfl, rfl⟩ := Prod.mk.inj (Option.some.inj h)
      rw [hpoint]
      exact (Follows.cons ⟨by decide, rfl⟩ s).trans (follows_dropWhile s)
    · obtain ⟨rfl, rfl⟩ := Prod.mk.inj (Option.some.inj h)
      exact .refl _

theorem follows_parseExponent {s rest : JsString} {e : ℤ}
    (h : parseExponent s = some (e, rest)) : Follows s rest := by
  cases s with
  | nil =>
    obtain ⟨rfl, rfl⟩ := Prod.mk.inj (Option.some.inj h)
    exact .refl []
  | cons c s =>
    rw [parseExponent] at h
    dsimp only at h
    split at h
    · next hletter =>
      have hc : Neutral c := by
        rcases hletter with rfl | rfl <;> exact ⟨by decide, rfl⟩
      split at h
      · cases h
      · obtain ⟨-, rfl⟩ := Prod.mk.inj (Option.some.inj h)
        exact (Follows.cons hc s).trans ((follows_sign s).trans (follows_dropWhile _))
    · obtain ⟨rfl, rfl⟩ := Prod.mk.inj (Option.some.inj h)
      exact .refl _

theorem reads_parseUnsigned {negative : Bool} {s rest : JsString} {x : Number}
    (h : parseUnsigned negative s = some (x, rest)) : Reads 0 s rest := by
  unfold parseUnsigned at h
  dsimp only at h
  split_ifs at h with hwhole
  obtain ⟨⟨fraction, rest₁⟩, hfraction, h⟩ := Option.bind_eq_some_iff.mp h
  obtain ⟨⟨e, rest₂⟩, hexponent, h⟩ := Option.bind_eq_some_iff.mp h
  obtain ⟨-, rfl⟩ := Prod.mk.inj (Option.some.inj h)
  obtain ⟨a, ha, hrest⟩ :=
    (follows_parseFraction hfraction).trans (follows_parseExponent hexponent)
  have hdigits : ∀ c ∈ s.takeWhile (isDigit 10), Neutral c := by
    intro c hc
    exact neutral_of_isDigit (List.mem_takeWhile_imp hc)
  have hsplit : s = s.takeWhile (isDigit 10) ++ a ++ rest₂ := by
    rw [List.append_assoc, ← hrest, List.takeWhile_append_dropWhile]
  rw [hsplit]
  refine .append ?_ ?_ rest₂
  · intro hnil
    exact hwhole (Or.inl (List.append_eq_nil_iff.mp hnil).1)
  · intro c hc
    rcases List.mem_append.mp hc with hc | hc
    · exact hdigits c hc
    · exact ha c hc

theorem reads_parseNumber {s rest : JsString} {x : Number}
    (h : parseNumber s = some (x, rest)) : Reads 0 s rest := by
  cases s with
  | nil => cases h
  | cons c s =>
    rw [parseNumber] at h
    split_ifs at h with hminus
    · rw [hminus]
      exact (Reads.append (a := [45]) (by simp) (by simpa using ⟨by decide, rfl⟩) s).trans
        (reads_parseUnsigned h)
    · exact reads_parseUnsigned h

/-! ### What a value reads -/

/-- The sum of the weights of a list. -/
def total {α : Type} (weight : α → Nat) (l : List α) : Nat := l.foldr (fun v k => weight v + k) 0

@[simp] theorem total_nil {α : Type} (weight : α → Nat) : total weight [] = 0 := rfl

@[simp] theorem total_cons {α : Type} (weight : α → Nat) (v : α) (l : List α) :
    total weight (v :: l) = weight v + total weight l := rfl

theorem total_append {α : Type} (weight : α → Nat) (l l' : List α) :
    total weight (l ++ l') = total weight l + total weight l' := by
  induction l with
  | nil => simp
  | cons v l ih =>
    rw [List.cons_append, total_cons, total_cons, ih]
    omega

theorem total_reverse {α : Type} (weight : α → Nat) (l : List α) :
    total weight l.reverse = total weight l := by
  induction l with
  | nil => rfl
  | cons v l ih =>
    rw [List.reverse_cons, total_append, ih, total_cons, total_cons, total_nil]
    omega

/-- The marks of a string. -/
def stringMarks : Json → Nat
  | .string w => w.countP isMark
  | _ => 0

/-- The marks of a name and of the string behind it. -/
def fieldMarks (field : JsString × Json) : Nat := field.1.countP isMark + stringMarks field.2

/-- The marks of a string, or of the names and strings of an object. -/
def valueMarks : Json → Nat
  | .object fields => total fieldMarks fields
  | v => stringMarks v

theorem stringMarks_le (v : Json) : stringMarks v ≤ valueMarks v := by
  cases v with
  | object fields => exact Nat.zero_le _
  | _ => exact le_rfl

theorem reads_parseScalar {s rest : JsString} {v : Json} (h : parseScalar s = some (v, rest)) :
    Reads (valueMarks v) s rest := by
  unfold parseScalar at h
  split at h
  · next word v' hfind =>
    obtain ⟨rfl, rfl⟩ := Prod.mk.inj (Option.some.inj h)
    have hword : word.isPrefixOf s = true := by simpa using List.find?_some hfind
    obtain ⟨rest, rfl⟩ := List.isPrefixOf_iff_prefix.mp hword
    rw [List.drop_left]
    have hmem := List.mem_of_find?_eq_some hfind
    simp only [literals, List.mem_cons, Prod.mk.injEq, List.not_mem_nil, or_false] at hmem
    rcases hmem with ⟨rfl, rfl⟩ | ⟨rfl, rfl⟩ | ⟨rfl, rfl⟩
    all_goals
      refine .append (by simp) ?_ rest
      simp only [List.forall_mem_cons]
    · exact ⟨⟨by decide, rfl⟩, ⟨by decide, rfl⟩, ⟨by decide, rfl⟩, ⟨by decide, rfl⟩, by simp⟩
    · exact ⟨⟨by decide, rfl⟩, ⟨by decide, rfl⟩, ⟨by decide, rfl⟩, ⟨by decide, rfl⟩, by simp⟩
    · exact ⟨⟨by decide, rfl⟩, ⟨by decide, rfl⟩, ⟨by decide, rfl⟩, ⟨by decide, rfl⟩,
        ⟨by decide, rfl⟩, by simp⟩
  · obtain ⟨⟨x, rest'⟩, hnumber, heq⟩ := Option.map_eq_some_iff.mp h
    obtain ⟨rfl, rfl⟩ := Prod.mk.inj heq
    exact reads_parseNumber hnumber

section Items

variable {α : Type} {item : JsString → Option (α × JsString)} {weight : α → Nat} {close : UInt16}

/-- An item, and the unit behind it. -/
theorem parseItems_eq_some {n : Nat} {s rest : JsString} {l : List α}
    (h : parseItems item close (n + 1) s = some (l, rest)) :
    ∃ v t, item s = some (v, t) ∧
      ((skipSpace t = close :: rest ∧ l = [v]) ∨
        ∃ t' l', skipSpace t = 44 :: t' ∧ parseItems item close n t' = some (l', rest) ∧
          l = v :: l') := by
  obtain ⟨⟨v, t⟩, hitem, h⟩ := Option.bind_eq_some_iff.mp h
  refine ⟨v, t, hitem, ?_⟩
  dsimp only at h
  split at h
  · cases h
  · next c t' hskip =>
    split_ifs at h with hclose hcomma
    · obtain ⟨rfl, rfl⟩ := Prod.mk.inj (Option.some.inj h)
      exact Or.inl ⟨by rw [hskip, hclose], rfl⟩
    · obtain ⟨⟨l', rest'⟩, hrest, heq⟩ := Option.map_eq_some_iff.mp h
      obtain ⟨rfl, rfl⟩ := Prod.mk.inj heq
      exact Or.inr ⟨t', l', by rw [hskip, hcomma], hrest, rfl⟩

/-- The last item. -/
theorem parseItems_close {s t rest : JsString} {v : α} (hitem : item s = some (v, t))
    (hskip : skipSpace t = close :: rest) (n : Nat) :
    parseItems item close (n + 1) s = some ([v], rest) := by
  rw [parseItems, hitem]
  simp only [Option.bind_eq_bind, Option.bind_some, hskip, if_true]

/-- An item before another one. -/
theorem parseItems_comma (hclose : close ≠ 44) {s t rest : JsString} {v : α}
    (hitem : item s = some (v, t)) (hskip : skipSpace t = 44 :: rest) (n : Nat) :
    parseItems item close (n + 1) s =
      (parseItems item close n rest).map fun r => (v :: r.1, r.2) := by
  rw [parseItems, hitem]
  simp only [Option.bind_eq_bind, Option.bind_some, hskip, if_neg hclose.symm, if_true]

theorem reads_parseItems (hclose : close ≠ 92)
    (hitem : ∀ {t rest : JsString} {v : α}, item t = some (v, rest) → Reads (weight v) t rest)
    {n : Nat} {s rest : JsString} {l : List α}
    (h : parseItems item close n s = some (l, rest)) : Reads (total weight l) s rest := by
  induction n generalizing s l with
  | zero => cases h
  | succ n ih =>
    obtain ⟨v, t, hv, ⟨hskip, rfl⟩ | ⟨t', l', hskip, hrest, rfl⟩⟩ := parseItems_eq_some h
    · have htail : Reads 0 t rest := by
        refine reads_of_skipSpace ?_
        rw [hskip]
        exact (Reads.cons hclose rest).mono (Nat.zero_le _)
      exact (hitem hv).trans htail
    · have htail : Reads 0 t t' := by
        refine reads_of_skipSpace ?_
        rw [hskip]
        exact Reads.cons (c := 44) (by decide) t'
      refine (((hitem hv).trans htail).trans (ih hrest)).mono ?_
      rw [total_cons]
      omega

theorem reads_parseList (hclose : close ≠ 92)
    (hitem : ∀ {t rest : JsString} {v : α}, item t = some (v, rest) → Reads (weight v) t rest)
    {n : Nat} {s rest : JsString} {l : List α}
    (h : parseList item close n s = some (l, rest)) : Reads (total weight l) s rest := by
  unfold parseList at h
  split_ifs at h with hempty
  · obtain ⟨rfl, rfl⟩ := Prod.mk.inj (Option.some.inj h)
    exact reads_tail hclose hempty
  · exact reads_parseItems hclose hitem h

end Items

theorem reads_parseMember {value : JsString → Option (Json × JsString)}
    (hvalue : ∀ {t rest : JsString} {v : Json}, value t = some (v, rest) →
      Reads (valueMarks v) t rest)
    {s rest : JsString} {field : JsString × Json}
    (h : parseMember value s = some (field, rest)) : Reads (fieldMarks field) s rest := by
  obtain ⟨s₁, hquote, h⟩ := Option.bind_eq_some_iff.mp h
  obtain ⟨⟨key, s₂⟩, hkey, h⟩ := Option.bind_eq_some_iff.mp h
  obtain ⟨s₃, hcolon, h⟩ := Option.bind_eq_some_iff.mp h
  obtain ⟨⟨v, s₄⟩, hv, h⟩ := Option.bind_eq_some_iff.mp h
  obtain ⟨rfl, rfl⟩ := Prod.mk.inj (Option.some.inj h)
  have hread := (((reads_expect (by decide) hquote).trans (reads_parseString hkey)).trans
    (reads_expect (by decide) hcolon)).trans (hvalue hv)
  refine hread.mono ?_
  have hle := stringMarks_le v
  rw [fieldMarks]
  dsimp only
  omega

theorem reads_parseValue {fuel : Nat} {s rest : JsString} {v : Json}
    (h : parseValue fuel s = some (v, rest)) : Reads (valueMarks v) s rest := by
  induction fuel generalizing s v rest with
  | zero => cases h
  | succ fuel ih =>
    rw [parseValue] at h
    split at h
    · cases h
    · next c t hskip =>
      refine reads_of_skipSpace ?_
      rw [hskip]
      -- the unit that selects the branch counts nothing
      have hnext : c ≠ 92 → Reads 0 (c :: t) t := fun hc => (Reads.cons hc t).mono (Nat.zero_le _)
      split_ifs at h with hquote hbracket hbrace
      · obtain ⟨⟨w, rest'⟩, hstring, heq⟩ := Option.map_eq_some_iff.mp h
        obtain ⟨rfl, rfl⟩ := Prod.mk.inj heq
        exact ((hnext (by rw [hquote]; decide)).trans (reads_parseString hstring)).mono
          (Nat.le_add_left _ _)
      · obtain ⟨⟨l, rest'⟩, hlist, heq⟩ := Option.map_eq_some_iff.mp h
        obtain ⟨rfl, rfl⟩ := Prod.mk.inj heq
        exact ((hnext (by rw [hbracket]; decide)).trans (reads_parseList (by decide) ih hlist)).mono
          (Nat.zero_le _)
      · obtain ⟨⟨l, rest'⟩, hlist, heq⟩ := Option.map_eq_some_iff.mp h
        obtain ⟨rfl, rfl⟩ := Prod.mk.inj heq
        refine ((hnext (by rw [hbrace]; decide)).trans
          (reads_parseList (by decide) (reads_parseMember ih) hlist)).mono ?_
        rw [valueMarks, total_reverse]
        exact Nat.le_add_left _ _
      · exact reads_parseScalar h

/-- A text denotes at most the marks that it has. -/
theorem valueMarks_le_of_parse {s : JsString} {v : Json} (h : parse s = some v) :
    valueMarks v ≤ marks false s := by
  obtain ⟨⟨v', rest⟩, hvalue, h⟩ := Option.bind_eq_some_iff.mp h
  dsimp only at h
  split_ifs at h
  obtain rfl := Option.some.inj h
  have hle := (reads_parseValue hvalue).marks_le
  omega

/-! ### The fuel -/

section Fuel

variable {α : Type} {item item' : JsString → Option (α × JsString)} {k : Nat}

/-- Items that agree on short texts make lists that agree on short texts. -/
theorem parseItems_succ (hitem : ∀ t : JsString, t.length ≤ k → item' t = item t)
    (hshort : ∀ {t rest : JsString} {v : α}, item t = some (v, rest) → rest.length < t.length)
    (close : UInt16) {n : Nat} {s : JsString} (hs : s.length ≤ k) (hn : s.length ≤ n) :
    parseItems item' close (n + 1) s = parseItems item close n s := by
  induction n generalizing s with
  | zero =>
    have hnone : item s = none := by
      by_contra hsome
      obtain ⟨⟨v, rest⟩, hv⟩ := Option.ne_none_iff_exists'.mp hsome
      have hlt := hshort hv
      omega
    rw [parseItems, parseItems, hitem s hs, hnone]
    rfl
  | succ n ih =>
    rw [parseItems, parseItems, hitem s hs]
    cases hv : item s with
    | none => rfl
    | some found =>
      obtain ⟨v, t⟩ := found
      have hlt := hshort hv
      have hle := length_skipSpace_le t
      simp only [Option.bind_eq_bind, Option.bind_some]
      cases hskip : skipSpace t with
      | nil => rfl
      | cons c t' =>
        rw [hskip, List.length_cons] at hle
        dsimp only
        rw [ih (s := t') (by omega) (by omega)]

theorem parseList_succ (hitem : ∀ t : JsString, t.length ≤ k → item' t = item t)
    (hshort : ∀ {t rest : JsString} {v : α}, item t = some (v, rest) → rest.length < t.length)
    (close : UInt16) {n : Nat} {s : JsString} (hs : s.length ≤ k) (hn : s.length ≤ n) :
    parseList item' close (n + 1) s = parseList item close n s := by
  rw [parseList, parseList, parseItems_succ hitem hshort close hs hn]

end Fuel

theorem parseMember_congr {value value' : JsString → Option (Json × JsString)} {k : Nat}
    (hvalue : ∀ t : JsString, t.length ≤ k → value' t = value t) {s : JsString}
    (hs : s.length ≤ k) : parseMember value' s = parseMember value s := by
  rw [parseMember, parseMember]
  refine Option.bind_congr ?_
  intro s₁ hquote
  refine Option.bind_congr ?_
  rintro ⟨key, s₂⟩ hkey
  refine Option.bind_congr ?_
  intro s₃ hcolon
  have h₁ := (reads_expect (by decide) hquote).shorter
  have h₂ := (reads_parseString hkey).shorter
  have h₃ := (reads_expect (by decide) hcolon).shorter
  rw [hvalue s₃ (by omega)]

theorem parseValue_succ {fuel : Nat} {s : JsString} (hs : s.length ≤ fuel) :
    parseValue (fuel + 1) s = parseValue fuel s := by
  induction fuel generalizing s with
  | zero =>
    obtain rfl := List.length_eq_zero_iff.mp (Nat.le_zero.mp hs)
    rfl
  | succ fuel ih =>
    rw [parseValue, parseValue]
    have hle := length_skipSpace_le s
    cases hskip : skipSpace s with
    | nil => rfl
    | cons c rest =>
      rw [hskip, List.length_cons] at hle
      have hvalue : ∀ t : JsString, t.length ≤ fuel → parseValue (fuel + 1) t = parseValue fuel t :=
        fun t ht => ih ht
      have hmember : ∀ t : JsString, t.length ≤ fuel →
          parseMember (parseValue (fuel + 1)) t = parseMember (parseValue fuel) t :=
        fun t ht => parseMember_congr hvalue ht
      dsimp only
      rw [parseList_succ hvalue (fun h => (reads_parseValue h).shorter) 93 (by omega) (by omega),
        parseList_succ hmember (fun h => (reads_parseMember reads_parseValue h).shorter) 125
          (by omega) (by omega)]

/-- More fuel than the text is long changes nothing. -/
theorem parseValue_eq_of_le {fuel : Nat} {s : JsString} (hs : s.length ≤ fuel) :
    parseValue fuel s = parseValue s.length s := by
  induction fuel, hs using Nat.le_induction with
  | base => rfl
  | succ fuel hs ih => rw [parseValue_succ hs, ih]

end Json

end Artha.JavaScript
