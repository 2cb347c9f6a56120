import Artha.JavaScript.JsonText

/-!
# Calls with literal arguments

An event handler that consists of one call is read as that call: a name, and arguments that are
numbers or strings in single quotes.  Any other handler is none.  A string is no longer than its
literal, and as long only if the literal has no escapes (`length_le_of_literal`).
-/

namespace Artha.JavaScript

/-! ### String literals -/

/-- The line breaks. -/
def isLineTerminator (c : UInt16) : Bool := c = 10 || c = 13 || c = 0x2028 || c = 0x2029

/-- The code units of a code point. -/
def codePointUnits (n : Nat) : JsString :=
  if n < 0x10000 then [.ofNat n]
  else [.ofNat (0xD800 + (n - 0x10000) / 0x400), .ofNat (0xDC00 + (n - 0x10000) % 0x400)]

/-- Behind `\u`: four digits, or digits in braces. -/
def unicodeEscape (s : JsString) : Option (JsString × Nat) :=
  if s.head? = some 123 then
    let digits := s.tail.takeWhile (isDigit 16)
    if digits ≠ [] ∧ (s.tail.drop digits.length).head? = some 125 ∧
        ofDigits 16 digits ≤ 0x10FFFF then
      some (codePointUnits (ofDigits 16 digits), digits.length + 3)
    else none
  else if (s.take 4).length = 4 ∧ (s.take 4).all (isDigit 16) then
    some ([.ofNat (ofDigits 16 (s.take 4))], 5)
  else none

/-- An octal number of at most three digits, and of at most two if the first one is large. -/
def octalEscape (s : JsString) : JsString × Nat :=
  let size := if s.head?.any fun c => c ≤ 51 then 3 else 2
  let digits := (s.take size).takeWhile (isDigit 8)
  ([.ofNat (ofDigits 8 digits)], digits.length)

/-- What a letter behind a backslash stands for; other units stand for themselves. -/
def letterEscape (c : UInt16) : UInt16 :=
  if c = 98 then 8
  else if c = 116 then 9
  else if c = 110 then 10
  else if c = 118 then 11
  else if c = 102 then 12
  else if c = 114 then 13
  else c

/-- Behind a backslash: what the escape stands for, and how many units it has. -/
def stringEscape : JsString → Option (JsString × Nat)
  | [] => none
  | c :: s =>
    if c = 120 then
      if (s.take 2).length = 2 ∧ (s.take 2).all (isDigit 16) then
        some ([.ofNat (ofDigits 16 (s.take 2))], 3)
      else none
    else if c = 117 then unicodeEscape s
    else if isDigit 8 c then some (octalEscape (c :: s))
    else if isLineTerminator c then
      some ([], if c = 13 ∧ s.head? = some 10 then 2 else 1)
    else some ([letterEscape c], 1)

/-- The string of a literal from behind its first quote on, of which the first `skip` units belong
to an escape, and what follows the second quote. -/
def literalFrom : Nat → JsString → Option (JsString × JsString)
  | _, [] => none
  | skip + 1, _ :: s => literalFrom skip s
  | 0, c :: s =>
    if c = 39 then some ([], s)
    else if c = 10 ∨ c = 13 then none
    else if c = 92 then
      match stringEscape s with
      | none => none
      | some (text, n) => (literalFrom n s).map fun r => (text ++ r.1, r.2)
    else (literalFrom 0 s).map fun r => (c :: r.1, r.2)

/-- The string of a literal in single quotes, from behind the first one on. -/
def literal (s : JsString) : Option (JsString × JsString) := literalFrom 0 s

/-! ### Calls -/

inductive Argument where
  | number (text : JsString)
  | string (s : JsString)
deriving DecidableEq

structure Call where
  name : JsString
  arguments : List Argument
deriving DecidableEq

/-- A unit of a number. -/
def isNumberUnit (c : UInt16) : Bool := isDigit 10 c || c = 43 || c = 45 || c = 46 || c = 101

def isIdentifierUnit (c : UInt16) : Bool := (digitValue c).isSome || c = 36 || c = 95

def parseArgument (s : JsString) : Option (Argument × JsString) :=
  match Json.skipSpace s with
  | [] => none
  | c :: rest =>
    if c = 39 then (literal rest).map fun r => (.string r.1, r.2)
    else if (c :: rest).takeWhile isNumberUnit = [] then none
    else some (.number ((c :: rest).takeWhile isNumberUnit), (c :: rest).dropWhile isNumberUnit)

/-- The call that a handler consists of. -/
def parseCall (s : JsString) : Option Call :=
  match s.dropWhile isIdentifierUnit with
  | [] => none
  | c :: rest =>
    if c = 40 then
      (Json.parseItems parseArgument 41 rest.length rest).bind fun r =>
        if r.2 = [] then some ⟨s.takeWhile isIdentifierUnit, r.1⟩ else none
    else none

namespace Call

/-- What kind of argument it is: true is a string. -/
def isString : Argument → Bool
  | .number _ => false
  | .string _ => true

/-- The name, and the kinds of the arguments. -/
def shape (call : Call) : JsString × List Bool := (call.name, call.arguments.map isString)

/-- The strings among the arguments. -/
def strings (call : Call) : List JsString :=
  call.arguments.filterMap fun a =>
    match a with
    | .number _ => none
    | .string s => some s

end Call

/-! ### A string is no longer than its literal -/

theorem length_codePointUnits_le (n : Nat) : (codePointUnits n).length ≤ 2 := by
  unfold codePointUnits
  split_ifs <;> simp

theorem length_le_of_unicodeEscape {s text : JsString} {n : Nat}
    (h : unicodeEscape s = some (text, n)) : text.length ≤ n := by
  unfold unicodeEscape at h
  dsimp only at h
  split at h
  · split at h
    · obtain ⟨rfl, rfl⟩ := Prod.mk.inj (Option.some.inj h)
      have hle := length_codePointUnits_le (ofDigits 16 (s.tail.takeWhile (isDigit 16)))
      omega
    · cases h
  · split at h
    · obtain ⟨rfl, rfl⟩ := Prod.mk.inj (Option.some.inj h)
      simp
    · cases h

theorem length_octalEscape_le {c : UInt16} (hc : isDigit 8 c = true) (s : JsString) :
    (octalEscape (c :: s)).1.length ≤ (octalEscape (c :: s)).2 := by
  have hdigits : ∀ size, 1 ≤ (((c :: s).take (size + 1)).takeWhile (isDigit 8)).length := by
    intro size
    rw [List.take_succ_cons, List.takeWhile_cons_of_pos hc]
    simp
  unfold octalEscape
  dsimp only
  split_ifs
  · exact hdigits 2
  · exact hdigits 1

theorem length_le_of_stringEscape {s text : JsString} {n : Nat}
    (h : stringEscape s = some (text, n)) : text.length ≤ n := by
  cases s with
  | nil => cases h
  | cons c s =>
    rw [stringEscape] at h
    split at h
    · split at h
      · obtain ⟨rfl, rfl⟩ := Prod.mk.inj (Option.some.inj h)
        simp
      · cases h
    · split at h
      · exact length_le_of_unicodeEscape h
      · split at h
        · next hdigit =>
          have hle := length_octalEscape_le hdigit s
          rw [Option.some.inj h] at hle
          exact hle
        · split at h
          · obtain ⟨rfl, rfl⟩ := Prod.mk.inj (Option.some.inj h)
            simp
          · obtain ⟨rfl, rfl⟩ := Prod.mk.inj (Option.some.inj h)
            simp

/-- A literal without escapes, and without a quote or a line break. -/
def IsPlain (w : JsString) : Prop := ∀ c ∈ w, c ≠ 39 ∧ c ≠ 92 ∧ c ≠ 10 ∧ c ≠ 13

theorem length_le_of_literalFrom {skip : Nat} {s w rest : JsString}
    (h : literalFrom skip s = some (w, rest)) :
    ∃ body, s = body ++ 39 :: rest ∧ w.length + skip ≤ body.length ∧
      (skip = 0 → w.length = body.length → w = body ∧ IsPlain body) := by
  induction s generalizing skip w with
  | nil => cases skip <;> cases h
  | cons c s ih =>
    cases skip with
    | succ skip =>
      rw [literalFrom] at h
      obtain ⟨body, rfl, hle, -⟩ := ih h
      exact ⟨c :: body, rfl, by rw [List.length_cons]; omega, fun h0 => absurd h0 (by omega)⟩
    | zero =>
      rw [literalFrom] at h
      split_ifs at h with hquote hbreak hescape
      · obtain ⟨rfl, rfl⟩ := Prod.mk.inj (Option.some.inj h)
        exact ⟨[], by rw [hquote]; rfl, le_rfl, fun _ _ => ⟨rfl, by simp [IsPlain]⟩⟩
      · split at h
        · cases h
        · next text n hstring =>
          obtain ⟨⟨w', rest'⟩, hrest, heq⟩ := Option.map_eq_some_iff.mp h
          dsimp only at heq
          obtain ⟨rfl, rfl⟩ := Prod.mk.inj heq
          obtain ⟨body, rfl, hle, -⟩ := ih hrest
          have htext := length_le_of_stringEscape hstring
          refine ⟨c :: body, rfl, ?_, ?_⟩
          · rw [List.length_append, List.length_cons]
            omega
          · intro _ hlength
            rw [List.length_append, List.length_cons] at hlength
            omega
      · obtain ⟨⟨w', rest'⟩, hrest, heq⟩ := Option.map_eq_some_iff.mp h
        dsimp only at heq
        obtain ⟨rfl, rfl⟩ := Prod.mk.inj heq
        obtain ⟨body, rfl, hle, hplain⟩ := ih hrest
        refine ⟨c :: body, rfl, ?_, ?_⟩
        · rw [List.length_cons, List.length_cons]
          omega
        · intro _ hlength
          obtain ⟨rfl, hbody⟩ := hplain rfl (Nat.succ.inj hlength)
          refine ⟨rfl, ?_⟩
          intro d hd
          rcases List.mem_cons.mp hd with rfl | hd
          · exact ⟨hquote, hescape, fun h => hbreak (Or.inl h), fun h => hbreak (Or.inr h)⟩
          · exact hbody d hd

/-- A string is no longer than its literal, and as long only if it is the literal. -/
theorem length_le_of_literal {s w rest : JsString} (h : literal s = some (w, rest)) :
    ∃ body, s = body ++ 39 :: rest ∧ w.length ≤ body.length ∧
      (w.length = body.length → w = body ∧ IsPlain body) := by
  obtain ⟨body, hs, hle, hplain⟩ := length_le_of_literalFrom h
  exact ⟨body, hs, hle, hplain rfl⟩

/-- A plain literal is the string. -/
theorem literal_of_isPlain {w : JsString} (hw : IsPlain w) (rest : JsString) :
    literal (w ++ 39 :: rest) = some (w, rest) := by
  unfold literal
  induction w with
  | nil => rfl
  | cons c w ih =>
    obtain ⟨hquote, hescape, hfeed, hreturn⟩ := hw c List.mem_cons_self
    have hrest := ih fun d hd => hw d (List.mem_cons_of_mem c hd)
    rw [List.cons_append, literalFrom, if_neg hquote, if_neg (by simp [hfeed, hreturn]),
      if_neg hescape, hrest]
    rfl

/-! ### Arguments -/

theorem isSpace_of_isNumberUnit {c : UInt16} (hc : isNumberUnit c = true) :
    Json.isSpace c = false ∧ c ≠ 39 := by
  refine ⟨?_, ?_⟩
  · rw [Bool.eq_false_iff]
    intro hspace
    have hcases : ((c = 9 ∨ c = 10) ∨ c = 13) ∨ c = 32 := by simpa [Json.isSpace] using hspace
    rcases hcases with ((rfl | rfl) | rfl) | rfl <;> exact absurd hc (by decide)
  · rintro rfl
    exact absurd hc (by decide)

/-- A number ends before a unit that belongs to none. -/
theorem parseArgument_number {w rest : JsString} (hne : w ≠ [])
    (hw : ∀ c ∈ w, isNumberUnit c = true) (hrest : rest.head?.all (fun c => !isNumberUnit c)) :
    parseArgument (w ++ rest) = some (.number w, rest) := by
  obtain ⟨c, w, rfl⟩ := List.exists_cons_of_ne_nil hne
  obtain ⟨hspace, hquote⟩ := isSpace_of_isNumberUnit (hw c List.mem_cons_self)
  have hskip : Json.skipSpace (c :: w ++ rest) = c :: (w ++ rest) := by
    rw [Json.skipSpace, List.cons_append, List.dropWhile_cons, hspace]
    rfl
  have htake : (c :: w ++ rest).takeWhile isNumberUnit = c :: w := by
    rw [List.takeWhile_append_of_pos hw]
    cases rest with
    | nil => simp
    | cons d rest =>
      have hd : isNumberUnit d = false := by simpa using hrest
      rw [List.takeWhile_cons, hd]
      simp
  have hdrop : (c :: w ++ rest).dropWhile isNumberUnit = rest := by
    rw [List.dropWhile_append_of_pos hw]
    cases rest with
    | nil => rfl
    | cons d rest =>
      have hd : isNumberUnit d = false := by simpa using hrest
      rw [List.dropWhile_cons, hd]
      rfl
  rw [List.cons_append] at htake hdrop
  rw [parseArgument, hskip]
  dsimp only
  rw [if_neg hquote, htake, hdrop, if_neg (List.cons_ne_nil c w)]

theorem parseArgument_space (s : JsString) : parseArgument (32 :: s) = parseArgument s := by
  rw [parseArgument, parseArgument]
  rfl

theorem parseArgument_string (s : JsString) :
    parseArgument (39 :: s) = (literal s).map fun r => (.string r.1, r.2) := rfl

end Artha.JavaScript
