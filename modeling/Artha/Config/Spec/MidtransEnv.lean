import Mathlib.Tactic.SplitIfs
import Artha.Config.Environment

/-!
# What `midtrans.env` sets

The grammar of the file: a line is a comment, or `KEY=VALUE` with both sides trimmed and not empty,
or nothing.  A line sets its variable unless the environment has a text for it or an earlier line
has the same key (`given`).  The loop of `AppServiceProvider::boot` (`set?`) knows no comments,
takes the text `0` for empty, and asks `env()` where the grammar asks for a text: a variable that is
`false` is set again.  The two set the same variables exactly if no line meets one of these
differences (`setBy_eq_givenBy_iff`).
-/

namespace Artha.Config

open Php Laravel

/-! ### The grammar -/

/-- Every line break as a line feed. -/
def unifyBreaks : List Char → List Char
  | [] => []
  | '\r' :: '\n' :: cs => '\n' :: unifyBreaks cs
  | '\r' :: cs => '\n' :: unifyBreaks cs
  | c :: cs => c :: unifyBreaks cs

/-- The lines of a file. -/
def fileLines (text : String) : List (List Char) := (unifyBreaks text.toList).splitOn '\n'

/-- The first character that is not blank is `#`. -/
def isComment (line : List Char) : Bool := (line.dropWhile isTrimBlank).head? = some '#'

/-- The variable and the value of a `KEY=VALUE` line. -/
def setting? (line : List Char) : Option (String × String) :=
  if isComment line then none
  else (assignment line).filter fun a => a.1 ≠ "" && a.2 ≠ ""

/-- The environment sets the variable to a text that is not empty. -/
def Environment.isSet (e : Environment) (key : String) : Bool := (e.text key).any (· ≠ "")

/-- The value an earlier line has for the key. -/
def firstValue (before : List (List Char)) (key : String) : Option String :=
  ((before.filterMap setting?).find? (·.1 = key)).map Prod.snd

/-- What a line sets, behind the lines `before`. -/
def given (e : Environment) (before : List (List Char)) (line : List Char) :
    Option (String × String) :=
  (setting? line).filter fun a => !e.isSet a.1 && (firstValue before a.1).isNone

/-- What lines set, one after the other, behind the lines `before`. -/
def givenBy (e : Environment) (before : List (List Char)) :
    List (List Char) → List (String × String)
  | [] => []
  | line :: lines => (given e before line).toList ++ givenBy e (before ++ [line]) lines

/-! ### The loop -/

/-- What the body of the loop hands to `putenv`. -/
def set? (e : Environment) (line : List Char) : Option (String × String) :=
  (assignment line).filter fun a =>
    (Value.str a.1).truthy && (Value.str a.2).truthy && !(e.get a.1 .null).truthy

/-- What the loop hands to `putenv`, one after the other. -/
def setBy (e : Environment) : List (List Char) → List (String × String)
  | [] => []
  | line :: lines => (set? e line).toList ++ setBy (loadLine e line) lines

theorem loadLine_eq (e : Environment) (line : List Char) :
    loadLine e line = (set? e line).toList.foldl (fun e a => e.putenv a.1 a.2) e := by
  rw [loadLine, set?]
  cases assignment line with
  | none => rfl
  | some a =>
    obtain ⟨key, value⟩ := a
    rw [Option.filter_some]
    dsimp only
    split_ifs <;> rfl

/-- The loop does nothing else. -/
theorem foldl_loadLine_eq (e : Environment) (lines : List (List Char)) :
    lines.foldl loadLine e = (setBy e lines).foldl (fun e a => e.putenv a.1 a.2) e := by
  induction lines generalizing e with
  | nil => rfl
  | cons line lines ih =>
    rw [List.foldl_cons, ih, setBy, List.foldl_append, ← loadLine_eq]

theorem splitLines_eq (cs : List Char) : splitLines cs = (unifyBreaks cs).splitOn '\n' := by
  induction cs using splitLines.induct with
  | case1 => rfl
  | case2 cs ih | case4 cs ih =>
    simp [splitLines, unifyBreaks, ih, List.splitOn_cons_eq_if_modifyHead]
  | case3 cs hnext ih =>
    simp [splitLines, unifyBreaks, ih, List.splitOn_cons_eq_if_modifyHead]
  | case5 c cs hcrlf hcr hlf hempty ih =>
    rw [hempty] at ih
    exact absurd ih.symm (List.splitOn_ne_nil _ _)
  | case6 c cs hcrlf hcr hlf line lines hsplit ih =>
    rw [hsplit] at ih
    simp [splitLines, unifyBreaks, hsplit, ← ih, List.splitOn_cons_eq_if_modifyHead]
    exact hlf

/-! ### Comments -/

/-- The first character of a trimmed text is its first that is not blank. -/
theorem head?_trimBy (p : Char → Bool) (cs : List Char) :
    (trimBy p cs).head? = (cs.dropWhile p).head? := by
  rw [trimBy]
  cases hdrop : cs.dropWhile p with
  | nil => rfl
  | cons c rest =>
    have hc : p c = false := by
      have hhead := List.head_dropWhile_not p (l := cs) (by simp [hdrop])
      simpa [hdrop] using hhead
    have hlast : ((c :: rest).reverse.dropWhile p) = rest.reverse.dropWhile p ++ [c] := by
      rw [List.reverse_cons, List.dropWhile_append]
      split_ifs with hempty
      · rw [List.isEmpty_iff.mp hempty]
        simp [hc]
      · rfl
    rw [hlast, List.reverse_append]
    rfl

/-- A line with a key is a comment exactly if the key begins with `#`. -/
theorem isComment_iff {line : List Char} {key value : String}
    (hline : assignment line = some (key, value)) (hkey : key ≠ "") :
    isComment line = true ↔ key.toList.head? = some '#' := by
  rw [assignment] at hline
  split_ifs at hline
  obtain ⟨rfl, -⟩ := Prod.mk.inj (Option.some.inj hline)
  have hdrop : (line.takeWhile (· ≠ '=')).dropWhile isTrimBlank ≠ [] := by
    intro hnil
    apply hkey
    rw [trim, trimBy, hnil]
    rfl
  have hhead : (line.dropWhile isTrimBlank).head? =
      ((line.takeWhile (· ≠ '=')).dropWhile isTrimBlank).head? := by
    have hsplit : line.takeWhile (· ≠ '=') ++ line.dropWhile (· ≠ '=') = line :=
      List.takeWhile_append_dropWhile
    refine (congrArg (fun cs => (cs.dropWhile isTrimBlank).head?) hsplit.symm).trans ?_
    rw [List.dropWhile_append, if_neg (by simpa using hdrop), List.head?_append,
      Option.or_of_isSome (by simpa using hdrop)]
  rw [isComment, decide_eq_true_iff, hhead, trim, String.toList_ofList, head?_trimBy]

/-! ### What `env()` finds -/

theorem get_of_isSet_eq_false {e : Environment} {key : String} (h : e.isSet key = false) :
    (e.get key .null).truthy = false := by
  rw [Environment.isSet] at h
  rw [Environment.get]
  cases htext : e.text key with
  | none => rfl
  | some text =>
    rw [htext] at h
    obtain rfl : text = "" := by simpa using h
    decide

/-- The environment as the grammar has it behind the lines `before`, at one variable. -/
def expected (e : Environment) (before : List (List Char)) (key : String) : Environment :=
  match firstValue before key with
  | some value => if e.isSet key then e else e.putenv key value
  | none => e

/-- The loop and the grammar agree on a line: one that sets its variable is not skipped for the text
`0`, and of one that does not, either side is `0` or `env()` finds something. -/
def Alike (e : Environment) (before : List (List Char)) (line : List Char) : Prop :=
  ∀ key value, assignment line = some (key, value) → key ≠ "" → value ≠ "" →
    if given e before line = some (key, value) then key ≠ "0" ∧ value ≠ "0"
    else key = "0" ∨ value = "0" ∨ ((expected e before key).get key .null).truthy = true

/-- The loop has set what the grammar asks for, behind the lines `before`. -/
structure InStep (e : Environment) (before : List (List Char)) (e' : Environment) : Prop where
  server : e'.server = e.server
  env : e'.env = e.env
  text : ∀ key, e'.text key = (expected e before key).text key

theorem setting?_eq_some {line : List Char} {a : String × String} :
    setting? line = some a ↔
      isComment line = false ∧ assignment line = some a ∧ a.1 ≠ "" ∧ a.2 ≠ "" := by
  rw [setting?]
  cases isComment line with
  | true => simp
  | false => simp [Option.filter_eq_some_iff]

theorem given_eq_some {e : Environment} {before : List (List Char)} {line : List Char}
    {a : String × String} :
    given e before line = some a ↔
      setting? line = some a ∧ e.isSet a.1 = false ∧ firstValue before a.1 = none := by
  simp [given, Option.filter_eq_some_iff]

theorem set?_eq_some {e : Environment} {line : List Char} {a : String × String} :
    set? e line = some a ↔ assignment line = some a ∧ (a.1 ≠ "" ∧ a.1 ≠ "0") ∧
      (a.2 ≠ "" ∧ a.2 ≠ "0") ∧ (e.get a.1 .null).truthy = false := by
  simp [set?, Option.filter_eq_some_iff, Value.truthy, and_assoc]

/-! ### One line -/

variable {e e' : Environment} {before : List (List Char)} {line : List Char}

theorem firstValue_snoc (before : List (List Char)) (line : List Char) (key : String) :
    firstValue (before ++ [line]) key =
      (firstValue before key).or (((setting? line).filter (·.1 = key)).map Prod.snd) := by
  rw [firstValue, List.filterMap_append, List.find?_append, firstValue]
  cases hfind : (before.filterMap setting?).find? (·.1 = key) with
  | some a => rfl
  | none =>
    rw [Option.none_or, List.filterMap_cons, List.filterMap_nil]
    cases setting? line with
    | none => rfl
    | some a => by_cases ha : a.1 = key <;> simp [Option.filter_some, ha]

/-- No setting has the key of a comment. -/
theorem firstValue_of_isComment (hcomment : isComment line = true) {key value : String}
    (hline : assignment line = some (key, value)) (hkey : key ≠ "") :
    firstValue before key = none := by
  rw [firstValue, Option.map_eq_none_iff, List.find?_eq_none]
  rintro ⟨key', value'⟩ hmem hkey'
  obtain ⟨line', -, hsetting⟩ := List.mem_filterMap.mp hmem
  obtain ⟨hnot, hline', hne, -⟩ := setting?_eq_some.mp hsetting
  obtain rfl : key' = key := of_decide_eq_true hkey'
  have hhash := (isComment_iff hline hkey).mp hcomment
  rw [(isComment_iff hline' hne).mpr hhash] at hnot
  cases hnot

theorem expected_of_given {a : String × String} (h : given e before line = some a) :
    expected e before a.1 = e := by
  rw [expected, (given_eq_some.mp h).2.2]

theorem InStep.get (h : InStep e before e') (key : String) :
    e'.get key .null = (expected e before key).get key .null := by
  rw [Environment.get, Environment.get, h.text]

theorem alike_iff (h : InStep e before e') :
    Alike e before line ↔ set? e' line = given e before line := by
  have hassigned : ∀ a, given e before line = some a → assignment line = some a := fun a ha =>
    (setting?_eq_some.mp (given_eq_some.mp ha).1).2.1
  constructor
  · intro halike
    apply Option.ext
    rintro ⟨key, value⟩
    rw [set?_eq_some, h.get]
    constructor
    · rintro ⟨hline, ⟨hkey, hkey'⟩, ⟨hvalue, hvalue'⟩, hget⟩
      have hcase := halike key value hline hkey hvalue
      split_ifs at hcase with hgiven
      · exact hgiven
      · rcases hcase with hzero | hzero | htruthy
        · exact absurd hzero hkey'
        · exact absurd hzero hvalue'
        · rw [hget] at htruthy
          cases htruthy
    · intro hgiven
      obtain ⟨hsetting, hset, hfirst⟩ := given_eq_some.mp hgiven
      obtain ⟨-, hline, hkey, hvalue⟩ := setting?_eq_some.mp hsetting
      have hcase := halike key value hline hkey hvalue
      rw [if_pos hgiven] at hcase
      rw [expected_of_given hgiven]
      exact ⟨hline, ⟨hkey, hcase.1⟩, ⟨hvalue, hcase.2⟩, get_of_isSet_eq_false hset⟩
  · intro heq key value hline hkey hvalue
    split_ifs with hgiven
    · obtain ⟨-, hkey', hvalue', -⟩ := set?_eq_some.mp (heq.trans hgiven)
      exact ⟨hkey'.2, hvalue'.2⟩
    · by_contra hnot
      simp only [not_or, Bool.not_eq_true] at hnot
      obtain ⟨hkey', hvalue', hget⟩ := hnot
      rw [← h.get] at hget
      exact hgiven (heq ▸ set?_eq_some.mpr ⟨hline, ⟨hkey, hkey'⟩, ⟨hvalue, hvalue'⟩, hget⟩)

theorem expected_snoc_of_none (hgiven : given e before line = none) (key : String) :
    expected e (before ++ [line]) key = expected e before key := by
  rw [expected, expected, firstValue_snoc]
  cases hfirst : firstValue before key with
  | some value => rfl
  | none =>
    cases hsetting : (setting? line).filter (·.1 = key) with
    | none => rfl
    | some a =>
      -- the line is one of the key, so the environment has set it
      obtain ⟨hsome, hkey⟩ := Option.filter_eq_some_iff.mp hsetting
      obtain rfl := of_decide_eq_true hkey
      have hset : e.isSet a.1 = true := by
        by_contra hset
        rw [given_eq_some.mpr ⟨hsome, Bool.not_eq_true _ ▸ hset, hfirst⟩] at hgiven
        cases hgiven
      simp [hset]

theorem expected_snoc_of_some {a : String × String} (hgiven : given e before line = some a)
    (key : String) :
    expected e (before ++ [line]) key =
      if key = a.1 then e.putenv a.1 a.2 else expected e before key := by
  obtain ⟨hsetting, hset, hfirst⟩ := given_eq_some.mp hgiven
  rw [expected, expected, firstValue_snoc, hsetting, Option.filter_some]
  by_cases hkey : a.1 = key
  · subst hkey
    simp [hfirst, hset]
  · have hkey' : ¬key = a.1 := fun h => hkey h.symm
    simp [hkey, hkey']

theorem InStep.loadLine (h : InStep e before e') (heq : set? e' line = given e before line) :
    InStep e (before ++ [line]) (loadLine e' line) := by
  rw [loadLine_eq, heq]
  cases hgiven : given e before line with
  | none =>
    refine ⟨h.server, h.env, fun key => ?_⟩
    rw [expected_snoc_of_none hgiven]
    exact h.text key
  | some a =>
    refine ⟨h.server, h.env, fun key => ?_⟩
    rw [expected_snoc_of_some hgiven]
    show (e'.putenv a.1 a.2).text key = _
    split_ifs with hkey
    · subst hkey
      simp [Environment.text, Environment.putenv, h.server, h.env]
    · rw [Environment.text_putenv_of_ne _ _ hkey]
      exact h.text key

/-! ### All lines -/

theorem mem_givenBy {lines : List (List Char)} {a : String × String}
    (h : a ∈ givenBy e before lines) :
    a.1.toList.head? ≠ some '#' ∧ e.isSet a.1 = false ∧ firstValue before a.1 = none := by
  induction lines generalizing before with
  | nil => cases h
  | cons line lines ih =>
    rcases List.mem_append.mp h with hline | hrest
    · obtain ⟨hsetting, hset, hfirst⟩ := given_eq_some.mp (Option.mem_toList.mp hline)
      obtain ⟨hcomment, hassigned, hkey, -⟩ := setting?_eq_some.mp hsetting
      refine ⟨fun hhash => ?_, hset, hfirst⟩
      rw [(isComment_iff hassigned hkey).mpr hhash] at hcomment
      cases hcomment
    · obtain ⟨hhash, hset, hfirst⟩ := ih hrest
      rw [firstValue_snoc, Option.or_eq_none_iff] at hfirst
      exact ⟨hhash, hset, hfirst.1⟩

theorem mem_setBy {lines : List (List Char)} {a : String × String} (h : a ∈ setBy e lines) :
    a.1 ≠ "0" ∧ a.2 ≠ "0" := by
  induction lines generalizing e with
  | nil => cases h
  | cons line lines ih =>
    rcases List.mem_append.mp h with hline | hrest
    · obtain ⟨-, hkey, hvalue, -⟩ := set?_eq_some.mp (Option.mem_toList.mp hline)
      exact ⟨hkey.2, hvalue.2⟩
    · exact ih hrest

/-- A line on which the two disagree makes the lists differ: what the grammar does not set here it
sets nowhere behind, and what the loop skips here it sets nowhere. -/
theorem set?_eq_given_of_eq (h : InStep e before e') {lines : List (List Char)}
    (heq : setBy e' (line :: lines) = givenBy e before (line :: lines)) :
    set? e' line = given e before line := by
  rw [setBy, givenBy] at heq
  cases hset : set? e' line with
  | none =>
    cases hgiven : given e before line with
    | none => rfl
    | some a =>
      rw [hset, hgiven] at heq
      have hmem : a ∈ setBy (loadLine e' line) lines := by
        rw [Option.toList_none, List.nil_append] at heq
        rw [heq]
        exact List.mem_append_left _ (Option.mem_toList.mpr rfl)
      obtain ⟨hsetting, hunset, -⟩ := given_eq_some.mp hgiven
      obtain ⟨-, hline, hkey, hvalue⟩ := setting?_eq_some.mp hsetting
      obtain ⟨hkey', hvalue'⟩ := mem_setBy hmem
      have hget : (e'.get a.1 .null).truthy = false := by
        rw [h.get, expected_of_given hgiven]
        exact get_of_isSet_eq_false hunset
      rw [set?_eq_some.mpr ⟨hline, ⟨hkey, hkey'⟩, ⟨hvalue, hvalue'⟩, hget⟩] at hset
      cases hset
  | some a =>
    cases hgiven : given e before line with
    | some b =>
      have hline := (set?_eq_some.mp hset).1
      rw [(setting?_eq_some.mp (given_eq_some.mp hgiven).1).2.1] at hline
      exact hline.symm
    | none =>
      rw [hset, hgiven] at heq
      have hmem : a ∈ givenBy e (before ++ [line]) lines := by
        rw [Option.toList_none, List.nil_append] at heq
        rw [← heq]
        exact List.mem_append_left _ (Option.mem_toList.mpr rfl)
      obtain ⟨hhash, hunset, hfirst⟩ := mem_givenBy hmem
      obtain ⟨hline, hkey, hvalue, -⟩ := set?_eq_some.mp hset
      have hcomment : isComment line = false := by
        rw [← Bool.not_eq_true, isComment_iff hline hkey.1]
        exact hhash
      rw [firstValue_snoc, Option.or_eq_none_iff] at hfirst
      have hsetting := setting?_eq_some.mpr ⟨hcomment, hline, hkey.1, hvalue.1⟩
      rw [given_eq_some.mpr ⟨hsetting, hunset, hfirst.1⟩] at hgiven
      cases hgiven

theorem setBy_eq_givenBy_iff (h : InStep e before e') (lines : List (List Char)) :
    setBy e' lines = givenBy e before lines ↔
      ∀ front line rest, lines = front ++ line :: rest → Alike e (before ++ front) line := by
  induction lines generalizing before e' with
  | nil => simp [setBy, givenBy]
  | cons line lines ih =>
    constructor
    · intro heq front line' rest hsplit
      have hline := set?_eq_given_of_eq h heq
      cases front with
      | nil =>
        obtain ⟨rfl, -⟩ := List.cons.inj hsplit
        rw [List.append_nil]
        exact (alike_iff h).mpr hline
      | cons first front =>
        obtain ⟨rfl, hrest⟩ := List.cons.inj hsplit
        rw [setBy, givenBy, hline, List.append_cancel_left_eq, ih (h.loadLine hline)] at heq
        have halike := heq front line' rest hrest
        rwa [List.append_assoc] at halike
    · intro halike
      have hfirst := halike [] line lines rfl
      rw [List.append_nil] at hfirst
      have hline := (alike_iff h).mp hfirst
      rw [setBy, givenBy, hline, List.append_cancel_left_eq, ih (h.loadLine hline)]
      intro front line' rest hsplit
      have hrest := halike (line :: front) line' rest (by rw [hsplit]; rfl)
      rwa [List.append_cons] at hrest

end Artha.Config
