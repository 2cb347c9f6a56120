import Artha.Html.References

/-!
# The tokens of a markup

A markup is read unit by unit; `step` is the transition of the tokenizer.  A tag holds the values of
its attributes as they are written; what they denote is `decode names true` of them.  Where the
states of the standard differ in their errors only, they are one: the state behind a value or a
slash is the one before an attribute.  No end of a comment is missed by taking a declaration or an
instruction to its first `>`.

Two things depend on more than the next unit: a reference in a text, and the elements whose content
is no markup, such as `script`.  How far such a content goes is left open (`ownText`), and it is
left out.
-/

namespace Artha.Html

open JavaScript

structure Tag where
  closing : Bool
  name : JsString
  attributes : List (JsString × JsString)
deriving DecidableEq

/-- Of two attributes of one name the first one counts. -/
def Tag.add (t : Tag) (name value : JsString) : Tag :=
  if t.attributes.any fun a => a.1 = name then t
  else { t with attributes := t.attributes ++ [(name, value)] }

inductive Item where
  | char (c : UInt16)
  | tag (t : Tag)
  | comment
deriving DecidableEq

/-- What of a comment has been read. -/
inductive CommentPhase where
  /-- Nothing behind `<!--`. -/
  | start
  /-- A hyphen behind `<!--`. -/
  | startDash
  | body
  /-- The last unit is a hyphen. -/
  | dash
  /-- The last two are. -/
  | dashes
  /-- `--!`. -/
  | bang
deriving DecidableEq

inductive State where
  | data
  /-- Behind `<`. -/
  | tagOpen
  /-- Behind `</`. -/
  | endTagOpen
  | tagName (t : Tag)
  | beforeAttribute (t : Tag)
  | attributeName (t : Tag) (name : JsString)
  | afterAttributeName (t : Tag) (name : JsString)
  | beforeValue (t : Tag) (name : JsString)
  | quoted (quote : UInt16) (t : Tag) (name value : JsString)
  | unquoted (t : Tag) (name value : JsString)
  /-- Behind `<!`. -/
  | declaration
  /-- Behind `<!-`. -/
  | declarationDash
  | comment (phase : CommentPhase)
  /-- A comment up to `>`. -/
  | bogus
  /-- In a part that has been read already, with so many units of it left behind the next one. -/
  | skip (n : Nat)
deriving DecidableEq

/-! ### Transitions -/

def isLetter (c : UInt16) : Bool := 65 ≤ c && c ≤ 90 || 97 ≤ c && c ≤ 122

/-- White space in a tag. -/
def isTagSpace (c : UInt16) : Bool := c = 9 || c = 10 || c = 12 || c = 32

/-- A unit in the name of a tag or an attribute. -/
def nameUnit (c : UInt16) : UInt16 :=
  if c = 0 then 0xFFFD else if 65 ≤ c ∧ c ≤ 90 then c + 32 else c

/-- A unit in the value of an attribute. -/
def valueUnit (c : UInt16) : UInt16 := if c = 0 then 0xFFFD else c

def dataStep (c : UInt16) : List Item × State :=
  if c = 60 then ([], .tagOpen) else ([.char c], .data)

def tagOpenStep (c : UInt16) : List Item × State :=
  if c = 33 then ([], .declaration)
  else if c = 47 then ([], .endTagOpen)
  else if c = 63 then ([], .bogus)
  else if isLetter c then ([], .tagName ⟨false, [nameUnit c], []⟩)
  else (.char 60 :: (dataStep c).1, (dataStep c).2)

/-- `</>` is nothing. -/
def endTagOpenStep (c : UInt16) : List Item × State :=
  if isLetter c then ([], .tagName ⟨true, [nameUnit c], []⟩)
  else if c = 62 then ([], .data)
  else ([], .bogus)

def tagNameStep (t : Tag) (c : UInt16) : List Item × State :=
  if isTagSpace c ∨ c = 47 then ([], .beforeAttribute t)
  else if c = 62 then ([.tag t], .data)
  else ([], .tagName { t with name := t.name ++ [nameUnit c] })

def beforeAttributeStep (t : Tag) (c : UInt16) : List Item × State :=
  if isTagSpace c ∨ c = 47 then ([], .beforeAttribute t)
  else if c = 62 then ([.tag t], .data)
  else ([], .attributeName t [nameUnit c])

def attributeNameStep (t : Tag) (name : JsString) (c : UInt16) : List Item × State :=
  if isTagSpace c then ([], .afterAttributeName t name)
  else if c = 47 then ([], .beforeAttribute (t.add name []))
  else if c = 61 then ([], .beforeValue t name)
  else if c = 62 then ([.tag (t.add name [])], .data)
  else ([], .attributeName t (name ++ [nameUnit c]))

def afterAttributeNameStep (t : Tag) (name : JsString) (c : UInt16) : List Item × State :=
  if isTagSpace c then ([], .afterAttributeName t name)
  else if c = 47 then ([], .beforeAttribute (t.add name []))
  else if c = 61 then ([], .beforeValue t name)
  else if c = 62 then ([.tag (t.add name [])], .data)
  else ([], .attributeName (t.add name []) [nameUnit c])

def beforeValueStep (t : Tag) (name : JsString) (c : UInt16) : List Item × State :=
  if isTagSpace c then ([], .beforeValue t name)
  else if c = 34 ∨ c = 39 then ([], .quoted c t name [])
  else if c = 62 then ([.tag (t.add name [])], .data)
  else ([], .unquoted t name [valueUnit c])

def quotedStep (quote : UInt16) (t : Tag) (name value : JsString) (c : UInt16) :
    List Item × State :=
  if c = quote then ([], .beforeAttribute (t.add name value))
  else ([], .quoted quote t name (value ++ [valueUnit c]))

def unquotedStep (t : Tag) (name value : JsString) (c : UInt16) : List Item × State :=
  if isTagSpace c then ([], .beforeAttribute (t.add name value))
  else if c = 62 then ([.tag (t.add name value)], .data)
  else ([], .unquoted t name (value ++ [valueUnit c]))

def bogusStep (c : UInt16) : List Item × State :=
  if c = 62 then ([.comment], .data) else ([], .bogus)

def commentStep (phase : CommentPhase) (c : UInt16) : List Item × State :=
  match phase with
  | .start =>
    if c = 62 then ([.comment], .data)
    else ([], .comment (if c = 45 then .startDash else .body))
  | .startDash =>
    if c = 62 then ([.comment], .data)
    else ([], .comment (if c = 45 then .dashes else .body))
  | .body => ([], .comment (if c = 45 then .dash else .body))
  | .dash => ([], .comment (if c = 45 then .dashes else .body))
  | .dashes =>
    if c = 62 then ([.comment], .data)
    else ([], .comment (if c = 45 then .dashes else if c = 33 then .bang else .body))
  | .bang =>
    if c = 62 then ([.comment], .data) else ([], .comment (if c = 45 then .dash else .body))

/-- One unit: what it completes, and the next state. -/
def step (s : State) (c : UInt16) : List Item × State :=
  match s with
  | .data => dataStep c
  | .tagOpen => tagOpenStep c
  | .endTagOpen => endTagOpenStep c
  | .tagName t => tagNameStep t c
  | .beforeAttribute t => beforeAttributeStep t c
  | .attributeName t name => attributeNameStep t name c
  | .afterAttributeName t name => afterAttributeNameStep t name c
  | .beforeValue t name => beforeValueStep t name c
  | .quoted quote t name value => quotedStep quote t name value c
  | .unquoted t name value => unquotedStep t name value c
  | .declaration => if c = 45 then ([], .declarationDash) else bogusStep c
  | .declarationDash => if c = 45 then ([], .comment .start) else bogusStep c
  | .comment phase => commentStep phase c
  | .bogus => bogusStep c
  | .skip 0 => ([], .data)
  | .skip (n + 1) => ([], .skip n)

/-- The end of the markup. -/
def finish : State → List Item
  | .tagOpen => [.char 60]
  | .endTagOpen => [.char 60, .char 47]
  | .declaration => [.comment]
  | .declarationDash => [.comment]
  | .comment _ => [.comment]
  | .bogus => [.comment]
  | _ => []

/-! ### Runs -/

/-- The state before `n` units that have been read already. -/
def behind : Nat → State
  | 0 => .data
  | n + 1 => .skip n

/-- The elements whose content may be no markup. -/
def rawElements : List String :=
  ["iframe", "noembed", "noframes", "noscript", "plaintext", "script", "style", "textarea", "title",
    "xmp"]

/-- The code units of an ASCII text, which are its octets. -/
def units (s : String) : JsString := s.toByteArray.data.toList.map fun b => b.toUInt16

/-- The content of the element may be no markup. -/
def Tag.isRaw (t : Tag) : Bool := !t.closing && rawElements.any fun name => t.name = units name

/-- In these states a reference is read, behind the items. -/
def pending : State → Option (List Item)
  | .data => some []
  | .tagOpen => some [.char 60]
  | _ => none

/-- The state behind a start tag. -/
def enter (ownText : Tag → JsString → Nat) (items : List Item) (s : State) (rest : JsString) :
    State :=
  match items with
  | [.tag t] => if t.isRaw then behind (ownText t rest) else s
  | _ => s

/-- The items of a part of a markup without references, and the state behind it. -/
def feed : State → JsString → List Item × State
  | s, [] => ([], s)
  | s, c :: rest => ((step s c).1 ++ (feed (step s c).2 rest).1, (feed (step s c).2 rest).2)

section Run

variable (names : NamedReferences) (ownText : Tag → JsString → Nat)

/-- The tokens of a markup from a state on. -/
def run : State → JsString → List Item
  | s, [] => finish s
  | s, c :: rest =>
    match if c = 38 then pending s else none with
    | some items =>
      match reference names false rest with
      | some (text, n) => items ++ (text.map .char ++ run (behind n) rest)
      | none => items ++ .char 38 :: run .data rest
    | none =>
      (step s c).1 ++ run (enter ownText (step s c).1 (step s c).2 rest) rest

/-- Line breaks are normalised before anything else; a line feed behind a carriage return is left
out. -/
def normalizeFrom : Bool → JsString → JsString
  | _, [] => []
  | behindReturn, c :: s =>
    if behindReturn ∧ c = 10 then normalizeFrom false s
    else (if c = 13 then 10 else c) :: normalizeFrom (c = 13) s

def normalizeNewlines (s : JsString) : JsString := normalizeFrom false s

/-- The tokens of a markup. -/
def tokens (markup : JsString) : List Item := run names ownText .data (normalizeNewlines markup)

end Run

/-! ### Parts without references -/

variable {names : NamedReferences} {ownText : Tag → JsString → Nat}

theorem run_cons_of_pending {s : State} {c : UInt16}
    (h : (if c = 38 then pending s else none) = none) (rest : JsString) :
    run names ownText s (c :: rest) =
      (step s c).1 ++ run names ownText (enter ownText (step s c).1 (step s c).2 rest) rest := by
  rw [run, h]

theorem run_cons_of_ne {c : UInt16} (hc : c ≠ 38) (s : State) (rest : JsString) :
    run names ownText s (c :: rest) =
      (step s c).1 ++ run names ownText (enter ownText (step s c).1 (step s c).2 rest) rest :=
  run_cons_of_pending (if_neg hc) rest

/-- No start tag among the items has a content that may be no markup. -/
def NotRaw (items : List Item) : Prop := ∀ t, .tag t ∈ items → t.isRaw = false

theorem enter_of_notRaw {items : List Item} (h : NotRaw items) (s : State) (rest : JsString) :
    enter ownText items s rest = s := by
  unfold enter
  split
  · next t =>
    rw [if_neg]
    simp [h t (by simp)]
  · rfl

/-- A part without `&` is read by `feed`. -/
theorem run_append {a : JsString} (ha : 38 ∉ a) {s : State} (hraw : NotRaw (feed s a).1)
    (rest : JsString) :
    run names ownText s (a ++ rest) = (feed s a).1 ++ run names ownText (feed s a).2 rest := by
  induction a generalizing s with
  | nil => rfl
  | cons c a ih =>
    rw [List.mem_cons, not_or] at ha
    have hstep : NotRaw (step s c).1 := fun t ht => hraw t (List.mem_append_left _ ht)
    have hrest : NotRaw (feed (step s c).2 a).1 := fun t ht => hraw t (List.mem_append_right _ ht)
    rw [List.cons_append, run_cons_of_ne (Ne.symm ha.1), enter_of_notRaw hstep, ih ha.2 hrest, feed,
      List.append_assoc]

theorem feed_append (s : State) (a b : JsString) :
    feed s (a ++ b) = ((feed s a).1 ++ (feed (feed s a).2 b).1, (feed (feed s a).2 b).2) := by
  induction a generalizing s with
  | nil => rfl
  | cons c a ih => rw [List.cons_append, feed, ih, feed, List.append_assoc]

/-! ### Texts -/

/-- The characters at the start. -/
def lead : List Item → JsString
  | .char c :: items => c :: lead items
  | _ => []

theorem lead_map_append (w : JsString) (items : List Item) :
    lead (w.map .char ++ items) = w ++ lead items := by
  induction w with
  | nil => rfl
  | cons c w ih => exact congrArg (c :: ·) ih

theorem lead_append_of_ne_nil {items : List Item} (hne : items ≠ []) (h : lead items = [])
    (items' : List Item) : lead (items ++ items') = [] := by
  obtain _ | ⟨_ | _ | _, items⟩ := items
  · exact absurd rfl hne
  · cases h
  · rfl
  · rfl

/-- In a tag or a comment: whatever comes next is no character. -/
def State.isQuiet : State → Bool
  | .data => false
  | .tagOpen => false
  | .endTagOpen => false
  | .skip _ => false
  | _ => true

theorem step_of_isQuiet {s : State} (h : s.isQuiet = true) (c : UInt16) :
    ((step s c).1 = [] ∧ (step s c).2.isQuiet = true) ∨
      ((step s c).1 ≠ [] ∧ lead (step s c).1 = []) := by
  cases s with
  | data => cases h
  | tagOpen => cases h
  | endTagOpen => cases h
  | skip n => cases h
  | tagName t =>
    rw [step, tagNameStep]
    split_ifs <;> simp [State.isQuiet, lead]
  | beforeAttribute t =>
    rw [step, beforeAttributeStep]
    split_ifs <;> simp [State.isQuiet, lead]
  | attributeName t name =>
    rw [step, attributeNameStep]
    split_ifs <;> simp [State.isQuiet, lead]
  | afterAttributeName t name =>
    rw [step, afterAttributeNameStep]
    split_ifs <;> simp [State.isQuiet, lead]
  | beforeValue t name =>
    rw [step, beforeValueStep]
    split_ifs <;> simp [State.isQuiet, lead]
  | quoted quote t name value =>
    rw [step, quotedStep]
    split_ifs <;> simp [State.isQuiet]
  | unquoted t name value =>
    rw [step, unquotedStep]
    split_ifs <;> simp [State.isQuiet, lead]
  | declaration =>
    rw [step, bogusStep]
    split_ifs <;> simp [State.isQuiet, lead]
  | declarationDash =>
    rw [step, bogusStep]
    split_ifs <;> simp [State.isQuiet, lead]
  | comment phase =>
    rw [step]
    cases phase <;> rw [commentStep] <;> split_ifs <;> simp [State.isQuiet, lead]
  | bogus =>
    rw [step, bogusStep]
    split_ifs <;> simp [State.isQuiet, lead]

theorem pending_of_isQuiet {s : State} (h : s.isQuiet = true) : pending s = none := by
  cases s <;> first | rfl | cases h

theorem lead_run_of_isQuiet {s : State} (h : s.isQuiet = true) (rest : JsString) :
    lead (run names ownText s rest) = [] := by
  induction rest generalizing s with
  | nil => cases s <;> first | rfl | cases h
  | cons c rest ih =>
    rw [run_cons_of_pending (by rw [pending_of_isQuiet h, ite_self])]
    rcases step_of_isQuiet h c with ⟨hitems, hquiet⟩ | ⟨hne, hlead⟩
    · rw [hitems]
      exact ih hquiet
    · exact lead_append_of_ne_nil hne hlead _

/-! ### Texts that stand for themselves -/

/-- Behind `<` the unit begins a tag, a comment or nothing at all. -/
def opensMarkup (c : UInt16) : Bool := isLetter c || c = 47 || c = 33 || c = 63

/-- No `<` of the text opens anything. -/
def NoMarkup (w : JsString) : Prop := ∀ a c b, w = a ++ 60 :: c :: b → opensMarkup c = false

theorem noMarkup_cons {c : UInt16} {w : JsString} :
    NoMarkup (c :: w) ↔ (c = 60 → w.head?.any opensMarkup = false) ∧ NoMarkup w := by
  constructor
  · intro h
    refine ⟨?_, ?_⟩
    · rintro rfl
      cases w with
      | nil => rfl
      | cons d w => exact h [] d w rfl
    · rintro a d b rfl
      exact h (c :: a) d b rfl
  · rintro ⟨hhead, htail⟩ a d b heq
    cases a with
    | nil =>
      obtain ⟨rfl, rfl⟩ := List.cons.inj heq
      exact hhead rfl
    | cons e a =>
      obtain ⟨-, hrest⟩ := List.cons.inj heq
      exact htail a d b hrest

theorem delimits_of_head {t : JsString} (ht : t.head? = some 60) : Delimits t := by
  obtain ⟨rest, rfl⟩ := List.head?_eq_some_iff.mp ht
  refine ⟨60, rest, rfl, ?_, by decide⟩
  rintro (h | h | h) <;> exact absurd h (by decide)

theorem run_data_cons {c : UInt16} (hamp : c ≠ 38) (hlt : c ≠ 60) (rest : JsString) :
    run names ownText .data (c :: rest) = .char c :: run names ownText .data rest := by
  rw [run_cons_of_ne hamp, step, dataStep, if_neg hlt]
  rfl

theorem run_data_lt (rest : JsString) :
    run names ownText .data (60 :: rest) = run names ownText .tagOpen rest := by
  rw [run_cons_of_ne (by decide), step, dataStep, if_pos rfl]
  rfl

theorem run_data_none {rest : JsString} (h : reference names false rest = none) :
    run names ownText .data (38 :: rest) = .char 38 :: run names ownText .data rest := by
  rw [run, if_pos rfl, h]
  rfl

theorem run_behind (n : Nat) (rest : JsString) :
    run names ownText (behind n) rest = run names ownText .data (rest.drop n) := by
  induction n generalizing rest with
  | zero => rfl
  | succ n ih =>
    cases rest with
    | nil => rfl
    | cons c rest =>
      rw [List.drop_succ_cons, ← ih rest, behind, run_cons_of_pending (by simp [pending])]
      cases n <;> rfl

theorem run_data_some {rest text : JsString} {n : Nat}
    (h : reference names false rest = some (text, n)) :
    run names ownText .data (38 :: rest) =
      text.map .char ++ run names ownText .data (rest.drop n) := by
  rw [run, if_pos rfl, h, ← run_behind]
  rfl

/-- A `<` that opens nothing is a character. -/
theorem run_tagOpen {c : UInt16} (hc : opensMarkup c = false) (rest : JsString) :
    run names ownText .tagOpen (c :: rest) =
      .char 60 :: run names ownText .data (c :: rest) := by
  obtain ⟨⟨⟨hletter, hslash⟩, hbang⟩, hquestion⟩ :
      ((isLetter c = false ∧ c ≠ 47) ∧ c ≠ 33) ∧ c ≠ 63 := by
    simpa [opensMarkup] using hc
  by_cases hamp : c = 38
  · obtain rfl := hamp
    rw [run, run, if_pos rfl, if_pos rfl]
    dsimp only [pending]
    cases reference names false rest <;> rfl
  · rw [run_cons_of_ne hamp, run_cons_of_ne hamp, step, step, tagOpenStep, if_neg hbang,
      if_neg hslash, if_neg hquestion, if_neg (by simp [hletter]), dataStep]
    split_ifs <;> rfl

/-- In a text without markup and references every unit is a character. -/
theorem run_text {w t : JsString} (ht : t.head? = some 60) (hreference : NoReference names false w)
    (hmarkup : NoMarkup w) :
    run names ownText .data (w ++ t) = w.map .char ++ run names ownText .data t := by
  induction w with
  | nil => rfl
  | cons c w ih =>
    rw [noReference_cons] at hreference
    rw [noMarkup_cons] at hmarkup
    have hrest := ih hreference.2 hmarkup.2
    rw [List.cons_append, List.map_cons, List.cons_append, ← hrest]
    by_cases hamp : c = 38
    · obtain rfl := hamp
      refine run_data_none ?_
      rw [reference_append (delimits_of_head ht)]
      exact hreference.1 rfl
    · by_cases hlt : c = 60
      · obtain rfl := hlt
        rw [run_data_lt]
        cases w with
        | nil =>
          obtain ⟨t', rfl⟩ := List.head?_eq_some_iff.mp ht
          exact run_tagOpen (by decide) t'
        | cons d w => exact run_tagOpen (hmarkup.1 rfl) (w ++ t)
      · exact run_data_cons hamp hlt (w ++ t)

/-- What opens a tag or a comment is no character; `</>` is nothing. -/
theorem length_lead_tagOpen_le {c : UInt16} (hc : opensMarkup c = true) {w t : JsString}
    (ht : t.head? = some 60)
    (ih : ∀ w' : JsString, w'.length < w.length →
      (lead (run names ownText .data (w' ++ t))).length ≤ w'.length) :
    (lead (run names ownText .tagOpen (c :: (w ++ t)))).length ≤ w.length := by
  have hquiet : ∀ {s : State}, s.isQuiet = true →
      (lead (run names ownText s (w ++ t))).length ≤ w.length := by
    intro s hs
    rw [lead_run_of_isQuiet hs]
    exact Nat.zero_le _
  have hamp : c ≠ 38 := by
    rintro rfl
    cases hc
  rw [run_cons_of_ne hamp, step, tagOpenStep]
  split_ifs with hbang hslash hquestion hletter
  · exact hquiet rfl
  · -- behind `</`
    obtain ⟨t', rfl⟩ := List.head?_eq_some_iff.mp ht
    show (lead (run names ownText .endTagOpen (w ++ 60 :: t'))).length ≤ w.length
    cases w with
    | nil =>
      rw [List.nil_append, run_cons_of_ne (by decide)]
      show (lead (run names ownText .bogus t')).length ≤ 0
      rw [lead_run_of_isQuiet rfl]
      exact le_rfl
    | cons d w =>
      rw [List.cons_append, run_cons_of_pending (by simp [pending]), step, endTagOpenStep]
      split_ifs
      · rw [show enter ownText [] (.tagName ⟨true, [nameUnit d], []⟩) (w ++ 60 :: t') =
          .tagName ⟨true, [nameUnit d], []⟩ from rfl, List.nil_append, lead_run_of_isQuiet rfl]
        exact Nat.zero_le _
      · refine le_trans (ih w (by simp)) ?_
        simp
      · rw [show enter ownText [] .bogus (w ++ 60 :: t') = .bogus from rfl, List.nil_append,
          lead_run_of_isQuiet rfl]
        exact Nat.zero_le _
  · exact hquiet rfl
  · exact hquiet rfl
  · simp [opensMarkup, hbang, hslash, hquestion, hletter] at hc

/-- A text before a tag shows at most as many characters as it has, and as many only if it stands
for itself. -/
theorem length_lead_le {t : JsString} (ht : t.head? = some 60)
    (hlead : lead (run names ownText .data t) = []) (w : JsString) :
    (lead (run names ownText .data (w ++ t))).length ≤ w.length ∧
      ((lead (run names ownText .data (w ++ t))).length = w.length →
        NoReference names false w ∧ NoMarkup w) := by
  -- references are taken as a whole, so the induction is on the length
  induction hn : w.length using Nat.strong_induction_on generalizing w with
  | _ n ih =>
    subst hn
    cases w with
    | nil =>
      rw [List.nil_append, hlead]
      refine ⟨le_rfl, fun _ => ⟨?_, ?_⟩⟩
      · intro a b h
        simp at h
      · intro a c b h
        simp at h
    | cons c w =>
      have hw := ih w.length (by simp) w rfl
      rw [noReference_cons, noMarkup_cons, List.cons_append, List.length_cons]
      by_cases hamp : c = 38
      · obtain rfl := hamp
        cases href : reference names false w with
        | none =>
          rw [run_data_none (by rw [reference_append (delimits_of_head ht), href]), lead,
            List.length_cons]
          refine ⟨Nat.succ_le_succ hw.1, fun heq => ?_⟩
          obtain ⟨hreference, hmarkup⟩ := hw.2 (Nat.succ.inj heq)
          exact ⟨⟨fun _ => rfl, hreference⟩, fun h => absurd h (by decide), hmarkup⟩
        | some found =>
          obtain ⟨text, m⟩ := found
          have hbounds := reference_bounds href
          have hshort : (w.drop m).length < (38 :: w).length := by
            rw [List.length_drop, List.length_cons]
            omega
          have hdrop := ih (w.drop m).length hshort (w.drop m) rfl
          rw [List.length_drop] at hdrop
          rw [run_data_some (by rw [reference_append (delimits_of_head ht), href]),
            List.drop_append_of_le_length hbounds.2, lead_map_append, List.length_append]
          exact ⟨by omega, fun heq => by omega⟩
      · by_cases hlt : c = 60
        · obtain rfl := hlt
          rw [run_data_lt]
          by_cases hopens : w.head?.any opensMarkup = true
          · obtain _ | ⟨d, w⟩ := w
            · cases hopens
            · have hshorter : ∀ w' : JsString, w'.length < w.length →
                  (lead (run names ownText .data (w' ++ t))).length ≤ w'.length :=
                fun w' hw' => (ih w'.length (by simp; omega) w' rfl).1
              have hle := length_lead_tagOpen_le hopens ht hshorter
              rw [List.cons_append, List.length_cons]
              exact ⟨by omega, fun heq => by omega⟩
          · have htag : run names ownText .tagOpen (w ++ t) =
                .char 60 :: run names ownText .data (w ++ t) := by
              obtain ⟨t', rfl⟩ := List.head?_eq_some_iff.mp ht
              cases w with
              | nil => exact run_tagOpen (by decide) t'
              | cons d w => exact run_tagOpen (by simpa using hopens) _
            rw [htag, lead, List.length_cons]
            refine ⟨Nat.succ_le_succ hw.1, fun heq => ?_⟩
            obtain ⟨hreference, hmarkup⟩ := hw.2 (Nat.succ.inj heq)
            exact ⟨⟨fun h => absurd h (by decide), hreference⟩,
              fun _ => by simpa using hopens, hmarkup⟩
        · rw [run_data_cons hamp hlt, lead, List.length_cons]
          refine ⟨Nat.succ_le_succ hw.1, fun heq => ?_⟩
          obtain ⟨hreference, hmarkup⟩ := hw.2 (Nat.succ.inj heq)
          exact ⟨⟨fun h => absurd h hamp, hreference⟩, fun h => absurd h hlt, hmarkup⟩

/-! ### Line breaks -/

theorem normalizeFrom_of_not_mem {s : JsString} (hs : 13 ∉ s) : normalizeFrom false s = s := by
  induction s with
  | nil => rfl
  | cons c s ih =>
    rw [List.mem_cons, not_or] at hs
    have hc : c ≠ 13 := Ne.symm hs.1
    simp [normalizeFrom, hc, ih hs.2]

/-- A text before something that is no line feed. -/
theorem normalizeFrom_append {t : JsString} (ht : t.head? ≠ some 10) (behindReturn : Bool)
    (s : JsString) :
    normalizeFrom behindReturn (s ++ t) =
      normalizeFrom behindReturn s ++ normalizeFrom false t := by
  induction s generalizing behindReturn with
  | nil =>
    cases t with
    | nil => cases behindReturn <;> rfl
    | cons c t =>
      have hc : c ≠ 10 := fun h => ht (congrArg some h)
      simp [normalizeFrom, hc]
  | cons c s ih =>
    rw [List.cons_append, normalizeFrom, normalizeFrom]
    split_ifs <;> rw [ih] <;> rfl

theorem length_normalizeFrom_le (behindReturn : Bool) (s : JsString) :
    (normalizeFrom behindReturn s).length ≤ s.length := by
  induction s generalizing behindReturn with
  | nil => exact le_rfl
  | cons c s ih =>
    rw [normalizeFrom]
    split_ifs
    · exact le_trans (ih false) (Nat.le_succ _)
    · exact Nat.succ_le_succ (ih _)
    · exact Nat.succ_le_succ (ih _)

theorem not_mem_normalizeFrom (behindReturn : Bool) (s : JsString) :
    13 ∉ normalizeFrom behindReturn s := by
  induction s generalizing behindReturn with
  | nil => simp [normalizeFrom]
  | cons c s ih =>
    rw [normalizeFrom]
    split_ifs with hskip hreturn
    · exact ih false
    · rw [List.mem_cons, not_or]
      exact ⟨by decide, ih _⟩
    · rw [List.mem_cons, not_or]
      exact ⟨Ne.symm hreturn, ih _⟩

theorem normalizeNewlines_append {a : JsString} (ha : 13 ∉ a) (s : JsString) :
    normalizeNewlines (a ++ s) = a ++ normalizeNewlines s := by
  induction a with
  | nil => rfl
  | cons c a ih =>
    rw [List.mem_cons, not_or] at ha
    have hc : c ≠ 13 := Ne.symm ha.1
    have hrest : normalizeFrom false (a ++ s) = a ++ normalizeFrom false s := ih ha.2
    simp [normalizeNewlines, normalizeFrom, hc, hrest]

/-! ### Inert texts -/

/-- A text that stands for itself between two tags. -/
structure Inert (names : NamedReferences) (w : JsString) : Prop where
  noNull : 0 ∉ w
  noReturn : 13 ∉ w
  noReference : NoReference names false w
  noMarkup : NoMarkup w

/-- The characters at the start that are shown. -/
def shownText (items : List Item) : JsString := (lead items).filter (· ≠ 0)

theorem tokens_of_inert {w t : JsString} (ht : t.head? = some 60) (hw : Inert names w) :
    tokens names ownText (w ++ t) = w.map .char ++ tokens names ownText t := by
  obtain ⟨rest, rfl⟩ := List.head?_eq_some_iff.mp ht
  unfold tokens
  rw [normalizeNewlines_append hw.noReturn]
  exact run_text rfl hw.noReference hw.noMarkup

/-- A text before a tag is shown as it is exactly if it is inert. -/
theorem shownText_tokens_iff {t : JsString} (ht : t.head? = some 60)
    (hlead : lead (tokens names ownText t) = []) (w : JsString) :
    shownText (tokens names ownText (w ++ t)) = w ↔ Inert names w := by
  constructor
  · intro h
    obtain ⟨rest, rfl⟩ := List.head?_eq_some_iff.mp ht
    have hsplit : tokens names ownText (w ++ 60 :: rest) =
        run names ownText .data (normalizeNewlines w ++ normalizeNewlines (60 :: rest)) :=
      congrArg _ (normalizeFrom_append (by simp) false w)
    obtain ⟨hle, heq⟩ := length_lead_le (t := normalizeNewlines (60 :: rest)) rfl hlead
      (normalizeNewlines w)
    rw [← hsplit] at hle heq
    have hfilter : (shownText (tokens names ownText (w ++ 60 :: rest))).length ≤
        (lead (tokens names ownText (w ++ 60 :: rest))).length := List.length_filter_le _ _
    have hnormalize : (normalizeNewlines w).length ≤ w.length := length_normalizeFrom_le false w
    rw [h] at hfilter
    -- nothing has been dropped on the way
    obtain ⟨hreference, hmarkup⟩ := heq (by omega)
    have hlead' : lead (tokens names ownText (w ++ 60 :: rest)) = normalizeNewlines w := by
      have hzero : lead (run names ownText .data (normalizeNewlines (60 :: rest))) = [] := hlead
      rw [hsplit, run_text rfl hreference hmarkup, lead_map_append, hzero, List.append_nil]
    have hall : shownText (tokens names ownText (w ++ 60 :: rest)) = normalizeNewlines w := by
      rw [shownText, hlead']
      exact List.filter_sublist.eq_of_length_le (by rw [← hlead', ← shownText, h, hlead']; omega)
    have hw : normalizeNewlines w = w := hall.symm.trans h
    rw [hw] at hreference hmarkup
    refine ⟨?_, ?_, hreference, hmarkup⟩
    · rw [← h, shownText, List.mem_filter]
      rintro ⟨-, hzero⟩
      exact absurd hzero (by decide)
    · rw [← hw]
      exact not_mem_normalizeFrom false w
  · intro hw
    rw [tokens_of_inert ht hw, shownText, lead_map_append, hlead, List.append_nil,
      List.filter_eq_self]
    intro c hc
    exact decide_eq_true fun h => hw.noNull (h ▸ hc)

end Artha.Html
