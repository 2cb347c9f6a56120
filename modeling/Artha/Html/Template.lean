import Artha.Html.Tokenizer

/-!
# Templates

A template is written part by part: a text that is escaped, and behind it a piece of markup that
begins and ends outside of tags.  Its tokens are those of the pieces, with the characters of the
texts between them, whatever the texts are (`tokens_markup`).  The texts are read up to the line
breaks, which are normalised.
-/

namespace Artha.Html

open JavaScript

variable {names : NamedReferences} {ownText : Tag → JsString → Nat}

/-! ### Escaped texts -/

/-- A reference by name is the character, whatever follows. -/
theorem run_named {c : UInt16} {w text : JsString} (hc : c ≠ 35)
    (h : names.lookup (c :: w ++ [59]) = some text) (rest : JsString) :
    run names ownText .data (38 :: (c :: w ++ 59 :: rest)) =
      text.map .char ++ run names ownText .data rest := by
  have hnumeric : numericReference (c :: w ++ 59 :: rest) = none := by
    cases w with
    | nil => simp [numericReference, hc]
    | cons d w => simp [numericReference, hc]
  have hlongest : longestName names (c :: w ++ 59 :: rest) (c :: w ++ 59 :: rest).length =
      some (text, (c :: w).length + 1) :=
    longestName_semicolon h (by simp) le_rfl
  have href : reference names false (c :: w ++ 59 :: rest) = some (text, (c :: w).length + 1) := by
    rw [reference, hnumeric, hlongest]
    simp
  rw [run_data_some href]
  have hdrop : (c :: w ++ 59 :: rest).drop ((c :: w).length + 1) = rest := by
    rw [← List.drop_drop, List.drop_left]
    rfl
  rw [hdrop]

theorem run_apostrophe (rest : JsString) :
    run names ownText .data (38 :: 35 :: 48 :: 51 :: 57 :: 59 :: rest) =
      .char 39 :: run names ownText .data rest := by
  have href : reference names false (35 :: 48 :: 51 :: 57 :: 59 :: rest) = some ([39], 5) := by
    have htake : (48 :: 51 :: 57 :: 59 :: rest).takeWhile (isDigit 10) = [48, 51, 57] := by
      simp only [List.takeWhile_cons]
      rfl
    rw [reference]
    simp only [numericReference, digitsReference, htake]
    rfl
  rw [run_data_some href]
  rfl

/-- What is read of an escaped text is the text. -/
theorem run_escaped (s rest : JsString) :
    run names ownText .data (s.flatMap escapeUnit ++ rest) =
      s.map .char ++ run names ownText .data rest := by
  induction s with
  | nil => rfl
  | cons c s ih =>
    rw [List.flatMap_cons, List.append_assoc, List.map_cons, List.cons_append, ← ih, escapeUnit]
    split_ifs with hamp hlt hgt hquot hapos
    · rw [hamp]
      exact run_named (w := [109, 112]) (by decide) names.amp _
    · rw [hlt]
      exact run_named (w := [116]) (by decide) names.lt _
    · rw [hgt]
      exact run_named (w := [116]) (by decide) names.gt _
    · rw [hquot]
      exact run_named (w := [117, 111, 116]) (by decide) names.quot _
    · rw [hapos]
      exact run_apostrophe _
    · exact run_data_cons hamp hlt _

theorem escapeUnit_cases (c : UInt16) :
    escapeUnit c = [c] ∧ c ≠ 38 ∨
      (c ≠ 10 ∧ c ≠ 13 ∧ 10 ∉ escapeUnit c ∧ 13 ∉ escapeUnit c ∧ escapeUnit c ≠ []) := by
  unfold escapeUnit
  split_ifs with hamp hlt hgt hquot hapos
  · rw [hamp]
    exact .inr (by decide)
  · rw [hlt]
    exact .inr (by decide)
  · rw [hgt]
    exact .inr (by decide)
  · rw [hquot]
    exact .inr (by decide)
  · rw [hapos]
    exact .inr (by decide)
  · exact .inl ⟨rfl, hamp⟩

/-- Behind units that are no line breaks, nothing is left out. -/
theorem normalizeFrom_of_no_break {a : JsString} (hne : a ≠ []) (h10 : 10 ∉ a) (h13 : 13 ∉ a)
    (behindReturn : Bool) (t : JsString) :
    normalizeFrom behindReturn (a ++ t) = a ++ normalizeFrom false t := by
  induction a generalizing behindReturn with
  | nil => exact absurd rfl hne
  | cons c a ih =>
    rw [List.mem_cons, not_or] at h10 h13
    have hc10 : c ≠ 10 := Ne.symm h10.1
    have hc13 : c ≠ 13 := Ne.symm h13.1
    rw [List.cons_append, normalizeFrom, if_neg (fun h => hc10 h.2), if_neg hc13,
      decide_eq_false hc13, List.cons_append]
    congr 1
    cases a with
    | nil => rfl
    | cons d a => exact ih (by simp) h10.2 h13.2 false

/-- Escaping leaves the line breaks alone. -/
theorem normalizeFrom_flatMap_escapeUnit (behindReturn : Bool) (s : JsString) :
    normalizeFrom behindReturn (s.flatMap escapeUnit) =
      (normalizeFrom behindReturn s).flatMap escapeUnit := by
  induction s generalizing behindReturn with
  | nil => cases behindReturn <;> rfl
  | cons c s ih =>
    have h10 : escapeUnit 10 = [10] := by decide
    rw [List.flatMap_cons]
    rcases escapeUnit_cases c with ⟨hself, -⟩ | ⟨hc10, hc13, hno10, hno13, hne⟩
    · rw [hself, List.singleton_append, normalizeFrom, normalizeFrom]
      split_ifs with hskip hreturn
      · exact ih false
      · rw [ih, List.flatMap_cons, h10]
        rfl
      · rw [ih, List.flatMap_cons, hself]
        rfl
    · rw [normalizeFrom_of_no_break hne hno10 hno13, ih, normalizeFrom, if_neg (fun h => hc10 h.2),
        if_neg hc13, decide_eq_false hc13, List.flatMap_cons]

/-! ### Templates -/

/-- The parts of a template: a text, and a piece of markup behind it. -/
abbrev Template := List (JsString × JsString)

namespace Template

def markup (parts : Template) : JsString :=
  parts.flatMap fun p => p.1.flatMap escapeUnit ++ p.2

/-- What the parts are read as, each by itself. -/
def items (parts : Template) : List Item :=
  parts.flatMap fun p => (normalizeNewlines p.1).map .char ++ (feed .data p.2).1

/-- The piece begins and ends outside of tags, has no references, and opens no element whose content
is no markup. -/
def isComplete (a : JsString) : Bool :=
  a.all (fun c => c ≠ 38 && c ≠ 13) && (feed .data a).2 = .data &&
    (feed .data a).1.all fun i =>
      match i with
      | .tag t => !t.isRaw
      | _ => true

/-- Every piece is complete, and no line break of a text goes on in the piece behind it. -/
def WellFormed (parts : Template) : Prop :=
  ∀ p ∈ parts, isComplete p.2 = true ∧ p.2 ≠ [] ∧ (p.1 = [] ∨ p.2.head? ≠ some 10)

theorem of_isComplete {a : JsString} (h : isComplete a = true) :
    (∀ c ∈ a, c ≠ 38 ∧ c ≠ 13) ∧ (feed .data a).2 = .data ∧ NotRaw (feed .data a).1 := by
  obtain ⟨⟨hclean, hstate⟩, hraw⟩ :
      (a.all (fun c => c ≠ 38 && c ≠ 13) = true ∧ (feed .data a).2 = .data) ∧ _ := by
    simpa only [isComplete, Bool.and_eq_true, decide_eq_true_eq] using h
  refine ⟨?_, hstate, ?_⟩
  · intro c hc
    simpa using List.all_eq_true.mp hclean c hc
  · intro t ht
    simpa using List.all_eq_true.mp hraw (.tag t) ht

theorem WellFormed.append {parts parts' : Template} (h : WellFormed parts)
    (h' : WellFormed parts') : WellFormed (parts ++ parts') := by
  intro p hp
  rcases List.mem_append.mp hp with hp | hp
  · exact h p hp
  · exact h' p hp

theorem wellFormed_flatMap {α : Type} {l : List α} {f : α → Template}
    (h : ∀ x ∈ l, WellFormed (f x)) : WellFormed (l.flatMap f) := by
  intro p hp
  obtain ⟨x, hx, hp⟩ := List.mem_flatMap.mp hp
  exact h x hx p hp

theorem markup_append (parts parts' : Template) :
    markup (parts ++ parts') = markup parts ++ markup parts' :=
  List.flatMap_append

theorem markup_flatMap {α : Type} (l : List α) (f : α → Template) :
    markup (l.flatMap f) = l.flatMap fun x => markup (f x) :=
  List.flatMap_assoc

theorem items_append (parts parts' : Template) :
    items (parts ++ parts') = items parts ++ items parts' :=
  List.flatMap_append

theorem items_flatMap {α : Type} (l : List α) (f : α → Template) :
    items (l.flatMap f) = l.flatMap fun x => items (f x) :=
  List.flatMap_assoc

/-- A text and the piece behind it, before the line breaks are looked at. -/
theorem normalizeNewlines_part {s a : JsString} (hclean : ∀ c ∈ a, c ≠ 38 ∧ c ≠ 13)
    (hne : a ≠ []) (hbreak : s = [] ∨ a.head? ≠ some 10) (rest : JsString) :
    normalizeNewlines (s.flatMap escapeUnit ++ (a ++ rest)) =
      (normalizeNewlines s).flatMap escapeUnit ++ (a ++ normalizeNewlines rest) := by
  have hreturn : 13 ∉ a := fun hmem => (hclean 13 hmem).2 rfl
  rcases hbreak with rfl | hhead
  · exact normalizeNewlines_append hreturn rest
  · have hhead' : (a ++ rest).head? ≠ some 10 := by
      cases a with
      | nil => exact absurd rfl hne
      | cons c a => exact hhead
    unfold normalizeNewlines
    rw [normalizeFrom_append hhead', normalizeFrom_flatMap_escapeUnit]
    exact congrArg _ (normalizeNewlines_append hreturn rest)

/-- A template is read part by part, whatever its texts are. -/
theorem tokens_markup {parts : Template} (h : WellFormed parts) :
    tokens names ownText (markup parts) = items parts := by
  induction parts with
  | nil => rfl
  | cons p parts ih =>
    obtain ⟨hcomplete, hne, hbreak⟩ := h p List.mem_cons_self
    obtain ⟨hclean, hstate, hraw⟩ := of_isComplete hcomplete
    have hrest := ih fun q hq => h q (List.mem_cons_of_mem p hq)
    have hamp : 38 ∉ p.2 := fun hmem => (hclean 38 hmem).1 rfl
    have hmarkup : markup (p :: parts) = p.1.flatMap escapeUnit ++ (p.2 ++ markup parts) := by
      simp [markup]
    have hitems : items (p :: parts) =
        (normalizeNewlines p.1).map .char ++ ((feed .data p.2).1 ++ items parts) := by
      simp [items]
    unfold tokens at hrest ⊢
    rw [hmarkup, normalizeNewlines_part hclean hne hbreak, run_escaped, run_append hamp hraw,
      hstate, hrest, hitems]

end Template

end Artha.Html
