import Artha.Client.Security
import Artha.JavaScript.Trim

/-!
# When `sanitizeInput` normalises in one pass

The text is trimmed before the brackets are removed, so white space behind a bracket at one of the
ends is left there (`exposed_iff`): the result of `"< a"` begins with a blank.  Both passes read the
same from either end (`sanitizeText_reverse`), and what is said of the start holds of the end.
-/

namespace Artha.Client

open JavaScript

/-! ### What the passes keep -/

theorem isBracket_of_isWhiteSpace {c : UInt16} (hc : isWhiteSpace c = true) :
    isBracket c = false := by
  rcases Bool.eq_false_or_eq_true (isBracket c) with h | h
  · have hcases : c = 60 ∨ c = 62 := by simpa [isBracket] using h
    rcases hcases with rfl | rfl <;> exact absurd hc (by decide)
  · exact h

theorem filter_blank {s : JsString} (hs : Blank s) : s.filter (!isBracket ·) = s := by
  rw [List.filter_eq_self]
  intro c hc
  simp [isBracket_of_isWhiteSpace (hs c hc)]

theorem sanitizeText_reverse (s : JsString) :
    sanitizeText s.reverse = (sanitizeText s).reverse := by
  rw [sanitizeText, trim_reverse, List.filter_reverse, sanitizeText]

theorem sanitizeText_eq_self {s : JsString} (hs : Trimmed s) (hb : ∀ c ∈ s, isBracket c = false) :
    sanitizeText s = s := by
  rw [sanitizeText, trim_eq_self hs, List.filter_eq_self]
  intro c hc
  simp [hb c hc]

theorem not_isBracket_of_mem {s : JsString} {c : UInt16} (hc : c ∈ sanitizeText s) :
    isBracket c = false := by
  have h := (List.mem_filter.mp hc).2
  simpa using h

/-- Behind the brackets, the text is the result between white space. -/
theorem exists_filter_eq (s : JsString) :
    ∃ lead tail, Blank lead ∧ Blank tail ∧
      s.filter (!isBracket ·) = lead ++ (sanitizeText s ++ tail) := by
  obtain ⟨lead, tail, hlead, htail, -, heq⟩ := exists_trim s
  refine ⟨lead, tail, hlead, htail, ?_⟩
  conv_lhs => rw [heq]
  rw [List.filter_append, List.filter_append, filter_blank hlead, filter_blank htail,
    sanitizeText]

/-! ### White space that the removal exposes -/

/-- White space that has only white space and a bracket before it and more of the text behind
it. -/
def Exposed (s : JsString) : Prop :=
  ∃ a w b, s = a ++ w :: b ∧ isWhiteSpace w = true ∧
    (∀ c ∈ a, isWhiteSpace c = true ∨ isBracket c = true) ∧ (∃ c ∈ a, isBracket c = true) ∧
    ∃ c ∈ b, isWhiteSpace c = false

/-- A text of white space and brackets, at its first bracket. -/
theorem exists_first_bracket {a : JsString}
    (ha : ∀ c ∈ a, isWhiteSpace c = true ∨ isBracket c = true) (hb : ∃ c ∈ a, isBracket c = true) :
    ∃ lead c rest, a = lead ++ c :: rest ∧ Blank lead ∧ isBracket c = true := by
  obtain ⟨c, hc⟩ := Option.isSome_iff_exists.mp (List.find?_isSome.mpr hb)
  obtain ⟨hbc, lead, rest, heq, hlead⟩ := List.find?_eq_some_iff_append.mp hc
  refine ⟨lead, c, rest, heq, ?_, hbc⟩
  intro d hd
  rcases ha d (heq ▸ List.mem_append_left _ hd) with hw | hbd
  · exact hw
  · have hnot := hlead d hd
    simp [hbd] at hnot

/-- Nothing is trimmed in front of a text that is not blank. -/
theorem trim_append {s b : JsString} (hs : ∀ c ∈ s.head?, isWhiteSpace c = false) (hne : s ≠ [])
    (hb : ∃ c ∈ b, isWhiteSpace c = false) : ∃ t, trim (s ++ b) = s ++ t := by
  obtain ⟨lead, tail, hlead, htail, hcore, heq⟩ := exists_trim b
  obtain ⟨c, s, rfl⟩ := List.exists_cons_of_ne_nil hne
  have hne_trim : trim b ≠ [] := by
    intro hnil
    obtain ⟨d, hd, hdw⟩ := hb
    rw [heq, hnil, List.nil_append] at hd
    exact absurd (blank_append hlead htail d hd) (by simp [hdw])
  refine ⟨lead ++ trim b, ?_⟩
  have hends : Trimmed (c :: s ++ (lead ++ trim b)) := by
    refine ⟨hs, ?_⟩
    rw [← List.append_assoc, List.getLast?_append_of_ne_nil _ hne_trim]
    exact hcore.2
  have hnil : Blank [] := by simp [Blank]
  have h := trim_eq_of_append hnil hends htail
  rw [List.nil_append, List.append_assoc, List.append_assoc, ← heq] at h
  exact h

theorem head?_of_exposed {s : JsString} (h : Exposed s) :
    ∃ c ∈ (sanitizeText s).head?, isWhiteSpace c = true := by
  obtain ⟨a, w, b, rfl, hw, ha, hbracket, hb⟩ := h
  obtain ⟨lead, c, rest, rfl, hlead, hc⟩ := exists_first_bracket ha hbracket
  have hcw : isWhiteSpace c = false := by
    rcases Bool.eq_false_or_eq_true (isWhiteSpace c) with h | h
    · rw [isBracket_of_isWhiteSpace h] at hc
      simp at hc
    · exact h
  have hhead : ∀ d ∈ (c :: (rest ++ [w])).head?, isWhiteSpace d = false := by simpa using hcw
  obtain ⟨t, ht⟩ := trim_append hhead (by simp) hb
  have htrim : trim (lead ++ c :: rest ++ w :: b) = c :: (rest ++ w :: t) := by
    rw [List.append_assoc, trim_append_of_blank hlead]
    simpa using ht
  have hkeep : ∀ d ∈ rest.filter (!isBracket ·), isWhiteSpace d = true := by
    intro d hd
    obtain ⟨hmem, hnot⟩ := List.mem_filter.mp hd
    rcases ha d (by simp [hmem]) with hdw | hdb
    · exact hdw
    · simp [hdb] at hnot
  have hresult : sanitizeText (lead ++ c :: rest ++ w :: b) =
      rest.filter (!isBracket ·) ++ w :: t.filter (!isBracket ·) := by
    rw [sanitizeText, htrim]
    simp [hc, isBracket_of_isWhiteSpace hw]
  rw [hresult]
  cases hrest : rest.filter (!isBracket ·) with
  | nil => exact ⟨w, rfl, hw⟩
  | cons d kept => exact ⟨d, rfl, hkeep d (by simp [hrest])⟩

theorem exposed_of_head? {s : JsString} (h : ∃ c ∈ (sanitizeText s).head?, isWhiteSpace c = true) :
    Exposed s := by
  obtain ⟨w, hmem, hw⟩ := h
  obtain ⟨kept, hkept⟩ := List.head?_eq_some_iff.mp hmem
  obtain ⟨a, b, hsplit, ha, -, -⟩ := List.filter_eq_cons_iff.mp hkept
  obtain ⟨lead, tail, hlead, htail, hcore, heq⟩ := exists_trim s
  have hbrackets : ∀ c ∈ a, isBracket c = true := by
    intro c hc
    simpa using ha c hc
  have hne : a ≠ [] := by
    rintro rfl
    have hfirst := hcore.1 w (by rw [hsplit]; rfl)
    simp [hw] at hfirst
  have hlast : ∃ c ∈ b, isWhiteSpace c = false := by
    cases b with
    | nil =>
      have hend := hcore.2 w (by rw [hsplit]; simp)
      simp [hw] at hend
    | cons d b =>
      have hlast : (trim s).getLast? = some ((d :: b).getLast (by simp)) := by
        rw [hsplit, List.append_cons, List.getLast?_append_of_ne_nil _ (by simp),
          List.getLast?_eq_some_getLast]
      exact ⟨_, List.getLast_mem _, hcore.2 _ hlast⟩
  obtain ⟨c, a, rfl⟩ := List.exists_cons_of_ne_nil hne
  refine ⟨lead ++ c :: a, w, b ++ tail, ?_, hw, ?_, ?_, ?_⟩
  · rw [heq, hsplit]
    simp
  · intro d hd
    rcases List.mem_append.mp hd with hd | hd
    · exact .inl (hlead d hd)
    · exact .inr (hbrackets d hd)
  · exact ⟨c, by simp, hbrackets c (by simp)⟩
  · obtain ⟨d, hd, hdw⟩ := hlast
    exact ⟨d, List.mem_append_left _ hd, hdw⟩

/-- The result begins with white space exactly where the removal exposes it. -/
theorem exposed_iff (s : JsString) :
    Exposed s ↔ ∃ c ∈ (sanitizeText s).head?, isWhiteSpace c = true :=
  ⟨head?_of_exposed, exposed_of_head?⟩

theorem trimmed_sanitizeText_iff (s : JsString) :
    Trimmed (sanitizeText s) ↔ ¬Exposed s ∧ ¬Exposed s.reverse := by
  rw [exposed_iff, exposed_iff, sanitizeText_reverse, List.head?_reverse, Trimmed]
  simp

/-! ### The law -/

/-- What one pass over a text is to achieve. -/
structure Normalised (s r : JsString) : Prop where
  no_brackets : ∀ c ∈ r, isBracket c = false
  trimmed : Trimmed r
  /-- Of the characters that are no brackets, only white space at the ends is missing. -/
  keeps : ∃ lead tail, Blank lead ∧ Blank tail ∧ s.filter (!isBracket ·) = lead ++ (r ++ tail)
  fixed : sanitizeInput (.string r) = .string r

theorem normalised_iff (s : JsString) :
    Normalised s (sanitizeText s) ↔ Trimmed (sanitizeText s) := by
  refine ⟨Normalised.trimmed, ?_⟩
  intro h
  have hbrackets : ∀ c ∈ sanitizeText s, isBracket c = false := fun c => not_isBracket_of_mem
  refine ⟨hbrackets, h, exists_filter_eq s, ?_⟩
  rw [sanitizeInput, sanitizeText_eq_self h hbrackets]

/-- One pass normalises a text exactly if no white space stands behind a bracket at its start or
before one at its end, with more of the text on the other side. -/
theorem sanitizeInput_normalises_iff (s : JsString) :
    (∃ r, sanitizeInput (.string s) = .string r ∧ Normalised s r) ↔
      ¬Exposed s ∧ ¬Exposed s.reverse := by
  rw [← trimmed_sanitizeText_iff, ← normalised_iff]
  constructor
  · rintro ⟨r, hr, hn⟩
    have heq : sanitizeText s = r := Json.string.inj hr
    rw [heq]
    exact hn
  · intro h
    exact ⟨_, rfl, h⟩

/-- `"< a"`. -/
theorem sanitizeInput_exposes :
    sanitizeInput (.string [60, 32, 97]) = .string [32, 97] ∧
      sanitizeInput (.string [32, 97]) = .string [97] ∧
      ¬∃ r, sanitizeInput (.string [60, 32, 97]) = .string r ∧ Normalised [60, 32, 97] r := by
  refine ⟨rfl, rfl, ?_⟩
  rintro ⟨r, hr, hn⟩
  have heq : [32, 97] = r := Json.string.inj hr
  have hblank := hn.trimmed.1 32 (by rw [← heq]; rfl)
  exact absurd hblank (by decide)

end Artha.Client
