import Artha.JavaScript.Number

/-!
# What `trim` leaves

The text is white space, the trimmed text and white space again, and the trimmed text is the only
part that begins and ends in something else (`trim_eq_of_append`).
-/

namespace Artha.JavaScript

/-- A text of white space only. -/
def Blank (s : JsString) : Prop := ∀ c ∈ s, isWhiteSpace c = true

/-- No white space at the ends. -/
def Trimmed (s : JsString) : Prop :=
  (∀ c ∈ s.head?, isWhiteSpace c = false) ∧ ∀ c ∈ s.getLast?, isWhiteSpace c = false

theorem blank_append {s t : JsString} (hs : Blank s) (ht : Blank t) : Blank (s ++ t) := by
  intro c hc
  rcases List.mem_append.mp hc with h | h
  · exact hs c h
  · exact ht c h

theorem blank_reverse {s : JsString} (hs : Blank s) : Blank s.reverse := by
  intro c hc
  exact hs c (List.mem_reverse.mp hc)

theorem trimmed_reverse {s : JsString} (hs : Trimmed s) : Trimmed s.reverse := by
  refine ⟨?_, ?_⟩
  · rw [List.head?_reverse]
    exact hs.2
  · rw [List.getLast?_reverse]
    exact hs.1

theorem trimStart_append {s t : JsString} (hs : Blank s) : trimStart (s ++ t) = trimStart t :=
  List.dropWhile_append_of_pos hs

/-- What stands before a trimmed text is all that is removed at the start. -/
theorem trimStart_eq_self {s : JsString} (hs : ∀ c ∈ s.head?, isWhiteSpace c = false) :
    trimStart s = s := by
  cases s with
  | nil => rfl
  | cons c s =>
    have hc : isWhiteSpace c = false := hs c rfl
    exact List.dropWhile_cons_of_neg (by simp [hc])

/-- `trim`, from its two ends. -/
theorem trim_eq_reverse (s : JsString) : trim s = (trimStart (trimStart s).reverse).reverse := rfl

theorem trim_append_of_blank {s t : JsString} (hs : Blank s) : trim (s ++ t) = trim t := by
  rw [trim_eq_reverse, trimStart_append hs, ← trim_eq_reverse]

/-- A trimmed text between blank ones is what `trim` leaves. -/
theorem trim_eq_of_append {lead core tail : JsString} (hlead : Blank lead) (hcore : Trimmed core)
    (htail : Blank tail) : trim (lead ++ (core ++ tail)) = core := by
  rw [trim_eq_reverse, trimStart_append hlead]
  cases core with
  | nil =>
    have hnil : trimStart tail = [] := by
      rw [← List.append_nil tail, trimStart_append htail]
      rfl
    rw [List.nil_append, hnil]
    rfl
  | cons c core =>
    have hstart : trimStart (c :: core ++ tail) = c :: core ++ tail := trimStart_eq_self hcore.1
    have hend : trimStart (c :: core).reverse = (c :: core).reverse :=
      trimStart_eq_self (trimmed_reverse hcore).1
    rw [hstart, List.reverse_append, trimStart_append (blank_reverse htail), hend,
      List.reverse_reverse]

/-- A text's first characters are white space, and what follows does not begin with any. -/
theorem exists_trimStart (s : JsString) :
    ∃ lead, Blank lead ∧ s = lead ++ trimStart s ∧
      ∀ c ∈ (trimStart s).head?, isWhiteSpace c = false := by
  refine ⟨s.takeWhile isWhiteSpace, ?_, List.takeWhile_append_dropWhile.symm, ?_⟩
  · intro c hc
    exact List.mem_takeWhile_imp hc
  · intro c hc
    have hnot := List.head?_dropWhile_not isWhiteSpace s
    rw [show (s.dropWhile isWhiteSpace).head? = some c from hc] at hnot
    simpa using hnot

/-- Every text is a trimmed one between blank ones. -/
theorem exists_trim (s : JsString) :
    ∃ lead tail, Blank lead ∧ Blank tail ∧ Trimmed (trim s) ∧ s = lead ++ (trim s ++ tail) := by
  obtain ⟨lead, hlead, heq, hhead⟩ := exists_trimStart s
  obtain ⟨back, hback, hback_eq, hback_head⟩ := exists_trimStart (trimStart s).reverse
  have hsplit : trimStart s = trim s ++ back.reverse := by
    rw [trim_eq_reverse, ← List.reverse_append, ← hback_eq, List.reverse_reverse]
  refine ⟨lead, back.reverse, hlead, blank_reverse hback, ⟨?_, ?_⟩, ?_⟩
  · intro c hc
    apply hhead c
    rw [hsplit, List.head?_append, hc]
    rfl
  · intro c hc
    rw [trim_eq_reverse, List.getLast?_reverse] at hc
    exact hback_head c hc
  · rw [← hsplit]
    exact heq

theorem trim_reverse (s : JsString) : trim s.reverse = (trim s).reverse := by
  obtain ⟨lead, tail, hlead, htail, hcore, heq⟩ := exists_trim s
  have hrev : s.reverse = tail.reverse ++ ((trim s).reverse ++ lead.reverse) := by
    conv_lhs => rw [heq]
    simp
  rw [hrev]
  exact trim_eq_of_append (blank_reverse htail) (trimmed_reverse hcore) (blank_reverse hlead)

theorem trim_eq_self {s : JsString} (hs : Trimmed s) : trim s = s := by
  have hnil : Blank [] := by simp [Blank]
  have h := trim_eq_of_append hnil hs hnil
  rw [List.nil_append, List.append_nil] at h
  exact h

end Artha.JavaScript
