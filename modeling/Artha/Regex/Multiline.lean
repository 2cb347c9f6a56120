import Mathlib.Tactic.Basic
import Mathlib.Data.List.Infix

/-!
# Lines that begin with a word

`/^P.*/m` for a literal word `P`: the match begins where a line begins and goes to its end.
`matchesLine` and `replaceLine` scan the text from left to right, as a search for the pattern does;
in terms of the lines, the first asks for one that begins with `P` and the second exchanges each
such line (`matchesLine_iff`, `splitOn_replaceLine`).  The point matches everything but `newline`.
-/

namespace Artha.Regex

variable {α : Type} [DecidableEq α]

/-- Whether the pattern `/^P.*/m` is found; `start` says that a line begins here. -/
def matchesLine (newline : α) (P : List α) (start : Bool) : List α → Bool
  | [] => false
  | x :: xs => start && P.isPrefixOf (x :: xs) || matchesLine newline P (x = newline) xs

/-- Where a scan stands. -/
inductive Place where
  /-- A line begins here. -/
  | start
  | inside
  /-- The rest of the line belongs to a match. -/
  | matched
deriving DecidableEq

/-- The text with every match of `/^P.*/m` exchanged for `replacement`. -/
def replaceLine (newline : α) (P replacement : List α) : Place → List α → List α
  | _, [] => []
  | .start, x :: xs =>
    if P.isPrefixOf (x :: xs) then replacement ++ replaceLine newline P replacement .matched xs
    else x :: replaceLine newline P replacement (if x = newline then .start else .inside) xs
  | .inside, x :: xs =>
    x :: replaceLine newline P replacement (if x = newline then .start else .inside) xs
  | .matched, x :: xs =>
    if x = newline then x :: replaceLine newline P replacement .start xs
    else replaceLine newline P replacement .matched xs

variable {newline : α} {P replacement line rest : List α}

omit [DecidableEq α] in
/-- A word without a line break is at the beginning of a line or not, whatever follows the line. -/
theorem prefix_append_newline_iff (hP : newline ∉ P) :
    P <+: line ++ newline :: rest ↔ P <+: line := by
  constructor
  · intro h
    rcases List.prefix_or_prefix_of_prefix h (List.prefix_append line (newline :: rest)) with
      hshort | hlong
    · exact hshort
    · obtain ⟨tail, rfl⟩ := hlong
      have htail : tail <+: newline :: rest := (List.prefix_append_right_inj line).mp h
      cases tail with
      | nil =>
        rw [List.append_nil]
      | cons x tail =>
        obtain rfl : x = newline := (List.cons_prefix_cons.mp htail).1
        exact absurd (List.mem_append_right line (List.mem_cons_self ..)) hP
  · intro h
    exact h.trans (List.prefix_append _ _)

/-! ### One line -/

theorem matchesLine_append (hline : newline ∉ line) :
    matchesLine newline P false (line ++ rest) = matchesLine newline P false rest := by
  induction line with
  | nil => rfl
  | cons x line ih =>
    have hx : x ≠ newline := fun h => hline (h ▸ List.mem_cons_self ..)
    have htail := ih fun h => hline (List.mem_cons_of_mem _ h)
    simpa [matchesLine, hx] using htail

theorem replaceLine_inside_append (hline : newline ∉ line) :
    replaceLine newline P replacement .inside (line ++ rest) =
      line ++ replaceLine newline P replacement .inside rest := by
  induction line with
  | nil => rfl
  | cons x line ih =>
    have hx : x ≠ newline := fun h => hline (h ▸ List.mem_cons_self ..)
    have htail := ih fun h => hline (List.mem_cons_of_mem _ h)
    simp [replaceLine, hx, htail]

theorem replaceLine_matched_append (hline : newline ∉ line) :
    replaceLine newline P replacement .matched (line ++ rest) =
      replaceLine newline P replacement .matched rest := by
  induction line with
  | nil => rfl
  | cons x line ih =>
    have hx : x ≠ newline := fun h => hline (h ▸ List.mem_cons_self ..)
    have htail := ih fun h => hline (List.mem_cons_of_mem _ h)
    simp [replaceLine, hx, htail]

theorem matchesLine_start (hne : P ≠ []) (text : List α) :
    matchesLine newline P true text =
      (decide (P <+: text) || matchesLine newline P false text) := by
  cases text with
  | nil => simp [matchesLine, hne]
  | cons x xs =>
    have hdecide : P.isPrefixOf (x :: xs) = decide (P <+: x :: xs) := by
      rw [Bool.eq_iff_iff, List.isPrefixOf_iff_prefix, decide_eq_true_iff]
    simp [matchesLine, hdecide]

theorem replaceLine_start (hne : P ≠ []) (hP : newline ∉ P) (text : List α) :
    replaceLine newline P replacement .start text =
      if P <+: text then replacement ++ replaceLine newline P replacement .matched text
      else replaceLine newline P replacement .inside text := by
  cases text with
  | nil => simp [replaceLine, hne]
  | cons x xs =>
    by_cases hbegins : P <+: x :: xs
    · have hx : x ≠ newline := by
        obtain ⟨y, tail, rfl⟩ := List.exists_cons_of_ne_nil hne
        obtain rfl : y = x := (List.cons_prefix_cons.mp hbegins).1
        exact fun h => hP (h ▸ List.mem_cons_self ..)
      rw [replaceLine, if_pos (List.isPrefixOf_iff_prefix.mpr hbegins), if_pos hbegins, replaceLine,
        if_neg hx]
    · rw [replaceLine, if_neg (by rwa [List.isPrefixOf_iff_prefix]), if_neg hbegins, replaceLine]

/-! ### All lines -/

/-- What the replacement makes of a line. -/
def exchanged (P replacement line : List α) : List α :=
  if P <+: line then replacement else line

theorem matchesLine_intercalate (hne : P ≠ []) (hP : newline ∉ P) {ls : List (List α)}
    (hls : ∀ line ∈ ls, newline ∉ line) :
    matchesLine newline P true ([newline].intercalate ls) = true ↔ ∃ line ∈ ls, P <+: line := by
  induction ls with
  | nil => simp [matchesLine]
  | cons line ls ih =>
    have hline := hls line (List.mem_cons_self ..)
    have htail := ih fun l hl => hls l (List.mem_cons_of_mem _ hl)
    cases ls with
    | nil =>
      have hend : matchesLine newline P false (line ++ []) = matchesLine newline P false [] :=
        matchesLine_append hline
      rw [List.append_nil] at hend
      rw [List.intercalate_singleton, matchesLine_start hne, hend]
      simp [matchesLine]
    | cons next ls =>
      rw [List.intercalate_cons_cons, List.append_assoc, List.singleton_append,
        matchesLine_start hne, matchesLine_append hline, matchesLine, Bool.or_eq_true,
        decide_eq_true_iff, prefix_append_newline_iff hP]
      simpa using or_congr_right htail

theorem replaceLine_intercalate (hne : P ≠ []) (hP : newline ∉ P) {ls : List (List α)}
    (hls : ∀ line ∈ ls, newline ∉ line) :
    replaceLine newline P replacement .start ([newline].intercalate ls) =
      [newline].intercalate (ls.map (exchanged P replacement)) := by
  induction ls with
  | nil => simp [replaceLine]
  | cons line ls ih =>
    have hline := hls line (List.mem_cons_self ..)
    have htail := ih fun l hl => hls l (List.mem_cons_of_mem _ hl)
    cases ls with
    | nil =>
      have hinside : replaceLine newline P replacement .inside (line ++ []) =
          line ++ replaceLine newline P replacement .inside [] := replaceLine_inside_append hline
      have hmatched : replaceLine newline P replacement .matched (line ++ []) =
          replaceLine newline P replacement .matched [] := replaceLine_matched_append hline
      rw [List.append_nil] at hinside hmatched
      rw [List.intercalate_singleton, replaceLine_start hne hP, hinside, hmatched]
      simp [replaceLine, exchanged]
    | cons next ls =>
      have hinside : replaceLine newline P replacement .inside
          (newline :: [newline].intercalate (next :: ls)) =
            newline :: [newline].intercalate ((next :: ls).map (exchanged P replacement)) := by
        rw [replaceLine, if_pos rfl, htail]
      have hmatched : replaceLine newline P replacement .matched
          (newline :: [newline].intercalate (next :: ls)) =
            newline :: [newline].intercalate ((next :: ls).map (exchanged P replacement)) := by
        rw [replaceLine, if_pos rfl, htail]
      rw [List.intercalate_cons_cons, List.append_assoc, List.singleton_append,
        replaceLine_start hne hP, replaceLine_inside_append hline,
        replaceLine_matched_append hline, hinside, hmatched]
      have hbegins : P <+: line ++ newline :: [newline].intercalate (next :: ls) ↔ P <+: line :=
        prefix_append_newline_iff hP
      by_cases hmatch : P <+: line
      · rw [if_pos (hbegins.mpr hmatch)]
        simp [exchanged, hmatch]
      · rw [if_neg fun h => hmatch (hbegins.mp h)]
        simp [exchanged, hmatch]

theorem not_mem_of_mem_splitOn {text line : List α} (h : line ∈ text.splitOn newline) :
    newline ∉ line := by
  induction text generalizing line with
  | nil =>
    rw [List.mem_singleton.mp h]
    exact List.not_mem_nil
  | cons x text ih =>
    rw [List.splitOn_cons_eq_if_modifyHead] at h
    split_ifs at h with hx
    · rcases List.mem_cons.mp h with rfl | hmem
      · exact List.not_mem_nil
      · exact ih hmem
    · cases hsplit : text.splitOn newline with
      | nil => exact absurd hsplit (List.splitOn_ne_nil newline text)
      | cons first lines =>
        rw [hsplit, List.modifyHead_cons] at h
        rcases List.mem_cons.mp h with rfl | hmem
        · have hfirst : newline ∉ first := ih (by rw [hsplit]; exact List.mem_cons_self ..)
          have hne : newline ≠ x := fun heq => hx (beq_iff_eq.mpr heq.symm)
          exact List.not_mem_cons_of_ne_of_not_mem hne hfirst
        · exact ih (by rw [hsplit]; exact List.mem_cons_of_mem _ hmem)

/-- The pattern is found exactly if a line begins with the word. -/
theorem matchesLine_iff (hne : P ≠ []) (hP : newline ∉ P) (text : List α) :
    matchesLine newline P true text = true ↔ ∃ line ∈ text.splitOn newline, P <+: line := by
  have hlines : matchesLine newline P true ([newline].intercalate (text.splitOn newline)) = true ↔
      ∃ line ∈ text.splitOn newline, P <+: line :=
    matchesLine_intercalate hne hP fun _ => not_mem_of_mem_splitOn
  rwa [List.intercalate_splitOn] at hlines

/-- The replacement exchanges the lines that begin with the word. -/
theorem splitOn_replaceLine (hne : P ≠ []) (hP : newline ∉ P) (hreplacement : newline ∉ replacement)
    (text : List α) :
    (replaceLine newline P replacement .start text).splitOn newline =
      (text.splitOn newline).map (exchanged P replacement) := by
  have hlines : replaceLine newline P replacement .start
      ([newline].intercalate (text.splitOn newline)) =
        [newline].intercalate ((text.splitOn newline).map (exchanged P replacement)) :=
    replaceLine_intercalate hne hP fun _ => not_mem_of_mem_splitOn
  rw [List.intercalate_splitOn] at hlines
  rw [hlines]
  apply List.splitOn_intercalate
  · intro line hline
    obtain ⟨line', hline', rfl⟩ := List.mem_map.mp hline
    rw [exchanged]
    split_ifs
    · exact hreplacement
    · exact not_mem_of_mem_splitOn hline'
  · rw [ne_eq, List.map_eq_nil_iff]
    exact List.splitOn_ne_nil newline text

end Artha.Regex
