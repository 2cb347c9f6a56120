import Mathlib.Data.List.Forall2
import Artha.Config.Setup

/-!
# What `setup_midtrans.php` makes of an `.env`

The seven keys are not prefixes of each other (`eq_of_keyWord_begins`), so an exchange for one key
neither makes nor hides a line of another, and the loop exchanges each line on its own
(`splitOn_foldl_updateKey`).  The flag `$updated` says that some key was found, not that all were: a
file with some of the keys is left without the others.
-/

namespace Artha.Config.Setup

/-- The lines of a file. -/
def lines (content : List Char) : List (List Char) := content.splitOn '\n'

/-- Some line begins with the key of the setting. -/
def Occurs (content : List Char) (config : String) : Prop :=
  ∃ line ∈ lines content, keyWord config <+: line

/-- The setting has a line, and no line gives its key another value. -/
def Installed (content : List Char) (config : String) : Prop :=
  config.toList ∈ lines content ∧
    ∀ line ∈ lines content, keyWord config <+: line → line = config.toList

/-- A line of one of the keys. -/
def IsKeyLine (line : List Char) : Prop := ∃ config ∈ midtransConfig, keyWord config <+: line

/-! ### The seven keys -/

theorem keyWord_ne_nil (config : String) : keyWord config ≠ [] := by
  simp [keyWord]

theorem newline_not_mem_keyWord : ∀ config ∈ midtransConfig, '\n' ∉ keyWord config := by
  decide

theorem newline_not_mem_config : ∀ config ∈ midtransConfig, '\n' ∉ config.toList := by
  decide

theorem keyWord_begins : ∀ config ∈ midtransConfig, keyWord config <+: config.toList := by
  decide

/-- No key is a prefix of another. -/
theorem eq_of_keyWord_begins : ∀ config ∈ midtransConfig, ∀ config' ∈ midtransConfig,
    keyWord config <+: keyWord config' → config = config' := by
  decide

/-- A line is of one key at most. -/
theorem eq_of_prefix_line {config config' : String} (hconfig : config ∈ midtransConfig)
    (hconfig' : config' ∈ midtransConfig) {line : List Char} (h : keyWord config <+: line)
    (h' : keyWord config' <+: line) : config = config' := by
  rcases List.prefix_or_prefix_of_prefix h h' with hle | hle
  · exact eq_of_keyWord_begins config hconfig config' hconfig' hle
  · exact (eq_of_keyWord_begins config' hconfig' config hconfig hle).symm

theorem hasKey_iff {config : String} (hconfig : config ∈ midtransConfig) (content : List Char) :
    hasKey config content = true ↔ Occurs content config :=
  Regex.matchesLine_iff (keyWord_ne_nil config) (newline_not_mem_keyWord config hconfig) content

/-! ### One key -/

/-- What the exchange for one setting makes of a line. -/
def exchange (config : String) (line : List Char) : List Char :=
  Regex.exchanged (keyWord config) config.toList line

/-- An exchange does not change of which key a line is. -/
theorem prefix_exchange_iff {config config' : String} (hconfig : config ∈ midtransConfig)
    (hconfig' : config' ∈ midtransConfig) (line : List Char) :
    keyWord config' <+: exchange config line ↔ keyWord config' <+: line := by
  rw [exchange, Regex.exchanged]
  split_ifs with hmatch
  · constructor
    · intro h
      obtain rfl := eq_of_prefix_line hconfig' hconfig h (keyWord_begins config hconfig)
      exact hmatch
    · intro h
      obtain rfl := eq_of_prefix_line hconfig' hconfig h hmatch
      exact keyWord_begins _ hconfig
  · exact Iff.rfl

theorem lines_updateKey {config : String} (hconfig : config ∈ midtransConfig)
    (state : List Char × Bool) :
    lines (updateKey state config).1 = (lines state.1).map (exchange config) := by
  rw [updateKey]
  split_ifs with hkey
  · exact Regex.splitOn_replaceLine (keyWord_ne_nil config) (newline_not_mem_keyWord config hconfig)
      (newline_not_mem_config config hconfig) state.1
  · -- no line is of this key
    have hsame : (lines state.1).map (exchange config) = (lines state.1).map id := by
      apply List.map_congr_left
      intro line hline
      have hnot : ¬keyWord config <+: line := fun h =>
        hkey ((hasKey_iff hconfig state.1).mpr ⟨line, hline, h⟩)
      rw [exchange, Regex.exchanged, if_neg hnot, id]
    rw [hsame, List.map_id]

theorem occurs_updateKey {config config' : String} (hconfig : config ∈ midtransConfig)
    (hconfig' : config' ∈ midtransConfig) (state : List Char × Bool) :
    Occurs (updateKey state config).1 config' ↔ Occurs state.1 config' := by
  simp only [Occurs, lines_updateKey hconfig, List.mem_map, exists_exists_and_eq_and,
    prefix_exchange_iff hconfig hconfig']

theorem updated_updateKey {config : String} (hconfig : config ∈ midtransConfig)
    (state : List Char × Bool) :
    (updateKey state config).2 = true ↔ state.2 = true ∨ Occurs state.1 config := by
  rw [← hasKey_iff hconfig, updateKey]
  split_ifs with hkey
  · simp [hkey]
  · simp [hkey]

/-! ### The loop -/

/-- What the loop makes of a line. -/
def exchangeAll (configs : List String) (line : List Char) : List Char :=
  configs.foldl (fun line config => exchange config line) line

theorem foldl_updateKey {configs : List String} (hconfigs : ∀ config ∈ configs,
    config ∈ midtransConfig) (state : List Char × Bool) :
    lines (configs.foldl updateKey state).1 = (lines state.1).map (exchangeAll configs) ∧
      ((configs.foldl updateKey state).2 = true ↔
        state.2 = true ∨ ∃ config ∈ configs, Occurs state.1 config) := by
  induction configs generalizing state with
  | nil => exact ⟨(List.map_id _).symm, by simp⟩
  | cons config configs ih =>
    have hconfig := hconfigs config (List.mem_cons_self ..)
    have hrest : ∀ config ∈ configs, config ∈ midtransConfig := fun c hc =>
      hconfigs c (List.mem_cons_of_mem _ hc)
    obtain ⟨hlines, hupdated⟩ := ih hrest (updateKey state config)
    constructor
    · rw [List.foldl_cons, hlines, lines_updateKey hconfig, List.map_map]
      rfl
    · have hoccurs : (∃ c ∈ configs, Occurs (updateKey state config).1 c) ↔
          ∃ c ∈ configs, Occurs state.1 c := by
        refine exists_congr fun c => and_congr_right fun hc => ?_
        exact occurs_updateKey hconfig (hrest c hc) state
      rw [List.foldl_cons, hupdated, updated_updateKey hconfig, hoccurs, or_assoc,
        List.exists_mem_cons_iff]

theorem exchangeAll_of_not {configs : List String} {line : List Char}
    (h : ∀ config ∈ configs, ¬keyWord config <+: line) : exchangeAll configs line = line := by
  induction configs with
  | nil => rfl
  | cons config configs ih =>
    have hnot := h config (List.mem_cons_self ..)
    have hrest := ih fun c hc => h c (List.mem_cons_of_mem _ hc)
    rw [exchangeAll, List.foldl_cons, exchange, Regex.exchanged, if_neg hnot]
    exact hrest

/-- A line of a key becomes the line of the setting. -/
theorem exchangeAll_of_mem {configs : List String} (hconfigs : ∀ config ∈ configs,
    config ∈ midtransConfig) {config : String} (hmem : config ∈ configs) {line : List Char}
    (h : keyWord config <+: line) : exchangeAll configs line = config.toList := by
  induction configs generalizing line with
  | nil => cases hmem
  | cons c configs ih =>
    have hc := hconfigs c (List.mem_cons_self ..)
    have hrest : ∀ config ∈ configs, config ∈ midtransConfig := fun c hc =>
      hconfigs c (List.mem_cons_of_mem _ hc)
    have hstep : exchangeAll (c :: configs) line = exchangeAll configs (exchange c line) := rfl
    rw [hstep]
    by_cases hmem' : config ∈ configs
    · exact ih hrest hmem' ((prefix_exchange_iff hc (hconfigs config hmem) line).mpr h)
    · obtain rfl : config = c := (List.mem_cons.mp hmem).resolve_right hmem'
      rw [exchange, Regex.exchanged, if_pos h]
      apply exchangeAll_of_not
      intro config' hconfig' hbegins
      have heq := eq_of_prefix_line (hrest config' hconfig') hc hbegins (keyWord_begins config hc)
      exact hmem' (heq ▸ hconfig')

/-! ### The file that is written back -/

theorem lines_injective {content content' : List Char} (h : lines content = lines content') :
    content = content' := by
  have hjoin := congrArg (['\n'].intercalate ·) h
  simpa only [lines, List.intercalate_splitOn] using hjoin

/-- The lines that are appended; the last of them is the empty one after the final line break. -/
def appendedLines : List (List Char) :=
  "# Midtrans Configuration".toList :: (midtransConfig.map String.toList ++ [[]])

theorem appended_of_begins : ∀ config ∈ midtransConfig, ∀ line ∈ appendedLines,
    keyWord config <+: line → line = config.toList := by
  decide

theorem lines_updateEnv_of_occurs {content : List Char}
    (h : ∃ config ∈ midtransConfig, Occurs content config) :
    lines (updateEnv content) = (lines content).map (exchangeAll midtransConfig) := by
  obtain ⟨hlines, hupdated⟩ := foldl_updateKey (fun _ hc => hc) (content, false)
  have htrue := hupdated.mpr (Or.inr h)
  rw [updateEnv, if_pos htrue, hlines]

theorem lines_updateEnv_of_not {content : List Char}
    (h : ∀ config ∈ midtransConfig, ¬Occurs content config) :
    lines (updateEnv content) = lines content ++ appendedLines := by
  obtain ⟨hlines, hupdated⟩ := foldl_updateKey (fun _ hc => hc) (content, false)
  have hfalse : ¬(midtransConfig.foldl updateKey (content, false)).2 = true := by
    intro htrue
    obtain hflag | ⟨config, hconfig, hoccurs⟩ := hupdated.mp htrue
    · cases hflag
    · exact h config hconfig hoccurs
  have hkept : (midtransConfig.foldl updateKey (content, false)).1 = content := by
    apply lines_injective
    rw [hlines]
    have hsame : (lines content).map (exchangeAll midtransConfig) = (lines content).map id := by
      apply List.map_congr_left
      intro line hline
      exact exchangeAll_of_not fun config hconfig hbegins => h config hconfig ⟨line, hline, hbegins⟩
    rw [hsame, List.map_id]
  have hblock : "\n# Midtrans Configuration\n".toList ++ (midtransText ++ ['\n']) =
      '\n' :: ("# Midtrans Configuration\n".toList ++ (midtransText ++ ['\n'])) := rfl
  have happended : ("# Midtrans Configuration\n".toList ++ (midtransText ++ ['\n'])).splitOn '\n' =
      appendedLines := by decide
  rw [updateEnv, if_neg hfalse, hkept, hblock, lines, List.splitOn_append_cons_self, happended]
  rfl

/-- Every line of a key gives it the setting's value, in any case. -/
theorem eq_of_mem_lines_updateEnv {content line : List Char} {config : String}
    (hconfig : config ∈ midtransConfig) (hline : line ∈ lines (updateEnv content))
    (hbegins : keyWord config <+: line) : line = config.toList := by
  by_cases hoccurs : ∃ config ∈ midtransConfig, Occurs content config
  · rw [lines_updateEnv_of_occurs hoccurs] at hline
    obtain ⟨old, -, rfl⟩ := List.mem_map.mp hline
    by_cases hold : ∃ config ∈ midtransConfig, keyWord config <+: old
    · obtain ⟨config', hconfig', hbegins'⟩ := hold
      have hnew := exchangeAll_of_mem (fun _ hc => hc) hconfig' hbegins'
      rw [hnew] at hbegins ⊢
      rw [eq_of_prefix_line hconfig hconfig' hbegins (keyWord_begins config' hconfig')]
    · have hsame : exchangeAll midtransConfig old = old :=
        exchangeAll_of_not fun c hc h => hold ⟨c, hc, h⟩
      rw [hsame] at hbegins
      exact absurd ⟨config, hconfig, hbegins⟩ hold
  · have hnone : ∀ config ∈ midtransConfig, ¬Occurs content config := fun c hc h =>
      hoccurs ⟨c, hc, h⟩
    rw [lines_updateEnv_of_not hnone] at hline
    rcases List.mem_append.mp hline with hold | hnew
    · exact absurd ⟨line, hold, hbegins⟩ (hnone config hconfig)
    · exact appended_of_begins config hconfig line hnew hbegins

theorem mem_lines_of_occurs {content : List Char} {config : String}
    (hconfig : config ∈ midtransConfig) (h : Occurs content config) :
    config.toList ∈ lines (updateEnv content) := by
  obtain ⟨line, hline, hbegins⟩ := h
  rw [lines_updateEnv_of_occurs ⟨config, hconfig, line, hline, hbegins⟩]
  exact List.mem_map.mpr ⟨line, hline, exchangeAll_of_mem (fun _ hc => hc) hconfig hbegins⟩

theorem mem_lines_of_none {content : List Char} {config : String}
    (hconfig : config ∈ midtransConfig) (h : ∀ config ∈ midtransConfig, ¬Occurs content config) :
    config.toList ∈ lines (updateEnv content) := by
  rw [lines_updateEnv_of_not h]
  apply List.mem_append_right
  exact List.mem_cons_of_mem _ (List.mem_append_left _ (List.mem_map_of_mem hconfig))

/-- Where some key was found, nothing was added: a key that has a line had one before. -/
theorem occurs_of_mem_lines {content : List Char} {config : String}
    (hconfig : config ∈ midtransConfig) (hfound : ∃ config ∈ midtransConfig, Occurs content config)
    (h : config.toList ∈ lines (updateEnv content)) : Occurs content config := by
  rw [lines_updateEnv_of_occurs hfound] at h
  obtain ⟨old, hold, hnew⟩ := List.mem_map.mp h
  by_cases hkey : ∃ config ∈ midtransConfig, keyWord config <+: old
  · obtain ⟨config', hconfig', hbegins⟩ := hkey
    rw [exchangeAll_of_mem (fun _ hc => hc) hconfig' hbegins] at hnew
    obtain rfl := String.toList_inj.mp hnew
    exact ⟨old, hold, hbegins⟩
  · rw [exchangeAll_of_not fun c hc hbegins => hkey ⟨c, hc, hbegins⟩] at hnew
    rw [hnew] at hold
    exact ⟨config.toList, hold, keyWord_begins config hconfig⟩

/-- Every setting is installed exactly if the file had lines of all keys, or of none. -/
theorem setupMidtrans_installs_iff (content : List Char) (midtransEnv : Option (List Char)) :
    ∃ env, (setupMidtrans ⟨some content, midtransEnv⟩).env = some env ∧
      ((∀ config ∈ midtransConfig, Installed env config) ↔
        (∀ config ∈ midtransConfig, Occurs content config) ∨
          ∀ config ∈ midtransConfig, ¬Occurs content config) := by
  refine ⟨updateEnv content, rfl, ?_⟩
  constructor
  · intro hinstalled
    by_cases hfound : ∃ config ∈ midtransConfig, Occurs content config
    · left
      intro config hconfig
      exact occurs_of_mem_lines hconfig hfound (hinstalled config hconfig).1
    · right
      intro config hconfig hoccurs
      exact hfound ⟨config, hconfig, hoccurs⟩
  · intro h config hconfig
    refine ⟨?_, fun line hline hbegins => eq_of_mem_lines_updateEnv hconfig hline hbegins⟩
    rcases h with hall | hnone
    · exact mem_lines_of_occurs hconfig (hall config hconfig)
    · exact mem_lines_of_none hconfig hnone

/-- A file that sets one of the keys gets that one corrected and none of the others. -/
theorem setupMidtrans_partial :
    (setupMidtrans ⟨some "MIDTRANS_IS_PRODUCTION=true\n".toList, none⟩).env =
      some "MIDTRANS_IS_PRODUCTION=false\n".toList ∧
    ¬Installed "MIDTRANS_IS_PRODUCTION=false\n".toList
      "MIDTRANS_SERVER_KEY=SB-Mid-server-43gE8qD7eYGxQzpdvvf0G-tl" := by
  refine ⟨by decide, fun hinstalled => ?_⟩
  have habsent : "MIDTRANS_SERVER_KEY=SB-Mid-server-43gE8qD7eYGxQzpdvvf0G-tl".toList ∉
      lines "MIDTRANS_IS_PRODUCTION=false\n".toList := by decide
  exact habsent hinstalled.1

/-! ### A second run -/

theorem exists_occurs_updateEnv (content : List Char) :
    ∃ config ∈ midtransConfig, Occurs (updateEnv content) config := by
  by_cases hfound : ∃ config ∈ midtransConfig, Occurs content config
  · obtain ⟨config, hconfig, hoccurs⟩ := hfound
    exact ⟨config, hconfig, _, mem_lines_of_occurs hconfig hoccurs, keyWord_begins config hconfig⟩
  · have hfirst : "MIDTRANS_IS_PRODUCTION=false" ∈ midtransConfig := by decide
    have hline := mem_lines_of_none hfirst fun c hc h => hfound ⟨c, hc, h⟩
    exact ⟨_, hfirst, _, hline, keyWord_begins _ hfirst⟩

theorem updateEnv_updateEnv (content : List Char) :
    updateEnv (updateEnv content) = updateEnv content := by
  apply lines_injective
  rw [lines_updateEnv_of_occurs (exists_occurs_updateEnv content)]
  have hsame : (lines (updateEnv content)).map (exchangeAll midtransConfig) =
      (lines (updateEnv content)).map id := by
    apply List.map_congr_left
    intro line hline
    by_cases hkey : ∃ config ∈ midtransConfig, keyWord config <+: line
    · obtain ⟨config, hconfig, hbegins⟩ := hkey
      rw [exchangeAll_of_mem (fun _ hc => hc) hconfig hbegins, id,
        eq_of_mem_lines_updateEnv hconfig hline hbegins]
    · exact exchangeAll_of_not fun c hc hbegins => hkey ⟨c, hc, hbegins⟩
  rw [hsame, List.map_id]

/-- A second run changes nothing, and the lines that are of no key are kept: where a key was found
each line keeps its place and only lines of keys are changed, else the block is appended. -/
theorem setupMidtrans_idempotent_local (content : List Char) (midtransEnv : Option (List Char)) :
    (setupMidtrans (setupMidtrans ⟨some content, midtransEnv⟩)).env =
        (setupMidtrans ⟨some content, midtransEnv⟩).env ∧
      ∃ env, (setupMidtrans ⟨some content, midtransEnv⟩).env = some env ∧
        ((∃ config ∈ midtransConfig, Occurs content config) →
          List.Forall₂ (fun line line' => (IsKeyLine line → IsKeyLine line') ∧
            (¬IsKeyLine line → line' = line)) (lines content) (lines env)) ∧
        ((∀ config ∈ midtransConfig, ¬Occurs content config) →
          lines env = lines content ++ appendedLines) := by
  refine ⟨congrArg some (updateEnv_updateEnv content), updateEnv content, rfl, fun hfound => ?_,
    lines_updateEnv_of_not⟩
  rw [lines_updateEnv_of_occurs hfound, List.forall₂_map_right_iff, List.forall₂_same]
  intro line _
  constructor
  · rintro ⟨config, hconfig, hbegins⟩
    rw [exchangeAll_of_mem (fun _ hc => hc) hconfig hbegins]
    exact ⟨config, hconfig, keyWord_begins config hconfig⟩
  · intro hkey
    exact exchangeAll_of_not fun c hc hbegins => hkey ⟨c, hc, hbegins⟩

end Artha.Config.Setup
