import Artha.Html.Tokenizer

/-!
# What a markup shows

`contents name items` are the texts directly behind the start tags of one name.  A template is read
part by part: a part that takes the tokenizer from one state to another, and completes harmless tags
only, can be left behind (`Passes.tokens_append`); behind a part that ends with a start tag comes
the content of that element (`OpensAt.contents_append`).
-/

namespace Artha.Html

open JavaScript

variable {names : NamedReferences} {ownText : Tag → JsString → Nat}

/-- A start tag of that name. -/
def Tag.opens (name : JsString) (t : Tag) : Bool := !t.closing && t.name = name

/-- The texts behind the start tags. -/
def contents (name : JsString) : List Item → List JsString
  | [] => []
  | .tag t :: items =>
    if t.opens name then shownText items :: contents name items else contents name items
  | .char _ :: items => contents name items
  | .comment :: items => contents name items

theorem contents_append {name : JsString} {items : List Item}
    (h : ∀ t, .tag t ∈ items → t.opens name = false) (items' : List Item) :
    contents name (items ++ items') = contents name items' := by
  induction items with
  | nil => rfl
  | cons i items ih =>
    have hrest := ih fun t ht => h t (List.mem_cons_of_mem i ht)
    cases i with
    | char c => exact hrest
    | comment => exact hrest
    | tag t =>
      rw [List.cons_append, contents, h t List.mem_cons_self]
      exact hrest

theorem contents_map_char (name w : JsString) (items : List Item) :
    contents name (w.map .char ++ items) = contents name items := by
  refine contents_append ?_ items
  simp

/-! ### Values do not matter

What is read next does not depend on the values of the attributes, so that a part of a template can
be tested in one state for all of them. -/

/-- A tag without the values of its attributes. -/
def Tag.erase (t : Tag) : Tag := { t with attributes := t.attributes.map fun a => (a.1, []) }

def Item.erase : Item → Item
  | .tag t => .tag t.erase
  | i => i

def State.erase : State → State
  | .tagName t => .tagName t.erase
  | .beforeAttribute t => .beforeAttribute t.erase
  | .attributeName t name => .attributeName t.erase name
  | .afterAttributeName t name => .afterAttributeName t.erase name
  | .beforeValue t name => .beforeValue t.erase name
  | .quoted quote t name _ => .quoted quote t.erase name []
  | .unquoted t name _ => .unquoted t.erase name []
  | s => s

theorem Tag.erase_erase (t : Tag) : t.erase.erase = t.erase := by
  simp [Tag.erase, Function.comp_def]

theorem Tag.erase_add (t : Tag) (name value : JsString) :
    (t.erase.add name []).erase = (t.add name value).erase := by
  have hany : (t.erase.attributes.any fun a => decide (a.1 = name)) =
      t.attributes.any fun a => decide (a.1 = name) := by
    simp [Tag.erase, List.any_map, Function.comp_def]
  unfold Tag.add
  rw [hany]
  split_ifs <;> simp [Tag.erase, Function.comp_def]

/-- What a state can read next, up to values. -/
theorem erase_step (s : State) (c : UInt16) :
    (step s.erase c).1.map Item.erase = (step s c).1.map Item.erase ∧
      (step s.erase c).2.erase = (step s c).2.erase := by
  cases s with
  | tagName t =>
    simp only [State.erase, step, tagNameStep]
    split_ifs <;> simp [Item.erase, Tag.erase, Function.comp_def]
  | beforeAttribute t =>
    simp only [State.erase, step, beforeAttributeStep]
    split_ifs <;> simp [Item.erase, Tag.erase_erase]
  | attributeName t name =>
    simp only [State.erase, step, attributeNameStep]
    split_ifs <;> simp [Item.erase, Tag.erase_erase, t.erase_add name []]
  | afterAttributeName t name =>
    simp only [State.erase, step, afterAttributeNameStep]
    split_ifs <;> simp [Item.erase, Tag.erase_erase, t.erase_add name []]
  | beforeValue t name =>
    simp only [State.erase, step, beforeValueStep]
    split_ifs <;> simp [Item.erase, Tag.erase_erase, t.erase_add name []]
  | quoted quote t name value =>
    simp only [State.erase, step, quotedStep]
    split_ifs <;> simp [Tag.erase_erase, t.erase_add name value]
  | unquoted t name value =>
    simp only [State.erase, step, unquotedStep]
    split_ifs <;> simp [Item.erase, Tag.erase_erase, t.erase_add name value]
  | _ => exact ⟨rfl, rfl⟩

theorem erase_feed {s s' : State} (h : s'.erase = s.erase) (a : JsString) :
    (feed s' a).1.map Item.erase = (feed s a).1.map Item.erase ∧
      (feed s' a).2.erase = (feed s a).2.erase := by
  induction a generalizing s s' with
  | nil => exact ⟨rfl, h⟩
  | cons c a ih =>
    obtain ⟨hitems, hstate⟩ := erase_step s c
    obtain ⟨hitems', hstate'⟩ := erase_step s' c
    rw [h] at hitems' hstate'
    obtain ⟨hrest, hend⟩ := ih (hstate'.symm.trans hstate)
    rw [feed, feed, List.map_append, List.map_append, ← hitems', hitems, hrest]
    exact ⟨rfl, hend⟩

/-! ### The first attribute stays -/

/-- The tag that is being read. -/
def State.tag? : State → Option Tag
  | .tagName t => some t
  | .beforeAttribute t => some t
  | .attributeName t _ => some t
  | .afterAttributeName t _ => some t
  | .beforeValue t _ => some t
  | .quoted _ t _ _ => some t
  | .unquoted t _ _ => some t
  | _ => none

theorem Tag.head_add {t : Tag} {a : JsString × JsString} (h : t.attributes.head? = some a)
    (name value : JsString) : (t.add name value).attributes.head? = some a := by
  unfold Tag.add
  split_ifs
  · exact h
  · obtain ⟨rest, hrest⟩ := List.head?_eq_some_iff.mp h
    rw [hrest]
    rfl

/-- The tag goes on, or is complete; its first attribute is the same. -/
theorem step_of_head {s : State} {t : Tag} {a : JsString × JsString} (hs : s.tag? = some t)
    (ha : t.attributes.head? = some a) (c : UInt16) :
    ((step s c).1 = [] ∧ ∃ t', (step s c).2.tag? = some t' ∧ t'.attributes.head? = some a) ∨
      ∃ t', (step s c).1 = [.tag t'] ∧ t'.attributes.head? = some a := by
  cases s with
  | tagName u =>
    obtain rfl := Option.some.inj hs
    rw [step, tagNameStep]
    split_ifs <;> simp [State.tag?, ha]
  | beforeAttribute u =>
    obtain rfl := Option.some.inj hs
    rw [step, beforeAttributeStep]
    split_ifs <;> simp [State.tag?, ha]
  | attributeName u name =>
    obtain rfl := Option.some.inj hs
    rw [step, attributeNameStep]
    split_ifs <;> simp [State.tag?, ha, Tag.head_add ha]
  | afterAttributeName u name =>
    obtain rfl := Option.some.inj hs
    rw [step, afterAttributeNameStep]
    split_ifs <;> simp [State.tag?, ha, Tag.head_add ha]
  | beforeValue u name =>
    obtain rfl := Option.some.inj hs
    rw [step, beforeValueStep]
    split_ifs <;> simp [State.tag?, ha, Tag.head_add ha]
  | quoted quote u name value =>
    obtain rfl := Option.some.inj hs
    rw [step, quotedStep]
    split_ifs <;> simp [State.tag?, ha, Tag.head_add ha]
  | unquoted u name value =>
    obtain rfl := Option.some.inj hs
    rw [step, unquotedStep]
    split_ifs <;> simp [State.tag?, ha, Tag.head_add ha]
  | _ => cases hs

/-- The tag goes on to the end of the part, or is the first item of it. -/
theorem feed_of_head {s : State} {t : Tag} {a : JsString × JsString} (hs : s.tag? = some t)
    (ha : t.attributes.head? = some a) (w : JsString) :
    (∃ t', (feed s w).2.tag? = some t') ∨
      ∃ t' items, (feed s w).1 = .tag t' :: items ∧ t'.attributes.head? = some a := by
  induction w generalizing s t with
  | nil => exact Or.inl ⟨t, hs⟩
  | cons c w ih =>
    rw [feed]
    rcases step_of_head hs ha c with ⟨hitems, t', ht', ha'⟩ | ⟨t', hitems, ha'⟩
    · rw [hitems]
      exact ih ht' ha'
    · rw [hitems]
      exact Or.inr ⟨t', _, rfl, ha'⟩

theorem pending_of_tag {s : State} {t : Tag} (hs : s.tag? = some t) : pending s = none := by
  cases s <;> first | rfl | cases hs

/-- The tag is the next item, if there is any. -/
theorem run_of_head {s : State} {t : Tag} {a : JsString × JsString} (hs : s.tag? = some t)
    (ha : t.attributes.head? = some a) (rest : JsString) :
    run names ownText s rest = [] ∨
      ∃ t' items, run names ownText s rest = .tag t' :: items ∧ t'.attributes.head? = some a := by
  induction rest generalizing s t with
  | nil =>
    left
    cases s <;> first | rfl | cases hs
  | cons c rest ih =>
    rw [run_cons_of_pending (by rw [pending_of_tag hs, ite_self])]
    rcases step_of_head hs ha c with ⟨hitems, t', ht', ha'⟩ | ⟨t', hitems, ha'⟩
    · rw [hitems]
      exact ih ht' ha'
    · rw [hitems]
      exact Or.inr ⟨t', _, rfl, ha'⟩

/-! ### Another first value

A tag is read in the same way if its first attribute has another value. -/

def Tag.setFirst (v : JsString) (t : Tag) : Tag :=
  { t with attributes := t.attributes.modifyHead fun a => (a.1, v) }

theorem Tag.setFirst_add {t : Tag} (hne : t.attributes ≠ []) (v name value : JsString) :
    (t.add name value).setFirst v = (t.setFirst v).add name value := by
  obtain ⟨a, rest, ha⟩ := List.exists_cons_of_ne_nil hne
  have hany : ((t.setFirst v).attributes.any fun a => decide (a.1 = name)) =
      t.attributes.any fun a => decide (a.1 = name) := by
    simp [Tag.setFirst, ha]
  unfold Tag.add
  rw [hany]
  split_ifs
  · rfl
  · simp [Tag.setFirst, ha]

theorem Tag.add_ne_nil {t : Tag} (hne : t.attributes ≠ []) (name value : JsString) :
    (t.add name value).attributes ≠ [] := by
  unfold Tag.add
  split_ifs
  · exact hne
  · simp

theorem Tag.isRaw_add (t : Tag) (name value : JsString) : (t.add name value).isRaw = t.isRaw := by
  unfold Tag.add
  split_ifs <;> rfl

def State.setFirst (v : JsString) : State → State
  | .beforeAttribute t => .beforeAttribute (t.setFirst v)
  | .attributeName t name => .attributeName (t.setFirst v) name
  | .afterAttributeName t name => .afterAttributeName (t.setFirst v) name
  | .beforeValue t name => .beforeValue (t.setFirst v) name
  | .quoted quote t name value => .quoted quote (t.setFirst v) name value
  | .unquoted t name value => .unquoted (t.setFirst v) name value
  | s => s

/-- Among the attributes of a tag with at least one of them, whose content is markup. -/
def State.InAttributes (s : State) : Prop :=
  (∀ t, s ≠ .tagName t) ∧ ∃ t, s.tag? = some t ∧ t.attributes ≠ [] ∧ t.isRaw = false

/-- The tag goes on, or is complete, in the same way. -/
theorem step_setFirst {s : State} (hs : s.InAttributes) (v : JsString) (c : UInt16) :
    ((step s c).1 = [] ∧ (step s c).2.InAttributes ∧
        step (s.setFirst v) c = ([], (step s c).2.setFirst v)) ∨
      ∃ t, t.isRaw = false ∧ step s c = ([.tag t], .data) ∧
        step (s.setFirst v) c = ([.tag (t.setFirst v)], .data) := by
  obtain ⟨hname, t, ht, hne, hraw⟩ := hs
  have hadd := Tag.add_ne_nil hne
  have hset := Tag.setFirst_add hne v
  have hrawAdd : ∀ name value, (t.add name value).isRaw = false := by
    intro name value
    rw [t.isRaw_add, hraw]
  cases s with
  | tagName u => exact absurd rfl (hname u)
  | beforeAttribute u =>
    obtain rfl := Option.some.inj ht
    simp only [State.setFirst, step, beforeAttributeStep]
    split_ifs <;> simp_all [State.InAttributes, State.tag?]
  | attributeName u name =>
    obtain rfl := Option.some.inj ht
    simp only [State.setFirst, step, attributeNameStep]
    split_ifs <;> simp_all [State.InAttributes, State.tag?]
  | afterAttributeName u name =>
    obtain rfl := Option.some.inj ht
    simp only [State.setFirst, step, afterAttributeNameStep]
    split_ifs <;> simp_all [State.InAttributes, State.tag?]
  | beforeValue u name =>
    obtain rfl := Option.some.inj ht
    simp only [State.setFirst, step, beforeValueStep]
    split_ifs <;> simp_all [State.InAttributes, State.tag?]
  | quoted quote u name value =>
    obtain rfl := Option.some.inj ht
    simp only [State.setFirst, step, quotedStep]
    split_ifs <;> simp_all [State.InAttributes, State.tag?]
  | unquoted u name value =>
    obtain rfl := Option.some.inj ht
    simp only [State.setFirst, step, unquotedStep]
    split_ifs <;> simp_all [State.InAttributes, State.tag?]
  | _ => cases ht

/-- The items are the same but for the tag itself. -/
theorem run_setFirst {s : State} (hs : s.InAttributes) (v rest : JsString) :
    (run names ownText s rest = [] ∧ run names ownText (s.setFirst v) rest = []) ∨
      ∃ t items, run names ownText s rest = .tag t :: items ∧
        run names ownText (s.setFirst v) rest = .tag (t.setFirst v) :: items := by
  induction rest generalizing s with
  | nil =>
    obtain ⟨-, t, ht, -, -⟩ := hs
    left
    cases s <;> first | exact ⟨rfl, rfl⟩ | cases ht
  | cons c rest ih =>
    have hpending : pending s = none ∧ pending (s.setFirst v) = none := by
      obtain ⟨-, t, ht, -, -⟩ := hs
      cases s <;> first | exact ⟨rfl, rfl⟩ | cases ht
    rw [run_cons_of_pending (by rw [hpending.1, ite_self]),
      run_cons_of_pending (by rw [hpending.2, ite_self])]
    rcases step_setFirst hs v c with ⟨hitems, hnext, hstep⟩ | ⟨t, hraw, hstep, hstep'⟩
    · rw [hitems, hstep]
      exact ih hnext
    · rw [hstep, hstep']
      refine Or.inr ⟨t, run names ownText .data rest, ?_, ?_⟩
      · simp [enter, hraw]
      · have hraw' : (t.setFirst v).isRaw = false := hraw
        simp [enter, hraw']

/-! ### Parts of a template -/

section Passes

variable (harmless : Tag → Bool)

/-- The part leads from one state to another, up to values, and its tags are harmless. -/
structure Passes (s : State) (a : JsString) (s' : State) : Prop where
  clean : ∀ c ∈ a, c ≠ 38 ∧ c ≠ 13
  state : (feed s a).2.erase = s'.erase
  tags : ∀ t, .tag t ∈ (feed s a).1 → harmless t = true ∧ t.isRaw = false

/-- The test for it. -/
def passes (s : State) (a : JsString) (s' : State) : Bool :=
  a.all (fun c => c ≠ 38 && c ≠ 13) && (feed s a).2.erase = s'.erase &&
    (feed s a).1.all fun i =>
      match i with
      | .tag t => harmless t && !t.isRaw
      | _ => true

end Passes

namespace Passes

variable {harmless : Tag → Bool} {s s' s'' : State} {a b : JsString}

theorem of_passes (h : passes harmless s a s' = true) : Passes harmless s a s' := by
  obtain ⟨⟨hclean, hstate⟩, htags⟩ :
      (a.all (fun c => c ≠ 38 && c ≠ 13) = true ∧ (feed s a).2.erase = s'.erase) ∧ _ := by
    simpa only [passes, Bool.and_eq_true, decide_eq_true_eq] using h
  refine ⟨?_, hstate, ?_⟩
  · intro c hc
    simpa using List.all_eq_true.mp hclean c hc
  · intro t ht
    simpa using List.all_eq_true.mp htags (.tag t) ht

/-- A text of a template. -/
theorem text (ha : ∀ c ∈ a, c ≠ 0 ∧ c ≠ 13 ∧ c ≠ 38 ∧ c ≠ 60) : Passes harmless .data a .data := by
  have hfeed : feed .data a = (a.map .char, .data) := by
    induction a with
    | nil => rfl
    | cons c a ih =>
      obtain ⟨-, -, -, hlt⟩ := ha c List.mem_cons_self
      rw [feed, step, dataStep, if_neg hlt, ih fun d hd => ha d (List.mem_cons_of_mem c hd)]
      rfl
  refine ⟨fun c hc => ⟨(ha c hc).2.2.1, (ha c hc).2.1⟩, by rw [hfeed], ?_⟩
  intro t ht
  rw [hfeed] at ht
  simp at ht

end Passes

/-- A part of the value of an attribute. -/
theorem feed_quoted {quote : UInt16} (t : Tag) (name value : JsString) {a : JsString}
    (ha : ∀ c ∈ a, c ≠ 0 ∧ c ≠ quote) :
    feed (.quoted quote t name value) a = ([], .quoted quote t name (value ++ a)) := by
  induction a generalizing value with
  | nil => rw [feed, List.append_nil]
  | cons c a ih =>
    obtain ⟨hnull, hquote⟩ := ha c List.mem_cons_self
    rw [feed, step, quotedStep, if_neg hquote, valueUnit, if_neg hnull,
      ih _ fun d hd => ha d (List.mem_cons_of_mem c hd), List.append_assoc, List.singleton_append]
    rfl

/-- A part of a value in which there may be references. -/
theorem run_quoted_append {quote : UInt16} (t : Tag) (name value : JsString) {a : JsString}
    (ha : ∀ c ∈ a, c ≠ 0 ∧ c ≠ quote) (rest : JsString) :
    run names ownText (.quoted quote t name value) (a ++ rest) =
      run names ownText (.quoted quote t name (value ++ a)) rest := by
  induction a generalizing value with
  | nil => rw [List.nil_append, List.append_nil]
  | cons c a ih =>
    obtain ⟨hnull, hquote⟩ := ha c List.mem_cons_self
    have hrest := ih (value ++ [c]) fun d hd => ha d (List.mem_cons_of_mem c hd)
    rw [List.append_assoc, List.singleton_append] at hrest
    rw [List.cons_append, run_cons_of_pending (by simp [pending]), step, quotedStep, if_neg hquote,
      valueUnit, if_neg hnull, ← hrest]
    rfl

/-- A value goes up to its quote. -/
theorem run_quoted {quote : UInt16} (hamp : quote ≠ 38) (t : Tag) (name value : JsString)
    {a : JsString} (ha : ∀ c ∈ a, c ≠ 0 ∧ c ≠ quote) (rest : JsString) :
    run names ownText (.quoted quote t name value) (a ++ quote :: rest) =
      run names ownText (.beforeAttribute (t.add name (value ++ a))) rest := by
  rw [run_quoted_append t name value ha, run_cons_of_ne hamp, step, quotedStep, if_pos rfl]
  rfl

namespace Passes

variable {harmless : Tag → Bool} {s s' s'' : State} {a b : JsString}

theorem value {quote : UInt16} {t : Tag} {name v : JsString}
    (ha : ∀ c ∈ a, c ≠ 0 ∧ c ≠ 13 ∧ c ≠ 38 ∧ c ≠ quote) :
    Passes harmless (.quoted quote t name v) a (.quoted quote t name v) := by
  have hfeed := feed_quoted t name v fun c hc => ⟨(ha c hc).1, (ha c hc).2.2.2⟩
  refine ⟨fun c hc => ⟨(ha c hc).2.2.1, (ha c hc).2.1⟩, by rw [hfeed]; rfl, ?_⟩
  intro t ht
  rw [hfeed] at ht
  simp at ht

theorem append (hharmless : ∀ t : Tag, harmless t.erase = harmless t)
    (h : Passes harmless s a s') (h' : Passes harmless s' b s'') :
    Passes harmless s (a ++ b) s'' := by
  obtain ⟨hitems, hstate⟩ := erase_feed h.state b
  refine ⟨?_, ?_, ?_⟩
  · intro c hc
    rcases List.mem_append.mp hc with hc | hc
    · exact h.clean c hc
    · exact h'.clean c hc
  · rw [feed_append]
    exact hstate.trans h'.state
  · intro t ht
    rw [feed_append] at ht
    rcases List.mem_append.mp ht with ht | ht
    · exact h.tags t ht
    · -- up to values the tag is one of the second part
      have hmem : Item.tag t.erase ∈ (feed s' b).1.map Item.erase := by
        rw [← hitems]
        exact List.mem_map.mpr ⟨.tag t, ht, rfl⟩
      obtain ⟨i, hi, heq⟩ := List.mem_map.mp hmem
      cases i with
      | char c => cases heq
      | comment => cases heq
      | tag t' =>
        have herase : t'.erase = t.erase := Item.tag.inj heq
        have hraw : t'.erase.isRaw = t.erase.isRaw := by rw [herase]
        obtain ⟨hok, hnotRaw⟩ := h'.tags t' hi
        rw [← hharmless t, ← herase, hharmless t']
        exact ⟨hok, hraw.symm.trans hnotRaw⟩

theorem cons (hharmless : ∀ t : Tag, harmless t.erase = harmless t) (s' : State)
    (h : Passes harmless s a s') {l : List JsString} (h' : Passes harmless s' l.flatten s'') :
    Passes harmless s (a :: l).flatten s'' :=
  h.append hharmless h'

theorem feed_eq_data (h : Passes harmless s a .data) : (feed s a).2 = .data := by
  have hstate := h.state
  cases hdata : (feed s a).2 <;> rw [hdata] at hstate <;> first | rfl | cases hstate

theorem tokens_append (h : Passes harmless .data a .data) (rest : JsString) :
    tokens names ownText (a ++ rest) = (feed .data a).1 ++ tokens names ownText rest := by
  have hamp : 38 ∉ a := fun hmem => (h.clean 38 hmem).1 rfl
  have hreturn : 13 ∉ a := fun hmem => (h.clean 13 hmem).2 rfl
  unfold tokens
  rw [normalizeNewlines_append hreturn, Html.run_append hamp fun t ht => (h.tags t ht).2,
    h.feed_eq_data]

theorem contents_append (h : Passes harmless .data a .data) {name : JsString}
    (hname : ∀ t, harmless t = true → t.opens name = false) (rest : JsString) :
    contents name (tokens names ownText (a ++ rest)) =
      contents name (tokens names ownText rest) := by
  rw [h.tokens_append]
  exact Html.contents_append (fun t ht => hname t (h.tags t ht).1) _

/-- At the end of a markup. -/
theorem contents_eq_nil (h : Passes harmless .data a .data) {name : JsString}
    (hname : ∀ t, harmless t = true → t.opens name = false) :
    contents name (tokens names ownText a) = [] := by
  rw [← List.append_nil a, h.contents_append hname]
  rfl

end Passes

/-- The part ends with a start tag of that name. -/
structure OpensAt (harmless : Tag → Bool) (name a : JsString) : Prop where
  clean : ∀ c ∈ a, c ≠ 38 ∧ c ≠ 13
  state : (feed .data a).2 = .data
  last : ∃ items t, (feed .data a).1 = items ++ [.tag t] ∧ t.opens name = true ∧ t.isRaw = false ∧
    ∀ t, .tag t ∈ items → harmless t = true ∧ t.isRaw = false

/-- The test for it. -/
def opensAt (harmless : Tag → Bool) (name a : JsString) : Bool :=
  a.all (fun c => c ≠ 38 && c ≠ 13) && (feed .data a).2 = .data &&
    match (feed .data a).1.reverse with
    | .tag t :: items =>
      t.opens name && !t.isRaw && items.all fun i =>
        match i with
        | .tag t => harmless t && !t.isRaw
        | _ => true
    | _ => false

namespace OpensAt

variable {harmless : Tag → Bool} {name a : JsString}

theorem of_opensAt (h : opensAt harmless name a = true) : OpensAt harmless name a := by
  obtain ⟨⟨hclean, hstate⟩, hlast⟩ :
      (a.all (fun c => c ≠ 38 && c ≠ 13) = true ∧ (feed .data a).2 = .data) ∧ _ := by
    simpa only [opensAt, Bool.and_eq_true, decide_eq_true_eq] using h
  refine ⟨?_, hstate, ?_⟩
  · intro c hc
    simpa using List.all_eq_true.mp hclean c hc
  · split at hlast
    · next t items hreverse =>
      obtain ⟨⟨hopens, hraw⟩, hitems⟩ : (t.opens name = true ∧ t.isRaw = false) ∧ _ := by
        simpa only [Bool.and_eq_true, Bool.not_eq_true'] using hlast
      refine ⟨items.reverse, t, ?_, hopens, hraw, ?_⟩
      · rw [← List.reverse_reverse (feed .data a).1, hreverse, List.reverse_cons]
      · intro t' ht'
        simpa using List.all_eq_true.mp hitems (.tag t') (List.mem_reverse.mp ht')
    · cases hlast

theorem tokens_append (h : OpensAt harmless name a) (rest : JsString) :
    tokens names ownText (a ++ rest) = (feed .data a).1 ++ tokens names ownText rest := by
  obtain ⟨items, t, hfeed, -, hraw, hitems⟩ := h.last
  have hamp : 38 ∉ a := fun hmem => (h.clean 38 hmem).1 rfl
  have hreturn : 13 ∉ a := fun hmem => (h.clean 13 hmem).2 rfl
  have hnotRaw : NotRaw (feed .data a).1 := by
    intro t' ht'
    rw [hfeed, List.mem_append, List.mem_singleton] at ht'
    rcases ht' with ht' | ht'
    · exact (hitems t' ht').2
    · rw [Item.tag.inj ht']
      exact hraw
  unfold tokens
  rw [normalizeNewlines_append hreturn, run_append hamp hnotRaw, h.state]

/-- The content of the element comes next. -/
theorem contents_append (h : OpensAt harmless name a)
    (hname : ∀ t, harmless t = true → t.opens name = false) (rest : JsString) :
    contents name (tokens names ownText (a ++ rest)) =
      shownText (tokens names ownText rest) :: contents name (tokens names ownText rest) := by
  obtain ⟨items, t, hfeed, hopens, -, hitems⟩ := h.last
  rw [h.tokens_append, hfeed, List.append_assoc,
    Html.contents_append fun t' ht' => hname t' (hitems t' ht').1]
  rw [List.singleton_append, contents, hopens]
  rfl

/-- No content of another element does. -/
theorem contents_append_of_ne (h : OpensAt harmless name a) {other : JsString}
    (hother : ∀ t, harmless t = true → t.opens other = false) (hne : name ≠ other)
    (rest : JsString) :
    contents other (tokens names ownText (a ++ rest)) =
      contents other (tokens names ownText rest) := by
  obtain ⟨items, t, hfeed, hopens, -, hitems⟩ := h.last
  have hclosed : t.opens other = false := by
    have hname : t.name = name := by
      simp only [Tag.opens, Bool.and_eq_true, decide_eq_true_eq] at hopens
      exact hopens.2
    simp [Tag.opens, hname, hne]
  rw [h.tokens_append, hfeed, List.append_assoc,
    Html.contents_append fun t' ht' => hother t' (hitems t' ht').1]
  rw [List.singleton_append, contents, hclosed]
  rfl

end OpensAt

/-- A text of a template stands before an end tag. -/
structure Closes (a : JsString) : Prop where
  passes : Passes (fun t => t.closing) .data a .data
  head : a.head? = some 60
  lead : lead (feed .data a).1 = []
  ne_nil : (feed .data a).1 ≠ []

namespace Closes

variable {a : JsString}

theorem head_append (h : Closes a) (rest : JsString) : (a ++ rest).head? = some 60 := by
  obtain ⟨a', rfl⟩ := List.head?_eq_some_iff.mp h.head
  rfl

theorem lead_tokens (h : Closes a) (rest : JsString) :
    Html.lead (tokens names ownText (a ++ rest)) = [] := by
  rw [h.passes.tokens_append]
  exact lead_append_of_ne_nil h.ne_nil h.lead _

theorem contents_append (h : Closes a) (name rest : JsString) :
    contents name (tokens names ownText (a ++ rest)) =
      contents name (tokens names ownText rest) := by
  refine h.passes.contents_append ?_ rest
  intro t ht
  simp [Tag.opens, ht]

end Closes

end Artha.Html
