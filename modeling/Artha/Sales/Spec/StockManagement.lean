import Mathlib.Data.List.Nodup
import Mathlib.Tactic.Basic
import Mathlib.Tactic.SplitIfs
import Artha.Effect.Run
import Artha.Sales.StockManagement

/-!
# What 'Delete Selected' deletes

The set, the check boxes and the number on the button are `InStep` unless the dialog of a row's own
delete button is shown.  Five kinds of events break this: unticking one of two rows of one product,
a row without listeners, leaving the dialog of a row while other rows are ticked, a deletion that
succeeds while rows are ticked, and a list that arrives while something is selected.  `Permitted`
excludes them, and along every run without them what is sent is what is ticked.
-/

namespace Artha.Sales

namespace Page

/-- A row of the product is ticked. -/
def Ticked (p : Page) (id : String) : Prop :=
  ∃ (i : Nat) (r : Row), p.rows[i]? = some r ∧ r.checked = true ∧ r.id = id

/-- A row of the product other than row `i` is ticked. -/
def OtherTicked (p : Page) (i : Nat) (id : String) : Prop :=
  ∃ (j : Nat) (r : Row), j ≠ i ∧ p.rows[j]? = some r ∧ r.checked = true ∧ r.id = id

/-- The set holds the products of the ticked rows. -/
def Agree (p : Page) : Prop := ∀ id, id ∈ p.selectedItems ↔ p.Ticked id

/-- The set, the check boxes and the number on the button agree. -/
structure InStep (p : Page) : Prop where
  agree : p.Agree
  count : p.selectedCount = p.selectedItems.length

/-- What is claimed of a state, and of a confirmation in it. -/
structure Faithful (p : Page) (e : Event) : Prop where
  agree : p.dialog ≠ some .row → p.Agree
  sent : e = .confirmDelete → p.dialog = some .deleteSelected →
    ∃ ids, p.deleteSelected = some ids ∧ ids.Nodup ∧ (∀ id, id ∈ ids ↔ p.Ticked id) ∧
      ids.length = p.selectedCount

/-- The event does not put the selection out of step. -/
def Permitted (p : Page) : Event → Prop
  | .toggle i => p.dialog ≠ some .row → ∀ r, p.rows[i]? = some r →
      if r.listening then r.checked = true → ¬p.OtherTicked i r.id else p.OtherTicked i r.id
  | .showDeleteModal => p.dialog = some .row → p.disabled = false → p.InStep
  | .cancelDelete => p.dialog = some .row → p.InStep
  | .deleteFailed => p.dialog = some .row → p.deletes ≠ 0 → p.InStep
  | .deleteSucceeded => p.deletes ≠ 0 → ∀ r ∈ p.rows, r.checked = false
  | .loaded (some _) => p.loads ≠ 0 → p.dialog ≠ some .row → p.selectedItems = []
  | _ => True

/-- What every permitted event keeps. -/
structure Kept (p : Page) : Prop where
  nodup : p.selectedItems.Nodup
  inStep : p.dialog ≠ some .row → p.InStep

/-! ### The set -/

theorem mem_add {items : List String} {id id' : String} :
    id' ∈ add items id ↔ id' ∈ items ∨ id' = id := by
  rw [add]
  split_ifs with h
  · constructor
    · exact Or.inl
    · rintro (h' | rfl)
      · exact h'
      · exact h
  · simp

theorem mem_delete {items : List String} {id id' : String} :
    id' ∈ delete items id ↔ id' ∈ items ∧ id' ≠ id := by
  simp [delete]

theorem nodup_select {items : List String} (h : items.Nodup) (checked : Bool) (id : String) :
    (select checked items id).Nodup := by
  cases checked with
  | true =>
    rw [select, if_pos rfl, add]
    split_ifs with hid
    · exact h
    · rw [List.nodup_append]
      refine ⟨h, List.nodup_singleton id, ?_⟩
      intro a ha b hb hab
      rw [List.mem_singleton] at hb
      exact hid (hb ▸ hab ▸ ha)
  | false => exact h.filter _

theorem nodup_foldl_select {rows : List Row} {items : List String} (h : items.Nodup)
    (checked : Bool) : (rows.foldl (fun items r => select checked items r.id) items).Nodup := by
  induction rows generalizing items with
  | nil => exact h
  | cons r rows ih => exact ih (nodup_select h checked r.id)

theorem mem_foldl_add {rows : List Row} {items : List String} {id : String} :
    id ∈ rows.foldl (fun items r => select true items r.id) items ↔
      id ∈ items ∨ ∃ r ∈ rows, r.id = id := by
  induction rows generalizing items with
  | nil => simp
  | cons r rows ih =>
    rw [List.foldl_cons, ih, select, if_pos rfl, mem_add, or_assoc, List.exists_mem_cons_iff,
      eq_comm (a := id)]

theorem mem_foldl_delete {rows : List Row} {items : List String} {id : String} :
    id ∈ rows.foldl (fun items r => select false items r.id) items ↔
      id ∈ items ∧ ∀ r ∈ rows, r.id ≠ id := by
  induction rows generalizing items with
  | nil => simp
  | cons r rows ih =>
    rw [List.foldl_cons, ih, select, if_neg Bool.false_ne_true, mem_delete, and_assoc,
      List.forall_mem_cons, ne_comm (a := id)]

/-! ### The check boxes -/

theorem ticked_iff_other {p : Page} {i : Nat} {r : Row} (hr : p.rows[i]? = some r) (id : String) :
    p.Ticked id ↔ (r.checked = true ∧ r.id = id) ∨ p.OtherTicked i id := by
  constructor
  · rintro ⟨j, r', hr', hchecked, hid⟩
    by_cases hj : j = i
    · subst hj
      obtain rfl := Option.some.inj (hr.symm.trans hr')
      exact Or.inl ⟨hchecked, hid⟩
    · exact Or.inr ⟨j, r', hj, hr', hchecked, hid⟩
  · rintro (⟨hchecked, hid⟩ | ⟨j, r', -, hr', hchecked, hid⟩)
    · exact ⟨i, r, hr, hchecked, hid⟩
    · exact ⟨j, r', hr', hchecked, hid⟩

/-- A row that is changed is ticked by itself, and the others as before. -/
theorem ticked_set_iff {p : Page} {i : Nat} {r : Row} (hr : p.rows[i]? = some r) (checked : Bool)
    (id : String) :
    Ticked { p with rows := p.rows.set i { r with checked := checked } } id ↔
      (checked = true ∧ r.id = id) ∨ p.OtherTicked i id := by
  have hi : i < p.rows.length := (List.getElem?_eq_some_iff.mp hr).1
  have hself : (p.rows.set i { r with checked := checked })[i]? =
      some { r with checked := checked } := by
    rw [List.getElem?_set_self hi]
  rw [ticked_iff_other hself]
  have hother : OtherTicked { p with rows := p.rows.set i { r with checked := checked } } i id ↔
      p.OtherTicked i id := by
    constructor
    · rintro ⟨j, r', hj, hr', hrest⟩
      rw [List.getElem?_set_ne (Ne.symm hj)] at hr'
      exact ⟨j, r', hj, hr', hrest⟩
    · rintro ⟨j, r', hj, hr', hrest⟩
      refine ⟨j, r', hj, ?_, hrest⟩
      rw [List.getElem?_set_ne (Ne.symm hj)]
      exact hr'
  rw [hother]

theorem ticked_iff_mem {p : Page} {id : String} :
    p.Ticked id ↔ ∃ r ∈ p.rows, r.checked = true ∧ r.id = id := by
  constructor
  · rintro ⟨i, r, hr, hrest⟩
    exact ⟨r, List.mem_of_getElem? hr, hrest⟩
  · rintro ⟨r, hr, hrest⟩
    obtain ⟨i, hi⟩ := List.getElem?_of_mem hr
    exact ⟨i, r, hi, hrest⟩

/-! ### One event -/

theorem agree_toggle_listening {p : Page} (hagree : p.Agree) {i : Nat} {r : Row}
    (hr : p.rows[i]? = some r) (hother : r.checked = true → ¬p.OtherTicked i r.id) (id : String) :
    id ∈ select (!r.checked) p.selectedItems r.id ↔
      Ticked { p with rows := p.rows.set i { r with checked := !r.checked } } id := by
  rw [ticked_set_iff hr]
  have hbefore := (hagree id).trans (ticked_iff_other hr id)
  cases hchecked : r.checked with
  | false =>
    rw [Bool.not_false, select, if_pos rfl, mem_add, hbefore, hchecked, or_comm, eq_comm (a := id)]
    simp
  | true =>
    have hother := hother hchecked
    rw [Bool.not_true, select, if_neg Bool.false_ne_true, mem_delete, hbefore, hchecked]
    constructor
    · rintro ⟨⟨-, hid⟩ | hid, hne⟩
      · exact absurd hid.symm hne
      · exact Or.inr hid
    · rintro (⟨hfalse, -⟩ | hid)
      · cases hfalse
      · refine ⟨Or.inr hid, ?_⟩
        rintro rfl
        exact hother hid

/-- A row without listeners leaves the set as it is. -/
theorem agree_toggle_silent {p : Page} (hagree : p.Agree) {i : Nat} {r : Row}
    (hr : p.rows[i]? = some r) (hother : p.OtherTicked i r.id) (id : String) :
    id ∈ p.selectedItems ↔
      Ticked { p with rows := p.rows.set i { r with checked := !r.checked } } id := by
  rw [ticked_set_iff hr, hagree id, ticked_iff_other hr]
  constructor
  · rintro (⟨-, rfl⟩ | hid)
    · exact Or.inr hother
    · exact Or.inr hid
  · rintro (⟨-, rfl⟩ | hid)
    · exact Or.inr hother
    · exact Or.inr hid

theorem Kept.toggle {p : Page} (h : p.Kept) {i : Nat} (hpermitted : p.Permitted (.toggle i)) :
    (p.toggle i).Kept := by
  rw [Page.toggle]
  cases hr : p.rows[i]? with
  | none => exact h
  | some r =>
    dsimp only
    split_ifs with hlistening
    · refine ⟨nodup_select h.nodup _ _, ?_⟩
      intro hdialog
      have hother := hpermitted hdialog r hr
      rw [if_pos hlistening] at hother
      exact ⟨agree_toggle_listening (h.inStep hdialog).agree hr hother, rfl⟩
    · refine ⟨h.nodup, ?_⟩
      intro hdialog
      have hother := hpermitted hdialog r hr
      rw [if_neg hlistening] at hother
      exact ⟨agree_toggle_silent (h.inStep hdialog).agree hr hother, (h.inStep hdialog).count⟩

theorem Kept.selectAll {p : Page} (h : p.Kept) (checked : Bool) : (p.selectAll checked).Kept := by
  rw [Page.selectAll]
  split_ifs
  · refine ⟨nodup_foldl_select h.nodup checked, ?_⟩
    intro hdialog
    refine ⟨?_, rfl⟩
    intro id
    have hbefore := ((h.inStep hdialog).agree id).trans ticked_iff_mem
    rw [ticked_iff_mem]
    cases checked with
    | true =>
      refine mem_foldl_add.trans ?_
      rw [hbefore]
      constructor
      · rintro (⟨r, hr, -, hid⟩ | ⟨r, hr, hid⟩)
        · exact ⟨_, List.mem_map_of_mem hr, rfl, hid⟩
        · exact ⟨_, List.mem_map_of_mem hr, rfl, hid⟩
      · rintro ⟨r', hr', -, hid⟩
        obtain ⟨r, hr, rfl⟩ := List.mem_map.mp hr'
        exact Or.inr ⟨r, hr, hid⟩
    | false =>
      refine mem_foldl_delete.trans ?_
      rw [hbefore]
      constructor
      · rintro ⟨⟨r, hr, -, hid⟩, hnone⟩
        exact absurd hid (hnone r hr)
      · rintro ⟨r', hr', hchecked, -⟩
        obtain ⟨r, -, rfl⟩ := List.mem_map.mp hr'
        cases hchecked
  · exact h

theorem Kept.deleteRow {p : Page} (h : p.Kept) (i : Nat) : (p.deleteRow i).Kept := by
  rw [Page.deleteRow]
  cases p.rows[i]? with
  | none => exact h
  | some r =>
    dsimp only
    split_ifs
    · exact ⟨List.nodup_singleton _, fun hdialog => absurd rfl hdialog⟩
    · exact h

/-- The dialog of a row may be closed while the selection is in step. -/
theorem Kept.inStep_of {p : Page} (h : p.Kept) (hrow : p.dialog = some .row → p.InStep) :
    p.InStep := by
  by_cases hdialog : p.dialog = some .row
  · exact hrow hdialog
  · exact h.inStep hdialog

/-- Rows that are not ticked and an empty set are in step. -/
theorem inStep_of_unticked {p : Page} (hrows : ∀ r ∈ p.rows, r.checked = false)
    (hitems : p.selectedItems = []) (hcount : p.selectedCount = 0) : p.InStep := by
  refine ⟨?_, by rw [hcount, hitems]; rfl⟩
  intro id
  rw [hitems, ticked_iff_mem]
  constructor
  · intro hid
    cases hid
  · rintro ⟨r, hr, hchecked, -⟩
    rw [hrows r hr] at hchecked
    cases hchecked

theorem draw_unticked {products : List Product} : ∀ r ∈ draw products, r.checked = false := by
  intro r hr
  obtain ⟨product, -, hproduct⟩ := List.mem_filterMap.mp hr
  cases product with
  | listed id =>
    obtain rfl := Option.some.inj hproduct
    rfl
  | broken => cases hproduct

theorem Kept.loaded {p : Page} (h : p.Kept) {products : Option (List Product)}
    (hpermitted : p.Permitted (.loaded products)) : (p.step (.loaded products)).Kept := by
  cases products with
  | none =>
    rw [Page.step]
    split_ifs
    · exact h
    · exact ⟨h.nodup, fun hdialog => ⟨(h.inStep hdialog).agree, (h.inStep hdialog).count⟩⟩
  | some products =>
    rw [Page.step]
    split_ifs with hloads
    · exact h
    · refine ⟨h.nodup, fun hdialog => ?_⟩
      have hitems : p.selectedItems = [] := hpermitted hloads hdialog
      have hcount : p.selectedCount = 0 := by
        rw [(h.inStep hdialog).count, hitems]
        rfl
      exact inStep_of_unticked draw_unticked hitems hcount

theorem Kept.step {p : Page} (h : p.Kept) {e : Event} (hpermitted : p.Permitted e) :
    (p.step e).Kept := by
  cases e with
  | toggle i => exact h.toggle hpermitted
  | selectAll checked => exact h.selectAll checked
  | deleteRow i => exact h.deleteRow i
  | showDeleteModal =>
    rw [Page.step, Page.showDeleteModal]
    cases hdisabled : p.disabled with
    | true => exact h
    | false =>
      have hin := h.inStep_of fun hdialog => hpermitted hdialog hdisabled
      exact ⟨h.nodup, fun _ => ⟨hin.agree, hin.count⟩⟩
  | cancelDelete =>
    have hin := h.inStep_of hpermitted
    exact ⟨h.nodup, fun _ => ⟨hin.agree, hin.count⟩⟩
  | confirmDelete =>
    rw [Page.step]
    split_ifs
    · exact ⟨h.nodup, fun hdialog => ⟨(h.inStep hdialog).agree, (h.inStep hdialog).count⟩⟩
    · exact h
  | deleteSucceeded =>
    rw [Page.step]
    split_ifs with hdeletes
    · exact h
    · exact ⟨List.nodup_nil, fun _ => inStep_of_unticked (hpermitted hdeletes) rfl rfl⟩
  | deleteFailed =>
    rw [Page.step]
    split_ifs with hdeletes
    · exact h
    · have hin := h.inStep_of fun hdialog => hpermitted hdialog hdeletes
      exact ⟨h.nodup, fun _ => ⟨hin.agree, hin.count⟩⟩
  | loaded products => exact h.loaded hpermitted

theorem Kept.faithful {p : Page} (h : p.Kept) (e : Event) : p.Faithful e where
  agree hdialog := (h.inStep hdialog).agree
  sent _ hdialog := by
    have hin : p.InStep := h.inStep (by rw [hdialog]; decide)
    refine ⟨p.selectedItems, ?_, h.nodup, hin.agree, hin.count.symm⟩
    rw [deleteSelected, hdialog]
    rfl

theorem kept_opened : opened.Kept :=
  ⟨List.nodup_nil, fun _ => inStep_of_unticked (fun _ hr => by cases hr) rfl rfl⟩

/-! ### Runs -/

/-- In every run of permitted events the set and the ticked rows agree in every state, but while the
dialog of a row's delete button is shown, and a confirmation of 'Delete Selected' sends the products
of the ticked rows, as many as the button says. -/
theorem deleteSelected_faithful {run : List Event}
    (hrun : Run.Along step Permitted opened run) :
    Run.Along step Faithful opened run ∧ ∀ e, (run.foldl step opened).Faithful e := by
  have hstep : ∀ p e, Kept p → Permitted p e → Kept (p.step e) := fun p e h hpermitted =>
    h.step hpermitted
  refine ⟨Run.along_of_invariant hstep (fun p e h _ => h.faithful e) kept_opened hrun, ?_⟩
  intro e
  exact (Run.invariant hstep kept_opened hrun).faithful e

theorem deleteSelected_faithful_ticked :
    let run : List Event := [.loaded (some [.listed "1", .listed "2"]), .toggle 0, .showDeleteModal,
      .confirmDelete, .deleteFailed]
    (run.foldl step opened).dialog = none ∧ ∀ e, (run.foldl step opened).Faithful e := by
  intro run
  have hrun : Run.Along step Permitted opened run := by
    refine ⟨fun _ _ => rfl, ⟨?_, ⟨?_, ⟨trivial, ⟨?_, trivial⟩⟩⟩⟩⟩
    · intro _ r hr
      obtain rfl : (⟨"1", false, true⟩ : Row) = r := Option.some.inj hr
      rw [if_pos rfl]
      intro hchecked
      cases hchecked
    · intro hrow
      cases hrow
    · intro hrow
      cases hrow
  exact ⟨by decide, (deleteSelected_faithful hrun).2⟩

/-- Row 1 is ticked, the delete button of row 2 is clicked and its dialog cancelled; then 'Delete
Selected' says one product and deletes product 2, which is not ticked. -/
theorem deleteSelected_other_row :
    let run : List Event := [.loaded (some [.listed "1", .listed "2"]), .toggle 0, .deleteRow 1,
      .cancelDelete, .showDeleteModal]
    (run.foldl step opened).dialog = some .deleteSelected ∧
      (run.foldl step opened).deleteSelected = some ["2"] ∧
      (run.foldl step opened).rows = [⟨"1", true, true⟩, ⟨"2", false, true⟩] ∧
      ¬(run.foldl step opened).Faithful .confirmDelete := by
  intro run
  refine ⟨by decide, by decide, by decide, ?_⟩
  intro hfaithful
  have hticked := (hfaithful.agree (by decide) "2").mp (by decide)
  rw [ticked_iff_mem] at hticked
  revert hticked
  decide

end Page

end Artha.Sales
