import Artha.Effect.Run
import Artha.Sales.Materials

/-!
# What the raw material page does

The page keeps elements, classes, a variable for a timer and lists of requests.  Seen from outside
it is a `View`: the table is one picture, there is one deadline for the next load, and the dialog is
ready or waits for one answer.  The page refines it over every run (`page_refines_view`).

What is posted has passed the checks of the dialog and is read back from its text
(`posted_read_back`).
-/

namespace Artha.Sales.Materials

open Binary64 JavaScript Html

/-! ### The view -/

/-- What the table shows. -/
inductive Picture where
  | spinner
  | emptyState
  /-- The rows of one answer. -/
  | list (items : List Json)

/-- What an answer makes of the table. -/
def Picture.draw (picture : Picture) : Answer → Picture
  | .success response =>
    match answerList response with
    | some [] => .emptyState
    | some data => .list (appendable data)
    -- the spinner stays, if it is there
    | none => picture
  | .error => .emptyState

/-- The dialog. -/
inductive Dialog where
  | ready
  /-- A request is on its way. -/
  | sending
  /-- A request was answered with nothing that has a status, and the button stays disabled. -/
  | stuck
deriving DecidableEq

/-- What has passed the checks. -/
structure Checked where
  data : FormData
  passed : data.errors = []

structure View where
  picture : Picture
  loads : Nat
  /-- The loads that wait for their answer. -/
  waiting : List Nat
  /-- When the next load is due. -/
  deadline : Deadline
  dialog : Dialog
  posted : List Checked

/-- What happens to the view. -/
inductive Act where
  | reload
  | input (now : Int)
  | timer (id : Nat) (now : Int)
  | loaded (call : Nat) (answer : Answer)
  | submit (form : Form)
  | added (answer : Added)
  | nothing

namespace View

def reload (v : View) : View :=
  { v with picture := .spinner, loads := v.loads + 1, waiting := v.loads :: v.waiting }

def opened : View where
  picture := .spinner
  loads := 1
  waiting := [0]
  deadline := .initial
  dialog := .ready
  posted := []

/-- The answer to the request of the dialog. -/
def addedAnswer (v : View) : Added → View
  | .success response =>
    match isSoftError response with
    | none => { v with dialog := .stuck }
    | some true => { v with dialog := .ready }
    | some false => { v.reload with dialog := .ready }
  | .error => { v with dialog := .ready }

def step (v : View) : Act → View
  | .reload => v.reload
  | .input now => { v with deadline := v.deadline.restart (now + 300) }
  | .timer id now =>
    if v.deadline.timer = some (id, now) then { v with deadline := v.deadline.stop }.reload else v
  | .loaded call answer =>
    if call ∈ v.waiting then
      { v with waiting := v.waiting.erase call, picture := v.picture.draw answer }
    else v
  | .submit form =>
    if h : form.formData.errors = [] then
      if v.dialog = .ready then
        { v with dialog := .sending, posted := v.posted ++ [⟨form.formData, h⟩] }
      else v
    else v
  | .added answer => if v.dialog = .sending then v.addedAnswer answer else v
  | .nothing => v

def after (acts : List Act) : View := acts.foldl step opened

end View

/-! ### The acts of a run -/

/-- What an event is to the view: a deletion is nothing until a row has faded out. -/
def Page.act (p : Page) (event : Event) (now : Int) : Act :=
  match event with
  | .input => .input now
  | .change => .reload
  | .timer id => .timer id now
  | .loaded call answer => .loaded call answer
  | .submit form => .submit form
  | .added answer => .added answer
  | .deleteMaterial _ _ => .nothing
  | .deleted _ _ => .nothing
  | .faded element => if element ∈ p.fading then .reload else .nothing

section

variable (selects : Json → Json → Bool)

/-- The acts of a run from a page on. -/
def Page.acts (p : Page) : List (Event × Int) → List Act
  | [] => []
  | e :: run => p.act e.1 e.2 :: (p.step selects e.1 e.2).acts run

end

/-! ### The page refines the view -/

/-- The table shows the picture. -/
def Body.Shows : Body → Picture → Prop
  | .spinner, .spinner => True
  | .emptyState, .emptyState => True
  | .rows shown, .list items => shown.map Row.item = items
  | _, _ => False

/-- The dialog and the requests that it has sent. -/
structure Waits (p : Page) (dialog : Dialog) : Prop where
  disabled : p.disabled = true ↔ dialog ≠ .ready
  posting : p.posting.length = if dialog = .sending then 1 else 0

structure Refines (p : Page) (v : View) : Prop where
  body : p.body.Shows v.picture
  loads : p.loads = v.loads
  loading : p.loading = v.waiting
  timeout : p.timeout.Keeps v.deadline
  dialog : Waits p v.dialog
  posted : p.posted = v.posted.map Checked.data

theorem map_item_newRows (first : Nat) (items : List Json) :
    (newRows first items).map Row.item = items := by
  induction items generalizing first with
  | nil => rfl
  | cons item items ih => rw [newRows, List.map_cons, ih]

/-- A load replaces the rows, whatever was done to them. -/
theorem loadRawMaterials_mapRows (f : List Row → List Row) (p : Page) :
    (p.mapRows f).loadRawMaterials = p.loadRawMaterials := by
  rw [Page.mapRows]
  split <;> rfl

namespace Refines

variable {selects : Json → Json → Bool} {p : Page} {v : View}

theorem opened : Refines .opened .opened :=
  ⟨trivial, rfl, rfl, .initial, ⟨by simp [Page.opened, Page.blank, Page.loadRawMaterials,
    View.opened], rfl⟩, rfl⟩

theorem loadRawMaterials (h : Refines p v) : Refines p.loadRawMaterials v.reload := by
  refine ⟨trivial, congrArg (· + 1) h.loads, ?_, h.timeout, ⟨h.dialog.disabled, h.dialog.posting⟩,
    h.posted⟩
  show p.loads :: p.loading = v.loads :: v.waiting
  rw [h.loads, h.loading]

/-- What is asked of a page does not depend on its elements and deletions. -/
theorem congr {p' : Page} (h : Refines p v) (hbody : p'.body.Shows v.picture)
    (hloads : p'.loads = p.loads) (hloading : p'.loading = p.loading)
    (htimeout : p'.timeout = p.timeout) (hdisabled : p'.disabled = p.disabled)
    (hposting : p'.posting = p.posting) (hposted : p'.posted = p.posted) : Refines p' v where
  body := hbody
  loads := hloads.trans h.loads
  loading := hloading.trans h.loading
  timeout := htimeout ▸ h.timeout
  dialog := ⟨hdisabled ▸ h.dialog.disabled, hposting ▸ h.dialog.posting⟩
  posted := hposted.trans h.posted

/-- The classes of the rows are not looked at. -/
theorem mark (h : Refines p v) (elements : List Nat) (deleting : Bool) :
    Refines (p.mark elements deleting) v := by
  rw [Page.mark, Page.mapRows]
  split
  · next shown hrows =>
    refine h.congr ?_ rfl rfl rfl rfl rfl rfl
    have hbody := h.body
    rw [hrows] at hbody
    cases hpicture : v.picture with
    | list items =>
      rw [hpicture] at hbody
      have hitems : shown.map Row.item = items := hbody
      show (shown.map _).map Row.item = items
      rw [List.map_map, ← hitems]
      apply List.map_congr_left
      intro row _
      rw [Function.comp_apply]
      split_ifs <;> rfl
    | spinner =>
      rw [hpicture] at hbody
      cases hbody
    | emptyState =>
      rw [hpicture] at hbody
      cases hbody
  · exact h

theorem input (h : Refines p v) (now : Int) :
    Refines (p.step selects .input now) (v.step (.input now)) :=
  ⟨h.body, h.loads, h.loading, h.timeout.restart _, ⟨h.dialog.disabled, h.dialog.posting⟩,
    h.posted⟩

theorem timer (h : Refines p v) (id : Nat) (now : Int) :
    Refines (p.step selects (.timer id) now) (v.step (.timer id now)) := by
  have hdue := h.timeout.mem_pending_iff (id, now)
  rw [Page.step, View.step]
  by_cases hpending : (id, now) ∈ p.timeout.pending
  · have htimer := hdue.mp hpending
    rw [if_pos (List.contains_iff_mem.mpr hpending), if_pos htimer]
    refine loadRawMaterials ⟨h.body, h.loads, h.loading, ?_, ⟨h.dialog.disabled, h.dialog.posting⟩,
      h.posted⟩
    exact (h.timeout.fire htimer).clear
  · rw [if_neg (List.contains_iff_mem.not.mpr hpending),
      if_neg fun htimer => hpending (hdue.mpr htimer)]
    exact h

/-- An answer is drawn. -/
theorem drawAnswer (h : Refines p v) (answer : Answer) :
    Refines (p.drawAnswer answer) { v with picture := v.picture.draw answer } := by
  cases answer with
  | error =>
    exact ⟨trivial, h.loads, h.loading, h.timeout, ⟨h.dialog.disabled, h.dialog.posting⟩, h.posted⟩
  | success response =>
    rw [Page.drawAnswer, Picture.draw]
    cases answerList response with
    | none => exact h
    | some data =>
      refine ⟨?_, h.loads, h.loading, h.timeout, ⟨h.dialog.disabled, h.dialog.posting⟩, h.posted⟩
      cases data with
      | nil => trivial
      | cons item data =>
        show (newRows p.nextElement (appendable (item :: data))).map Row.item = _
        rw [map_item_newRows]

theorem loaded (h : Refines p v) (call : Nat) (answer : Answer) (now : Int) :
    Refines (p.step selects (.loaded call answer) now) (v.step (.loaded call answer)) := by
  rw [Page.step, View.step, ← h.loading]
  split_ifs with hcall
  · have herased : Refines { p with loading := p.loading.erase call }
        { v with waiting := p.loading.erase call } :=
      ⟨h.body, h.loads, rfl, h.timeout, ⟨h.dialog.disabled, h.dialog.posting⟩, h.posted⟩
    exact herased.drawAnswer answer
  · exact h

theorem submit (h : Refines p v) (form : Form) (now : Int) :
    Refines (p.step selects (.submit form) now) (v.step (.submit form)) := by
  rw [Page.step, View.step]
  cases hdialog : v.dialog with
  | ready =>
    have henabled : ¬p.disabled = true := by simp [h.dialog.disabled, hdialog]
    have hposting : p.posting.length = 0 := by simp [h.dialog.posting, hdialog]
    rw [if_neg henabled, Page.submitAddMaterial]
    by_cases herrors : form.formData.errors = []
    · rw [if_pos herrors, dif_pos herrors, if_pos rfl]
      refine ⟨h.body, h.loads, h.loading, h.timeout, ⟨by simp, ?_⟩, ?_⟩
      · simp [hposting]
      · simp [h.posted]
    · rw [if_neg herrors, dif_neg herrors]
      exact h
  | sending | stuck =>
    have hdisabled : p.disabled = true := by simp [h.dialog.disabled, hdialog]
    rw [if_pos hdisabled]
    simpa using h

/-- The dialog's request is answered: the dialog is ready again, or it is stuck. -/
theorem addedAnswer
    (hready : Refines { p with disabled := false } { v with dialog := .ready })
    (hstuck : Refines p { v with dialog := .stuck }) (answer : Added) :
    Refines (p.addedAnswer answer) (v.addedAnswer answer) := by
  cases answer with
  | error => exact hready
  | success response =>
    cases hsoft : isSoftError response with
    | none => simpa only [Page.addedAnswer, View.addedAnswer, hsoft] using hstuck
    | some soft =>
      cases soft with
      | true => simpa only [Page.addedAnswer, View.addedAnswer, hsoft] using hready
      | false =>
        simp only [Page.addedAnswer, View.addedAnswer, hsoft]
        exact hready.loadRawMaterials

theorem added (h : Refines p v) (answer : Added) (now : Int) :
    Refines (p.step selects (.added answer) now) (v.step (.added answer)) := by
  have hlength := h.dialog.posting
  rw [Page.step, View.step]
  cases hposting : p.posting with
  | nil =>
    have hidle : v.dialog ≠ .sending := by
      intro hsending
      simp [hposting, hsending] at hlength
    rw [if_neg hidle]
    exact h
  | cons d posting =>
    have hsending : v.dialog = .sending := by
      by_contra hne
      simp [hposting, hne] at hlength
    obtain rfl : posting = [] := by simpa [hposting, hsending] using hlength
    have hdisabled : p.disabled = true := h.dialog.disabled.mpr (by simp [hsending])
    rw [if_pos hsending]
    refine addedAnswer ?_ ?_ answer
    · exact ⟨h.body, h.loads, h.loading, h.timeout, ⟨by simp, rfl⟩, h.posted⟩
    · exact ⟨h.body, h.loads, h.loading, h.timeout, ⟨by simp [hdisabled], rfl⟩, h.posted⟩

theorem faded (h : Refines p v) (element : Nat) (now : Int) :
    Refines (p.step selects (.faded element) now) (v.step (p.act (.faded element) now)) := by
  rw [Page.step, Page.act]
  split_ifs with hfading
  · have herased : Refines { p with fading := p.fading.erase element } v :=
      h.congr h.body rfl rfl rfl rfl rfl rfl
    rw [Page.faded, loadRawMaterials_mapRows]
    exact herased.loadRawMaterials
  · exact h

theorem step (h : Refines p v) (event : Event) (now : Int) :
    Refines (p.step selects event now) (v.step (p.act event now)) := by
  cases event with
  | input => exact h.input now
  | change => exact h.loadRawMaterials
  | timer id => exact h.timer id now
  | loaded call answer => exact h.loaded call answer now
  | submit form => exact h.submit form now
  | added answer => exact h.added answer now
  | deleteMaterial id confirmed =>
    rw [Page.step, Page.deleteMaterial]
    dsimp only
    split_ifs
    · exact h
    · have hmarked := h.mark ((p.rows.filter fun row => selects id row.item).map Row.element) true
      exact hmarked.congr hmarked.body rfl rfl rfl rfl rfl rfl
  | deleted request success =>
    rw [Page.step]
    cases p.deleting[request]? with
    | none => exact h
    | some elements =>
      have herased : Refines { p with deleting := p.deleting.eraseIdx request } v :=
        h.congr h.body rfl rfl rfl rfl rfl rfl
      cases success with
      | true => exact h.congr h.body rfl rfl rfl rfl rfl rfl
      | false => exact herased.mark elements false
  | faded element => exact h.faded element now

end Refines

theorem refines_foldl {selects : Json → Json → Bool} {p : Page} {v : View} (h : Refines p v)
    (run : List (Event × Int)) :
    Refines (run.foldl (fun p e => p.step selects e.1 e.2) p)
      ((p.acts selects run).foldl View.step v) := by
  induction run generalizing p v with
  | nil => exact h
  | cons e run ih => exact ih (h.step e.1 e.2)

/-! ### When a load is due -/

/-- The last input was at this time. -/
def LastInput (run : List (Event × Int)) (time : Int) : Prop :=
  ∃ before behind, run = before ++ (.input, time) :: behind ∧ ∀ e ∈ behind, e.1 ≠ .input

/-- The last input among acts. -/
def LastInputAct (acts : List Act) (time : Int) : Prop :=
  ∃ before behind, acts = before ++ .input time :: behind ∧ ∀ now, .input now ∉ behind

theorem deadline_step {v : View} {act : Act} {timer : Nat × Int}
    (h : (v.step act).deadline.timer = some timer) :
    (∃ now, act = .input now ∧ timer.2 = now + 300) ∨
      v.deadline.timer = some timer ∧ ∀ now, act ≠ .input now := by
  cases act with
  | input now =>
    obtain rfl := Option.some.inj h
    exact Or.inl ⟨now, rfl, rfl⟩
  | reload | nothing => exact Or.inr ⟨h, by simp⟩
  | timer id now =>
    rw [View.step] at h
    split_ifs at h
    · cases h
    · exact Or.inr ⟨h, by simp⟩
  | loaded call answer =>
    rw [View.step] at h
    split_ifs at h <;> exact Or.inr ⟨h, by simp⟩
  | submit form =>
    rw [View.step] at h
    split_ifs at h <;> exact Or.inr ⟨h, by simp⟩
  | added answer =>
    have hsame : (v.addedAnswer answer).deadline = v.deadline := by
      unfold View.addedAnswer
      split
      · split <;> rfl
      · rfl
    rw [View.step] at h
    split_ifs at h
    · rw [hsame] at h
      exact Or.inr ⟨h, by simp⟩
    · exact Or.inr ⟨h, by simp⟩

theorem lastInputAct_of_deadline {acts : List Act} {timer : Nat × Int}
    (h : (View.after acts).deadline.timer = some timer) : LastInputAct acts (timer.2 - 300) := by
  induction acts using List.reverseRecOn with
  | nil => cases h
  | append_singleton acts act ih =>
    rw [View.after, List.foldl_append] at h
    rcases deadline_step h with ⟨now, rfl, htimer⟩ | ⟨hbefore, hact⟩
    · obtain rfl : now = timer.2 - 300 := by omega
      exact ⟨acts, [], rfl, by simp⟩
    · obtain ⟨before, behind, rfl, hbehind⟩ := ih hbefore
      refine ⟨before, behind ++ [act], by simp, ?_⟩
      intro now hmem
      rcases List.mem_append.mp hmem with hmem | hmem
      · exact hbehind now hmem
      · exact hact now (List.mem_singleton.mp hmem).symm

theorem input_mem_acts {selects : Json → Json → Bool} {p : Page} {run : List (Event × Int)}
    {now : Int} (h : (.input, now) ∈ run) : .input now ∈ p.acts selects run := by
  induction run generalizing p with
  | nil => cases h
  | cons e run ih =>
    rcases List.mem_cons.mp h with rfl | h
    · exact List.mem_cons_self
    · exact List.mem_cons_of_mem _ (ih h)

/-- The inputs among the acts are those of the run. -/
theorem lastInput_of_acts {selects : Json → Json → Bool} {p : Page} {run : List (Event × Int)}
    {time : Int} (h : LastInputAct (p.acts selects run) time) : LastInput run time := by
  obtain ⟨before, behind, hacts, hbehind⟩ := h
  induction run generalizing p before with
  | nil =>
    rw [Page.acts] at hacts
    exact absurd (congrArg List.length hacts) (by simp)
  | cons e run ih =>
    obtain ⟨event, now⟩ := e
    rw [Page.acts] at hacts
    cases before with
    | cons act before =>
      obtain ⟨-, hrest⟩ := List.cons.inj hacts
      obtain ⟨before', behind', rfl, hbehind'⟩ := ih before hrest
      exact ⟨(event, now) :: before', behind', rfl, hbehind'⟩
    | nil =>
      obtain ⟨hact, hrest⟩ := List.cons.inj hacts
      have hinput : event = .input ∧ now = time := by
        cases event with
        | input => exact ⟨rfl, Act.input.inj hact⟩
        | faded element =>
          rw [Page.act] at hact
          split_ifs at hact
        | change | timer id | loaded call answer | submit form | added answer
          | deleteMaterial id confirmed | deleted request success => cases hact
      obtain ⟨rfl, rfl⟩ := hinput
      refine ⟨[], run, rfl, ?_⟩
      intro e he heq
      obtain ⟨event, later⟩ := e
      obtain rfl : event = .input := heq
      exact hbehind later (hrest ▸ input_mem_acts he)

/-- Over every run the table shows one picture: the spinner since the last load was called, or all
that could be drawn of one answer that has arrived since; one load at most is due, and it is due
300 ms after the last input; the button is disabled exactly if its request is on its way or was
answered with nothing, so that there is one such request at most; and all that was posted has passed
the checks. -/
theorem page_refines_view (selects : Json → Json → Bool) (run : List (Event × Int)) :
    let p := Page.after selects run
    let v := View.after (Page.opened.acts selects run)
    p.body.Shows v.picture ∧ p.loads = v.loads ∧ p.loading = v.waiting ∧
      p.timeout.pending = v.deadline.timer.toList ∧
      (∀ timer ∈ v.deadline.timer, LastInput run (timer.2 - 300)) ∧
      (p.disabled = true ↔ v.dialog ≠ .ready) ∧
      p.posting.length = (if v.dialog = .sending then 1 else 0) ∧
      p.posted = v.posted.map Checked.data := by
  have h : Refines (Page.after selects run) (View.after (Page.opened.acts selects run)) :=
    refines_foldl .opened run
  refine ⟨h.body, h.loads, h.loading, h.timeout.pending, ?_, h.dialog.disabled, h.dialog.posting,
    h.posted⟩
  intro timer htimer
  exact lastInput_of_acts (lastInputAct_of_deadline htimer)

/-! ### What is posted -/

/-- What is read back from the text that is posted: a price that is infinite is lost. -/
def FormData.received (d : FormData) : Json :=
  .object [(units "supplier", .string d.supplier),
    (units "price", match d.price with
      | .finite v => .number (.finite v)
      | _ => .null),
    (units "raw_material_name", .string d.rawMaterialName)]

/-- A price that the dialog accepts. -/
def Positive : Number → Prop
  | .finite v => 0 < v
  | .infinity negative => negative = false
  | .nan => False

theorem positive_of_not {x : Number} (h : ¬(!truthy x || x.le (.finite 0)) = true) :
    Positive x := by
  simp only [Bool.or_eq_true, Bool.not_eq_true', not_or, Bool.not_eq_false, Bool.not_eq_true] at h
  obtain ⟨htruthy, hle⟩ := h
  cases x with
  | nan => cases htruthy
  | infinity negative =>
    cases negative with
    | true => cases hle
    | false => rfl
  | finite v =>
    have hlt : ¬v ≤ 0 := by simpa [Number.le, Number.lt] using hle
    exact not_le.mp hlt

theorem Checked.fields (c : Checked) :
    c.data.rawMaterialName ≠ [] ∧ c.data.supplier ≠ [] ∧ Positive c.data.price := by
  have hpassed := c.passed
  rw [FormData.errors, List.append_eq_nil_iff, List.append_eq_nil_iff] at hpassed
  obtain ⟨⟨hname, hprice⟩, hsupplier⟩ := hpassed
  refine ⟨fun h => ?_, fun h => ?_, positive_of_not fun h => ?_⟩
  · rw [if_pos h] at hname
    cases hname
  · rw [if_pos h] at hsupplier
    cases hsupplier
  · rw [if_pos h] at hprice
    cases hprice

theorem text_received (texts : NumberTexts) (d : FormData) :
    Json.text texts d.received = Json.text texts d.body := by
  obtain ⟨name, price, supplier⟩ := d
  cases price <;> rfl

theorem storable_received {texts : NumberTexts} {d : FormData}
    (hprice : ∀ v, d.price = .finite v → Json.ReadsBack texts v) :
    Json.Storable texts d.received := by
  refine .object ?_
  simp only [List.forall_mem_cons]
  refine ⟨.string _, ?_, .string _, by simp⟩
  cases hd : d.price with
  | finite v => exact .number (hprice v hd)
  | nan => exact .null
  | infinity negative => exact .null

/-- Only a click on the button posts, and it posts what is in the form. -/
theorem posted_step (v : View) (act : Act) :
    ∀ c ∈ (v.step act).posted, c ∈ v.posted ∨ ∃ form, act = .submit form ∧
      c.data = form.formData := by
  intro c hc
  cases act with
  | reload | input now | nothing => exact Or.inl hc
  | timer id now =>
    rw [View.step] at hc
    split_ifs at hc <;> exact Or.inl hc
  | loaded call answer =>
    rw [View.step] at hc
    split_ifs at hc <;> exact Or.inl hc
  | submit form =>
    rw [View.step] at hc
    split_ifs at hc
    · rcases List.mem_append.mp hc with hc | hc
      · exact Or.inl hc
      · obtain rfl := List.mem_singleton.mp hc
        exact Or.inr ⟨form, rfl, rfl⟩
    · exact Or.inl hc
    · exact Or.inl hc
  | added answer =>
    have hposted : (v.addedAnswer answer).posted = v.posted := by
      unfold View.addedAnswer
      split
      · split <;> rfl
      · rfl
    rw [View.step] at hc
    split_ifs at hc
    · rw [hposted] at hc
      exact Or.inl hc
    · exact Or.inl hc

theorem posted_foldl (acts : List Act) (v : View) :
    ∀ c ∈ (acts.foldl View.step v).posted, c ∈ v.posted ∨ ∃ form, .submit form ∈ acts ∧
      c.data = form.formData := by
  intro c hc
  rcases Run.origin (fun (v : View) c => c ∈ v.posted) posted_step hc with
    hold | ⟨act, hact, form, rfl, hdata⟩
  · exact Or.inl hold
  · exact Or.inr ⟨form, hact, hdata⟩

/-- A submission among the acts was one on the page. -/
theorem mem_of_submit_mem_acts {selects : Json → Json → Bool} {p : Page}
    {run : List (Event × Int)} {form : Form} (h : .submit form ∈ p.acts selects run) :
    ∃ now, (.submit form, now) ∈ run := by
  induction run generalizing p with
  | nil => cases h
  | cons e run ih =>
    obtain ⟨event, now⟩ := e
    rcases List.mem_cons.mp h with hact | hrest
    · cases event with
      | submit form' =>
        obtain rfl : form = form' := Act.submit.inj hact
        exact ⟨now, List.mem_cons_self⟩
      | faded element =>
        rw [Page.act] at hact
        split_ifs at hact
      | input | change | timer id | loaded call answer | added answer | deleteMaterial id confirmed
        | deleted request success => cases hact
    · obtain ⟨now', hmem⟩ := ih hrest
      exact ⟨now', List.mem_cons_of_mem _ hmem⟩

/-- All that was posted in a run was in the form at a click, trimmed; it has a name, a supplier and
a positive price, and the server reads just that from the text, but for an infinite price, which it
reads as null. -/
theorem posted_read_back (texts : NumberTexts) (selects : Json → Json → Bool)
    (run : List (Event × Int)) (d : FormData) (hd : d ∈ (Page.after selects run).posted)
    (hprice : ∀ v, d.price = .finite v → Json.ReadsBack texts v) :
    (∃ form now, (.submit form, now) ∈ run ∧ d = form.formData) ∧
      d.rawMaterialName ≠ [] ∧ d.supplier ≠ [] ∧ Positive d.price ∧
      Json.parse (Json.text texts d.body) = some d.received := by
  have hrefines : Refines (Page.after selects run) (View.after (Page.opened.acts selects run)) :=
    refines_foldl .opened run
  rw [hrefines.posted] at hd
  obtain ⟨c, hc, rfl⟩ := List.mem_map.mp hd
  obtain ⟨hname, hsupplier, hpositive⟩ := c.fields
  have hread := (storable_received hprice).parse_text
  rw [text_received] at hread
  refine ⟨?_, hname, hsupplier, hpositive, hread⟩
  rcases posted_foldl _ _ c hc with hopened | ⟨form, hform, hdata⟩
  · cases hopened
  · obtain ⟨now, hmem⟩ := mem_of_submit_mem_acts hform
    exact ⟨form, now, hmem, hdata⟩

/-- Oil for 12500, with blanks around the name. -/
theorem posted_read_back_oil :
    let form : Form := ⟨units " oil ", units "12500", units "Artha"⟩
    let run : List (Event × Int) := [(.submit form, 0)]
    let d : FormData := ⟨units "oil", .finite 12500, units "Artha"⟩
    d ∈ (Page.after (fun _ _ => false) run).posted ∧
      Json.parse (Json.text .integers d.body) = some d.received := by
  intro form run d
  have hprice : parseFloatText (units "12500") = .finite 12500 := by
    have hsign : sign (trimStart (units "12500")) = (false, units "12500") := by decide
    have hwhole : (units "12500").takeWhile (isDigit 10) = units "12500" := by decide
    have hrest : (units "12500").dropWhile (isDigit 10) = [] := by decide
    have hword : infinityText.isPrefixOf (units "12500") = false := by decide
    have hne : units "12500" ≠ [] := by decide
    have hdigits : ofDigits 10 (units "12500") = 12500 := by decide
    have hrounded : Number.ofRat ((12500 : ℤ) : ℚ) = .finite ((12500 : ℤ) : ℚ) :=
      Number.ofRat_intCast (by decide)
    simp only [parseFloatText, hsign, hwhole, hrest, hword, hne, fractionPart, exponentPrefix,
      signed, List.append_nil, hdigits, List.length_nil, false_and, Bool.false_eq_true, if_false]
    simpa using hrounded
  have hdata : form.formData = d := by
    show FormData.mk _ (parseFloatText (units "12500")) _ = _
    rw [hprice]
    rfl
  have herrors : form.formData.errors = [] := by
    rw [hdata]
    decide
  have hmem : d ∈ (Page.after (fun _ _ => false) run).posted := by
    show d ∈ (Page.opened.submitAddMaterial form).posted
    rw [Page.submitAddMaterial, if_pos herrors, hdata]
    exact List.mem_singleton_self d
  have hnumber : ∀ v, d.price = .finite v → Json.ReadsBack .integers v := by
    intro v hv
    obtain rfl : (12500 : ℚ) = v := Number.finite.inj hv
    exact Json.readsBack_integers (n := 12500) (by decide)
  exact ⟨hmem, (posted_read_back .integers _ run d hmem hnumber).2.2.2.2⟩

end Artha.Sales.Materials
