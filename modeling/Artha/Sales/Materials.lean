import Artha.Html.Tokenizer
import Artha.JavaScript.ParseFloat
import Artha.JavaScript.RoundTrip
import Artha.JavaScript.Timer

/-!
# The raw material page (`sales/raw-materials.blade.php`)

The table, the dialog that adds a material and the buttons that delete one, with their requests.
A request is answered at any time and in any order.  `loadRawMaterials` shows a spinner when it is
called and draws the answer when it arrives, whichever call it belongs to.  A row is an element of
the document with an identity of its own: a handler that found it keeps it after the table has been
drawn anew.

What is left out: the alerts, the markup of a row and the counters (for these see
`Artha.Sales.RawMaterials`).
-/

namespace Artha.Sales.Materials

open Binary64 JavaScript Html

/-! ### The table -/

/-- A row of the table. -/
structure Row where
  /-- Which element it is. -/
  element : Nat
  item : Json
  /-- The class `deleting`. -/
  deleting : Bool

/-- The contents of `rawMaterialsTableBody`. -/
inductive Body where
  | blank
  /-- The template `loadingSpinner`. -/
  | spinner
  /-- The template `emptyState`. -/
  | emptyState
  | rows (rows : List Row)

def isString : Json → Bool
  | .string _ => true
  | _ => false

/-- `createTableRow(item)` throws. -/
def rowThrows (item : Json) : Bool :=
  match item with
  | .null => true
  | item =>
    -- `materialName.charAt`
    (item.get? (units "raw_material_name")).any (fun name => name.truthy && !isString name) ||
      (parseFloat (item.get? (units "price"))).isNone ||
      ["raw_material_id", "description", "supplier", "id"].any fun key =>
        (item.get? (units key)).any Json.textThrows

/-- The rows that the loop of `updateRawMaterialsTable` appends before an exception ends it. -/
def appendable (data : List Json) : List Json := data.takeWhile fun item => !rowThrows item

/-- Rows for some items; the elements are numbered from `first` on. -/
def newRows (first : Nat) : List Json → List Row
  | [] => []
  | item :: items => ⟨first, item, false⟩ :: newRows (first + 1) items

/-- What `success` takes from the answer: the list, or its member `data`.  None where the status is
`error`, where neither is a list, and where reading a member throws. -/
def answerList : Json → Option (List Json)
  | .array elements => some elements
  | .object fields =>
    match fields.lookup (units "status"), fields.lookup (units "data") with
    | some (.string s), some (.array data) => if s = units "error" then none else some data
    | _, some (.array data) => some data
    | _, _ => none
  | _ => none

/-- What a load is answered with. -/
inductive Answer where
  | success (response : Json)
  /-- An error status, a body that cannot be read, or no connection. -/
  | error

/-! ### The dialog -/

/-- The values of the inputs of `addMaterialForm`. -/
structure Form where
  rawMaterialName : JsString
  price : JsString
  supplier : JsString

/-- `formData` of `submitAddMaterial`. -/
structure FormData where
  rawMaterialName : JsString
  price : Number
  supplier : JsString

def Form.formData (form : Form) : FormData where
  rawMaterialName := trim form.rawMaterialName
  price := parseFloatText form.price
  supplier := trim form.supplier

/-- `errors` of `submitAddMaterial`. -/
def FormData.errors (d : FormData) : List String :=
  (if d.rawMaterialName = [] then ["Material name is required"] else []) ++
    (if !truthy d.price || d.price.le (.finite 0) then ["Price must be greater than 0"] else []) ++
    if d.supplier = [] then ["Supplier is required"] else []

/-- The object that is posted, its fields backwards. -/
def FormData.body (d : FormData) : Json :=
  .object [(units "supplier", .string d.supplier), (units "price", .number d.price),
    (units "raw_material_name", .string d.rawMaterialName)]

/-- What the request that adds a material is answered with. -/
inductive Added where
  /-- The response; none is `undefined`, of an empty body. -/
  | success (response : Option Json)
  | error

/-- `response.status === 'error'`; none is a `TypeError`, which no handler behind `success` gets to
see: `complete` is not called. -/
def isSoftError : Option Json → Option Bool
  | none => none
  | some .null => none
  | some v =>
    match v.get? (units "status") with
    | some (.string s) => some (s = units "error")
    | _ => some false

/-! ### The page -/

structure Page where
  body : Body
  nextElement : Nat
  /-- How often `loadRawMaterials` was called. -/
  loads : Nat
  /-- The loads that wait for their answer. -/
  loading : List Nat
  /-- The variable `timeout` of `debounce`. -/
  timeout : Timer
  /-- The button of the dialog is disabled. -/
  disabled : Bool
  /-- The bodies that were posted and wait for their answer. -/
  posting : List FormData
  /-- The bodies that were posted. -/
  posted : List FormData
  /-- The deletions that wait for their answer, each with the elements its selector found. -/
  deleting : List (List Nat)
  /-- The elements that fade out. -/
  fading : List Nat

/-- What happens on the page. -/
inductive Event where
  /-- The text of `supplierFilter` changes. -/
  | input
  /-- `sortOrder` changes. -/
  | change
  /-- The time of a timer has come. -/
  | timer (id : Nat)
  | loaded (call : Nat) (answer : Answer)
  /-- A click on the button of the dialog. -/
  | submit (form : Form)
  | added (answer : Added)
  /-- `deleteMaterial(id)`, and what `confirm` returns. -/
  | deleteMaterial (id : Json) (confirmed : Bool)
  /-- A deletion is answered, with success or not. -/
  | deleted (request : Nat) (success : Bool)
  /-- An element has faded out. -/
  | faded (element : Nat)

namespace Page

def loadRawMaterials (p : Page) : Page :=
  { p with body := .spinner, loads := p.loads + 1, loading := p.loads :: p.loading }

/-- The document before the script runs. -/
def blank : Page where
  body := .blank
  nextElement := 0
  loads := 0
  loading := []
  timeout := .initial
  disabled := false
  posting := []
  posted := []
  deleting := []
  fading := []

/-- `$(document).ready`. -/
def opened : Page := blank.loadRawMaterials

/-- `updateRawMaterialsTable(data)`. -/
def updateRawMaterialsTable (p : Page) (data : List Json) : Page :=
  { p with
    body := if data = [] then .emptyState else .rows (newRows p.nextElement (appendable data))
    nextElement := p.nextElement + (appendable data).length }

/-- The handlers of a load. -/
def drawAnswer (p : Page) : Answer → Page
  | .success response =>
    match answerList response with
    | some data => p.updateRawMaterialsTable data
    | none => p
  | .error => { p with body := .emptyState }

def submitAddMaterial (p : Page) (form : Form) : Page :=
  if form.formData.errors = [] then
    { p with
      disabled := true
      posting := form.formData :: p.posting
      posted := p.posted ++ [form.formData] }
  else p

/-- The handlers of the request that adds a material. -/
def addedAnswer (p : Page) : Added → Page
  | .success response =>
    match isSoftError response with
    | none => p
    | some true => { p with disabled := false }
    | some false => { p.loadRawMaterials with disabled := false }
  | .error => { p with disabled := false }

/-- The rows of the table. -/
def rows (p : Page) : List Row :=
  match p.body with
  | .rows rows => rows
  | _ => []

/-- The table with other rows. -/
def mapRows (f : List Row → List Row) (p : Page) : Page :=
  match p.body with
  | .rows rows => { p with body := .rows (f rows) }
  | _ => p

/-- `addClass('deleting')` and `removeClass('deleting')` of some elements. -/
def mark (elements : List Nat) (deleting : Bool) (p : Page) : Page :=
  p.mapRows (·.map fun row => if row.element ∈ elements then { row with deleting } else row)

section

-- whether `tr[data-id="${id}"]` finds the row of an item
variable (selects : Json → Json → Bool)

def deleteMaterial (p : Page) (id : Json) (confirmed : Bool) : Page :=
  if !id.truthy || !confirmed then p
  else
    let elements := (p.rows.filter fun row => selects id row.item).map Row.element
    { p.mark elements true with deleting := p.deleting ++ [elements] }

/-- The handlers of a deletion. -/
def deletedAnswer (p : Page) (elements : List Nat) : Bool → Page
  | true => { p with fading := p.fading ++ elements }
  | false => p.mark elements false

/-- The function that `fadeOut` calls for an element. -/
def faded (p : Page) (element : Nat) : Page :=
  (p.mapRows (·.filter (·.element ≠ element))).loadRawMaterials

/-- An event, when the clock says `now`. -/
def step (p : Page) (event : Event) (now : Int) : Page :=
  match event with
  | .input => { p with timeout := p.timeout.restart (now + 300) }
  | .change => p.loadRawMaterials
  | .timer id =>
    if p.timeout.pending.contains (id, now) then
      -- `later` clears the timer that has fired
      { p with timeout := (p.timeout.clearTimeout id).clear }.loadRawMaterials
    else p
  | .loaded call answer =>
    if call ∈ p.loading then { p with loading := p.loading.erase call }.drawAnswer answer else p
  | .submit form => if p.disabled then p else p.submitAddMaterial form
  | .added answer =>
    match p.posting with
    | [] => p
    | _ :: posting => { p with posting := posting }.addedAnswer answer
  | .deleteMaterial id confirmed => p.deleteMaterial selects id confirmed
  | .deleted request success =>
    match p.deleting[request]? with
    | some elements =>
      { p with deleting := p.deleting.eraseIdx request }.deletedAnswer elements success
    | none => p
  | .faded element =>
    if element ∈ p.fading then { p with fading := p.fading.erase element }.faded element else p

/-- The page after a sequence of events. -/
def after (run : List (Event × Int)) : Page :=
  run.foldl (fun p e => p.step selects e.1 e.2) opened

end

end Page

end Artha.Sales.Materials
