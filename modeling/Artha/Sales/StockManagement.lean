import Mathlib.Tactic.Basic

/-!
# The stock management page (`sales/stock-management.blade.php`)

What is selected is kept three times: in the set `selectedItems`, in the check boxes of the rows and
in the number on the button 'Delete Selected'.  A page is these, the dialog, and how many requests
it waits for; what the user and the network do is an `Event`.

The rows are drawn from the answer to `GET /sales/stocks`.  A product whose row cannot be written
(one without a price) ends the drawing, and the listeners are not attached to the rows before it.
The texts of a row other than its id are not looked at again and are left out.
-/

namespace Artha.Sales

/-- A row of the table. -/
structure Row where
  /-- `tr.dataset.id`. -/
  id : String
  checked : Bool
  /-- The listeners of the check box and of the delete button are attached. -/
  listening : Bool
deriving DecidableEq, Repr

/-- Which button has opened the dialog. -/
inductive Opener where
  | deleteSelected
  | row
deriving DecidableEq, Repr

structure Page where
  rows : List Row
  /-- A `Set`: its elements in the order of their insertion. -/
  selectedItems : List String
  /-- The text of `selectedCountSpan`. -/
  selectedCount : Nat
  /-- `deleteSelectedBtn.disabled`. -/
  disabled : Bool
  /-- `deleteModal`, while it is shown. -/
  dialog : Option Opener
  /-- The listener of `selectAll` is attached. -/
  selectAllListening : Bool
  /-- The `DELETE` requests on their way. -/
  deletes : Nat
  /-- The `GET` requests on their way. -/
  loads : Nat
deriving DecidableEq, Repr

/-- A product of an answer. -/
inductive Product where
  | listed (id : String)
  /-- Writing its row throws. -/
  | broken
deriving DecidableEq, Repr

inductive Event where
  /-- The user ticks or unticks the check box of a row. -/
  | toggle (i : Nat)
  /-- The user ticks or unticks `selectAll`. -/
  | selectAll (checked : Bool)
  /-- The delete button of a row is clicked. -/
  | deleteRow (i : Nat)
  /-- 'Delete Selected' is clicked. -/
  | showDeleteModal
  /-- The dialog's 'Cancel'. -/
  | cancelDelete
  /-- The dialog's 'Delete'. -/
  | confirmDelete
  | deleteSucceeded
  | deleteFailed
  /-- The list arrives; none is a request that fails. -/
  | loaded (products : Option (List Product))
deriving DecidableEq, Repr

/-- `selectedItems.add(id)`. -/
def add (items : List String) (id : String) : List String :=
  if id ∈ items then items else items ++ [id]

/-- `selectedItems.delete(id)`. -/
def delete (items : List String) (id : String) : List String := items.filter (· ≠ id)

/-- What a check box does to the selection when it becomes `checked`. -/
def select (checked : Bool) (items : List String) (id : String) : List String :=
  if checked then add items id else delete items id

namespace Page

/-- The page before its first answer. -/
def opened : Page where
  rows := []
  selectedItems := []
  selectedCount := 0
  disabled := true
  dialog := none
  selectAllListening := false
  deletes := 0
  loads := 1

def updateDeleteButton (p : Page) : Page :=
  { p with disabled := p.selectedItems.length = 0, selectedCount := p.selectedItems.length }

/-- The check box of row `i` changes. -/
def toggle (p : Page) (i : Nat) : Page :=
  match p.rows[i]? with
  | none => p
  | some r =>
    let p := { p with rows := p.rows.set i { r with checked := !r.checked } }
    if r.listening then
      updateDeleteButton { p with selectedItems := select (!r.checked) p.selectedItems r.id }
    else p

/-- The listener of `selectAll`: every check box follows it. -/
def selectAll (p : Page) (checked : Bool) : Page :=
  if p.selectAllListening then
    updateDeleteButton
      { p with
        rows := p.rows.map fun r => { r with checked := checked }
        selectedItems := p.rows.foldl (fun items r => select checked items r.id) p.selectedItems }
  else p

/-- The delete button of row `i`: it selects the row alone. -/
def deleteRow (p : Page) (i : Nat) : Page :=
  match p.rows[i]? with
  | none => p
  | some r =>
    if r.listening then { p with selectedItems := [r.id], dialog := some .row } else p

/-- `showDeleteModal`, as 'Delete Selected' calls it. -/
def showDeleteModal (p : Page) : Page :=
  if p.disabled then p else { p with dialog := some .deleteSelected }

def hideDeleteModal (p : Page) : Page := { p with dialog := none }

/-- The `product_ids` that `deleteSelected` sends. -/
def deleteSelected (p : Page) : Option (List String) := p.dialog.map fun _ => p.selectedItems

/-- The rows of an answer up to the first that cannot be written; all of them get their listeners,
or none. -/
def draw (products : List Product) : List Row :=
  (products.takeWhile (· ≠ .broken)).filterMap fun
    | .listed id => some ⟨id, false, .broken ∉ products⟩
    | .broken => none

/-- The answer of `loadProducts`. -/
def loadProducts (p : Page) (products : List Product) : Page :=
  { p with
    rows := draw products
    selectAllListening := p.selectAllListening || .broken ∉ products }

def step (p : Page) : Event → Page
  | .toggle i => p.toggle i
  | .selectAll checked => p.selectAll checked
  | .deleteRow i => p.deleteRow i
  | .showDeleteModal => p.showDeleteModal
  | .cancelDelete => p.hideDeleteModal
  | .confirmDelete => if p.dialog.isSome then { p with deletes := p.deletes + 1 } else p
  | .deleteSucceeded =>
    if p.deletes = 0 then p
    else
      hideDeleteModal (updateDeleteButton
        { p with selectedItems := [], deletes := p.deletes - 1, loads := p.loads + 1 })
  | .deleteFailed =>
    if p.deletes = 0 then p else hideDeleteModal { p with deletes := p.deletes - 1 }
  | .loaded products =>
    if p.loads = 0 then p
    else
      match products with
      | none => { p with loads := p.loads - 1 }
      | some products => loadProducts { p with loads := p.loads - 1 } products

end Page

end Artha.Sales
