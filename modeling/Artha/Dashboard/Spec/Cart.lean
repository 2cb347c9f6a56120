import Artha.Dashboard.Cart
import Artha.Effect.Run

/-!
# The customer pays for the cart on the screen

What `processCheckout` sends should be the cart the server last reported and the page displayed
(`Faithful`).  The new dashboard keeps the two in step except when an empty cart is reported: the
variable `currentCart` then keeps the items that are gone, and they can be paid for again
(`stale_checkout`).  The served dashboard never stores a cart and never asks for one.
-/

namespace Artha.Dashboard

variable {α : Type}

/-! ### Histories -/

/-- A dashboard, as far as the cart is concerned. -/
structure CartMachine (α : Type) where
  Page : Type
  step : Page → Event α → Page
  processCheckout : Page → Option (List (CheckoutItem α))
  reports : Page → Event α → Option (List (CartItem α))

def newDashboard (α : Type) : CartMachine α where
  Page := NewPage α
  step := NewPage.step
  processCheckout := NewPage.processCheckout
  reports := NewPage.reports

def oldDashboard (α : Type) : CartMachine α where
  Page := OldPage α
  step := OldPage.step
  processCheckout := OldPage.processCheckout
  reports := OldPage.reports

/-- A page with the cart that was reported and displayed last, none at first. -/
structure History (D : CartMachine α) where
  page : D.Page
  reported : List (CartItem α)

variable {D : CartMachine α}

def History.start (page : D.Page) : History D where
  page
  reported := []

/-- An error reports nothing, and the last report stands. -/
def History.step (h : History D) (e : Event α) : History D where
  page := D.step h.page e
  reported := (D.reports h.page e).getD h.reported

/-- A checkout request has exactly the items of the cart reported last, in order, and there is one
whenever that cart is not empty. -/
structure Faithful (h : History D) : Prop where
  sameItems : ∀ items, D.processCheckout h.page = some items →
    items = h.reported.map CartItem.checkoutItem
  sent : h.reported ≠ [] → ∃ items, D.processCheckout h.page = some items
  silent : h.reported = [] → D.processCheckout h.page = none

/-! ### The new dashboard -/

/-- The event does not report an empty cart while the script still has items. -/
def KeepsUp (h : History (newDashboard α)) (e : Event α) : Prop :=
  NewPage.reports h.page e = some [] → NewPage.currentCart h.page = []

@[simp] theorem NewPage.loadCart_currentCart (page : NewPage α) :
    page.loadCart.currentCart = page.currentCart := rfl

theorem NewPage.loaded_currentCart (page : NewPage α) (reply : Reply α) :
    (page.loaded reply).currentCart =
      match reply with
      | .cart items => if items.length > 0 then items else page.currentCart
      | _ => page.currentCart := by
  cases reply with
  | cart items =>
    simp only [loaded]
    split <;> rfl
  | unauthorized | failure => rfl

/-- A step changes the script's cart only by a report that is not empty. -/
theorem NewPage.step_currentCart (page : NewPage α) (e : Event α) :
    (page.step e).currentCart =
      match page.reports e with
      | some (item :: items) => item :: items
      | _ => page.currentCart := by
  cases e with
  | loadCart | processCheckout => rfl
  | removeFromCart removal => cases removal <;> rfl
  | payment callback => cases callback <;> rfl
  | answered reply =>
    simp only [step, reports]
    by_cases hp : page.pending = 0
    · cases reply <;> simp [hp]
    · rw [if_neg hp, loaded_currentCart]
      cases reply with
      | cart items => cases items <;> simp [hp]
      | unauthorized | failure => rfl

/-- What is reported is displayed: as rows, or as the message for an empty cart. -/
theorem NewPage.displayed_of_reports {page : NewPage α} {e : Event α} {items : List (CartItem α)}
    (h : page.reports e = some items) :
    if items = [] then (page.step e).empty = true
    else (page.step e).content = true ∧ (page.step e).rows = items := by
  cases e with
  | answered reply =>
    cases reply with
    | unauthorized | failure => simp [reports] at h
    | cart reported =>
      simp only [reports] at h
      split at h
      · cases h
      · next hp =>
        obtain rfl := Option.some.inj h
        simp only [step, if_neg hp, loaded]
        cases reported with
        | nil => rfl
        | cons item reported => exact ⟨rfl, rfl⟩
  | loadCart | processCheckout | removeFromCart removal | payment callback => cases h

/-- The script's cart is the reported one, as long as every step keeps up. -/
theorem currentCart_step {h : History (newDashboard α)} {e : Event α}
    (hi : NewPage.currentCart h.page = h.reported) (he : KeepsUp h e) :
    NewPage.currentCart (h.step e).page = (h.step e).reported := by
  have hstep : NewPage.currentCart (h.step e).page = _ := NewPage.step_currentCart h.page e
  have hreported : (h.step e).reported = (NewPage.reports h.page e).getD h.reported := rfl
  rw [hstep, hreported]
  cases hr : NewPage.reports h.page e with
  | none => exact hi
  | some items =>
    cases items with
    | nil => exact he hr
    | cons item items => rfl

theorem NewPage.processCheckout_of_nil {page : NewPage α} (h : page.currentCart = []) :
    page.processCheckout = none := by
  simp [processCheckout, h]

theorem NewPage.processCheckout_of_ne_nil {page : NewPage α} (h : page.currentCart ≠ []) :
    page.processCheckout = some (page.currentCart.map CartItem.checkoutItem) := by
  simp [processCheckout, h]

theorem faithful_of_currentCart {h : History (newDashboard α)}
    (hi : NewPage.currentCart h.page = h.reported) : Faithful h := by
  by_cases hnil : h.reported = []
  · have hnone := NewPage.processCheckout_of_nil (hi.trans hnil)
    refine ⟨fun items hitems => ?_, fun hne => absurd hnil hne, fun _ => hnone⟩
    cases hnone.symm.trans hitems
  · have hne : NewPage.currentCart h.page ≠ [] := by rwa [hi]
    have hsome := NewPage.processCheckout_of_ne_nil hne
    rw [hi] at hsome
    refine ⟨fun items hitems => ?_, fun _ => ⟨_, hsome⟩, fun h => absurd h hnil⟩
    exact (Option.some.inj (hsome.symm.trans hitems)).symm

/-! ### The served dashboard -/

@[simp] theorem OldPage.loadCart_currentCart (page : OldPage α) :
    page.loadCart.currentCart = page.currentCart := by
  unfold loadCart
  split
  · rfl
  · split <;> rfl

theorem OldPage.removeFromCart_currentCart (page : OldPage α) (removal : Removal) :
    (page.removeFromCart removal).currentCart = page.currentCart := by
  cases removal with
  | declined | failed => rfl
  | succeeded =>
    simp only [removeFromCart]
    split
    · rfl
    · exact loadCart_currentCart page
  | unauthorized =>
    simp only [removeFromCart]
    split
    · rfl
    · exact loadCart_currentCart _

/-- The cart of the script is never written. -/
theorem OldPage.step_currentCart (page : OldPage α) (e : Event α) :
    (page.step e).currentCart = page.currentCart := by
  cases e with
  | loadCart => exact loadCart_currentCart page
  | processCheckout => rfl
  | removeFromCart removal => exact removeFromCart_currentCart page removal
  | payment callback =>
    cases callback with
    | onSuccess => exact loadCart_currentCart page
    | onPending | onError | onClose => rfl
  | answered reply =>
    simp only [step]
    split
    · rfl
    · cases reply <;> rfl

/-- What is reported is displayed. -/
theorem OldPage.rows_of_reports {page : OldPage α} {e : Event α} {items : List (CartItem α)}
    (h : page.reports e = some items) : (page.step e).rows = items := by
  cases e with
  | answered reply =>
    cases reply with
    | unauthorized | failure => simp [reports] at h
    | cart reported =>
      simp only [reports, Bool.or_eq_true, decide_eq_true_eq, Bool.not_eq_true'] at h
      split at h
      · cases h
      · next hp =>
        obtain ⟨hpending, hbutton⟩ := not_or.mp hp
        obtain rfl := Option.some.inj h
        simp only [step, if_neg hpending, loaded]
        rw [if_pos (by simpa using hbutton)]
  | loadCart | processCheckout | removeFromCart removal | payment callback => cases h

/-- Without a stored cart nothing is sent, which is right exactly while nothing was reported. -/
theorem faithful_iff_of_nil {h : History (oldDashboard α)}
    (hnil : OldPage.currentCart h.page = []) : Faithful h ↔ h.reported = [] := by
  have hnone : OldPage.processCheckout h.page = none := by
    simp [OldPage.processCheckout, hnil]
  constructor
  · intro hfaithful
    cases hreported : h.reported with
    | nil => rfl
    | cons item items =>
      obtain ⟨sent, hsent⟩ := hfaithful.sent (by simp [hreported])
      cases hnone.symm.trans hsent
  · intro hreported
    refine ⟨fun items hitems => ?_, fun hne => absurd hreported hne, fun _ => hnone⟩
    cases hnone.symm.trans hitems

/-- The document lacks the elements, and no answer is waited for. -/
def OldPage.Idle (page : OldPage α) : Prop := page.elements = false ∧ page.pending = 0

theorem OldPage.Idle.loadCart {page : OldPage α} (h : page.Idle) : page.loadCart.Idle := by
  have hkeep : page.loadCart = page := by simp [OldPage.loadCart, h.1]
  rwa [hkeep]

theorem OldPage.Idle.removeFromCart {page : OldPage α} (h : page.Idle) (removal : Removal) :
    (page.removeFromCart removal).Idle := by
  cases removal with
  | declined | failed => exact h
  | succeeded =>
    simp only [OldPage.removeFromCart]
    split
    · exact h
    · exact h.loadCart
  | unauthorized =>
    simp only [OldPage.removeFromCart]
    split
    · exact h
    · -- the token is dropped first, which the two fields do not notice
      have hdropped : OldPage.Idle { page with token := false } := h
      exact hdropped.loadCart

theorem OldPage.Idle.step {page : OldPage α} (h : page.Idle) (e : Event α) :
    (page.step e).Idle := by
  cases e with
  | loadCart => exact h.loadCart
  | processCheckout => exact h
  | removeFromCart removal => exact h.removeFromCart removal
  | payment callback =>
    cases callback with
    | onSuccess => exact h.loadCart
    | onPending | onError | onClose => exact h
  | answered reply =>
    have hkeep : page.step (.answered reply) = page := by simp [OldPage.step, h.2]
    rwa [hkeep]

/-- A page that asks for no cart reports none. -/
theorem OldPage.Idle.reports {page : OldPage α} (h : page.Idle) (e : Event α) :
    page.reports e = none := by
  cases e with
  | answered reply => cases reply <;> simp [OldPage.reports, h.2]
  | loadCart | processCheckout | removeFromCart removal | payment callback => rfl

/-! ### Runs -/

/-- The new dashboard after a run. -/
def newHistory (run : List (Event α)) : History (newDashboard α) :=
  run.foldl History.step (.start NewPage.start)

/-- The served dashboard's script after a run, in a document with or without the elements. -/
def oldHistory (page : OldPage α) (run : List (Event α)) : History (oldDashboard α) :=
  run.foldl History.step (.start page)

/-- What every step keeps holds after every run. -/
theorem oldHistory_invariant {I : History (oldDashboard α) → Prop}
    (hstep : ∀ h e, I h → I (h.step e)) {page : OldPage α} (hstart : I (.start page))
    (run : List (Event α)) : I (oldHistory page run) :=
  Run.invariant (C := fun _ _ => True) (fun h e hi _ => hstep h e hi) hstart
    (Run.along_of_forall (C := fun _ => True) fun _ _ => trivial)

theorem oldHistory_currentCart {page : OldPage α} (hnil : page.currentCart = [])
    (run : List (Event α)) : OldPage.currentCart (oldHistory page run).page = [] :=
  oldHistory_invariant (I := fun h => OldPage.currentCart h.page = [])
    (fun h e hi => (OldPage.step_currentCart h.page e).trans hi) hnil run

theorem oldHistory_reported {page : OldPage α} (hidle : page.Idle) (run : List (Event α)) :
    (oldHistory page run).reported = [] := by
  refine (oldHistory_invariant (I := fun h => OldPage.Idle h.page ∧ h.reported = [])
    (fun h e hi => ⟨hi.1.step e, ?_⟩) ⟨hidle, rfl⟩ run).2
  have hreported : (h.step e).reported = (OldPage.reports h.page e).getD h.reported := rfl
  rw [hreported, hi.1.reports e]
  exact hi.2

/-- Two of product 7, at 5000 each. -/
def sampleItem : CartItem Nat where
  cartId := 1
  productId := 7
  quantity := 2
  product := { productName := 0, price := 5000 }

end Artha.Dashboard
