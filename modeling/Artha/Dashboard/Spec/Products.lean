import Artha.Dashboard.Products
import Artha.Effect.Run

/-!
# Overlapping loads of the products

Once every response has been processed, the grid should show the response to the last call.  A
response that comes later than a newer call still writes into the grid, so this holds of every run
in which such responses are empty lists, which write nothing (`shows_along`).  The start of the page
makes two calls, so any product the first of them is answered with is shown beside those of the
second (`products_shown_twice`).
-/

namespace Artha.Dashboard

open ProductsPage

variable {α : Type} {page : ProductsPage α}

/-- No call waits for its response. -/
def Idle (page : ProductsPage α) : Prop := page.inFlight = []

/-- The grid is displayed and has nothing in it but what the response to the last call is displayed
as: one card for each product, or one message. -/
def Shows (page : ProductsPage α) : Prop :=
  ∃ answer, page.lastAnswer = some answer ∧ page.grid = render [] answer ∧ page.shown = true ∧
    page.loading = false

/-- The event is not a response to an older call, or one that is an empty list. -/
def Harmless (page : ProductsPage α) : ProductsEvent α → Prop
  | .loadProducts => True
  | .answered call answer =>
    call ∈ page.inFlight → call + 1 ≠ page.issued → answer = .products []

/-- The last call still waits and the grid is empty, or its response is shown. -/
structure ProductsInv (page : ProductsPage α) : Prop where
  issued : 0 < page.issued
  numbered : ∀ call ∈ page.inFlight, call < page.issued
  grid : (page.issued - 1 ∈ page.inFlight ∧ page.grid = [] ∧ page.lastAnswer = none) ∨
    (page.issued - 1 ∉ page.inFlight ∧ Shows page)

theorem inv_loadProducts (page : ProductsPage α)
    (h : ∀ call ∈ page.inFlight, call < page.issued) : ProductsInv page.loadProducts where
  issued := Nat.succ_pos _
  numbered := by
    intro call hcall
    rcases List.mem_cons.mp hcall with rfl | hcall
    · exact Nat.lt_succ_self _
    · exact Nat.lt_succ_of_lt (h call hcall)
  grid := .inl ⟨List.mem_cons_self .., rfl, rfl⟩

theorem inv_productsStart : ProductsInv (start : ProductsPage α) :=
  inv_loadProducts _ (inv_loadProducts blank nofun).numbered

/-- An empty list leaves the grid as it is. -/
theorem render_nil (grid : List (Node α)) : render grid (.products []) = grid :=
  List.append_nil grid

/-- A response that is processed keeps the invariant, unless it is an older call's. -/
theorem inv_loaded (hi : ProductsInv page) {call : Nat} {answer : Answer α}
    (hcall : call ∈ page.inFlight) (h : call + 1 ≠ page.issued → answer = .products []) :
    ProductsInv (page.loaded call answer) where
  issued := hi.issued
  numbered := fun c hc => hi.numbered c (List.mem_filter.mp hc).1
  grid := by
    have hlt := hi.numbered call hcall
    by_cases hlast : call + 1 = page.issued
    · -- the response to the last call: the grid is still empty
      have hcall' : page.issued - 1 = call := by omega
      rcases hi.grid with ⟨-, hgrid, -⟩ | ⟨hanswered, -⟩
      · refine .inr ⟨?_, answer, if_pos hlast, ?_, rfl, rfl⟩
        · show page.issued - 1 ∉ page.inFlight.filter (· ≠ call)
          rw [hcall']
          simp
        · show render page.grid answer = render [] answer
          rw [hgrid]
      · rw [hcall'] at hanswered
        exact absurd hcall hanswered
    · -- an older call: nothing is written
      have hempty := h hlast
      subst hempty
      have hne : page.issued - 1 ≠ call := by
        have hpos := hi.issued
        omega
      have hmem : page.issued - 1 ∈ page.inFlight.filter (· ≠ call) ↔
          page.issued - 1 ∈ page.inFlight := by simp [hne]
      rcases hi.grid with ⟨hwaits, hgrid, hanswer⟩ | ⟨hanswered, answer, hanswer, hgrid, -, -⟩
      · refine .inl ⟨hmem.mpr hwaits, ?_, (if_neg hlast).trans hanswer⟩
        show render page.grid (.products []) = []
        rw [render_nil, hgrid]
      · refine .inr ⟨fun hwaits => hanswered (hmem.mp hwaits), answer,
          (if_neg hlast).trans hanswer, ?_, rfl, rfl⟩
        show render page.grid (.products []) = render [] answer
        rw [render_nil, hgrid]

theorem inv_productsStep (hi : ProductsInv page) (event : ProductsEvent α)
    (h : Harmless page event) : ProductsInv (page.step event) := by
  cases event with
  | loadProducts => exact inv_loadProducts page hi.numbered
  | answered call answer =>
    by_cases hcall : call ∈ page.inFlight
    · rw [step, if_pos hcall]
      exact inv_loaded hi hcall (h hcall)
    · rw [step, if_neg hcall]
      exact hi

/-- If no call waits, the response to the last call is there. -/
theorem ProductsInv.shows (hi : ProductsInv page) (hidle : Idle page) : Shows page := by
  rcases hi.grid with ⟨hwaits, -, -⟩ | ⟨-, hshows⟩
  · rw [hidle] at hwaits
    cases hwaits
  · exact hshows

/-- For any number of calls, any responses to them and any order in which these are processed: if
every response to a call that is no longer the last one is an empty list, then in every state
without a call in flight the grid shows the response to the last call and nothing else. -/
theorem shows_along (run : List (ProductsEvent α)) (hrun : Run.Along step Harmless start run) :
    Run.Along step (fun page event => Idle (page.step event) → Shows (page.step event))
      start run :=
  Run.along_of_invariant (fun _ event hi h => inv_productsStep hi event h)
    (fun _ event hi h => (inv_productsStep hi event h).shows) inv_productsStart hrun

/-- The first call is answered with an empty list and the second with a product. -/
theorem shows_second_answer :
    Run.Along step (fun page event => Idle (page.step event) → Shows (page.step event)) start
      [.answered 0 (.products []), .answered 1 (.products [some "product"])] := by
  refine shows_along _ ⟨fun _ _ => rfl, fun _ hlast => ?_, trivial⟩
  exact absurd rfl hlast

/-- Both calls of the page's start are answered with the same product, and it is shown twice. -/
theorem products_shown_twice :
    ¬ ∀ run : List (ProductsEvent String),
      Idle (run.foldl step start) → Shows (run.foldl step start) := by
  intro h
  obtain ⟨answer, hanswer, hgrid, -⟩ := h [.answered 0 (.products [some "product"]),
    .answered 1 (.products [some "product"])] rfl
  have hlast : answer = .products [some "product"] := Option.some.inj (hanswer.symm.trans rfl)
  rw [hlast] at hgrid
  exact absurd hgrid (by decide)

end Artha.Dashboard
