import Artha.ApiController.Spec.Outgoing

/-!
# Which customer a request is about

A customer action that forwards nothing of the session leaves the backend no way to tell two
customers apart.  `identifies_iff` says for each of the six actions when the requests of two
sessions differ: the cart actions send the token, the summary and the checkout the user's id, and
`viewTransactionDetailByID` sends neither.
-/

namespace Artha.ApiController

open Php Laravel

/-- The actions on a customer's own data. -/
def customerActions : List Action :=
  [.addToCart, .getUserCart, .deleteCartItems, .viewTransactionSummary,
    .viewTransactionDetailByID, .checkout]

/-- `session('user')['id']`, where it can be read. -/
def idOf (s : Session) : Option Value := ((s "user").read "id").toOption

/-- No request the first call sends to the backend is one the second sends. -/
def Identifies (c₁ c₂ : Call) (s₁ s₂ : Session) : Prop :=
  ∀ q₁ ∈ c₁.backend s₁, ∀ q₂ ∈ c₂.backend s₂, q₁ ≠ q₂

/-- What the two sessions have to differ in for the requests of the action to differ: the text of
the token, the text of the id, or the id.  Of `viewTransactionDetailByID` nothing helps. -/
def Action.Distinguishes (env : Env) (s₁ s₂ : Session) : Action → Prop
  | .addToCart | .getUserCart | .deleteCartItems =>
    textOf env (tokenOf s₁) ≠ textOf env (tokenOf s₂)
  | .viewTransactionSummary => (idOf s₁).bind (textOf env) ≠ (idOf s₂).bind (textOf env)
  | .checkout => idOf s₁ ≠ idOf s₂
  | _ => False

/-! ### Reading a request back -/

variable {env env₁ env₂ : Env} {request : Request} {s s₁ s₂ : Session} {q q₁ q₂ : HttpRequest}
  {o : Option HttpRequest}

theorem withBearer_eq_some {f : Value → HttpRequest} (h : withBearer env s f = some q) :
    ∃ t, textOf env (tokenOf s) = some t ∧ q = f (.str ("Bearer " ++ t)) := by
  unfold withBearer whenToken at h
  split at h
  · cases h
  · obtain ⟨a, ha, rfl⟩ := Option.map_eq_some_iff.mp h
    obtain ⟨t, ht, rfl⟩ := Option.map_eq_some_iff.mp ha
    exact ⟨t, ht, rfl⟩

theorem textOf_congr (hrules : env₁.rules = env₂.rules) : textOf env₁ = textOf env₂ := by
  funext v
  rw [textOf, textOf, hrules]

/-- Two requests that carry a token differ exactly when the tokens have different texts. -/
theorem ne_iff_of_withBearer {f : Value → HttpRequest} (hf : Function.Injective f)
    (hrules : env₁.rules = env₂.rules) (h₁ : withBearer env₁ s₁ f = some q₁)
    (h₂ : withBearer env₂ s₂ f = some q₂) :
    q₁ ≠ q₂ ↔ textOf env₁ (tokenOf s₁) ≠ textOf env₁ (tokenOf s₂) := by
  obtain ⟨t₁, ht₁, rfl⟩ := withBearer_eq_some h₁
  obtain ⟨t₂, ht₂, rfl⟩ := withBearer_eq_some h₂
  rw [← textOf_congr hrules] at ht₂
  rw [ht₁, ht₂, hf.ne_iff, Ne, Ne, Value.str.injEq, Option.some.injEq, String.append_right_inj]

theorem addToCartRequest_injective (request : Request) :
    Function.Injective (addToCartRequest request) := by
  intro a b h
  simpa [addToCartRequest, bearingJson] using h

theorem getUserCartRequest_injective : Function.Injective getUserCartRequest := by
  intro a b h
  simpa [getUserCartRequest, bearing] using h

theorem deleteCartItemsRequest_injective (request : Request) :
    Function.Injective (deleteCartItemsRequest request) := by
  intro a b h
  simpa [deleteCartItemsRequest, bearingJson] using h

theorem summaryRequest_injective : Function.Injective summaryRequest := by
  intro a b h
  have hurl := congrArg HttpRequest.url h
  simpa [summaryRequest, bareRequest, HttpRequest.plain] using hurl

theorem transactionRequest_injective : Function.Injective transactionRequest := by
  intro a b h
  simpa [transactionRequest, jsonRequest, HttpRequest.plain] using h

/-! ### The six actions -/

/-- The requests two sessions make an action build differ exactly when the sessions differ in what
the action puts into its request. -/
theorem built_ne_iff {a : Action} (ha : a ∈ customerActions) (hrules : env₁.rules = env₂.rules)
    (h₁ : a.built env₁ request s₁ = some q₁) (h₂ : a.built env₂ request s₂ = some q₂) :
    q₁ ≠ q₂ ↔ a.Distinguishes env₁ s₁ s₂ := by
  simp only [customerActions, List.mem_cons, List.not_mem_nil, or_false] at ha
  rcases ha with rfl | rfl | rfl | rfl | rfl | rfl
  -- the three cart actions: the token is in the header
  · exact ne_iff_of_withBearer (addToCartRequest_injective request) hrules
      (eq_some_of_whenUser (eq_some_of_whenAccepted h₁))
      (eq_some_of_whenUser (eq_some_of_whenAccepted h₂))
  · exact ne_iff_of_withBearer getUserCartRequest_injective hrules
      (eq_some_of_whenUser h₁) (eq_some_of_whenUser h₂)
  · exact ne_iff_of_withBearer (deleteCartItemsRequest_injective request) hrules
      (eq_some_of_whenUser (eq_some_of_whenAccepted h₁))
      (eq_some_of_whenUser (eq_some_of_whenAccepted h₂))
  · -- the summary: `q` is the request of the id's text
    have hid : ∀ {env s q}, Action.viewTransactionSummary.built env request s = some q →
        ∃ t, (idOf s).bind (textOf env) = some t ∧ q = summaryRequest t := by
      intro env s q h
      obtain ⟨id, hread, hmap⟩ := Option.bind_eq_some_iff.mp (eq_some_of_whenUser h)
      obtain ⟨t, ht, rfl⟩ := Option.map_eq_some_iff.mp hmap
      exact ⟨t, by rw [idOf, hread]; exact ht, rfl⟩
    obtain ⟨t₁, ht₁, rfl⟩ := hid h₁
    obtain ⟨t₂, ht₂, rfl⟩ := hid h₂
    rw [← textOf_congr hrules] at ht₂
    rw [summaryRequest_injective.ne_iff, Action.Distinguishes, ht₁, ht₂, Ne, Ne,
      Option.some.injEq]
  · -- the detail: both runs send the same request
    have h₁' := eq_some_of_whenUser (eq_some_of_whenAccepted h₁)
    have h₂' := eq_some_of_whenUser (eq_some_of_whenAccepted h₂)
    rw [← textOf_congr hrules, h₁'] at h₂'
    exact ⟨fun hne => hne (Option.some.inj h₂'), False.elim⟩
  · -- the checkout: the id is in the body as it is, not as text
    have hid : ∀ {env s q}, Action.checkout.built env request s = some q →
        ∃ id, idOf s = some id ∧ q = transactionRequest id := by
      intro env s q h
      obtain ⟨id, hread, rfl⟩ := Option.map_eq_some_iff.mp (eq_some_of_whenUser h)
      exact ⟨id, hread, rfl⟩
    obtain ⟨id₁, hid₁, rfl⟩ := hid h₁
    obtain ⟨id₂, hid₂, rfl⟩ := hid h₂
    rw [transactionRequest_injective.ne_iff, Action.Distinguishes, hid₁, hid₂, Ne, Ne,
      Option.some.injEq]

/-- The request a call sends to the backend, if it sends one. -/
theorem Call.built_of_backend_ne_nil {c : Call} {s : Session} (h : c.backend s ≠ []) :
    ∃ q, c.backend s = [q] ∧ c.action.built c.env c.request s = some q := by
  rw [c.backend_eq s] at h ⊢
  cases hq : c.action.outgoing c.env c.request s with
  | none => simp [hq] at h
  | some q => exact ⟨q, rfl, (Option.filter_eq_some_iff.mp hq).1⟩

/-- A customer's session, as `login` writes it. -/
def customerSession (id : Int) (token : String) : Session :=
  .ofUser (.arr [("id", .int id), ("email", .str "c@artha.test"), ("name", .str "C"),
    ("token", .str token), ("role", .str "customer")])

/-- An input every customer action accepts. -/
def customerInput : Request where
  verb := .get
  path := "customer/transactions/detail"
  authorization := none
  input := [("transaction_id", .str "7"), ("product_id", .int 1), ("quantity", .int 2),
    ("cart_ids", .arr [("0", .int 3)])]

/-- The backend answers every request with an empty object. -/
def customerEnv : Env := .answering (fun _ => .arr []) (.response ⟨200, .utf8 "\x7b\x7d"⟩)

end Artha.ApiController
