import Artha.ApiController.Spec.Checkout
import Artha.ApiController.Spec.Honest
import Artha.Dashboard.Cart

/-!
# The order a checkout is given

The dashboards post the cart under `items`, and the tests of the repository expect a body without
well-formed items to be answered 422.  `checkout` does not look at its body at all: the request that
creates the transaction carries the user's id and nothing else, and no branch answers 422.  So a
checkout uses its order only where the order is well formed and no request is sent
(`usesOrder_iff`).
-/

namespace Artha.ApiController

open Php Laravel Eff Dashboard

/-! ### Orders -/

/-- An entry of `items`, if it has the four fields. -/
def itemOf (v : Value) : Option (CheckoutItem Value) :=
  if v.isSet "product_id" && v.isSet "quantity" && v.isSet "price" && v.isSet "name" then
    some
      { productId := v.getD "product_id" .null, quantity := v.getD "quantity" .null,
        price := v.getD "price" .null, name := v.getD "name" .null }
  else none

/-- The items of an order: a list that is not empty, of entries that have the four fields. -/
def itemsOf (v : Value) : Option (List (CheckoutItem Value)) :=
  match v.asList? with
  | none | some [] => none
  | some vs => vs.mapM itemOf

/-- The object `processCheckout` posts for an item. -/
def encodeItem (item : CheckoutItem Value) : Value :=
  .arr [("product_id", item.productId), ("quantity", item.quantity), ("price", item.price),
    ("name", item.name)]

/-- The body `processCheckout` posts. -/
def orderBody (items : List (CheckoutItem Value)) : List (String × Value) :=
  [("items", .ofList (items.map encodeItem))]

/-- The order in the body of a request to a remote service. -/
def requestedItems (q : HttpRequest) : Option (List (CheckoutItem Value)) :=
  match q.body with
  | .json data => itemsOf (data.getD "items" .null)
  | _ => none

/-- The request asks the backend for a new transaction. -/
def asksForTransaction (q : HttpRequest) : Prop :=
  q.verb = .post ∧ q.url = api ++ "/transactions"

/-- A checkout uses the order it is given: it answers 422 and sends nothing if there is none, and
asks for a transaction with exactly these items otherwise. -/
def UsesOrder (request : Request) (env : Env) (s : Session) : Prop :=
  match itemsOf (request.get "items") with
  | none =>
    (∃ response, Call.Answers ⟨.checkout, request, env⟩ s response ∧ response.status = 422) ∧
      Call.trace ⟨.checkout, request, env⟩ s = []
  | some items =>
    ∀ x ∈ Call.trace ⟨.checkout, request, env⟩ s,
      asksForTransaction x.request → requestedItems x.request = some items

/-! ### The dashboard's body -/

theorem itemOf_encodeItem {item : CheckoutItem Value}
    (h : ∀ v ∈ [item.productId, item.quantity, item.price, item.name], v ≠ .null) :
    itemOf (encodeItem item) = some item := by
  simp only [List.mem_cons, List.not_mem_nil, or_false, forall_eq_or_imp, forall_eq] at h
  obtain ⟨hproduct, hquantity, hprice, hname⟩ := h
  have hget : ∀ key v, (encodeItem item).get? key = some v → v ≠ .null →
      (encodeItem item).getD key .null = v ∧ (encodeItem item).isSet key = true :=
    fun key v h hv => Value.getD_of_get? h hv .null
  obtain ⟨hp, hp'⟩ := hget "product_id" _ rfl hproduct
  obtain ⟨hq, hq'⟩ := hget "quantity" _ rfl hquantity
  obtain ⟨hr, hr'⟩ := hget "price" _ rfl hprice
  obtain ⟨hn, hn'⟩ := hget "name" _ rfl hname
  simp only [itemOf, hp, hp', hq, hq', hr, hr', hn, hn', Bool.and_self, if_true]

/-- What the dashboard posts is a well-formed order, and it is read back as it was posted. -/
theorem itemsOf_orderBody {items : List (CheckoutItem Value)} (hne : items ≠ [])
    (h : ∀ item ∈ items, ∀ v ∈ [item.productId, item.quantity, item.price, item.name],
      v ≠ .null) :
    itemsOf (.ofList (items.map encodeItem)) = some items := by
  have hmap : (items.map encodeItem).mapM itemOf = some items := by
    clear hne
    induction items with
    | nil => rfl
    | cons item items ih =>
      rw [List.map_cons, List.mapM_cons, itemOf_encodeItem (h item (List.mem_cons_self ..)),
        ih fun item' h' => h item' (List.mem_cons_of_mem _ h')]
      rfl
  rw [itemsOf, Value.asList?_ofList]
  cases items with
  | nil => exact absurd rfl hne
  | cons item items => exact hmap

/-! ### No 422 -/

/-- `m` answers 200 or 500. -/
def Unvalidated (m : Php Response) : Prop :=
  Triple (fun _ => True) m fun r _ => r.status = 200 ∨ r.status = 500

/-- With a user in the session no branch of `checkout` is left that looks at the input. -/
theorem unvalidated_checkout (env : Env) {st : St} (hu : Action.noUser st.session = false) :
    wp checkout env (fun r _ => r.status = 200 ∨ r.status = 500) (fun _ _ => True) st := by
  have hbody : Unvalidated (do
      let userId ← readKey (st.session "user") "id"
      forward (transactionRequest userId) (createPayment (st.session "user"))) := by
    refine triple_bind_any fun userId => triple_bind_any fun r => triple_ite (fun _ => ?_)
      fun _ => triple_throw _
    exact triple_createPayment (fun _ _ => .inl rfl) _ r
  rw [checkout, wp_attempt, wp_withUser]
  refine ⟨fun hno => by simp [hu] at hno, fun _ => ?_⟩
  exact wp_mono (hbody env st trivial) (fun _ _ h => h) fun e st' _ =>
    triple_caught (fun _ _ => .inr rfl) _ e env st' trivial

/-! ### What is made of an order -/

variable {request : Request} {env : Env} {s : Session}

/-- The request for a transaction carries no order. -/
theorem order_transactionRequest (id : Value) :
    requestedItems (transactionRequest id) = none := rfl

/-- The session's user has an id that can be sent. -/
def HasId (s : Session) : Prop := ∃ id, (s "user").read "id" = .ok id ∧ id.encodableAt 1 = true

theorem trace_checkout_of_not_hasId (h : ¬ HasId s) :
    Call.trace ⟨.checkout, request, env⟩ s = [] := by
  rw [Call.trace_checkout _ s rfl]
  simp only [Action.built, whenUser]
  split
  · rfl
  · cases hid : (s "user").read "id" with
    | error e => rfl
    | ok id =>
      refine checkoutTrace_of_not_encodable _ ?_
      rw [← Bool.not_eq_true, Checkout.encodable_transactionRequest]
      exact fun henc => h ⟨id, hid, henc⟩

/-- With an id the request for a transaction is the first that is sent. -/
theorem mem_trace_checkout_of_hasId (request : Request) (env : Env)
    (hu : Action.noUser s = false) {id : Value} (hid : (s "user").read "id" = .ok id)
    (henc : id.encodableAt 1 = true) :
    ∃ x ∈ Call.trace ⟨.checkout, request, env⟩ s, x.request = transactionRequest id := by
  have hout : Action.checkout.outgoing env request s = some (transactionRequest id) := by
    have henc' := Checkout.encodable_transactionRequest.mpr henc
    simp [Action.outgoing, Action.built, whenUser, hu, hid, Except.toOption, henc']
  have hhead := Call.trace_head ⟨.checkout, request, env⟩ s
  rw [hout, Option.map_some] at hhead
  exact ⟨_, List.mem_of_head? hhead, rfl⟩

/-- For every session with a user and every body: the checkout uses its order exactly when the order
is well formed and the user has no id that can be sent, so that nothing is sent at all. -/
theorem usesOrder_iff (request : Request) (env : Env) (s : Session)
    (hu : Action.noUser s = false) :
    UsesOrder request env s ↔ (itemsOf (request.get "items")).isSome = true ∧ ¬ HasId s := by
  unfold UsesOrder
  cases hitems : itemsOf (request.get "items") with
  | none =>
    simp only [Option.isSome_none, Bool.false_eq_true, false_and, iff_false]
    rintro ⟨⟨response, hanswer, hstatus⟩, -⟩
    have hinit : Action.noUser (St.initial s).session = false := hu
    have h := wp_ok (unvalidated_checkout env hinit) (Prod.ext hanswer rfl)
    omega
  | some items =>
    simp only [Option.isSome_some, true_and]
    constructor
    · rintro huses ⟨id, hid, henc⟩
      obtain ⟨x, hx, hreq⟩ := mem_trace_checkout_of_hasId request env hu hid henc
      have horder := huses x hx (by rw [hreq]; exact ⟨rfl, rfl⟩)
      rw [hreq, order_transactionRequest] at horder
      cases horder
    · intro hno x hx
      rw [trace_checkout_of_not_hasId hno] at hx
      cases hx

/-! ### Two orders -/

/-- A checkout with this body. -/
def checkoutRequest (input : List (String × Value)) : Request where
  verb := .post
  path := "customer/checkout"
  authorization := none
  input := input

/-- The order of the documentation. -/
def sampleOrder : List (CheckoutItem Value) :=
  [{ productId := .int 1, quantity := .int 2, price := .int 100000, name := .str "Test Product" }]

/-- The session of a user with this id. -/
def sessionWithId (id : Value) : Session :=
  .ofUser (.arr [("id", id), ("email", .str "c@artha.test"), ("name", .str "C"),
    ("token", .str "one"), ("role", .str "customer")])

/-- The backend answers every request with an empty object. -/
def orderEnv : Env := .answering (fun _ => .arr []) (.response ⟨201, .utf8 "\x7b\x7d"⟩)

/-- A user whose id is infinite cannot be sent, and the order comes to no harm. -/
theorem usesOrder_of_infinite_id :
    UsesOrder (checkoutRequest (orderBody sampleOrder)) orderEnv
      (sessionWithId (.float 0x7FF0000000000000)) := by
  refine (usesOrder_iff _ _ _ (by decide)).mpr ⟨by decide, ?_⟩
  rintro ⟨id, hid, henc⟩
  obtain rfl := Except.ok.inj hid
  exact absurd henc (by decide)

/-- A body without items is not turned away, and the order of the dashboard is dropped. -/
theorem checkout_ignores_order :
    ¬ UsesOrder (checkoutRequest [("items", .arr [])]) orderEnv (sessionWithId (.int 1)) ∧
    ¬ UsesOrder (checkoutRequest (orderBody sampleOrder)) orderEnv (sessionWithId (.int 1)) := by
  have hsent : ∀ request, ∃ x ∈ Call.trace ⟨.checkout, request, orderEnv⟩ (sessionWithId (.int 1)),
      x.request = transactionRequest (.int 1) :=
    fun request => mem_trace_checkout_of_hasId request orderEnv (by decide) rfl (by decide)
  constructor
  · rintro ⟨-, htrace⟩
    obtain ⟨x, hx, -⟩ := hsent (checkoutRequest [("items", .arr [])])
    rw [htrace] at hx
    cases hx
  · intro h
    have hitems : itemsOf ((checkoutRequest (orderBody sampleOrder)).get "items")
        = some sampleOrder := itemsOf_orderBody (by decide) (by decide)
    unfold UsesOrder at h
    rw [hitems] at h
    obtain ⟨x, hx, hreq⟩ := hsent (checkoutRequest (orderBody sampleOrder))
    have horder := h x hx (by rw [hreq]; exact ⟨rfl, rfl⟩)
    rw [hreq, order_transactionRequest] at horder
    cases horder

end Artha.ApiController
