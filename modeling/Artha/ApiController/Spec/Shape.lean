import Artha.ApiController.Spec.Rules

/-!
# The shape of an action

Every action but `logout` is a `try` block that first decides on a request and then makes something
of the response.  `Action.built` is the request, as a function of the input, the session and the
environment: `none` where one of the checks rejects or an expression raises before the call.
`Action.accepted` and `Action.refused` are what an action does with a response that is successful
and with one that is not.

`Asks` relates a computation to these: it gives up before any call and changes nothing, or it sends
the request and goes on.  `Action.shape` walks once along every action of the source and says that
the three functions describe it; the results about traces, answers, sessions and throwables are all
derived from it.
-/

namespace Artha.ApiController

open Php Laravel Eff

/-! ### The request -/

/-- `o`, if the validator accepts the input. -/
def whenAccepted (env : Env) (request : Request) (lines : List (Attribute × List Rule))
    (o : Option HttpRequest) : Option HttpRequest :=
  if accepts env.rules request.all lines then o else none

/-- `o`, if the session holds a user. -/
def whenUser (s : Session) (o : Option HttpRequest) : Option HttpRequest :=
  if Action.noUser s then none else o

/-- The text of a value, where it has one. -/
def textOf (env : Env) (v : Value) : Option String := (v.toText env.rules.floatToString).toOption

/-- `session('user')['token'] ?? null`. -/
def tokenOf (s : Session) : Value := (s "user").getD "token" .null

/-- `o`, if the session holds a token. -/
def whenToken (s : Session) (o : Option HttpRequest) : Option HttpRequest :=
  if Action.noToken s then none else o

/-- `'Bearer ' . $token` for the token of the session, unless the token is an array. -/
def authorizationOf (env : Env) (s : Session) : Option Value :=
  (textOf env (tokenOf s)).map fun t => .str ("Bearer " ++ t)

/-- The request a token is put into. -/
def withBearer (env : Env) (s : Session) (f : Value → HttpRequest) : Option HttpRequest :=
  whenToken s ((authorizationOf env s).map f)

theorem eq_some_of_whenAccepted {env : Env} {request : Request}
    {lines : List (Attribute × List Rule)} {o : Option HttpRequest} {q : HttpRequest}
    (h : whenAccepted env request lines o = some q) : o = some q := by
  unfold whenAccepted at h
  split at h
  · exact h
  · cases h

theorem eq_some_of_whenUser {s : Session} {o : Option HttpRequest} {q : HttpRequest}
    (h : whenUser s o = some q) : o = some q := by
  unfold whenUser at h
  split at h
  · cases h
  · exact h

namespace Action

/-- The request an action builds, before the client encodes it. -/
def built (env : Env) (request : Request) (s : Session) : Action → Option HttpRequest
  | .signup => whenAccepted env request signupRules (some (signupRequest request))
  | .login => whenAccepted env request loginRules (some (loginRequest request))
  | .midtransWebhook =>
    if !(request.get "order_id").truthy || !(request.get "transaction_status").truthy then none
    else some (webhookRequest request)
  | .createAccount =>
    whenAccepted env request createAccountRules <| whenToken s <|
      ((request.get "role").toStringParam env.rules.floatToString).toOption.bind fun role =>
        (authorizationOf env s).map (createAccountRequest request role)
  | .insertProductAndStock =>
    whenAccepted env request insertProductAndStockRules
      (some (insertProductAndStockRequest request))
  | .updateProductStock =>
    whenAccepted env request updateProductStockRules
      ((textOf env (request.get "product_id")).map (updateProductStockRequest request))
  | .insertRawMaterial =>
    whenAccepted env request insertRawMaterialRules (some (insertRawMaterialRequest request))
  | .getProducts => some (bareRequest .get (api ++ "/products"))
  | .getUsers => withBearer env s getUsersRequest
  | .deleteUser =>
    if !(request.get "user_id").truthy then none
    else withBearer env s (deleteUserRequest (request.get "user_id"))
  | .logout => none
  | .getStock => some (bareRequest .get (api ++ "/stock"))
  | .proxyToGo => if request.verb = .options then none else some (proxyRequest request)
  | .getRawMaterials => some (bareRequest .get (api ++ "/raw-materials"))
  | .deleteRawMaterial =>
    whenAccepted env request idRules
      ((textOf env (request.get "id")).map (deleteByIdRequest "/raw-materials/"))
  | .deleteStock =>
    whenAccepted env request idRules
      ((textOf env (request.get "id")).map (deleteByIdRequest "/stock/"))
  | .addToCart =>
    whenAccepted env request addToCartRules <|
      whenUser s (withBearer env s (addToCartRequest request))
  | .getUserCart => whenUser s (withBearer env s getUserCartRequest)
  | .deleteCartItems =>
    whenAccepted env request deleteCartItemsRules <|
      whenUser s (withBearer env s (deleteCartItemsRequest request))
  | .viewTransactionSummary =>
    whenUser s <| ((s "user").read "id").toOption.bind fun id =>
      (textOf env id).map summaryRequest
  | .viewTransactionDetailByID =>
    whenAccepted env request viewTransactionDetailByIDRules <|
      whenUser s ((textOf env (request.get "transaction_id")).map detailRequest)
  | .checkout => whenUser s (((s "user").read "id").toOption.map transactionRequest)
  | .getStocksForSales => withBearer env s (bearing (bareRequest .get (api ++ "/stocks")))
  | .getRawMaterialsForSales =>
    withBearer env s (bearing (bareRequest .get (api ++ "/rawmaterial")))

/-- The request an action sends first. -/
def outgoing (env : Env) (request : Request) (s : Session) (a : Action) : Option HttpRequest :=
  (a.built env request s).filter HttpRequest.encodable

/-! ### The response -/

/-- What the `catch` block of an action puts in front of the message. -/
def failure : Action → String
  | .signup => "Failed to register user: "
  | .login => "Failed to login: "
  | .midtransWebhook => "Failed to process webhook: "
  | .createAccount => "Failed to create account: "
  | .insertProductAndStock => "Failed to add product and stock: "
  | .updateProductStock => "Failed to update stock: "
  | .insertRawMaterial => "Failed to add raw material: "
  | .getProducts => "Failed to fetch products: "
  | .getUsers => "Failed to fetch users: "
  | .deleteUser => "Failed to delete user: "
  -- `logout` answers a failure with a redirect
  | .logout => ""
  | .getStock => "Failed to fetch stock: "
  | .proxyToGo => "Failed to proxy request: "
  | .getRawMaterials => "Failed to fetch raw materials: "
  | .deleteRawMaterial => "Failed to delete raw material: "
  | .deleteStock => "Failed to delete stock: "
  | .addToCart => "Failed to add to cart: "
  | .getUserCart => "Failed to get cart: "
  | .deleteCartItems => "Failed to delete cart items: "
  | .viewTransactionSummary => "Failed to get transaction summary: "
  | .viewTransactionDetailByID => "Failed to get transaction detail: "
  | .checkout => "Failed to checkout: "
  | .getStocksForSales => "Failed to fetch stocks: "
  | .getRawMaterialsForSales => "Failed to fetch raw materials: "

/-- What an action does with a response that is not successful. -/
def refused (r : HttpResponse) : Action → Php Response
  | .login => loginRefused r
  | .midtransWebhook => throwBody "Failed to forward webhook: " r
  | .createAccount | .deleteUser => throwBackendMessage r
  | .getUsers =>
    if r.status = 401 then do
      forgetSession "user"
      return errorJson 401 "Session expired. Please login again."
    else throw (.exception r.body)
  | _ => throw (.exception r.body)

/-- What an action does with a successful response. -/
def accepted (user : Value) (r : HttpResponse) : Action → Php Response
  | .signup => answerMessage "User registered successfully"
  | .login => loginAccepted r
  | .midtransWebhook => json (.arr [("status", .str "success")])
  | .createAccount => answerMessage "Account created successfully"
  | .insertProductAndStock => answerMessage "Product and stock added successfully"
  | .updateProductStock => answerMessage "Stock updated successfully"
  | .insertRawMaterial => answerMessage "Raw material added successfully"
  | .deleteUser => answerMessage "User deleted successfully"
  | .deleteRawMaterial => answerMessage "Raw material deleted successfully"
  | .deleteStock => answerMessage "Stock deleted successfully"
  | .deleteCartItems => answerMessage "Cart items deleted successfully"
  | .checkout => createPayment user r
  | .proxyToGo | .getStocksForSales | .getRawMaterialsForSales => do json (← decode r)
  -- `logout` has no response to look at
  | .logout | .getProducts | .getUsers | .getStock | .getRawMaterials | .addToCart | .getUserCart
  | .viewTransactionSummary | .viewTransactionDetailByID => answerData r

/-- What an action does with a response. -/
def reply (user : Value) (r : HttpResponse) (a : Action) : Php Response :=
  if r.successful then a.accepted user r else a.refused r

end Action

/-! ### Computations that ask for one request -/

/-- The answer is the error envelope with a 4xx or 5xx. -/
def IsError (response : Response) : Prop :=
  ∃ status message, response = errorJson status message ∧ 400 ≤ status ∧ status < 600

/-- How a computation ends that gives up before its call: it answers the error envelope, or it
raises an exception with a message of its own, or, only if `p`, an `\Error`. -/
inductive GivesUp (p : Prop) : Except Throwable Response → Prop
  | answer {status : Nat} (message : String) (h : 400 ≤ status ∧ status < 600) :
    GivesUp p (.ok (errorJson status message))
  | exception (message : String) : GivesUp p (.error (.ofMessage message))
  | error (message : String) (h : p) : GivesUp p (.error (.error message))

/-- Run from `st`, `m` gives up with nothing changed if there is no request `o`, and otherwise sends
it and goes on with `k`. -/
def Asks (env : Env) (st : St) (p : Prop) (m : Php Response) (o : Option HttpRequest)
    (k : HttpResponse → Php Response) : Prop :=
  match o with
  | none => ∃ x, m.run env st = (x, st) ∧ GivesUp p x
  | some q => m.run env st = (send q >>= k).run env st

variable {env : Env} {st : St} {p : Prop} {m : Php Response} {o : Option HttpRequest}
  {k : HttpResponse → Php Response}

theorem asks_return (status : Nat) (message : String) (h : 400 ≤ status ∧ status < 600) :
    Asks env st p (pure (errorJson status message)) none k :=
  ⟨_, rfl, .answer message h⟩

theorem asks_throw (message : String) : Asks env st p (throw (.ofMessage message)) none k :=
  ⟨_, rfl, .exception message⟩

theorem asks_send (q : HttpRequest) (k : HttpResponse → Php Response) :
    Asks env st p (send q >>= k) (some q) k := rfl

/-- What holds if it gives up and what holds if it goes on. -/
theorem Asks.elim {Q : Response → St → Prop} {E : Throwable → St → Prop} (h : Asks env st p m o k)
    (hnone : o = none → ∀ x, GivesUp p x → wp (lift x : Php Response) env Q E st)
    (hsome : ∀ q, o = some q → wp (send q >>= k) env Q E st) : wp m env Q E st := by
  unfold wp
  cases o with
  | none =>
    obtain ⟨x, hrun, hx⟩ := h
    rw [hrun]
    exact hnone rfl x hx
  | some q =>
    rw [show m.run env st = (send q >>= k).run env st from h]
    exact hsome q rfl

/-- A judgement about a computation is one about its run. -/
theorem asks_congr {m' : Php Response} (h : Asks env st p m o k)
    (hrun : m'.run env st = m.run env st) : Asks env st p m' o k := by
  unfold Asks at h ⊢
  rw [hrun]
  exact h

theorem asks_validated {request : Request} {lines : List (Attribute × List Rule)}
    (h : accepts env.rules request.all lines = true → Asks env st p m o k) :
    Asks env st p (validated request lines m) (whenAccepted env request lines o) k := by
  have hask : (Eff.ask : Php Env).run env st = (.ok env, st) := rfl
  unfold whenAccepted
  cases ha : firstError env.rules request.all lines with
  | none =>
    have hacc : accepts env.rules request.all lines = true := by simp [accepts, ha]
    rw [if_pos hacc]
    refine asks_congr (h hacc) ?_
    rw [validated, run_bind_of_ok hask, ha]
  | some message =>
    rw [if_neg (by simp [accepts, ha])]
    refine asks_congr (asks_return 422 message (by omega)) ?_
    rw [validated, run_bind_of_ok hask, ha]

theorem asks_ite {c : Prop} [Decidable c] {n : Php Response} {o' : Option HttpRequest}
    (hm : Asks env st p m o k) (hn : Asks env st p n o' k) :
    Asks env st p (if c then m else n) (if c then o else o') k := by
  split
  · exact hm
  · exact hn

theorem asks_withUser {f : Value → Php Response} (h : Asks env st p (f (st.session "user")) o k) :
    Asks env st p (withUser f) (whenUser st.session o) k :=
  asks_ite (asks_return _ _ (by omega)) h

theorem asks_withTokenOf {message : String} {f : Value → Php Response}
    (h : Asks env st p (f (tokenOf st.session)) o k) :
    Asks env st p (withTokenOf (st.session "user") message f) (whenToken st.session o) k :=
  asks_ite (asks_return _ _ (by omega)) h

theorem asks_withToken {message : String} {f : Value → Php Response}
    (h : Asks env st p (f (tokenOf st.session)) o k) :
    Asks env st p (withToken message f) (whenToken st.session o) k :=
  asks_withTokenOf h

/-- A step that reads or converts a value: it leaves the state alone and may raise. -/
theorem asks_bind {α : Type} {n : Php α} {x : Except Throwable α} (hn : n.run env st = (x, st))
    (hraise : ∀ e, x = .error e → GivesUp p (.error e)) {f : α → Option HttpRequest}
    {g : α → Php Response} (h : ∀ a, x = .ok a → Asks env st p (g a) (f a) k) :
    Asks env st p (n >>= g) (x.toOption.bind f) k := by
  cases x with
  | ok a => exact asks_congr (h a rfl) (run_bind_of_ok hn)
  | error e =>
    refine ⟨.error e, ?_, hraise e rfl⟩
    simp only [Eff.run, bind] at hn ⊢
    rw [hn]

/-- A step that cannot raise. -/
theorem asks_bind_ok {α : Type} {n : Php α} {a : α} (hn : n.run env st = (.ok a, st))
    {g : α → Php Response} (h : Asks env st p (g a) o k) : Asks env st p (n >>= g) o k :=
  asks_congr h (run_bind_of_ok hn)

/-- The only text that cannot be made is that of an array. -/
theorem givesUp_of_toText {fmt : UInt64 → String} {v : Value} {e : Throwable}
    (h : v.toText fmt = .error e) : GivesUp p (.error e) := by
  cases v with
  | arr es =>
    obtain rfl := Except.error.inj h
    exact .exception _
  | null | bool b | int n | float bits | str s => cases h

/-- A key that cannot be read raises an exception, unless it is one of a string. -/
theorem givesUp_of_read {v : Value} {key : String} {e : Throwable} (h : v.read key = .error e)
    (hp : (∃ t, v = .str t) → p) : GivesUp p (.error e) := by
  cases v with
  | str t =>
    obtain rfl := Except.error.inj h
    exact .error _ (hp ⟨t, rfl⟩)
  | arr es =>
    unfold Value.read at h
    split at h
    · next hes =>
      obtain rfl := Value.arr.inj hes
      split at h
      · cases h
      · obtain rfl := Except.error.inj h
        exact .exception _
    · next hes => cases hes
    · next hes _ => exact absurd rfl (hes es)
  | null | bool b | int n | float bits =>
    obtain rfl := Except.error.inj h
    exact .exception _

theorem asks_text {v : Value} {f : String → HttpRequest} {g : String → Php Response}
    (h : ∀ s, Asks env st p (g s) (some (f s)) k) :
    Asks env st p (text v >>= g) ((textOf env v).map f) k := by
  rw [Option.map_eq_bind]
  exact asks_bind rfl (fun _ he => givesUp_of_toText he) fun s _ => h s

theorem asks_readKey {v : Value} {key : String} (hp : (∃ t, v = .str t) → p)
    {f : Value → Option HttpRequest} {g : Value → Php Response}
    (h : ∀ x, Asks env st p (g x) (f x) k) :
    Asks env st p (readKey v key >>= g) ((v.read key).toOption.bind f) k :=
  asks_bind rfl (fun _ he => givesUp_of_read he hp) fun x _ => h x

/-- The token of the session becomes the `Authorization` header. -/
theorem asks_bearer {f : Value → HttpRequest} {g : Value → Php Response}
    (h : ∀ a, Asks env st p (g a) (some (f a)) k) :
    Asks env st p (bearer (tokenOf st.session) >>= g)
      ((authorizationOf env st.session).map f) k := by
  have hbearer : (bearer (tokenOf st.session) >>= g).run env st
      = (text (tokenOf st.session) >>= fun t => g (.str ("Bearer " ++ t))).run env st := by
    simp only [bearer, Eff.run, bind]
    rcases text (tokenOf st.session) env st with ⟨e | t, st'⟩ <;> rfl
  refine asks_congr ?_ hbearer
  rw [authorizationOf, Option.map_map]
  exact asks_text fun t => h _

/-! ### The actions -/

/-- A call whose response is thrown if it is not successful. -/
theorem asks_forward {q : HttpRequest} {f : HttpResponse → Php Response}
    (h : ∀ r, k r = if r.successful then f r else throw (.exception r.body)) :
    Asks env st p (forward q f) (some q) k := by
  have hk : k = fun r => ensure r (f r) := by
    funext r
    rw [h, ensure]
  rw [hk]
  exact asks_send _ _

/-- A call whose response is tested for not being successful. -/
theorem asks_send_ite {q : HttpRequest} {refused accepted : HttpResponse → Php Response}
    (h : ∀ r, k r = if r.successful then accepted r else refused r) :
    Asks env st p (send q >>= fun r => if (!r.successful) = true then refused r else accepted r)
      (some q) k := by
  have hk : k = fun r => if (!r.successful) = true then refused r else accepted r := by
    funext r
    rw [h]
    cases r.successful <;> rfl
  rw [hk]
  exact asks_send _ _

/-- The cart actions, behind their validators: the token of the user, then one call. -/
theorem asks_cart {message : String} {q : Value → HttpRequest} {f : HttpResponse → Php Response}
    (h : ∀ r, k r = if r.successful then f r else throw (.exception r.body)) :
    Asks env st p
      (withUser fun user => withTokenOf user message fun token => do
        forward (q (← bearer token)) f)
      (whenUser st.session (withBearer env st.session q)) k := by
  apply asks_withUser
  apply asks_withTokenOf
  apply asks_bearer
  intro authorization
  exact asks_forward h

/-- A request with the text of a value in it, as `submit` takes it. -/
theorem asks_submit_text {v : Value} {f : String → HttpRequest} {g : HttpRequest → Php Response}
    (h : ∀ q, Asks env st p (g q) (some q) k) :
    Asks env st p ((text v >>= fun t => pure (f t)) >>= g) ((textOf env v).map f) k := by
  have hassoc : ((text v >>= fun t => pure (f t)) >>= g).run env st
      = (text v >>= fun t => g (f t)).run env st := by
    simp only [Eff.run, bind]
    rcases text v env st with ⟨e | t, st'⟩ <;> rfl
  exact asks_congr (asks_text fun t => h (f t)) hassoc

/-- Every action but `logout` is a `try` block that asks for `built` and goes on with `reply`. -/
theorem Action.shape {a : Action} (ha : a ≠ .logout) (request : Request) (env : Env) (st : St) :
    ∃ body, a.run request = attempt a.failure body ∧
      Asks env st (∃ t, st.session "user" = .str t) body (a.built env request st.session)
        fun r => a.reply (st.session "user") r := by
  cases a with
  | signup =>
    exact ⟨_, rfl, asks_validated fun _ => asks_forward fun _ => rfl⟩
  | login =>
    exact ⟨_, rfl, asks_validated fun _ => asks_send_ite fun _ => rfl⟩
  | midtransWebhook =>
    refine ⟨_, rfl, asks_ite (asks_throw _) ?_⟩
    exact asks_send_ite fun _ => rfl
  | createAccount =>
    refine ⟨_, rfl, asks_validated fun hacc => ?_⟩
    apply asks_withToken
    -- an accepted role is a string, so it can be passed on as one
    obtain ⟨role, hrole⟩ : ∃ role, request.get "role" = .str role :=
      eq_str_of_accepts hacc
        [.required, .string, .oneOf ["Admin", "Manager", "Sales", "admin", "manager", "sales"]]
        (by simp [createAccountRules]) (by simp)
    refine asks_bind rfl (fun e he => ?_) fun role _ => ?_
    · rw [hrole] at he
      cases he
    · apply asks_bearer
      intro authorization
      exact asks_send_ite fun _ => rfl
  | insertProductAndStock | insertRawMaterial =>
    exact ⟨_, rfl, asks_validated fun _ => asks_forward fun _ => rfl⟩
  | updateProductStock | deleteRawMaterial | deleteStock =>
    refine ⟨_, rfl, asks_validated fun _ => ?_⟩
    apply asks_submit_text
    intro q
    exact asks_forward fun _ => rfl
  | getProducts | getStock | getRawMaterials =>
    exact ⟨_, rfl, asks_forward fun _ => rfl⟩
  | getUsers =>
    refine ⟨_, rfl, ?_⟩
    apply asks_withToken
    apply asks_bearer
    intro authorization
    -- a 401 is not a 2xx, so it does not matter which is tested first
    have hreply : (fun r => Action.getUsers.reply (st.session "user") r)
        = fun r => if r.status = 401 then (do
            forgetSession "user"
            return errorJson 401 "Session expired. Please login again.")
          else ensure r (answerData r) := by
      funext r
      by_cases h401 : r.status = 401
      · simp [Action.reply, HttpResponse.successful, Action.refused, h401]
      · simp [Action.reply, Action.accepted, Action.refused, ensure, h401]
    rw [hreply]
    exact asks_send _ _
  | deleteUser =>
    refine ⟨_, rfl, asks_ite (asks_return _ _ (by omega)) ?_⟩
    apply asks_withToken
    apply asks_bearer
    intro authorization
    exact asks_send_ite fun _ => rfl
  | logout => exact absurd rfl ha
  | proxyToGo =>
    refine ⟨_, rfl, asks_ite (asks_throw _) ?_⟩
    exact asks_forward fun _ => rfl
  | addToCart | deleteCartItems =>
    exact ⟨_, rfl, asks_validated fun _ => asks_cart fun _ => rfl⟩
  | getUserCart => exact ⟨_, rfl, asks_cart fun _ => rfl⟩
  | viewTransactionSummary =>
    refine ⟨_, rfl, asks_withUser ?_⟩
    apply asks_readKey id
    intro userId
    apply asks_text
    intro t
    exact asks_forward fun _ => rfl
  | viewTransactionDetailByID =>
    refine ⟨_, rfl, asks_validated fun _ => asks_withUser ?_⟩
    apply asks_text
    intro transactionId
    exact asks_forward fun _ => rfl
  | checkout =>
    refine ⟨_, rfl, asks_withUser ?_⟩
    rw [Option.map_eq_bind]
    apply asks_readKey id
    intro userId
    exact asks_forward fun _ => rfl
  | getStocksForSales | getRawMaterialsForSales =>
    refine ⟨_, rfl, asks_withToken ?_⟩
    apply asks_bearer
    intro authorization
    exact asks_forward fun _ => rfl

/-! ### The payment of `checkout` -/

/-- The payment request `checkout` builds behind a successful `POST /transactions`.
`config/midtrans.php` has no `base_url`, so its URL is the bare path. -/
def paymentBuilt (env : Env) (user : Value) (response : HttpResponse) : Option HttpRequest :=
  ((env.json response).read "id").toOption.bind fun orderId =>
    ((env.json response).read "total_amount").toOption.bind fun grossAmount =>
      (user.read "name").toOption.bind fun name =>
        (user.read "email").toOption.bind fun email =>
          some (paymentRequest env.midtrans.serverKey "" orderId grossAmount name email)

/-- What `createPayment` does with the response of Midtrans. -/
def paymentReply (transaction : Value) (m : HttpResponse) : Php Response :=
  if m.successful then do
    json (successData (.arr [("transaction", transaction), ("payment", ← decode m)]))
  else throwBody "Failed to create payment: " m

/-- The second half of a checkout has the shape of an action, with a request of its own. -/
theorem asks_createPayment (user : Value) (r : HttpResponse) :
    Asks env st ((∃ t, env.json r = .str t) ∨ ∃ t, user = .str t) (createPayment user r)
      (paymentBuilt env user r) fun m => paymentReply (env.json r) m := by
  apply asks_bind_ok (a := env.json r) rfl
  -- the configuration: neither lookup can raise, and neither can the conversions
  refine asks_bind_ok rfl (asks_bind_ok rfl ?_)
  refine asks_bind_ok rfl (asks_bind_ok rfl ?_)
  -- the four fields of the payment
  refine asks_readKey .inl fun orderId => asks_readKey .inl fun grossAmount => ?_
  refine asks_readKey .inr fun name => asks_readKey .inr fun email => ?_
  exact asks_send_ite fun _ => rfl

/-- What a `catch` block answers is the error envelope. -/
theorem triple_caught {Q : Response → St → Prop} (h : ∀ message st, Q (errorJson 500 message) st)
    (failure : String) (e : Throwable) : Triple (fun _ => True) (caught failure e) Q := by
  rcases e with (message | ⟨b, hb⟩) | message
  · exact triple_pure fun st _ => h _ st
  · exact triple_throw _
  · exact triple_throw _

/-- What the second half of a checkout answers is the transaction and the payment. -/
theorem triple_createPayment {Q : Response → St → Prop}
    (h : ∀ data st, Q (.json 200 (successData data)) st) (user : Value) (r : HttpResponse) :
    Triple (fun _ => True) (createPayment user r) Q := by
  -- the configuration, the four fields and the call
  refine triple_bind_any fun transaction => triple_bind_any fun _ => triple_bind_any fun _ => ?_
  refine triple_bind_any fun _ => triple_bind_any fun _ => triple_bind_any fun _ => ?_
  refine triple_bind_any fun _ => triple_bind_any fun _ => triple_bind_any fun _ => ?_
  refine triple_bind_any fun m => triple_ite (fun _ => ?_) fun _ => triple_bind_any fun _ => ?_
  · unfold throwBody
    split <;> exact triple_throw _
  · exact triple_ite (fun _ => triple_pure fun st _ => h _ st) fun _ => triple_throw _

/-! ### What the replies leave alone -/

theorem frame_ensure {γ : Type} {f : St → γ} {r : HttpResponse} {k : Php Response}
    (h : Frame f k) : Frame f (ensure r k) := frame_ite h (frame_throw _)

theorem frame_loginRefused {γ : Type} {f : St → γ} (r : HttpResponse) :
    Frame f (loginRefused r) :=
  frame_ite (frame_pure _) (frame_ite (frame_pure _) (frame_throw _))

/-- Only `getUsers` does something with a response that is not successful. -/
theorem Action.frame_refused {γ : Type} {f : St → γ} {a : Action} (ha : a ≠ .getUsers)
    (r : HttpResponse) : Frame f (a.refused r) := by
  cases a with
  | getUsers => exact absurd rfl ha
  | login => exact frame_loginRefused r
  | midtransWebhook => exact frame_throwBody _ r
  | createAccount | deleteUser => exact frame_throwBackendMessage r
  | _ => exact frame_throw _

/-- Only `login` and `checkout` do something with a successful one. -/
theorem Action.frame_accepted {γ : Type} {f : St → γ} {a : Action} (hlogin : a ≠ .login)
    (hcheckout : a ≠ .checkout) (user : Value) (r : HttpResponse) :
    Frame f (a.accepted user r) := by
  cases a with
  | login => exact absurd rfl hlogin
  | checkout => exact absurd rfl hcheckout
  | signup | midtransWebhook | createAccount | insertProductAndStock | updateProductStock
  | insertRawMaterial | deleteUser | deleteRawMaterial | deleteStock | deleteCartItems =>
    exact frame_json _
  | proxyToGo | getStocksForSales | getRawMaterialsForSales =>
    exact frame_bind (frame_decode r) fun _ => frame_json _
  | _ => exact frame_answerData r

theorem frame_paymentReply {γ : Type} {f : St → γ} (transaction : Value) (m : HttpResponse) :
    Frame f (paymentReply transaction m) :=
  frame_ite (frame_bind (frame_decode m) fun _ => frame_json _) (frame_throwBody _ m)

end Artha.ApiController
