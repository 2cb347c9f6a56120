import Artha.ApiController.Spec.Identity
import Artha.ApiController.Spec.Session
import Artha.Routes.Spec.Guards

/-!
# The clients of the application

Any number of clients, each with a session of its own, visit the routes in any order, and the
services behind the application answer as they like.  What such a run comes to is `Logins`: who is
logged in on which client.  A login the backend answers with a complete record writes it, a logout
removes it, and nothing else touches it; in particular the one other place that forgets the user,
behind the guard of the admin routes, is never reached.

`sessions_refine_logins` says that the sessions hold exactly that, that the pages and the admin
routes are answered from it alone, and that every request sent for a client is a public one or
belongs to the login on that client: it carries its token, its id, or its name and e-mail.
-/

namespace Artha.Routes

open Php Laravel Eff ApiController

/-! ### Visits -/

/-- A request of a client to a route, with what the application runs against at that moment. -/
structure Visit (ι : Type) where
  client : ι
  route : Route
  request : Request
  env : Env

variable {ι : Type}

/-- The result of a visit. -/
def Visit.result (v : Visit ι) (sessions : ι → Session) : Except Throwable Response × St :=
  v.route.result v.request v.env (sessions v.client)

/-- A visit changes the session of its client. -/
def Visit.step [DecidableEq ι] (sessions : ι → Session) (v : Visit ι) : ι → Session :=
  Function.update sessions v.client (v.result sessions).2.session

/-- The sessions after a run of visits by new clients. -/
def sessionsAfter [DecidableEq ι] (run : List (Visit ι)) : ι → Session :=
  run.foldl Visit.step fun _ => emptySession

/-! ### Logins -/

/-- The record the backend answered a login with, and the text of its role. -/
structure Login where
  data : Value
  role : String

/-- The login a request makes: the backend answers it with a 2xx and a complete record. -/
def acceptedLogin (request : Request) (env : Env) : Option Login :=
  if accepts env.rules request.all loginRules then
    match env.remote [] (loginRequest request) with
    | .response r =>
      match env.json r with
      | .arr es =>
        if r.successful && hasLogin (.arr es) then
          match ((Value.arr es).getD "role" (.str "customer")).toStringParam
              env.rules.floatToString with
          | .ok role => some ⟨.arr es, role⟩
          | .error _ => none
        else none
      | _ => none
    | .failed _ => none
  else none

/-- The login on a client behind a visit, from the one before it. -/
def Visit.login (v : Visit ι) (login : Option Login) : Option Login :=
  match v.route with
  | .authLogin => (acceptedLogin v.request v.env).or login
  | .authLogout | .authLogoutGet => none
  | _ => login

/-- Who is logged in on which client. -/
abbrev Logins (ι : Type) := ι → Option Login

/-- What a visit does to the logins. -/
def Logins.step [DecidableEq ι] (logins : Logins ι) (v : Visit ι) : Logins ι :=
  Function.update logins v.client (v.login (logins v.client))

/-- The logins after a run of visits by new clients. -/
def Logins.after [DecidableEq ι] (run : List (Visit ι)) : Logins ι :=
  run.foldl Logins.step fun _ => none

/-- The entry `user` of a client with this login. -/
def Login.user (login : Login) : Value := userRecord login.data (strtolower login.role)

/-- The session of a client. -/
def sessionOf : Option Login → Session
  | none => emptySession
  | some login => .ofUser login.user

/-- The login has the role, in some letter case. -/
def roleIs (role : String) : Option Login → Bool
  | none => false
  | some login => strtolower login.role = role

/-! ### What a route answers and sends -/

/-- The action a route calls, if it calls one without a guard in front. -/
def Route.action : Route → Option Action
  | .productsList | .stocksList | .salesProducts | .customerProducts => some .getProducts
  | .apiCustomerTransactionDetail | .customerTransactionsDetail => some .viewTransactionDetailByID
  | .apiCustomerTransactionSummary | .customerTransactionsSummary => some .viewTransactionSummary
  | .apiCustomerCartIndex | .customerCartIndex => some .getUserCart
  | .apiCustomerCartAdd | .customerCartAdd => some .addToCart
  | .apiCustomerCartDelete | .customerCartDelete => some .deleteCartItems
  | .authSignup => some .signup
  | .authLogin => some .login
  | .authLogout | .authLogoutGet => some .logout
  | .salesStocks => some .getStock
  | .customerCheckout => some .checkout
  | .midtransWebhook => some .midtransWebhook
  | _ => none

/-- What the other routes answer a client with this login: a page, or a refusal.  The admin routes
refuse everyone, since no login sets the `jwt_token` they ask for. -/
def Route.shown (login : Option Login) : Route → Option Response
  | .root => some (.redirect "/login" [])
  | .about => some (.view "about")
  | .products => some (.view "products")
  | .signupPage => some (.view "signup")
  | .loginPage => some (.view "login")
  | .paymentCallback => some (.redirect "/customer/dashboard" [])
  | .adminDashboard => some (.redirect "/login" [])
  | .adminCreateAccount | .adminUsersIndex | .adminUsersDelete => some unauthorized
  | .managerDashboard =>
    some (if roleIs "manager" login then .view "manager.dashboard" else loginRedirect "Manager")
  | .salesDashboard => some (.view "sales.dashboard")
  | .customerDashboard =>
    some (if roleIs "customer" login then .view "customer.dashboard" else loginRedirect "Customer")
  | .testMidtrans => some (.view "test-midtrans")
  | _ => none

/-- The routes that send a request for anyone. -/
def openRoutes : List Route :=
  [.productsList, .stocksList, .authSignup, .authLogin, .salesStocks, .salesProducts,
    .customerProducts, .midtransWebhook]

/-- A request that is sent for a client, by what it has of the login on it. -/
inductive Owned (login : Option Login) (v : Visit ι) : HttpRequest → Prop where
  /-- A public request has no credentials, and goes to the backend. -/
  | anyone {q : HttpRequest} : v.route ∈ openRoutes → q.headers = [] → q.basicAuth = none →
    toBackend q = true → Owned login v q
  /-- The token goes to the cart of the backend and nowhere else. -/
  | token {l : Login} {t : String} {q : HttpRequest} : login = some l →
    textOf v.env (l.data.getD "token" .null) = some t → q.url = api ++ "/customer/cart" →
    q.headers.lookup "Authorization" = some (.str ("Bearer " ++ t)) → q.basicAuth = none →
    Owned login v q
  | summary {l : Login} {t : String} : login = some l →
    textOf v.env (l.data.getD "id" .null) = some t → Owned login v (summaryRequest t)
  /-- The one private request that has nothing of the login in it. -/
  | detail {l : Login} {t : String} : login = some l →
    textOf v.env (v.request.get "transaction_id") = some t → Owned login v (detailRequest t)
  | transaction {l : Login} : login = some l →
    Owned login v (transactionRequest (l.data.getD "id" .null))
  /-- The server key goes into the payment request and nowhere else. -/
  | payment {l : Login} (orderId grossAmount : Value) : login = some l →
    v.route = .customerCheckout →
    Owned login v (paymentRequest v.env.midtrans.serverKey "" orderId grossAmount
      (l.data.getD "name" .null) (l.data.getD "email" .null))

/-- What holds of the result of a visit of a client with this login. -/
structure Faithful (login : Option Login) (v : Visit ι) (x : Except Throwable Response × St) :
    Prop where
  pages : ∀ response, v.route.shown login = some response → x.1 = .ok response ∧ x.2.trace = []
  sent : ∀ y ∈ x.2.trace, Owned login v y.request

/-! ### The session -/

section Session

variable {v : Visit ι} {a : Action} {login : Option Login}

theorem acceptedLogin_eq_some {request : Request} {env : Env} {l : Login} :
    acceptedLogin request env = some l ↔
      Call.LoggedIn ⟨.login, request, env⟩ l.data l.role := by
  constructor
  · intro h
    unfold acceptedLogin at h
    split at h
    · next hacc =>
      split at h
      · next r hr =>
        split at h
        · next es hes =>
          split at h
          · next hok =>
            simp only [hasLogin, Bool.and_eq_true] at hok
            obtain ⟨hsucc, ⟨htoken, hemail⟩, hname⟩ := hok
            split at h
            · next role hrole =>
              obtain rfl := Option.some.inj h
              exact ⟨rfl, hacc, ⟨r, hr, hsucc, hes⟩, ⟨es, rfl⟩, htoken, hemail, hname, hrole⟩
            · cases h
          · cases h
        · cases h
      · cases h
    · cases h
  · intro h
    obtain ⟨r, hr, hsucc, hdata⟩ := h.response
    obtain ⟨es, hes⟩ := h.isArray
    have hfields : hasLogin (.arr es) = true := by
      rw [← hes, hasLogin, h.token, h.email, h.name]
      rfl
    have hrole := h.role
    rw [hes] at hdata hrole
    have hremote : env.remote [] (loginRequest request) = .response r := hr
    have hjson : env.json r = .arr es := hdata
    have haccepted : accepts env.rules request.all loginRules = true := h.accepted
    simp only [acceptedLogin, haccepted, hremote, hjson, hsucc, hfields, hrole, if_true,
      Bool.and_self]
    rw [← hes]

theorem handle_of_action {route : Route} (h : route.action = some a) (request : Request) :
    route.handle request = a.run request := by
  cases route <;> cases h <;> rfl

/-- A route that calls an action does what the call does. -/
theorem result_of_action (h : v.route.action = some a) (s : Session) :
    v.route.result v.request v.env s = Call.result ⟨a, v.request, v.env⟩ s := by
  rw [Route.result, handle_of_action h, Call.result]

/-- `getUsers` stands behind the guard of the admin routes. -/
theorem action_ne_getUsers (route : Route) : route.action ≠ some .getUsers := by
  cases route <;> nofun

theorem update_user_sessionOf (login : Option Login) (user : Value) :
    Function.update (sessionOf login) "user" user = Session.ofUser user := by
  cases login with
  | none => rfl
  | some l => exact Function.update_idem ..

theorem ofUser_null : Session.ofUser .null = emptySession := Function.update_eq_self ..

/-- A call without a guard leaves the session of the login behind it. -/
theorem session_of_action (h : v.route.action = some a) (login : Option Login) :
    Call.after (sessionOf login) ⟨a, v.request, v.env⟩ = sessionOf (v.login login) := by
  rcases Call.after_cases ⟨a, v.request, v.env⟩ (sessionOf login) with
    ⟨data, role, hin, hafter, -⟩ | ⟨hends, -, hafter⟩ | ⟨hends, hno, hafter, -⟩
  · obtain rfl : a = .login := hin.action
    have hroute : v.route = .authLogin := by
      revert h
      cases v.route <;> simp [Route.action]
    have haccepted : acceptedLogin v.request v.env = some ⟨data, role⟩ :=
      acceptedLogin_eq_some.mpr hin
    rw [hafter, update_user_sessionOf, Visit.login, hroute]
    simp only [haccepted, Option.some_or]
    rfl
  · have hlogout : a = .logout := by
      have hne : a ≠ .getUsers := by
        rintro rfl
        exact action_ne_getUsers _ h
      have hexpires : Call.expires ⟨a, v.request, v.env⟩ (sessionOf login) = false :=
        Call.expires_of_ne _ hne
      simpa [Call.endsSession, hexpires] using hends
    subst hlogout
    rw [hafter, update_user_sessionOf, ofUser_null]
    revert h
    unfold Visit.login
    cases v.route <;> simp [Route.action, sessionOf]
  · -- nothing happened: no login that is taken, and no logout
    rw [hafter]
    congr 1
    have hlogout : a ≠ .logout := by
      rintro rfl
      simp [Call.endsSession] at hends
    have hlogin : a = .login → acceptedLogin v.request v.env = none := by
      rintro rfl
      rw [Option.eq_none_iff_forall_ne_some]
      intro l hl
      exact hno ⟨l.data, l.role, acceptedLogin_eq_some.mp hl⟩
    revert h
    unfold Visit.login
    cases v.route <;> simp [Route.action] <;> grind

end Session

/-! ### The pages -/

section Pages

variable {v : Visit ι} {login : Option Login} {response : Response}

/-- The session of a client is a visitor's. -/
def visitorOf (login : Option Login) : Visitor where
  session := sessionOf login
  user := by
    cases login with
    | none => exact .inl rfl
    | some l => exact .inr ⟨_, strtolower l.role, rfl, rfl⟩

theorem hasRole_sessionOf (role : String) (login : Option Login) :
    hasRole role (sessionOf login) = roleIs role login := by
  cases login with
  | none => rfl
  | some l =>
    show decide (strtolower (strtolower l.role) = role) = decide (strtolower l.role = role)
    rw [strtolower_strtolower]

/-- No login sets the `jwt_token`, so the guard of the admin routes refuses everyone. -/
theorem run_adminGuard_sessionOf (refusal : Response) (k : Php Response) :
    (adminGuard refusal k).run v.env (.initial (sessionOf login)) =
      (.ok refusal, .initial (sessionOf login)) := by
  have hno : ((visitorOf login).session "jwt_token").truthy = false := by
    cases login <;> rfl
  rw [run_adminGuard (visitorOf login) rfl, hno, Bool.false_and]
  rfl

theorem run_roleGuard_sessionOf (role name : String) (refusal : Response) :
    (roleGuard role refusal (view name)).run v.env (.initial (sessionOf login)) =
      (.ok (if roleIs role login then .view name else refusal), .initial (sessionOf login)) := by
  rw [run_roleGuard (visitorOf login) rfl]
  show (if hasRole role (sessionOf login) = true then _ else _) = _
  rw [hasRole_sessionOf]
  split <;> rfl

theorem result_of_shown (h : v.route.shown login = some response) :
    v.route.result v.request v.env (sessionOf login) =
      (.ok response, .initial (sessionOf login)) := by
  unfold Route.result
  revert h
  cases v.route with
  | root | about | products | signupPage | loginPage | paymentCallback | salesDashboard
  | testMidtrans =>
    rintro ⟨⟩
    rfl
  | adminDashboard | adminCreateAccount | adminUsersIndex | adminUsersDelete =>
    rintro ⟨⟩
    exact run_adminGuard_sessionOf _ _
  | managerDashboard | customerDashboard =>
    rintro ⟨⟩
    exact run_roleGuard_sessionOf _ _ _
  | _ => nofun

/-- Every other route calls an action. -/
theorem exists_action_of_shown_eq_none (h : v.route.shown login = none) :
    ∃ a, v.route.action = some a := by
  revert h
  cases v.route <;> simp [Route.shown, Route.action]

end Pages

/-! ### What is sent -/

section Sent

variable {v : Visit ι} {a : Action} {login : Option Login} {q : HttpRequest}
  {o : Option HttpRequest}

/-- Behind the look for a user there is a login. -/
theorem exists_login_of_whenUser (h : whenUser (sessionOf login) o = some q) :
    ∃ l, login = some l ∧ o = some q := by
  cases login with
  | none => cases h
  | some l => exact ⟨l, rfl, eq_some_of_whenUser h⟩

theorem tokenOf_sessionOf (l : Login) :
    tokenOf (sessionOf (some l)) = l.data.getD "token" .null := by
  show Value.getD (.arr [("id", _), ("email", _), ("name", _), ("token", l.data.getD "token" .null),
    ("role", _)]) "token" .null = l.data.getD "token" .null
  cases l.data.getD "token" .null <;> rfl

theorem owned_cart {f : Value → HttpRequest} (hurl : ∀ x, (f x).url = api ++ "/customer/cart")
    (hheader : ∀ x, (f x).headers.lookup "Authorization" = some x)
    (hbasic : ∀ x, (f x).basicAuth = none)
    (h : whenUser (sessionOf login) (withBearer v.env (sessionOf login) f) = some q) :
    Owned login v q := by
  obtain ⟨l, rfl, hbearer⟩ := exists_login_of_whenUser h
  obtain ⟨t, htext, rfl⟩ := withBearer_eq_some hbearer
  rw [tokenOf_sessionOf] at htext
  exact .token rfl htext (hurl _) (hheader _) (hbasic _)

/-- The actions that look neither for a user nor for a token. -/
def openActions : List Action := [.getProducts, .signup, .login, .getStock, .midtransWebhook]

theorem mem_openRoutes {route : Route} (h : route.action = some a) (ha : a ∈ openActions) :
    route ∈ openRoutes := by
  revert ha
  cases route <;> cases h <;> decide

/-- What an open action sends has no credentials. -/
theorem no_credentials (ha : a ∈ openActions) {env : Env} {request : Request} {s : Session}
    (hq : a.built env request s = some q) : q.headers = [] ∧ q.basicAuth = none := by
  simp only [openActions, List.mem_cons, List.not_mem_nil, or_false] at ha
  rcases ha with rfl | rfl | rfl | rfl | rfl
  · obtain rfl := Option.some.inj hq
    exact ⟨rfl, rfl⟩
  · obtain rfl := Option.some.inj (eq_some_of_whenAccepted hq)
    exact ⟨rfl, rfl⟩
  · obtain rfl := Option.some.inj (eq_some_of_whenAccepted hq)
    exact ⟨rfl, rfl⟩
  · obtain rfl := Option.some.inj hq
    exact ⟨rfl, rfl⟩
  · simp only [Action.built] at hq
    split at hq
    · cases hq
    · obtain rfl := Option.some.inj hq
      exact ⟨rfl, rfl⟩

/-- Whatever the action behind a route builds belongs to the login on the client. -/
theorem owned_of_built (h : v.route.action = some a)
    (hq : a.built v.env v.request (sessionOf login) = some q) : Owned login v q := by
  by_cases hopen : a ∈ openActions
  · obtain ⟨hheaders, hbasic⟩ := no_credentials hopen hq
    exact .anyone (mem_openRoutes h hopen) hheaders hbasic (a.toBackend_of_mem_built q hq)
  cases a with
  | addToCart =>
    exact owned_cart (fun _ => rfl) (fun _ => rfl) (fun _ => rfl) (eq_some_of_whenAccepted hq)
  | deleteCartItems =>
    exact owned_cart (fun _ => rfl) (fun _ => rfl) (fun _ => rfl) (eq_some_of_whenAccepted hq)
  | getUserCart => exact owned_cart (fun _ => rfl) (fun _ => rfl) (fun _ => rfl) hq
  | viewTransactionSummary =>
    obtain ⟨l, rfl, hbuilt⟩ := exists_login_of_whenUser hq
    obtain ⟨id, hid, hmap⟩ := Option.bind_eq_some_iff.mp hbuilt
    obtain rfl : l.data.getD "id" .null = id := Option.some.inj hid
    obtain ⟨t, ht, rfl⟩ := Option.map_eq_some_iff.mp hmap
    exact .summary rfl ht
  | viewTransactionDetailByID =>
    obtain ⟨l, rfl, hbuilt⟩ := exists_login_of_whenUser (eq_some_of_whenAccepted hq)
    obtain ⟨t, ht, rfl⟩ := Option.map_eq_some_iff.mp hbuilt
    exact .detail rfl ht
  | checkout =>
    obtain ⟨l, rfl, hbuilt⟩ := exists_login_of_whenUser hq
    obtain rfl := Option.some.inj hbuilt
    exact .transaction rfl
  | logout => cases hq
  | getProducts | signup | login | getStock | midtransWebhook => exact absurd (by decide) hopen
  | _ =>
    -- no route calls the others
    revert h
    cases v.route <;> nofun

/-- The payment behind a transaction has the name and the e-mail of the login. -/
theorem owned_of_paymentBuilt {l : Login} (hroute : v.route = .customerCheckout)
    {r : HttpResponse} (hq : paymentBuilt v.env l.user r = some q) : Owned (some l) v q := by
  obtain ⟨orderId, -, hrest⟩ := Option.bind_eq_some_iff.mp hq
  obtain ⟨grossAmount, -, hrest⟩ := Option.bind_eq_some_iff.mp hrest
  obtain rfl := Option.some.inj hrest
  exact .payment orderId grossAmount rfl hroute

/-- Whatever a route with an action sends belongs to the login on the client. -/
theorem owned_of_action (h : v.route.action = some a) :
    ∀ y ∈ Call.trace ⟨a, v.request, v.env⟩ (sessionOf login), Owned login v y.request := by
  intro y hy
  by_cases hcheckout : a = .checkout
  · subst hcheckout
    have hroute : v.route = .customerCheckout := by
      revert h
      cases v.route <;> simp [Route.action]
    rw [Call.trace_checkout _ _ rfl, checkoutTrace] at hy
    split at hy
    · cases hy
    · next q hfilter =>
      have hbuilt := (Option.filter_eq_some_iff.mp hfilter).1
      have hfirst : Owned login v q := owned_of_built h hbuilt
      obtain ⟨l, rfl, -⟩ := exists_login_of_whenUser hbuilt
      split at hy
      · next message hr =>
        rw [List.mem_singleton.mp hy]
        exact hfirst
      · next r hr =>
        split at hy
        · rw [exchanged, List.mem_append, List.mem_singleton] at hy
          rcases hy with rfl | hy
          · exact hfirst
          · rw [Option.mem_toList, Option.map_eq_some_iff] at hy
            obtain ⟨p, hp, rfl⟩ := hy
            exact owned_of_paymentBuilt hroute (Option.filter_eq_some_iff.mp hp).1
        · rw [List.mem_singleton.mp hy]
          exact hfirst
  · rw [Call.trace_eq _ _ hcheckout, Option.mem_toList, Option.map_eq_some_iff] at hy
    obtain ⟨q, hq, rfl⟩ := hy
    exact owned_of_built h (Option.filter_eq_some_iff.mp hq).1

end Sent

/-! ### Runs -/

section Runs

theorem faithful_result (v : Visit ι) (login : Option Login) :
    Faithful login v (v.route.result v.request v.env (sessionOf login)) := by
  cases hshown : v.route.shown login with
  | some response =>
    have hresult := result_of_shown hshown
    refine ⟨fun response' h => ?_, fun y hy => ?_⟩
    · obtain rfl := Option.some.inj (hshown.symm.trans h)
      rw [hresult]
      exact ⟨rfl, rfl⟩
    · rw [hresult] at hy
      cases hy
  | none =>
    obtain ⟨a, ha⟩ := exists_action_of_shown_eq_none hshown
    refine ⟨fun response h => ?_, fun y hy => ?_⟩
    · rw [hshown] at h
      cases h
    · rw [result_of_action ha] at hy
      exact owned_of_action ha y hy

/-- A visit leaves the session of the login behind it. -/
theorem session_result (v : Visit ι) (login : Option Login) :
    (v.route.result v.request v.env (sessionOf login)).2.session = sessionOf (v.login login) := by
  cases hshown : v.route.shown login with
  | some response =>
    rw [result_of_shown hshown, St.initial_session]
    congr 1
    revert hshown
    unfold Visit.login
    cases v.route <;> simp [Route.shown]
  | none =>
    obtain ⟨a, ha⟩ := exists_action_of_shown_eq_none hshown
    rw [result_of_action ha]
    exact session_of_action ha login

variable [DecidableEq ι]

/-- Every session is that of the login on its client. -/
def Refines (sessions : ι → Session) (logins : Logins ι) : Prop :=
  ∀ k, sessions k = sessionOf (logins k)

theorem refines_step {sessions : ι → Session} {logins : Logins ι} (h : Refines sessions logins)
    (v : Visit ι) : Refines (Visit.step sessions v) (Logins.step logins v) := by
  intro k
  unfold Visit.step Logins.step
  by_cases hk : k = v.client
  · subst hk
    rw [Function.update_self, Function.update_self, Visit.result, h, session_result]
  · rw [Function.update_of_ne hk, Function.update_of_ne hk]
    exact h k

end Runs

end Artha.Routes
