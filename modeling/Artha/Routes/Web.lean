import Artha.ApiController.Action
import Artha.Routes.Middleware

/-!
# The routes of `routes/web.php`

Every route with its verb, its path and its handler: a page, an action of the controller, or a
closure with a guard of its own in front of one.  None of the routes names a middleware.

The group of protected routes is opened with `Route::prefix(['auth.check'])`, which names neither a
middleware nor a path; the routes in it are listed under their own group's path.  `/products` is
registered twice, and the second registration is the one that counts.
-/

namespace Artha.Routes

open Php Laravel ApiController

/-- The routes, by the names the file gives them or by their paths. -/
inductive Route where
  | root | about | products | signupPage | loginPage | productsList | stocksList
  | apiCustomerTransactionDetail | apiCustomerTransactionSummary | apiCustomerCartIndex
  | apiCustomerCartAdd | apiCustomerCartDelete | paymentCallback | authSignup | authLogin
  | authLogout | authLogoutGet | adminDashboard | adminCreateAccount | adminUsersIndex
  | adminUsersDelete | managerDashboard | salesDashboard | salesStocks | salesProducts
  | customerDashboard | customerProducts | customerTransactionsSummary
  | customerTransactionsDetail | customerCheckout | customerCartAdd | customerCartIndex
  | customerCartDelete | testMidtrans | midtransWebhook
deriving DecidableEq, Repr

namespace Route

def verb : Route → Verb
  | .apiCustomerCartAdd | .authSignup | .authLogin | .authLogout | .adminCreateAccount
  | .customerCheckout | .customerCartAdd | .midtransWebhook => .post
  | .apiCustomerCartDelete | .adminUsersDelete | .customerCartDelete => .delete
  | _ => .get

/-- The segments of a route's path. -/
def path : Route → List String
  | .root => []
  | .about => ["about"]
  | .products => ["products"]
  | .signupPage | .authSignup => ["signup"]
  | .loginPage | .authLogin => ["login"]
  | .productsList => ["api", "products"]
  | .stocksList => ["api", "stocks"]
  | .apiCustomerTransactionDetail => ["api", "customer", "transactions", "detail"]
  | .apiCustomerTransactionSummary => ["api", "customer", "transactions", "summary"]
  | .apiCustomerCartIndex | .apiCustomerCartAdd | .apiCustomerCartDelete =>
    ["api", "customer", "cart"]
  | .paymentCallback => ["payment", "callback"]
  | .authLogout | .authLogoutGet => ["logout"]
  | .adminDashboard => ["admin", "dashboard"]
  | .adminCreateAccount => ["admin", "create-account"]
  | .adminUsersIndex => ["admin", "users"]
  | .adminUsersDelete => ["admin", "users", "\x7bid\x7d"]
  | .managerDashboard => ["manager", "dashboard"]
  | .salesDashboard => ["sales", "dashboard"]
  | .salesStocks => ["sales", "stocks"]
  | .salesProducts => ["sales", "products"]
  | .customerDashboard => ["customer", "dashboard"]
  | .customerProducts => ["customer", "products"]
  | .customerTransactionsSummary => ["customer", "transactions", "summary"]
  | .customerTransactionsDetail => ["customer", "transactions", "detail"]
  | .customerCheckout => ["customer", "checkout"]
  | .customerCartAdd | .customerCartIndex | .customerCartDelete => ["customer", "cart"]
  | .testMidtrans => ["test-midtrans"]
  | .midtransWebhook => ["midtrans", "webhook"]

/-- The path as it stands in a URL. -/
def url (route : Route) : String :=
  match route.path with
  | [] => "/"
  | segments => String.join (segments.map fun segment => "/" ++ segment)

end Route

/-! ### The closures' guards -/

/-- `response()->json(['message' => 'Unauthorized'], 401)`. -/
def unauthorized : Response := .json 401 (.arr [("message", .str "Unauthorized")])

/-- `if (!session('user') || strtolower(session('user')['role']) !== $role) return $refusal;`. -/
def roleGuard (role : String) (refusal : Response) (k : Php Response) : Php Response := do
  if ← lacksRole role then
    return refusal
  else k

/-- The guard of the admin closures, which also asks for `session('jwt_token')`. -/
def adminGuard (refusal : Response) (k : Php Response) : Php Response := do
  if !(← session "jwt_token").truthy then
    return refusal
  roleGuard "admin" refusal k

/-- `app(ApiController::class)->deleteUser($id)`: the method takes a `Request`, not a string. -/
def deleteUserById : Php Response :=
  throw (.error ("App\\Http\\Controllers\\ApiController::deleteUser(): Argument #1 ($request) " ++
    "must be of type Illuminate\\Http\\Request, string given"))

/-- The page a route renders. -/
def view (name : String) : Php Response := return .view name

/-! ### The handlers -/

/-- The handler of a route. -/
def Route.handle (request : Request) : Route → Php Response
  -- public pages and listings
  | .root => return .redirect "/login" []
  | .about => view "about"
  | .products => view "products"
  | .signupPage => view "signup"
  | .loginPage => view "login"
  | .productsList | .stocksList => getProducts
  -- `api/customer`: the same actions as under `customer`, also without a guard
  | .apiCustomerTransactionDetail => viewTransactionDetailByID request
  | .apiCustomerTransactionSummary => viewTransactionSummary
  | .apiCustomerCartIndex => getUserCart
  | .apiCustomerCartAdd => addToCart request
  | .apiCustomerCartDelete => deleteCartItems request
  | .paymentCallback => return .redirect "/customer/dashboard" []
  | .authSignup => signup request
  | .authLogin => login request
  | .authLogout | .authLogoutGet => logout
  -- the admin closures all have the guard
  | .adminDashboard => adminGuard (.redirect "/login" []) (view "admin.dashboard")
  | .adminCreateAccount => adminGuard unauthorized (createAccount request)
  | .adminUsersIndex => adminGuard unauthorized getUsers
  | .adminUsersDelete => adminGuard unauthorized deleteUserById
  | .managerDashboard => roleGuard "manager" (loginRedirect "Manager") (view "manager.dashboard")
  -- no guard and no middleware on the sales routes
  | .salesDashboard => view "sales.dashboard"
  | .salesStocks => getStock
  | .salesProducts => getProducts
  | .customerDashboard =>
    roleGuard "customer" (loginRedirect "Customer") (view "customer.dashboard")
  -- of the customer routes only the dashboard looks at the role
  | .customerProducts => getProducts
  | .customerTransactionsSummary => viewTransactionSummary
  | .customerTransactionsDetail => viewTransactionDetailByID request
  | .customerCheckout => checkout
  | .customerCartAdd => addToCart request
  | .customerCartIndex => getUserCart
  | .customerCartDelete => deleteCartItems request
  | .testMidtrans => view "test-midtrans"
  | .midtransWebhook => ApiController.midtransWebhook request

/-- The result of a route, from a session: its response or throwable, and the state it leaves. -/
def Route.result (route : Route) (request : Request) (env : Env) (s : Session) :
    Except Throwable Response × St :=
  (route.handle request).run env (.initial s)

end Artha.Routes
