import Artha.ApiController.Account
import Artha.ApiController.Customer
import Artha.ApiController.Inventory

/-!
# The actions of the controller

`Action` lists the public methods of `ApiController`, `Action.run` runs one, and `Action.rejects`
says when an action's own checks turn a request away: its validator, its check for a required
field, or its look at the session.
-/

namespace Artha.ApiController

open Php Laravel

/-- The public methods of `ApiController`. -/
inductive Action where
  | signup | login | midtransWebhook | createAccount | insertProductAndStock | updateProductStock
  | insertRawMaterial | getProducts | getUsers | deleteUser | logout | getStock | proxyToGo
  | getRawMaterials | deleteRawMaterial | deleteStock | addToCart | getUserCart | deleteCartItems
  | viewTransactionSummary | viewTransactionDetailByID | checkout | getStocksForSales
  | getRawMaterialsForSales
deriving DecidableEq, Repr

namespace Action

/-- The method of an action. -/
def run (request : Request) : Action → Php Response
  | .signup => ApiController.signup request
  | .login => ApiController.login request
  | .midtransWebhook => ApiController.midtransWebhook request
  | .createAccount => ApiController.createAccount request
  | .insertProductAndStock => ApiController.insertProductAndStock request
  | .updateProductStock => ApiController.updateProductStock request
  | .insertRawMaterial => ApiController.insertRawMaterial request
  | .getProducts => ApiController.getProducts
  | .getUsers => ApiController.getUsers
  | .deleteUser => ApiController.deleteUser request
  | .logout => ApiController.logout
  | .getStock => ApiController.getStock
  | .proxyToGo => ApiController.proxyToGo request
  | .getRawMaterials => ApiController.getRawMaterials
  | .deleteRawMaterial => ApiController.deleteRawMaterial request
  | .deleteStock => ApiController.deleteStock request
  | .addToCart => ApiController.addToCart request
  | .getUserCart => ApiController.getUserCart
  | .deleteCartItems => ApiController.deleteCartItems request
  | .viewTransactionSummary => ApiController.viewTransactionSummary
  | .viewTransactionDetailByID => ApiController.viewTransactionDetailByID request
  | .checkout => ApiController.checkout
  | .getStocksForSales => ApiController.getStocksForSales
  | .getRawMaterialsForSales => ApiController.getRawMaterialsForSales

/-- The session holds no usable token: `!(session('user')['token'] ?? null)`. -/
def noToken (s : Session) : Bool := !((s "user").getD "token" .null).truthy

/-- The session holds no user: `!session('user')`. -/
def noUser (s : Session) : Bool := !(s "user").truthy

/-- The action's own checks turn the request away. -/
def rejects (env : Env) (request : Request) (s : Session) : Action → Bool
  | .signup => !accepts env.rules request.all signupRules
  | .login => !accepts env.rules request.all loginRules
  | .midtransWebhook =>
    !(request.get "order_id").truthy || !(request.get "transaction_status").truthy
  | .createAccount => !accepts env.rules request.all createAccountRules || noToken s
  | .insertProductAndStock => !accepts env.rules request.all insertProductAndStockRules
  | .updateProductStock => !accepts env.rules request.all updateProductStockRules
  | .insertRawMaterial => !accepts env.rules request.all insertRawMaterialRules
  | .getUsers | .getStocksForSales | .getRawMaterialsForSales => noToken s
  | .deleteUser => !(request.get "user_id").truthy || noToken s
  | .deleteRawMaterial | .deleteStock => !accepts env.rules request.all idRules
  | .addToCart => !accepts env.rules request.all addToCartRules || noUser s || noToken s
  | .getUserCart => noUser s || noToken s
  | .deleteCartItems =>
    !accepts env.rules request.all deleteCartItemsRules || noUser s || noToken s
  | .viewTransactionSummary | .checkout => noUser s
  | .viewTransactionDetailByID =>
    !accepts env.rules request.all viewTransactionDetailByIDRules || noUser s
  | .logout | .getProducts | .getStock | .getRawMaterials | .proxyToGo => false

end Action

/-- One call of an action: which, with what request, and what it runs against. -/
structure Call where
  action : Action
  request : Request
  env : Env

namespace Call

/-- The action's result from a session: its response or throwable, and the state it leaves. -/
def result (c : Call) (s : Session) : Except Throwable Response × St :=
  (c.action.run c.request).run c.env (.initial s)

/-- The exchanges the action makes. -/
def trace (c : Call) (s : Session) : List Exchange := (c.result s).2.trace

/-- The session the action leaves. -/
def after (s : Session) (c : Call) : Session := (c.result s).2.session

/-- The action answers with `response`. -/
def Answers (c : Call) (s : Session) (response : Response) : Prop := (c.result s).1 = .ok response

/-- The action answers with the success envelope. -/
def succeeds (c : Call) (s : Session) : Bool :=
  match (c.result s).1 with
  | .ok response => response.succeeds
  | .error _ => false

end Call

end Artha.ApiController
