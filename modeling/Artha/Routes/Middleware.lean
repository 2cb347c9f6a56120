import Artha.ApiController.Basic

/-!
# The role middlewares

`AdminMiddleware`, `ManagerMiddleware` and `SalesMiddleware` are one definition at three roles.  The
test they make, `lacksRole`, is also the one the route closures write out.
-/

namespace Artha.Routes

open Php Laravel

/-- `!session('user') || strtolower(session('user')['role']) !== $role`. -/
def lacksRole (role : String) : Php Bool := do
  let user ← session "user"
  if !user.truthy then
    return true
  -- read without `??` and passed to `strtolower`: a record without a role raises
  let held ← stringParam (← readKey user "role")
  return strtolower held ≠ role

/-- The text of a refusal. -/
def accessRequired (title : String) : String := "Unauthorized. " ++ title ++ " access required."

/-- `redirect('/login')->with('error', ...)`. -/
def loginRedirect (title : String) : Response :=
  .redirect "/login" [("error", accessRequired title)]

/-- `handle` of the three middlewares.  `expectsJson` is what `$request->expectsJson()` returns. -/
def roleMiddleware (role title : String) (expectsJson : Bool) (next : Php Response) :
    Php Response := do
  if ← lacksRole role then
    if expectsJson then
      return errorJson 403 (accessRequired title)
    else return loginRedirect title
  else next

def adminMiddleware : Bool → Php Response → Php Response := roleMiddleware "admin" "Admin"

def managerMiddleware : Bool → Php Response → Php Response := roleMiddleware "manager" "Manager"

def salesMiddleware : Bool → Php Response → Php Response := roleMiddleware "sales" "Sales"

end Artha.Routes
