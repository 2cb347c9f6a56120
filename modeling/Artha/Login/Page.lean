import Artha.ApiController.Action
import Artha.Client.Storage
import Artha.Dashboard.Answers

/-!
# Logging in

The login page (`login.blade.php`) posts the form to `ApiController::login` and, once the answer is
there, stores the user and the token in `localStorage`.  The controller stores the same record in
its session before it answers.  A `System` is a browser, its session, and the answers that are under
way.  The form may be open in several windows, so that answers may overtake each other, and a window
may be closed before its answer is there.
-/

namespace Artha.Login

open Php Laravel ApiController Client Dashboard

/-- The texts that JavaScript makes of a value; none is `undefined`. -/
structure Texts where
  /-- `JSON.stringify`, of an answer. -/
  stringify : Value → String
  /-- `String(v)`. -/
  toText : Option Value → String
  toText_str : ∀ s, toText (some (.str s)) = s

/-- The login page. -/
structure Page where
  browser : Browser
  /-- `#error-message`, if it is displayed. -/
  error : Option String
  /-- `#loginButton` is disabled. -/
  disabled : Bool
  /-- Where the page has gone. -/
  location : Option String
deriving DecidableEq

namespace Page

variable (T : Texts)

def showError (page : Page) (message : String) : Page :=
  { page with error := some message, disabled := false }

/-- `v.message || fallback`. -/
def messageOr (v : Value) (fallback : String) : String :=
  match member (some v) "message" with
  | .ok message => if isTruthy message then T.toText message else fallback
  | .error _ => fallback

/-- `handleLoginError`, for the status and the JSON of an answer. -/
def handleLoginError (page : Page) (status : Nat) (responseJSON : Option Value) : Page :=
  page.showError <|
    match responseJSON.filter fun v => isTruthy (some v) with
    | some v =>
      if status = 401 then messageOr T v "Invalid credentials"
      else if status = 422 then messageOr T v "Please check your input"
      else if status = 429 then "Too many attempts. Please try again later"
      else if status = 500 then "Server error. Please try again later"
      else "An error occurred during login. Please try again."
    | none => "An error occurred during login. Please try again."

/-- The address for a role, where the answer has none. -/
def roleUrl : String → String
  | "admin" => "/admin/dashboard"
  | "manager" => "/manager/dashboard"
  | "sales" => "/sales/dashboard"
  | "customer" => "/customer/dashboard"
  | _ => "/login"

/-- `handleRedirect`.  A role that is no text has no `toLowerCase`: the entries are stored by then,
and the page stays.  In the lower case of a role only the letters of ASCII matter. -/
def handleRedirect (page : Page) (response : Value) : Page :=
  match member (some response) "status", member (some response) "data" with
  | .ok (some (.str "success")), .ok (some data) =>
    if isTruthy (some data) then
      let token := (member (some data) "token").toOption.join
      let stored := { page with
        browser := { page.browser with
          user := some (T.stringify data), token := some (T.toText token) } }
      let role := (member (some data) "role").toOption.join
      let redirect := (member (some response) "redirect").toOption.join
      match if isTruthy role then role else some (.str "") with
      | some (.str role) =>
        { stored with
          browser := stored.browser.leave
          location := some (if isTruthy redirect then T.toText redirect
            else roleUrl (strtolower role)) }
      | _ => stored
    else page.showError (messageOr T response "Login failed")
  | .ok _, .ok _ => page.showError (messageOr T response "Login failed")
  -- a `TypeError`
  | _, _ => page

/-- A page behind `submit`: the form has been sent. -/
def waiting (b : Browser) : Page where
  browser := b
  error := none
  disabled := true
  location := none

/-- The answer to the form, as jQuery hands it on; an exception of the controller is answered with
a page. -/
def answered (page : Page) : Except Throwable Response → Page
  | .ok (.json status data) =>
    if 200 ≤ status ∧ status < 300 then page.handleRedirect T data
    else page.handleLoginError T status (some data)
  | .ok _ => page.handleLoginError T 500 none
  | .error _ => page.handleLoginError T 500 none

end Page

/-! ### The system -/

structure System where
  browser : Browser
  session : Session
  /-- The answers of `login` under way, in the order in which they were given. -/
  inFlight : List (Except Throwable Response)

/-- What happens. -/
inductive Event where
  /-- The controller handles a form. -/
  | submit (request : Request) (env : Env)
  /-- An answer arrives. -/
  | arrive (i : Nat)
  /-- An answer gets lost. -/
  | lose (i : Nat)
  /-- Another action is called, by whatever page. -/
  | call (c : Call) (h : c.action ≠ .login)
  /-- A script of another page. -/
  | script (e : Client.Event) (h : ∀ user token, e ≠ .handleRedirect user token)

/-- The call of `login` for a form. -/
def loginCall (request : Request) (env : Env) : Call := ⟨.login, request, env⟩

namespace System

variable (T : Texts)

def start : System where
  browser := .start
  session := fun _ => .null
  inFlight := []

def step (sys : System) : Event → System
  | .submit request env =>
    { sys with
      session := (loginCall request env).after sys.session
      inFlight := sys.inFlight ++ [((loginCall request env).result sys.session).1] }
  | .arrive i =>
    match sys.inFlight[i]? with
    | some answer =>
      { sys with
        browser := ((Page.waiting sys.browser).answered T answer).browser
        inFlight := sys.inFlight.eraseIdx i }
    | none => sys
  | .lose i => { sys with inFlight := sys.inFlight.eraseIdx i }
  | .call c _ => { sys with session := c.after sys.session }
  | .script e _ => { sys with browser := sys.browser.step e }

end System

end Artha.Login
