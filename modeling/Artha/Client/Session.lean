import Artha.JavaScript.Json

/-!
# The idle timer: `utils/session.js`

A page keeps the id of its logout timer in the module variable `sessionTimer`, also after the timer
has fired or was cleared.  The timers of the browser are idealised: `setTimeout` returns an id that
was not used before, a timer fires when its delay has passed and at no other time, and
`clearTimeout` of an id that is not pending does nothing.  The entries of `localStorage` are shared
with other pages, which may change them at any time.
-/

namespace Artha.Client.Session

open JavaScript

/-- A page, with the storage and the timers it sees. -/
structure Page where
  sessionTimer : Option Nat
  /-- The pending timers: the id and the time at which it fires. -/
  pending : List (Nat × Int)
  /-- What `setTimeout` returns next. -/
  nextId : Nat
  /-- `localStorage.getItem('user')`. -/
  user : Option JsString
  /-- `localStorage.getItem('token')`. -/
  token : Option JsString
  /-- `axios.defaults.headers.common['Authorization']`. -/
  authorization : Option JsString
  /-- When `logout` was called by the timer. -/
  logouts : List Int

/-- What happens on a page. -/
inductive Event where
  /-- `initializeSession(userData)`, with the text of `JSON.stringify(userData)`; none where that or
  `setItem` throws. -/
  | initializeSession (userData : Option JsString)
  | refreshSession
  | clearSession
  /-- The time of a timer has come. -/
  | fire (id : Nat)
  /-- The entries of `localStorage` and the header of axios are changed by other code. -/
  | change (user token authorization : Option JsString)

/-- An event and what the clock says. -/
structure Call where
  event : Event
  now : Int

/-- Thirty minutes. -/
def sessionTimeout : Int := 30 * 60 * 1000

namespace Page

/-- A page that has just been opened. -/
def opened : Page where
  sessionTimer := none
  pending := []
  nextId := 1
  user := none
  token := none
  authorization := none
  logouts := []

def clearTimeout (p : Page) (id : Nat) : Page :=
  { p with pending := p.pending.filter (·.1 ≠ id) }

/-- `if (sessionTimer) clearTimeout(sessionTimer)`. -/
def clearSessionTimer (p : Page) : Page :=
  match p.sessionTimer with
  | some id => if id ≠ 0 then p.clearTimeout id else p
  | none => p

/-- `sessionTimer = setTimeout(..., delay)`. -/
def setSessionTimer (p : Page) (due : Int) : Page :=
  { p with
    sessionTimer := some p.nextId
    pending := (p.nextId, due) :: p.pending
    nextId := p.nextId + 1 }

def startSessionTimer (p : Page) (now : Int) : Page :=
  p.clearSessionTimer.setSessionTimer (now + sessionTimeout)

/-- `logout` of `utils/auth.js`, called by the timer. -/
def logout (p : Page) (now : Int) : Page :=
  { p with user := none, token := none, authorization := none, logouts := p.logouts ++ [now] }

/-- The timer `id` fires, if it is pending and its time is now. -/
def fire (p : Page) (id : Nat) (now : Int) : Page :=
  if (id, now) ∈ p.pending then (p.clearTimeout id).logout now else p

section

variable (parse : JsString → Option Json)

/-- `getUser()`: null where nothing is stored and on every error. -/
def getUser (p : Page) : Json :=
  match p.user with
  | some user => if user ≠ [] then (parse user).getD .null else .null
  | none => .null

/-- `getUser()` is truthy; `parse` is `JSON.parse`, none where it throws. -/
def hasUser (p : Page) : Bool :=
  match p.user with
  | some user => user ≠ [] && (parse user).any Json.truthy
  | none => false

def step (p : Page) (c : Call) : Page :=
  match c.event with
  | .initializeSession (some userData) =>
    startSessionTimer { p with user := some userData } c.now
  | .initializeSession none => p
  | .refreshSession => if p.hasUser parse then p.startSessionTimer c.now else p
  | .clearSession => { p.clearSessionTimer with user := none }
  | .fire id => p.fire id c.now
  | .change user token authorization =>
    { p with user := user, token := token, authorization := authorization }

/-- The page after a sequence of events. -/
def after (run : List Call) : Page := run.foldl (step parse) opened

/-- The call starts the timer: `initializeSession`, or `refreshSession` with a stored user. -/
def starts (p : Page) (c : Call) : Bool :=
  match c.event with
  | .initializeSession userData => userData.isSome
  | .refreshSession => p.hasUser parse
  | _ => false

end

end Page

end Artha.Client.Session
