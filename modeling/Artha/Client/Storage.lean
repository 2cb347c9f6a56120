import Mathlib.Tactic.Basic

/-!
# The browser's side of a session

The login page stores the user and the token in `localStorage`; `utils/auth.js`, `utils/session.js`,
`app.js` and the dashboards read and remove them.  A browser is its two entries of `localStorage`,
the `Authorization` header axios sends, and whether a logout timer is pending.  The header and the
timer belong to the page and are gone when another page is opened.
-/

namespace Artha.Client

/-- What the scripts keep of a session. -/
structure Browser where
  /-- `localStorage.getItem('user')`. -/
  user : Option String
  /-- `localStorage.getItem('token')`. -/
  token : Option String
  /-- `axios.defaults.headers.common['Authorization']`. -/
  authorization : Option String
  /-- `sessionTimer` is pending. -/
  timer : Bool
deriving DecidableEq, Repr

/-- What happens in a browser. -/
inductive Event where
  /-- A login succeeds: `handleRedirect` with the texts of `response.data` and of its token. -/
  | handleRedirect (user token : String)
  /-- A page with `app.js` starts; `expired` is what `isTokenExpired` says of the stored token. -/
  | startUp (expired : Bool)
  | refreshSession
  | clearSession
  /-- `logout` of `utils/auth.js`, called or fired by the timer. -/
  | logout
  | logoutCustomer
  /-- The axios interceptor sees a 401. -/
  | interceptor
  /-- A dashboard's own request is answered 401 or 403. -/
  | sessionExpired
deriving DecidableEq, Repr

namespace Browser

/-- The browser before the first login. -/
def start : Browser where
  user := none
  token := none
  authorization := none
  timer := false

/-- `window.location.href = ...`: the storage stays, the page goes. -/
def leave (b : Browser) : Browser := { b with authorization := none, timer := false }

def setAuthToken (b : Browser) (token : Option String) : Browser :=
  match token with
  | some token =>
    -- the empty string is no token either
    if token ≠ "" then { b with token := some token, authorization := some ("Bearer " ++ token) }
    else { b with token := none, authorization := none }
  | none => { b with token := none, authorization := none }

/-- `getUser()` is truthy: what is stored under `user` is the JSON of an object. -/
def hasUser (b : Browser) : Bool :=
  match b.user with
  | some user => user ≠ ""
  | none => false

def refreshSession (b : Browser) : Browser := if b.hasUser then { b with timer := true } else b

def clearSession (b : Browser) : Browser := { b with user := none, timer := false }

/-- `logout` of `utils/auth.js`. -/
def logout (b : Browser) : Browser :=
  leave { b with user := none, token := none, authorization := none }

/-- `localStorage.removeItem('token')` and away, as `logoutCustomer` and the dashboards do it. -/
def dropToken (b : Browser) : Browser := leave { b with token := none }

/-- The start-up of `app.js` in a new page. -/
def startUp (b : Browser) (expired : Bool) : Browser :=
  match b.leave.token with
  | some token =>
    if token ≠ "" && !expired then refreshSession (b.leave.setAuthToken (some token)) else b.leave
  | none => b.leave

def step (b : Browser) : Event → Browser
  | .handleRedirect user token => leave { b with user := some user, token := some token }
  | .startUp expired => b.startUp expired
  | .refreshSession => b.refreshSession
  | .clearSession => b.clearSession
  | .logout => b.logout
  | .logoutCustomer => b.dropToken
  | .interceptor => (b.setAuthToken none).leave
  | .sessionExpired => b.dropToken

end Browser

end Artha.Client
