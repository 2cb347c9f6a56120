import Artha.ApiController.Spec.Honest
import Artha.ApiController.Spec.Session
import Artha.Effect.Run
import Artha.Routes.Spec.Guards

/-!
# Sessions over runs of calls

From the empty session, over any run of calls with any backend: the entry `user` is absent or a
complete record, so that every guard's role lookup is defined, and the one role test that may accept
is that of the last login that answered success.  This is `sessions_sound`.

It needs every login response to be one whose answer can be encoded.  `login` writes the session
before it builds its answer, and `response()->json` raises on a number that is not finite and on a
value that is nested too deeply; such a login answers an error and has changed the session
(`unanswerable_login`).
-/

namespace Artha.Routes

open Php Laravel Eff ApiController

/-! ### Histories -/

/-- The text of the role in the backend's answer to a login, `customer` if it has none. -/
def loginRole (c : Call) : String :=
  match c.env.remote [] (loginRequest c.request) with
  | .response r =>
    match ((c.env.json r).getD "role" (.str "customer")).toStringParam
        c.env.rules.floatToString with
    | .ok role => role
    | .error _ => ""
  | .failed _ => ""

theorem loginRole_eq {c : Call} {data : Value} {role : String} (h : c.LoggedIn data role) :
    loginRole c = role := by
  obtain ⟨r, hr, -, rfl⟩ := h.response
  rw [loginRole, hr]
  simp only [h.role]

/-- A session with what there is to remember of the calls that led to it. -/
structure History where
  session : Session
  /-- The role in the most recent login response whose login answered success. -/
  lastRole : Option String
  /-- A logout or an expired token, and no successful login since. -/
  ended : Bool

namespace History

/-- The empty session. -/
def start : History where
  session := fun _ => .null
  lastRole := none
  ended := false

def step (h : History) (c : Call) : History :=
  if c.action = .login ∧ c.succeeds h.session = true then
    { session := c.after h.session, lastRole := some (loginRole c), ended := false }
  else
    { session := c.after h.session, lastRole := h.lastRole,
      ended := h.ended || c.endsSession h.session }

@[simp] theorem step_session (h : History) (c : Call) :
    (h.step c).session = c.after h.session := by
  unfold step
  split <;> rfl

end History

/-! ### What should hold -/

/-- A complete user record: all five keys, with e-mail, name and token there and the role a
lower-case string. -/
def IsUserRecord (user : Value) : Prop :=
  ∃ id email name token role, user = .arr [("id", id), ("email", email), ("name", name),
      ("token", token), ("role", .str role)] ∧
    email ≠ .null ∧ name ≠ .null ∧ token ≠ .null ∧ strtolower role = role

/-- The actions that take their token from the session. -/
def tokenActions : List Action :=
  [.createAccount, .getUsers, .deleteUser, .addToCart, .getUserCart, .deleteCartItems,
    .getStocksForSales, .getRawMaterialsForSales]

/-- What holds of a session and its history. -/
structure Sound (h : History) : Prop where
  entry : h.session "user" = .null ∨ IsUserRecord (h.session "user")
  /-- The role lookup of a guard does not raise, and its outcome is that of the role test. -/
  guards : ∀ role env, (lacksRole role).run env (.initial h.session)
    = (.ok (!hasRole role h.session), .initial h.session)
  /-- A middleware hands over to the next handler or refuses; it never raises of its own. -/
  middlewares : ∀ role title expectsJson next env,
    (roleMiddleware role title expectsJson next).run env (.initial h.session) =
      if hasRole role h.session then next.run env (.initial h.session)
      else (.ok (if expectsJson then errorJson 403 (accessRequired title)
        else loginRedirect title), .initial h.session)
  atMostOne : ∀ role role', hasRole role h.session = true → hasRole role' h.session = true →
    role = role'
  latest : ∀ role, hasRole role h.session = true →
    ∃ text, h.lastRole = some text ∧ strtolower text = role
  silent : h.ended = true → ∀ c : Call, c.action ∈ tokenActions → c.trace h.session = []

/-- A login that does not answer success leaves the entry as it was. -/
def KeepsOnFailure (s : Session) (c : Call) : Prop :=
  c.action = .login → c.succeeds s = false → c.after s "user" = s "user"

/-- If the backend's response logs in, its token, e-mail and name can be encoded inside the answer:
they have no number that is not finite, and at most 510 levels. -/
def Answerable (c : Call) : Prop :=
  ∀ data role, c.LoggedIn data role →
    ∀ key ∈ ["token", "email", "name"], (data.getD key .null).encodableAt 2 = true

theorem encodable_loginAnswer {data : Value} {role : String} :
    (loginAnswer data role).encodable = true ↔
      ∀ key ∈ ["token", "email", "name"], (data.getD key .null).encodableAt 2 = true := by
  simp [loginAnswer, Value.encodable_iff, Value.encodableAt_arr, Value.encodableAt_str]

/-- A login that logs in answers success, if it can be answered. -/
theorem Answerable.succeeds {c : Call} {data : Value} {role : String} {s : Session}
    (h : Answerable c) (hin : c.LoggedIn data role)
    (hsucc : c.succeeds s = true ↔ (loginAnswer data (strtolower role)).encodable = true) :
    c.succeeds s = true :=
  hsucc.mpr (encodable_loginAnswer.mpr (h data role hin))

/-! ### The invariant -/

/-- There is no user, or there is the record of the last login, which is not ended. -/
def Inv (h : History) : Prop :=
  h.session "user" = .null ∨
    ∃ c data role, Call.LoggedIn c data role ∧
      h.session "user" = userRecord data (strtolower role) ∧ h.lastRole = some role ∧
      h.ended = false

theorem inv_start : Inv .start := .inl rfl

theorem inv_step {h : History} {c : Call} (hi : Inv h) (hc : Answerable c) : Inv (h.step c) := by
  rcases c.after_cases h.session with ⟨data, role, hin, hafter, hsucc⟩ | ⟨hends, hne, hafter⟩ |
    ⟨hends, hno, hafter, hfails⟩
  · -- a login: the answer can be encoded, so it answers success
    have hs : c.succeeds h.session = true := hc.succeeds hin hsucc
    refine .inr ⟨c, data, role, hin, ?_, ?_, ?_⟩
    · rw [History.step_session, hafter, Function.update_self]
    · simp [History.step, hin.action, hs, loginRole_eq hin]
    · simp [History.step, hin.action, hs]
  · refine .inl ?_
    rw [History.step_session, hafter, Function.update_self]
  · -- nothing happened to the session, and nothing was remembered
    have hskip : ¬ (c.action = .login ∧ c.succeeds h.session = true) := by
      rintro ⟨hlogin, hs⟩
      simp [hfails hlogin] at hs
    have hstep : h.step c = h := by
      rw [History.step, if_neg hskip, hafter, hends, Bool.or_false]
    rw [hstep]
    exact hi

/-! ### What the invariant gives -/

theorem isUserRecord_of_loggedIn {c : Call} {data : Value} {role : String}
    (h : c.LoggedIn data role) : IsUserRecord (userRecord data (strtolower role)) :=
  ⟨_, _, _, _, _, rfl, Value.getD_ne_null_of_isSet h.email, Value.getD_ne_null_of_isSet h.name,
    Value.getD_ne_null_of_isSet h.token, strtolower_strtolower role⟩

/-- A session the invariant speaks about is a visitor's. -/
def Inv.visitor {h : History} (hi : Inv h) : Visitor where
  session := h.session
  user := by
    rcases hi with hnull | ⟨c, data, role, -, huser, -⟩
    · exact .inl hnull
    · exact .inr ⟨_, strtolower role, huser, rfl⟩

/-- The role that is held is the one the last login stored. -/
theorem Inv.strtolower_of_hasRole {h : History} (hi : Inv h) {wanted : String}
    (hrole : hasRole wanted h.session = true) :
    ∃ text, h.lastRole = some text ∧ strtolower text = wanted := by
  rcases hi with hnull | ⟨c, data, role, -, huser, hlast, -⟩
  · simp [hasRole, hnull, Value.get?] at hrole
  · refine ⟨role, hlast, ?_⟩
    have hheld : (userRecord data (strtolower role)).get? "role" = some (.str (strtolower role)) :=
      rfl
    rw [hasRole, huser, hheld] at hrole
    simpa [strtolower_strtolower] using hrole

/-- An action that takes its token from a session without one is turned away by its own check. -/
theorem rejects_of_noToken {a : Action} (ha : a ∈ tokenActions) {s : Session}
    (hno : Action.noToken s = true) (env : Env) (request : Request) :
    a.rejects env request s = true := by
  simp only [tokenActions, List.mem_cons, List.not_mem_nil, or_false] at ha
  rcases ha with h | h | h | h | h | h | h | h <;> simp [h, Action.rejects, hno]

theorem trace_of_no_user {c : Call} {s : Session} (hc : c.action ∈ tokenActions)
    (huser : s "user" = .null) : c.trace s = [] := by
  have hno : Action.noToken s = true := by
    rw [Action.noToken, huser]
    rfl
  rw [Call.trace, Call.state_of_rejects (rejects_of_noToken hc hno c.env c.request)]
  rfl

theorem Inv.sound {h : History} (hi : Inv h) : Sound h where
  entry := by
    rcases hi with hnull | ⟨c, data, role, hin, huser, -⟩
    · exact .inl hnull
    · exact .inr (huser ▸ isUserRecord_of_loggedIn hin)
  guards := fun _ _ => run_lacksRole hi.visitor rfl
  middlewares := fun _ title expectsJson next _ =>
    run_roleMiddleware hi.visitor rfl title expectsJson next
  atMostOne := by
    intro role role' hrole hrole'
    obtain ⟨text, hlast, rfl⟩ := hi.strtolower_of_hasRole hrole
    obtain ⟨text', hlast', rfl⟩ := hi.strtolower_of_hasRole hrole'
    rw [Option.some.inj (hlast.symm.trans hlast')]
  latest := fun _ hrole => hi.strtolower_of_hasRole hrole
  silent := by
    intro hended c hc
    rcases hi with hnull | ⟨c', data, role, -, -, -, hlive⟩
    · exact trace_of_no_user hc hnull
    · rw [hlive] at hended
      cases hended

theorem keepsOnFailure {c : Call} (s : Session) (hc : Answerable c) : KeepsOnFailure s c := by
  intro hlogin hfails
  rcases c.after_cases s with ⟨data, role, hin, -, hsucc⟩ | ⟨-, hne, -⟩ | ⟨-, -, hafter, -⟩
  · rw [hc.succeeds hin hsucc] at hfails
    cases hfails
  · exact absurd hlogin hne
  · rw [hafter]

/-! ### Runs -/

/-- In every session reachable from the empty one by calls whose login responses can be answered:
the entry `user` and the guards are as they should be, and the next such login keeps the entry if
it fails. -/
theorem sessions_sound (run : List Call) (hrun : ∀ c ∈ run, Answerable c) :
    Sound (run.foldl History.step .start) ∧
      ∀ c, Answerable c → KeepsOnFailure (run.foldl History.step .start).session c := by
  have hi : Inv (run.foldl History.step .start) :=
    Run.invariant (fun _ _ hi hc => inv_step hi hc) inv_start (Run.along_of_forall hrun)
  exact ⟨hi.sound, fun c hc => keepsOnFailure _ hc⟩

/-! ### A login that cannot be answered -/

/-- A login the backend answers with a record that has this token. -/
def loginWithToken (body : String) (token : Value) : Call where
  action := .login
  request :=
    { verb := .post, path := "login", authorization := none,
      input := [("email", .str "a@artha.test"), ("password", .str "password")] }
  env := .answering
    (fun _ => .arr [("token", token), ("email", .str "a@artha.test"), ("name", .str "A")])
    (.response ⟨200, .utf8 body⟩)

/-- The backend's token is the number `1e999`, which decodes to infinity. -/
def unanswerableLogin : Call :=
  loginWithToken "\x7b\"token\":1e999,\"email\":\"a@artha.test\",\"name\":\"A\"\x7d"
    (.float 0x7FF0000000000000)

/-- The login answers an error and leaves a user in the session that had none. -/
theorem unanswerable_login :
    ¬ ∀ run : List Call, Sound (run.foldl History.step .start) ∧
      ∀ c, KeepsOnFailure (run.foldl History.step .start).session c := by
  intro h
  have hkeeps := (h []).2 unanswerableLogin rfl (by decide)
  exact absurd hkeeps (by decide)

/-- An ordinary login, and a logout. -/
theorem sessions_sound_login_logout :
    Sound ([loginWithToken
        "\x7b\"token\":\"t\",\"email\":\"a@artha.test\",\"name\":\"A\"\x7d" (.str "t"),
      { loginWithToken "" (.str "t") with action := .logout }].foldl History.step .start) := by
  refine (sessions_sound _ ?_).1
  intro c hc data role hin
  rw [List.mem_cons, List.mem_singleton] at hc
  rcases hc with rfl | rfl
  · obtain ⟨r, hr, -, rfl⟩ := hin.response
    obtain rfl := Outcome.response.inj hr
    obtain rfl : "customer" = role := Except.ok.inj hin.role
    decide
  · cases hin.action

end Artha.Routes
