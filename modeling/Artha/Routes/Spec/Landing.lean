import Artha.ApiController.Spec.Session
import Artha.Effect.Run
import Artha.Routes.Spec.Guards

/-!
# Where a login lands

`login` answers with the page to go to and writes the entry `user`; the guard of that page reads the
session.  The two agree for every role but one: the admin closures also ask for the entry
`jwt_token`, which no action writes.  So an administrator lands only if the session held a
`jwt_token` before (`login_lands_iff`).
-/

namespace Artha.Routes

open Php Laravel Eff ApiController

/-- The session satisfies the guard of the page `getRedirectUrl` names for the role, and for an
administrator also the guards of the other admin routes: they hand over to what is behind them. -/
structure Lands (role : String) (s : Session) : Prop where
  page : ∃ route : Route, route.verb = .get ∧ route.url = getRedirectUrl role ∧
    ∀ request env, Renders (route.result request env s)
  admin : strtolower role = "admin" → ∀ request env,
    Route.adminCreateAccount.result request env s = (createAccount request).run env (.initial s) ∧
    Route.adminUsersIndex.result request env s = getUsers.run env (.initial s) ∧
    Route.adminUsersDelete.result request env s = deleteUserById.run env (.initial s)

/-! ### The session a login writes -/

/-- The session holds the record of a login with this role. -/
def HoldsLogin (role : String) (s : Session) : Prop :=
  ∃ data, s "user" = userRecord data (strtolower role)

/-- A session that holds a login is a visitor's. -/
def HoldsLogin.visitor {role : String} {s : Session} (h : HoldsLogin role s) : Visitor where
  session := s
  user := by
    obtain ⟨data, hdata⟩ := h
    exact .inr ⟨_, strtolower role, hdata, rfl⟩

@[simp] theorem HoldsLogin.visitor_session {role : String} {s : Session} (h : HoldsLogin role s) :
    h.visitor.session = s := rfl

theorem HoldsLogin.hasRole_eq {role : String} {s : Session} (h : HoldsLogin role s)
    (wanted : String) : hasRole wanted s = (strtolower role = wanted : Bool) := by
  obtain ⟨data, hdata⟩ := h
  have hrole : (userRecord data (strtolower role)).get? "role"
      = some (.str (strtolower role)) := rfl
  rw [hasRole, hdata, hrole]
  simp only [strtolower_strtolower]

variable {role : String} {s : Session}

theorem renders_roleGuard (h : HoldsLogin role s) {wanted name : String}
    (hrole : strtolower role = wanted) (refusal : Response) (env : Env) :
    Renders ((roleGuard wanted refusal (view name)).run env (.initial s)) := by
  have hhas : hasRole wanted s = true := by
    rw [h.hasRole_eq]
    simpa using hrole
  rw [run_roleGuard h.visitor rfl, h.visitor_session, if_pos hhas]
  exact ⟨name, rfl⟩

/-- An administrator's login opens the admin closures exactly if there is a `jwt_token`. -/
theorem run_adminGuard_of_holdsLogin (h : HoldsLogin role s) (hrole : strtolower role = "admin")
    (refusal : Response) (k : Php Response) (env : Env) :
    (adminGuard refusal k).run env (.initial s) =
      if (s "jwt_token").truthy then k.run env (.initial s) else (.ok refusal, .initial s) := by
  have hhas : hasRole "admin" s = true := by
    rw [h.hasRole_eq]
    simpa using hrole
  rw [run_adminGuard h.visitor rfl, h.visitor_session, hhas, Bool.and_true]

/-- A session with a login lands, except an administrator's without a `jwt_token`. -/
theorem HoldsLogin.lands_iff (h : HoldsLogin role s) :
    Lands role s ↔ strtolower role ≠ "admin" ∨ (s "jwt_token").truthy = true := by
  constructor
  · intro hlands
    by_contra hno
    obtain ⟨hadmin, hjwt⟩ := not_or.mp hno
    rw [not_not] at hadmin
    rw [Bool.not_eq_true] at hjwt
    -- the delete route answers 401 where it should hand over to a method that raises
    let request : Request := ⟨.get, "", none, []⟩
    let env : Env := .answering (fun _ => .null) (.failed (.utf8 ""))
    obtain ⟨-, -, hdelete⟩ := hlands.admin hadmin request env
    have hrefused : Route.adminUsersDelete.result request env s
        = (.ok unauthorized, .initial s) := by
      show (adminGuard unauthorized deleteUserById).run env (.initial s) = _
      rw [run_adminGuard_of_holdsLogin h hadmin, hjwt]
      rfl
    have hsame : (Except.ok unauthorized : Except Throwable Response)
        = (deleteUserById.run env (.initial s)).1 := by
      rw [← hdelete, hrefused]
    cases hsame
  · intro hor
    refine ⟨?_, fun hadmin request env => ?_⟩
    · unfold getRedirectUrl
      split
      · next hadmin =>
        have hjwt := hor.resolve_left (not_not_intro hadmin)
        refine ⟨.adminDashboard, rfl, by decide, fun request env => ?_⟩
        show Renders ((adminGuard _ (view "admin.dashboard")).run env (.initial s))
        rw [run_adminGuard_of_holdsLogin h hadmin, if_pos hjwt]
        exact ⟨_, rfl⟩
      · next hmanager =>
        exact ⟨.managerDashboard, rfl, by decide, fun _ env => renders_roleGuard h hmanager _ env⟩
      · exact ⟨.salesDashboard, rfl, by decide, fun _ _ => ⟨_, rfl⟩⟩
      · next hcustomer =>
        exact ⟨.customerDashboard, rfl, by decide, fun _ env => renders_roleGuard h hcustomer _ env⟩
      · exact ⟨.loginPage, rfl, by decide, fun _ _ => ⟨_, rfl⟩⟩
    · have hjwt := hor.resolve_left (not_not_intro hadmin)
      have hopen : ∀ k : Php Response,
          (adminGuard unauthorized k).run env (.initial s) = k.run env (.initial s) := by
        intro k
        rw [run_adminGuard_of_holdsLogin h hadmin, if_pos hjwt]
      exact ⟨hopen _, hopen _, hopen _⟩

/-! ### Runs -/

/-- A call that neither ends the session nor handles a login response of its own. -/
def Continues (s : Session) (c : Call) : Prop :=
  c.endsSession s = false ∧ ¬ ∃ data role, c.LoggedIn data role

theorem after_of_continues {c : Call} (h : Continues s c) : c.after s = s := by
  rcases c.after_cases s with ⟨data, role, hin, -⟩ | ⟨hends, -⟩ | ⟨-, -, hafter, -⟩
  · exact absurd ⟨data, role, hin⟩ h.2
  · rw [h.1] at hends
    cases hends
  · exact hafter

/-- Whatever is requested in between, the session is the one the login wrote. -/
theorem foldl_after_of_continues {run : List Call}
    (hrun : Run.Along Call.after Continues s run) : run.foldl Call.after s = s :=
  Run.invariant (I := fun s' => s' = s)
    (fun s' c hs hc => by rw [after_of_continues hc, hs]) rfl hrun

/-- The record the backend answers a login with. -/
def loginRecord (role : String) : Value :=
  .arr [("id", .int 1), ("email", .str "a@artha.test"), ("name", .str "A"), ("token", .str "t"),
    ("role", .str role)]

/-- A login the backend answers with a record of this role. -/
def loginCall (role : String) : Call where
  action := .login
  request :=
    { verb := .post, path := "login", authorization := none,
      input := [("email", .str "a@artha.test"), ("password", .str "password")] }
  env := .answering (fun _ => loginRecord role) (.response ⟨200, .utf8
    ("\x7b\"id\":1,\"email\":\"a@artha.test\",\"name\":\"A\",\"token\":\"t\",\"role\":\"" ++ role ++
      "\"\x7d")⟩)

theorem loggedIn_loginCall (role : String) : (loginCall role).LoggedIn (loginRecord role) role where
  action := rfl
  accepted := rfl
  response := ⟨_, rfl, rfl, rfl⟩
  isArray := ⟨_, rfl⟩
  token := rfl
  email := rfl
  name := rfl
  role := rfl

end Artha.Routes
