import Artha.ApiController.Spec.Rules
import Artha.Routes.Web

/-!
# The guards on a visitor's session

A guard reads the entry `user` without looking whether it has a role.  On the session of a
`Visitor`, which holds no user or a record with a role, the test of every guard is defined, and it
is the test for the role (`run_lacksRole`).  So a closure's guard and a middleware either hand over
to what is behind them or refuse, and touch nothing (`run_roleGuard`, `run_adminGuard`,
`run_roleMiddleware`).
-/

namespace Artha.Routes

open Php Laravel Eff ApiController

/-- The session holds a user whose lower-cased role is `role`. -/
def hasRole (role : String) (s : Session) : Bool :=
  match (s "user").get? "role" with
  | some (.str held) => strtolower held = role
  | _ => false

/-- A session without a user, or with a user record that has a role. -/
structure Visitor where
  session : Session
  user : session "user" = .null ∨
    ∃ es held, session "user" = .arr es ∧ es.lookup "role" = some (.str held)

/-- The page is rendered. -/
def Renders (x : Except Throwable Response × St) : Prop := ∃ name, x.1 = .ok (.view name)

variable {env : Env} {role : String} {st : St}

/-- On a visitor's session the role test is defined, and it is the test for the role. -/
theorem run_lacksRole (v : Visitor) (hst : st.session = v.session) :
    (lacksRole role).run env st = (.ok (!hasRole role v.session), st) := by
  have hsession : (session "user").run env st = (.ok (v.session "user"), st) := by
    rw [← hst]
    rfl
  rw [lacksRole, run_bind_of_ok hsession, hasRole]
  rcases v.user with hnull | ⟨es, held, harr, hrole⟩
  · rw [hnull]
    rfl
  · have htruthy : (Value.arr es).truthy = true := by
      cases es with
      | nil => simp at hrole
      | cons e es => rfl
    have hread : (readKey (.arr es) "role").run env st = (.ok (.str held), st) := by
      simp only [readKey, Value.read, hrole]
      rfl
    have hparam : (stringParam (.str held)).run env st = (.ok held, st) := rfl
    rw [harr, Value.get?, hrole, htruthy]
    simp only [Bool.not_true, Bool.false_eq_true, if_false]
    rw [run_bind_of_ok hread, run_bind_of_ok hparam]
    simp [Eff.run, pure]

/-- A closure's guard hands over to what is behind it, or answers its refusal. -/
theorem run_roleGuard (v : Visitor) (hst : st.session = v.session) (refusal : Response)
    (k : Php Response) : (roleGuard role refusal k).run env st =
      if hasRole role v.session then k.run env st else (.ok refusal, st) := by
  rw [roleGuard, run_bind_of_ok (run_lacksRole v hst)]
  cases hasRole role v.session <;> rfl

/-- The guard of the admin closures asks for the `jwt_token` first. -/
theorem run_adminGuard (v : Visitor) (hst : st.session = v.session) (refusal : Response)
    (k : Php Response) : (adminGuard refusal k).run env st =
      if (v.session "jwt_token").truthy && hasRole "admin" v.session then k.run env st
      else (.ok refusal, st) := by
  have hsession : (session "jwt_token").run env st = (.ok (v.session "jwt_token"), st) := by
    rw [← hst]
    rfl
  rw [adminGuard, run_bind_of_ok hsession]
  cases (v.session "jwt_token").truthy with
  | false => rfl
  | true => exact run_roleGuard v hst refusal k

/-- A middleware hands over to the next handler, or refuses in the form the client expects. -/
theorem run_roleMiddleware (v : Visitor) (hst : st.session = v.session) (title : String)
    (expectsJson : Bool) (next : Php Response) :
    (roleMiddleware role title expectsJson next).run env st =
      if hasRole role v.session then next.run env st
      else (.ok (if expectsJson then errorJson 403 (accessRequired title)
        else loginRedirect title), st) := by
  rw [roleMiddleware, run_bind_of_ok (run_lacksRole v hst)]
  cases hasRole role v.session with
  | true => rfl
  | false => cases expectsJson <;> rfl

end Artha.Routes
