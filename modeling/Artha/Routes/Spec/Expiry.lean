import Artha.ApiController.Spec.Outgoing
import Artha.Routes.Spec.Sessions

/-!
# Expired tokens

When the backend no longer takes a token it answers 401.  `getUsers` hands the 401 on and forgets
the user, so that the pages ask for a new login.  The other seven actions that send the session's
token treat the 401 like any other failure: the session keeps its user, and the next page is
rendered as if nothing had happened (`endsSession_iff`).
-/

namespace Artha.Routes

open Php Laravel Eff ApiController

/-- The pages with a guard in front. -/
def guardedPages : List Route := [.adminDashboard, .managerDashboard, .customerDashboard]

/-- A call ends the session: it answers 401, removes the user, and every guarded page then
redirects to the login. -/
structure EndsSession (c : Call) (s : Session) : Prop where
  answers : ∃ response, c.Answers s response ∧ response.status = 401
  removed : c.after s "user" = .null
  redirects : ∀ page ∈ guardedPages, ∀ request env,
    ∃ flash, (page.result request env (c.after s)).1 = .ok (.redirect "/login" flash)

variable {c : Call} {s : Session} {q : HttpRequest} {r : HttpResponse}

/-- Without a user every guarded page redirects to the login. -/
theorem redirects_of_no_user (huser : s "user" = .null) {page : Route} (hpage : page ∈ guardedPages)
    (request : Request) (env : Env) :
    ∃ flash, (page.result request env s).1 = .ok (.redirect "/login" flash) := by
  let v : Visitor := ⟨s, .inl huser⟩
  have hno : ∀ role, hasRole role v.session = false := by
    intro role
    show hasRole role s = false
    simp [hasRole, huser, Value.get?]
  simp only [guardedPages, List.mem_cons, List.not_mem_nil, or_false] at hpage
  rcases hpage with rfl | rfl | rfl
  · refine ⟨[], ?_⟩
    rw [Route.result, Route.handle, run_adminGuard v rfl, if_neg (by simp [hno])]
  · refine ⟨[("error", accessRequired "Manager")], ?_⟩
    rw [Route.result, Route.handle, run_roleGuard v rfl, if_neg (by simp [hno])]
    rfl
  · refine ⟨[("error", accessRequired "Customer")], ?_⟩
    rw [Route.result, Route.handle, run_roleGuard v rfl, if_neg (by simp [hno])]
    rfl

/-- A session whose token is sent has a user. -/
theorem user_ne_null_of_outgoing (hc : c.action ∈ tokenActions)
    (hq : c.action.outgoing c.env c.request s = some q) : s "user" ≠ .null := by
  intro huser
  have hno : Action.noToken s = true := by
    rw [Action.noToken, huser]
    rfl
  have hbuilt := Action.built_of_rejects (rejects_of_noToken hc hno c.env c.request)
  rw [Action.outgoing, hbuilt] at hq
  cases hq

/-- The backend's 401 makes `getUsers` forget the user. -/
theorem result_getUsers_of_401 (hc : c.action = .getUsers)
    (hq : c.action.outgoing c.env c.request s = some q) (hr : c.env.remote [] q = .response r)
    (h401 : r.status = 401) :
    c.result s = (.ok (errorJson 401 "Session expired. Please login again."),
      ⟨Function.update s "user" .null, [⟨q, .response r⟩]⟩) := by
  have hne : c.action ≠ .logout := by
    rw [hc]
    nofun
  have hreply : (c.action.reply (s "user") r).run c.env ⟨s, [⟨q, .response r⟩]⟩
      = (.ok (errorJson 401 "Session expired. Please login again."),
        ⟨Function.update s "user" .null, [⟨q, .response r⟩]⟩) := by
    rw [hc]
    simp only [Action.reply, HttpResponse.successful, Action.refused, h401]
    rfl
  rw [Call.result_of_response hne hq hr, attempt, run_handle_of_ok hreply]

/-- For every action that sends the session's token, every request it accepts and every session
with a token: if the backend answers 401, the session is ended exactly if the action is
`getUsers`. -/
theorem endsSession_iff (hc : c.action ∈ tokenActions)
    (hq : c.action.outgoing c.env c.request s = some q) (hr : c.env.remote [] q = .response r)
    (h401 : r.status = 401) : EndsSession c s ↔ c.action = .getUsers := by
  constructor
  · intro h
    by_contra hne
    -- the other seven leave the session alone, and it has a user
    have hwrites : c.action ∉ sessionActions := by
      simp only [tokenActions, List.mem_cons, List.not_mem_nil, or_false] at hc
      rcases hc with hc | hc | hc | hc | hc | hc | hc | hc
      all_goals first | exact absurd hc hne | (rw [hc]; decide)
    have hafter : c.after s = s := c.action.frame_session c.request hwrites c.env (.initial s)
    have hremoved := h.removed
    rw [hafter] at hremoved
    exact user_ne_null_of_outgoing hc hq hremoved
  · intro hc'
    have hresult := result_getUsers_of_401 hc' hq hr h401
    have hafter : c.after s = Function.update s "user" .null := by rw [Call.after, hresult]
    have hremoved : c.after s "user" = .null := by rw [hafter, Function.update_self]
    have hanswer : c.Answers s (errorJson 401 "Session expired. Please login again.") := by
      rw [Call.Answers, hresult]
    exact ⟨⟨_, hanswer, rfl⟩, hremoved, fun page hpage => redirects_of_no_user hremoved hpage⟩

/-! ### A token that has expired -/

/-- A call of a user whose token the backend no longer takes. -/
def expiredCall (action : Action) : Call where
  action := action
  request := { verb := .get, path := "", authorization := none, input := [] }
  env := .answering (fun _ => .null) (.response ⟨401, .utf8 "token expired"⟩)

/-- A session with a token. -/
def tokenSession : Session :=
  .ofUser (.arr [("id", .int 1), ("email", .str "a@artha.test"), ("name", .str "A"),
    ("token", .str "one"), ("role", .str "admin")])

/-- Listing the users ends the session. -/
theorem getUsers_endsSession : EndsSession (expiredCall .getUsers) tokenSession :=
  (endsSession_iff (q := getUsersRequest (.str "Bearer one")) (r := ⟨401, .utf8 "token expired"⟩)
    (by decide) (by decide) rfl rfl).mpr rfl

/-- Looking at the cart does not. -/
theorem getUserCart_keeps_session :
    ¬ ∀ (c : Call) (s : Session) (q : HttpRequest) (r : HttpResponse), c.action ∈ tokenActions →
      c.action.outgoing c.env c.request s = some q → c.env.remote [] q = .response r →
      r.status = 401 → EndsSession c s := by
  intro h
  have hends := h (expiredCall .getUserCart) tokenSession (getUserCartRequest (.str "Bearer one"))
    ⟨401, .utf8 "token expired"⟩ (by decide) (by decide) rfl rfl
  have hafter : (expiredCall .getUserCart).after tokenSession = tokenSession :=
    Action.frame_session _ (by decide) _ _
  have hremoved := hends.removed
  rw [hafter] at hremoved
  exact absurd hremoved (by decide)

end Artha.Routes
