import Artha.ApiController.Spec.Outgoing
import Artha.ApiController.Spec.Success
import Artha.Effect.Run

/-!
# What a call does to the session

Of all actions only `login`, `logout` and `getUsers` write the session, and only its entry `user`.
`Call.after_cases` says once what a call can do to it: store the record of a backend's login
response, remove the entry, or leave everything as it was.  Everything about sessions over runs of
calls is derived from it.
-/

namespace Artha.ApiController

open Php Laravel Eff

/-! ### Actions that leave the session alone -/

/-- The actions that write the session. -/
def sessionActions : List Action := [.login, .logout, .getUsers]

theorem frame_session_send (q : HttpRequest) : Frame St.session (send q) := by
  intro env st
  simp only [Eff.run, send]
  split
  · split <;> rfl
  · rfl

/-- A computation that asks for a request leaves the session alone if what follows does. -/
theorem Asks.session {env : Env} {st : St} {p : Prop} {m : Php Response} {o : Option HttpRequest}
    {k : HttpResponse → Php Response} (h : Asks env st p m o k)
    (hk : ∀ r, Frame St.session (k r)) : (m.run env st).2.session = st.session := by
  rw [← wp_state (P := fun st' : St => st'.session = st.session)]
  refine h.elim (fun _ x hx => ?_) fun q _ => ?_
  · cases hx <;> rfl
  · exact (frame_bind (frame_session_send q) hk).wp env st

theorem frame_session_createPayment (user : Value) (r : HttpResponse) :
    Frame St.session (createPayment user r) := by
  intro env st
  exact (asks_createPayment user r).session (frame_paymentReply _)

/-- Every other action leaves the session as it was. -/
theorem Action.frame_session (request : Request) {a : Action} (ha : a ∉ sessionActions) :
    Frame St.session (a.run request) := by
  simp only [sessionActions, List.mem_cons, List.not_mem_nil, or_false, not_or] at ha
  obtain ⟨hlogin, hlogout, husers⟩ := ha
  intro env st
  obtain ⟨body, hrun, hasks⟩ := a.shape hlogout request env st
  have hreply : ∀ r, Frame St.session (a.reply (st.session "user") r) := by
    intro r
    refine frame_ite ?_ (frame_refused husers r)
    by_cases hcheckout : a = .checkout
    · rw [hcheckout]
      exact frame_session_createPayment _ r
    · exact frame_accepted hlogin hcheckout _ r
  have hbody := hasks.session hreply
  rw [hrun]
  rcases hx : body.run env st with ⟨e | r, st'⟩
  · rw [hx] at hbody
    rw [attempt, run_handle_of_error hx]
    exact (frame_caught a.failure e env st').trans hbody
  · rw [hx] at hbody
    rw [attempt, run_handle_of_ok hx]
    exact hbody

/-! ### `login` -/

namespace Call

/-- The backend answers the login of `c` with a 2xx and a record `data` that has what `login` asks
for; `role` is the text of its role, `customer` if it has none. -/
structure LoggedIn (c : Call) (data : Value) (role : String) : Prop where
  action : c.action = .login
  accepted : accepts c.env.rules c.request.all loginRules = true
  response : ∃ r, c.env.remote [] (loginRequest c.request) = .response r ∧
    r.successful = true ∧ c.env.json r = data
  isArray : ∃ es, data = .arr es
  token : data.isSet "token" = true
  email : data.isSet "email" = true
  name : data.isSet "name" = true
  role : (data.getD "role" (.str "customer")).toStringParam c.env.rules.floatToString = .ok role

/-- The backend's response decides what a login stores. -/
theorem LoggedIn.unique {c : Call} {data data' : Value} {role role' : String}
    (h : c.LoggedIn data role) (h' : c.LoggedIn data' role') : data = data' ∧ role = role' := by
  obtain ⟨r, hr, -, rfl⟩ := h.response
  obtain ⟨r', hr', -, rfl⟩ := h'.response
  obtain rfl := Outcome.response.inj (hr.symm.trans hr')
  exact ⟨rfl, Except.ok.inj (h.role.symm.trans h'.role)⟩

end Call

/-- What a login does: nothing, or store the record, whether or not the answer can be encoded. -/
def LoginEnds (c : Call) (s : Session) (succeeds : Bool) (s' : Session) : Prop :=
  (s' = s ∧ succeeds = false ∧ ¬ ∃ data role, c.LoggedIn data role) ∨
  ∃ data role, c.LoggedIn data role ∧
    s' = Function.update s "user" (userRecord data (strtolower role)) ∧
    (succeeds = true ↔ (loginAnswer data (strtolower role)).encodable = true)

/-- What is accepted can be encoded: it consists of strings. -/
theorem encodable_loginRequest {env : Env} {request : Request}
    (h : accepts env.rules request.all loginRules = true) :
    (loginRequest request).encodable = true := by
  refine Value.encodable_of_str fun e he => ?_
  simp only [List.mem_cons, List.not_mem_nil, or_false] at he
  rcases he with rfl | rfl
  · exact eq_str_of_accepts h [.required, .string, .email] (by simp [loginRules]) (by simp)
  · exact eq_str_of_accepts h [.required, .string] (by simp [loginRules]) (by simp)

section Login

variable {c : Call} {s : Session} {st : St} {r : HttpResponse}

theorem loginEnds_of_not (h : ¬ ∃ data role, c.LoggedIn data role) : LoginEnds c s false s :=
  .inl ⟨rfl, rfl, h⟩

/-- A response that is not successful logs nobody in. -/
theorem ends_loginRefused (hst : st.session = s) (h : ¬ ∃ data role, c.LoggedIn data role) :
    Ends c.env st (loginRefused r) (LoginEnds c s) := by
  subst hst
  unfold Ends loginRefused
  simp only [wp_ite, wp_pure, wp_throw, succeeds_errorJson]
  split
  · exact loginEnds_of_not h
  · split <;> exact loginEnds_of_not h

/-- A successful response logs in if it has what `login` asks for. -/
theorem ends_loginAccepted (hc : c.action = .login)
    (hacc : accepts c.env.rules c.request.all loginRules = true) (hst : st.session = s)
    (hr : c.env.remote [] (loginRequest c.request) = .response r) (hok : r.successful = true) :
    Ends c.env st (loginAccepted r) (LoginEnds c s) := by
  subst hst
  -- whoever is logged in is so by this response
  have hdata : ∀ {data role}, c.LoggedIn data role → data = c.env.json r := by
    intro data role h
    obtain ⟨r', hr', -, rfl⟩ := h.response
    rw [Outcome.response.inj (hr.symm.trans hr')]
  unfold Ends
  rw [wp_loginAccepted]
  refine ⟨fun hno => ?_, fun _ hmissing => ?_, fun harray hfields => ⟨?_, fun e he => ?_⟩⟩
  · refine loginEnds_of_not ?_
    rintro ⟨data, role, h⟩
    obtain ⟨es, hes⟩ := h.isArray
    exact hno es ((hdata h).symm.trans hes)
  · -- one of the three fields is missing, and nothing was written yet
    refine loginEnds_of_not ?_
    rintro ⟨data, role, h⟩
    rw [← hdata h, hasLogin, h.token, h.email, h.name] at hmissing
    cases hmissing
  · intro role hrole
    simp only [hasLogin, Bool.and_eq_true] at hfields
    obtain ⟨⟨htoken, hemail⟩, hname⟩ := hfields
    have hin : c.LoggedIn (c.env.json r) role :=
      ⟨hc, hacc, ⟨r, hr, hok, rfl⟩, harray, htoken, hemail, hname, hrole⟩
    rw [wp_json]
    split
    · next henc => exact .inr ⟨_, role, hin, rfl, fun _ => henc, fun _ => rfl⟩
    · next henc =>
      exact .inr ⟨_, role, hin, rfl, fun h => absurd h Bool.false_ne_true,
        fun h => absurd h henc⟩
  · -- a role that is an array raises before the session is written
    refine loginEnds_of_not ?_
    rintro ⟨data, role, h⟩
    rw [← hdata h, h.role] at he
    cases he

theorem ends_login (hc : c.action = .login) :
    Ends c.env (.initial s) (login c.request) (LoginEnds c s) := by
  refine ends_attempt ?_
  unfold Ends
  rw [wp_validated]
  refine ⟨fun message hm => loginEnds_of_not ?_, fun hacc => ?_⟩
  · rintro ⟨data, role, h⟩
    have hacc := h.accepted
    simp [accepts, hm] at hacc
  · rw [wp_bind, wp_sent]
    refine ⟨fun henc => ?_, fun r _ hr => ?_, fun message _ hr => loginEnds_of_not ?_⟩
    · simp [encodable_loginRequest hacc] at henc
    · rw [wp_ite]
      split
      · next hno =>
        refine ends_loginRefused rfl ?_
        rintro ⟨data, role, h⟩
        obtain ⟨r', hr', hok, -⟩ := h.response
        rw [← Outcome.response.inj (hr.symm.trans hr')] at hok
        simp [hok] at hno
      · next hok => exact ends_loginAccepted hc hacc rfl hr (by simpa using hok)
    · rintro ⟨data, role, h⟩
      obtain ⟨r', hr', -, -⟩ := h.response
      cases hr.symm.trans hr'

end Login

/-! ### `getUsers` and `logout` -/

/-- The call is a `getUsers`, and the backend answers it with 401. -/
def Call.expires (c : Call) (s : Session) : Bool :=
  c.action = .getUsers &&
    match withBearer c.env s getUsersRequest with
    | none => false
    | some q =>
      match c.env.remote [] q with
      | .response r => r.status = 401
      | .failed _ => false

/-- What `getUsers` does to the session. -/
def GetUsersEnds (c : Call) (s s' : Session) : Prop :=
  s' = if c.expires s then Function.update s "user" .null else s

theorem getUsersEnds_of_not {c : Call} {s : Session} (h : c.expires s = false) :
    GetUsersEnds c s s := by
  simp [GetUsersEnds, h]

theorem ends_getUsers {c : Call} {s : Session} (hc : c.action = .getUsers) :
    Ends c.env (.initial s) getUsers fun _ s' => GetUsersEnds c s s' := by
  refine ends_attempt ?_
  unfold Ends
  rw [wp_withToken]
  refine ⟨fun hno => getUsersEnds_of_not ?_, fun htoken => ?_⟩
  · -- no token: the backend is not asked
    have hno' : Action.noToken s = true := hno
    simp [Call.expires, withBearer, whenToken, hno']
  · have htoken' : Action.noToken s = false := htoken
    rw [wp_bind, wp_bearer]
    refine ⟨fun t ht => ?_, fun e he => getUsersEnds_of_not ?_⟩
    · have htext : textOf c.env (tokenOf s) = some t := by
        rw [textOf, tokenOf]
        exact congrArg Except.toOption ht
      have hbearer : withBearer c.env s getUsersRequest
          = some (getUsersRequest (.str ("Bearer " ++ t))) := by
        simp [withBearer, whenToken, htoken', authorizationOf, htext]
      rw [wp_bind, wp_sent]
      refine ⟨fun hq => ?_, fun r _ hr => ?_, fun message _ hr => getUsersEnds_of_not ?_⟩
      · cases hq
      · have hr' : c.env.remote [] (getUsersRequest (.str ("Bearer " ++ t))) = .response r := hr
        rw [wp_ite]
        split
        · next h401 =>
          show _ = _
          simp [Call.expires, hc, hbearer, hr', h401]
        · next h401 =>
          have hkeep : c.expires s = false := by simp [Call.expires, hbearer, hr', h401]
          exact ends_frame (P := fun _ s' => GetUsersEnds c s s')
            (frame_ensure (frame_answerData r)) fun _ => getUsersEnds_of_not hkeep
      · have hr' : c.env.remote [] (getUsersRequest (.str ("Bearer " ++ t))) = .failed message := hr
        simp [Call.expires, hbearer, hr']
    · have htext : textOf c.env (tokenOf s) = none := by
        rw [textOf, tokenOf]
        exact congrArg Except.toOption he
      simp [Call.expires, withBearer, whenToken, authorizationOf, htext]

/-! ### What a call can do -/

namespace Call

/-- The call removes the entry `user`: a logout, or a token the backend no longer takes. -/
def endsSession (c : Call) (s : Session) : Bool := c.action = .logout || c.expires s

theorem endsSession_of_expires {c : Call} {s : Session} (hc : c.action = .getUsers) :
    c.endsSession s = c.expires s := by
  simp [endsSession, hc]

theorem expires_of_ne {c : Call} (s : Session) (hc : c.action ≠ .getUsers) :
    c.expires s = false := by
  simp [expires, hc]

/-- A call stores the record of a login response, removes the entry `user`, or leaves the session
as it was; and a login answers success exactly if it stored a record whose answer can be
encoded. -/
theorem after_cases (c : Call) (s : Session) :
    (∃ data role, c.LoggedIn data role ∧
      c.after s = Function.update s "user" (userRecord data (strtolower role)) ∧
      (c.succeeds s = true ↔ (loginAnswer data (strtolower role)).encodable = true)) ∨
    (c.endsSession s = true ∧ c.action ≠ .login ∧ c.after s = Function.update s "user" .null) ∨
    (c.endsSession s = false ∧ (¬ ∃ data role, c.LoggedIn data role) ∧ c.after s = s ∧
      (c.action = .login → c.succeeds s = false)) := by
  by_cases hwrites : c.action ∈ sessionActions
  · simp only [sessionActions, List.mem_cons, List.not_mem_nil, or_false] at hwrites
    rcases hwrites with hc | hc | hc
    · -- `login`
      have hends : Ends c.env (.initial s) (c.action.run c.request) (LoginEnds c s) := by
        rw [hc]
        exact ends_login hc
      rcases Call.ends hends with ⟨hafter, hfails, hno⟩ | ⟨data, role, h⟩
      · exact .inr (.inr ⟨by simp [endsSession, expires, hc], hno, hafter, fun _ => hfails⟩)
      · exact .inl ⟨data, role, h⟩
    · -- `logout`
      refine .inr (.inl ⟨by simp [endsSession, hc], by rw [hc]; nofun, ?_⟩)
      unfold after result
      rw [hc]
      rfl
    · -- `getUsers`
      have hends : Ends c.env (.initial s) (c.action.run c.request)
          fun _ s' => GetUsersEnds c s s' := by
        rw [hc]
        exact ends_getUsers hc
      have hafter : c.after s = if c.expires s then Function.update s "user" .null else s :=
        Call.ends hends
      have hne : c.action ≠ .login := by
        rw [hc]
        nofun
      rw [endsSession_of_expires hc]
      cases hexp : c.expires s with
      | true => exact .inr (.inl ⟨rfl, hne, by rw [hafter, if_pos hexp]⟩)
      | false =>
        refine .inr (.inr ⟨rfl, fun ⟨data, role, h⟩ => hne h.action, ?_, fun h => absurd h hne⟩)
        rw [hafter, if_neg (by simp [hexp])]
  · have hne : ∀ a ∈ sessionActions, c.action ≠ a := fun a ha h => hwrites (h ▸ ha)
    have hlogin : c.action ≠ .login := hne .login (by decide)
    refine .inr (.inr ⟨?_, fun ⟨data, role, h⟩ => hlogin h.action, ?_, fun h => absurd h hlogin⟩)
    · simp [endsSession, hne .logout (by decide), expires_of_ne s (hne .getUsers (by decide))]
    · exact c.action.frame_session c.request hwrites c.env (.initial s)

/-- No call writes another entry than `user`. -/
theorem after_of_ne (c : Call) (s : Session) {key : String} (hkey : key ≠ "user") :
    c.after s key = s key := by
  rcases c.after_cases s with ⟨data, role, -, h, -⟩ | ⟨-, -, h⟩ | ⟨-, -, h, -⟩
  · rw [h, Function.update_of_ne hkey]
  · rw [h, Function.update_of_ne hkey]
  · rw [h]

end Call

/-! ### Reachable sessions -/

/-- The session of a new visitor. -/
def emptySession : Session := fun _ => .null

/-- There is no user, or a record that `login` stored. -/
def StoredUser (s : Session) : Prop :=
  s "user" = .null ∨ ∃ data role, s "user" = userRecord data role

theorem storedUser_after {s : Session} (c : Call) (h : StoredUser s) : StoredUser (c.after s) := by
  rcases c.after_cases s with ⟨data, role, -, hafter, -⟩ | ⟨-, -, hafter⟩ | ⟨-, -, hafter, -⟩
  · rw [hafter]
    exact .inr ⟨data, _, Function.update_self ..⟩
  · rw [hafter]
    exact .inl (Function.update_self ..)
  · rw [hafter]
    exact h

/-- After any run of calls the entry `user` is absent or a record of `login`. -/
theorem storedUser_run (run : List Call) : StoredUser (run.foldl Call.after emptySession) :=
  Run.invariant (C := fun _ _ => True) (fun _ c h _ => storedUser_after c h) (.inl rfl)
    (Run.along_of_forall fun _ _ => trivial)

end Artha.ApiController
