import Artha.ApiController.Spec.Identity
import Artha.Client.Spec.Storage
import Artha.Dashboard.Spec.Answers
import Artha.Login.Page
import Artha.Routes.Spec.Sessions

/-!
# Browser and session hold the same credentials

The dashboards send the token of `localStorage` to the backend, the controller sends that of its
session.  The two agree whenever no answer is under way, or one of the two is gone, in every run in
which the answers arrive in the order in which they were given: after such a run, what the
controller sends with a token is sent with the browser's token (`credentials_agree`).  It needs that
no answer is lost, and that the backend's tokens are texts in answers that can be given.
-/

namespace Artha.Login

open Php Laravel ApiController Client Dashboard Routes Eff

variable {T : Texts}

/-! ### What `login` answers -/

/-- The answers of `login`: the error envelope, or that of a login. -/
def LoginAnswers (c : Call) (r : Response) : Prop :=
  IsError r ∨ ∃ data role, c.LoggedIn data role ∧ r = .json 200 (loginAnswer data (strtolower role))

variable {c : Call} {s : Session}

theorem answers_loginAccepted {r : HttpResponse} {st : St} (hc : c.action = .login)
    (hacc : accepts c.env.rules c.request.all loginRules = true)
    (hr : c.env.remote [] (loginRequest c.request) = .response r) (hok : r.successful = true) :
    wp (loginAccepted r) c.env (fun r _ => LoginAnswers c r) (fun _ _ => True) st := by
  rw [wp_loginAccepted]
  refine ⟨fun _ => trivial, fun _ _ => trivial, fun harray hfields => ⟨?_, fun _ _ => trivial⟩⟩
  intro role hrole
  simp only [hasLogin, Bool.and_eq_true] at hfields
  obtain ⟨⟨htoken, hemail⟩, hname⟩ := hfields
  have hin : c.LoggedIn (c.env.json r) role :=
    ⟨hc, hacc, ⟨r, hr, hok, rfl⟩, harray, htoken, hemail, hname, hrole⟩
  rw [wp_json]
  split
  · exact .inr ⟨_, role, hin, rfl⟩
  · trivial

theorem answers_login (hc : c.action = .login) :
    wp (login c.request) c.env (fun r _ => LoginAnswers c r) (fun _ _ => True) (.initial s) := by
  have hcaught : ∀ e st', wp (caught "Failed to login: " e) c.env (fun r _ => LoginAnswers c r)
      (fun _ _ => True) st' := by
    intro e st'
    exact wp_mono (refuses_caught _ e c.env st' trivial) (fun _ _ h => .inl h) fun _ _ h => h
  rw [login, wp_attempt]
  refine wp_mono (E := fun _ _ => True) ?_ (fun _ _ h => h) fun e st' _ => hcaught e st'
  rw [wp_validated]
  refine ⟨fun message _ => .inl (isError_errorJson message (by omega)), fun hacc => ?_⟩
  rw [wp_bind, wp_sent]
  refine ⟨fun _ => trivial, fun r _ hr => ?_, fun _ _ _ => trivial⟩
  rw [wp_ite]
  split
  · exact wp_mono (refuses_loginRefused r c.env _ trivial) (fun _ _ h => .inl h) fun _ _ h => h
  · next hok => exact answers_loginAccepted hc hacc hr (by simpa using hok)

theorem loginAnswers_of_result (hc : c.action = .login) {r : Response}
    (h : (c.result s).1 = .ok r) : LoginAnswers c r := by
  have hwp : wp (c.action.run c.request) c.env (fun r _ => LoginAnswers c r) (fun _ _ => True)
      (.initial s) := by
    rw [hc]
    exact answers_login hc
  exact wp_ok hwp (Prod.ext h rfl)

/-- A login answers its record and stores it, or it answers an error and changes nothing. -/
theorem login_cases (hc : c.action = .login) (hanswerable : Answerable c) (s : Session) :
    (∃ data role, c.LoggedIn data role ∧
      (c.result s).1 = .ok (.json 200 (loginAnswer data (strtolower role))) ∧
      c.after s = Function.update s "user" (userRecord data (strtolower role))) ∨
    ((∀ r, (c.result s).1 = .ok r → IsError r) ∧ c.after s = s) := by
  rcases c.after_cases s with ⟨data, role, hin, hafter, hsucc⟩ | ⟨-, hne, -⟩ | ⟨-, hno, hafter, -⟩
  · have hs := hanswerable.succeeds hin hsucc
    unfold Call.succeeds at hs
    split at hs
    · next r hr =>
      rcases loginAnswers_of_result hc hr with ⟨status, message, rfl, -⟩ | ⟨data', role', hin', rfl⟩
      · rw [succeeds_errorJson] at hs
        cases hs
      · obtain ⟨rfl, rfl⟩ := hin.unique hin'
        exact .inl ⟨data, role, hin, hr, hafter⟩
    · cases hs
  · exact absurd hc hne
  · refine .inr ⟨fun r hr => ?_, hafter⟩
    rcases loginAnswers_of_result hc hr with herror | ⟨data, role, hin, -⟩
    · exact herror
    · exact absurd ⟨data, role, hin⟩ hno

/-! ### What the page stores -/

/-- The token that an answer leaves in a browser without one. -/
def answerToken (T : Texts) (answer : Except Throwable Response) : Option String :=
  ((Page.waiting .start).answered T answer).browser.token

theorem token_handleRedirect (page : Page) (data : Value) :
    (page.handleRedirect T data).browser.token =
      ((Page.waiting .start).handleRedirect T data).browser.token.or page.browser.token := by
  unfold Page.handleRedirect
  split
  · split
    · dsimp only
      split <;> rfl
    · rfl
  · rfl
  · rfl

theorem token_answered (page : Page) (answer : Except Throwable Response) :
    (page.answered T answer).browser.token = (answerToken T answer).or page.browser.token := by
  unfold answerToken
  match answer with
  | .ok (.json status data) =>
    by_cases hstatus : 200 ≤ status ∧ status < 300
    · simp only [Page.answered, if_pos hstatus]
      exact token_handleRedirect page data
    · simp only [Page.answered, if_neg hstatus]
      rfl
  | .ok (.redirect path flash) => rfl
  | .ok (.view name) => rfl
  | .error e => rfl

/-- `data` in the answer of a login. -/
def loginData (data : Value) (role : String) : Value :=
  .arr [("token", data.getD "token" .null), ("email", data.getD "email" .null),
    ("name", data.getD "name" .null), ("role", .str role)]

theorem member_loginAnswer (data : Value) (role name : String) :
    member (some (loginAnswer data role)) name = .ok ([("status", .str "success"),
      ("data", loginData data role), ("redirect", .str (getRedirectUrl role))].lookup name) :=
  member_of_key (by decide) _ _ _

theorem member_loginData (data : Value) (role name : String) :
    member (some (loginData data role)) name = .ok ([("token", data.getD "token" .null),
      ("email", data.getD "email" .null), ("name", data.getD "name" .null),
      ("role", .str role)].lookup name) :=
  member_of_key (by decide) _ _ _

theorem isTruthy_redirect (role : String) :
    isTruthy (some (.str (getRedirectUrl role))) = true := by
  unfold getRedirectUrl
  split <;> decide

/-- What the page makes of the answer to a login. -/
theorem answered_login (b : Browser) {data : Value} {role t : String}
    (htoken : data.getD "token" .null = .str t) :
    (Page.waiting b).answered T (.ok (.json 200 (loginAnswer data role))) =
      { browser := Browser.leave
          { b with user := some (T.stringify (loginData data role)), token := some t }
        error := none
        disabled := true
        location := some (getRedirectUrl role) } := by
  have hstatus : member (some (loginAnswer data role)) "status" = .ok (some (.str "success")) :=
    member_loginAnswer data role "status"
  have hdata : member (some (loginAnswer data role)) "data" = .ok (some (loginData data role)) :=
    member_loginAnswer data role "data"
  have hredirect : (member (some (loginAnswer data role)) "redirect").toOption.join =
      some (.str (getRedirectUrl role)) := by
    rw [member_loginAnswer]
    rfl
  have htoken' : (member (some (loginData data role)) "token").toOption.join = some (.str t) := by
    rw [member_loginData, htoken]
    rfl
  have hrole : (member (some (loginData data role)) "role").toOption.join = some (.str role) := by
    rw [member_loginData]
    rfl
  have htruthy : isTruthy (some (loginData data role)) = true := rfl
  -- an empty role is the empty text too
  have hkeep : (if isTruthy (some (.str role)) then some (.str role) else some (.str "")) =
      some (Value.str role) := by
    split
    · rfl
    · next hempty =>
      have hnil : role = "" := by simpa [isTruthy] using hempty
      rw [hnil]
  have hok : 200 ≤ 200 ∧ 200 < 300 := by omega
  simp only [Page.answered, if_pos hok, Page.handleRedirect, hstatus, hdata, htruthy, if_true,
    htoken', hrole, hkeep, hredirect, isTruthy_redirect, T.toText_str]
  rfl

theorem answerToken_login {data : Value} {role t : String}
    (htoken : data.getD "token" .null = .str t) :
    answerToken T (.ok (.json 200 (loginAnswer data role))) = some t := by
  rw [answerToken, answered_login _ htoken]
  rfl

theorem answerToken_error {answer : Except Throwable Response}
    (h : ∀ r, answer = .ok r → IsError r) : answerToken T answer = none := by
  match answer with
  | .ok r =>
    obtain ⟨status, message, rfl, hlow, -⟩ := h r rfl
    have hnot : ¬(200 ≤ status ∧ status < 300) := by omega
    simp only [answerToken, errorJson, Page.answered, if_neg hnot]
    rfl
  | .error e => rfl

/-! ### Agreement -/

/-- The token once all answers under way have arrived. -/
def tokenAfter (T : Texts) (token : Option String) (answers : List (Except Throwable Response)) :
    Option String :=
  answers.foldl (fun token answer => (answerToken T answer).or token) token

/-- There is no user in the session, no token in the browser, or the token is the session's. -/
def Agree (token : Option String) (s : Session) : Prop :=
  s "user" = .null ∨ token = none ∨ ∃ t, tokenOf s = .str t ∧ token = some t

/-- Once everything has arrived, browser and session agree. -/
def Inv (T : Texts) (sys : System) : Prop :=
  Agree (tokenAfter T sys.browser.token sys.inFlight) sys.session

/-- The backend's token for a login is a text. -/
def TextToken (c : Call) : Prop :=
  ∀ data role, c.LoggedIn data role → ∃ t, data.getD "token" .null = .str t

/-- The answers arrive in order, and none is lost; a login can be answered, with a text for a
token. -/
def Orderly (_ : System) : Event → Prop
  | .submit request env => Answerable (loginCall request env) ∧ TextToken (loginCall request env)
  | .arrive i => i = 0
  | .lose _ => False
  | .call _ _ => True
  | .script _ _ => True

/-- Without a token in the browser, the next one comes from an answer under way. -/
theorem tokenAfter_none (token : Option String) (answers : List (Except Throwable Response)) :
    tokenAfter T none answers = none ∨ tokenAfter T none answers = tokenAfter T token answers := by
  induction answers generalizing token with
  | nil => exact .inl rfl
  | cons answer answers ih =>
    cases hanswer : answerToken T answer with
    | none =>
      have hstep : ∀ o, tokenAfter T o (answer :: answers) = tokenAfter T o answers := by
        intro o
        rw [tokenAfter, List.foldl_cons, hanswer, Option.none_or]
        rfl
      rw [hstep, hstep]
      exact ih token
    | some t =>
      have hstep : ∀ o, tokenAfter T o (answer :: answers) = tokenAfter T (some t) answers := by
        intro o
        rw [tokenAfter, List.foldl_cons, hanswer, Option.some_or]
        rfl
      rw [hstep, hstep]
      exact .inr rfl

theorem agree_of_dropped {token : Option String} {answers : List (Except Throwable Response)}
    (h : Agree (tokenAfter T token answers) s) : Agree (tokenAfter T none answers) s := by
  rcases @tokenAfter_none T token answers with hnone | hsame
  · exact .inr (.inl hnone)
  · rwa [hsame]

/-- The other scripts keep the token or remove it. -/
theorem token_step (b : Browser) {e : Client.Event}
    (h : ∀ user token, e ≠ .handleRedirect user token) :
    (b.step e).token = b.token ∨ (b.step e).token = none := by
  cases e with
  | handleRedirect user token => exact absurd rfl (h user token)
  | startUp expired => exact .inl (storage_startUp b expired).2
  | refreshSession => exact .inl (storage_refreshSession b).2
  | clearSession => exact .inl rfl
  | logout => exact .inr rfl
  | logoutCustomer => exact .inr rfl
  | interceptor => exact .inr rfl
  | sessionExpired => exact .inr rfl

theorem inv_submit {sys : System} {request : Request} {env : Env} (hi : Inv T sys)
    (hanswerable : Answerable (loginCall request env)) (htext : TextToken (loginCall request env)) :
    Inv T (sys.step T (.submit request env)) := by
  have hlast : ∀ answer, tokenAfter T sys.browser.token (sys.inFlight ++ [answer]) =
      (answerToken T answer).or (tokenAfter T sys.browser.token sys.inFlight) := by
    intro answer
    rw [tokenAfter, List.foldl_append]
    rfl
  show Agree (tokenAfter T sys.browser.token (sys.inFlight ++ [_])) (Call.after sys.session _)
  rw [hlast]
  rcases login_cases rfl hanswerable sys.session with ⟨data, role, hin, hresult, hafter⟩ |
    ⟨herror, hafter⟩
  · obtain ⟨t, ht⟩ := htext data role hin
    rw [hresult, hafter, answerToken_login ht]
    refine .inr (.inr ⟨t, ?_, rfl⟩)
    have htoken : tokenOf (Function.update sys.session "user"
        (userRecord data (strtolower role))) =
        (userRecord data (strtolower role)).getD "token" .null := by
      rw [tokenOf, Function.update_self]
    rw [htoken, userRecord, ht]
    rfl
  · rw [answerToken_error herror, hafter, Option.none_or]
    exact hi

theorem inv_event {sys : System} {event : Event} (hi : Inv T sys) (h : Orderly sys event) :
    Inv T (sys.step T event) := by
  cases event with
  | submit request env => exact inv_submit hi h.1 h.2
  | arrive i =>
    obtain rfl : i = 0 := h
    cases hflight : sys.inFlight with
    | nil =>
      simp only [System.step, hflight, List.getElem?_nil]
      exact hi
    | cons answer answers =>
      simp only [System.step, hflight, List.getElem?_cons_zero, List.eraseIdx_cons_zero]
      show Agree (tokenAfter T ((Page.waiting sys.browser).answered T answer).browser.token answers)
        sys.session
      unfold Inv at hi
      rw [hflight] at hi
      rw [token_answered]
      exact hi
  | lose i => cases h
  | call c hc =>
    show Agree (tokenAfter T sys.browser.token sys.inFlight) (c.after sys.session)
    rcases c.after_cases sys.session with ⟨data, role, hin, -⟩ | ⟨-, -, hafter⟩ | ⟨-, -, hafter, -⟩
    · exact absurd hin.action hc
    · rw [hafter]
      exact .inl (Function.update_self ..)
    · rw [hafter]
      exact hi
  | script e he =>
    show Agree (tokenAfter T (sys.browser.step e).token sys.inFlight) sys.session
    rcases token_step sys.browser he with hkept | hdropped
    · rw [hkept]
      exact hi
    · rw [hdropped]
      exact agree_of_dropped hi

/-! ### What is sent -/

/-- A request with the header. -/
def Bears (t : String) (q : HttpRequest) : Prop :=
  ("Authorization", Value.str ("Bearer " ++ t)) ∈ q.headers

theorem bears_bearing (q : HttpRequest) (t : String) :
    Bears t (bearing q (.str ("Bearer " ++ t))) := List.mem_cons_self

theorem bears_bearingJson (q : HttpRequest) (t : String) :
    Bears t (bearingJson q (.str ("Bearer " ++ t))) := List.mem_cons_self

theorem bears_of_withBearer {env : Env} {t : String} (htoken : tokenOf s = .str t)
    {f : Value → HttpRequest} (hf : Bears t (f (.str ("Bearer " ++ t)))) {q : HttpRequest}
    (h : withBearer env s f = some q) : Bears t q := by
  obtain ⟨t', htext, rfl⟩ := withBearer_eq_some h
  rw [htoken] at htext
  obtain rfl : t = t' := Option.some.inj htext
  exact hf

theorem bears_of_built {env : Env} {request : Request} {a : Action} (ha : a ∈ tokenActions)
    {t : String} (htoken : tokenOf s = .str t) {q : HttpRequest}
    (h : a.built env request s = some q) : Bears t q := by
  simp only [tokenActions, List.mem_cons, List.not_mem_nil, or_false] at ha
  rcases ha with rfl | rfl | rfl | rfl | rfl | rfl | rfl | rfl
  · -- `createAccount`
    have hguarded := eq_some_of_whenAccepted h
    unfold whenToken at hguarded
    split at hguarded
    · cases hguarded
    · obtain ⟨role, -, hmap⟩ := Option.bind_eq_some_iff.mp hguarded
      have hauthorization : authorizationOf env s = some (.str ("Bearer " ++ t)) := by
        rw [authorizationOf, htoken]
        rfl
      rw [hauthorization] at hmap
      obtain rfl := Option.some.inj hmap
      exact bears_bearingJson _ t
  · have hf : Bears t (getUsersRequest (.str ("Bearer " ++ t))) := List.mem_cons_self
    exact bears_of_withBearer htoken hf h
  · -- `deleteUser`
    simp only [Action.built] at h
    split at h
    · cases h
    · exact bears_of_withBearer htoken (bears_bearingJson _ t) h
  · have hguarded := eq_some_of_whenUser (eq_some_of_whenAccepted h)
    exact bears_of_withBearer htoken (bears_bearingJson _ t) hguarded
  · exact bears_of_withBearer htoken (bears_bearing _ t) (eq_some_of_whenUser h)
  · have hguarded := eq_some_of_whenUser (eq_some_of_whenAccepted h)
    exact bears_of_withBearer htoken (bears_bearingJson _ t) hguarded
  · exact bears_of_withBearer htoken (bears_bearing _ t) h
  · exact bears_of_withBearer htoken (bears_bearing _ t) h

theorem bears_of_trace (hc : c.action ∈ tokenActions) {t : String} (htoken : tokenOf s = .str t) :
    ∀ x ∈ c.trace s, Bears t x.request := by
  have hne : c.action ≠ .checkout := by
    intro hcheckout
    rw [hcheckout] at hc
    exact absurd hc (by decide)
  intro x hx
  rw [c.trace_eq s hne] at hx
  cases hout : c.action.outgoing c.env c.request s with
  | none =>
    rw [hout] at hx
    cases hx
  | some q =>
    rw [hout, Option.map_some, Option.toList_some, List.mem_singleton] at hx
    rw [hx]
    exact bears_of_built hc htoken (Option.filter_eq_some_iff.mp hout).1

/-- Over any logins, actions and scripts, in any order, as long as the answers to the logins arrive
in order: when no answer is under way and the browser has a token, whatever an action sends with a
token is sent with that one. -/
theorem credentials_agree (T : Texts) (run : List Event)
    (hrun : Run.Along (System.step T) Orderly .start run)
    (hquiet : (run.foldl (System.step T) .start).inFlight = []) (t : String)
    (ht : (run.foldl (System.step T) .start).browser.token = some t) (c : Call)
    (hc : c.action ∈ tokenActions) :
    ∀ x ∈ c.trace (run.foldl (System.step T) .start).session, Bears t x.request := by
  have hstart : Inv T .start := .inl rfl
  have hi : Inv T (run.foldl (System.step T) .start) :=
    Run.invariant (fun _ _ hi h => inv_event hi h) hstart hrun
  unfold Inv at hi
  rw [hquiet, ht] at hi
  rcases hi with hnull | hnone | ⟨t', htoken, heq⟩
  · intro x hx
    rw [trace_of_no_user hc hnull] at hx
    cases hx
  · cases hnone
  · obtain rfl := Option.some.inj heq
    exact bears_of_trace hc htoken

/-! ### A customer logs in -/

/-- The backend's record of the customer `A`. -/
def customerLogin : Call :=
  loginWithToken "\x7b\"token\":\"t\",\"email\":\"a@artha.test\",\"name\":\"A\"\x7d" (.str "t")

/-- The texts of the answer to it. -/
def customerTexts : Texts where
  stringify := fun _ => "\x7b\"token\":\"t\",\"email\":\"a@artha.test\",\"name\":\"A\"," ++
    "\"role\":\"customer\"\x7d"
  toText := fun
    | some (.str s) => s
    | _ => "undefined"
  toText_str := fun _ => rfl

theorem loggedIn_customerLogin {data : Value} {role : String}
    (h : (loginCall customerLogin.request customerLogin.env).LoggedIn data role) :
    data = .arr [("token", .str "t"), ("email", .str "a@artha.test"), ("name", .str "A")] := by
  obtain ⟨r, hr, -, rfl⟩ := h.response
  obtain rfl := Outcome.response.inj hr
  rfl

theorem answerable_customerLogin :
    Answerable (loginCall customerLogin.request customerLogin.env) ∧
      TextToken (loginCall customerLogin.request customerLogin.env) := by
  refine ⟨?_, ?_⟩
  · intro data role h
    rw [loggedIn_customerLogin h]
    decide
  · intro data role h
    rw [loggedIn_customerLogin h]
    exact ⟨"t", rfl⟩

/-- The customer logs in, and the answer arrives. -/
def customerRun : List Event := [.submit customerLogin.request customerLogin.env, .arrive 0]

def customerCart : Call := { customerLogin with action := .getUserCart }

/-- The cart is asked for, with the token of the browser. -/
theorem credentials_agree_customer :
    customerCart.trace (customerRun.foldl (System.step customerTexts) .start).session ≠ [] ∧
      ∀ x ∈ customerCart.trace (customerRun.foldl (System.step customerTexts) .start).session,
        Bears "t" x.request := by
  have hrun : Run.Along (System.step customerTexts) Orderly .start customerRun :=
    ⟨answerable_customerLogin, rfl, trivial⟩
  exact ⟨by decide, credentials_agree customerTexts customerRun hrun rfl "t" rfl customerCart
    (by decide)⟩

/-! ### One login -/

theorem messageOr_ne_empty {v : Value} {fallback message : String}
    (hmessage : member (some v) "message" = .ok (some (.str message))) (hne : fallback ≠ "") :
    Page.messageOr T v fallback ≠ "" := by
  simp only [Page.messageOr, hmessage, T.toText_str]
  split
  · next htruthy => simpa [isTruthy] using htruthy
  · exact hne

/-- Some message is shown, and nothing else has changed. -/
def Refused (page : Page) (b : Browser) : Prop :=
  page.browser = b ∧ page.location = none ∧ page.disabled = false ∧
    ∃ message, page.error = some message ∧ message ≠ ""

theorem refused_showError (b : Browser) {message : String} (h : message ≠ "") :
    Refused ((Page.waiting b).showError message) b :=
  ⟨rfl, rfl, rfl, message, rfl, h⟩

theorem refused_answered (b : Browser) {answer : Except Throwable Response}
    (h : ∀ r, answer = .ok r → IsError r) : Refused ((Page.waiting b).answered T answer) b := by
  match answer with
  | .error e =>
    have hne : "An error occurred during login. Please try again." ≠ "" := by decide
    exact refused_showError b hne
  | .ok r =>
    obtain ⟨status, message, rfl, hlow, -⟩ := h r rfl
    have hnot : ¬(200 ≤ status ∧ status < 300) := by omega
    have hmember : member (some (errorData message)) "message" = .ok (some (.str message)) := by
      rw [errorData, member_of_key (by decide)]
      rfl
    have htruthy : Option.filter (fun v => isTruthy (some v)) (some (errorData message)) =
        some (errorData message) := rfl
    simp only [errorJson, Page.answered, if_neg hnot, Page.handleLoginError]
    refine refused_showError b ?_
    rw [← errorData, htruthy]
    dsimp only
    split
    · exact messageOr_ne_empty hmember (by decide)
    · split
      · exact messageOr_ne_empty hmember (by decide)
      · split
        · decide
        · split <;> decide

/-- Both sides hold the user with the same token and the page goes to the dashboard of the role, or
nothing is stored on either side and the page says why. -/
def AllOrNothing (T : Texts) (b : Browser) (s : Session) (c : Call) : Prop :=
  (∃ data role t, c.LoggedIn data role ∧
    c.after s "user" = userRecord data (strtolower role) ∧ tokenOf (c.after s) = .str t ∧
    (Page.waiting b).answered T (c.result s).1 =
      { browser := Browser.leave
          { b with
            user := some (T.stringify (loginData data (strtolower role))), token := some t }
        error := none
        disabled := true
        location := some (getRedirectUrl (strtolower role)) }) ∨
  c.after s = s ∧ Refused ((Page.waiting b).answered T (c.result s).1) b

/-- From every browser and every session, a form that is answered leaves both sides with the login
or without it. -/
theorem login_all_or_nothing (T : Texts) (b : Browser) (s : Session) (request : Request) (env : Env)
    (hanswerable : Answerable (loginCall request env)) (htext : TextToken (loginCall request env)) :
    AllOrNothing T b s (loginCall request env) := by
  rcases login_cases rfl hanswerable s with ⟨data, role, hin, hresult, hafter⟩ | ⟨herror, hafter⟩
  · obtain ⟨t, ht⟩ := htext data role hin
    refine .inl ⟨data, role, t, hin, ?_, ?_, ?_⟩
    · rw [hafter, Function.update_self]
    · rw [hafter, tokenOf, Function.update_self, userRecord, ht]
      rfl
    · rw [hresult, answered_login b ht]
  · exact .inr ⟨hafter, refused_answered b herror⟩

theorem login_all_or_nothing_customer :
    AllOrNothing customerTexts .start (fun _ => .null)
      (loginCall customerLogin.request customerLogin.env) :=
  login_all_or_nothing customerTexts .start _ _ _ answerable_customerLogin.1
    answerable_customerLogin.2

end Artha.Login
