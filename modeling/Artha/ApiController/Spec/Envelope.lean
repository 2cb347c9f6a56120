import Artha.ApiController.Spec.Honest
import Artha.ApiController.Spec.Session

/-!
# What escapes an action

Every action answers a failure with the error envelope, if it answers: `catch (\Exception $e)` lets
an `\Error` through, and a message that is not UTF-8 makes `response()->json` raise inside the
`catch` block.  Both depend on what the remote service answers.  `Graceful` is the exact condition
on its behaviour under which a call of a reachable session answers in the envelope
(`enveloped_iff`).

`Catches env st m p` says that whatever `m` raises is turned into an answer if and only if `p`.
There is one rule per reply; the calls themselves go through `Asks`.
-/

namespace Artha.ApiController

open Php Laravel Eff

/-! ### Throwables and the `catch` block -/

/-- The text can be encoded. -/
def isUtf8 : Text → Bool
  | .utf8 _ => true
  | .bytes _ _ => false

/-- The `catch` block turns the throwable into an answer. -/
def catchable : Throwable → Bool
  | .exception message => isUtf8 message
  | .error _ => false

/-- Run from `st`, `m` answers or raises something catchable if and only if `p`. -/
def Catches (env : Env) (st : St) (m : Php Response) (p : Prop) : Prop :=
  wp m env (fun _ _ => p) (fun e _ => catchable e = true ↔ p) st

variable {env : Env} {st : St} {p : Prop}

theorem catches_congr {m : Php Response} {p' : Prop} (h : Catches env st m p') (hp : p' ↔ p) :
    Catches env st m p := by
  rwa [← propext hp]

/-- The `catch` block answers what is catchable and raises the rest. -/
theorem catches_attempt (failure : String) {body : Php Response} (h : Catches env st body p) :
    wp (attempt failure body) env (fun _ _ => p) (fun _ _ => ¬ p) st := by
  rw [wp_attempt]
  refine wp_mono h (fun _ _ hp => hp) fun e st' hp => ?_
  rcases e with (message | ⟨b, hb⟩) | message
  · exact hp.mp rfl
  · exact fun hyes => Bool.false_ne_true (hp.mpr hyes)
  · exact fun hyes => Bool.false_ne_true (hp.mpr hyes)

theorem catches_return (r : Response) : Catches env st (pure r) True := trivial

theorem catches_throw (e : Throwable) : Catches env st (throw e) (catchable e = true) := Iff.rfl

theorem catches_ite {c : Prop} [Decidable c] {m n : Php Response} {p' : Prop}
    (hm : Catches env st m p) (hn : Catches env st n p') :
    Catches env st (if c then m else n) (if c then p else p') := by
  split
  · exact hm
  · exact hn

/-- Data that cannot be encoded raise an exception with a message of the framework's own. -/
theorem catches_json (data : Value) : Catches env st (json data) True := by
  unfold Catches
  rw [wp_json]
  split
  · trivial
  · exact iff_of_true rfl trivial

theorem catches_answerData (r : HttpResponse) : Catches env st (answerData r) True := by
  unfold Catches
  rw [answerData, wp_bind, wp_decode]
  exact catches_json _

theorem catches_throwBody (literal : String) (r : HttpResponse) :
    Catches env st (throwBody literal r) (isUtf8 r.body = true) := by
  unfold throwBody
  cases hbody : r.body with
  | utf8 s => exact catches_throw _
  | bytes b h => exact catches_throw _

/-- The message of the backend is passed to the constructor of the exception, which takes no
array. -/
theorem catches_throwBackendMessage (r : HttpResponse) :
    Catches env st (throwBackendMessage r)
      (isUtf8 r.body = true ∧ ∀ es, (env.json r).getD "message" .null ≠ .arr es) := by
  unfold Catches throwBackendMessage
  rw [wp_bind, wp_decode]
  cases hbody : r.body with
  | bytes b h =>
    have hnull : env.json r = .null := by rw [Env.json, hbody]
    rw [hnull]
    exact ⟨fun h => absurd h Bool.false_ne_true, fun h => absurd h.1 Bool.false_ne_true⟩
  | utf8 s =>
    cases hm : (env.json r).getD "message" .null with
    | null => exact iff_of_true rfl ⟨rfl, nofun⟩
    | arr es =>
      rw [wp_bind, wp_stringParam]
      refine ⟨nofun, fun e he => ?_⟩
      obtain rfl := Except.error.inj he
      exact ⟨fun h => absurd h Bool.false_ne_true, fun h => absurd rfl (h.2 es)⟩
    | bool b | int n | float bits | str t =>
      rw [wp_bind, wp_stringParam]
      exact ⟨fun _ _ => iff_of_true rfl ⟨rfl, nofun⟩, nofun⟩

/-! ### `login` -/

/-- A refusal of the backend is matched or can be passed on. -/
theorem catches_loginRefused (r : HttpResponse) :
    Catches env st (loginRefused r)
      (r.body.contains "Invalid email" = true ∨ r.body.contains "Invalid password" = true ∨
        isUtf8 r.body = true) := by
  refine catches_congr (catches_ite (catches_return _)
    (catches_ite (catches_return _) (catches_throw _))) ?_
  cases r.body.contains "Invalid email" with
  | true => simp
  | false => cases r.body.contains "Invalid password" <;> simp [catchable]

/-- A record that lacks what `login` asks for, or whose role is no array. -/
def Loggable (data : Value) : Prop :=
  (∃ es, data = .arr es) ∧
    ((∃ key ∈ ["token", "email", "name"], data.isSet key = false) ∨
      ∀ es, data.getD "role" (.str "customer") ≠ .arr es)

theorem hasLogin_eq_false {data : Value} :
    hasLogin data = false ↔ ∃ key ∈ ["token", "email", "name"], data.isSet key = false := by
  rw [hasLogin, Bool.and_eq_false_iff, Bool.and_eq_false_iff, or_assoc]
  simp

theorem catches_loginAccepted (r : HttpResponse) :
    Catches env st (loginAccepted r) (Loggable (env.json r)) := by
  unfold Catches
  rw [wp_loginAccepted]
  refine ⟨fun hno => ?_, fun harray hmissing => ?_, fun harray hfields => ⟨?_, fun e he => ?_⟩⟩
  · refine ⟨fun h => absurd h Bool.false_ne_true, fun h => ?_⟩
    obtain ⟨⟨es, hes⟩, -⟩ := h
    exact absurd hes (hno es)
  · -- an exception of the program's own
    exact iff_of_true rfl ⟨harray, .inl (hasLogin_eq_false.mp hmissing)⟩
  · intro role hrole
    have hlog : Loggable (env.json r) := by
      refine ⟨harray, .inr fun es hes => ?_⟩
      rw [hes] at hrole
      cases hrole
    exact catches_congr (catches_json _) (iff_of_true trivial hlog)
  · -- only an array has no text, and it is not caught
    cases hrole : (env.json r).getD "role" (.str "customer") with
    | arr es =>
      rw [hrole] at he
      obtain rfl := Except.error.inj he
      refine ⟨fun h => absurd h Bool.false_ne_true, fun h => ?_⟩
      rcases h.2 with hno | hno
      · rw [hasLogin_eq_false.mpr hno] at hfields
        cases hfields
      · exact absurd hrole (hno es)
    | null | bool b | int n | float bits | str t =>
      rw [hrole] at he
      cases he

/-! ### Calls -/

/-- The outcome of a request: a failure has a message that can be encoded, a response satisfies
`P`. -/
def OutcomeOk (P : HttpResponse → Prop) : Outcome → Prop
  | .failed message => isUtf8 message = true
  | .response r => P r

/-- A computation that asks for a request, and raises no `\Error` before. -/
theorem Asks.catches {m : Php Response} {o : Option HttpRequest} {k : HttpResponse → Php Response}
    {P : HttpRequest → HttpResponse → Prop} (h : Asks env st p m o k) (hp : ¬ p)
    (hk : ∀ q r, Catches env (st.record ⟨q, .response r⟩) (k r) (P q r)) :
    Catches env st m
      (∀ q ∈ o.filter HttpRequest.encodable, OutcomeOk (P q) (env.remote st.trace q)) := by
  refine h.elim (fun ho x hx => ?_) fun q ho => ?_
  · subst ho
    cases hx with
    | answer message _ => simp
    | exception message => exact iff_of_true rfl (by simp)
    | error message hp' => exact absurd hp' hp
  · subst ho
    rw [wp_bind, wp_sent]
    refine ⟨fun hq => ?_, fun r hq hr => ?_, fun message hq hr => ?_⟩
    · exact iff_of_true rfl (by simp [Option.filter_some, hq])
    · refine catches_congr (hk q r) ?_
      simp [Option.filter_some, hq, hr, OutcomeOk]
    · simp [Option.filter_some, hq, hr, OutcomeOk, catchable]

/-! ### The payment -/

/-- The payment service's answer is successful or can be passed on. -/
def PaymentOk (m : HttpResponse) : Prop := m.successful = true ∨ isUtf8 m.body = true

/-- The second half of a checkout: the transaction the backend answers with is not a JSON string,
and the payment, if one is asked for, has an outcome that can be passed on. -/
def CheckoutOk (env : Env) (user : Value) (before : List Exchange) (r : HttpResponse) : Prop :=
  (∀ t, env.json r ≠ .str t) ∧
    ∀ q ∈ (paymentBuilt env user r).filter HttpRequest.encodable,
      OutcomeOk PaymentOk (env.remote before q)

theorem catches_paymentReply (transaction : Value) (m : HttpResponse) :
    Catches env st (paymentReply transaction m) (PaymentOk m) := by
  unfold paymentReply PaymentOk
  cases m.successful with
  | true =>
    unfold Catches
    simp only [if_true, wp_bind, wp_decode]
    exact catches_congr (catches_json _) (by simp)
  | false => exact catches_congr (catches_throwBody _ m) (by simp)

/-- An offset into a JSON string is a `TypeError`. -/
theorem run_createPayment_of_str (user : Value) {r : HttpResponse} {t : String}
    (h : env.json r = .str t) :
    (createPayment user r).run env st
      = (.error (.error "Cannot access offset of type string on string"), st) := by
  have hdecode : (decode r).run env st = (.ok (.str t), st) := by
    rw [← h]
    rfl
  -- the configuration can be read, so the first field of the transaction is what raises
  rw [createPayment, run_bind_of_ok hdecode]
  rfl

theorem catches_createPayment {user : Value} (huser : ∀ t, user ≠ .str t) (r : HttpResponse) :
    Catches env st (createPayment user r) (CheckoutOk env user st.trace r) := by
  by_cases hstr : ∃ t, env.json r = .str t
  · obtain ⟨t, ht⟩ := hstr
    unfold Catches wp
    rw [run_createPayment_of_str user ht]
    exact ⟨fun h => absurd h Bool.false_ne_true, fun h => absurd ht (h.1 t)⟩
  · have hp : ¬ ((∃ t, env.json r = .str t) ∨ ∃ t, user = .str t) := by
      rintro (h | ⟨t, ht⟩)
      · exact hstr h
      · exact huser t ht
    refine catches_congr ((asks_createPayment user r).catches hp
      fun _ m => catches_paymentReply _ m) ?_
    exact ⟨fun h => ⟨fun t ht => hstr ⟨t, ht⟩, h⟩, fun h => h.2⟩

/-! ### The actions -/

namespace Action

/-- The answer to a response that is not successful is one of the action's own. -/
def RefusedOk (env : Env) (r : HttpResponse) : Action → Prop
  | .login => r.body.contains "Invalid email" = true ∨
    r.body.contains "Invalid password" = true ∨ isUtf8 r.body = true
  | .createAccount | .deleteUser =>
    isUtf8 r.body = true ∧ ∀ es, (env.json r).getD "message" .null ≠ .arr es
  | .getUsers => r.status = 401 ∨ isUtf8 r.body = true
  | _ => isUtf8 r.body = true

/-- The answer to a successful response is one of the action's own. -/
def AcceptedOk (env : Env) (user : Value) (before : List Exchange) (r : HttpResponse) :
    Action → Prop
  | .login => Loggable (env.json r)
  | .checkout => CheckoutOk env user before r
  | _ => True

/-- The response is one the action can answer. -/
def ReplyOk (env : Env) (user : Value) (before : List Exchange) (r : HttpResponse) (a : Action) :
    Prop :=
  if r.successful then a.AcceptedOk env user before r else a.RefusedOk env r

theorem catches_refused (a : Action) (r : HttpResponse) :
    Catches env st (a.refused r) (a.RefusedOk env r) := by
  cases a with
  | login => exact catches_loginRefused r
  | midtransWebhook => exact catches_throwBody _ r
  | createAccount | deleteUser => exact catches_throwBackendMessage r
  | getUsers =>
    unfold refused RefusedOk
    by_cases h401 : r.status = 401
    · rw [if_pos h401]
      exact .inl h401
    · rw [if_neg h401]
      exact catches_congr (catches_throw _) (by simp [h401, catchable])
  | _ => exact catches_throw _

theorem catches_accepted {user : Value} (huser : ∀ t, user ≠ .str t) (a : Action)
    (r : HttpResponse) : Catches env st (a.accepted user r) (a.AcceptedOk env user st.trace r) := by
  cases a with
  | login => exact catches_loginAccepted r
  | checkout => exact catches_createPayment huser r
  | midtransWebhook => exact catches_json _
  | signup | createAccount | insertProductAndStock | updateProductStock | insertRawMaterial
  | deleteUser | deleteRawMaterial | deleteStock | deleteCartItems =>
    exact catches_json (successMessage _)
  | proxyToGo | getStocksForSales | getRawMaterialsForSales =>
    unfold Catches accepted
    simp only [wp_bind, wp_decode]
    exact catches_json _
  | _ => exact catches_answerData r

end Action

/-! ### Whole calls -/

/-- The call answers in JSON, and with the error envelope if a remote request failed. -/
def Enveloped (c : Call) (s : Session) : Prop :=
  ∃ response, c.Answers s response ∧ (∃ status data, response = .json status data) ∧
    ((∃ x ∈ c.trace s, x.succeeded = false) → IsError response)

/-- The remote service gives the request of the call, if there is one, an outcome the action can
answer. -/
def Graceful (c : Call) (s : Session) : Prop :=
  ∀ q ∈ c.action.outgoing c.env c.request s,
    OutcomeOk (fun r => c.action.ReplyOk c.env (s "user") [⟨q, .response r⟩] r)
      (c.env.remote [] q)

/-- A record of `login` is not a string. -/
theorem StoredUser.ne_str {s : Session} (h : StoredUser s) (t : String) : s "user" ≠ .str t := by
  intro hstr
  rcases h with hnull | ⟨data, role, hrecord⟩
  · rw [hnull] at hstr
    cases hstr
  · rw [hrecord] at hstr
    cases hstr

/-- A call answers exactly if the remote service is graceful. -/
theorem Call.answers_iff {c : Call} {s : Session} (hc : c.action ≠ .logout) (hs : StoredUser s) :
    (∃ response, c.Answers s response) ↔ Graceful c s := by
  obtain ⟨body, hrun, hasks⟩ := c.action.shape hc c.request c.env (.initial s)
  have hbody : Catches c.env (.initial s) body (Graceful c s) := by
    refine hasks.catches (fun ⟨t, ht⟩ => hs.ne_str t ht) fun q r => ?_
    exact catches_ite (c.action.catches_accepted hs.ne_str r) (c.action.catches_refused r)
  have hattempt := catches_attempt c.action.failure hbody
  rw [← hrun] at hattempt
  unfold Call.Answers Call.result
  unfold wp at hattempt
  split at hattempt
  · next response st' hr =>
    rw [hr]
    exact iff_of_true ⟨response, rfl⟩ hattempt
  · next e st' hr =>
    rw [hr]
    exact iff_of_false nofun hattempt

/-- What a call answers is JSON, and the error envelope if a remote request failed. -/
theorem Call.candid {c : Call} {s : Session} (hc : c.action ≠ .logout) {response : Response}
    (h : c.Answers s response) : (∃ status data, response = .json status data) ∧
      ((∃ x ∈ c.trace s, x.succeeded = false) → IsError response) := by
  have hcandid : Candid response (c.result s).2 :=
    wp_ok (c.action.candid hc c.request c.env (.initial s) (by simp [AllSucceeded]))
      (Prod.ext h rfl)
  rcases hcandid with ⟨status, message, rfl, hstatus⟩ | ⟨hjson, -, hall⟩
  · exact ⟨⟨status, _, rfl⟩, fun _ => ⟨status, message, rfl, hstatus⟩⟩
  · refine ⟨hjson, ?_⟩
    rintro ⟨x, hx, hfailed⟩
    rw [hall x hx] at hfailed
    cases hfailed

/-- In every session reached by any run of calls, with any remote services: a call that talks to a
remote service answers in the envelope exactly when the outcome of its request is one the action
can answer. -/
theorem enveloped_iff (run : List Call) (c : Call) (hc : c.action ≠ .logout) :
    Enveloped c (run.foldl Call.after emptySession) ↔
      Graceful c (run.foldl Call.after emptySession) := by
  rw [← Call.answers_iff hc (storedUser_run run)]
  constructor
  · rintro ⟨response, h, -⟩
    exact ⟨response, h⟩
  · rintro ⟨response, h⟩
    exact ⟨response, h, Call.candid hc h⟩

/-! ### A backend that answers a number -/

/-- A login whose backend answers 200 with this JSON. -/
def loginAnsweredWith (body : String) (data : Value) : Call where
  action := .login
  request :=
    { verb := .post, path := "login", authorization := none,
      input := [("email", .str "a@artha.test"), ("password", .str "password")] }
  env := .answering (fun _ => data) (.response ⟨200, .utf8 body⟩)

/-- An object without the fields is answered in the envelope. -/
theorem enveloped_of_object :
    Enveloped (loginAnsweredWith "\x7b\x7d" (.arr []))
      (List.foldl Call.after emptySession []) := by
  refine (enveloped_iff [] (loginAnsweredWith "\x7b\x7d" (.arr [])) nofun).mpr fun q hq => ?_
  exact ⟨⟨[], rfl⟩, .inl ⟨"token", by decide, by decide⟩⟩

/-- A number is passed to `Log::info` as the context, and the `TypeError` is not caught. -/
theorem login_raises_on_number :
    ¬ ∀ (run : List Call) (c : Call), c.action ≠ .logout →
      Enveloped c (run.foldl Call.after emptySession) := by
  intro h
  obtain ⟨response, hanswer, -⟩ := h [] (loginAnsweredWith "1" (.int 1)) nofun
  have hraise : (Call.result (loginAnsweredWith "1" (.int 1)) emptySession).1
      = .error (.error "Argument #2 ($context) must be of type array") := rfl
  have hanswer' : (Call.result (loginAnsweredWith "1" (.int 1)) emptySession).1 = .ok response :=
    hanswer
  rw [hraise] at hanswer'
  cases hanswer'

end Artha.ApiController
