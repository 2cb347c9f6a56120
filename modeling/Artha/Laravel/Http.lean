import Artha.Effect.Basic
import Artha.Laravel.Validator
import Mathlib.Logic.Function.Basic

/-!
# Requests, sessions and remote calls

The surroundings of a controller action: the incoming request, the session, the `Http` client with
the remote services behind it, and the response.  An action is a computation `Php Response` over
the session and the trace of the remote exchanges made so far.

The remote services are an arbitrary answering function `Env.remote`: it sees every exchange made
so far and the request, and answers with a response of any status and body or with a connection
failure.  A request is recorded in the trace when it is sent, whatever happens to it; a request
whose JSON body cannot be encoded raises before it is sent.
-/

namespace Artha.Laravel

open Php

/-- An HTTP verb the router knows. -/
inductive Verb where
  | get | head | post | put | patch | delete | options
deriving DecidableEq, Repr

/-- The body of an outgoing request. -/
inductive Body where
  | empty
  | json (data : Value)
  | query (data : Value)
deriving DecidableEq

/-- The body `withBody(json_encode($data), 'application/json')` attaches: `json_encode` returns
`false` where it fails, which is sent as the empty body. -/
def Body.ofJsonEncode (data : Value) : Body := if data.encodable then .json data else .empty

/-- A request handed to the `Http` client. -/
structure HttpRequest where
  verb : Verb
  url : String
  headers : List (String × Value)
  basicAuth : Option (String × String)
  timeout : Option Nat
  body : Body
deriving DecidableEq

/-- A request without headers, credentials or time limit. -/
def HttpRequest.plain (verb : Verb) (url : String) (body : Body) : HttpRequest :=
  { verb, url, headers := [], basicAuth := none, timeout := none, body }

/-- A response of a remote service. -/
structure HttpResponse where
  status : Nat
  body : Text

/-- `$response->successful()`. -/
def HttpResponse.successful (r : HttpResponse) : Bool := 200 ≤ r.status && r.status < 300

/-- What becomes of a request that was sent. -/
inductive Outcome where
  | response (r : HttpResponse)
  /-- A `ConnectionException` with its message. -/
  | failed (message : Text)

/-- A request that was sent, with its outcome. -/
structure Exchange where
  request : HttpRequest
  outcome : Outcome

/-- The request was answered with a 2xx status. -/
def Exchange.succeeded (x : Exchange) : Bool :=
  match x.outcome with
  | .response r => r.successful
  | .failed _ => false

/-- The session: `null` under a key that is not set. -/
abbrev Session := String → Value

/-- The incoming request. -/
structure Request where
  verb : Verb
  path : String
  /-- The `Authorization` header. -/
  authorization : Option String
  /-- The input, as `$request->all()` lists it. -/
  input : List (String × Value)

/-- `$request->all()`. -/
def Request.all (request : Request) : Value := .arr request.input

/-- `$request->key` and `$request->input('key')`. -/
def Request.get (request : Request) (key : String) : Value := request.all.getD key .null

/-- The array `config/midtrans.php` returns. -/
structure MidtransConfig where
  serverKey : String
  clientKey : Value
  isProduction : Value
  isSanitized : Value
  is3ds : Value
  callbackUrl : Value
  webhookUrl : Value
  apiUrl : Value
  snapUrl : Value

/-- `config('midtrans')`. -/
def MidtransConfig.toArray (c : MidtransConfig) : Value :=
  .arr [("server_key", .str c.serverKey), ("client_key", c.clientKey),
    ("is_production", c.isProduction), ("is_sanitized", c.isSanitized), ("is_3ds", c.is3ds),
    ("callback_url", c.callbackUrl), ("webhook_url", c.webhookUrl), ("api_url", c.apiUrl),
    ("snap_url", c.snapUrl)]

/-- What an action runs against. -/
structure Env where
  rules : Rules
  /-- `json_decode($text, true)`: `null` for a text that is not JSON. -/
  jsonDecode : String → Value
  midtrans : MidtransConfig
  /-- The remote services: the outcome of a request, given the exchanges before it. -/
  remote : List Exchange → HttpRequest → Outcome

/-- Rules that take any text with an `@` for an e-mail address and know no users. -/
def Rules.sample : Rules where
  floatToString := fun _ => "1.5"
  validEmail := fun s => s.toList.contains '@'
  emailTaken := fun _ => false
  numberAtLeast := fun v n =>
    match v with
    | .int m => n ≤ m
    | _ => true
  message := fun field _ => "The " ++ field ++ " field is invalid."

/-- An environment whose remote services give one outcome to every request. -/
def Env.answering (jsonDecode : String → Value) (outcome : Outcome) : Env where
  rules := .sample
  jsonDecode := jsonDecode
  midtrans :=
    { serverKey := "SB-Mid-server-key", clientKey := .str "SB-Mid-client-key",
      isProduction := .bool false, isSanitized := .bool true, is3ds := .bool true,
      callbackUrl := .str "http://localhost:8000/payment/callback",
      webhookUrl := .str "http://localhost:8000/midtrans/webhook",
      apiUrl := .str "https://api.sandbox.midtrans.com/v2",
      snapUrl := .str "https://app.sandbox.midtrans.com/snap/snap.js" }
  remote := fun _ _ => outcome

/-- The session that holds only a user. -/
def Session.ofUser (user : Value) : Session := Function.update (fun _ => .null) "user" user

/-- `$response->json()`. -/
def Env.json (env : Env) (r : HttpResponse) : Value :=
  match r.body with
  | .utf8 s => env.jsonDecode s
  | .bytes _ _ => .null

/-- What an action changes: the session, and the exchanges with remote services. -/
structure St where
  session : Session
  trace : List Exchange

/-- The state an action starts in. -/
def St.initial (session : Session) : St := { session, trace := [] }

/-- Record an exchange. -/
def St.record (st : St) (x : Exchange) : St := { st with trace := st.trace ++ [x] }

@[simp] theorem St.initial_session (s : Session) : (St.initial s).session = s := rfl

@[simp] theorem St.initial_trace (s : Session) : (St.initial s).trace = [] := rfl

@[simp] theorem St.record_session (st : St) (x : Exchange) : (st.record x).session = st.session :=
  rfl

@[simp] theorem St.record_trace (st : St) (x : Exchange) :
    (st.record x).trace = st.trace ++ [x] := rfl

/-- The response of a route. -/
inductive Response where
  | json (status : Nat) (data : Value)
  /-- `redirect($path)->with($key, $text)...`. -/
  | redirect (path : String) (flash : List (String × String))
  | view (name : String)
deriving DecidableEq

/-- The HTTP status code. -/
def Response.status : Response → Nat
  | .json status _ => status
  | .redirect _ _ => 302
  | .view _ => 200

/-- The answer is the success envelope: a JSON object whose `status` is `success`. -/
def Response.succeeds : Response → Bool
  | .json _ data => data.getD "status" .null = .str "success"
  | _ => false

/-- `response()->json(['status' => 'error', 'message' => $message], $status)`. -/
def errorJson (status : Nat) (message : String) : Response :=
  .json status (.arr [("status", .str "error"), ("message", .str message)])

@[simp] theorem status_errorJson (status : Nat) (message : String) :
    (errorJson status message).status = status := rfl

@[simp] theorem succeeds_errorJson (status : Nat) (message : String) :
    (errorJson status message).succeeds = false := rfl

/-- A computation of the application. -/
abbrev Php := Eff Env St Throwable

/-! ### The operations -/

/-- `session('key')`. -/
def session (key : String) : Php Value := do return (← Eff.get).session key

/-- `session(['key' => $value])`. -/
def putSession (key : String) (value : Value) : Php Unit :=
  Eff.modify fun st => { st with session := Function.update st.session key value }

/-- `session()->forget('key')`. -/
def forgetSession (key : String) : Php Unit := putSession key .null

/-- `$v` converted to a string by `.`. -/
def text (v : Value) : Php String := do Eff.lift (v.toText (← Eff.ask).rules.floatToString)

/-- `$v` passed to a `string` parameter of a built-in. -/
def stringParam (v : Value) : Php String := do
  Eff.lift (v.toStringParam (← Eff.ask).rules.floatToString)

/-- `$v['key']`. -/
def readKey (v : Value) (key : String) : Php Value := Eff.lift (v.read key)

/-- `config('midtrans.key')`. -/
def config (key : String) : Php Value := do return (← Eff.ask).midtrans.toArray.getD key .null

/-- `$response->json()`. -/
def decode (r : HttpResponse) : Php Value := do return (← Eff.ask).json r

/-- The JSON body of a request can be encoded. -/
def HttpRequest.encodable (q : HttpRequest) : Bool :=
  match q.body with
  | .json data => data.encodable
  | _ => true

/-- Send a request.  The client encodes the body first and raises if it cannot. -/
def send (q : HttpRequest) : Php HttpResponse := fun env st =>
  if q.encodable then
    match env.remote st.trace q with
    -- any status is a normal return: the client does not throw on a 4xx or 5xx
    | .response r => (.ok r, st.record ⟨q, .response r⟩)
    | .failed message => (.error (.exception message), st.record ⟨q, .failed message⟩)
  else (.error (.ofMessage "json_encode error"), st)

/-- `response()->json($data)` with status 200: raises if the data cannot be encoded.  A `null` is
answered as an empty object. -/
def json (data : Value) : Php Response :=
  if data.encodable then
    return .json 200 (if data = .null then .arr [] else data)
  else throw (.ofMessage data.encodeError)

/-! ### Their weakest preconditions -/

section wp

open Eff

variable {α : Type} {env : Env} {E : Throwable → St → Prop} {st : St}

@[simp] theorem wp_session (key : String) {Q : Value → St → Prop} :
    wp (session key) env Q E st ↔ Q (st.session key) st := Iff.rfl

@[simp] theorem wp_putSession (key : String) (value : Value) {Q : Unit → St → Prop} :
    wp (putSession key value) env Q E st ↔
      Q () { st with session := Function.update st.session key value } := Iff.rfl

@[simp] theorem wp_config (key : String) {Q : Value → St → Prop} :
    wp (config key) env Q E st ↔ Q (env.midtrans.toArray.getD key .null) st := Iff.rfl

@[simp] theorem wp_decode (r : HttpResponse) {Q : Value → St → Prop} :
    wp (decode r) env Q E st ↔ Q (env.json r) st := Iff.rfl

/-- `send` as the remote service decides it. -/
theorem wp_send (q : HttpRequest) {Q : HttpResponse → St → Prop} :
    wp (send q) env Q E st ↔
      if q.encodable then
        match env.remote st.trace q with
        | .response r => Q r (st.record ⟨q, .response r⟩)
        | .failed message => E (.exception message) (st.record ⟨q, .failed message⟩)
      else E (.ofMessage "json_encode error") st := by
  simp only [wp, Eff.run, send]
  by_cases hq : q.encodable = true
  · rw [if_pos hq, if_pos hq]
    cases env.remote st.trace q <;> rfl
  · rw [if_neg hq, if_neg hq]

/-- Sending, with one implication per outcome. -/
theorem wp_sent (q : HttpRequest) {Q : HttpResponse → St → Prop} :
    wp (send q) env Q E st ↔
      (q.encodable = false → E (.ofMessage "json_encode error") st) ∧
      (∀ r, q.encodable = true → env.remote st.trace q = .response r →
        Q r (st.record ⟨q, .response r⟩)) ∧
      (∀ message, q.encodable = true → env.remote st.trace q = .failed message →
        E (.exception message) (st.record ⟨q, .failed message⟩)) := by
  rw [wp_send]
  by_cases hq : q.encodable = true
  · cases h : env.remote st.trace q <;> simp [hq]
  · simp [hq]

theorem wp_text (v : Value) {Q : String → St → Prop} :
    wp (text v) env Q E st ↔
      (∀ s, v.toText env.rules.floatToString = .ok s → Q s st) ∧
      (∀ e, v.toText env.rules.floatToString = .error e → E e st) := by
  simp only [text, wp_bind, wp_ask]
  cases v.toText env.rules.floatToString <;> simp

theorem wp_stringParam (v : Value) {Q : String → St → Prop} :
    wp (stringParam v) env Q E st ↔
      (∀ s, v.toStringParam env.rules.floatToString = .ok s → Q s st) ∧
      (∀ e, v.toStringParam env.rules.floatToString = .error e → E e st) := by
  simp only [stringParam, wp_bind, wp_ask]
  cases v.toStringParam env.rules.floatToString <;> simp

theorem wp_readKey (v : Value) (key : String) {Q : Value → St → Prop} :
    wp (readKey v key) env Q E st ↔
      (∀ x, v.read key = .ok x → Q x st) ∧ (∀ e, v.read key = .error e → E e st) := by
  unfold readKey
  cases v.read key <;> simp

theorem wp_json (data : Value) {Q : Response → St → Prop} :
    wp (json data) env Q E st ↔
      if data.encodable then Q (.json 200 (if data = .null then .arr [] else data)) st
      else E (.ofMessage data.encodeError) st := by
  unfold json
  split <;> rfl

end wp

end Artha.Laravel
