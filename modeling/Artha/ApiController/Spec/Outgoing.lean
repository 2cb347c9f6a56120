import Artha.ApiController.Spec.Shape

/-!
# What an action sends

`Action.outgoing` is the request an action sends, as a function of its input, the session and the
environment: `none` where one of its checks rejects, an expression raises before the call, or the
body cannot be encoded.  Every action but `checkout` sends this and nothing else
(`Call.trace_eq`); `checkout` sends it first (`Call.trace_checkout`).  Towards the backend the two
cases are one: a call sends its `outgoing` request there and no other (`Call.backend_eq`).
-/

namespace Artha.ApiController

open Php Laravel Eff

/-! ### Computations that send one request -/

/-- The exchanges of one request, if there is one and it can be encoded. -/
def exchanged (env : Env) (before : List Exchange) (o : Option HttpRequest) : List Exchange :=
  before ++ ((o.filter HttpRequest.encodable).map fun q => ⟨q, env.remote before q⟩).toList

/-- Run from `st`, `m` ends with the trace `t`, on every way out. -/
def Leaves (env : Env) (st : St) (m : Php Response) (t : List Exchange) : Prop :=
  wp m env (fun _ st' => st'.trace = t) (fun _ st' => st'.trace = t) st

/-- Run from `st`, `m` sends the request `o` and nothing else. -/
def Sends (env : Env) (st : St) (m : Php Response) (o : Option HttpRequest) : Prop :=
  Leaves env st m (exchanged env st.trace o)

variable {env : Env} {st : St} {o : Option HttpRequest}

@[simp] theorem exchanged_none (before : List Exchange) : exchanged env before none = before := by
  simp [exchanged]

theorem exchanged_some {q : HttpRequest} (before : List Exchange) (hq : q.encodable = true) :
    exchanged env before (some q) = before ++ [⟨q, env.remote before q⟩] := by
  rw [exchanged, Option.filter_some, if_pos hq]
  rfl

theorem exchanged_of_not_encodable {q : HttpRequest} (before : List Exchange)
    (hq : q.encodable = false) : exchanged env before (some q) = before := by
  simp [exchanged, hq]

theorem leaves_attempt {failure : String} {body : Php Response} {t : List Exchange}
    (h : Leaves env st body t) : Leaves env st (attempt failure body) t := by
  unfold Leaves
  rw [wp_attempt]
  refine wp_mono h (fun _ _ hst => hst) fun e st' hst => ?_
  rw [wp_caught]
  split <;> exact hst

/-- A computation that asks for a request sends it, and nothing else if what follows sends
nothing. -/
theorem Asks.sends {p : Prop} {m : Php Response} {k : HttpResponse → Php Response}
    (h : Asks env st p m o k) (hk : ∀ r, Frame St.trace (k r)) : Sends env st m o := by
  refine h.elim (fun ho x hx => ?_) fun q ho => ?_
  · rw [ho, exchanged_none]
    cases hx <;> rfl
  · rw [ho, wp_bind, wp_sent]
    refine ⟨fun hq => (exchanged_of_not_encodable _ hq).symm, fun r hq hr => ?_,
      fun message hq hr => ?_⟩
    · have hf := (hk r).wp env (st.record ⟨q, .response r⟩)
      rw [exchanged_some _ hq, hr]
      exact hf
    · rw [exchanged_some _ hq, hr, St.record_trace]

/-! ### The actions -/

theorem frame_trace_loginAccepted (r : HttpResponse) : Frame St.trace (loginAccepted r) := by
  refine frame_bind (frame_decode r) fun data => ?_
  split
  · refine frame_ite (frame_throw _) (frame_bind (frame_stringParam _) fun _ => ?_)
    -- the session is written, the trace is not
    exact frame_bind (fun _ _ => rfl) fun _ => frame_json _
  · exact frame_throw _

/-- No reply but that of `checkout` sends anything. -/
theorem Action.frame_trace_reply {a : Action} (ha : a ≠ .checkout) (user : Value)
    (r : HttpResponse) : Frame St.trace (a.reply user r) := by
  refine frame_ite ?_ ?_
  · by_cases hlogin : a = .login
    · rw [hlogin]
      exact frame_trace_loginAccepted r
    · exact frame_accepted hlogin ha user r
  · by_cases husers : a = .getUsers
    · rw [husers]
      exact frame_ite (frame_bind (fun _ _ => rfl) fun _ => frame_pure _) (frame_throw _)
    · exact frame_refused husers r

/-- Every action but `checkout` sends `built` and nothing else. -/
theorem Action.sends {a : Action} (ha : a ≠ .checkout) {request : Request} :
    Sends env st (a.run request) (a.built env request st.session) := by
  by_cases hlogout : a = .logout
  · -- no call at all: the trace is the one before
    subst hlogout
    show st.trace = exchanged env st.trace none
    rw [exchanged_none]
  · obtain ⟨body, hrun, hasks⟩ := a.shape hlogout request env st
    rw [hrun]
    exact leaves_attempt (hasks.sends fun r => a.frame_trace_reply ha _ r)

/-! ### `checkout` -/

/-- The exchanges of `checkout`, given the first request it builds. -/
def checkoutTrace (env : Env) (user : Value) (o : Option HttpRequest) : List Exchange :=
  match o.filter HttpRequest.encodable with
  | none => []
  | some q =>
    match env.remote [] q with
    | .failed message => [⟨q, .failed message⟩]
    | .response r =>
      if r.successful then exchanged env [⟨q, .response r⟩] (paymentBuilt env user r)
      else [⟨q, .response r⟩]

@[simp] theorem checkoutTrace_none (user : Value) : checkoutTrace env user none = [] := rfl

theorem checkoutTrace_of_not_encodable {q : HttpRequest} (user : Value)
    (hq : q.encodable = false) : checkoutTrace env user (some q) = [] := by
  simp [checkoutTrace, Option.filter_some, hq]

theorem checkoutTrace_of_failed {q : HttpRequest} {message : Text} (user : Value)
    (hq : q.encodable = true) (hr : env.remote [] q = .failed message) :
    checkoutTrace env user (some q) = [⟨q, .failed message⟩] := by
  simp [checkoutTrace, Option.filter_some, hq, hr]

theorem checkoutTrace_of_response {q : HttpRequest} {r : HttpResponse} (user : Value)
    (hq : q.encodable = true) (hr : env.remote [] q = .response r) :
    checkoutTrace env user (some q) =
      if r.successful then exchanged env [⟨q, .response r⟩] (paymentBuilt env user r)
      else [⟨q, .response r⟩] := by
  simp [checkoutTrace, Option.filter_some, hq, hr]

theorem leaves_checkout (s : Session) (request : Request) :
    Leaves env (.initial s) checkout
      (checkoutTrace env (s "user") (Action.checkout.built env request s)) := by
  obtain ⟨body, hrun, hasks⟩ :=
    Action.shape (a := .checkout) nofun request env (.initial s)
  show Leaves env (.initial s) (Action.checkout.run request) _
  rw [hrun]
  refine leaves_attempt (hasks.elim (fun ho x hx => ?_) fun q ho => ?_)
  · rw [St.initial_session] at ho
    rw [ho]
    cases hx <;> rfl
  · rw [St.initial_session] at ho
    rw [ho, wp_bind, wp_sent]
    refine ⟨fun hq => ?_, fun r hq hr => ?_, fun m hq hr => ?_⟩
    · exact (checkoutTrace_of_not_encodable _ hq).symm
    · rw [checkoutTrace_of_response _ hq hr, Action.reply]
      cases hok : r.successful with
      | true => exact (asks_createPayment (s "user") r).sends (frame_paymentReply _)
      | false => rfl
    · rw [checkoutTrace_of_failed _ hq hr]
      rfl

/-! ### Whole calls -/

theorem Call.trace_of_leaves {c : Call} {s : Session} {t : List Exchange}
    (h : Leaves c.env (.initial s) (c.action.run c.request) t) : c.trace s = t :=
  (wp_state (P := fun st : St => st.trace = t) (c.action.run c.request)).mp h

/-- Every action but `checkout` sends its `outgoing` request and nothing else. -/
theorem Call.trace_eq (c : Call) (s : Session) (hc : c.action ≠ .checkout) :
    c.trace s = ((c.action.outgoing c.env c.request s).map
      fun q => ⟨q, c.env.remote [] q⟩).toList :=
  Call.trace_of_leaves (Action.sends hc)

/-- `checkout` sends its `outgoing` request, and the payment request behind a successful answer. -/
theorem Call.trace_checkout (c : Call) (s : Session) (hc : c.action = .checkout) :
    c.trace s = checkoutTrace c.env (s "user") (Action.checkout.built c.env c.request s) := by
  refine Call.trace_of_leaves ?_
  rw [hc]
  exact leaves_checkout s c.request

/-- Every action sends its `outgoing` request first, and nothing if there is none. -/
theorem Call.trace_head (c : Call) (s : Session) :
    (c.trace s).head? = (c.action.outgoing c.env c.request s).map
      fun q => ⟨q, c.env.remote [] q⟩ := by
  by_cases hc : c.action = .checkout
  · rw [c.trace_checkout s hc, hc, checkoutTrace, Action.outgoing]
    cases (Action.checkout.built c.env c.request s).filter HttpRequest.encodable with
    | none => rfl
    | some q =>
      simp only [Option.map_some]
      cases hr : c.env.remote [] q with
      | failed message => rfl
      | response r =>
        simp only
        split
        · simp [exchanged]
        · rfl
  · rw [c.trace_eq s hc]
    cases c.action.outgoing c.env c.request s <;> rfl

/-- A call whose request is answered goes on with its reply, from a state with that exchange. -/
theorem Call.result_of_response {c : Call} {s : Session} {q : HttpRequest} {r : HttpResponse}
    (hc : c.action ≠ .logout) (hq : c.action.outgoing c.env c.request s = some q)
    (hr : c.env.remote [] q = .response r) :
    c.result s = (attempt c.action.failure (c.action.reply (s "user") r)).run c.env
      ⟨s, [⟨q, .response r⟩]⟩ := by
  obtain ⟨hbuilt, henc⟩ := Option.filter_eq_some_iff.mp hq
  obtain ⟨body, hrun, hasks⟩ := c.action.shape hc c.request c.env (.initial s)
  rw [St.initial_session, hbuilt] at hasks
  have hsend : (send q).run c.env (.initial s) = (.ok r, ⟨s, [⟨q, .response r⟩]⟩) := by
    simp only [Eff.run, send, henc, St.initial_trace, hr]
    rfl
  have hbody : body.run c.env (.initial s)
      = (c.action.reply (s "user") r).run c.env ⟨s, [⟨q, .response r⟩]⟩ := by
    rw [show body.run c.env (.initial s) = _ from hasks, run_bind_of_ok hsend]
  rw [Call.result, hrun]
  cases hx : (c.action.reply (s "user") r).run c.env ⟨s, [⟨q, .response r⟩]⟩ with
  | mk x st' =>
    rw [hx] at hbody
    cases x with
    | ok response => rw [attempt, attempt, run_handle_of_ok hbody, run_handle_of_ok hx]
    | error e => rw [attempt, attempt, run_handle_of_error hbody, run_handle_of_error hx]

/-! ### Requests to the backend -/

/-- The request goes to the Go backend. -/
def toBackend (q : HttpRequest) : Bool := api.toList.isPrefixOf q.url.toList

/-- The requests a call sends to the backend. -/
def Call.backend (c : Call) (s : Session) : List HttpRequest :=
  ((c.trace s).map Exchange.request).filter toBackend

theorem toBackend_of_url {q : HttpRequest} (path : String) (h : q.url = api ++ path) :
    toBackend q = true := by
  rw [toBackend, h, String.toList_append, List.isPrefixOf_iff_prefix]
  exact List.prefix_append _ _

section Built

variable {P : HttpRequest → Prop} {request : Request} {s : Session}

theorem forall_mem_whenAccepted {lines : List (Attribute × List Rule)} (h : ∀ q ∈ o, P q) :
    ∀ q ∈ whenAccepted env request lines o, P q := by
  unfold whenAccepted
  split
  · exact h
  · simp

theorem forall_mem_whenUser (h : ∀ q ∈ o, P q) : ∀ q ∈ whenUser s o, P q := by
  unfold whenUser
  split
  · simp
  · exact h

theorem forall_mem_whenToken (h : ∀ q ∈ o, P q) : ∀ q ∈ whenToken s o, P q := by
  unfold whenToken
  split
  · simp
  · exact h

theorem forall_mem_map {α : Type} {x : Option α} {f : α → HttpRequest} (h : ∀ a, P (f a)) :
    ∀ q ∈ x.map f, P q := by
  intro q hq
  obtain ⟨a, -, rfl⟩ := Option.map_eq_some_iff.mp hq
  exact h a

theorem forall_mem_bind {α : Type} {x : Option α} {f : α → Option HttpRequest}
    (h : ∀ a, ∀ q ∈ f a, P q) : ∀ q ∈ x.bind f, P q := by
  intro q hq
  obtain ⟨a, -, ha⟩ := Option.bind_eq_some_iff.mp hq
  exact h a q ha

theorem forall_mem_some {q : HttpRequest} (h : P q) : ∀ q' ∈ some q, P q' := by
  intro q' hq'
  rwa [← Option.some.inj hq']

theorem forall_mem_ite {c : Prop} [Decidable c] (h : ∀ q ∈ o, P q) :
    ∀ q ∈ (if c then none else o), P q := by
  split
  · simp
  · exact h

end Built

/-- Whatever an action builds goes to the backend. -/
theorem Action.toBackend_of_mem_built {request : Request} {s : Session} (a : Action) :
    ∀ q ∈ a.built env request s, toBackend q = true := by
  cases a with
  | signup => exact forall_mem_whenAccepted (forall_mem_some (toBackend_of_url "/signup" rfl))
  | login => exact forall_mem_whenAccepted (forall_mem_some (toBackend_of_url "/login" rfl))
  | midtransWebhook =>
    exact forall_mem_ite (forall_mem_some (toBackend_of_url "/midtrans/webhook" rfl))
  | createAccount =>
    exact forall_mem_whenAccepted <| forall_mem_whenToken <| forall_mem_bind fun _ =>
      forall_mem_map fun _ => toBackend_of_url "/admin/create-account" rfl
  | insertProductAndStock =>
    exact forall_mem_whenAccepted (forall_mem_some (toBackend_of_url "/products" rfl))
  | updateProductStock =>
    refine forall_mem_whenAccepted <| forall_mem_map fun id =>
      toBackend_of_url ("/products/" ++ id ++ "/stock") ?_
    simp [updateProductStockRequest, jsonRequest, HttpRequest.plain, String.append_assoc]
  | insertRawMaterial =>
    exact forall_mem_whenAccepted (forall_mem_some (toBackend_of_url "/raw-materials" rfl))
  | getProducts => exact forall_mem_some (toBackend_of_url "/products" rfl)
  | getUsers =>
    exact forall_mem_whenToken <| forall_mem_map fun _ => toBackend_of_url "/admin/viewuser" rfl
  | deleteUser =>
    exact forall_mem_ite <| forall_mem_whenToken <| forall_mem_map fun _ =>
      toBackend_of_url "/admin/delete-user" rfl
  | logout => simp [Action.built]
  | getStock => exact forall_mem_some (toBackend_of_url "/stock" rfl)
  | proxyToGo =>
    refine forall_mem_ite <| forall_mem_some <| toBackend_of_url ("/" ++ request.path) ?_
    simp [proxyRequest, HttpRequest.plain, String.append_assoc]
  | getRawMaterials => exact forall_mem_some (toBackend_of_url "/raw-materials" rfl)
  | deleteRawMaterial =>
    refine forall_mem_whenAccepted <| forall_mem_map fun id =>
      toBackend_of_url ("/raw-materials/" ++ id) ?_
    simp [deleteByIdRequest, bareRequest, HttpRequest.plain, String.append_assoc]
  | deleteStock =>
    refine forall_mem_whenAccepted <| forall_mem_map fun id =>
      toBackend_of_url ("/stock/" ++ id) ?_
    simp [deleteByIdRequest, bareRequest, HttpRequest.plain, String.append_assoc]
  | addToCart | deleteCartItems =>
    exact forall_mem_whenAccepted <| forall_mem_whenUser <| forall_mem_whenToken <|
      forall_mem_map fun _ => toBackend_of_url "/customer/cart" rfl
  | getUserCart =>
    exact forall_mem_whenUser <| forall_mem_whenToken <| forall_mem_map fun _ =>
      toBackend_of_url "/customer/cart" rfl
  | viewTransactionSummary =>
    refine forall_mem_whenUser <| forall_mem_bind fun _ => forall_mem_map fun id =>
      toBackend_of_url ("/transactions/summary/" ++ id) ?_
    simp [summaryRequest, bareRequest, HttpRequest.plain, String.append_assoc]
  | viewTransactionDetailByID =>
    refine forall_mem_whenAccepted <| forall_mem_whenUser <| forall_mem_map fun id =>
      toBackend_of_url ("/transactions/" ++ id) ?_
    simp [detailRequest, bareRequest, HttpRequest.plain, String.append_assoc]
  | checkout =>
    exact forall_mem_whenUser <| forall_mem_map fun _ => toBackend_of_url "/transactions" rfl
  | getStocksForSales =>
    exact forall_mem_whenToken <| forall_mem_map fun _ => toBackend_of_url "/stocks" rfl
  | getRawMaterialsForSales =>
    exact forall_mem_whenToken <| forall_mem_map fun _ => toBackend_of_url "/rawmaterial" rfl

/-- The payment request does not go to the backend. -/
theorem toBackend_of_mem_paymentBuilt (user : Value) (r : HttpResponse) :
    ∀ q ∈ paymentBuilt env user r, toBackend q = false := by
  refine forall_mem_bind fun orderId => forall_mem_bind fun grossAmount => forall_mem_bind
    fun name => forall_mem_bind fun email => forall_mem_some ?_
  have hurl : (paymentRequest env.midtrans.serverKey "" orderId grossAmount name email).url
      = "/transactions" := String.empty_append
  rw [toBackend, hurl]
  decide

/-- The exchange with Midtrans adds nothing to the requests for the backend. -/
theorem filter_exchanged_paymentBuilt (user : Value) (r : HttpResponse) {q : HttpRequest}
    (hq : toBackend q = true) (outcome : Outcome) :
    ((exchanged env [⟨q, outcome⟩] (paymentBuilt env user r)).map Exchange.request).filter toBackend
      = [q] := by
  unfold exchanged
  cases hp : (paymentBuilt env user r).filter HttpRequest.encodable with
  | none => simp [hq]
  | some p =>
    have hp' := toBackend_of_mem_paymentBuilt user r p (Option.filter_eq_some_iff.mp hp).1
    simp [hq, hp']

/-- To the backend a call sends its `outgoing` request and nothing else. -/
theorem Call.backend_eq (c : Call) (s : Session) :
    c.backend s = (c.action.outgoing c.env c.request s).toList := by
  have hto : ∀ q ∈ c.action.outgoing c.env c.request s, toBackend q = true := by
    intro q hq
    exact c.action.toBackend_of_mem_built q (Option.filter_eq_some_iff.mp hq).1
  unfold Call.backend
  by_cases hc : c.action = .checkout
  · rw [c.trace_checkout s hc, checkoutTrace, ← hc]
    rw [Action.outgoing] at hto ⊢
    cases hq : (c.action.built c.env c.request s).filter HttpRequest.encodable with
    | none => rfl
    | some q =>
      have hq' : toBackend q = true := hto q hq
      simp only [Option.toList_some]
      cases hr : c.env.remote [] q with
      | failed message => simp [hq']
      | response r =>
        by_cases hok : r.successful = true
        · simp only [hok, if_true]
          exact filter_exchanged_paymentBuilt (s "user") r hq' _
        · simp [hok, hq']
  · rw [c.trace_eq s hc]
    cases hq : c.action.outgoing c.env c.request s with
    | none => rfl
    | some q => simp [hto q hq]

end Artha.ApiController
