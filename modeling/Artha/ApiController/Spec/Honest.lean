import Artha.ApiController.Spec.Shape

/-!
# No false success, and no effect on rejection

An action that answers 200 made at least one remote call, and every call it made was answered 2xx
(`Honest`); an action whose own checks reject the request makes no call (`Call.state_of_rejects`).

The state before an action has an empty trace; a call that is answered 2xx takes a state in which
every exchange so far succeeded to one that is moreover nonempty (`Settled`); a call that is not
answered 2xx leads to the error envelope or to a raise.  So whatever an action answers is the error
envelope or is given in a settled state (`Candid`), which is more than `Honest` asks for.
-/

namespace Artha.ApiController

open Php Laravel Eff

/-! ### Honest computations -/

/-- Every exchange so far was answered 2xx. -/
def AllSucceeded (st : St) : Prop := ∀ x ∈ st.trace, x.succeeded = true

/-- There was an exchange, and every one was answered 2xx. -/
def Settled (st : St) : Prop := st.trace ≠ [] ∧ AllSucceeded st

/-- A response with status 200 is given in a settled state only. -/
def Truthful (r : Response) (st : St) : Prop := r.status = 200 → Settled st

/-- `m` never answers 200 in a state that is not settled, if every exchange before it succeeded. -/
def Honest (m : Php Response) : Prop := Triple AllSucceeded m Truthful

/-- A response is the error envelope, or it is JSON given in a settled state. -/
def Candid (r : Response) (st : St) : Prop :=
  IsError r ∨ (∃ status data, r = .json status data) ∧ Settled st

/-- `m` answers nothing but the error envelope. -/
def Refuses (m : Php Response) : Prop := Triple (fun _ => True) m fun r _ => IsError r

theorem isError_errorJson {status : Nat} (message : String) (h : 400 ≤ status ∧ status < 600) :
    IsError (errorJson status message) := ⟨status, message, rfl, h⟩

/-- The error envelope is never a 200. -/
theorem IsError.status_ne {r : Response} (h : IsError r) : r.status ≠ 200 := by
  obtain ⟨status, message, rfl, hlo, -⟩ := h
  rw [status_errorJson]
  omega

theorem Candid.truthful {r : Response} {st : St} (h : Candid r st) : Truthful r st := by
  intro h200
  rcases h with herror | ⟨-, hsettled⟩
  · exact absurd h200 herror.status_ne
  · exact hsettled

/-- A computation that refuses is candid from anywhere. -/
theorem Refuses.candid {m : Php Response} (h : Refuses m) (P : St → Prop) : Triple P m Candid := by
  intro env st _
  exact wp_mono (h env st trivial) (fun _ _ hr => .inl hr) fun _ _ h => h

theorem refuses_return {status : Nat} (message : String) (h : 400 ≤ status ∧ status < 600) :
    Refuses (pure (errorJson status message)) :=
  triple_pure fun _ _ => isError_errorJson message h

theorem refuses_throw (e : Throwable) : Refuses (throw e) := triple_throw e

theorem refuses_throwBody (literal : String) (r : HttpResponse) :
    Refuses (throwBody literal r) := by
  unfold throwBody
  split <;> exact refuses_throw _

theorem refuses_throwBackendMessage (r : HttpResponse) : Refuses (throwBackendMessage r) := by
  refine triple_bind_frame (frame_decode r) fun data => ?_
  split
  · exact refuses_throw _
  · exact triple_bind_frame (frame_stringParam _) fun _ => refuses_throw _

theorem refuses_caught (failure : String) (e : Throwable) : Refuses (caught failure e) := by
  rcases e with (message | ⟨b, h⟩) | message
  · exact refuses_return _ (by omega)
  · exact refuses_throw _
  · exact refuses_throw _

theorem candid_json (data : Value) : Triple Settled (json data) Candid :=
  triple_ite (fun _ => triple_pure fun _ hst => .inr ⟨⟨_, _, rfl⟩, hst⟩) fun _ => triple_throw _

theorem candid_answerData (r : HttpResponse) : Triple Settled (answerData r) Candid :=
  triple_bind_frame (frame_decode r) fun _ => candid_json _

theorem settled_record {st : St} {x : Exchange} (h : AllSucceeded st) (hx : x.succeeded = true) :
    Settled (st.record x) := by
  refine ⟨by simp, ?_⟩
  intro y hy
  rw [St.record_trace, List.mem_append, List.mem_singleton] at hy
  rcases hy with hy | rfl
  · exact h y hy
  · exact hx

/-- A computation that asks for a request is candid if what it makes of the response is: a 2xx
response is gone on with from a settled state, any other must be refused. -/
theorem Asks.candid {env : Env} {st : St} {p : Prop} {m : Php Response} {o : Option HttpRequest}
    {k : HttpResponse → Php Response} (h : Asks env st p m o k)
    (hok : ∀ r, r.successful = true → Triple Settled (k r) Candid)
    (hno : ∀ r, r.successful = false → Refuses (k r)) (hst : AllSucceeded st) :
    wp m env Candid (fun _ _ => True) st := by
  refine h.elim (fun _ x hx => ?_) fun q _ => ?_
  · cases hx with
    | answer message hstatus => exact .inl (isError_errorJson message hstatus)
    | exception message => trivial
    | error message _ => trivial
  · rw [wp_bind, wp_sent]
    refine ⟨fun _ => trivial, fun r _ _ => ?_, fun _ _ _ => trivial⟩
    cases hr : r.successful with
    | true => exact hok r hr env _ (settled_record hst hr)
    | false => exact (hno r hr).candid (fun _ => True) env _ trivial

/-! ### The actions

What is left is what each action makes of a response. -/

theorem refuses_loginRefused (r : HttpResponse) : Refuses (loginRefused r) := by
  refine triple_ite (fun _ => ?_) fun _ => triple_ite (fun _ => ?_) fun _ => ?_
  · exact refuses_return _ (by omega)
  · exact refuses_return _ (by omega)
  · exact refuses_throw _

theorem Action.refuses_refused (a : Action) (r : HttpResponse) : Refuses (a.refused r) := by
  cases a with
  | login => exact refuses_loginRefused r
  | midtransWebhook => exact refuses_throwBody _ r
  | createAccount | deleteUser => exact refuses_throwBackendMessage r
  | getUsers =>
    refine triple_ite (fun _ => ?_) fun _ => refuses_throw _
    have hforget : Triple (fun _ => True) (forgetSession "user") fun _ _ => True :=
      fun _ _ _ => trivial
    apply triple_bind hforget
    intro _
    exact refuses_return _ (by omega)
  | _ => exact refuses_throw _

theorem candid_loginAccepted (r : HttpResponse) : Triple Settled (loginAccepted r) Candid := by
  apply triple_bind_frame (frame_decode r)
  intro data
  split
  · refine triple_ite (fun _ => triple_throw _) fun _ => ?_
    apply triple_bind_frame (frame_stringParam _)
    intro role
    -- writing the session does not touch the trace
    have hput : ∀ user, Triple Settled (putSession "user" user) fun _ => Settled :=
      fun _ _ _ hst => hst
    apply triple_bind (hput _)
    intro _
    exact candid_json _
  · exact triple_throw _

/-- The payment is a call of its own: it keeps the exchanges before it, which all succeeded. -/
theorem candid_createPayment (user : Value) (r : HttpResponse) :
    Triple Settled (createPayment user r) Candid := by
  intro env st hst
  refine (asks_createPayment user r).candid (fun m hm => ?_) (fun m hm => ?_) hst.2
  · rw [paymentReply, if_pos hm]
    exact triple_bind_frame (frame_decode m) fun _ => candid_json _
  · rw [paymentReply, if_neg (by simp [hm])]
    exact refuses_throwBody _ m

theorem Action.candid_accepted (a : Action) (user : Value) (r : HttpResponse) :
    Triple Settled (a.accepted user r) Candid := by
  cases a with
  | login => exact candid_loginAccepted r
  | checkout => exact candid_createPayment user r
  | midtransWebhook => exact candid_json _
  | signup | createAccount | insertProductAndStock | updateProductStock | insertRawMaterial
  | deleteUser | deleteRawMaterial | deleteStock | deleteCartItems =>
    exact candid_json (successMessage _)
  | proxyToGo | getStocksForSales | getRawMaterialsForSales =>
    exact triple_bind_frame (frame_decode r) fun _ => candid_json _
  | _ => exact candid_answerData r

/-- Every action that can make a call is candid. -/
theorem Action.candid {a : Action} (ha : a ≠ .logout) (request : Request) :
    Triple AllSucceeded (a.run request) Candid := by
  intro env st hst
  obtain ⟨body, hrun, hasks⟩ := a.shape ha request env st
  have hbody : wp body env Candid (fun _ _ => True) st := by
    refine hasks.candid (fun r hr => ?_) (fun r hr => ?_) hst
    · rw [reply, if_pos hr]
      exact a.candid_accepted _ r
    · rw [reply, if_neg (by simp [hr])]
      exact a.refuses_refused r
  rw [hrun, wp_attempt]
  refine wp_mono hbody (fun _ _ h => h) fun e st' _ => ?_
  exact (refuses_caught _ e).candid (fun _ => True) env st' trivial

/-- A redirect is not a 200, so the logout needs no call. -/
theorem honest_logout : Honest logout := by
  refine triple_handle (fun _ _ _ h200 => ?_) fun e => ?_
  · exact absurd h200 (by simp [Response.status])
  · rcases e with message | message
    · exact triple_pure fun _ _ h200 => absurd h200 (by simp [Response.status])
    · exact triple_throw _

/-- Every action is honest. -/
theorem Action.honest (request : Request) (a : Action) : Honest (a.run request) := by
  by_cases ha : a = .logout
  · rw [ha]
    exact honest_logout
  · intro env st hst
    exact wp_mono (a.candid ha request env st hst) (fun _ _ hr => hr.truthful) fun _ _ h => h

/-! ### Rejection -/

/-- An action whose own checks reject the request builds none. -/
theorem Action.built_of_rejects {env : Env} {request : Request} {s : Session} {a : Action}
    (h : a.rejects env request s = true) : a.built env request s = none := by
  have hvalid : ∀ {lines o}, (!accepts env.rules request.all lines) = true →
      whenAccepted env request lines o = none := by
    intro lines o hno
    rw [Bool.not_eq_true'] at hno
    rw [whenAccepted, if_neg (by simp [hno])]
  cases a with
  | signup | login | insertProductAndStock | updateProductStock | insertRawMaterial
  | deleteRawMaterial | deleteStock => exact hvalid h
  | midtransWebhook => exact if_pos h
  | createAccount =>
    simp only [rejects, Bool.or_eq_true] at h
    rcases h with h | h
    · exact hvalid h
    · simp [built, whenAccepted, whenToken, h]
  | getUsers | getStocksForSales | getRawMaterialsForSales =>
    simp only [rejects] at h
    simp [built, withBearer, whenToken, h]
  | deleteUser =>
    simp only [rejects, Bool.or_eq_true] at h
    rcases h with h | h
    · exact if_pos h
    · simp [built, withBearer, whenToken, h]
  | addToCart | deleteCartItems =>
    simp only [rejects, Bool.or_eq_true] at h
    rcases h with (h | h) | h
    · exact hvalid h
    · simp [built, whenAccepted, whenUser, h]
    · simp [built, whenAccepted, whenUser, withBearer, whenToken, h]
  | getUserCart =>
    simp only [rejects, Bool.or_eq_true] at h
    rcases h with h | h
    · simp [built, whenUser, h]
    · simp [built, whenUser, withBearer, whenToken, h]
  | viewTransactionSummary | checkout =>
    simp only [rejects] at h
    simp [built, whenUser, h]
  | viewTransactionDetailByID =>
    simp only [rejects, Bool.or_eq_true] at h
    rcases h with h | h
    · exact hvalid h
    · simp [built, whenAccepted, whenUser, h]
  | logout | getProducts | getStock | getRawMaterials | proxyToGo => simp [rejects] at h

/-- An action that builds no request changes nothing. -/
theorem Action.state_of_built_none {env : Env} {st : St} {request : Request} {a : Action}
    (ha : a ≠ .logout) (h : a.built env request st.session = none) :
    ((a.run request).run env st).2 = st := by
  obtain ⟨body, hrun, hasks⟩ := a.shape ha request env st
  rw [h] at hasks
  obtain ⟨x, hbody, -⟩ := hasks
  rw [hrun]
  cases x with
  | ok r => rw [attempt, run_handle_of_ok hbody]
  | error e =>
    rw [attempt, run_handle_of_error hbody]
    exact frame_caught (f := id) _ e env st

/-! ### Whole calls -/

/-- A call whose own checks reject the request leaves the state as it was. -/
theorem Call.state_of_rejects {c : Call} {s : Session}
    (hrej : c.action.rejects c.env c.request s = true) : (c.result s).2 = .initial s := by
  refine Action.state_of_built_none (fun hlogout => ?_) (Action.built_of_rejects hrej)
  rw [hlogout] at hrej
  cases hrej

/-- Whatever the request, the session and the remote services: an action that answers 200 sent at
least one request and every request it sent was answered 2xx; and an action whose own checks
reject the request sent nothing and left the session alone. -/
theorem Call.no_false_success (c : Call) (s : Session) :
    (∀ response, c.Answers s response → response.status = 200 →
      c.trace s ≠ [] ∧ ∀ x ∈ c.trace s, x.succeeded = true) ∧
    (c.action.rejects c.env c.request s = true → c.trace s = [] ∧ c.after s = s) := by
  constructor
  · intro response hanswer h200
    have h := c.action.honest c.request c.env (.initial s) (by simp [AllSucceeded])
    exact wp_ok h (Prod.ext hanswer rfl) h200
  · intro hrej
    simp [Call.trace, Call.after, Call.state_of_rejects hrej]

end Artha.ApiController
