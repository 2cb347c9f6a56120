import Artha.ApiController.Spec.Outgoing
import Artha.ApiController.Spec.Success

/-!
# Runs of checkouts

The backend is a list of transactions that every 2xx `POST /transactions` makes longer by one.  A
checkout that has created its transaction can still fail: the backend's answer may lack a field, the
payment may be refused, the answer may not be encodable.  Nothing is rolled back then, so over a run
of checkouts the transactions are as many as the successes exactly when no checkout fails in its
second half (`transactions_eq_successes_iff`).
-/

namespace Artha.ApiController

open Php Laravel

/-! ### The backend -/

/-- The exchange is a `POST /transactions` to the backend that was answered 2xx. -/
def createsTransaction (x : Exchange) : Bool :=
  x.request.verb = .post && x.request.url = api ++ "/transactions" && x.succeeded

/-- One call of `checkout`: whose session, with what request, against which remote services. -/
structure Checkout where
  session : Session
  request : Request
  env : Env

namespace Checkout

def call (c : Checkout) : Call := ⟨.checkout, c.request, c.env⟩

/-- The call answered success. -/
def succeeded (c : Checkout) : Bool := c.call.succeeds c.session

/-- The exchanges of the call that created a transaction. -/
def created (c : Checkout) : List Exchange := (c.call.trace c.session).filter createsTransaction

/-- The backend's transactions after a checkout: one more for each that was created. -/
def step (transactions : List HttpRequest) (c : Checkout) : List HttpRequest :=
  transactions ++ c.created.map Exchange.request

/-! ### The two halves of a checkout -/

/-- The first half: the session's user has an id, and the backend answers the transaction for it
with `r`, a 2xx. -/
structure Creates (c : Checkout) (id : Value) (r : HttpResponse) : Prop where
  hasUser : Action.noUser c.session = false
  hasId : (c.session "user").read "id" = .ok id
  encodable : id.encodableAt 1 = true
  answered : c.env.remote [] (transactionRequest id) = .response r
  successful : r.successful = true

/-- The second half: the backend's answer has an id and an amount and the user a name and an
e-mail, all four of which can be encoded, Midtrans answers the payment with a 2xx, and both answers
can be encoded again. -/
def Pays (c : Checkout) (id : Value) (r : HttpResponse) : Prop :=
  ∃ orderId, (c.env.json r).read "id" = .ok orderId ∧
  ∃ grossAmount, (c.env.json r).read "total_amount" = .ok grossAmount ∧
  ∃ name, (c.session "user").read "name" = .ok name ∧
  ∃ email, (c.session "user").read "email" = .ok email ∧
    (∀ v ∈ [orderId, grossAmount, name, email], v.encodableAt 2 = true) ∧
  ∃ m, c.env.remote [⟨transactionRequest id, .response r⟩]
      (paymentRequest c.env.midtrans.serverKey "" orderId grossAmount name email) = .response m ∧
    m.successful = true ∧ (c.env.json r).encodableAt 2 = true ∧ (c.env.json m).encodableAt 2 = true

/-- No transaction is left behind: if the first half succeeds, so does the second. -/
def Complete (c : Checkout) : Prop := ∀ id r, c.Creates id r → c.Pays id r

variable {c : Checkout}

theorem Creates.unique {id id' : Value} {r r' : HttpResponse} (h : c.Creates id r)
    (h' : c.Creates id' r') : id = id' ∧ r = r' := by
  have hid : id = id' := Except.ok.inj (h.hasId.symm.trans h'.hasId)
  subst hid
  exact ⟨rfl, Outcome.response.inj (h.answered.symm.trans h'.answered)⟩

theorem encodable_transactionRequest {id : Value} :
    (transactionRequest id).encodable = true ↔ id.encodableAt 1 = true := by
  simp [transactionRequest, jsonRequest, HttpRequest.plain, HttpRequest.encodable,
    Value.encodable_iff, Value.encodableAt_arr]

theorem encodable_paymentRequest {serverKey baseUrl : String}
    {orderId grossAmount name email : Value} :
    (paymentRequest serverKey baseUrl orderId grossAmount name email).encodable = true ↔
      ∀ v ∈ [orderId, grossAmount, name, email], v.encodableAt 2 = true := by
  simp [paymentRequest, jsonRequest, HttpRequest.plain, HttpRequest.encodable,
    Value.encodable_iff, Value.encodableAt_arr, and_assoc]

theorem encodable_successData_pair {transaction payment : Value} :
    (successData (.arr [("transaction", transaction), ("payment", payment)])).encodable = true ↔
      transaction.encodableAt 2 = true ∧ payment.encodableAt 2 = true := by
  simp [successData, Value.encodable_iff, Value.encodableAt_arr, Value.encodableAt_str]

theorem succeedsIff_createPayment {id : Value} (r : HttpResponse) :
    SucceedsIff c.env ((St.initial c.session).record ⟨transactionRequest id, .response r⟩)
      (createPayment (c.session "user") r) (c.Pays id r) := by
  apply succeedsIff_bind_ok rfl
  -- the configuration: neither lookup can raise, and neither can the conversions
  refine succeedsIff_bind_ok rfl (succeedsIff_bind_ok rfl ?_)
  refine succeedsIff_bind_ok rfl (succeedsIff_bind_ok rfl ?_)
  -- the four fields of the payment
  refine succeedsIff_readKey fun orderId => succeedsIff_readKey fun grossAmount => ?_
  refine succeedsIff_readKey fun name => succeedsIff_readKey fun email => ?_
  rw [← encodable_paymentRequest]
  apply succeedsIff_send
  intro m
  apply succeedsIff_ite_throwBody
  apply succeedsIff_bind_ok rfl
  rw [← encodable_successData_pair]
  exact succeedsIff_json _

/-- A checkout succeeds exactly when both halves do. -/
theorem succeeded_iff : c.succeeded = true ↔ ∃ id r, c.Creates id r ∧ c.Pays id r := by
  have h : SucceedsIff c.env (.initial c.session) checkout
      (Action.noUser c.session = false ∧ ∃ id, (c.session "user").read "id" = .ok id ∧
        (transactionRequest id).encodable = true ∧
        ∃ r, c.env.remote [] (transactionRequest id) = .response r ∧ r.successful = true ∧
          c.Pays id r) := by
    apply succeedsIff_attempt
    apply succeedsIff_withUser
    apply succeedsIff_readKey
    intro id
    apply succeedsIff_forward
    intro r
    exact succeedsIff_createPayment r
  rw [succeeded, Call.succeeds_iff (c := c.call) h]
  constructor
  · rintro ⟨hu, id, hid, henc, r, hr, hok, hp⟩
    exact ⟨id, r, ⟨hu, hid, encodable_transactionRequest.mp henc, hr, hok⟩, hp⟩
  · rintro ⟨id, r, hc, hp⟩
    exact ⟨hc.hasUser, id, hc.hasId, encodable_transactionRequest.mpr hc.encodable, r, hc.answered,
      hc.successful, hp⟩

/-! ### What a checkout creates -/

theorem createsTransaction_transactionRequest (id : Value) (o : Outcome) :
    createsTransaction ⟨transactionRequest id, o⟩
      = Exchange.succeeded ⟨transactionRequest id, o⟩ := by
  simp [createsTransaction, transactionRequest, jsonRequest, HttpRequest.plain]

theorem createsTransaction_of_mem_paymentBuilt {env : Env} {user : Value} {r : HttpResponse}
    {q : HttpRequest} (hq : q ∈ paymentBuilt env user r) (o : Outcome) :
    createsTransaction ⟨q, o⟩ = false := by
  have hback := toBackend_of_mem_paymentBuilt user r q hq
  cases h : createsTransaction ⟨q, o⟩ with
  | false => rfl
  | true =>
    simp only [createsTransaction, Bool.and_eq_true, decide_eq_true_eq] at h
    rw [toBackend_of_url "/transactions" h.1.2] at hback
    cases hback

/-- The first request of a checkout with a user whose id can be read. -/
theorem trace_eq (hu : Action.noUser c.session = false) {id : Value}
    (hid : (c.session "user").read "id" = .ok id) :
    c.call.trace c.session =
      checkoutTrace c.env (c.session "user") (some (transactionRequest id)) := by
  rw [Call.trace_checkout c.call c.session rfl]
  simp [call, Action.built, whenUser, hu, hid, Except.toOption]

theorem length_created_of_creates {id : Value} {r : HttpResponse} (h : c.Creates id r) :
    c.created.length = 1 := by
  have hsucc : Exchange.succeeded ⟨transactionRequest id, .response r⟩ = true := h.successful
  have henc := encodable_transactionRequest.mpr h.encodable
  rw [created, trace_eq h.hasUser h.hasId, checkoutTrace_of_response _ henc h.answered,
    if_pos h.successful, exchanged]
  cases hq : (paymentBuilt c.env (c.session "user") r).filter HttpRequest.encodable with
  | none => simp [createsTransaction_transactionRequest, hsucc]
  | some q =>
    -- what follows the first exchange is with Midtrans
    have hq' := createsTransaction_of_mem_paymentBuilt (Option.filter_eq_some_iff.mp hq).1
    simp [createsTransaction_transactionRequest, hsucc, hq']

theorem created_of_not_creates (h : ¬ ∃ id r, c.Creates id r) : c.created = [] := by
  unfold created
  cases hu : Action.noUser c.session with
  | true =>
    rw [Call.trace_checkout c.call c.session rfl]
    simp [Action.built, whenUser, hu]
  | false =>
    cases hid : (c.session "user").read "id" with
    | error e =>
      rw [Call.trace_checkout c.call c.session rfl]
      simp [Action.built, whenUser, hid, Except.toOption]
    | ok id =>
      rw [trace_eq hu hid]
      cases henc : (transactionRequest id).encodable with
      | false =>
        rw [checkoutTrace_of_not_encodable _ henc]
        rfl
      | true =>
        cases hr : c.env.remote [] (transactionRequest id) with
        | failed message =>
          rw [checkoutTrace_of_failed _ henc hr]
          simp [createsTransaction_transactionRequest, Exchange.succeeded]
        | response r =>
          cases hok : r.successful with
          | true => exact absurd ⟨id, r, hu, hid, encodable_transactionRequest.mp henc, hr, hok⟩ h
          | false =>
            rw [checkoutTrace_of_response _ henc hr, if_neg (by simp [hok])]
            simp [createsTransaction_transactionRequest, Exchange.succeeded, hok]

/-- What a checkout can do: nothing, create and pay, or create and fail. -/
theorem cases (c : Checkout) :
    (c.created.length = 0 ∧ c.succeeded = false ∧ c.Complete) ∨
    (c.created.length = 1 ∧ c.succeeded = true ∧ c.Complete) ∨
    (c.created.length = 1 ∧ c.succeeded = false ∧ ¬ c.Complete) := by
  by_cases h : ∃ id r, c.Creates id r
  · obtain ⟨id, r, hc⟩ := h
    have hlen := length_created_of_creates hc
    by_cases hp : c.Pays id r
    · -- created and paid
      refine .inr (.inl ⟨hlen, succeeded_iff.mpr ⟨id, r, hc, hp⟩, fun id' r' hc' => ?_⟩)
      obtain ⟨rfl, rfl⟩ := hc.unique hc'
      exact hp
    · -- created and left behind
      refine .inr (.inr ⟨hlen, ?_, fun hcomplete => hp (hcomplete id r hc)⟩)
      rw [← Bool.not_eq_true, succeeded_iff]
      rintro ⟨id', r', hc', hp'⟩
      obtain ⟨rfl, rfl⟩ := hc.unique hc'
      exact hp hp'
  · -- nothing created, so the checkout did not succeed either
    have hlen : c.created.length = 0 := by
      rw [created_of_not_creates h]
      rfl
    refine .inl ⟨hlen, ?_, fun id r hc => absurd ⟨id, r, hc⟩ h⟩
    rw [← Bool.not_eq_true, succeeded_iff]
    rintro ⟨id, r, hc, -⟩
    exact h ⟨id, r, hc⟩

/-! ### Runs -/

theorem length_step (transactions : List HttpRequest) (c : Checkout) :
    (step transactions c).length = transactions.length + c.created.length := by
  simp [step]

/-- A run creates at least as many transactions as it has successes. -/
theorem successes_le (run : List Checkout) (transactions : List HttpRequest) :
    transactions.length + run.countP succeeded ≤ (run.foldl step transactions).length := by
  induction run generalizing transactions with
  | nil => simp
  | cons c run ih =>
    have hrest := ih (step transactions c)
    rw [length_step] at hrest
    rw [List.foldl_cons, List.countP_cons]
    -- a success comes with a transaction of its own
    have hcount : (if c.succeeded = true then 1 else 0) ≤ c.created.length := by
      rcases c.cases with ⟨hlen, hs, -⟩ | ⟨hlen, hs, -⟩ | ⟨hlen, hs, -⟩ <;> simp [hlen, hs]
    omega

/-- Over any run of checkouts, by any users and with any outcomes of the remote calls, the backend
gains as many transactions as there were successes exactly when every checkout that created its
transaction also paid. -/
theorem transactions_eq_successes_iff (run : List Checkout) (transactions : List HttpRequest) :
    (run.foldl step transactions).length = transactions.length + run.countP succeeded ↔
      ∀ c ∈ run, c.Complete := by
  induction run generalizing transactions with
  | nil => simp
  | cons c run ih =>
    have hrest := ih (step transactions c)
    have hle := successes_le run (step transactions c)
    rw [length_step] at hrest hle
    rw [List.foldl_cons, List.countP_cons, List.forall_mem_cons]
    rcases c.cases with ⟨hlen, hs, hc⟩ | ⟨hlen, hs, hc⟩ | ⟨hlen, hs, hc⟩
    · have hcount : (if c.succeeded = true then 1 else 0) = 0 := by simp [hs]
      rw [hcount, iff_true_intro hc, true_and, ← hrest, hlen]
      omega
    · have hcount : (if c.succeeded = true then 1 else 0) = 1 := by simp [hs]
      rw [hcount, iff_true_intro hc, true_and, ← hrest, hlen]
      omega
    · -- the orphan cannot be made up for later
      have hcount : (if c.succeeded = true then 1 else 0) = 0 := by simp [hs]
      rw [hcount, iff_false_intro hc, false_and, iff_false]
      omega

/-! ### A checkout that leaves its transaction behind -/

/-- A customer checks out, the backend creates transaction 7, and the payment service cannot be
reached. -/
def orphaned : Checkout where
  session := .ofUser (.arr [("id", .int 1), ("email", .str "c@artha.test"), ("name", .str "C"),
    ("token", .str "one"), ("role", .str "customer")])
  request := { verb := .post, path := "customer/checkout", authorization := none, input := [] }
  env :=
    { Env.answering
        (fun _ => .arr [("id", .int 7), ("total_amount", .int 5000)]) (.failed (.utf8 "cURL")) with
      remote := fun _ q =>
        if toBackend q then
          .response ⟨201, .utf8 "\x7b\"id\":7,\"total_amount\":5000\x7d"⟩
        else .failed (.utf8 "cURL error 3: URL using bad/illegal format or missing URL") }

/-- The customer tries twice: two transactions, no success. -/
theorem transactions_ne_successes :
    ¬ ∀ run : List Checkout, (run.foldl step []).length = run.countP succeeded := by
  intro h
  have hcreated : orphaned.created.length = 1 := by decide
  have hfailed : orphaned.succeeded = false := by decide
  have htwice := h [orphaned, orphaned]
  simp [length_step, hcreated, hfailed] at htwice

end Checkout

end Artha.ApiController
