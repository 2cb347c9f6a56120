import Artha.ApiController.Spec.Outgoing
import Artha.Dashboard.Answers

/-!
# The format of the answers

The actions of `ApiController` put what the backend returns under `data`, and what Midtrans returns
under `data.payment`.  The scripts of the views look for `products`, `cartItems`, `transactions` and
`token` beside the status, where no action puts anything.  So no list the backend returns is ever
read, and no token is ever passed to `snap.pay` (`views_miss_answers`).
-/

namespace Artha.Dashboard

open Php Laravel Eff ApiController

/-! ### Members of the envelopes -/

/-- An object is no list if its first key is not the first of a list. -/
theorem member_of_key {key : String} (hkey : key ≠ "0") (v : Value) (es : List (String × Value))
    (name : String) :
    member (some (.arr ((key, v) :: es))) name = .ok (((key, v) :: es).lookup name) := by
  have hlist : (Value.arr ((key, v) :: es)).asList? = none := by
    rw [Value.asList?, if_neg]
    intro h
    rw [List.map_cons, Value.entriesFrom] at h
    exact hkey (congrArg Prod.fst (List.cons.inj h).1)
  rw [member, hlist]
  rfl

theorem member_status_successData (data : Value) :
    member (some (successData data)) "status" = .ok (some (.str "success")) :=
  member_of_key (by decide) _ _ _

/-- The success envelope has no member but its status and its data. -/
theorem member_successData {name : String} (hstatus : name ≠ "status") (hdata : name ≠ "data")
    (data : Value) : member (some (successData data)) name = .ok none := by
  rw [successData, member_of_key (by decide), List.lookup_cons, List.lookup_cons,
    beq_eq_false_iff_ne.mpr hstatus, beq_eq_false_iff_ne.mpr hdata]
  rfl

/-- The error envelope. -/
def errorData (message : String) : Value :=
  .arr [("status", .str "error"), ("message", .str message)]

theorem member_status_errorData (message : String) :
    member (some (errorData message)) "status" = .ok (some (.str "error")) :=
  member_of_key (by decide) _ _ _

theorem fetchProducts_successData (data : Value) : fetchProducts (successData data) = none := by
  rw [fetchProducts, member_status_successData]
  simp only
  rw [member_successData (by decide) (by decide)]

theorem fetchProducts_errorData (message : String) :
    fetchProducts (errorData message) = some (.ofList []) := by
  rw [fetchProducts, member_status_errorData]
  rfl

/-- A length is asked of `undefined`. -/
theorem loadList_successData {key : String} (hstatus : key ≠ "status") (hdata : key ≠ "data")
    (data : Value) : loadList key (successData data) = .raised := by
  rw [loadList, member_status_successData]
  simp only
  rw [member_successData hstatus hdata]

theorem loadList_errorData (key message : String) :
    loadList key (errorData message) = .skipped := by
  rw [loadList, member_status_errorData]
  rfl

/-! ### Lists -/

/-- The actions whose answers the views look for a list in. -/
def listActions : List Action := [.getProducts, .getUserCart, .viewTransactionSummary]

/-- The backend answers the request of a call with a list. -/
def Returns (c : Call) (s : Session) (records : List Value) : Prop :=
  ∃ q r, c.action.outgoing c.env c.request s = some q ∧ c.env.remote [] q = .response r ∧
    r.status = 200 ∧ c.env.json r = .ofList records

/-- A view reads `x` out of the answer of a call. -/
def Reads {α : Type} (view : Value → α) (c : Call) (s : Session) (x : α) : Prop :=
  ∃ status data, c.Answers s (.json status data) ∧ view data = x

variable {c : Call} {s : Session} {records : List Value}

theorem run_answerData (env : Env) (st : St) (r : HttpResponse) :
    (answerData r).run env st =
      if (successData (env.json r)).encodable then (.ok (.json 200 (successData (env.json r))), st)
      else (.error (.ofMessage (successData (env.json r)).encodeError), st) := by
  have hdecode : (decode r).run env st = (.ok (env.json r), st) := rfl
  rw [answerData, run_bind_of_ok hdecode, json]
  split <;> rfl

/-- A list is answered as data.  One that cannot be encoded is not empty, and is answered with the
error envelope. -/
theorem answers_of_returns (hc : c.action ∈ listActions) (h : Returns c s records) :
    c.Answers s (.json 200 (successData (.ofList records))) ∨
      records ≠ [] ∧ ∃ message, c.Answers s (.json 500 (errorData message)) := by
  obtain ⟨q, r, hq, hr, hstatus, hjson⟩ := h
  have hne : c.action ≠ .logout := by
    intro heq
    rw [heq] at hc
    exact absurd hc (by decide)
  have hreply : c.action.reply (s "user") r = answerData r := by
    simp only [listActions, List.mem_cons, List.not_mem_nil, or_false] at hc
    rcases hc with hc | hc | hc
    all_goals
      rw [hc, Action.reply, HttpResponse.successful, hstatus]
      rfl
  have hrun := run_answerData c.env ⟨s, [⟨q, .response r⟩]⟩ r
  rw [hjson] at hrun
  unfold Call.Answers
  rw [Call.result_of_response hne hq hr, hreply, attempt]
  by_cases henc : (successData (.ofList records)).encodable = true
  · rw [if_pos henc] at hrun
    left
    rw [run_handle_of_ok hrun]
  · rw [if_neg henc] at hrun
    right
    refine ⟨?_, ?_⟩
    · rintro rfl
      exact henc (by decide)
    · rw [run_handle_of_error hrun]
      exact ⟨_, rfl⟩

/-- What a view makes of the two envelopes is all it can read. -/
theorem not_reads_of_returns {α : Type} {view : Value → α} {x : α} (hc : c.action ∈ listActions)
    (h : Returns c s records)
    (hsuccess : view (successData (.ofList records)) ≠ x)
    (herror : records ≠ [] → ∀ message, view (errorData message) ≠ x) :
    ¬ Reads view c s x := by
  rintro ⟨status, data, hanswer, hview⟩
  unfold Call.Answers at hanswer
  rcases answers_of_returns hc h with hok | ⟨hrecords, message, herr⟩
  · rw [hok] at hanswer
    obtain ⟨-, rfl⟩ := Response.json.inj (Except.ok.inj hanswer)
    exact hsuccess hview
  · rw [herr] at hanswer
    obtain ⟨-, rfl⟩ := Response.json.inj (Except.ok.inj hanswer)
    exact herror hrecords message hview

theorem not_reads_loadList {key : String} (hstatus : key ≠ "status") (hkey : key ≠ "data")
    (hc : c.action ∈ listActions) (h : Returns c s records) :
    ¬ Reads (loadList key) c s (.read (.ofList records)) := by
  apply not_reads_of_returns hc h
  · rw [loadList_successData hstatus hkey]
    nofun
  · intro _ message
    rw [loadList_errorData]
    nofun

theorem not_reads_fetchProducts (hc : c.action ∈ listActions) (h : Returns c s records) :
    ¬ Reads fetchProducts c s (some (.ofList records)) := by
  apply not_reads_of_returns hc h
  · rw [fetchProducts_successData]
    nofun
  · -- the page is empty, and the list was not
    intro hrecords message
    rw [fetchProducts_errorData]
    intro heq
    have hlist := congrArg Value.asList? (Option.some.inj heq)
    rw [Value.asList?_ofList, Value.asList?_ofList] at hlist
    exact hrecords (Option.some.inj hlist).symm

/-! ### Tokens -/

/-- A checkout succeeds, and this is the token Midtrans returned for it. -/
def Pays (c : Call) (s : Session) (token : Value) : Prop :=
  c.succeeds s = true ∧ ∃ q m, (c.trace s).getLast? = some ⟨q, .response m⟩ ∧
    (c.env.json m).get? "token" = some token

/-- No answer of `m` has a token beside its status. -/
def Tokenless (m : Php Response) : Prop :=
  Triple (fun _ => True) m fun response _ =>
    ∀ status data, response = .json status data → snapToken data = none

theorem snapToken_successData (data : Value) : snapToken (successData data) = none := by
  rw [snapToken, member_status_successData, member_successData (by decide) (by decide)]
  rfl

theorem snapToken_errorData (message : String) : snapToken (errorData message) = none := by
  rw [snapToken, member_status_errorData]
  rfl

theorem tokenless_checkout : Tokenless checkout := by
  have herror : ∀ (status : Nat) (message : String) (status' : Nat) (data : Value),
      errorJson status message = .json status' data → snapToken data = none := by
    intro status message status' data h
    obtain ⟨-, rfl⟩ := Response.json.inj h
    exact snapToken_errorData message
  refine triple_handle ?_ (triple_caught (fun message _ => herror 500 message) _)
  refine triple_bind_any fun user => triple_ite (fun _ => triple_pure fun _ _ => herror 401 _) ?_
  refine fun _ => triple_bind_any fun userId => triple_bind_any fun r => ?_
  refine triple_ite (fun _ => ?_) fun _ => triple_throw _
  refine triple_createPayment (fun data _ status data' h => ?_) _ r
  obtain ⟨-, rfl⟩ := Response.json.inj h
  exact snapToken_successData data

theorem not_reads_snapToken (request : Request) (env : Env) (s : Session) (token : Value) :
    ¬ Reads snapToken ⟨.checkout, request, env⟩ s (some token) := by
  rintro ⟨status, data, hanswer, hview⟩
  have h := wp_ok (tokenless_checkout env (.initial s) trivial) (Prod.ext hanswer rfl)
  rw [h status data rfl] at hview
  cases hview

/-! ### The views -/

/-- The views read what the backend and Midtrans return. -/
structure SameFormat (request : Request) (env : Env) (s : Session) (records : List Value)
    (token : Value) : Prop where
  products : Returns ⟨.getProducts, request, env⟩ s records →
    Reads fetchProducts ⟨.getProducts, request, env⟩ s (some (.ofList records)) ∧
      Reads loadProducts ⟨.getProducts, request, env⟩ s (.read (.ofList records))
  cartItems : Returns ⟨.getUserCart, request, env⟩ s records →
    Reads loadCart ⟨.getUserCart, request, env⟩ s (.read (.ofList records))
  transactions : Returns ⟨.viewTransactionSummary, request, env⟩ s records →
    Reads loadTransactions ⟨.viewTransactionSummary, request, env⟩ s (.read (.ofList records))
  token : Pays ⟨.checkout, request, env⟩ s token →
    Reads snapToken ⟨.checkout, request, env⟩ s (some token)

/-- Whatever list the backend returns and whatever token Midtrans returns: none of the five readers
finds it in the answer. -/
theorem views_miss_answers (request : Request) (env : Env) (s : Session) (records : List Value)
    (token : Value) :
    (Returns ⟨.getProducts, request, env⟩ s records →
      ¬ Reads fetchProducts ⟨.getProducts, request, env⟩ s (some (.ofList records)) ∧
        ¬ Reads loadProducts ⟨.getProducts, request, env⟩ s (.read (.ofList records))) ∧
    (Returns ⟨.getUserCart, request, env⟩ s records →
      ¬ Reads loadCart ⟨.getUserCart, request, env⟩ s (.read (.ofList records))) ∧
    (Returns ⟨.viewTransactionSummary, request, env⟩ s records →
      ¬ Reads loadTransactions ⟨.viewTransactionSummary, request, env⟩ s
        (.read (.ofList records))) ∧
    (Pays ⟨.checkout, request, env⟩ s token →
      ¬ Reads snapToken ⟨.checkout, request, env⟩ s (some token)) := by
  refine ⟨fun h => ⟨?_, ?_⟩, fun h => ?_, fun h => ?_, fun _ => ?_⟩
  · exact not_reads_fetchProducts (by simp [listActions]) h
  · exact not_reads_loadList (by decide) (by decide) (by simp [listActions]) h
  · exact not_reads_loadList (by decide) (by decide) (by simp [listActions]) h
  · exact not_reads_loadList (by decide) (by decide) (by simp [listActions]) h
  · exact not_reads_snapToken request env s token

/-- The backend's only product. -/
def sampleProduct : Value :=
  .arr [("product_id", .int 1), ("product_name", .str "Oil"), ("price", .int 100000)]

/-- The JSON text of the list of it. -/
def sampleProductsBody : Text :=
  .utf8 "[\x7b\"product_id\":1,\"product_name\":\"Oil\",\"price\":100000\x7d]"

/-- A visitor asks for the products, and the backend returns one. -/
def productsEnv : Env :=
  .answering (fun _ => .ofList [sampleProduct]) (.response ⟨200, sampleProductsBody⟩)

/-- The page of the products does not show it. -/
theorem product_not_read :
    ¬ ∀ (request : Request) (env : Env) (s : Session) (records : List Value) (token : Value),
      SameFormat request env s records token := by
  intro h
  let request : Request :=
    { verb := .get, path := "api/products", authorization := none, input := [] }
  have hreturns : Returns ⟨.getProducts, request, productsEnv⟩ (fun _ => .null) [sampleProduct] :=
    ⟨bareRequest .get (api ++ "/products"), ⟨200, sampleProductsBody⟩, rfl, rfl, rfl, rfl⟩
  have hreads := (h request productsEnv (fun _ => .null) [sampleProduct] .null).products hreturns
  exact not_reads_fetchProducts (by simp [listActions]) hreturns hreads.1

end Artha.Dashboard
