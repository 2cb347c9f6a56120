import Artha.ApiController.Spec.Honest
import Artha.ApiController.Spec.Outgoing
import Artha.Routes.Spec.Guards

/-!
# Which routes keep the roles apart

The routes under `admin`, `manager`, `sales` and `customer` should be for the users of that role.
The closures with a guard are (`declines_roleGuard`).  The others call an action of the controller,
which looks for a user or a token at most and never at the role, or render a page outright; what
they do in a session of another role is `Spared`, and `isolated_iff` says that this is all.
-/

namespace Artha.Routes

open Php Laravel Eff ApiController

/-! ### Isolation -/

/-- The prefixes that stand for a role. -/
def roles : List String := ["admin", "manager", "sales", "customer"]

/-- The requests to the backend in a trace. -/
def toBackendIn (trace : List Exchange) : List HttpRequest :=
  (trace.map Exchange.request).filter toBackend

/-- A redirect to the login page, or a 401 or 403. -/
def IsRefusal (response : Response) : Prop :=
  (∃ flash, response = .redirect "/login" flash) ∨ response.status = 401 ∨ response.status = 403

/-- The visitor is turned away, and the backend does not hear of it. -/
def TurnsAway (x : Except Throwable Response × St) : Prop :=
  (∃ response, x.1 = .ok response ∧ IsRefusal response) ∧ toBackendIn x.2.trace = []

/-- The route is for the users of a role: only they see its page or reach the backend through it,
and everybody else is turned away. -/
structure Isolated (role : String) (route : Route) (request : Request) (env : Env) (v : Visitor) :
    Prop where
  confined : Renders (route.result request env v.session) ∨
    toBackendIn (route.result request env v.session).2.trace ≠ [] → hasRole role v.session = true
  refused : hasRole role v.session = false → TurnsAway (route.result request env v.session)

/-- Where the role does not match, a route without a guard turns the visitor away only if its
action happens to look for something the session does not hold. -/
def Spared (request : Request) (env : Env) (s : Session) : Route → Prop
  | .salesDashboard | .salesStocks | .salesProducts | .customerProducts => False
  | .customerTransactionsSummary | .customerCheckout => Action.noUser s = true
  | .customerTransactionsDetail =>
    accepts env.rules request.all viewTransactionDetailByIDRules = true ∧ Action.noUser s = true
  | .customerCartIndex => Action.noUser s = true ∨ Action.noToken s = true
  | .customerCartAdd =>
    accepts env.rules request.all addToCartRules = true ∧
      (Action.noUser s = true ∨ Action.noToken s = true)
  | .customerCartDelete =>
    accepts env.rules request.all deleteCartItemsRules = true ∧
      (Action.noUser s = true ∨ Action.noToken s = true)
  | _ => True

/-! ### Refusals -/

theorem isRefusal_redirect (flash : List (String × String)) :
    IsRefusal (.redirect "/login" flash) :=
  .inl ⟨flash, rfl⟩

theorem isRefusal_unauthorized : IsRefusal unauthorized := .inr (.inl rfl)

theorem not_isRefusal_errorJson {status : Nat} (message : String) (h401 : status ≠ 401)
    (h403 : status ≠ 403) : ¬ IsRefusal (errorJson status message) := by
  rintro (⟨flash, h⟩ | h | h)
  · cases h
  · exact h401 h
  · exact h403 h

/-- A page is answered with status 200. -/
theorem not_isRefusal_view (name : String) : ¬ IsRefusal (.view name) := by
  rintro (⟨flash, h⟩ | h | h)
  · cases h
  · simp [Response.status] at h
  · simp [Response.status] at h

theorem TurnsAway.not_renders {x : Except Throwable Response × St} (h : TurnsAway x) :
    ¬ Renders x := by
  rintro ⟨name, hview⟩
  obtain ⟨⟨response, hresponse, hrefusal⟩, -⟩ := h
  obtain rfl := Except.ok.inj (hresponse.symm.trans hview)
  exact not_isRefusal_view name hrefusal

variable {env : Env} {request : Request} {route : Route} {role : String} {v : Visitor}

/-- A visitor who is turned away sees no page, so isolation is being turned away. -/
theorem isolated_iff_turnsAway : Isolated role route request env v ↔
    hasRole role v.session = true ∨ TurnsAway (route.result request env v.session) := by
  constructor
  · intro h
    cases hr : hasRole role v.session with
    | true => exact .inl rfl
    | false => exact .inr (h.refused hr)
  · rintro (hr | haway)
    · exact ⟨fun _ => hr, fun hno => by simp [hr] at hno⟩
    · refine ⟨fun hreach => ?_, fun _ => haway⟩
      rcases hreach with hpage | hsent
      · exact absurd hpage haway.not_renders
      · exact absurd haway.2 hsent

/-! ### Guards -/

variable {st : St}

/-- Run from `st`, `m` answers with a refusal and changes nothing. -/
def Declines (env : Env) (st : St) (m : Php Response) : Prop :=
  wp m env (fun r st' => IsRefusal r ∧ st' = st) (fun _ _ => False) st

theorem Declines.turnsAway {m : Php Response} {s : Session} (h : Declines env (.initial s) m) :
    TurnsAway (m.run env (.initial s)) := by
  unfold Declines wp at h
  split at h
  · next response st hrun =>
    rw [hrun]
    exact ⟨⟨response, rfl, h.1⟩, by rw [h.2]; rfl⟩
  · exact h.elim

theorem declines_roleGuard {refusal : Response} {k : Php Response}
    (hno : hasRole role v.session = false) (hrefusal : IsRefusal refusal) :
    Declines env (.initial v.session) (roleGuard role refusal k) := by
  unfold Declines wp
  rw [run_roleGuard v rfl, if_neg (by simp [hno])]
  exact ⟨hrefusal, rfl⟩

theorem declines_adminGuard {refusal : Response} {k : Php Response}
    (hno : hasRole "admin" v.session = false) (hrefusal : IsRefusal refusal) :
    Declines env (.initial v.session) (adminGuard refusal k) := by
  unfold Declines wp
  rw [run_adminGuard v rfl, if_neg (by simp [hno])]
  exact ⟨hrefusal, rfl⟩

/-! ### Actions without a guard -/

/-- Run from `st`, `m` answers with a refusal only after it has sent a request. -/
def Loud (env : Env) (st : St) (m : Php Response) : Prop :=
  wp m env (fun r st' => IsRefusal r → st'.trace ≠ []) (fun _ _ => True) st

theorem loud_attempt {failure : String} {body : Php Response} (h : Loud env st body) :
    Loud env st (attempt failure body) := by
  unfold Loud
  rw [wp_attempt]
  refine wp_mono h (fun _ _ hr => hr) fun e st' _ => ?_
  rw [wp_caught]
  split
  · exact fun hr => absurd hr (not_isRefusal_errorJson _ (by decide) (by decide))
  · trivial
  · trivial

theorem loud_validated {lines : List (Attribute × List Rule)} {k : Php Response}
    (h : accepts env.rules request.all lines = true → Loud env st k) :
    Loud env st (validated request lines k) :=
  (wp_validated request lines k).mpr
    ⟨fun _ _ hr => absurd hr (not_isRefusal_errorJson _ (by decide) (by decide)), h⟩

theorem loud_withUser {k : Value → Php Response} (hu : Action.noUser st.session = false)
    (h : Loud env st (k (st.session "user"))) : Loud env st (withUser k) :=
  (wp_withUser k).mpr ⟨fun hno => by simp [hu] at hno, fun _ => h⟩

theorem loud_withTokenOf {message : String} {k : Value → Php Response}
    (ht : Action.noToken st.session = false) (h : ∀ token, Loud env st (k token)) :
    Loud env st (withTokenOf (st.session "user") message k) := by
  rw [Action.noToken, Bool.not_eq_false'] at ht
  exact (wp_withTokenOf _ message k).mpr ⟨fun hno => by simp [ht] at hno, fun _ => h _⟩

theorem loud_bind_frame {α : Type} {m : Php α} {k : α → Php Response} (hm : Frame id m)
    (h : ∀ a, Loud env st (k a)) : Loud env st (m >>= k) := by
  have hst : (m.run env st).2 = st := hm env st
  unfold Loud
  rw [wp_bind]
  unfold wp
  split
  · next a st' hrun =>
    rw [hrun] at hst
    subst hst
    exact h a
  · trivial

/-- What is sent stays sent. -/
theorem loud_forward {q : HttpRequest} {k : HttpResponse → Php Response}
    (h : ∀ r, wp (k r) env (fun _ st' => st'.trace ≠ []) (fun _ _ => True)
      (st.record ⟨q, .response r⟩)) : Loud env st (forward q k) := by
  unfold Loud
  rw [wp_forward]
  refine ⟨fun _ => trivial, fun r _ _ => ⟨fun _ => ?_, fun _ => trivial⟩, fun _ _ _ => trivial⟩
  exact wp_mono (h r) (fun _ _ hne _ => hne) fun _ _ h => h

theorem sent_of_frame {m : Php Response} {x : Exchange} (hm : Frame St.trace m) :
    wp m env (fun _ st' => st'.trace ≠ []) (fun _ _ => True) (st.record x) := by
  refine wp_mono (hm.wp env (st.record x)) (fun _ st' hf => ?_) fun _ _ _ => trivial
  rw [hf]
  simp

/-- The second half of `checkout` sends at most one more request. -/
theorem sent_createPayment (user : Value) (r : HttpResponse) {x : Exchange} :
    wp (createPayment user r) env (fun _ st' => st'.trace ≠ []) (fun _ _ => True)
      (st.record x) := by
  have hsends : Sends env (st.record x) (createPayment user r) (paymentBuilt env user r) :=
    (asks_createPayment user r).sends (frame_paymentReply _)
  refine wp_mono hsends (fun _ st' htrace => ?_) fun _ _ _ => trivial
  rw [htrace, exchanged]
  simp

/-- A call that is loud and sends nothing to the backend does not turn the visitor away. -/
theorem not_turnsAway_of_loud {a : Action} {s : Session}
    (h : Loud env (.initial s) (a.run request)) :
    ¬ TurnsAway ((a.run request).run env (.initial s)) := by
  rintro ⟨⟨response, hresponse, hrefusal⟩, hsilent⟩
  have hne := wp_ok h (Prod.ext hresponse rfl) hrefusal
  have hback : Call.backend ⟨a, request, env⟩ s = [] := hsilent
  rw [Call.backend_eq] at hback
  have hhead := Call.trace_head ⟨a, request, env⟩ s
  simp only at hback
  rw [Option.toList_eq_nil_iff.mp hback] at hhead
  exact hne (List.head?_eq_none_iff.mp hhead)

/-- A call that sends the backend a request does not turn the visitor away. -/
theorem not_turnsAway_of_outgoing {a : Action} {s : Session} {q : HttpRequest}
    (h : a.outgoing env request s = some q) :
    ¬ TurnsAway ((a.run request).run env (.initial s)) := by
  rintro ⟨-, hsilent⟩
  have hback : Call.backend ⟨a, request, env⟩ s = [] := hsilent
  rw [Call.backend_eq] at hback
  simp [h] at hback

/-! ### Actions that look for a user or a token -/

theorem declines_attempt {failure : String} {body : Php Response} (h : Declines env st body) :
    Declines env st (attempt failure body) := by
  unfold Declines
  rw [wp_attempt]
  exact wp_mono h (fun _ _ hr => hr) fun _ _ hfalse => hfalse.elim

theorem declines_validated {lines : List (Attribute × List Rule)} {k : Php Response}
    (hacc : accepts env.rules request.all lines = true) (h : Declines env st k) :
    Declines env st (validated request lines k) :=
  (wp_validated request lines k).mpr
    ⟨fun message hm => by simp [accepts, hm] at hacc, fun _ => h⟩

theorem declines_withUser {k : Value → Php Response} (hu : Action.noUser st.session = true) :
    Declines env st (withUser k) :=
  (wp_withUser k).mpr ⟨fun _ => ⟨.inr (.inl rfl), rfl⟩, fun hno => by simp [hu] at hno⟩

/-- The cart actions, behind their validators: the user and its token are looked for. -/
theorem declines_cart {message : String} {k : Value → Php Response}
    (h : Action.noUser st.session = true ∨ Action.noToken st.session = true) :
    Declines env st (withUser fun user => withTokenOf user message k) := by
  cases hu : Action.noUser st.session with
  | true => exact declines_withUser hu
  | false =>
    have ht : ((st.session "user").getD "token" .null).truthy = false := by
      simpa [hu, Action.noToken] using h
    refine (wp_withUser _).mpr ⟨fun hno => by simp [hu] at hno, fun _ => ?_⟩
    exact (wp_withTokenOf _ message k).mpr
      ⟨fun _ => ⟨.inr (.inl rfl), rfl⟩, fun hyes => by simp [ht] at hyes⟩

theorem loud_cart {message : String} {q : Value → HttpRequest} {k : HttpResponse → Php Response}
    (h : ¬ (Action.noUser st.session = true ∨ Action.noToken st.session = true))
    (hk : ∀ {authorization} r, wp (k r) env (fun _ st' => st'.trace ≠ []) (fun _ _ => True)
      (st.record ⟨q authorization, .response r⟩)) :
    Loud env st (withUser fun user => withTokenOf user message fun token => do
      forward (q (← bearer token)) k) := by
  obtain ⟨hu, ht⟩ := not_or.mp h
  rw [Bool.not_eq_true] at hu ht
  apply loud_withUser hu
  apply loud_withTokenOf ht
  intro token
  apply loud_bind_frame (frame_bearer token)
  intro authorization
  exact loud_forward fun r => hk r

/-- An action that refuses where `p` and is loud elsewhere turns the visitor away exactly
where `p`. -/
theorem turnsAway_iff (request : Request) (a : Action) {s : Session} {p : Prop}
    (hyes : p → Declines env (.initial s) (a.run request))
    (hno : ¬ p → Loud env (.initial s) (a.run request)) :
    TurnsAway ((a.run request).run env (.initial s)) ↔ p := by
  by_cases hp : p
  · exact ⟨fun _ => hp, fun _ => (hyes hp).turnsAway⟩
  · exact ⟨fun haway => absurd haway (not_turnsAway_of_loud (hno hp)), fun h => absurd h hp⟩

/-- The two cart actions with a validator. -/
theorem turnsAway_validated_iff {a : Action} {s : Session} {failure message : String}
    {lines : List (Attribute × List Rule)} {q : Value → HttpRequest}
    {k : HttpResponse → Php Response}
    (ha : a.run request = attempt failure (validated request lines
      (withUser fun user => withTokenOf user message fun token => do
        forward (q (← bearer token)) k)))
    (hk : ∀ {authorization} r, wp (k r) env (fun _ st' => st'.trace ≠ []) (fun _ _ => True)
      ((St.initial s).record ⟨q authorization, .response r⟩)) :
    TurnsAway ((a.run request).run env (.initial s)) ↔
      accepts env.rules request.all lines = true ∧
        (Action.noUser s = true ∨ Action.noToken s = true) := by
  refine turnsAway_iff request a (fun h => ?_) fun h => ?_
  · rw [ha]
    exact declines_attempt (declines_validated h.1 (declines_cart h.2))
  · rw [ha]
    apply loud_attempt
    apply loud_validated
    intro hacc
    exact loud_cart (fun hsome => h ⟨hacc, hsome⟩) hk

/-! ### The routes -/

/-- A visitor without the role of the route's prefix is turned away exactly where `Spared` says. -/
theorem turnsAway_iff_spared (hrole : role ∈ roles) (hpath : route.path.head? = some role)
    (hno : hasRole role v.session = false) :
    TurnsAway (route.result request env v.session) ↔ Spared request env v.session route := by
  have hout : ∀ {a : Action} {q : HttpRequest}, a.outgoing env request v.session = some q →
      (TurnsAway ((a.run request).run env (.initial v.session)) ↔ False) :=
    fun h => iff_false_intro (not_turnsAway_of_outgoing h)
  cases route with
  | adminDashboard =>
    obtain rfl := Option.some.inj hpath
    exact iff_true_intro (declines_adminGuard hno (isRefusal_redirect [])).turnsAway
  | adminCreateAccount | adminUsersIndex | adminUsersDelete =>
    obtain rfl := Option.some.inj hpath
    exact iff_true_intro (declines_adminGuard hno isRefusal_unauthorized).turnsAway
  | managerDashboard | customerDashboard =>
    obtain rfl := Option.some.inj hpath
    exact iff_true_intro (declines_roleGuard hno (isRefusal_redirect _)).turnsAway
  | salesDashboard =>
    -- the closure renders the page without looking at the session
    have hpage : Renders (Route.salesDashboard.result request env v.session) := ⟨_, rfl⟩
    exact iff_false_intro fun haway => haway.not_renders hpage
  | salesStocks => exact hout (a := .getStock) rfl
  | salesProducts | customerProducts => exact hout (a := .getProducts) rfl
  | customerTransactionsSummary =>
    refine turnsAway_iff request .viewTransactionSummary (fun hu => ?_) fun hu => ?_
    · exact declines_attempt (declines_withUser hu)
    · have hu' : Action.noUser v.session = false := Bool.not_eq_true _ ▸ hu
      apply loud_attempt
      apply loud_withUser hu'
      refine loud_bind_frame (frame_readKey _ _) fun id => loud_bind_frame (frame_text _)
        fun userId => ?_
      exact loud_forward fun r => sent_of_frame (frame_answerData r)
  | customerTransactionsDetail =>
    refine turnsAway_iff request .viewTransactionDetailByID (fun h => ?_) fun h => ?_
    · exact declines_attempt (declines_validated h.1 (declines_withUser h.2))
    · apply loud_attempt
      apply loud_validated
      intro hacc
      have hu : Action.noUser v.session = false := by
        rw [← Bool.not_eq_true]
        exact fun hu => h ⟨hacc, hu⟩
      apply loud_withUser hu
      apply loud_bind_frame (frame_text _)
      intro transactionId
      exact loud_forward fun r => sent_of_frame (frame_answerData r)
  | customerCheckout =>
    refine turnsAway_iff request .checkout (fun hu => ?_) fun hu => ?_
    · exact declines_attempt (declines_withUser hu)
    · have hu' : Action.noUser v.session = false := Bool.not_eq_true _ ▸ hu
      apply loud_attempt
      apply loud_withUser hu'
      apply loud_bind_frame (frame_readKey _ _)
      intro userId
      exact loud_forward fun r => sent_createPayment _ r
  | customerCartAdd =>
    exact turnsAway_validated_iff (a := .addToCart) rfl fun r => sent_of_frame (frame_answerData r)
  | customerCartIndex =>
    refine turnsAway_iff request .getUserCart (fun h => ?_) fun h => ?_
    · exact declines_attempt (declines_cart h)
    · apply loud_attempt
      exact loud_cart h fun r => sent_of_frame (frame_answerData r)
  | customerCartDelete =>
    exact turnsAway_validated_iff (a := .deleteCartItems) rfl fun _ => sent_of_frame (frame_json _)
  | root => cases hpath
  | _ =>
    -- not under one of the four prefixes
    obtain rfl := Option.some.inj hpath
    exact absurd hrole (by decide)

/-- For every route under one of the four prefixes, every request and every visitor: the route is
for the users of that role exactly when the visitor is one, or is spared. -/
theorem isolated_iff (hrole : role ∈ roles) (hpath : route.path.head? = some role)
    (request : Request) (env : Env) (v : Visitor) :
    Isolated role route request env v ↔
      hasRole role v.session = true ∨ Spared request env v.session route := by
  rw [isolated_iff_turnsAway]
  cases hr : hasRole role v.session with
  | true => simp
  | false => rw [turnsAway_iff_spared hrole hpath hr]

/-! ### A customer among the staff -/

/-- A logged-in user of a role. -/
def userOf (role : String) : Visitor where
  session := .ofUser (.arr [("id", .int 1), ("email", .str "u@artha.test"), ("name", .str "U"),
    ("token", .str "one"), ("role", .str role)])
  user := .inr ⟨_, role, rfl, rfl⟩

def anyRequest : Request where
  verb := .get
  path := ""
  authorization := none
  input := []

def routesEnv : Env := .answering (fun _ => .arr []) (.response ⟨200, .utf8 "[]"⟩)

/-- The manager's page is for managers: a customer is turned away. -/
theorem managerDashboard_isolated :
    Isolated "manager" .managerDashboard anyRequest routesEnv (userOf "customer") :=
  (isolated_iff (by decide) rfl anyRequest routesEnv (userOf "customer")).mpr (.inr trivial)

/-- The sales page is not for sales staff only: a customer is shown it. -/
theorem salesDashboard_not_isolated :
    ¬ ∀ role ∈ roles, ∀ route : Route, route.path.head? = some role →
      ∀ (request : Request) (env : Env) (v : Visitor), Isolated role route request env v := by
  intro h
  have hrole := (h "sales" (by decide) .salesDashboard rfl anyRequest routesEnv
    (userOf "customer")).confined (.inl ⟨"sales.dashboard", rfl⟩)
  exact absurd hrole (by decide)

end Artha.Routes
