import Artha.MidtransHelper.Remote
import Artha.MidtransHelper.Spec.Snap

/-!
# What a helper sends, and what it reports

Over any sequence of calls and changes of the key, and whatever Midtrans answers: a call sends at
most one request, to the address of the method and with the key in force, and reports success
exactly if that request was answered with a 2xx status.  A call that raises has sent nothing, and
raises only because of its key (`reports_sound`).
-/

namespace Artha.MidtransHelper

open Php Laravel Eff

/-! ### What is asked of a report -/

/-- The key at each call of a sequence of uses. -/
def keysOf : Value → List Use → List Value
  | _, [] => []
  | _, .setServerKey key :: uses => keysOf key uses
  | key, .call _ :: uses => key :: keysOf key uses

/-- The calls of a sequence of uses. -/
def methodsOf : List Use → List Method
  | [] => []
  | .setServerKey _ :: uses => methodsOf uses
  | .call method :: uses => method :: methodsOf uses

/-- The verb and the address of a method. -/
def Method.Addresses (env : Env) (baseUrl : String) (q : HttpRequest) : Method → Prop
  | .createPaymentToken _ => q.verb = .post ∧ q.url = baseUrl ++ "/charge"
  | .getTransactionStatus orderId => q.verb = .get ∧
      ∃ order, orderId.toText env.rules.floatToString = .ok order ∧
        q.url = baseUrl ++ ("/" ++ order ++ "/status")
  | .cancelTransaction orderId => q.verb = .post ∧
      ∃ order, orderId.toText env.rules.floatToString = .ok order ∧
        q.url = baseUrl ++ ("/" ++ order ++ "/cancel")
  | .createSnapToken _ _ _ _ => q.verb = .post ∧ q.url = baseUrl ++ "/transactions"

/-- `null`, an array, or a text of fewer than four bytes. -/
def UnusableKey (env : Env) (serverKey : Value) : Prop :=
  ∀ key, serverKey.toStringParam env.rules.floatToString = .ok key →
    serverKey = .null ∨ key.utf8ByteSize < 4

/-- A report that can be relied on. -/
structure Report.Sound (env : Env) (baseUrl : String) (r : Report) : Prop where
  atMostOne : r.sent.length ≤ 1
  authorized : ∀ x ∈ r.sent, ∃ username,
    r.serverKey.toStringParam env.rules.floatToString = .ok username ∧
      x.request.basicAuth = some (username, "")
  addressed : ∀ x ∈ r.sent, r.method.Addresses env baseUrl x.request
  /-- Success is reported of a 2xx answer, and of nothing else. -/
  told : ∀ result, r.result = .ok result → ∃ b, result.lookup "success" = some (.value (.bool b)) ∧
    (b = true ↔ ∃ x ∈ r.sent, x.succeeded = true)
  raised : ∀ e, r.result = .error e →
    r.sent = [] ∧ (∃ message, e = .error message) ∧ UnusableKey env r.serverKey

variable {env : Env} {h : Config.NewHelper} {st : St} {m : Method}

/-- The call returned, having sent what its report says. -/
def Told (env : Env) (h : Config.NewHelper) (m : Method) (st : St)
    (result : List (String × Entry)) (st' : St) : Prop :=
  ∃ sent, st' = { st with trace := st.trace ++ sent } ∧
    Report.Sound env h.baseUrl ⟨m, h.serverKey, .ok result, sent⟩

/-- The call raised. -/
def Raised (env : Env) (h : Config.NewHelper) (st : St) (e : Throwable) (st' : St) : Prop :=
  st' = st ∧ (∃ message, e = .error message) ∧ UnusableKey env h.serverKey

/-! ### The ways out of a call -/

/-- Nothing was sent, and no success is reported. -/
theorem told_nothing {result : List (String × Entry)}
    (hresult : result.lookup "success" = some (.value (.bool false))) :
    Told env h m st result st := by
  refine ⟨[], by rw [List.append_nil], Nat.zero_le 1, by simp, by simp, ?_, by simp⟩
  intro result' hok
  obtain rfl := Except.ok.inj hok
  exact ⟨false, hresult, by simp⟩

/-- A request was sent, and the report says what became of it. -/
theorem told_exchange {result : List (String × Entry)} {x : Exchange} {username : String}
    (hkey : h.serverKey.toStringParam env.rules.floatToString = .ok username)
    (hauth : x.request.basicAuth = some (username, ""))
    (haddress : m.Addresses env h.baseUrl x.request)
    (hresult : result.lookup "success" = some (.value (.bool x.succeeded))) :
    Told env h m st result (st.record x) := by
  refine ⟨[x], rfl, Nat.le_refl 1, ?_, ?_, ?_, by simp⟩
  · intro y hy
    obtain rfl := List.mem_singleton.mp hy
    exact ⟨username, hkey, hauth⟩
  · intro y hy
    obtain rfl := List.mem_singleton.mp hy
    exact haddress
  · intro result' hok
    obtain rfl := Except.ok.inj hok
    exact ⟨x.succeeded, hresult, by simp⟩

/-- An answer, of which success is reported if its status is 2xx. -/
theorem told_answer {q : HttpRequest} {username : String} {good bad : List (String × Entry)}
    (hkey : h.serverKey.toStringParam env.rules.floatToString = .ok username)
    (hauth : q.basicAuth = some (username, "")) (haddress : m.Addresses env h.baseUrl q)
    (hgood : good.lookup "success" = some (.value (.bool true)))
    (hbad : bad.lookup "success" = some (.value (.bool false))) (r : HttpResponse) :
    if r.successful then Told env h m st good (st.record ⟨q, .response r⟩)
    else Told env h m st bad (st.record ⟨q, .response r⟩) := by
  have hsucceeded : Exchange.succeeded ⟨q, .response r⟩ = r.successful := rfl
  split_ifs with hr
  · refine told_exchange hkey hauth haddress ?_
    rw [hsucceeded, hr]
    exact hgood
  · refine told_exchange hkey hauth haddress ?_
    rw [hsucceeded, Bool.eq_false_of_not_eq_true hr]
    exact hbad

theorem raised_null (hnull : h.serverKey = .null) (message : String) :
    Raised env h st (.error message) st :=
  ⟨rfl, ⟨message, rfl⟩, fun _ _ => Or.inl hnull⟩

/-- A key without a text: an array, whose `TypeError` is not caught. -/
theorem raised_of_toStringParam {e : Throwable}
    (he : h.serverKey.toStringParam env.rules.floatToString = .error e) :
    Raised env h st e st := by
  have hnone : UnusableKey env h.serverKey := by
    intro key hkey
    rw [he] at hkey
    cases hkey
  refine ⟨rfl, ?_, hnone⟩
  cases hserver : h.serverKey with
  | arr es =>
    rw [hserver] at he
    obtain rfl := Except.error.inj he
    exact ⟨_, rfl⟩
  | null | bool b | int n | float bits | str s =>
    rw [hserver] at he
    cases he

theorem wp_stringArgument (v : Value) {Q : String → St → Prop} {E : Throwable → St → Prop} :
    wp (stringArgument v) env Q E st ↔
      (v = .null → E (.error "must be of type string, null given") st) ∧
      (v ≠ .null → wp (stringParam v) env Q E st) := by
  rw [stringArgument, wp_ite]
  by_cases hv : v = .null
  · simp [hv]
  · simp [hv]

/-! ### The calls -/

/-- What a raise comes to behind a `catch (\Exception $e)` that returns `reply`. -/
def CaughtAs (reply : Text → List (String × Entry)) (Q : List (String × Entry) → St → Prop)
    (E : Throwable → St → Prop) : Throwable → St → Prop
  | .exception message, st' => Q (reply message) st'
  | .error message, st' => E (.error message) st'

theorem wp_perform (op : Operation) {Q : List (String × Entry) → St → Prop}
    {E : Throwable → St → Prop} :
    wp (op.perform h) env Q E st ↔
      wp (op.exchange h) env Q (CaughtAs (replyFailed op.failed) Q E) st := by
  rw [Operation.perform, wp_handle]
  constructor
  · intro hpost
    refine wp_mono hpost (fun _ _ hQ => hQ) fun e st' he => ?_
    cases e <;> exact he
  · intro hpost
    refine wp_mono hpost (fun _ _ hQ => hQ) fun e st' he => ?_
    cases e <;> exact he

/-- Only an array has no text, and concatenating it is a warning. -/
theorem exception_of_toText {fmt : UInt64 → String} {v : Value} {e : Throwable}
    (he : v.toText fmt = .error e) : ∃ message, e = .exception message := by
  cases v with
  | arr es =>
    obtain rfl := Except.error.inj he
    exact ⟨_, rfl⟩
  | null | bool b | int n | float bits | str s => cases he

theorem wp_orderPath (orderId : Value) (action : String) {Q : String → St → Prop}
    {E : Throwable → St → Prop}
    (hQ : ∀ order, orderId.toText env.rules.floatToString = .ok order →
      Q ("/" ++ order ++ action) st)
    (hE : ∀ message, E (.exception message) st) : wp (orderPath orderId action) env Q E st := by
  rw [orderPath, wp_bind, wp_text]
  refine ⟨fun order horder => hQ order horder, ?_⟩
  intro e he
  obtain ⟨message, rfl⟩ := exception_of_toText he
  exact hE message

/-- A call that sends one request: the path may raise what is caught, and leads to the address of
the method. -/
theorem wp_perform_told (op : Operation)
    (hpath : ∀ (Q : String → St → Prop) (E : Throwable → St → Prop),
      (∀ path, (∀ username, m.Addresses env h.baseUrl (op.request h username path)) → Q path st) →
      (∀ message, E (.exception message) st) → wp op.path env Q E st) :
    wp (op.perform h) env (Told env h m st) (Raised env h st) st := by
  rw [wp_perform, Operation.exchange, wp_bind, wp_stringArgument]
  refine ⟨fun hnull => raised_null hnull _, fun _ => ?_⟩
  rw [wp_stringParam]
  refine ⟨fun username hkey => ?_, fun e he => ?_⟩
  · rw [wp_bind]
    refine hpath _ _ (fun path haddress => ?_) fun message => told_nothing rfl
    rw [wp_bind, wp_sent]
    refine ⟨fun _ => told_nothing rfl, fun r _ _ => ?_, fun message _ _ => ?_⟩
    · rw [wp_bind, wp_decode, wp_ite, wp_pure, wp_pure]
      exact told_answer hkey rfl (haddress username) rfl rfl r
    · exact told_exchange hkey rfl (haddress username) rfl
  · have hraised : Raised env h st e st := raised_of_toStringParam he
    obtain ⟨message, rfl⟩ := hraised.2.1
    exact hraised

theorem wp_createSnapToken_told (orderId amount customerDetails : Value)
    (items : List (String × Value)) :
    wp (createSnapToken h orderId amount customerDetails items) env
      (Told env h (.createSnapToken orderId amount customerDetails items) st)
      (Raised env h st) st := by
  rw [wp_createSnapToken, wp_postSnapTransaction]
  refine ⟨fun callback _ => ⟨fun order _ => ⟨fun key hkey => ⟨fun hshort => ?_, fun _ => ?_⟩,
    fun e he => ?_⟩, fun e he => ?_⟩, fun e he => ?_⟩
  · -- `str_repeat` raises
    refine ⟨rfl, ⟨_, rfl⟩, ?_⟩
    intro key' hkey'
    obtain rfl := Except.ok.inj (hkey.symm.trans hkey')
    exact Or.inr hshort
  · rw [wp_sent]
    refine ⟨fun _ => told_nothing rfl, fun r _ _ => ?_, fun message _ _ => ?_⟩
    · refine told_answer hkey rfl ?_ rfl rfl r
      exact ⟨rfl, rfl⟩
    · exact told_exchange hkey rfl ⟨rfl, rfl⟩ rfl
  · have hraised : Raised env h st e st := raised_of_toStringParam he
    obtain ⟨message, rfl⟩ := hraised.2.1
    exact hraised
  · obtain ⟨message, rfl⟩ := exception_of_toText he
    exact told_nothing rfl
  · obtain ⟨message, rfl⟩ := exception_of_toText he
    exact told_nothing rfl

theorem wp_call (env : Env) (h : Config.NewHelper) (st : St) (m : Method) :
    wp (m.call h) env (Told env h m st) (Raised env h st) st := by
  cases m with
  | createPaymentToken transactionData =>
    refine wp_perform_told _ ?_
    intro Q E hQ _
    exact hQ _ fun _ => ⟨rfl, rfl⟩
  | getTransactionStatus orderId =>
    refine wp_perform_told _ ?_
    intro Q E hQ hE
    exact wp_orderPath orderId "/status" (fun order horder =>
      hQ _ fun _ => ⟨rfl, order, horder, rfl⟩) hE
  | cancelTransaction orderId =>
    refine wp_perform_told _ ?_
    intro Q E hQ hE
    exact wp_orderPath orderId "/cancel" (fun order horder =>
      hQ _ fun _ => ⟨rfl, order, horder, rfl⟩) hE
  | createSnapToken orderId amount customerDetails items =>
    exact wp_createSnapToken_told orderId amount customerDetails items

/-! ### Sequences of uses -/

/-- One call, as `reports` records it. -/
theorem run_call (env : Env) (h : Config.NewHelper) (st : St) (m : Method) :
    ∃ result sent, (m.call h).run env st = (result, { st with trace := st.trace ++ sent }) ∧
      Report.Sound env h.baseUrl ⟨m, h.serverKey, result, sent⟩ := by
  have hwp := wp_call env h st m
  unfold wp at hwp
  cases hrun : (m.call h).run env st with
  | mk result st' =>
    rw [hrun] at hwp
    cases result with
    | ok result =>
      obtain ⟨sent, rfl, hsound⟩ := hwp
      exact ⟨_, sent, rfl, hsound⟩
    | error e =>
      obtain ⟨rfl, hmessage, hkey⟩ := hwp
      refine ⟨_, [], by rw [List.append_nil], Nat.zero_le 1, by simp, by simp, by simp, ?_⟩
      intro e' he'
      obtain rfl := Except.error.inj he'
      exact ⟨rfl, hmessage, hkey⟩

theorem reports_call (env : Env) (h : Config.NewHelper) (st : St) (m : Method) (uses : List Use) :
    ∃ result sent, Report.Sound env h.baseUrl ⟨m, h.serverKey, result, sent⟩ ∧
      reports env h st (.call m :: uses) =
        (⟨m, h.serverKey, result, sent⟩ ::
            (reports env h { st with trace := st.trace ++ sent } uses).1,
          (reports env h { st with trace := st.trace ++ sent } uses).2) := by
  obtain ⟨result, sent, hrun, hsound⟩ := run_call env h st m
  refine ⟨result, sent, hsound, ?_⟩
  rw [reports, hrun]
  dsimp only
  rw [List.drop_left]

/-- Over any sequence of uses, every call is reported in order, with the key set last before it; a
report is sound, and what the reports list as sent is all that was sent. -/
theorem reports_sound (env : Env) (h : Config.NewHelper) (st : St) (uses : List Use) :
    let run := reports env h st uses
    run.1.map (·.method) = methodsOf uses ∧
      run.1.map (·.serverKey) = keysOf h.serverKey uses ∧
      (∀ r ∈ run.1, r.Sound env h.baseUrl) ∧
      run.2.trace = st.trace ++ run.1.flatMap (·.sent) ∧ run.2.session = st.session := by
  dsimp only
  induction uses generalizing h st with
  | nil => exact ⟨rfl, rfl, by simp [reports], by simp [reports], rfl⟩
  | cons use uses ih =>
    cases use with
    | setServerKey key => exact ih (setServerKey h key) st
    | call m =>
      obtain ⟨result, sent, hsound, hreports⟩ := reports_call env h st m uses
      obtain ⟨hmethods, hkeys, hall, htrace, hsession⟩ := ih h { st with trace := st.trace ++ sent }
      rw [hreports]
      refine ⟨?_, ?_, ?_, ?_, hsession⟩
      · rw [List.map_cons, hmethods, methodsOf]
      · rw [List.map_cons, hkeys, keysOf]
      · intro r hr
        rcases List.mem_cons.mp hr with rfl | hr
        · exact hsound
        · exact hall r hr
      · rw [htrace, List.flatMap_cons, List.append_assoc]

end Artha.MidtransHelper
