import Artha.ApiController.Action
import Artha.Effect.Logic

/-!
# Weakest preconditions of the shared fragments

One rule per fragment of `ApiController.Basic`, in the form of one implication per way out.  The
proofs about actions use these and never unfold a fragment.
-/

namespace Artha.ApiController

open Php Laravel Eff

variable {env : Env} {Q : Response → St → Prop} {E : Throwable → St → Prop} {st : St}

theorem wp_attempt (failure : String) (body : Php Response) :
    wp (attempt failure body) env Q E st ↔
      wp body env Q (fun e st' => wp (caught failure e) env Q E st') st :=
  wp_handle _ _

theorem wp_validated (request : Request) (lines : List (Attribute × List Rule))
    (k : Php Response) :
    wp (validated request lines k) env Q E st ↔
      (∀ message, firstError env.rules request.all lines = some message →
        Q (errorJson 422 message) st) ∧
      (accepts env.rules request.all lines = true → wp k env Q E st) := by
  simp only [validated, wp_bind, wp_ask]
  cases h : firstError env.rules request.all lines with
  | none => simp [accepts, h]
  | some message => simp [accepts, h]

theorem wp_withUser (k : Value → Php Response) :
    wp (withUser k) env Q E st ↔
      (Action.noUser st.session = true → Q (errorJson 401 "User not logged in") st) ∧
      (Action.noUser st.session = false → wp (k (st.session "user")) env Q E st) := by
  simp only [withUser, wp_bind, wp_session, wp_ite, Action.noUser]
  cases (st.session "user").truthy <;> simp

theorem wp_withTokenOf (user : Value) (message : String) (k : Value → Php Response) :
    wp (withTokenOf user message k) env Q E st ↔
      ((user.getD "token" .null).truthy = false → Q (errorJson 401 message) st) ∧
      ((user.getD "token" .null).truthy = true → wp (k (user.getD "token" .null)) env Q E st) := by
  simp only [withTokenOf, wp_ite]
  cases (user.getD "token" .null).truthy <;> simp

theorem wp_withToken (message : String) (k : Value → Php Response) :
    wp (withToken message k) env Q E st ↔
      (Action.noToken st.session = true → Q (errorJson 401 message) st) ∧
      (Action.noToken st.session = false →
        wp (k ((st.session "user").getD "token" .null)) env Q E st) := by
  simp only [withToken, wp_bind, wp_session, wp_withTokenOf, Action.noToken, Bool.not_eq_true',
    Bool.not_eq_false']

theorem wp_ensure (response : HttpResponse) (k : Php Response) :
    wp (ensure response k) env Q E st ↔
      (response.successful = true → wp k env Q E st) ∧
      (response.successful = false → E (.exception response.body) st) := by
  simp only [ensure, wp_ite]
  cases response.successful <;> simp

theorem wp_forward (q : HttpRequest) (k : HttpResponse → Php Response) :
    wp (forward q k) env Q E st ↔
      (q.encodable = false → E (.ofMessage "json_encode error") st) ∧
      (∀ r, q.encodable = true → env.remote st.trace q = .response r →
        (r.successful = true → wp (k r) env Q E (st.record ⟨q, .response r⟩)) ∧
        (r.successful = false → E (.exception r.body) (st.record ⟨q, .response r⟩))) ∧
      (∀ message, q.encodable = true → env.remote st.trace q = .failed message →
        E (.exception message) (st.record ⟨q, .failed message⟩)) := by
  simp only [forward, wp_bind, wp_sent, wp_ensure]

/-- A caught exception is answered with status 500, or raises out of the `catch` block. -/
theorem wp_caught (failure : String) (e : Throwable) :
    wp (caught failure e) env Q E st ↔
      match e with
      | .exception (.utf8 message) => Q (errorJson 500 (failure ++ message)) st
      | .exception (.bytes _ _) =>
        E (.ofMessage "Malformed UTF-8 characters, possibly incorrectly encoded") st
      | .error message => E (.error message) st := by
  rcases e with (message | ⟨b, h⟩) | message <;> rfl

theorem wp_bearer (token : Value) {Q : Value → St → Prop} :
    wp (bearer token) env Q E st ↔
      (∀ s, token.toText env.rules.floatToString = .ok s → Q (.str ("Bearer " ++ s)) st) ∧
      (∀ e, token.toText env.rules.floatToString = .error e → E e st) := by
  simp only [bearer, wp_bind, wp_text, wp_pure]

/-- The record has the three fields `login` asks for. -/
def hasLogin (data : Value) : Bool :=
  data.isSet "token" && data.isSet "email" && data.isSet "name"

/-- The branch of `login` for a successful response.  The session is written only where the role has
a text, and before the answer is encoded. -/
theorem wp_loginAccepted (r : HttpResponse) :
    wp (loginAccepted r) env Q E st ↔
      ((∀ es, env.json r ≠ .arr es) →
        E (.error "Argument #2 ($context) must be of type array") st) ∧
      ((∃ es, env.json r = .arr es) → hasLogin (env.json r) = false →
        E (.ofMessage "Invalid response structure from backend") st) ∧
      ((∃ es, env.json r = .arr es) → hasLogin (env.json r) = true →
        (∀ role, ((env.json r).getD "role" (.str "customer")).toStringParam
            env.rules.floatToString = .ok role →
          wp (json (loginAnswer (env.json r) (strtolower role))) env Q E
            ⟨Function.update st.session "user" (userRecord (env.json r) (strtolower role)),
              st.trace⟩) ∧
        ∀ e, ((env.json r).getD "role" (.str "customer")).toStringParam
            env.rules.floatToString = .error e → E e st) := by
  have hcheck : ∀ data : Value,
      (!data.isSet "token" || !data.isSet "email" || !data.isSet "name") = !hasLogin data := by
    intro data
    rw [hasLogin, Bool.not_and, Bool.not_and]
  rw [loginAccepted, wp_bind, wp_decode]
  split
  · next es hes =>
    rw [wp_ite, hcheck]
    cases hfields : hasLogin (env.json r) with
    | false => simp [hes]
    | true => simp [hes, wp_bind, wp_stringParam]
  · next hno =>
    have hne : ∀ es, env.json r ≠ .arr es := fun es hes => hno es hes
    simp [hne]

/-! ### What leaves the state alone -/

section Frame

variable {γ : Type} {f : St → γ}

theorem frame_decode (r : HttpResponse) : Frame f (decode r) := fun _ _ => rfl

theorem frame_text (v : Value) : Frame f (text v) := fun _ _ => rfl

theorem frame_stringParam (v : Value) : Frame f (stringParam v) := fun _ _ => rfl

theorem frame_readKey (v : Value) (key : String) : Frame f (readKey v key) := frame_lift _

theorem frame_bearer (token : Value) : Frame f (bearer token) :=
  frame_bind (frame_text token) fun _ => frame_pure _

theorem frame_json (data : Value) : Frame f (json data) :=
  frame_ite (frame_pure _) (frame_throw _)

theorem frame_caught (failure : String) (e : Throwable) : Frame f (caught failure e) := by
  rcases e with (message | ⟨b, h⟩) | message <;> exact fun _ _ => rfl

theorem frame_throwBody (literal : String) (r : HttpResponse) : Frame f (throwBody literal r) := by
  unfold throwBody
  split <;> exact frame_throw _

theorem frame_throwBackendMessage (r : HttpResponse) : Frame f (throwBackendMessage r) := by
  refine frame_bind (frame_decode r) fun data => ?_
  split
  · exact frame_throw _
  · exact frame_bind (frame_stringParam _) fun _ => frame_throw _

theorem frame_answerData (r : HttpResponse) : Frame f (answerData r) :=
  frame_bind (frame_decode r) fun _ => frame_json _

end Frame

end Artha.ApiController
