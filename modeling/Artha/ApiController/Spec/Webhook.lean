import Artha.ApiController.Spec.Outgoing
import Artha.ApiController.Spec.Success
import Artha.MidtransHelper.Spec.Webhook

/-!
# The webhook is not authenticated

The documentation promises that payment notifications are verified, and `processWebhook` verifies
them; the action the webhook route calls does not.  `Authentic` is what the promise means for
`midtransWebhook`, and `authentic_iff` says for which notifications it holds: those whose signature
happens to verify, and those the action does not forward for another reason.
-/

namespace Artha.ApiController

open Php Laravel Eff MidtransHelper

/-! ### The promise -/

/-- The URL notifications are forwarded to. -/
def webhookUrl : String := api ++ "/midtrans/webhook"

/-- The signature of the notification verifies under the helper's key. -/
def Verified (h : Helper) (request : Request) : Prop :=
  verifyNotification h request.all = .ok true

/-- Only a notification that verifies is posted to the backend's webhook; any other causes no
request and is not answered with success. -/
structure Authentic (h : Helper) (c : Call) (s : Session) : Prop where
  verified : ∀ x ∈ c.trace s, x.request.verb = .post → x.request.url = webhookUrl →
    Verified h c.request
  silent : ¬ Verified h c.request → c.trace s = [] ∧ c.succeeds s = false

/-- The action does not forward the notification: a required field is missing or falsy, or the
notification cannot be encoded again. -/
def Withheld (request : Request) : Prop :=
  (request.get "order_id").truthy = false ∨ (request.get "transaction_status").truthy = false ∨
    request.all.encodable = false

/-- The one request of the action, unless the notification is withheld. -/
theorem Call.trace_midtransWebhook {c : Call} {s : Session} (hc : c.action = .midtransWebhook) :
    (Withheld c.request ∧ c.trace s = []) ∨
      (¬ Withheld c.request ∧
        c.trace s = [⟨webhookRequest c.request, c.env.remote [] (webhookRequest c.request)⟩]) := by
  have hne : c.action ≠ .checkout := by
    rw [hc]
    nofun
  have henc : (webhookRequest c.request).encodable = c.request.all.encodable := rfl
  rw [c.trace_eq s hne, hc, Action.outgoing, Action.built]
  cases ho : (c.request.get "order_id").truthy with
  | false => exact .inl ⟨.inl ho, rfl⟩
  | true =>
    cases ht : (c.request.get "transaction_status").truthy with
    | false => exact .inl ⟨.inr (.inl ht), rfl⟩
    | true =>
      cases he : c.request.all.encodable with
      | false =>
        refine .inl ⟨.inr (.inr he), ?_⟩
        simp [henc, he]
      | true =>
        refine .inr ⟨?_, ?_⟩
        · simp [Withheld, ho, ht, he]
        · simp [henc, he]

/-- A notification that is withheld is not answered with success. -/
theorem Call.succeeds_of_withheld {c : Call} {s : Session} (hc : c.action = .midtransWebhook)
    (hwith : Withheld c.request) : c.succeeds s = false := by
  rw [← Bool.not_eq_true, Call.succeeds_iff (p := False)]
  · exact id
  rw [hc]
  refine succeedsIff_attempt (succeedsIff_ite (fun _ => succeedsIff_throw _ id) fun hfields => ?_)
  -- both fields are there, so the body is what cannot be encoded
  have henc : c.request.all.encodable = false := by
    rw [Bool.or_eq_true, not_or] at hfields
    rcases hwith with h | h | h
    · exact absurd (by simpa [Request.get] using h) hfields.1
    · exact absurd (by simpa [Request.get] using h) hfields.2
    · exact h
  refine succeedsIff_congr (succeedsIff_send fun r =>
    succeedsIff_ite_throwBody (succeedsIff_json [])) ?_
  simp [webhookRequest, HttpRequest.encodable, HttpRequest.plain, henc]

/-- Webhook calls are authentic exactly when the notification verifies or is withheld. -/
theorem midtransWebhook_authentic_iff (h : Helper) (request : Request) (env : Env) (s : Session) :
    Authentic h ⟨.midtransWebhook, request, env⟩ s ↔ Verified h request ∨ Withheld request := by
  have htrace := Call.trace_midtransWebhook (c := ⟨.midtransWebhook, request, env⟩) (s := s) rfl
  constructor
  · intro hauth
    by_contra hno
    obtain ⟨hver, hwith⟩ := not_or.mp hno
    rcases htrace with ⟨hw, -⟩ | ⟨-, hone⟩
    · exact hwith hw
    · rw [(hauth.silent hver).1] at hone
      exact absurd hone (by simp)
  · rintro (hver | hwith)
    · exact ⟨fun _ _ _ _ => hver, fun hno => absurd hver hno⟩
    · rcases htrace with ⟨-, hnil⟩ | ⟨hno, -⟩
      · refine ⟨fun x hx => ?_, fun _ => ⟨hnil, Call.succeeds_of_withheld rfl hwith⟩⟩
        simp [hnil] at hx
      · exact absurd hwith hno

/-! ### A forged notification -/

/-- A notification without a signature. -/
def forgedNotification : Request where
  verb := .post
  path := "midtrans/webhook"
  authorization := none
  input := [("order_id", .str "ORDER-1"), ("transaction_status", .str "settlement")]

/-- Under no server key and no hash function is the forged notification kept from the backend,
whatever the backend answers and whatever the session. -/
theorem forgedNotification_not_authentic :
    ¬ ∃ (h : Helper) (env : Env) (s : Session),
      Authentic h ⟨.midtransWebhook, forgedNotification, env⟩ s := by
  rintro ⟨h, env, s, hauth⟩
  have hver : ¬ Verified h forgedNotification := by
    intro hv
    obtain ⟨f, -, hsig⟩ := verify_iff.mp hv
    have hnull : forgedNotification.all.getD "signature_key" .null = .null := by decide
    rw [hnull] at hsig
    cases hsig
  have hfull : ¬ Withheld forgedNotification := by
    unfold Withheld
    decide
  have htrace := (hauth.silent hver).1
  rcases Call.trace_midtransWebhook (c := ⟨.midtransWebhook, forgedNotification, env⟩) (s := s) rfl
    with ⟨hw, -⟩ | ⟨-, hone⟩
  · exact hfull hw
  · rw [htrace] at hone
    exact absurd hone (by simp)

end Artha.ApiController
