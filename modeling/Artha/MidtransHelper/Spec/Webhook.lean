import Artha.MidtransHelper.Webhook
import Mathlib.Data.Set.Function

/-!
# What a webhook signature authenticates

A signature pins down the concatenation of the texts of `order_id`, `status_code` and
`gross_amount`, and nothing else: two accepted notifications with one signature agree on it
(`concat_eq_of_signature_eq`), and therefore field by field when the texts have the same lengths.
The concatenation has no delimiters and the fields the reported status is computed from are not
signed, so one signature does not pin down one outcome (`not_oneOutcome`).
-/

namespace Artha.MidtransHelper

open Php

variable {h : Helper}

/-- The notification is accepted: `processWebhook` reports `success = true`. -/
def Accepted (h : Helper) (n : Value) : Prop :=
  ∃ result, processWebhook h n = .ok result ∧ result.getD "success" .null = .bool true

/-- The texts of the signed fields of a notification. -/
@[ext]
structure SignedFields where
  orderId : String
  statusCode : String
  grossAmount : String

/-- The three signed fields of `n` have these texts. -/
structure HasFields (h : Helper) (n : Value) (f : SignedFields) : Prop where
  orderId : (n.getD "order_id" .null).toText h.floatToString = .ok f.orderId
  statusCode : (n.getD "status_code" .null).toText h.floatToString = .ok f.statusCode
  grossAmount : (n.getD "gross_amount" .null).toText h.floatToString = .ok f.grossAmount

/-- The string that is hashed, without the server key. -/
def SignedFields.concat (f : SignedFields) : String := f.orderId ++ f.statusCode ++ f.grossAmount

theorem processWebhook_of_verified {n : Value} (hv : verifyNotification h n = .ok true) :
    processWebhook h n = .ok (.arr [("success", .bool true),
      ("order_id", n.getD "order_id" .null),
      ("status", .str (mapTransactionStatus h (n.getD "transaction_status" .null)
        (n.getD "fraud_status" .null))),
      ("raw_notification", n)]) := by
  rw [processWebhook, hv]

/-- A notification is accepted exactly when its signature verifies. -/
theorem accepted_iff {n : Value} : Accepted h n ↔ verifyNotification h n = .ok true := by
  unfold Accepted processWebhook
  constructor
  · rintro ⟨result, hr, hs⟩
    split at hr
    · assumption
    · obtain rfl := Except.ok.inj hr
      simp [refusal, Value.getD, Value.get?] at hs
    · obtain rfl := Except.ok.inj hr
      simp [refusal, Value.getD, Value.get?] at hs
    · cases hr
  · intro hv
    exact ⟨_, processWebhook_of_verified hv, rfl⟩

/-- A verified notification: its three signed fields have texts, and its signature is the hash of
their concatenation with the key. -/
theorem verify_iff {n : Value} : verifyNotification h n = .ok true ↔
    ∃ f : SignedFields, HasFields h n f ∧
      n.getD "signature_key" .null = .str (h.sha512 (f.concat ++ h.serverKey)) := by
  unfold verifyNotification verifySignature signedText
  constructor
  · intro hv
    -- the three conversions are made in turn, and each has to succeed
    cases ho : (n.getD "order_id" .null).toText h.floatToString with
    | error e => simp [ho, bind, Except.bind] at hv
    | ok o =>
      cases hc : (n.getD "status_code" .null).toText h.floatToString with
      | error e => simp [ho, hc, bind, Except.bind] at hv
      | ok c =>
        cases hg : (n.getD "gross_amount" .null).toText h.floatToString with
        | error e => simp [ho, hc, hg, bind, Except.bind] at hv
        | ok g =>
          have hsame : Value.str (h.sha512 (o ++ c ++ g ++ h.serverKey))
              = n.getD "signature_key" .null := by
            simpa [ho, hc, hg, bind, Except.bind, pure, Except.pure] using hv
          exact ⟨⟨o, c, g⟩, ⟨ho, hc, hg⟩, hsame.symm⟩
  · rintro ⟨f, ⟨ho, hc, hg⟩, hs⟩
    rw [ho, hc, hg, hs]
    simp [bind, Except.bind, pure, Except.pure, SignedFields.concat]

/-- What `processWebhook` reports for a notification it accepts. -/
structure Reports (h : Helper) (n orderId status : Value) : Prop where
  accepted : Accepted h n
  orderId : ∀ result, processWebhook h n = .ok result → result.getD "order_id" .null = orderId
  status : ∀ result, processWebhook h n = .ok result → result.getD "status" .null = status

/-- The report is the notification's own order id, and the status computed from its two status
fields. -/
theorem reports_iff {n orderId status : Value} : Reports h n orderId status ↔
    Accepted h n ∧ orderId = n.getD "order_id" .null ∧
      status = .str (mapTransactionStatus h (n.getD "transaction_status" .null)
        (n.getD "fraud_status" .null)) := by
  constructor
  · rintro ⟨ha, ho, hs⟩
    have hres := processWebhook_of_verified (accepted_iff.mp ha)
    refine ⟨ha, ?_, ?_⟩
    · rw [← ho _ hres]
      cases n.getD "order_id" .null <;> rfl
    · exact (hs _ hres).symm
  · rintro ⟨ha, rfl, rfl⟩
    have hres := processWebhook_of_verified (accepted_iff.mp ha)
    refine ⟨ha, fun result hr => ?_, fun result hr => ?_⟩
    · rw [← Except.ok.inj (hres.symm.trans hr)]
      cases n.getD "order_id" .null <;> rfl
    · rw [← Except.ok.inj (hres.symm.trans hr)]
      rfl

/-! ### The signed text -/

theorem HasFields.unique {n : Value} {f g : SignedFields} (hf : HasFields h n f)
    (hg : HasFields h n g) : f = g := by
  ext1
  · exact Except.ok.inj (hf.orderId.symm.trans hg.orderId)
  · exact Except.ok.inj (hf.statusCode.symm.trans hg.statusCode)
  · exact Except.ok.inj (hf.grossAmount.symm.trans hg.grossAmount)

/-- The strings SHA-512 is applied to when `n` is verified. -/
def hashed (h : Helper) (n : Value) : Set String :=
  {t | ∃ f : SignedFields, HasFields h n f ∧ t = f.concat ++ h.serverKey}

variable {n₁ n₂ : Value}

/-- Two accepted notifications with one signature have the same signed text. -/
theorem concat_eq_of_signature_eq (hinj : Set.InjOn h.sha512 (hashed h n₁ ∪ hashed h n₂))
    (h₁ : Accepted h n₁) (h₂ : Accepted h n₂)
    (hsig : n₁.getD "signature_key" .null = n₂.getD "signature_key" .null) {f₁ f₂ : SignedFields}
    (hf₁ : HasFields h n₁ f₁) (hf₂ : HasFields h n₂ f₂) : f₁.concat = f₂.concat := by
  obtain ⟨g₁, hg₁, hs₁⟩ := verify_iff.mp (accepted_iff.mp h₁)
  obtain ⟨g₂, hg₂, hs₂⟩ := verify_iff.mp (accepted_iff.mp h₂)
  obtain rfl := hf₁.unique hg₁
  obtain rfl := hf₂.unique hg₂
  rw [hs₁, hs₂] at hsig
  have hhash := hinj (Or.inl ⟨f₁, hf₁, rfl⟩) (Or.inr ⟨f₂, hf₂, rfl⟩) (Value.str.inj hsig)
  -- the key is a common suffix
  have hlist := congrArg String.toList hhash
  rw [String.toList_append, String.toList_append] at hlist
  exact String.toList_inj.mp (List.append_cancel_right hlist)

/-- A signed text is read back once the lengths of the first two fields are known. -/
theorem SignedFields.eq_of_concat_eq {f₁ f₂ : SignedFields} (hc : f₁.concat = f₂.concat)
    (ho : f₁.orderId.length = f₂.orderId.length)
    (hs : f₁.statusCode.length = f₂.statusCode.length) : f₁ = f₂ := by
  have hlist := congrArg String.toList hc
  simp only [SignedFields.concat, String.toList_append, List.append_assoc] at hlist
  obtain ⟨h₁, hrest⟩ := List.append_inj hlist (by rwa [String.length_toList, String.length_toList])
  obtain ⟨h₂, h₃⟩ := List.append_inj hrest (by rwa [String.length_toList, String.length_toList])
  ext1
  · exact String.toList_inj.mp h₁
  · exact String.toList_inj.mp h₂
  · exact String.toList_inj.mp h₃

/-- The three signed fields of `n` are strings, as Midtrans sends them. -/
def StringFields (n : Value) (f : SignedFields) : Prop :=
  n.getD "order_id" .null = .str f.orderId ∧ n.getD "status_code" .null = .str f.statusCode ∧
    n.getD "gross_amount" .null = .str f.grossAmount

theorem StringFields.hasFields {n : Value} {f : SignedFields} (hf : StringFields n f) :
    HasFields h n f := by
  obtain ⟨ho, hc, hg⟩ := hf
  exact ⟨by rw [ho]; rfl, by rw [hc]; rfl, by rw [hg]; rfl⟩

/-! ### What one signature pins down -/

/-- One signature authenticates one outcome: two notifications accepted with the same signature
report the same order and status and have equal status codes and amounts. -/
def OneOutcome (h : Helper) : Prop :=
  ∀ n₁ n₂ o₁ o₂ s₁ s₂ : Value, Set.InjOn h.sha512 (hashed h n₁ ∪ hashed h n₂) →
    Reports h n₁ o₁ s₁ → Reports h n₂ o₂ s₂ →
    n₁.getD "signature_key" .null = n₂.getD "signature_key" .null →
    o₁ = o₂ ∧ s₁ = s₂ ∧ n₁.getD "status_code" .null = n₂.getD "status_code" .null ∧
      n₁.getD "gross_amount" .null = n₂.getD "gross_amount" .null

/-- A notification with string fields, signed with the helper's key. -/
def signedNotification (h : Helper) (f : SignedFields) (transactionStatus : String) : Value :=
  .arr [("order_id", .str f.orderId), ("status_code", .str f.statusCode),
    ("gross_amount", .str f.grossAmount),
    ("signature_key", .str (h.sha512 (f.concat ++ h.serverKey))),
    ("transaction_status", .str transactionStatus)]

theorem stringFields_signedNotification (f : SignedFields) (transactionStatus : String) :
    StringFields (signedNotification h f transactionStatus) f :=
  ⟨rfl, rfl, rfl⟩

theorem accepted_signedNotification (f : SignedFields) (transactionStatus : String) :
    Accepted h (signedNotification h f transactionStatus) :=
  accepted_iff.mpr <| verify_iff.mpr
    ⟨f, (stringFields_signedNotification f transactionStatus).hasFields, rfl⟩

/-- Two notifications with one signed text hash one and the same string. -/
theorem injOn_hashed (f₁ : SignedFields) (t₁ : String) (f₂ : SignedFields) (t₂ : String)
    (hconcat : f₁.concat = f₂.concat) :
    Set.InjOn h.sha512
      (hashed h (signedNotification h f₁ t₁) ∪ hashed h (signedNotification h f₂ t₂)) := by
  have hsub : ∀ t ∈ hashed h (signedNotification h f₁ t₁) ∪
      hashed h (signedNotification h f₂ t₂), t = f₁.concat ++ h.serverKey := by
    rintro t (⟨g, hg, rfl⟩ | ⟨g, hg, rfl⟩)
    · rw [hg.unique (stringFields_signedNotification f₁ _).hasFields]
    · rw [hg.unique (stringFields_signedNotification f₂ _).hasFields, hconcat]
  intro a ha b hb _
  rw [hsub a ha, hsub b hb]

/-- Under no key and no hash function does one signature authenticate one outcome.  Moving the
first digit of the status code to the end of the order id keeps the signed text, so the signature
of order `ORDER-1` (settled, code `200`) also verifies for order `ORDER-12` (denied, code `00`). -/
theorem not_oneOutcome : ¬ ∃ h : Helper, OneOutcome h := by
  rintro ⟨h, hone⟩
  let f₁ : SignedFields := ⟨"ORDER-1", "200", "5000.00"⟩
  let f₂ : SignedFields := ⟨"ORDER-12", "00", "5000.00"⟩
  have hconcat : f₁.concat = f₂.concat := by decide
  have hboth := hone _ _ _ _ _ _ (injOn_hashed f₁ "settlement" f₂ "deny" hconcat)
    (reports_iff.mpr ⟨accepted_signedNotification f₁ "settlement", rfl, rfl⟩)
    (reports_iff.mpr ⟨accepted_signedNotification f₂ "deny", rfl, rfl⟩)
    (show Value.str _ = Value.str _ by rw [hconcat])
  have horder : Value.str f₁.orderId = .str f₂.orderId := hboth.1
  exact absurd horder (by decide)

/-- What a signature does authenticate.  Two notifications accepted with the same signature have
the same signed text; their three signed fields have equal texts exactly when the order ids and
the status codes have texts of equal lengths, and are then equal where they are strings; and each
reports its own order id, with the status of its own two status fields, which the signature leaves
open. -/
theorem processWebhook_authenticates {o₁ o₂ s₁ s₂ : Value}
    (hinj : Set.InjOn h.sha512 (hashed h n₁ ∪ hashed h n₂))
    (h₁ : Reports h n₁ o₁ s₁) (h₂ : Reports h n₂ o₂ s₂)
    (hsig : n₁.getD "signature_key" .null = n₂.getD "signature_key" .null) :
    ∃ f₁ f₂ : SignedFields, HasFields h n₁ f₁ ∧ HasFields h n₂ f₂ ∧ f₁.concat = f₂.concat ∧
      (f₁ = f₂ ↔ f₁.orderId.length = f₂.orderId.length ∧
        f₁.statusCode.length = f₂.statusCode.length) ∧
      (f₁ = f₂ → StringFields n₁ f₁ → StringFields n₂ f₂ →
        o₁ = o₂ ∧ n₁.getD "status_code" .null = n₂.getD "status_code" .null ∧
          n₁.getD "gross_amount" .null = n₂.getD "gross_amount" .null) ∧
      (n₁.getD "transaction_status" .null = n₂.getD "transaction_status" .null →
        n₁.getD "fraud_status" .null = n₂.getD "fraud_status" .null → s₁ = s₂) := by
  obtain ⟨f₁, hf₁, -⟩ := verify_iff.mp (accepted_iff.mp h₁.accepted)
  obtain ⟨f₂, hf₂, -⟩ := verify_iff.mp (accepted_iff.mp h₂.accepted)
  have hconcat := concat_eq_of_signature_eq hinj h₁.accepted h₂.accepted hsig hf₁ hf₂
  obtain ⟨-, ho₁, hs₁⟩ := reports_iff.mp h₁
  obtain ⟨-, ho₂, hs₂⟩ := reports_iff.mp h₂
  refine ⟨f₁, f₂, hf₁, hf₂, hconcat, ⟨?_, ?_⟩, ?_, ?_⟩
  · rintro rfl
    exact ⟨rfl, rfl⟩
  · rintro ⟨ho, hs⟩
    exact SignedFields.eq_of_concat_eq hconcat ho hs
  · rintro rfl ⟨ha₁, hb₁, hc₁⟩ ⟨ha₂, hb₂, hc₂⟩
    exact ⟨by rw [ho₁, ho₂, ha₁, ha₂], hb₁.trans hb₂.symm, hc₁.trans hc₂.symm⟩
  · intro ht hf
    rw [hs₁, hs₂, ht, hf]

/-- A helper whose hash function has the SHA-512 digest of the one string it is applied to here. -/
def sampleHelper : Helper where
  serverKey := "SB-Mid-server-key"
  sha512 := fun _ =>
    "7a11677f37cd40514b5938890007f7c4dc1d243ade4a3e068655d0100e0939e1" ++
    "1ff7e50e1ec14644d7d6d8dd36c9ddcc0a6cecc4d4be29aff28477d3fecac50f"
  floatToString := fun _ => ""

/-- One signed text, a settled and a denied notification: the same order, with two statuses. -/
theorem processWebhook_authenticates_order :
    Reports sampleHelper
      (signedNotification sampleHelper ⟨"ORDER-1", "200", "5000.00"⟩ "settlement")
      (.str "ORDER-1") (.str "success") ∧
    Reports sampleHelper
      (signedNotification sampleHelper ⟨"ORDER-1", "200", "5000.00"⟩ "deny")
      (.str "ORDER-1") (.str "failed") ∧
    ∃ f₁ f₂ : SignedFields, f₁.concat = f₂.concat ∧ f₁.orderId = "ORDER-1" := by
  let f : SignedFields := ⟨"ORDER-1", "200", "5000.00"⟩
  have h₁ : Reports sampleHelper (signedNotification sampleHelper f "settlement")
      (.str "ORDER-1") (.str "success") :=
    reports_iff.mpr ⟨accepted_signedNotification f _, by decide, by decide⟩
  have h₂ : Reports sampleHelper (signedNotification sampleHelper f "deny")
      (.str "ORDER-1") (.str "failed") :=
    reports_iff.mpr ⟨accepted_signedNotification f _, by decide, by decide⟩
  obtain ⟨f₁, f₂, hf₁, -, hc, -⟩ :=
    processWebhook_authenticates (injOn_hashed f "settlement" f "deny" rfl) h₁ h₂ rfl
  refine ⟨h₁, h₂, f₁, f₂, hc, ?_⟩
  rw [hf₁.unique (stringFields_signedNotification _ _).hasFields]

end Artha.MidtransHelper
