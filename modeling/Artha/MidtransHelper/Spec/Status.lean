import Artha.MidtransHelper.Spec.Webhook

/-!
# When a notification reports a paid order

`mapTransactionStatus` compares with `==`, which compares a number with a word as texts and a
boolean with the word's truth value.  No number is a status word (`looseEq_eq_str`), so apart from
the boolean `true` only the two words `settlement` and `capture` lead to `success`; and of the fraud
statuses of a capture only `challenge` is singled out (`success_of_reports`).
-/

namespace Artha.MidtransHelper

open Php

variable {h : Helper} {n : Value}

/-- What PHP makes of a double: digits, signs and a point, an `E` before the exponent, `INF` and
`NAN`.  None of them has a small letter. -/
def NumeralTexts (floatToString : UInt64 → String) : Prop :=
  ∀ bits, ∀ c ∈ (floatToString bits).toList, c.isDigit = true ∨ c ∈ ['+', '-', '.'] ∨
    c ∈ ['E', 'I', 'N', 'F', 'A']

/-- The decimal digits of an integer, with a sign. -/
theorem chars_of_int (n : Int) : ∀ c ∈ (toString n).toList, c.isDigit = true ∨ c = '-' := by
  have hnat : ∀ m : Nat, ∀ c ∈ (toString m).toList, c.isDigit = true := by
    intro m c hc
    rw [Nat.toString_eq_repr, Nat.toList_repr] at hc
    exact Nat.isDigit_of_mem_toDigits (by decide) (by decide) hc
  intro c hc
  cases n with
  | ofNat m => exact .inl (hnat m c hc)
  | negSucc m =>
    have htext : toString (Int.negSucc m) = "-" ++ toString (m + 1) := rfl
    rw [htext, String.toList_append, List.mem_append] at hc
    rcases hc with hsign | hdigit
    · exact .inr (List.mem_singleton.mp hsign)
    · exact .inl (hnat (m + 1) c hdigit)

/-- A word with a small letter is loosely equal to itself and, because every word is true, to
`true`. -/
theorem looseEq_eq_str (hfloat : NumeralTexts h.floatToString) {v : Value} {word : String}
    (hv : v ≠ .bool true) (hword : 'e' ∈ word.toList)
    (heq : v.looseEq h.floatToString word = true) : v = .str word := by
  have hne : word ≠ "" ∧ word ≠ "0" := by
    constructor
    · rintro rfl
      exact absurd hword (by decide)
    · rintro rfl
      exact absurd hword (by decide)
  cases v with
  | str s => rw [beq_iff_eq.mp heq]
  | null => exact absurd (beq_iff_eq.mp heq) hne.1
  | bool b =>
    have htruthy : (Value.str word).truthy = true := by simp [Value.truthy, hne.1, hne.2]
    have hb : b = true := by
      rw [← htruthy]
      exact beq_iff_eq.mp heq
    exact absurd (congrArg Value.bool hb) hv
  | int m =>
    have hc := chars_of_int m 'e' (by rw [beq_iff_eq.mp heq]; exact hword)
    exact absurd hc (by decide)
  | float bits =>
    have hc := hfloat bits 'e' (by rw [beq_iff_eq.mp heq]; exact hword)
    exact absurd hc (by decide)
  | arr es => cases heq

/-- What leads to `success`. -/
theorem eq_of_mapTransactionStatus (hfloat : NumeralTexts h.floatToString) {status fraud : Value}
    (hstatus : status ≠ .bool true) (hmap : mapTransactionStatus h status fraud = "success") :
    status = .str "settlement" ∨ (status = .str "capture" ∧ fraud ≠ .str "challenge") := by
  unfold mapTransactionStatus at hmap
  split at hmap
  · next hcapture =>
    refine .inr ⟨looseEq_eq_str hfloat hstatus (by decide) hcapture, ?_⟩
    rintro rfl
    rw [if_pos (by exact beq_self_eq_true "challenge")] at hmap
    exact absurd hmap (by decide)
  · split at hmap
    · next hsettled => exact .inl (looseEq_eq_str hfloat hstatus (by decide) hsettled)
    · -- the other words are mapped to other texts
      repeat' split at hmap
      all_goals exact absurd hmap (by decide)

/-- For every notification, whatever JSON its two status fields hold: if it reports success and its
`transaction_status` is not the boolean `true`, that status is the string `settlement`, or it is the
string `capture` and the `fraud_status` is not `challenge`. -/
theorem success_of_reports (hfloat : NumeralTexts h.floatToString) {orderId : Value}
    (hreports : Reports h n orderId (.str "success"))
    (hstatus : n.getD "transaction_status" .null ≠ .bool true) :
    n.getD "transaction_status" .null = .str "settlement" ∨
      (n.getD "transaction_status" .null = .str "capture" ∧
        n.getD "fraud_status" .null ≠ .str "challenge") := by
  obtain ⟨-, -, hmap⟩ := reports_iff.mp hreports
  exact eq_of_mapTransactionStatus hfloat hstatus (Value.str.inj hmap).symm

/-- A notification of a payment that was settled. -/
def settledNotification : Value :=
  signedNotification sampleHelper ⟨"ORDER-1", "200", "5000.00"⟩ "settlement"

/-- A settled order is reported as paid, and for the right reason. -/
theorem settled_success :
    Reports sampleHelper settledNotification (.str "ORDER-1") (.str "success") ∧
      (settledNotification.getD "transaction_status" .null = .str "settlement" ∨
        (settledNotification.getD "transaction_status" .null = .str "capture" ∧
          settledNotification.getD "fraud_status" .null ≠ .str "challenge")) := by
  have hreports : Reports sampleHelper settledNotification (.str "ORDER-1") (.str "success") :=
    reports_iff.mpr ⟨accepted_signedNotification _ _, by decide, by decide⟩
  refine ⟨hreports, success_of_reports (fun bits c hc => ?_) hreports (by decide)⟩
  cases hc

/-- A captured payment whose fraud status is missing is reported as paid. -/
theorem capture_success_without_fraud_status :
    ¬ ∀ (h : Helper) (n orderId : Value), Reports h n orderId (.str "success") →
      n.getD "transaction_status" .null = .str "settlement" ∨
        (n.getD "transaction_status" .null = .str "capture" ∧
          n.getD "fraud_status" .null = .str "accept") := by
  intro hclosed
  have hreports : Reports sampleHelper
      (signedNotification sampleHelper ⟨"ORDER-1", "200", "5000.00"⟩ "capture")
      (.str "ORDER-1") (.str "success") :=
    reports_iff.mpr ⟨accepted_signedNotification _ _, by decide, by decide⟩
  have h := hclosed _ _ _ hreports
  exact absurd h (by decide)

end Artha.MidtransHelper
