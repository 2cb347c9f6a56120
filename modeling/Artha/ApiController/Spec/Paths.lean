import Artha.ApiController.Spec.Honest
import Artha.ApiController.Spec.Outgoing

/-!
# Request data in the backend's paths

Four actions put a field of the request into the path of the backend's URL, as it is.  Three of them
validate the field as an integer, and whatever that rule takes is one segment of a path: blanks, a
sign and digits.  `viewTransactionDetailByID` validates a string, so that its URL is the fixed path
with one segment behind it exactly when the text is one (`confined_iff`).
-/

namespace Artha.ApiController

open Php Laravel

/-! ### Segments -/

/-- The text is one segment of a path, and one that stays where it is. -/
structure IsSegment (t : String) : Prop where
  separators : ∀ c ∈ ['/', '?', '#'], c ∉ t.toList
  dot : t ≠ "."
  dots : t ≠ ".."

/-- A text without separators and points. -/
theorem isSegment_of_notMem {t : String} (h : ∀ c ∈ ['/', '?', '#', '.'], c ∉ t.toList) :
    IsSegment t := by
  have hpoint : '.' ∉ t.toList := h '.' (by decide)
  refine ⟨fun c hc => h c ?_, ?_, ?_⟩
  · exact List.mem_append_left ['.'] hc
  · rintro rfl
    exact hpoint (by decide)
  · rintro rfl
    exact hpoint (by decide)

/-- What the rule `integer` takes is a segment. -/
theorem isSegment_of_filterInt {t : String} (h : (filterInt t).isSome = true) : IsSegment t := by
  obtain ⟨n, hn⟩ := Option.isSome_iff_exists.mp h
  refine isSegment_of_notMem fun c hc hmem => ?_
  have hchars := chars_of_filterInt hn c hmem
  simp only [List.mem_cons, List.not_mem_nil, or_false] at hc
  rcases hc with rfl | rfl | rfl | rfl <;> exact absurd hchars (by decide)

/-! ### The four actions -/

namespace Action

/-- The actions that put a field of the request into the path. -/
def splicing : List Action :=
  [.updateProductStock, .deleteRawMaterial, .deleteStock, .viewTransactionDetailByID]

/-- The path in front of the field. -/
def pathBefore : Action → String
  | .updateProductStock => "/products/"
  | .deleteRawMaterial => "/raw-materials/"
  | .deleteStock => "/stock/"
  | .viewTransactionDetailByID => "/transactions/"
  | _ => ""

/-- The path behind it. -/
def pathBehind : Action → String
  | .updateProductStock => "/stock"
  | _ => ""

/-- The field that is put into the path. -/
def splicedField : Action → String
  | .updateProductStock => "product_id"
  | .viewTransactionDetailByID => "transaction_id"
  | _ => "id"

end Action

/-- Every URL the call requests of the backend is the action's fixed path with one segment in
between. -/
def Confined (a : Action) (request : Request) (env : Env) (s : Session) : Prop :=
  ∀ q ∈ Call.backend ⟨a, request, env⟩ s,
    ∃ t, q.url = api ++ a.pathBefore ++ t ++ a.pathBehind ∧ IsSegment t

variable {a : Action} {request : Request} {env : Env} {s : Session} {q : HttpRequest}

/-- The field goes into the path as the text it is. -/
theorem url_of_built (ha : a ∈ Action.splicing) (h : a.built env request s = some q) :
    ∃ t, textOf env (request.get a.splicedField) = some t ∧
      q.url = api ++ a.pathBefore ++ t ++ a.pathBehind := by
  simp only [Action.splicing, List.mem_cons, List.not_mem_nil, or_false] at ha
  rcases ha with rfl | rfl | rfl | rfl
  · obtain ⟨t, ht, rfl⟩ := Option.map_eq_some_iff.mp (eq_some_of_whenAccepted h)
    exact ⟨t, ht, rfl⟩
  · obtain ⟨t, ht, rfl⟩ := Option.map_eq_some_iff.mp (eq_some_of_whenAccepted h)
    exact ⟨t, ht, String.append_empty.symm⟩
  · obtain ⟨t, ht, rfl⟩ := Option.map_eq_some_iff.mp (eq_some_of_whenAccepted h)
    exact ⟨t, ht, String.append_empty.symm⟩
  · -- a user is asked for too
    obtain ⟨t, ht, rfl⟩ :=
      Option.map_eq_some_iff.mp (eq_some_of_whenUser (eq_some_of_whenAccepted h))
    exact ⟨t, ht, String.append_empty.symm⟩

/-- A field that is validated as an integer is a segment, whatever its text is. -/
theorem isSegment_of_accepts (key : String) {lines : List (Attribute × List Rule)}
    (hacc : accepts env.rules request.all lines = true)
    (hline : (Attribute.key key, [.required, .integer]) ∈ lines) {t : String}
    (ht : textOf env (request.get key) = some t) : IsSegment t := by
  have hpass : passes env.rules [.required, .integer] (request.get key) .integer = true :=
    passes_of_accepts hacc hline (by simp)
  have htext : (request.get key).toText env.rules.floatToString = .ok t := by
    unfold textOf at ht
    cases hx : (request.get key).toText env.rules.floatToString with
    | ok t' =>
      rw [hx] at ht
      rw [Option.some.inj ht]
    | error e =>
      rw [hx] at ht
      cases ht
  rw [passes, passesInteger, htext] at hpass
  exact isSegment_of_filterInt hpass

/-- The URL of a detail request determines the id. -/
theorem eq_of_detail_url {t t' : String}
    (h : (detailRequest t).url = api ++ Action.viewTransactionDetailByID.pathBefore ++ t' ++
      Action.viewTransactionDetailByID.pathBehind) : t = t' := by
  have h' : api ++ "/transactions/" ++ t = api ++ "/transactions/" ++ t' ++ "" := h
  rw [String.append_empty, String.append_right_inj] at h'
  exact h'

/-- The text an accepted request puts into the path is a segment, or it is the transaction id. -/
theorem isSegment_or_detail (ha : a ∈ Action.splicing) (hacc : a.rejects env request s = false)
    {t : String} (ht : textOf env (request.get a.splicedField) = some t) :
    IsSegment t ∨ a = .viewTransactionDetailByID ∧ request.get "transaction_id" = .str t := by
  simp only [Action.splicing, List.mem_cons, List.not_mem_nil, or_false] at ha
  rcases ha with rfl | rfl | rfl | rfl
  · have hacc' : accepts env.rules request.all updateProductStockRules = true := by
      simpa [Action.rejects] using hacc
    exact .inl (isSegment_of_accepts "product_id" hacc' (by simp [updateProductStockRules]) ht)
  · have hacc' : accepts env.rules request.all idRules = true := by
      simpa [Action.rejects] using hacc
    exact .inl (isSegment_of_accepts "id" hacc' (by simp [idRules]) ht)
  · have hacc' : accepts env.rules request.all idRules = true := by
      simpa [Action.rejects] using hacc
    exact .inl (isSegment_of_accepts "id" hacc' (by simp [idRules]) ht)
  · -- the accepted id is a string, which is its own text
    have hacc' : accepts env.rules request.all viewTransactionDetailByIDRules = true := by
      simp only [Action.rejects, Bool.or_eq_false_iff, Bool.not_eq_false'] at hacc
      exact hacc.1
    obtain ⟨t', ht'⟩ : ∃ t', request.get "transaction_id" = .str t' :=
      eq_str_of_accepts hacc' [.required, .string] (by simp [viewTransactionDetailByIDRules])
        (by simp)
    rw [Action.splicedField, ht'] at ht
    obtain rfl : t' = t := Option.some.inj ht
    exact .inr ⟨rfl, ht'⟩

/-- An accepted request for a detail is sent. -/
theorem outgoing_detail (hacc : Action.viewTransactionDetailByID.rejects env request s = false)
    {t : String} (ht : request.get "transaction_id" = .str t) :
    Action.viewTransactionDetailByID.outgoing env request s = some (detailRequest t) := by
  simp only [Action.rejects, Bool.or_eq_false_iff, Bool.not_eq_false'] at hacc
  simp [Action.outgoing, Action.built, whenAccepted, whenUser, hacc, textOf, ht, Value.toText,
    Except.toOption, detailRequest, bareRequest, HttpRequest.plain, HttpRequest.encodable]

/-- For each action that puts a field into the path and every request it accepts: the path is
confined to one segment, in `viewTransactionDetailByID` exactly when the text of the transaction id
is one. -/
theorem confined_iff (ha : a ∈ Action.splicing) (hacc : a.rejects env request s = false) :
    Confined a request env s ↔
      (a = .viewTransactionDetailByID →
        ∀ t, request.get "transaction_id" = .str t → IsSegment t) := by
  unfold Confined
  rw [Call.backend_eq]
  constructor
  · rintro hconfined rfl t ht
    have hsent := outgoing_detail hacc ht
    obtain ⟨t', hurl, hsegment⟩ := hconfined (detailRequest t) (by simp [hsent])
    rw [eq_of_detail_url hurl]
    exact hsegment
  · intro hdetail q hq
    have hbuilt : a.built env request s = some q := by
      rw [Option.mem_toList] at hq
      exact (Option.filter_eq_some_iff.mp hq).1
    obtain ⟨t, ht, hurl⟩ := url_of_built ha hbuilt
    refine ⟨t, hurl, ?_⟩
    rcases isSegment_or_detail ha hacc ht with hsegment | ⟨hc, hid⟩
    · exact hsegment
    · exact hdetail hc t hid

/-! ### A transaction id that leaves its path -/

/-- A customer asks for the detail of this transaction. -/
def detailRequestOf (transactionId : String) : Request where
  verb := .get
  path := "customer/transactions/detail"
  authorization := none
  input := [("transaction_id", .str transactionId)]

/-- The session of a customer. -/
def detailSession : Session := .ofUser (.arr [("id", .int 1), ("role", .str "customer")])

/-- The backend answers every request with an empty object. -/
def detailEnv : Env := .answering (fun _ => .arr []) (.response ⟨200, .utf8 "\x7b\x7d"⟩)

/-- A plain id stays in its path. -/
theorem confined_of_plain_id :
    Confined .viewTransactionDetailByID (detailRequestOf "7") detailEnv detailSession := by
  refine (confined_iff (by decide) (by decide)).mpr fun _ t ht => ?_
  obtain rfl := Value.str.inj ht
  exact ⟨by simp, by decide, by decide⟩

/-- An id with a separator reaches another endpoint. -/
theorem detail_leaves_its_path :
    ¬ ∀ a ∈ Action.splicing, ∀ (request : Request) (env : Env) (s : Session),
      a.rejects env request s = false → Confined a request env s := by
  intro h
  have hconfined := h .viewTransactionDetailByID (by decide) (detailRequestOf "../users") detailEnv
    detailSession (by decide)
  unfold Confined at hconfined
  rw [Call.backend_eq] at hconfined
  obtain ⟨t, hurl, hsegment⟩ := hconfined (detailRequest "../users") (by decide)
  rw [← eq_of_detail_url hurl] at hsegment
  exact hsegment.separators '/' (by decide) (by decide)

end Artha.ApiController
