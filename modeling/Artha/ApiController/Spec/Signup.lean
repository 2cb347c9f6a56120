import Artha.ApiController.Spec.Outgoing

/-!
# Whom the public signup registers

The signup form is for customers: its page says so and so does the documentation.  The validator of
`signup` wants a role among `admin`, `manager` and `sales`, and the form sends none.  So whatever
passes the validator registers somebody else than a customer, and no form passes it
(`signup_registers_iff`).
-/

namespace Artha.ApiController

open Php Laravel

/-! ### The form -/

/-- The fields of `signupForm`. -/
structure SignupForm where
  firstname : String
  lastname : String
  email : String
  username : String
  password : String
  address : String

/-- The object `formData` the submit handler sends. -/
def SignupForm.formData (form : SignupForm) : List (String × String) :=
  [("firstname", form.firstname), ("lastname", form.lastname), ("email", form.email),
    ("username", form.username), ("password", form.password), ("address", form.address)]

/-- The request the form makes.  The framework's middleware may trim a value or turn it into
`null`; it keeps the keys. -/
def SignupForm.request (form : SignupForm) (middleware : String → String → Value) : Request where
  verb := .post
  path := "signup"
  authorization := none
  input := form.formData.map fun field => (field.1, middleware field.1 field.2)

/-- The values the form is for. -/
structure SignupForm.Valid (R : Rules) (form : SignupForm) : Prop where
  firstname : form.firstname.length ≤ 255
  lastname : form.lastname.length ≤ 255
  email : form.email.length ≤ 255 ∧ R.validEmail form.email = true ∧
    R.emailTaken (.str form.email) = false
  password : 8 ≤ form.password.length

/-! ### What should be registered -/

/-- The role in the JSON body of a request. -/
def roleOf (q : HttpRequest) : Value :=
  match q.body with
  | .json data => data.getD "role" .null
  | _ => .null

/-- The request is a signup of a customer. -/
def RegistersCustomer (q : HttpRequest) : Prop :=
  q.url = api ++ "/signup" ∧ ∃ role, roleOf q = .str role ∧ strtolower role = "customer"

/-- Every request `signup` sends to the backend registers a customer. -/
def OnlyCustomers (request : Request) (env : Env) (s : Session) : Prop :=
  ∀ q ∈ Call.backend ⟨.signup, request, env⟩ s, RegistersCustomer q

/-- Submitting the form registers one customer. -/
def ForwardsForm (form : SignupForm) (middleware : String → String → Value) (env : Env)
    (s : Session) : Prop :=
  ∃ q, Call.backend ⟨.signup, form.request middleware, env⟩ s = [q] ∧ RegistersCustomer q

/-! ### What is registered -/

variable {env : Env} {request : Request} {s : Session}

/-- The fields `signup` validates are strings once they are accepted. -/
theorem signup_field_eq_str (h : accepts env.rules request.all signupRules = true) (key : String)
    (hkey : key ∈ ["firstname", "lastname", "email", "password", "role"]) :
    ∃ t, request.get key = .str t := by
  simp only [List.mem_cons, List.not_mem_nil, or_false] at hkey
  have hline : ∃ rules, (Attribute.key key, rules) ∈ signupRules ∧ Rule.string ∈ rules := by
    rcases hkey with rfl | rfl | rfl | rfl | rfl <;> simp [signupRules]
  obtain ⟨rules, hmem, hstring⟩ := hline
  exact eq_str_of_accepts h rules hmem hstring

/-- An accepted role is one of the three staff roles. -/
theorem signup_role (h : accepts env.rules request.all signupRules = true) :
    ∃ role ∈ ["admin", "manager", "sales"], request.get "role" = .str role := by
  obtain ⟨role, hrole⟩ := signup_field_eq_str h "role" (by simp)
  have hin : passes env.rules [.required, .string, .oneOf ["admin", "manager", "sales"]]
      (request.all.getD "role" .null) (.oneOf ["admin", "manager", "sales"]) = true :=
    passes_of_accepts h (by simp [signupRules]) (by simp)
  have hget : request.all.getD "role" .null = .str role := hrole
  rw [hget] at hin
  exact ⟨role, by simpa [passes, Value.toText] using hin, hrole⟩

/-- What is accepted can be encoded: it consists of strings. -/
theorem encodable_signupRequest (h : accepts env.rules request.all signupRules = true) :
    (signupRequest request).encodable = true := by
  refine Value.encodable_of_str fun e he => ?_
  simp only [List.mem_cons, List.not_mem_nil, or_false] at he
  rcases he with rfl | rfl | rfl | rfl | rfl <;> exact signup_field_eq_str h _ (by simp)

/-- `signup` forwards exactly the bodies its validator accepts. -/
theorem backend_signup (request : Request) (env : Env) (s : Session) :
    Call.backend ⟨.signup, request, env⟩ s =
      if accepts env.rules request.all signupRules then [signupRequest request] else [] := by
  rw [Call.backend_eq, Action.outgoing]
  simp only [Action.built, whenAccepted]
  cases h : accepts env.rules request.all signupRules with
  | false => rfl
  | true => simp [encodable_signupRequest h]

/-- An accepted body does not register a customer. -/
theorem not_registersCustomer (h : accepts env.rules request.all signupRules = true) :
    ¬ RegistersCustomer (signupRequest request) := by
  rintro ⟨-, role, hrole, hlower⟩
  obtain ⟨staff, hstaff, hget⟩ := signup_role h
  have hrole' : roleOf (signupRequest request) = request.get "role" := by
    unfold roleOf
    simp only [signupRequest, jsonRequest, HttpRequest.plain]
    rw [hget]
    rfl
  rw [hrole', hget] at hrole
  obtain rfl := Value.str.inj hrole
  simp only [List.mem_cons, List.not_mem_nil, or_false] at hstaff
  rcases hstaff with rfl | rfl | rfl <;> exact absurd hlower (by decide)

/-- No form is accepted: the role is missing. -/
theorem not_accepts_form (form : SignupForm) (middleware : String → String → Value) (R : Rules) :
    accepts R (form.request middleware).all signupRules = false := by
  rw [← Bool.not_eq_true]
  intro h
  have hreq : passes R [.required, .string, .oneOf ["admin", "manager", "sales"]]
      ((form.request middleware).all.getD "role" .null) .required = true :=
    passes_of_accepts h (by simp [signupRules]) (by simp)
  have hnull : (form.request middleware).all.getD "role" .null = .null := rfl
  rw [hnull] at hreq
  simp [passes, passesRequired] at hreq

/-- A body registers customers only exactly when the validator rejects it, and no submission of
the form registers anybody. -/
theorem signup_registers_iff (request : Request) (form : SignupForm)
    (middleware : String → String → Value) (env : Env) (s : Session) :
    (OnlyCustomers request env s ↔ accepts env.rules request.all signupRules = false) ∧
    ¬ ForwardsForm form middleware env s := by
  constructor
  · unfold OnlyCustomers
    rw [backend_signup]
    cases h : accepts env.rules request.all signupRules with
    | false => simp
    | true => simpa using not_registersCustomer h
  · rintro ⟨q, hq, -⟩
    rw [backend_signup, not_accepts_form] at hq
    exact absurd hq (by simp)

/-! ### An administrator and a customer -/

/-- A body anybody can post. -/
def adminSignup : Request where
  verb := .post
  path := "signup"
  authorization := none
  input := [("firstname", .str "Eve"), ("lastname", .str "E"), ("email", .str "eve@artha.test"),
    ("password", .str "password"), ("role", .str "admin")]

/-- A form a customer fills in. -/
def customerForm : SignupForm where
  firstname := "Ann"
  lastname := "A"
  email := "ann@artha.test"
  username := "ann"
  password := "password"
  address := "Jalan 1"

def signupEnv : Env := .answering (fun _ => .null) (.response ⟨200, .utf8 ""⟩)

/-- The administrator's body is forwarded as it is, and the customer's valid form is not. -/
theorem admin_registers_and_customer_does_not :
    ¬ OnlyCustomers adminSignup signupEnv (fun _ => .null) ∧
    customerForm.Valid signupEnv.rules ∧
    ¬ ForwardsForm customerForm (fun _ value => .str value) signupEnv (fun _ => .null) := by
  refine ⟨?_, ⟨by decide, by decide, by decide, by decide⟩, ?_⟩
  · have hacc : accepts signupEnv.rules adminSignup.all signupRules = true := by decide
    intro h
    unfold OnlyCustomers at h
    rw [backend_signup, hacc] at h
    exact not_registersCustomer hacc (h _ (by simp))
  · rintro ⟨q, hq, -⟩
    rw [backend_signup, not_accepts_form] at hq
    exact absurd hq (by simp)

end Artha.ApiController
