import Artha.Laravel.Validator

/-!
# `UserController`
-/

namespace Artha.UserController

open Laravel

/-- The validator of `store`. -/
def storeRules : List (Attribute × List Rule) :=
  [(.key "name", [.required, .string, .max 255]),
    (.key "email", [.required, .string, .email, .max 255, .uniqueUsers]),
    (.key "password", [.required, .string, .min 6]),
    (.key "role", [.required, .oneOf ["Manager", "Sales"]])]

end Artha.UserController
