import Artha.ApiController.Basic

/-!
# Accounts: `signup`, `login`, `logout`, `createAccount`, `getUsers`, `deleteUser`
-/

namespace Artha.ApiController

open Php Laravel

/-! ### `signup` -/

def signupRules : List (Attribute × List Rule) :=
  [(.key "firstname", [.required, .string, .max 255]),
    (.key "lastname", [.required, .string, .max 255]),
    (.key "email", [.required, .string, .email, .max 255, .uniqueUsers]),
    (.key "password", [.required, .string, .min 8]),
    (.key "role", [.required, .string, .oneOf ["admin", "manager", "sales"]])]

/-- The request `signup` forwards. -/
def signupRequest (request : Request) : HttpRequest :=
  jsonRequest .post (api ++ "/signup")
    [("firstname", request.get "firstname"), ("lastname", request.get "lastname"),
      ("email", request.get "email"), ("password", request.get "password"),
      ("role", request.get "role")]

def signup (request : Request) : Php Response :=
  attempt "Failed to register user: " <|
    validated request signupRules <|
      forward (signupRequest request) fun _ =>
        answerMessage "User registered successfully"

/-! ### `login` -/

def loginRules : List (Attribute × List Rule) :=
  [(.key "email", [.required, .string, .email]), (.key "password", [.required, .string])]

/-- `getRedirectUrl`. -/
def getRedirectUrl (role : String) : String :=
  match strtolower role with
  | "admin" => "/admin/dashboard"
  | "manager" => "/manager/dashboard"
  | "sales" => "/sales/dashboard"
  | "customer" => "/customer/dashboard"
  | _ => "/login"

/-- The record `login` stores under `user`. -/
def userRecord (data : Value) (role : String) : Value :=
  .arr [("id", data.getD "id" .null), ("email", data.getD "email" .null),
    ("name", data.getD "name" .null), ("token", data.getD "token" .null), ("role", .str role)]

/-- The answer of a successful login. -/
def loginAnswer (data : Value) (role : String) : Value :=
  .arr [("status", .str "success"),
    ("data", .arr [("token", data.getD "token" .null), ("email", data.getD "email" .null),
      ("name", data.getD "name" .null), ("role", .str role)]),
    ("redirect", .str (getRedirectUrl role))]

/-- The branch of `login` for a response that is not successful: the error texts of the backend
are matched, anything else is thrown. -/
def loginRefused (response : HttpResponse) : Php Response :=
  -- `strpos` looks for the text anywhere in the body
  if response.body.contains "Invalid email" then
    return errorJson 401 "Invalid email"
  else if response.body.contains "Invalid password" then
    return errorJson 401 "Invalid password"
  else throw (.exception response.body)

/-- The branch of `login` for a successful response.  `Log::info` takes an array as context, so a
body that is not a JSON array or object is a `TypeError`; the session is written before the answer
is built. -/
def loginAccepted (response : HttpResponse) : Php Response := do
  let data ← decode response
  match data with
  | .arr _ =>
    if !data.isSet "token" || !data.isSet "email" || !data.isSet "name" then
      throw (.ofMessage "Invalid response structure from backend")
    let role := strtolower (← stringParam (data.getD "role" (.str "customer")))
    -- only `user` is written: the `jwt_token` the admin pages ask for is not
    putSession "user" (userRecord data role)
    json (loginAnswer data role)
  | _ => throw (.error "Argument #2 ($context) must be of type array")

/-- The request `login` forwards. -/
def loginRequest (request : Request) : HttpRequest :=
  jsonRequest .post (api ++ "/login")
    [("email", request.get "email"), ("password", request.get "password")]

def login (request : Request) : Php Response :=
  attempt "Failed to login: " <|
    validated request loginRules do
      let response ← send (loginRequest request)
      if !response.successful then
        loginRefused response
      else loginAccepted response

/-! ### `logout` -/

def logout : Php Response :=
  Eff.handle (do
      forgetSession "user"
      return .redirect "/login" [("success", "Logged out successfully")])
    fun
    | .exception _ => return .redirect "/login" [("error", "Failed to logout")]
    | .error message => throw (.error message)

/-! ### `createAccount` -/

def createAccountRules : List (Attribute × List Rule) :=
  [(.key "username", [.required, .string, .max 255]),
    (.key "firstname", [.required, .string, .max 255]),
    (.key "lastname", [.required, .string, .max 255]),
    (.key "email", [.required, .string, .email, .max 255]),
    (.key "password", [.required, .string, .min 8]),
    (.key "role",
      [.required, .string, .oneOf ["Admin", "Manager", "Sales", "admin", "manager", "sales"]])]

/-- The request `createAccount` sends. -/
def createAccountRequest (request : Request) (role : String) (authorization : Value) :
    HttpRequest :=
  bearingJson
    (jsonRequest .post (api ++ "/admin/create-account")
      [("username", request.get "username"), ("firstname", request.get "firstname"),
        ("lastname", request.get "lastname"), ("email", request.get "email"),
        ("password", request.get "password"), ("role", .str (ucfirst (strtolower role)))])
    authorization

def createAccount (request : Request) : Php Response :=
  attempt "Failed to create account: " <|
    validated request createAccountRules <|
      withToken "Unauthorized. Please login as admin." fun token => do
        -- the payload is built before the headers
        let role ← stringParam (request.get "role")
        let response ← send (createAccountRequest request role (← bearer token))
        if !response.successful then
          throwBackendMessage response
        else answerMessage "Account created successfully"

/-! ### `getUsers` -/

/-- The request `getUsers` sends. -/
def getUsersRequest (authorization : Value) : HttpRequest :=
  { bearing (bareRequest .get (api ++ "/admin/viewuser")) authorization with
    timeout := some apiTimeout }

def getUsers : Php Response :=
  attempt "Failed to fetch users: " <|
    withToken "Unauthorized. Please login again." fun token => do
      let response ← send (getUsersRequest (← bearer token))
      -- the only place outside `logout` that forgets the user
      if response.status = 401 then
        forgetSession "user"
        return errorJson 401 "Session expired. Please login again."
      ensure response (answerData response)

/-! ### `deleteUser` -/

/-- The request `deleteUser` sends. -/
def deleteUserRequest (userId authorization : Value) : HttpRequest :=
  bearingJson
    (.plain .delete (api ++ "/admin/delete-user") (.ofJsonEncode (.arr [("user_id", userId)])))
    authorization

def deleteUser (request : Request) : Php Response :=
  attempt "Failed to delete user: " do
    -- no validator here: any truthy value is an id
    let userId := request.get "user_id"
    if !userId.truthy then
      return errorJson 400 "User ID is required"
    withToken "Unauthorized. Please login as admin." fun token => do
      let response ← send (deleteUserRequest userId (← bearer token))
      if !response.successful then
        throwBackendMessage response
      else answerMessage "User deleted successfully"

end Artha.ApiController
