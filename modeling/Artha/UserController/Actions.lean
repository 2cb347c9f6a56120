import Artha.Laravel.Http
import Artha.UserController.Basic

/-!
# `UserController`: `index`, `store` and `destroy`

The actions work on the table `users`.  The migrations of the repository create it without a role;
the column the actions ask for, its collation and its default are those of the database they are run
against, and so is the form in which an id is compared.  A `User` is created from the attributes
that the model lists as `$fillable`.
-/

namespace Artha.UserController

open Php Laravel

/-- What a user is shown as: `$hidden` leaves out the password. -/
structure Account where
  id : Nat
  name : String
  email : String
  /-- None is `NULL`, or no such column. -/
  role : Option String
deriving DecidableEq

/-- A row of `users`. -/
structure User extends Account where
  password : String
deriving DecidableEq

/-- `users.role`. -/
inductive RoleColumn where
  | absent
  /-- A row that is inserted without a role has this one. -/
  | withDefault (role : Option String)
  /-- A row cannot be inserted without a role. -/
  | mandatory
deriving DecidableEq

/-- What the actions run against. -/
structure Database where
  rules : Rules
  /-- `Hash::make`. -/
  hash : String → String
  role : RoleColumn
  /-- `role = 'Admin'`, under the collation of the column. -/
  equalsAdmin : String → Bool
  equalsAdmin_admin : equalsAdmin "Admin" = true
  /-- The query of `unique:users`, on one row. -/
  emailIs : Value → String → Bool
  /-- `id = ?`, for a parameter of the route. -/
  idIs : String → Nat → Bool
  idIs_toString : ∀ n m, idIs (toString n) m = (n = m : Bool)
  /-- The id of the next row. -/
  nextId : List User → Nat
  nextId_fresh : ∀ rows, ∀ u ∈ rows, u.id ≠ nextId rows

/-- The table. -/
structure Users (db : Database) where
  rows : List User
  key : (rows.map fun u => u.id).Nodup
  /-- There is no role without the column. -/
  roleless : db.role = .absent → ∀ u ∈ rows, u.role = none

/-- The body of an answer. -/
inductive Body where
  | accounts (list : List Account)
  | message (text : String)
  /-- `$validator->errors()`. -/
  | errors
  /-- The message, the new id, and the attributes of the new model that are not hidden. -/
  | created (text : String) (id : Nat) (attributes : List (String × String))
deriving DecidableEq

/-- `response()->json($body, $status)`. -/
structure Reply where
  status : Nat
  body : Body
deriving DecidableEq

namespace Users

variable {db : Database}

/-! ### The model `User` -/

/-- `$fillable`. -/
def fillable : List String := ["name", "email", "password"]

/-- `$hidden`, of the attributes that `store` gives. -/
def hidden : List String := ["password"]

/-- The attributes that mass assignment keeps. -/
def fill (attributes : List (String × String)) : List (String × String) :=
  attributes.filter fun a => fillable.contains a.1

/-- The role that an inserted row has; none is a `QueryException`. -/
def insertedRole (db : Database) (given : Option String) : Option (Option String) :=
  match db.role, given with
  | .absent, none => some none
  | .absent, some _ => none
  | .withDefault role, none => some role
  | .mandatory, none => none
  | _, some role => some (some role)

/-- The row that is inserted for the attributes. -/
def newRow (users : Users db) (attributes : List (String × String)) (role : Option String) :
    User where
  id := db.nextId users.rows
  name := (attributes.lookup "name").getD ""
  email := (attributes.lookup "email").getD ""
  password := (attributes.lookup "password").getD ""
  role := role

theorem key_append (users : Users db) (attributes : List (String × String))
    (role : Option String) :
    ((users.rows ++ [users.newRow attributes role]).map fun u => u.id).Nodup := by
  rw [List.map_append, List.nodup_append]
  refine ⟨users.key, by simp, ?_⟩
  intro n hn m hm
  obtain ⟨u, hu, rfl⟩ := List.mem_map.mp hn
  have hnew : m = (users.newRow attributes role).id := by simpa using hm
  rw [hnew]
  exact db.nextId_fresh users.rows u hu

theorem eq_none_of_insertedRole {given role : Option String}
    (h : insertedRole db given = some role) (habsent : db.role = .absent) : role = none := by
  cases given with
  | none => simpa [insertedRole, habsent] using h.symm
  | some r => simp [insertedRole, habsent] at h

/-- The table with a row for the attributes; none is a `QueryException`. -/
def insert (users : Users db) (attributes : List (String × String)) : Option (Users db) :=
  match hrole : insertedRole db (attributes.lookup "role") with
  | none => none
  | some role => some
    { rows := users.rows ++ [users.newRow attributes role]
      key := users.key_append attributes role
      roleless := by
        intro habsent u hu
        rcases List.mem_append.mp hu with hu | hu
        · exact users.roleless habsent u hu
        · rw [List.mem_singleton.mp hu]
          exact eq_none_of_insertedRole hrole habsent }

/-- `$user->delete()`. -/
def delete (users : Users db) (id : Nat) : Users db where
  rows := users.rows.filter fun u => u.id ≠ id
  key := users.key.sublist (List.filter_sublist.map _)
  roleless := by
    intro habsent u hu
    exact users.roleless habsent u (List.mem_filter.mp hu).1

/-- `User::findOrFail($id)`; none is a `ModelNotFoundException`. -/
def findOrFail (users : Users db) (id : String) : Option User :=
  users.rows.find? fun u => db.idIs id u.id

/-- `User::where('role', '!=', 'Admin')->get()`: no comparison holds of `NULL`; none is a
`QueryException`. -/
def whereRoleNotAdmin (users : Users db) : Option (List User) :=
  if db.role = .absent then none
  else some (users.rows.filter fun u => u.role.any fun role => !db.equalsAdmin role)

/-! ### The actions -/

def index (users : Users db) : Reply :=
  match users.whereRoleNotAdmin with
  | some list => ⟨200, .accounts (list.map User.toAccount)⟩
  | none => ⟨500, .message "Gagal mengambil data users"⟩

/-- The validator's rules on this table. -/
def rules (users : Users db) : Rules :=
  { db.rules with emailTaken := fun v => users.rows.any fun u => db.emailIs v u.email }

/-- What `store` passes to `User::create`; none is a value that is no text. -/
def attributes (db : Database) (request : Request) : Option (List (String × String)) := do
  let text := fun key => ((request.get key).toText db.rules.floatToString).toOption
  let name ← text "name"
  let email ← text "email"
  let password ← text "password"
  let role ← text "role"
  return [("name", name), ("email", email), ("password", db.hash password),
    ("role", ucfirst (strtolower role))]

/-- `User::create($attributes)`. -/
def create (users : Users db) (attributes : List (String × String)) : Option (Users db) :=
  users.insert (fill attributes)

def store (users : Users db) (request : Request) : Users db × Reply :=
  if accepts users.rules request.all storeRules then
    match (attributes db request).bind fun given => (users.create given).map (·, given) with
    | some (users', given) =>
      (users', ⟨201, .created "User berhasil dibuat" (db.nextId users.rows)
        ((fill given).filter fun a => !hidden.contains a.1)⟩)
    | none => (users, ⟨500, .message "Gagal membuat user baru"⟩)
  else (users, ⟨422, .errors⟩)

def destroy (users : Users db) (id : String) : Users db × Reply :=
  match users.findOrFail id with
  | some user =>
    if user.role = some "Admin" then (users, ⟨403, .message "Tidak dapat menghapus akun Admin"⟩)
    else (users.delete user.id, ⟨200, .message "User berhasil dihapus"⟩)
  | none => (users, ⟨500, .message "Gagal menghapus user"⟩)

end Users

/-! ### Runs -/

/-- A call of the controller. -/
inductive Call where
  | index
  | store (request : Request)
  | destroy (id : String)

variable {db : Database}

def step (users : Users db) : Call → Users db × Reply
  | .index => (users, users.index)
  | .store request => users.store request
  | .destroy id => users.destroy id

/-- The table after some calls. -/
def after (users : Users db) (calls : List Call) : Users db :=
  calls.foldl (fun users call => (step users call).1) users

end Artha.UserController
