import Artha.UserController.Spec.Admins

/-!
# Where the rows of `users` come from

`unique:users` is checked before a row is inserted, and nothing else is checked afterwards; so the
table keeps its e-mails apart, in the sense of that query, along every run that starts from such a
table.  Every row that a run leaves was there before or holds what an accepted request asked for,
with the column's default in place of the role; and a row that is gone was deleted by its id.
-/

namespace Artha.UserController

open Php Laravel

/-- No two rows have an e-mail that the query of `unique:users` takes for the same. -/
def Distinct {db : Database} (users : Users db) : Prop :=
  users.rows.Pairwise fun u v => db.emailIs (.str v.email) u.email = false

/-- The row holds what the request asks for, its role apart. -/
structure FromRequest (db : Database) (request : Request) (u : User) : Prop where
  name : request.get "name" = .str u.name
  email : request.get "email" = .str u.email
  password : ∃ s, request.get "password" = .str s ∧ u.password = db.hash s
  role : db.role = .absent ∧ u.role = none ∨ db.role = .withDefault u.role

/-- The answers to some calls. -/
def replies {db : Database} (users : Users db) : List Call → List Reply
  | [] => []
  | call :: calls => (step users call).2 :: replies (step users call).1 calls

def Reply.isCreated (r : Reply) : Bool := r.status = 201

/-- `destroy` has deleted a user. -/
def Reply.isDeleted (r : Reply) : Bool := r = ⟨200, .message "User berhasil dihapus"⟩

/-- What a run leaves of the table it started from. -/
structure Accounted {db : Database} (users : Users db) (calls : List Call) : Prop where
  distinct : Distinct (after users calls)
  added : ∀ u ∈ (after users calls).rows, u ∈ users.rows ∨
    ∃ done request rest, calls = done ++ .store request :: rest ∧
      accepts (after users done).rules request.all storeRules = true ∧ FromRequest db request u
  removed : ∀ u ∈ users.rows, u ∉ (after users calls).rows →
    ∃ done id rest, calls = done ++ .destroy id :: rest ∧
      (after users done).findOrFail id = some u ∧ u.role ≠ some "Admin"
  counted : (after users calls).rows.length + (replies users calls).countP Reply.isDeleted =
    users.rows.length + (replies users calls).countP Reply.isCreated

variable {db : Database} {users : Users db}

/-! ### One call -/

/-- Everything a call can do. -/
inductive Effect (users : Users db) (call : Call) : Prop where
  | unchanged (h : (step users call).1 = users) (hcreated : (step users call).2.isCreated = false)
      (hdeleted : (step users call).2.isDeleted = false)
  | inserted (request : Request) (u : User) (hcall : call = .store request)
      (haccepts : accepts users.rules request.all storeRules = true)
      (hfrom : FromRequest db request u) (hrows : (step users call).1.rows = users.rows ++ [u])
      (hcreated : (step users call).2.isCreated = true)
      (hdeleted : (step users call).2.isDeleted = false)
  | deleted (id : String) (u : User) (hcall : call = .destroy id)
      (hfind : users.findOrFail id = some u) (hrole : u.role ≠ some "Admin")
      (hrows : (step users call).1 = users.delete u.id)
      (hcreated : (step users call).2.isCreated = false)
      (hdeleted : (step users call).2.isDeleted = true)

/-- The attributes that `store` passes on, of a request with texts. -/
theorem attributes_eq_some {request : Request} {given : List (String × String)}
    {name email password : String} (h : Users.attributes db request = some given)
    (hname : request.get "name" = .str name) (hemail : request.get "email" = .str email)
    (hpassword : request.get "password" = .str password) :
    ∃ role, given = [("name", name), ("email", email), ("password", db.hash password),
      ("role", role)] := by
  simp only [Users.attributes, hname, hemail, hpassword] at h
  cases htext : (request.get "role").toText db.rules.floatToString with
  | error e =>
    rw [htext] at h
    cases h
  | ok role =>
    rw [htext] at h
    exact ⟨_, (Option.some.inj h).symm⟩

/-- The row that is inserted for an accepted request. -/
theorem fromRequest_newRow {request : Request} {given : List (String × String)}
    {role : Option String} (haccepts : accepts users.rules request.all storeRules = true)
    (hgiven : Users.attributes db request = some given)
    (hrole : Users.insertedRole db none = some role) :
    FromRequest db request (users.newRow (Users.fill given) role) := by
  obtain ⟨name, hname⟩ : ∃ t, request.get "name" = .str t :=
    eq_str_of_accepts haccepts [.required, .string, .max 255] (by simp [storeRules]) (by simp)
  obtain ⟨email, hemail⟩ : ∃ t, request.get "email" = .str t :=
    eq_str_of_accepts haccepts [.required, .string, .email, .max 255, .uniqueUsers]
      (by simp [storeRules]) (by simp)
  obtain ⟨password, hpassword⟩ : ∃ t, request.get "password" = .str t :=
    eq_str_of_accepts haccepts [.required, .string, .min 6] (by simp [storeRules]) (by simp)
  obtain ⟨given', rfl⟩ := attributes_eq_some hgiven hname hemail hpassword
  -- `fill` drops the role, which is the last of the four
  have hfill : Users.fill [("name", name), ("email", email), ("password", db.hash password),
      ("role", given')] = [("name", name), ("email", email), ("password", db.hash password)] := by
    simp [Users.fill, Users.fillable]
  rw [hfill]
  exact
    { name := by simpa [Users.newRow] using hname
      email := by simpa [Users.newRow, List.lookup_cons] using hemail
      password := ⟨password, hpassword, by simp [Users.newRow, List.lookup_cons]⟩
      role := insertedRole_none hrole }

theorem effect_store (users : Users db) (request : Request) : Effect users (.store request) := by
  by_cases haccepts : accepts users.rules request.all storeRules = true
  · obtain ⟨given, hgiven⟩ := attributes_of_accepts haccepts
    cases hinserted : Users.insertedRole db none with
    | none =>
      have hcreate : users.create given = none := by
        unfold Users.create Users.insert
        split
        · rfl
        · next role hrole =>
          rw [lookup_role_fill, hinserted] at hrole
          cases hrole
      have hstep : step users (.store request) =
          (users, ⟨500, .message "Gagal membuat user baru"⟩) := by
        simp only [step, Users.store, haccepts, if_true, hgiven, Option.bind_some, hcreate,
          Option.map_none]
      exact .unchanged (by rw [hstep]) (by rw [hstep]; rfl) (by rw [hstep]; rfl)
    | some role =>
      have hrole : Users.insertedRole db ((Users.fill given).lookup "role") = some role := by
        rw [lookup_role_fill, hinserted]
      obtain ⟨users', hinsert, hrows⟩ := @insert_eq_some db users _ _ hrole
      have hcreate : users.create given = some users' := hinsert
      have hstep : step users (.store request) =
          (users', ⟨201, .created "User berhasil dibuat" (db.nextId users.rows)
            ((Users.fill given).filter fun a => !Users.hidden.contains a.1)⟩) := by
        simp only [step, Users.store, haccepts, if_true, hgiven, Option.bind_some, hcreate,
          Option.map_some]
      exact .inserted request _ rfl haccepts (fromRequest_newRow haccepts hgiven hinserted)
        (by rw [hstep, hrows]) (by rw [hstep]; rfl) (by rw [hstep]; rfl)
  · have hstep : step users (.store request) = (users, ⟨422, .errors⟩) := by
      simp only [step, Users.store, haccepts, if_false, Bool.false_eq_true]
    exact .unchanged (by rw [hstep]) (by rw [hstep]; rfl) (by rw [hstep]; rfl)

theorem effect_destroy (users : Users db) (id : String) : Effect users (.destroy id) := by
  cases hfind : users.findOrFail id with
  | none =>
    have hstep := destroy_of_findOrFail_eq_none hfind
    exact .unchanged (by rw [step, hstep]) (by rw [step, hstep]; rfl) (by rw [step, hstep]; rfl)
  | some u =>
    by_cases hrole : u.role = some "Admin"
    · have hstep := destroy_admin hfind hrole
      exact .unchanged (by rw [step, hstep]) (by rw [step, hstep]; rfl) (by rw [step, hstep]; rfl)
    · have hstep := destroy_other hfind hrole
      exact .deleted id u rfl hfind hrole (by rw [step, hstep]) (by rw [step, hstep]; rfl)
        (by rw [step, hstep]; rfl)

theorem effect_index (users : Users db) : Effect users .index := by
  have hreply : users.index.isCreated = false ∧ users.index.isDeleted = false := by
    unfold Users.index
    split <;> exact ⟨rfl, rfl⟩
  exact .unchanged rfl hreply.1 hreply.2

theorem effect_step (users : Users db) (call : Call) : Effect users call := by
  cases call with
  | index => exact effect_index users
  | store request => exact effect_store users request
  | destroy id => exact effect_destroy users id

/-! ### What a call keeps -/

/-- The e-mail of an accepted request is no row's. -/
theorem emailIs_eq_false {request : Request} {u : User}
    (haccepts : accepts users.rules request.all storeRules = true)
    (hfrom : FromRequest db request u) {v : User} (hv : v ∈ users.rows) :
    db.emailIs (.str u.email) v.email = false := by
  have hpass : passes users.rules [.required, .string, .email, .max 255, .uniqueUsers]
      (request.get "email") .uniqueUsers = true :=
    passes_of_accepts haccepts (by simp [storeRules]) (by simp)
  rw [hfrom.email] at hpass
  have hnone : (users.rows.any fun w => db.emailIs (.str u.email) w.email) = false := by
    rw [passes, Bool.not_eq_true'] at hpass
    exact hpass
  simpa using List.any_eq_false.mp hnone v hv

theorem distinct_step (hdistinct : Distinct users) (call : Call) :
    Distinct (step users call).1 := by
  cases effect_step users call with
  | unchanged h => rwa [h]
  | inserted request u hcall haccepts hfrom hrows =>
    unfold Distinct
    rw [hrows, List.pairwise_append]
    refine ⟨hdistinct, List.pairwise_singleton _ _, ?_⟩
    intro v hv w hw
    rw [List.mem_singleton.mp hw]
    exact emailIs_eq_false haccepts hfrom hv
  | deleted id u hcall hfind hrole hrows =>
    rw [hrows]
    exact hdistinct.sublist List.filter_sublist

/-- A deletion takes one row. -/
theorem length_rows_delete {u : User} (hu : u ∈ users.rows) :
    (users.delete u.id).rows.length + 1 = users.rows.length := by
  have hcount : (users.rows.map fun v => v.id).count u.id = 1 :=
    List.count_eq_one_of_mem users.key (List.mem_map_of_mem hu)
  have hlength := users.rows.length_eq_countP_add_countP fun v => decide (v.id ≠ u.id)
  have hrows : (users.delete u.id).rows.length = users.rows.countP fun v => v.id ≠ u.id :=
    List.countP_eq_length_filter.symm
  have hnot : users.rows.countP (fun v => decide ¬(decide (v.id ≠ u.id) = true)) = 1 := by
    rw [← hcount, List.count, List.countP_map]
    apply List.countP_congr
    intro v _
    simp
  rw [hlength, hnot, hrows]

/-- The row that a deletion takes is the one that was found. -/
theorem eq_of_not_mem_delete {u v : User} (hu : u ∈ users.rows) (hv : v ∈ users.rows)
    (h : v ∉ (users.delete u.id).rows) : v = u := by
  apply List.inj_on_of_nodup_map users.key hv hu
  by_contra hid
  exact h (List.mem_filter.mpr ⟨hv, by simpa using hid⟩)

theorem length_step (users : Users db) (call : Call) :
    (step users call).1.rows.length + (if (step users call).2.isDeleted then 1 else 0) =
      users.rows.length + (if (step users call).2.isCreated then 1 else 0) := by
  cases effect_step users call with
  | unchanged h hcreated hdeleted => rw [h, hcreated, hdeleted]
  | inserted request u hcall haccepts hfrom hrows hcreated hdeleted =>
    rw [hrows, hcreated, hdeleted, List.length_append]
    rfl
  | deleted id u hcall hfind hrole hrows hcreated hdeleted =>
    have hlength := length_rows_delete (mem_rows_of_findOrFail hfind)
    rw [hrows, hcreated, hdeleted]
    simpa using hlength

/-- A row behind a call was there before it, or was inserted for the request that it accepts. -/
theorem mem_or_stored {call : Call} {u : User} (h : u ∈ (step users call).1.rows) :
    u ∈ users.rows ∨ ∃ request, call = .store request ∧
      accepts users.rules request.all storeRules = true ∧ FromRequest db request u := by
  cases effect_step users call with
  | unchanged hsame =>
    rw [hsame] at h
    exact .inl h
  | inserted request v hcall haccepts hfrom hrows =>
    rw [hrows, List.mem_append, List.mem_singleton] at h
    rcases h with h | rfl
    · exact .inl h
    · exact .inr ⟨request, hcall, haccepts, hfrom⟩
  | deleted id v hcall hfind hrole hrows =>
    rw [hrows] at h
    exact .inl (List.mem_filter.mp h).1

/-- A row that is gone behind a call was found by it, and was not an administrator's. -/
theorem destroyed_of_gone {call : Call} {u : User} (hu : u ∈ users.rows)
    (h : u ∉ (step users call).1.rows) :
    ∃ id, call = .destroy id ∧ users.findOrFail id = some u ∧ u.role ≠ some "Admin" := by
  cases effect_step users call with
  | unchanged hsame =>
    rw [hsame] at h
    exact absurd hu h
  | inserted request v hcall haccepts hfrom hrows =>
    rw [hrows] at h
    exact absurd (List.mem_append_left _ hu) h
  | deleted id v hcall hfind hrole hrows =>
    rw [hrows] at h
    obtain rfl := eq_of_not_mem_delete (mem_rows_of_findOrFail hfind) hu h
    exact ⟨id, hcall, hfind, hrole⟩

/-! ### Runs -/

/-- Along every run from a table that keeps its e-mails apart, the table does so; every row at the
end was there before or was inserted for an accepted request, with the default role; every row that
is gone was found by a `destroy` and had not the role `Admin`; and the answers count the rows. -/
theorem rows_accounted (users : Users db) (hdistinct : Distinct users) (calls : List Call) :
    Accounted users calls := by
  induction calls generalizing users with
  | nil =>
    refine ⟨hdistinct, ?_, ?_, rfl⟩
    · intro u hu
      exact .inl hu
    · intro u hu hgone
      exact absurd hu hgone
  | cons call calls ih =>
    have hrest := ih (step users call).1 (distinct_step hdistinct call)
    refine ⟨hrest.distinct, ?_, ?_, ?_⟩
    · intro u hu
      rcases hrest.added u hu with hmem | ⟨done, request, rest, hcalls, hstore⟩
      · rcases mem_or_stored hmem with hbefore | ⟨request, rfl, hstore⟩
        · exact .inl hbefore
        · exact .inr ⟨[], request, calls, rfl, hstore⟩
      · exact .inr ⟨call :: done, request, rest, by rw [hcalls]; rfl, hstore⟩
    · intro u hu hgone
      by_cases hmem : u ∈ (step users call).1.rows
      · obtain ⟨done, id, rest, hcalls, hdestroy⟩ := hrest.removed u hmem hgone
        exact ⟨call :: done, id, rest, by rw [hcalls]; rfl, hdestroy⟩
      · obtain ⟨id, rfl, hdestroy⟩ := destroyed_of_gone hu hmem
        exact ⟨[], id, calls, rfl, hdestroy⟩
    · have hstep := length_step users call
      have hcounted := hrest.counted
      rw [replies, List.countP_cons, List.countP_cons]
      show (after (step users call).1 calls).rows.length + _ = _
      omega

/-- A request for the account of a manager. -/
def managerRequest : Request where
  verb := .post
  path := "users"
  authorization := none
  input := [("name", .str "Sari"), ("email", .str "budi@example.com"),
    ("password", .str "rahasia"), ("role", .str "Manager")]

/-- An e-mail is free again once its account is deleted; the new account has no role. -/
theorem rows_accounted_single :
    Accounted (singleUser (some "Sales")) [.store managerRequest, .destroy "1",
        .store managerRequest] ∧
      (after (singleUser (some "Sales")) [.store managerRequest, .destroy "1",
        .store managerRequest]).rows =
        [{ id := 1, name := "Sari", email := "budi@example.com", role := none,
           password := "$2y$12$rahasia" }] := by
  have hdistinct : Distinct (singleUser (some "Sales")) := List.pairwise_singleton _ _
  exact ⟨rows_accounted _ hdistinct _, by decide⟩

end Artha.UserController
