import Mathlib.Data.List.Nodup
import Artha.UserController.Actions

/-!
# Which administrators `UserController` protects

The guards lower the case of a role before they compare it; `destroy` asks for the spelling `Admin`,
and `index` leaves the comparison to the collation of the column.  The users that the guards take
for administrators are protected in every run exactly if all of them are spelled `Admin`, as long as
the column's default is no administrator's role: the role that `store` gives is not `$fillable`, so
a new row has the default.
-/

namespace Artha.UserController

open Php Laravel

/-- The test of `AdminMiddleware`. -/
def Account.isAdmin (a : Account) : Bool := a.role.any fun role => strtolower role = "admin"

/-- What is asked of a call. -/
structure Protected {db : Database} (users : Users db) (call : Call) : Prop where
  kept : ∀ u ∈ users.rows, u.isAdmin = true → u ∈ (step users call).1.rows
  refused : ∀ id u, call = .destroy id → users.findOrFail id = some u → u.isAdmin = true →
    (step users call).2.status = 403 ∧ (step users call).1 = users
  unlisted : ∀ list, (step users call).2.body = .accounts list → ∀ a ∈ list, a.isAdmin = false
  none_added : ∀ u ∈ (step users call).1.rows, u.isAdmin = true → u ∈ users.rows

/-- Every administrator is spelled as `destroy` expects it. -/
def Spelled {db : Database} (users : Users db) : Prop :=
  ∀ u ∈ users.rows, u.isAdmin = true → u.role = some "Admin"

/-- A row without a given role is an administrator's. -/
def Database.DefaultAdmin (db : Database) : Prop :=
  ∃ role, db.role = .withDefault (some role) ∧ strtolower role = "admin"

variable {db : Database} {users : Users db}

/-! ### What the actions do -/

theorem lookup_role_fill (attributes : List (String × String)) :
    (Users.fill attributes).lookup "role" = none := by
  rw [List.lookup_eq_none_iff]
  intro a ha
  have hmem := (List.mem_filter.mp ha).2
  simp only [bne_iff_ne, ne_eq]
  intro hrole
  rw [← hrole] at hmem
  exact absurd hmem (by decide)

/-- The role of a row that is inserted without one. -/
theorem insertedRole_none {role : Option String} (h : Users.insertedRole db none = some role) :
    db.role = .absent ∧ role = none ∨ db.role = .withDefault role := by
  unfold Users.insertedRole at h
  cases hcolumn : db.role with
  | absent => exact .inl ⟨rfl, by simpa [hcolumn] using h.symm⟩
  | withDefault d =>
    have heq : d = role := by simpa [hcolumn] using h
    exact .inr (by rw [heq])
  | mandatory => simp [hcolumn] at h

theorem insert_eq_some {attributes : List (String × String)} {role : Option String}
    (h : Users.insertedRole db (attributes.lookup "role") = some role) :
    ∃ users', users.insert attributes = some users' ∧
      users'.rows = users.rows ++ [users.newRow attributes role] := by
  unfold Users.insert
  split
  · next hnone =>
    rw [h] at hnone
    cases hnone
  · next role' hrole =>
    rw [h] at hrole
    obtain rfl := Option.some.inj hrole
    exact ⟨_, rfl, rfl⟩

/-- A new row has the default of the column, whatever role is given. -/
theorem rows_of_create {attributes : List (String × String)} {users' : Users db}
    (h : users.create attributes = some users') :
    ∃ u : User, users'.rows = users.rows ++ [u] ∧
      (db.role = .absent ∧ u.role = none ∨ db.role = .withDefault u.role) := by
  unfold Users.create Users.insert at h
  split at h
  · cases h
  · next role hrole =>
    rw [lookup_role_fill] at hrole
    obtain rfl := Option.some.inj h
    exact ⟨_, rfl, insertedRole_none hrole⟩

/-- `store` answers without touching the table, or appends a row with the default role. -/
theorem store_cases (users : Users db) (request : Request) :
    ((users.store request).1 = users ∨
      ∃ u : User, (users.store request).1.rows = users.rows ++ [u] ∧
        (db.role = .absent ∧ u.role = none ∨ db.role = .withDefault u.role)) ∧
      ∀ list, (users.store request).2.body ≠ .accounts list := by
  unfold Users.store
  split
  · split
    · next users' given h =>
      obtain ⟨attributes, -, hcreate⟩ := Option.bind_eq_some_iff.mp h
      obtain ⟨created, hcreated, hpair⟩ := Option.map_eq_some_iff.mp hcreate
      obtain ⟨rfl, rfl⟩ := Prod.mk.inj hpair
      exact ⟨.inr (rows_of_create hcreated), by simp⟩
    · exact ⟨.inl rfl, by simp⟩
  · exact ⟨.inl rfl, by simp⟩

theorem mem_rows_of_findOrFail {id : String} {u : User} (h : users.findOrFail id = some u) :
    u ∈ users.rows :=
  List.mem_of_find?_eq_some h

/-- The id finds the row that has it. -/
theorem findOrFail_toString {u : User} (hu : u ∈ users.rows) :
    users.findOrFail (toString u.id) = some u := by
  unfold Users.findOrFail
  cases hfind : users.rows.find? fun v => db.idIs (toString u.id) v.id with
  | none =>
    have hnot := List.find?_eq_none.mp hfind u hu
    rw [db.idIs_toString] at hnot
    simp at hnot
  | some v =>
    have hv := List.find?_some hfind
    rw [db.idIs_toString, decide_eq_true_iff] at hv
    rw [List.inj_on_of_nodup_map users.key (List.mem_of_find?_eq_some hfind) hu hv.symm]

/-! ### One call -/

theorem isAdmin_eq_true_iff {a : Account} :
    a.isAdmin = true ↔ ∃ role, a.role = some role ∧ strtolower role = "admin" := by
  simp [Account.isAdmin, Option.any_eq_true]

theorem protected_index (hspelled : Spelled users) : Protected users .index where
  kept _ hu _ := hu
  refused _ _ h := by simp at h
  unlisted list h a ha := by
    have hbody : users.index.body = .accounts list := h
    unfold Users.index Users.whereRoleNotAdmin at hbody
    by_cases habsent : db.role = .absent
    · simp [habsent] at hbody
    · simp only [habsent, if_false, Body.accounts.injEq] at hbody
      rw [← hbody] at ha
      obtain ⟨u, hu, rfl⟩ := List.mem_map.mp ha
      obtain ⟨hmem, hdiffers⟩ := List.mem_filter.mp hu
      by_contra hadmin
      have hrole := hspelled u hmem (by simpa using hadmin)
      rw [hrole] at hdiffers
      simp [db.equalsAdmin_admin] at hdiffers
  none_added _ hu _ := hu

theorem not_isAdmin_of_default {u : User} (hdefault : ¬db.DefaultAdmin)
    (h : db.role = .absent ∧ u.role = none ∨ db.role = .withDefault u.role) :
    u.isAdmin = false := by
  rw [Bool.eq_false_iff]
  intro hadmin
  obtain ⟨role, hrole, hlower⟩ := isAdmin_eq_true_iff.mp hadmin
  rcases h with ⟨-, hnone⟩ | hcolumn
  · rw [hrole] at hnone
    cases hnone
  · exact hdefault ⟨role, by rw [hcolumn, hrole], hlower⟩

theorem protected_store (hdefault : ¬db.DefaultAdmin) (request : Request) :
    Protected users (.store request) := by
  obtain ⟨hrows, hbody⟩ := store_cases users request
  refine ⟨?_, ?_, ?_, ?_⟩
  · intro u hu _
    show u ∈ (users.store request).1.rows
    rcases hrows with heq | ⟨new, hrows, -⟩
    · rw [heq]
      exact hu
    · rw [hrows]
      exact List.mem_append_left _ hu
  · intro id u h
    cases h
  · intro list h
    exact absurd h (hbody list)
  · intro u hu hadmin
    have hu : u ∈ (users.store request).1.rows := hu
    rcases hrows with heq | ⟨new, hrows, hnew⟩
    · rwa [heq] at hu
    · rw [hrows, List.mem_append, List.mem_singleton] at hu
      rcases hu with hu | rfl
      · exact hu
      · rw [not_isAdmin_of_default hdefault hnew] at hadmin
        cases hadmin

theorem destroy_of_findOrFail_eq_none {id : String} (h : users.findOrFail id = none) :
    users.destroy id = (users, ⟨500, .message "Gagal menghapus user"⟩) := by
  simp [Users.destroy, h]

theorem destroy_admin {id : String} {u : User} (h : users.findOrFail id = some u)
    (hrole : u.role = some "Admin") :
    users.destroy id = (users, ⟨403, .message "Tidak dapat menghapus akun Admin"⟩) := by
  simp [Users.destroy, h, hrole]

theorem destroy_other {id : String} {u : User} (h : users.findOrFail id = some u)
    (hrole : u.role ≠ some "Admin") :
    users.destroy id = (users.delete u.id, ⟨200, .message "User berhasil dihapus"⟩) := by
  simp [Users.destroy, h, hrole]

/-- A call that leaves the table alone and lists nobody. -/
theorem protected_of_unchanged {call : Call} {reply : Reply} (h : step users call = (users, reply))
    (hbody : ∀ list, reply.body ≠ .accounts list)
    (hrefused : ∀ id u, call = .destroy id → users.findOrFail id = some u → u.isAdmin = true →
      reply.status = 403) : Protected users call := by
  refine ⟨?_, ?_, ?_, ?_⟩
  · intro u hu _
    rw [h]
    exact hu
  · intro id u hcall hfind hadmin
    rw [h]
    exact ⟨hrefused id u hcall hfind hadmin, rfl⟩
  · intro list hlist
    rw [h] at hlist
    exact absurd hlist (hbody list)
  · intro u hu _
    rwa [h] at hu

theorem protected_destroy (hspelled : Spelled users) (id : String) :
    Protected users (.destroy id) := by
  cases hfind : users.findOrFail id with
  | none =>
    refine protected_of_unchanged (destroy_of_findOrFail_eq_none hfind) (by simp) ?_
    intro id' u hcall hsome
    obtain rfl := Call.destroy.inj hcall
    rw [hfind] at hsome
    cases hsome
  | some u =>
    by_cases hrole : u.role = some "Admin"
    · refine protected_of_unchanged (destroy_admin hfind hrole) (by simp) ?_
      intros
      rfl
    · have hstep : step users (.destroy id) =
          (users.delete u.id, ⟨200, .message "User berhasil dihapus"⟩) := destroy_other hfind hrole
      have hnot : ∀ v ∈ users.rows, v.isAdmin = true → v.id ≠ u.id := by
        intro v hv hadmin hid
        have heq : v = u :=
          List.inj_on_of_nodup_map users.key hv (mem_rows_of_findOrFail hfind) hid
        rw [heq] at hv hadmin
        exact hrole (hspelled u hv hadmin)
      refine ⟨?_, ?_, ?_, ?_⟩
      · intro v hv hadmin
        rw [hstep]
        exact List.mem_filter.mpr ⟨hv, by simpa using hnot v hv hadmin⟩
      · intro id' v hcall hsome hadmin
        obtain rfl := Call.destroy.inj hcall
        have hv := mem_rows_of_findOrFail hsome
        rw [hfind] at hsome
        obtain rfl := Option.some.inj hsome
        exact absurd rfl (hnot u hv hadmin)
      · intro list hlist
        rw [hstep] at hlist
        cases hlist
      · intro v hv _
        rw [hstep] at hv
        exact (List.mem_filter.mp hv).1

/-! ### Runs -/

theorem protected_of_spelled (hspelled : Spelled users) (hdefault : ¬db.DefaultAdmin)
    (call : Call) : Protected users call := by
  cases call with
  | index => exact protected_index hspelled
  | store request => exact protected_store hdefault request
  | destroy id => exact protected_destroy hspelled id

/-- No call makes an administrator with another spelling. -/
theorem spelled_step (hspelled : Spelled users) (hdefault : ¬db.DefaultAdmin) (call : Call) :
    Spelled (step users call).1 := by
  intro u hu hadmin
  have hbefore := (protected_of_spelled hspelled hdefault call).none_added u hu hadmin
  exact hspelled u hbefore hadmin

theorem spelled_after (hspelled : Spelled users) (hdefault : ¬db.DefaultAdmin)
    (calls : List Call) : Spelled (after users calls) := by
  induction calls generalizing users with
  | nil => exact hspelled
  | cons call calls ih => exact ih (spelled_step hspelled hdefault call)

/-- An administrator with another spelling is deleted. -/
theorem spelled_of_protected (h : ∀ call, Protected users call) : Spelled users := by
  intro u hu hadmin
  by_contra hrole
  have hfind := findOrFail_toString hu
  have hrefused := ((h (.destroy (toString u.id))).refused _ u rfl hfind hadmin).1
  have hstep : step users (.destroy (toString u.id)) =
      (users.delete u.id, ⟨200, .message "User berhasil dihapus"⟩) := destroy_other hfind hrole
  rw [hstep] at hrefused
  have hstatus : 200 = 403 := hrefused
  omega

/-- What the validator accepts can be passed on. -/
theorem attributes_of_accepts {request : Request}
    (h : accepts users.rules request.all storeRules = true) :
    ∃ given, Users.attributes db request = some given := by
  obtain ⟨name, hname⟩ : ∃ t, request.get "name" = .str t :=
    eq_str_of_accepts h [.required, .string, .max 255] (by simp [storeRules]) (by simp)
  obtain ⟨email, hemail⟩ : ∃ t, request.get "email" = .str t :=
    eq_str_of_accepts h [.required, .string, .email, .max 255, .uniqueUsers]
      (by simp [storeRules]) (by simp)
  obtain ⟨password, hpassword⟩ : ∃ t, request.get "password" = .str t :=
    eq_str_of_accepts h [.required, .string, .min 6] (by simp [storeRules]) (by simp)
  have hrole : passes users.rules [.required, .oneOf ["Manager", "Sales"]] (request.get "role")
      (.oneOf ["Manager", "Sales"]) = true :=
    passes_of_accepts h (by simp [storeRules]) (by simp)
  cases htext : (request.get "role").toText db.rules.floatToString with
  | error e =>
    rw [passes, show users.rules.floatToString = db.rules.floatToString from rfl, htext] at hrole
    cases hrole
  | ok role =>
    refine ⟨[("name", name), ("email", email), ("password", db.hash password),
      ("role", ucfirst (strtolower role))], ?_⟩
    simp only [Users.attributes, hname, hemail, hpassword, htext]
    rfl

/-- With a default for the role, every accepted request adds a row with it. -/
theorem exists_row_of_accepts {request : Request} {role : Option String}
    (haccepts : accepts users.rules request.all storeRules = true)
    (hcolumn : db.role = .withDefault role) :
    ∃ u ∈ (users.store request).1.rows, u.role = role ∧ u ∉ users.rows := by
  obtain ⟨given, hgiven⟩ := attributes_of_accepts haccepts
  have hrole : Users.insertedRole db ((Users.fill given).lookup "role") = some role := by
    rw [lookup_role_fill]
    simp [Users.insertedRole, hcolumn]
  obtain ⟨users', hinsert, hinserted⟩ := insert_eq_some hrole
  have hrows : (users.store request).1.rows =
      users.rows ++ [users.newRow (Users.fill given) role] := by
    have hcreate : users.create given = some users' := hinsert
    rw [Users.store, if_pos haccepts, hgiven, Option.bind_some, hcreate, Option.map_some]
    exact hinserted
  refine ⟨users.newRow (Users.fill given) role, by simp [hrows], rfl, ?_⟩
  intro hmem
  exact db.nextId_fresh users.rows _ hmem rfl

/-- With an administrator's role for a default, a request that is accepted adds one. -/
theorem not_defaultAdmin_of_protected {request : Request}
    (haccepts : accepts users.rules request.all storeRules = true)
    (h : Protected users (.store request)) : ¬db.DefaultAdmin := by
  rintro ⟨role, hcolumn, hlower⟩
  obtain ⟨u, hu, hrole, hnew⟩ := exists_row_of_accepts haccepts hcolumn
  exact hnew (h.none_added u hu (isAdmin_eq_true_iff.mpr ⟨role, hrole, hlower⟩))

/-- If all administrators are spelled `Admin` and the default is no administrator's role, every call
of every run protects them; and only then, as far as `store` accepts a request at all. -/
theorem administrators_protected_iff (users : Users db) :
    (Spelled users ∧ ¬db.DefaultAdmin →
      ∀ (calls : List Call) (call : Call), Protected (after users calls) call) ∧
    ((∀ (calls : List Call) (call : Call), Protected (after users calls) call) →
      Spelled users ∧
        ∀ request : Request, accepts users.rules request.all storeRules = true →
          ¬db.DefaultAdmin) := by
  refine ⟨?_, ?_⟩
  · rintro ⟨hspelled, hdefault⟩ calls call
    exact protected_of_spelled (spelled_after hspelled hdefault calls) hdefault call
  · intro h
    refine ⟨spelled_of_protected (h []), ?_⟩
    intro request haccepts
    exact not_defaultAdmin_of_protected haccepts (h [] (.store request))

theorem repr_inj_iff (n m : Nat) : n.repr = m.repr ↔ n = m := by
  refine ⟨?_, congrArg Nat.repr⟩
  intro h
  have hdigits : Nat.toDigits 10 n = Nat.toDigits 10 m := by
    rw [← Nat.toList_repr, ← Nat.toList_repr, h]
  rw [← Nat.ofDigitChars_ten_toDigits (n := n), hdigits, Nat.ofDigitChars_ten_toDigits]

theorem lt_nextId {rows : List User} {u : User} (hu : u ∈ rows) :
    u.id < rows.foldr (fun u n => max (u.id + 1) n) 1 := by
  induction rows with
  | nil => cases hu
  | cons v rows ih =>
    rw [List.foldr_cons]
    rcases List.mem_cons.mp hu with rfl | hmem
    · omega
    · have hlt := ih hmem
      omega

/-- A database that compares texts and ids as they are written; the role may be `NULL`. -/
def plainDatabase : Database where
  rules :=
    { floatToString := fun _ => ""
      validEmail := fun s => s.toList.contains '@'
      emailTaken := fun _ => false
      numberAtLeast := fun _ _ => false
      message := fun field _ => field }
  hash := fun s => "$2y$12$" ++ s
  role := .withDefault none
  equalsAdmin := fun role => role = "Admin"
  equalsAdmin_admin := rfl
  emailIs := fun v email => v = .str email
  idIs := fun id n => id = toString n
  idIs_toString := by
    intro n m
    rw [decide_eq_decide]
    exact repr_inj_iff n m
  nextId := fun rows => rows.foldr (fun u n => max (u.id + 1) n) 1
  nextId_fresh := by
    intro rows u hu
    exact Nat.ne_of_lt (lt_nextId hu)

/-- A table with one user. -/
def singleUser (role : Option String) : Users plainDatabase where
  rows := [{ id := 1, name := "Budi", email := "budi@example.com", role := role, password := "" }]
  key := by simp
  roleless := by
    intro h
    cases h

/-- An `admin` is listed, and deleted. -/
theorem lower_case_admin_deleted :
    (∃ u ∈ (singleUser (some "admin")).rows, u.isAdmin = true) ∧
      (singleUser (some "admin")).index.body =
        .accounts [⟨1, "Budi", "budi@example.com", some "admin"⟩] ∧
      ((singleUser (some "admin")).destroy "1").2 = ⟨200, .message "User berhasil dihapus"⟩ ∧
      ((singleUser (some "admin")).destroy "1").1.rows = [] := by
  decide

/-- An `Admin` is refused twice. -/
theorem administrators_protected_single :
    Protected (after (singleUser (some "Admin")) [.destroy "1"]) (.destroy "1") := by
  have hspelled : Spelled (singleUser (some "Admin")) := by
    intro u hu _
    rw [List.mem_singleton.mp hu]
  have hdefault : ¬plainDatabase.DefaultAdmin := by
    rintro ⟨role, hcolumn, -⟩
    cases hcolumn
  exact (administrators_protected_iff _).1 ⟨hspelled, hdefault⟩ [.destroy "1"] (.destroy "1")

end Artha.UserController
