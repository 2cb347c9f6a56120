import Artha.Client.Storage
import Artha.Effect.Run

/-!
# User and token in the browser

The entries `user` and `token` should be there together or not at all.  Of the operations that end a
session only `logout` removes both: `clearSession` removes the user, and `logoutCustomer`, the
interceptor and the dashboards remove the token.  So a run keeps the two together exactly when these
are only met while nothing is stored (`coherent_along_iff`).
-/

namespace Artha.Client

open Browser

/-- A user is stored exactly if a token is. -/
def Coherent (b : Browser) : Prop := b.user.isSome = b.token.isSome

/-- Neither is stored. -/
def NothingStored (b : Browser) : Prop := b.user = none ∧ b.token = none

namespace Event

/-- The operations that end a session. -/
def endsSession : Event → Bool
  | .clearSession | .logout | .logoutCustomer | .interceptor | .sessionExpired => true
  | _ => false

/-- The operations that remove one of the two entries. -/
def removesOne : Event → Bool
  | .clearSession | .logoutCustomer | .interceptor | .sessionExpired => true
  | _ => false

end Event

/-- After an event the browser is coherent, and empty if the event ends the session. -/
def Settles (b : Browser) (event : Event) : Prop :=
  Coherent (b.step event) ∧ (event.endsSession = true → NothingStored (b.step event))

theorem storage_refreshSession (b : Browser) :
    b.refreshSession.user = b.user ∧ b.refreshSession.token = b.token := by
  unfold refreshSession
  split <;> exact ⟨rfl, rfl⟩

/-- Starting a page does not touch the storage. -/
theorem storage_startUp (b : Browser) (expired : Bool) :
    (b.startUp expired).user = b.user ∧ (b.startUp expired).token = b.token := by
  unfold startUp
  split
  · next token htoken =>
    have htoken' : b.token = some token := htoken
    split
    · next hset =>
      -- the token that is written is the one that was read
      obtain ⟨huser, htok⟩ := storage_refreshSession (b.leave.setAuthToken (some token))
      have hne : token ≠ "" := by
        simp only [Bool.and_eq_true, decide_eq_true_eq] at hset
        exact hset.1
      rw [huser, htok, setAuthToken, if_pos hne, htoken']
      exact ⟨rfl, rfl⟩
    · exact ⟨rfl, rfl⟩
  · exact ⟨rfl, rfl⟩

/-- One step from a coherent browser: it settles unless one of two entries is removed. -/
theorem settles_iff {b : Browser} (h : Coherent b) (event : Event) :
    Settles b event ↔ (event.removesOne = true → NothingStored b) := by
  -- of two entries that are there together, removing one leaves the other
  have huser : b.user = none ↔ b.token = none := by
    rw [← Option.isNone_iff_eq_none, ← Option.isNone_iff_eq_none, ← Option.not_isSome,
      ← Option.not_isSome, h]
  cases event with
  | handleRedirect user token => exact iff_of_true ⟨rfl, nofun⟩ nofun
  | startUp expired =>
    obtain ⟨hu, ht⟩ := storage_startUp b expired
    refine iff_of_true ⟨?_, nofun⟩ nofun
    show (b.startUp expired).user.isSome = (b.startUp expired).token.isSome
    rw [hu, ht]
    exact h
  | refreshSession =>
    obtain ⟨hu, ht⟩ := storage_refreshSession b
    refine iff_of_true ⟨?_, nofun⟩ nofun
    show b.refreshSession.user.isSome = b.refreshSession.token.isSome
    rw [hu, ht]
    exact h
  | logout => exact iff_of_true ⟨rfl, fun _ => ⟨rfl, rfl⟩⟩ nofun
  | clearSession =>
    constructor
    · rintro ⟨-, hempty⟩ -
      have htoken : b.token = none := (hempty rfl).2
      exact ⟨huser.mpr htoken, htoken⟩
    · intro hremove
      obtain ⟨-, htoken⟩ := hremove rfl
      have hafter : NothingStored (b.step .clearSession) := ⟨rfl, htoken⟩
      exact ⟨by rw [Coherent, hafter.1, hafter.2], fun _ => hafter⟩
  | logoutCustomer | interceptor | sessionExpired =>
    constructor
    · rintro ⟨-, hempty⟩ -
      have hnone : b.user = none := (hempty rfl).1
      exact ⟨hnone, huser.mp hnone⟩
    · intro hremove
      obtain ⟨hnone, -⟩ := hremove rfl
      refine ⟨?_, fun _ => ⟨hnone, rfl⟩⟩
      show b.user.isSome = none.isSome
      rw [hnone]

/-- Over any run of logins, page starts and the other operations from an empty storage: user and
token are there together in every state, and gone after every operation that ends the session,
exactly when the operations that remove one of them are only met while neither is stored. -/
theorem coherent_along_iff (run : List Event) :
    Run.Along step Settles start run ↔
      Run.Along step (fun b event => event.removesOne = true → NothingStored b) start run :=
  Run.along_iff (fun _ event h => settles_iff h event) (fun _ _ _ h => h.1) rfl

/-- A customer logs in and out again: the user is still stored. -/
theorem logoutCustomer_leaves_user :
    ¬ ∀ run : List Event, Run.Along step Settles start run := by
  intro h
  obtain ⟨-, ⟨-, hempty⟩, -⟩ := h [.handleRedirect "\x7b\"role\":\"customer\"\x7d" "one",
    .logoutCustomer]
  exact absurd (hempty rfl).1 (by decide)

end Artha.Client
