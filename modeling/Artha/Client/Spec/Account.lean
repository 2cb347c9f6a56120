import Artha.JavaScript.RoundTrip
import Artha.JavaScript.Timer
import Artha.Client.Session
import Artha.Effect.Run

/-!
# The session that the idle timer keeps

`utils/session.js` stores the user as a text and keeps the id of a timer that may have fired or been
cleared long ago.  What it is for is simpler: a session is the data of a user and at most one time
at which it ends.  `Account` is that session, and the page refines it (`page_refines_account`): what
`getUser` reads back is the data stored last, whatever the data is.
-/

namespace Artha.Client.Session

open JavaScript

/-! ### The session -/

/-- What a page does to the session. -/
inductive Use where
  | initializeSession (userData : Json)
  | refreshSession
  | clearSession
  /-- The time of a timer has come. -/
  | fire (id : Nat)
  /-- Another page logs in, with the data it stores, or logs out. -/
  | change (userData : Option Json) (token authorization : Option JsString)

/-- The data of the user, and when the session ends. -/
structure Account where
  user : Json
  deadline : Deadline
  logouts : List Int

namespace Account

def opened : Account where
  user := .null
  deadline := .initial
  logouts := []

/-- The session ends in thirty minutes. -/
def start (a : Account) (now : Int) : Account :=
  { a with deadline := a.deadline.restart (now + sessionTimeout) }

/-- One use, at a time. -/
def step (a : Account) (use : Use) (now : Int) : Account :=
  match use with
  | .initializeSession userData => start { a with user := userData } now
  | .refreshSession => if a.user.truthy then a.start now else a
  | .clearSession => { a with user := .null, deadline := a.deadline.stop }
  | .fire id =>
    if a.deadline.timer = some (id, now) then
      { user := .null, deadline := a.deadline.stop, logouts := a.logouts ++ [now] }
    else a
  | .change userData _ _ => { a with user := userData.getD .null }

def after (run : List (Use × Int)) : Account :=
  run.foldl (fun a use => a.step use.1 use.2) opened

end Account

/-! ### The page -/

section

variable (texts : NumberTexts)

/-- What happens on the page: the data becomes a text. -/
def Use.event : Use → Event
  | .initializeSession userData => .initializeSession (some (Json.text texts userData))
  | .refreshSession => .refreshSession
  | .clearSession => .clearSession
  | .fire id => .fire id
  | .change userData token authorization =>
    .change (userData.map (Json.text texts)) token authorization

def Use.call (use : Use × Int) : Call := ⟨use.1.event texts, use.2⟩

/-- The data that is stored can be. -/
def Use.Storable : Use → Prop
  | .initializeSession userData => Json.Storable texts userData
  | .change userData _ _ => ∀ v ∈ userData, Json.Storable texts v
  | _ => True

end

namespace Page

variable {texts : NumberTexts}

theorem hasUser_eq_truthy (parse : JsString → Option Json) (p : Page) :
    p.hasUser parse = (p.getUser parse).truthy := by
  rw [hasUser, getUser]
  cases p.user with
  | none => rfl
  | some user =>
    dsimp only
    split_ifs with hne
    · rw [decide_eq_true hne, Bool.true_and]
      cases parse user with
      | none => rfl
      | some v => rfl
    · rw [decide_eq_false hne]
      rfl

/-- What was stored is read back. -/
theorem getUser_text {p : Page} {v : Json} (hv : Json.Storable texts v)
    (huser : p.user = some (Json.text texts v)) : p.getUser Json.parse = v := by
  have hne : Json.text texts v ≠ [] := by
    obtain ⟨c, s, hs, -⟩ := hv.head_text
    simp [hs]
  rw [getUser, huser]
  dsimp only
  rw [if_pos hne, hv.parse_text, Option.getD_some]

/-- The variable and the timers of a page. -/
def timer (p : Page) : Timer where
  held := p.sessionTimer
  pending := p.pending
  nextId := p.nextId

theorem timer_clearSessionTimer (p : Page) : p.clearSessionTimer.timer = p.timer.clear := by
  have hheld : p.timer.held = p.sessionTimer := rfl
  rw [clearSessionTimer, Timer.clear, hheld]
  cases p.sessionTimer with
  | none => rfl
  | some id =>
    dsimp only
    split_ifs <;> rfl

theorem timer_startSessionTimer (p : Page) (now : Int) :
    (p.startSessionTimer now).timer = p.timer.restart (now + sessionTimeout) := by
  rw [Timer.restart, ← timer_clearSessionTimer]
  rfl

/-- Clearing the timer leaves the rest of the page. -/
theorem clearSessionTimer_storage (p : Page) :
    p.clearSessionTimer.user = p.user ∧ p.clearSessionTimer.logouts = p.logouts := by
  rw [clearSessionTimer]
  cases p.sessionTimer with
  | none => exact ⟨rfl, rfl⟩
  | some id =>
    dsimp only
    split_ifs <;> exact ⟨rfl, rfl⟩

/-- What `getUser` returns depends on the entry only. -/
theorem getUser_congr {p p' : Page} (h : p'.user = p.user) (parse : JsString → Option Json) :
    p'.getUser parse = p.getUser parse := by
  rw [getUser, getUser, h]

/-- The page keeps the session. -/
structure Refines (p : Page) (a : Account) : Prop where
  user : p.getUser Json.parse = a.user
  timer : p.timer.Keeps a.deadline
  logouts : p.logouts = a.logouts

namespace Refines

variable {p : Page} {a : Account}

theorem opened : Refines Page.opened Account.opened := ⟨rfl, .initial, rfl⟩

theorem startSessionTimer (h : Refines p a) (now : Int) :
    Refines (p.startSessionTimer now) (a.start now) := by
  obtain ⟨huser, hlogouts⟩ := clearSessionTimer_storage p
  refine ⟨?_, ?_, hlogouts.trans h.logouts⟩
  · have hsame : (p.startSessionTimer now).user = p.user := huser
    rw [getUser_congr hsame]
    exact h.user
  · rw [timer_startSessionTimer]
    exact h.timer.restart _

/-- The entries of the storage are changed. -/
theorem change (h : Refines p a) {user : Option JsString} {v : Json}
    (huser : ∀ token authorization,
      { p with user := user, token := token, authorization := authorization }.getUser Json.parse =
        v)
    (token authorization : Option JsString) :
    Refines { p with user := user, token := token, authorization := authorization }
      { a with user := v } :=
  ⟨huser token authorization, h.timer, h.logouts⟩

theorem clearSession (h : Refines p a) :
    Refines { p.clearSessionTimer with user := none }
      { a with user := .null, deadline := a.deadline.stop } := by
  refine ⟨rfl, ?_, (clearSessionTimer_storage p).2.trans h.logouts⟩
  have hclear := h.timer.clear
  rw [← timer_clearSessionTimer] at hclear
  exact hclear

theorem fire (h : Refines p a) (id : Nat) (now : Int) :
    Refines (p.fire id now) (a.step (.fire id) now) := by
  have hdue := h.timer.mem_pending_iff (id, now)
  rw [Page.fire, Account.step]
  by_cases hpending : (id, now) ∈ p.pending
  · have htimer := hdue.mp hpending
    rw [if_pos hpending, if_pos htimer]
    exact ⟨rfl, h.timer.fire htimer, congrArg (· ++ [now]) h.logouts⟩
  · rw [if_neg hpending, if_neg fun htimer => hpending (hdue.mpr htimer)]
    exact h

/-- One use of the session. -/
theorem step (h : Refines p a) {use : Use} (huse : use.Storable texts) (now : Int) :
    Refines (p.step Json.parse ⟨use.event texts, now⟩) (a.step use now) := by
  cases use with
  | initializeSession userData =>
    have hstored : Refines { p with user := some (Json.text texts userData) }
        { a with user := userData } :=
      h.change (fun _ _ => getUser_text huse rfl) p.token p.authorization
    exact hstored.startSessionTimer now
  | refreshSession =>
    rw [Use.event, Page.step, Account.step]
    dsimp only
    rw [hasUser_eq_truthy, h.user]
    split_ifs
    · exact h.startSessionTimer now
    · exact h
  | clearSession => exact h.clearSession
  | fire id => exact h.fire id now
  | change userData token authorization =>
    rw [Use.event, Page.step, Account.step]
    refine h.change ?_ token authorization
    intro token authorization
    cases userData with
    | none => rfl
    | some v => exact getUser_text (huse v rfl) rfl

end Refines

theorem refines_after {run : List (Use × Int)} (hrun : ∀ use ∈ run, use.1.Storable texts) :
    Refines (after Json.parse (run.map (Use.call texts))) (Account.after run) := by
  rw [after, List.foldl_map]
  exact Run.simulation (fun _ _ use h hstorable => h.step hstorable use.2) .opened
    (Run.along_of_forall hrun)

end Page

end Artha.Client.Session
