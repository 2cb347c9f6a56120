import Mathlib.Logic.Function.Basic
import Mathlib.Tactic.Basic

/-!
# `rateLimiter` of `utils/security.js`

The limiter is a map from keys to records of a counter and the time its window began.  `checkLimit`
and `increment` take the stored record by reference, so their assignments are lasting; a record that
was not there is made up, and only `increment` stores it.  Times are the milliseconds of
`Date.now()`.
-/

namespace Artha.Client.RateLimiter

/-- `{ count, timestamp }`. -/
structure Attempts where
  count : Nat
  timestamp : Int
deriving DecidableEq, Repr

/-- The map `attempts`. -/
abbrev Limiter (κ : Type) : Type := κ → Option Attempts

/-- `new Map()`. -/
def Limiter.empty {κ : Type} : Limiter κ := fun _ => none

def maxAttempts : Nat := 5

/-- Five minutes. -/
def timeWindow : Int := 5 * 60 * 1000

/-- `now - userAttempts.timestamp > timeWindow`. -/
def Attempts.expired (a : Attempts) (now : Int) : Bool := now - a.timestamp > timeWindow

variable {κ : Type} [DecidableEq κ]

/-- `attempts.get(key) || { count: 0, timestamp: now }`. -/
def fetch (l : Limiter κ) (key : κ) (now : Int) : Attempts := (l key).getD ⟨0, now⟩

/-- The record after the first statements of `checkLimit`. -/
def Attempts.checked (a : Attempts) (now : Int) : Attempts :=
  if a.expired now then ⟨0, now⟩ else a

/-- The record `increment` stores. -/
def Attempts.incremented (a : Attempts) (now : Int) : Attempts :=
  if a.expired now then ⟨1, now⟩ else ⟨a.count + 1, a.timestamp⟩

/-- `checkLimit(key)`: what it returns, and the map it leaves. -/
def checkLimit (l : Limiter κ) (key : κ) (now : Int) : Bool × Limiter κ :=
  let userAttempts := (fetch l key now).checked now
  (userAttempts.count < maxAttempts,
    match l key with
    -- the assignments go to the stored record
    | some _ => Function.update l key (some userAttempts)
    -- or to one that is dropped
    | none => l)

/-- `increment(key)`. -/
def increment (l : Limiter κ) (key : κ) (now : Int) : Nat × Limiter κ :=
  let userAttempts := (fetch l key now).incremented now
  (userAttempts.count, Function.update l key (some userAttempts))

/-- `reset(key)`. -/
def reset (l : Limiter κ) (key : κ) : Limiter κ := Function.update l key none

/-! ### Calls -/

inductive Operation where
  | checkLimit
  | increment
  | reset
deriving DecidableEq, Repr

/-- A call of one of the three, with what the clock says. -/
structure Call (κ : Type) where
  operation : Operation
  key : κ
  now : Int
deriving DecidableEq, Repr

/-- What a call returns. -/
inductive Returned where
  | allowed (b : Bool)
  | count (n : Nat)
  | undefined
deriving DecidableEq, Repr

def returned (l : Limiter κ) (c : Call κ) : Returned :=
  match c.operation with
  | .checkLimit => .allowed (checkLimit l c.key c.now).1
  | .increment => .count (increment l c.key c.now).1
  | .reset => .undefined

def step (l : Limiter κ) (c : Call κ) : Limiter κ :=
  match c.operation with
  | .checkLimit => (checkLimit l c.key c.now).2
  | .increment => (increment l c.key c.now).2
  | .reset => reset l c.key

/-- The map after a sequence of calls. -/
def after (run : List (Call κ)) : Limiter κ := run.foldl step .empty

/-- What the calls of a sequence return, one after the other. -/
def outputs (l : Limiter κ) : List (Call κ) → List Returned
  | [] => []
  | c :: run => returned l c :: outputs (step l c) run

/-! ### One key -/

/-- What a call on its key makes of the record. -/
def nextRecord (r : Option Attempts) (c : Call κ) : Option Attempts :=
  match c.operation with
  | .checkLimit => r.map (·.checked c.now)
  | .increment => some ((r.getD ⟨0, c.now⟩).incremented c.now)
  | .reset => none

/-- A call on a key concerns the record of that key and no other. -/
theorem step_apply (l : Limiter κ) (c : Call κ) (k : κ) :
    step l c k = if k = c.key then nextRecord (l k) c else l k := by
  obtain ⟨operation, key, now⟩ := c
  by_cases hk : k = key
  · subst hk
    rw [if_pos rfl]
    cases operation with
    | checkLimit =>
      cases hr : l k with
      | none => simp [step, checkLimit, nextRecord, hr]
      | some a => simp [step, checkLimit, nextRecord, fetch, hr]
    | increment => simp [step, increment, nextRecord, fetch]
    | reset => simp [step, reset, nextRecord]
  · rw [if_neg hk]
    cases operation with
    | checkLimit => cases hr : l key <;> simp [step, checkLimit, hr, hk]
    | increment => simp [step, increment, hk]
    | reset => simp [step, reset, hk]

theorem step_of_ne (l : Limiter κ) {c : Call κ} {k : κ} (h : c.key ≠ k) : step l c k = l k := by
  rw [step_apply, if_neg (Ne.symm h)]

theorem step_self (l : Limiter κ) {c : Call κ} {k : κ} (h : c.key = k) :
    step l c k = nextRecord (l k) c := by
  rw [step_apply, if_pos h.symm]

/-- What a call returns depends on the record of its key alone. -/
theorem returned_congr {l l' : Limiter κ} {c : Call κ} (h : l c.key = l' c.key) :
    returned l c = returned l' c := by
  obtain ⟨operation, key, now⟩ := c
  cases operation with
  | checkLimit | increment =>
    have hfetch : fetch l key now = fetch l' key now := congrArg (·.getD ⟨0, now⟩) h
    simp only [returned, checkLimit, increment, hfetch]
  | reset => rfl

theorem foldl_step_of_ne {run : List (Call κ)} {k : κ} (h : ∀ c ∈ run, c.key ≠ k)
    (l : Limiter κ) : run.foldl step l k = l k := by
  induction run generalizing l with
  | nil => rfl
  | cons c run ih =>
    rw [List.foldl_cons, ih fun d hd => h d (List.mem_cons_of_mem _ hd)]
    exact step_of_ne l (h c (List.mem_cons_self ..))

end Artha.Client.RateLimiter
