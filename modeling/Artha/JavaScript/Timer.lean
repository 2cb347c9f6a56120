import Mathlib.Tactic.Basic
import Mathlib.Tactic.SplitIfs

/-!
# A timer that is started again

A script keeps the id that `setTimeout` returned in a variable, clears the timer of that id before
it starts another one, and never resets the variable: the id may be that of a timer that has fired.
What it keeps is a deadline (`Deadline`), which is there or not: at most one timer is pending
(`Timer.Keeps`).

The timers of the browser are idealised: `setTimeout` returns an id that was not used before, a
timer fires when its delay has passed and at no other time, and `clearTimeout` of an id that is not
pending does nothing.
-/

namespace Artha.JavaScript

/-- The variable and the timers of the browser. -/
structure Timer where
  /-- The variable. -/
  held : Option Nat
  /-- The pending timers: the id and the time at which it fires. -/
  pending : List (Nat × Int)
  /-- What `setTimeout` returns next. -/
  nextId : Nat

/-- The number of the timer that is pending and the time at which it fires, if there is one. -/
structure Deadline where
  timer : Option (Nat × Int)
  /-- How many timers have been started. -/
  started : Nat

namespace Timer

def initial : Timer where
  held := none
  pending := []
  nextId := 1

/-- `clearTimeout(id)`. -/
def clearTimeout (t : Timer) (id : Nat) : Timer :=
  { t with pending := t.pending.filter (·.1 ≠ id) }

/-- `clearTimeout` of the variable; an id is never zero. -/
def clear (t : Timer) : Timer :=
  match t.held with
  | some id => if id ≠ 0 then t.clearTimeout id else t
  | none => t

/-- The variable is set to `setTimeout(..., delay)`. -/
def set (t : Timer) (due : Int) : Timer where
  held := some t.nextId
  pending := (t.nextId, due) :: t.pending
  nextId := t.nextId + 1

def restart (t : Timer) (due : Int) : Timer := t.clear.set due

end Timer

namespace Deadline

def initial : Deadline where
  timer := none
  started := 0

def restart (d : Deadline) (due : Int) : Deadline where
  timer := some (d.started + 1, due)
  started := d.started + 1

def stop (d : Deadline) : Deadline := { d with timer := none }

end Deadline

/-- The timers keep the deadline. -/
structure Timer.Keeps (t : Timer) (d : Deadline) : Prop where
  pending : t.pending = d.timer.toList
  nextId : t.nextId = d.started + 1
  /-- The variable holds the pending timer. -/
  held : ∀ timer ∈ d.timer, t.held = some timer.1 ∧ timer.1 ≠ 0

namespace Timer.Keeps

variable {t : Timer} {d : Deadline}

theorem initial : Timer.initial.Keeps Deadline.initial := ⟨rfl, rfl, by simp [Deadline.initial]⟩

/-- No timer is left: the variable holds the one that was pending, or an id that means nothing. -/
theorem clear_eq (h : t.Keeps d) : t.clear = { t with pending := [] } := by
  have hpending := h.pending
  rw [Timer.clear]
  cases htimer : d.timer with
  | none =>
    rw [htimer, Option.toList_none] at hpending
    obtain ⟨held, pending, nextId⟩ := t
    obtain rfl : pending = [] := hpending
    cases held with
    | none => rfl
    | some id =>
      dsimp only
      split_ifs <;> rfl
  | some timer =>
    obtain ⟨hid, hne⟩ := h.held timer htimer
    rw [htimer, Option.toList_some] at hpending
    rw [hid]
    dsimp only
    rw [if_pos hne, clearTimeout, hpending]
    simp [hid]

theorem clear (h : t.Keeps d) : t.clear.Keeps d.stop := by
  rw [h.clear_eq]
  exact ⟨rfl, h.nextId, by simp [Deadline.stop]⟩

theorem restart (h : t.Keeps d) (due : Int) : (t.restart due).Keeps (d.restart due) := by
  rw [Timer.restart, h.clear_eq]
  refine ⟨?_, congrArg (· + 1) h.nextId, ?_⟩
  · rw [Deadline.restart, Timer.set, h.nextId]
    rfl
  · intro timer htimer
    obtain rfl := Option.some.inj htimer
    exact ⟨congrArg some h.nextId, Nat.succ_ne_zero _⟩

/-- A timer is pending exactly if it is the one of the deadline. -/
theorem mem_pending_iff (h : t.Keeps d) (timer : Nat × Int) :
    timer ∈ t.pending ↔ d.timer = some timer := by
  rw [h.pending, Option.mem_toList]

/-- The timer of the deadline fires. -/
theorem fire (h : t.Keeps d) {id : Nat} {due : Int} (hdue : d.timer = some (id, due)) :
    (t.clearTimeout id).Keeps d.stop := by
  refine ⟨?_, h.nextId, by simp [Deadline.stop]⟩
  rw [Timer.clearTimeout, h.pending, hdue]
  simp [Deadline.stop]

end Timer.Keeps

end Artha.JavaScript
