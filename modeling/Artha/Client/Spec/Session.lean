import Mathlib.Data.List.Induction
import Mathlib.Tactic.SplitIfs
import Artha.Client.Session
import Artha.Effect.Run

/-!
# When the idle timer logs out

The invariant `Armed` ties the pending timer to the history: there is at most one, `sessionTimer` is
its id, and it was started by the last call that starts the timer, with no `clearSession` since.
-/

namespace Artha.Client.Session

open JavaScript

namespace Page

variable (parse : JsString → Option Json)

/-- `due` is thirty minutes after the last call that started the timer, and `clearSession` was not
called since. -/
def LastStart (run : List Call) (due : Int) : Prop :=
  ∃ before c rest, run = before ++ c :: rest ∧ starts parse (after parse before) c = true ∧
    due = c.now + sessionTimeout ∧
    Run.Along (step parse) (fun p d => starts parse p d = false ∧ d.event ≠ .clearSession)
      (after parse (before ++ [c])) rest

/-- What is pending after a run. -/
structure Armed (run : List Call) (p : Page) : Prop where
  nextId_ne_zero : p.nextId ≠ 0
  sessionTimer_ne_zero : p.sessionTimer ≠ some 0
  pending : p.pending = [] ∨
    ∃ id due, p.pending = [(id, due)] ∧ p.sessionTimer = some id ∧ LastStart parse run due

theorem after_snoc (run : List Call) (c : Call) :
    after parse (run ++ [c]) = step parse (after parse run) c := by
  rw [after, List.foldl_append]
  rfl

theorem lastStart_of_starts {run : List Call} {c : Call}
    (h : starts parse (after parse run) c = true) :
    LastStart parse (run ++ [c]) (c.now + sessionTimeout) :=
  ⟨run, c, [], rfl, h, rfl, trivial⟩

theorem LastStart.snoc {run : List Call} {due : Int} (h : LastStart parse run due) {c : Call}
    (hstart : starts parse (after parse run) c = false) (hclear : c.event ≠ .clearSession) :
    LastStart parse (run ++ [c]) due := by
  obtain ⟨before, d, rest, rfl, hd, hdue, hrest⟩ := h
  refine ⟨before, d, rest ++ [c], by simp, hd, hdue, ?_⟩
  have hafter : rest.foldl (step parse) (after parse (before ++ [d])) =
      after parse (before ++ d :: rest) := by
    rw [after, after, ← List.foldl_append, List.append_assoc]
    rfl
  rw [Run.along_append, hafter]
  exact ⟨hrest, ⟨hstart, hclear⟩, trivial⟩

variable {parse}

/-- Clearing the timer of the variable leaves none. -/
theorem Armed.pending_clearSessionTimer {run : List Call} {p : Page} (h : Armed parse run p) :
    p.clearSessionTimer.pending = [] := by
  rcases h.pending with hnone | ⟨id, due, hpending, htimer, -⟩
  · rw [clearSessionTimer]
    split
    · split_ifs
      · simp [clearTimeout, hnone]
      · exact hnone
    · exact hnone
  · have hid : id ≠ 0 := by
      rintro rfl
      exact h.sessionTimer_ne_zero htimer
    simp [clearSessionTimer, htimer, hid, clearTimeout, hpending]

/-- Nothing else is changed. -/
theorem clearSessionTimer_eq (p : Page) :
    ∃ pending, p.clearSessionTimer = { p with pending := pending } := by
  rw [clearSessionTimer]
  split
  · split_ifs
    · exact ⟨_, rfl⟩
    · exact ⟨_, rfl⟩
  · exact ⟨_, rfl⟩

/-- What is pending does not depend on the storage. -/
theorem Armed.withStorage {run : List Call} {p : Page} (h : Armed parse run p)
    (user token authorization : Option JsString) :
    Armed parse run { p with user := user, token := token, authorization := authorization } :=
  ⟨h.nextId_ne_zero, h.sessionTimer_ne_zero, h.pending⟩

theorem Armed.startSessionTimer {run : List Call} {p : Page} (h : Armed parse run p) {c : Call}
    (hstart : starts parse (after parse run) c = true) :
    Armed parse (run ++ [c]) (p.startSessionTimer c.now) where
  nextId_ne_zero := Nat.succ_ne_zero _
  sessionTimer_ne_zero := by
    intro hzero
    obtain ⟨pending, hpending⟩ := clearSessionTimer_eq p
    have hid : p.clearSessionTimer.nextId = 0 := Option.some.inj hzero
    rw [hpending] at hid
    exact h.nextId_ne_zero hid
  pending := by
    refine Or.inr ⟨p.clearSessionTimer.nextId, c.now + sessionTimeout, ?_, rfl,
      lastStart_of_starts parse hstart⟩
    rw [Page.startSessionTimer, setSessionTimer, h.pending_clearSessionTimer]

theorem Armed.clearSessionTimer {run run' : List Call} {p : Page} (h : Armed parse run p) :
    Armed parse run' p.clearSessionTimer := by
  have hempty := h.pending_clearSessionTimer
  obtain ⟨pending, hpending⟩ := clearSessionTimer_eq p
  rw [hpending] at hempty ⊢
  exact ⟨h.nextId_ne_zero, h.sessionTimer_ne_zero, Or.inl hempty⟩

/-- An event that neither starts the timer nor clears it. -/
theorem Armed.snoc {run : List Call} {p : Page} (h : Armed parse run p) {c : Call}
    (hstart : starts parse (after parse run) c = false) (hclear : c.event ≠ .clearSession) :
    Armed parse (run ++ [c]) p where
  nextId_ne_zero := h.nextId_ne_zero
  sessionTimer_ne_zero := h.sessionTimer_ne_zero
  pending := by
    rcases h.pending with hnone | ⟨id, due, hpending, htimer, hlast⟩
    · exact Or.inl hnone
    · exact Or.inr ⟨id, due, hpending, htimer, hlast.snoc parse hstart hclear⟩

/-- The only pending timer is the one that fires. -/
theorem Armed.of_due {run : List Call} {p : Page} (h : Armed parse run p) {id : Nat} {now : Int}
    (hdue : (id, now) ∈ p.pending) : p.pending = [(id, now)] ∧ LastStart parse run now := by
  rcases h.pending with hnone | ⟨id', due, hpending, -, hlast⟩
  · rw [hnone] at hdue
    cases hdue
  · rw [hpending, List.mem_singleton] at hdue
    obtain ⟨rfl, rfl⟩ := Prod.mk.inj hdue
    exact ⟨hpending, hlast⟩

theorem Armed.fire {run run' : List Call} {p : Page} (h : Armed parse run p) {id : Nat} {now : Int}
    (hdue : (id, now) ∈ p.pending) : Armed parse run' ((p.clearTimeout id).logout now) := by
  refine ⟨h.nextId_ne_zero, h.sessionTimer_ne_zero, Or.inl ?_⟩
  simp [clearTimeout, logout, (h.of_due hdue).1]

theorem armed_after (run : List Call) : Armed parse run (after parse run) := by
  induction run using List.reverseRecOn with
  | nil => exact ⟨Nat.one_ne_zero, by simp [after, opened], Or.inl rfl⟩
  | append_singleton run c ih =>
    rw [after_snoc]
    obtain ⟨event, now⟩ := c
    cases event with
    | initializeSession userData =>
      cases userData with
      | none => exact ih.snoc rfl Event.noConfusion
      | some userData => exact (ih.withStorage _ _ _).startSessionTimer rfl
    | refreshSession =>
      rw [step]
      dsimp only
      cases huser : (after parse run).hasUser parse with
      | true =>
        rw [if_pos rfl]
        exact ih.startSessionTimer huser
      | false =>
        rw [if_neg Bool.false_ne_true]
        exact ih.snoc huser Event.noConfusion
    | clearSession => exact ih.clearSessionTimer.withStorage _ _ _
    | fire id =>
      rw [step]
      dsimp only
      rw [Page.fire]
      split_ifs with hdue
      · exact ih.fire hdue
      · exact ih.snoc rfl Event.noConfusion
    | change user token authorization =>
      exact (ih.withStorage user token authorization).snoc rfl Event.noConfusion

theorem startSessionTimer_logouts (p : Page) (now : Int) :
    (p.startSessionTimer now).logouts = p.logouts := by
  obtain ⟨pending, hpending⟩ := clearSessionTimer_eq p
  rw [Page.startSessionTimer, hpending]
  rfl

/-- Only a timer that is due logs out. -/
theorem step_logouts {p : Page} {c : Call} (h : (step parse p c).logouts ≠ p.logouts) :
    ∃ id, (id, c.now) ∈ p.pending ∧ step parse p c = (p.clearTimeout id).logout c.now := by
  obtain ⟨event, now⟩ := c
  cases event with
  | initializeSession userData =>
    cases userData with
    | none => exact absurd rfl h
    | some userData => exact absurd (startSessionTimer_logouts _ now) h
  | refreshSession =>
    rw [step] at h
    dsimp only at h
    split_ifs at h
    · exact absurd (startSessionTimer_logouts p now) h
    · exact absurd rfl h
  | clearSession =>
    obtain ⟨pending, hpending⟩ := clearSessionTimer_eq p
    rw [step] at h
    dsimp only at h
    rw [hpending] at h
    exact absurd rfl h
  | fire id =>
    rw [step] at h ⊢
    dsimp only at h ⊢
    rw [Page.fire] at h ⊢
    split_ifs at h ⊢ with hdue
    · exact ⟨id, hdue, rfl⟩
    · exact absurd rfl h
  | change user token authorization => exact absurd rfl h

variable (parse) in
/-- At most one logout timer is pending after any sequence of events, and a logout at `T` comes
thirty minutes after the last call that started the timer, with no `clearSession` in between. -/
theorem idle_logout_timing (run : List Call) (c : Call) :
    (after parse run).pending.length ≤ 1 ∧
    ((after parse (run ++ [c])).logouts ≠ (after parse run).logouts →
      (after parse (run ++ [c])).logouts = (after parse run).logouts ++ [c.now] ∧
      LastStart parse run c.now) := by
  have harmed : Armed parse run (after parse run) := armed_after run
  constructor
  · rcases harmed.pending with hnone | ⟨id, due, hpending, -, -⟩
    · rw [hnone]
      exact Nat.zero_le 1
    · rw [hpending]
      exact Nat.le_refl 1
  · intro hlogouts
    rw [after_snoc] at hlogouts ⊢
    obtain ⟨id, hdue, hstep⟩ := step_logouts hlogouts
    rw [hstep]
    exact ⟨rfl, (harmed.of_due hdue).2⟩

theorem idle_logout_timing_initialized :
    let parse : JsString → Option Json := fun _ => none
    let run : List Call := [⟨.initializeSession (some [123, 125]), 5⟩]
    (after parse (run ++ [⟨.fire 1, 1800005⟩])).logouts = [1800005] ∧
      LastStart parse run 1800005 := by
  intro parse run
  have hlogouts : (after parse (run ++ [⟨.fire 1, 1800005⟩])).logouts = [1800005] := by decide
  refine ⟨hlogouts, ((idle_logout_timing parse run ⟨.fire 1, 1800005⟩).2 ?_).2⟩
  rw [hlogouts]
  decide

end Page

end Artha.Client.Session
