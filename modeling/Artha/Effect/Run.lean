import Mathlib.Tactic.Basic

/-!
# Runs of a state machine

A machine is its step function `step : σ → α → σ`; the state a run ends in is `List.foldl step`.
`Along step C s run` says that every step of the run, taken in the state it is taken in, meets `C`.
Every prefix of such a run is one, so what is proved of the last state of all runs is proved of
every state on the way.
-/

namespace Artha.Run

variable {σ α : Type} {step : σ → α → σ} {C : σ → α → Prop} {s : σ}

/-- Every step of the run meets `C` in the state it is taken in. -/
def Along (step : σ → α → σ) (C : σ → α → Prop) : σ → List α → Prop
  | _, [] => True
  | s, a :: run => C s a ∧ Along step C (step s a) run

/-- A condition that does not look at the state. -/
theorem along_of_forall {C : α → Prop} {run : List α} (h : ∀ a ∈ run, C a) :
    Along step (fun _ a => C a) s run := by
  induction run generalizing s with
  | nil => trivial
  | cons a run ih =>
    exact ⟨h a (List.mem_cons_self ..), ih fun b hb => h b (List.mem_cons_of_mem _ hb)⟩

theorem along_append {run run' : List α} :
    Along step C s (run ++ run') ↔ Along step C s run ∧ Along step C (run.foldl step s) run' := by
  induction run generalizing s with
  | nil => simp [Along]
  | cons a run ih =>
    rw [List.cons_append, Along, Along, ih, and_assoc]
    rfl

/-- What holds at first and is kept by every step that meets `C` holds after every run whose steps
meet `C`. -/
theorem invariant {I : σ → Prop} (hstep : ∀ s a, I s → C s a → I (step s a)) {run : List α}
    (hs : I s) (hrun : Along step C s run) : I (run.foldl step s) := by
  induction run generalizing s with
  | nil => exact hs
  | cons a run ih =>
    obtain ⟨ha, hrest⟩ := hrun
    exact ih (hstep s a hs ha) hrest

/-- Two machines that take the same steps stay in a relation that every step meeting `C` keeps. -/
theorem simulation {τ : Type} {step' : τ → α → τ} {R : σ → τ → Prop} {t : τ}
    (hstep : ∀ s t a, R s t → C s a → R (step s a) (step' t a)) {run : List α} (h : R s t)
    (hrun : Along step C s run) : R (run.foldl step s) (run.foldl step' t) := by
  induction run generalizing s t with
  | nil => exact h
  | cons a run ih =>
    obtain ⟨ha, hrest⟩ := hrun
    exact ih (hstep s t a h ha) hrest

/-- What a state has that its first did not, an action of the run has brought. -/
theorem origin {β : Type} (Has : σ → β → Prop) {Brings : α → β → Prop}
    (hstep : ∀ s a b, Has (step s a) b → Has s b ∨ Brings a b) {run : List α} {b : β}
    (h : Has (run.foldl step s) b) : Has s b ∨ ∃ a ∈ run, Brings a b := by
  induction run generalizing s with
  | nil => exact Or.inl h
  | cons a run ih =>
    rcases ih h with hnext | ⟨a', ha', hbrings⟩
    · rcases hstep s a b hnext with hs | hbrings
      · exact Or.inl hs
      · exact Or.inr ⟨a, List.mem_cons_self, hbrings⟩
    · exact Or.inr ⟨a', List.mem_cons_of_mem a ha', hbrings⟩

/-- What an invariant and the condition of a step give, holds at every step of the run. -/
theorem along_of_invariant {I : σ → Prop} {D : σ → α → Prop}
    (hstep : ∀ s a, I s → C s a → I (step s a)) (hD : ∀ s a, I s → C s a → D s a) {run : List α}
    (hs : I s) (hrun : Along step C s run) : Along step D s run := by
  induction run generalizing s with
  | nil => trivial
  | cons a run ih =>
    obtain ⟨ha, hrest⟩ := hrun
    exact ⟨hD s a hs ha, ih (hstep s a hs ha) hrest⟩

/-- Two conditions that agree wherever an invariant holds, and keep it, hold along the same runs. -/
theorem along_iff {I : σ → Prop} {D : σ → α → Prop} (hiff : ∀ s a, I s → (C s a ↔ D s a))
    (hstep : ∀ s a, I s → C s a → I (step s a)) {run : List α} (hs : I s) :
    Along step C s run ↔ Along step D s run := by
  induction run generalizing s with
  | nil => exact Iff.rfl
  | cons a run ih =>
    constructor
    · rintro ⟨hC, hrest⟩
      exact ⟨(hiff s a hs).mp hC, (ih (hstep s a hs hC)).mp hrest⟩
    · rintro ⟨hD, hrest⟩
      have hC := (hiff s a hs).mpr hD
      exact ⟨hC, (ih (hstep s a hs hC)).mpr hrest⟩

end Artha.Run
