import Mathlib.Tactic.Basic

/-!
# Computations with an environment, a state and exceptions

`Eff ρ σ ε α` is a computation that reads an environment `ρ`, threads a state `σ`, and either
returns an `α` or raises an `ε`.  The state is threaded through a raise: what a computation did
before it raised stays done, as in a language whose exceptions do not roll anything back.

`wp m env Q E st` is the weakest precondition of `m`: run from `st` in `env`, a normal return
satisfies `Q` and a raise satisfies `E`.  With both exits as separate postconditions every
combinator has a one-line rule (`wp_bind`, `wp_throw`, `wp_handle`, ...), and `simp` with these
rules executes a program symbolically without ever meeting a match on a match.
-/

namespace Artha

/-- A computation reading `ρ`, threading `σ`, returning `α` or raising `ε`. -/
def Eff (ρ σ ε α : Type) : Type := ρ → σ → Except ε α × σ

namespace Eff

variable {ρ σ ε α β : Type}

/-- Run a computation in an environment from a state. -/
def run (m : Eff ρ σ ε α) (env : ρ) (st : σ) : Except ε α × σ := m env st

instance : Monad (Eff ρ σ ε) where
  pure a := fun _ st => (.ok a, st)
  bind m k := fun env st =>
    match m env st with
    | (.ok a, st') => k a env st'
    | (.error e, st') => (.error e, st')

/-- Run `m`; if it raises `e`, go on with `h e` from the state reached. -/
def handle (m : Eff ρ σ ε α) (h : ε → Eff ρ σ ε α) : Eff ρ σ ε α := fun env st =>
  match m env st with
  | (.ok a, st') => (.ok a, st')
  | (.error e, st') => h e env st'

instance : MonadExceptOf ε (Eff ρ σ ε) where
  throw e := fun _ st => (.error e, st)
  tryCatch := handle

/-- The environment. -/
def ask : Eff ρ σ ε ρ := fun env st => (.ok env, st)

/-- The current state. -/
def get : Eff ρ σ ε σ := fun _ st => (.ok st, st)

/-- Update the state. -/
def modify (f : σ → σ) : Eff ρ σ ε Unit := fun _ st => (.ok (), f st)

/-- A pure computation that may raise. -/
def lift (x : Except ε α) : Eff ρ σ ε α := fun _ st => (x, st)

/-- Behind a computation that returns, a run goes on from the state it left. -/
theorem run_bind_of_ok {m : Eff ρ σ ε β} {k : β → Eff ρ σ ε α} {env : ρ} {st st' : σ} {b : β}
    (h : m.run env st = (.ok b, st')) : (m >>= k).run env st = (k b).run env st' := by
  simp only [run, bind] at h ⊢
  rw [h]

/-- A computation that returns does not reach its handler. -/
theorem run_handle_of_ok {m : Eff ρ σ ε α} {h : ε → Eff ρ σ ε α} {env : ρ} {st st' : σ} {a : α}
    (hm : m.run env st = (.ok a, st')) : (handle m h).run env st = (.ok a, st') := by
  simp only [run, handle] at hm ⊢
  rw [hm]

/-- A handler goes on from the state the raise left. -/
theorem run_handle_of_error {m : Eff ρ σ ε α} {h : ε → Eff ρ σ ε α} {env : ρ} {st st' : σ} {e : ε}
    (hm : m.run env st = (.error e, st')) : (handle m h).run env st = (h e).run env st' := by
  simp only [run, handle] at hm ⊢
  rw [hm]

/-! ### Weakest preconditions -/

/-- `m`, run from `st` in `env`, returns normally with `Q` or raises with `E`. -/
def wp (m : Eff ρ σ ε α) (env : ρ) (Q : α → σ → Prop) (E : ε → σ → Prop) (st : σ) : Prop :=
  match m.run env st with
  | (.ok a, st') => Q a st'
  | (.error e, st') => E e st'

variable {env : ρ} {Q : α → σ → Prop} {E : ε → σ → Prop} {st : σ}

@[simp] theorem wp_pure (a : α) : wp (pure a) env Q E st ↔ Q a st := Iff.rfl

@[simp] theorem wp_throw (e : ε) : wp (throw e : Eff ρ σ ε α) env Q E st ↔ E e st := Iff.rfl

@[simp] theorem wp_bind (m : Eff ρ σ ε β) (k : β → Eff ρ σ ε α) :
    wp (m >>= k) env Q E st ↔ wp m env (fun b st' => wp (k b) env Q E st') E st := by
  simp only [wp, run, bind]
  rcases m env st with ⟨b | e, st'⟩ <;> rfl

@[simp] theorem wp_handle (m : Eff ρ σ ε α) (h : ε → Eff ρ σ ε α) :
    wp (handle m h) env Q E st ↔ wp m env Q (fun e st' => wp (h e) env Q E st') st := by
  simp only [wp, run, handle]
  rcases m env st with ⟨a | e, st'⟩ <;> rfl

@[simp] theorem wp_ask {Q : ρ → σ → Prop} : wp ask env Q E st ↔ Q env st := Iff.rfl

@[simp] theorem wp_lift_ok (a : α) : wp (lift (.ok a)) env Q E st ↔ Q a st := Iff.rfl

@[simp] theorem wp_lift_error (e : ε) :
    wp (lift (.error e) : Eff ρ σ ε α) env Q E st ↔ E e st := Iff.rfl

@[simp] theorem wp_ite (c : Prop) [Decidable c] (m n : Eff ρ σ ε α) :
    wp (if c then m else n) env Q E st ↔ if c then wp m env Q E st else wp n env Q E st := by
  split <;> rfl

/-- The rule of consequence. -/
theorem wp_mono {Q' : α → σ → Prop} {E' : ε → σ → Prop} {m : Eff ρ σ ε α}
    (h : wp m env Q E st) (hQ : ∀ a st', Q a st' → Q' a st') (hE : ∀ e st', E e st' → E' e st') :
    wp m env Q' E' st := by
  unfold wp at h ⊢
  cases hr : m.run env st with
  | mk r st' =>
    rw [hr] at h
    cases r with
    | error e => exact hE e st' h
    | ok a => exact hQ a st' h

/-- A postcondition that does not look at the way out is one on the state the run leaves. -/
theorem wp_state {P : σ → Prop} (m : Eff ρ σ ε α) :
    wp m env (fun _ => P) (fun _ => P) st ↔ P (m.run env st).2 := by
  unfold wp
  rcases m.run env st with ⟨e | a, st'⟩ <;> rfl

/-- A weakest precondition speaks about the run: read off what a normal return satisfies. -/
theorem wp_ok {m : Eff ρ σ ε α} (h : wp m env Q E st) {a : α} {st' : σ}
    (hrun : m.run env st = (.ok a, st')) : Q a st' := by
  simpa only [wp, hrun] using h

end Eff

end Artha
