import Artha.Effect.Basic

/-!
# Partial triples and frames

Two judgements about computations that are closed under the combinators, so that a program is
proved to satisfy them along its own syntax.

* `Triple P m Q`: from a state satisfying `P`, a normal return of `m` satisfies `Q`.  Nothing is
  asked of a raise.
* `Frame f m`: `m` leaves the part `f` of the state as it was, on every way out.
-/

namespace Artha.Eff

variable {ρ σ ε α β γ : Type}

/-! ### Triples -/

/-- From a state satisfying `P`, a normal return of `m` satisfies `Q`. -/
def Triple (P : σ → Prop) (m : Eff ρ σ ε α) (Q : α → σ → Prop) : Prop :=
  ∀ env st, P st → wp m env Q (fun _ _ => True) st

variable {P : σ → Prop} {Q : α → σ → Prop}

theorem triple_pure {a : α} (h : ∀ st, P st → Q a st) :
    Triple P (pure a : Eff ρ σ ε α) Q :=
  fun _ st hP => h st hP

theorem triple_throw (e : ε) : Triple P (throw e : Eff ρ σ ε α) Q := fun _ _ _ => trivial

theorem triple_bind {m : Eff ρ σ ε β} {k : β → Eff ρ σ ε α} {R : β → σ → Prop}
    (hm : Triple P m R) (hk : ∀ b, Triple (R b) (k b) Q) : Triple P (m >>= k) Q := by
  intro env st hP
  rw [wp_bind]
  exact wp_mono (hm env st hP) (fun b st' hR => hk b env st' hR) fun _ _ h => h

/-- Where nothing is asked of the state, only what comes last matters. -/
theorem triple_bind_any {m : Eff ρ σ ε β} {k : β → Eff ρ σ ε α}
    (hk : ∀ b, Triple (fun _ => True) (k b) Q) : Triple P (m >>= k) Q := by
  refine triple_bind (R := fun _ _ => True) (fun env st _ => ?_) hk
  unfold wp
  split <;> trivial

/-- A handler that is reached from anywhere has to establish `Q` from nothing. -/
theorem triple_handle {m : Eff ρ σ ε α} {h : ε → Eff ρ σ ε α} (hm : Triple P m Q)
    (hh : ∀ e, Triple (fun _ => True) (h e) Q) : Triple P (handle m h) Q := by
  intro env st hP
  rw [wp_handle]
  exact wp_mono (hm env st hP) (fun _ _ h => h) fun e st' _ => hh e env st' trivial

theorem triple_ite {c : Prop} [Decidable c] {m n : Eff ρ σ ε α} (hm : c → Triple P m Q)
    (hn : ¬c → Triple P n Q) : Triple P (if c then m else n) Q := by
  split
  · exact hm ‹_›
  · exact hn ‹_›

/-! ### Frames -/

/-- `m` leaves the part `f` of the state as it was. -/
def Frame (f : σ → γ) (m : Eff ρ σ ε α) : Prop := ∀ env st, f (m.run env st).2 = f st

variable {f : σ → γ}

theorem frame_pure (a : α) : Frame f (pure a : Eff ρ σ ε α) := fun _ _ => rfl

theorem frame_throw (e : ε) : Frame f (throw e : Eff ρ σ ε α) := fun _ _ => rfl

theorem frame_lift (x : Except ε α) : Frame f (lift x : Eff ρ σ ε α) := fun _ _ => rfl

theorem frame_bind {m : Eff ρ σ ε β} {k : β → Eff ρ σ ε α} (hm : Frame f m)
    (hk : ∀ b, Frame f (k b)) : Frame f (m >>= k) := by
  intro env st
  have h := hm env st
  simp only [run, bind] at h ⊢
  rcases hr : m env st with ⟨e | b, st'⟩
  · rw [hr] at h; exact h
  · rw [hr] at h; exact (hk b env st').trans h

theorem frame_ite {c : Prop} [Decidable c] {m n : Eff ρ σ ε α} (hm : Frame f m)
    (hn : Frame f n) : Frame f (if c then m else n) := by
  split <;> assumption

/-- A framed part is the same on every way out. -/
theorem Frame.wp {m : Eff ρ σ ε α} (h : Frame f m) (env : ρ) (st : σ) :
    Eff.wp m env (fun _ st' => f st' = f st) (fun _ st' => f st' = f st) st := by
  rw [wp_state]
  exact h env st

/-- A framed part keeps any property a triple speaks about. -/
theorem Frame.triple {m : Eff ρ σ ε α} (h : Frame f m) (p : γ → Prop) :
    Triple (fun st => p (f st)) m fun _ st => p (f st) := by
  intro env st hp
  refine wp_mono (h.wp env st) (fun _ st' hf => ?_) fun _ _ _ => trivial
  rwa [hf]

/-- A computation that changes nothing can be passed over. -/
theorem triple_bind_frame {m : Eff ρ σ ε β} {k : β → Eff ρ σ ε α} (hm : Frame id m)
    (hk : ∀ b, Triple P (k b) Q) : Triple P (m >>= k) Q :=
  triple_bind (hm.triple P) hk

end Artha.Eff
