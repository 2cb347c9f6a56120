import Artha.ApiController.Spec.Rules

/-!
# How an action ends

`Ends env st m P`: run from `st`, `m` ends with `P`, which sees whether the answer is the success
envelope and what session is left.  The `catch` block of an action changes neither, so `Ends` passes
through `attempt`.

`SucceedsIff env st m p` is the special case that `m` answers success exactly if `p`.  There is one
rule per fragment, which adds to `p` what the fragment asks for, so that the rules compute the
condition of an action along its syntax.
-/

namespace Artha.ApiController

open Php Laravel Eff

/-- Run from `st`, `m` ends with `P`.  A raise is not a success. -/
def Ends (env : Env) (st : St) (m : Php Response) (P : Bool → Session → Prop) : Prop :=
  wp m env (fun r st' => P r.succeeds st'.session) (fun _ st' => P false st'.session) st

/-- Run from `st`, `m` answers success if and only if `p`. -/
def SucceedsIff (env : Env) (st : St) (m : Php Response) (p : Prop) : Prop :=
  Ends env st m fun b _ => b = true ↔ p

variable {env : Env} {st : St} {p : Prop} {P : Bool → Session → Prop}

/-- The judgement speaks about whole calls. -/
theorem Call.ends {c : Call} {s : Session}
    (h : Ends c.env (.initial s) (c.action.run c.request) P) : P (c.succeeds s) (c.after s) := by
  unfold Ends wp at h
  unfold Call.succeeds Call.after Call.result
  split at h
  · next hr => rw [hr]; exact h
  · next hr => rw [hr]; exact h

theorem Call.succeeds_iff {c : Call} {s : Session}
    (h : SucceedsIff c.env (.initial s) (c.action.run c.request) p) :
    c.succeeds s = true ↔ p :=
  Call.ends h

theorem ends_attempt {failure : String} {body : Php Response} (h : Ends env st body P) :
    Ends env st (attempt failure body) P := by
  unfold Ends
  rw [wp_attempt]
  refine wp_mono h (fun _ _ hr => hr) fun e st' hp => ?_
  rw [wp_caught]
  split <;> exact hp

/-- A computation that leaves the session alone. -/
theorem ends_frame {m : Php Response} (hm : Frame St.session m) (h : ∀ b, P b st.session) :
    Ends env st m P := by
  refine wp_mono (hm.wp env st) (fun r st' hs => ?_) fun e st' hs => ?_
  · rw [hs]; exact h _
  · rw [hs]; exact h _

/-! ### Success -/

theorem succeedsIff_congr {m : Php Response} {p' : Prop} (h : SucceedsIff env st m p')
    (hp : p' ↔ p) : SucceedsIff env st m p := by
  rwa [← propext hp]

theorem succeedsIff_throw (e : Throwable) (hp : ¬ p) : SucceedsIff env st (throw e) p := by
  simpa [SucceedsIff, Ends] using hp

theorem succeedsIff_ite {c : Prop} [Decidable c] {m n : Php Response}
    (hm : c → SucceedsIff env st m p) (hn : ¬ c → SucceedsIff env st n p) :
    SucceedsIff env st (if c then m else n) p := by
  split
  · exact hm ‹_›
  · exact hn ‹_›

theorem succeedsIff_attempt {failure : String} {body : Php Response}
    (h : SucceedsIff env st body p) : SucceedsIff env st (attempt failure body) p :=
  ends_attempt h

theorem succeedsIff_withUser {k : Value → Php Response}
    (h : SucceedsIff env st (k (st.session "user")) p) :
    SucceedsIff env st (withUser k) (Action.noUser st.session = false ∧ p) := by
  unfold SucceedsIff Ends
  rw [wp_withUser]
  refine ⟨fun hu => ?_, fun hu => ?_⟩
  · simp [hu]
  · simpa [SucceedsIff, Ends, hu] using h

theorem succeedsIff_readKey {v : Value} {key : String} {p : Value → Prop}
    {k : Value → Php Response} (h : ∀ x, SucceedsIff env st (k x) (p x)) :
    SucceedsIff env st (readKey v key >>= k) (∃ x, v.read key = .ok x ∧ p x) := by
  unfold SucceedsIff Ends
  rw [wp_bind, wp_readKey]
  refine ⟨fun x hx => ?_, fun e he => ?_⟩
  · refine succeedsIff_congr (h x) ?_
    simp [hx]
  · simp [he]

/-- A step that cannot raise and leaves the state alone. -/
theorem succeedsIff_bind_ok {α : Type} {m : Php α} {a : α} (hm : m.run env st = (.ok a, st))
    {k : α → Php Response} (h : SucceedsIff env st (k a) p) : SucceedsIff env st (m >>= k) p := by
  unfold SucceedsIff Ends
  rw [wp_bind, wp, hm]
  exact h

/-- A call succeeds through its answer. -/
theorem succeedsIff_send {q : HttpRequest} {p : HttpResponse → Prop}
    {k : HttpResponse → Php Response}
    (h : ∀ r, SucceedsIff env (st.record ⟨q, .response r⟩) (k r) (p r)) :
    SucceedsIff env st (send q >>= k)
      (q.encodable = true ∧ ∃ r, env.remote st.trace q = .response r ∧ p r) := by
  unfold SucceedsIff Ends
  rw [wp_bind, wp_sent]
  refine ⟨fun hq => ?_, fun r hq hr => ?_, fun message hq hr => ?_⟩
  · simp [hq]
  · refine succeedsIff_congr (h r) ?_
    simp [hq, hr]
  · simp [hr]

theorem succeedsIff_forward {q : HttpRequest} {p : HttpResponse → Prop}
    {k : HttpResponse → Php Response}
    (h : ∀ r, SucceedsIff env (st.record ⟨q, .response r⟩) (k r) (p r)) :
    SucceedsIff env st (forward q k)
      (q.encodable = true ∧
        ∃ r, env.remote st.trace q = .response r ∧ r.successful = true ∧ p r) := by
  refine succeedsIff_send fun r => ?_
  cases hr : r.successful with
  | true =>
    rw [ensure, if_pos hr]
    exact succeedsIff_congr (h r) (by simp)
  | false =>
    rw [ensure, if_neg (by simp [hr])]
    exact succeedsIff_throw _ (by simp)

/-- Where a response that is not successful is thrown, its body in the message. -/
theorem succeedsIff_ite_throwBody {r : HttpResponse} {literal : String} {k : Php Response}
    (h : SucceedsIff env st k p) :
    SucceedsIff env st (if (!r.successful) = true then throwBody literal r else k)
      (r.successful = true ∧ p) := by
  cases hr : r.successful with
  | true => simpa using h
  | false =>
    have hthrow : SucceedsIff env st (throwBody literal r) (false = true ∧ p) := by
      unfold throwBody
      split <;> exact succeedsIff_throw _ (by simp)
    simpa using hthrow

theorem succeedsIff_json (entries : List (String × Value)) :
    SucceedsIff env st (json (.arr (("status", .str "success") :: entries)))
      ((Value.arr (("status", .str "success") :: entries)).encodable = true) := by
  unfold SucceedsIff Ends
  rw [wp_json]
  split
  · next henc =>
    rw [if_neg nofun]
    exact ⟨fun _ => henc, fun _ => rfl⟩
  · next henc => exact ⟨nofun, fun h => absurd h henc⟩

end Artha.ApiController
