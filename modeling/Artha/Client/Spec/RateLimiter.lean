import Mathlib.Data.List.DropRight
import Mathlib.Data.List.Induction
import Mathlib.Tactic.Basic
import Artha.Client.RateLimiter
import Artha.Effect.Run

/-!
# The rate limiter over whole histories of calls

A history is a list of calls; nothing is assumed of it but that the clock does not go back.  What a
call at `t` does depends on the record it fetches, `fetch (after run) k t`, so the invariants are
stated of that record: which of the increments so far it counts, and since when.

* Callers that ask before each increment stay below ten increments in any five minutes, and below
  five in one window (`Window` is the invariant).
* A key is refused only after five increments in the last five minutes.
* A question leaves the answers of later calls alone, unless it restarts a window that has expired
  and the restart moves the end of the window past a later call.
-/

namespace Artha.Client.RateLimiter

variable {κ : Type} [DecidableEq κ] {k : κ}

/-- The clock does not go back. -/
def NonDecreasing (run : List (Call κ)) : Prop := run.Pairwise (·.now ≤ ·.now)

/-- The instants at which a key was incremented. -/
def incrementTimes (k : κ) (run : List (Call κ)) : List Int :=
  (run.filter fun c => c.operation = .increment ∧ c.key = k).map (·.now)

theorem incrementTimes_append (run run' : List (Call κ)) :
    incrementTimes k (run ++ run') = incrementTimes k run ++ incrementTimes k run' := by
  simp [incrementTimes]

theorem length_incrementTimes_cons (c : Call κ) (run : List (Call κ)) :
    (incrementTimes k (c :: run)).length =
      (incrementTimes k [c]).length + (incrementTimes k run).length := by
  rw [← List.length_append, ← incrementTimes_append]
  rfl

theorem incrementTimes_singleton_of_ne {c : Call κ} (h : c.key ≠ k) :
    incrementTimes k [c] = [] := by
  simp [incrementTimes, h]

theorem incrementTimes_singleton_of_not_increment {c : Call κ} (h : c.operation ≠ .increment) :
    incrementTimes k [c] = [] := by
  simp [incrementTimes, h]

@[simp] theorem incrementTimes_increment (k : κ) (t : Int) :
    incrementTimes k [⟨.increment, k, t⟩] = [t] := by
  simp [incrementTimes]

theorem now_of_mem_incrementTimes {run : List (Call κ)} {s : Int} (h : s ∈ incrementTimes k run) :
    ∃ c ∈ run, c.now = s := by
  obtain ⟨c, hc, hs⟩ := List.mem_map.mp h
  exact ⟨c, List.mem_of_mem_filter hc, hs⟩

/-! ### The record a call fetches -/

theorem after_snoc (run : List (Call κ)) (c : Call κ) :
    after (run ++ [c]) = step (after run) c := by
  rw [after, List.foldl_append]
  rfl

theorem after_append (run run' : List (Call κ)) :
    after (run ++ run') = run'.foldl step (after run) := by
  rw [after, List.foldl_append]
  rfl

theorem checked_of_expired {a : Attempts} {t : Int} (h : a.expired t = true) :
    a.checked t = ⟨0, t⟩ := if_pos h

theorem checked_of_not_expired {a : Attempts} {t : Int} (h : a.expired t = false) :
    a.checked t = a := if_neg (by simp [h])

/-- Whether `increment` restarts the window or not, it adds one to what `checkLimit` would leave. -/
theorem incremented_eq (a : Attempts) (t : Int) :
    a.incremented t = ⟨(a.checked t).count + 1, (a.checked t).timestamp⟩ := by
  cases h : a.expired t with
  | true => simp [Attempts.incremented, checked_of_expired h, h]
  | false => simp [Attempts.incremented, checked_of_not_expired h, h]

theorem expired_iff (a : Attempts) (t : Int) :
    a.expired t = true ↔ a.timestamp + timeWindow < t := by
  rw [Attempts.expired, decide_eq_true_iff]
  omega

theorem not_expired_iff (a : Attempts) (t : Int) :
    a.expired t = false ↔ t ≤ a.timestamp + timeWindow := by
  rw [← Bool.not_eq_true, expired_iff]
  omega

theorem fetch_of_ne (run : List (Call κ)) {c : Call κ} (h : c.key ≠ k) (t : Int) :
    fetch (after (run ++ [c])) k t = fetch (after run) k t := by
  rw [fetch, fetch, after_snoc, step_of_ne _ h]

theorem fetch_increment (run : List (Call κ)) (now t : Int) :
    fetch (after (run ++ [⟨.increment, k, now⟩])) k t =
      (fetch (after run) k now).incremented now := by
  rw [fetch, after_snoc, step_self _ rfl]
  rfl

theorem fetch_reset (run : List (Call κ)) (now t : Int) :
    fetch (after (run ++ [⟨.reset, k, now⟩])) k t = ⟨0, t⟩ := by
  rw [fetch, after_snoc, step_self _ rfl]
  rfl

/-- A question leaves a record as it has just read it; where there was none there still is none. -/
theorem fetch_checkLimit (run : List (Call κ)) (now t : Int) :
    fetch (after (run ++ [⟨.checkLimit, k, now⟩])) k t = (fetch (after run) k now).checked now ∨
      fetch (after (run ++ [⟨.checkLimit, k, now⟩])) k t = fetch (after run) k t := by
  rw [fetch, after_snoc, step_self _ rfl, nextRecord, fetch, fetch]
  cases after run k with
  | none => exact Or.inr rfl
  | some a => exact Or.inl rfl

/-! ### Since the last reset -/

/-- The calls after the last `reset` of a key. -/
def sinceReset (k : κ) (run : List (Call κ)) : List (Call κ) :=
  run.rtakeWhile fun c => ¬(c.operation = .reset ∧ c.key = k)

theorem sinceReset_snoc_of_ne (run : List (Call κ)) {c : Call κ} (h : c.key ≠ k) :
    sinceReset k (run ++ [c]) = sinceReset k run ++ [c] :=
  List.rtakeWhile_concat_pos _ _ _ (by simp [h])

theorem sinceReset_snoc_of_not_reset (run : List (Call κ)) {c : Call κ} (h : c.operation ≠ .reset) :
    sinceReset k (run ++ [c]) = sinceReset k run ++ [c] :=
  List.rtakeWhile_concat_pos _ _ _ (by simp [h])

theorem sinceReset_reset (run : List (Call κ)) (now : Int) :
    sinceReset k (run ++ [⟨.reset, k, now⟩]) = [] :=
  List.rtakeWhile_concat_neg _ _ _ (by simp)

theorem sinceReset_of_no_reset {run : List (Call κ)}
    (h : ∀ c ∈ run, c.key = k → c.operation ≠ .reset) : sinceReset k run = run := by
  rw [sinceReset, List.rtakeWhile_eq_self_iff]
  intro c hc
  exact decide_eq_true (not_and'.mpr (h c hc))

theorem mem_of_mem_sinceReset {run : List (Call κ)} {c : Call κ} (h : c ∈ sinceReset k run) :
    c ∈ run := (List.rtakeWhile_suffix _ _).subset h

/-- A record and the instants it has to do with: what is true of a new record, survives a restart
of the window and survives one more increment within it, is true of the record that a call at `t`
fetches, of the increments since the last reset.  `B` is what is known of the record whenever the
key is incremented. -/
theorem fetch_invariant {P : List Int → Attempts → Prop} {B : Attempts → Prop}
    (hnew : ∀ t, P [] ⟨0, t⟩)
    (hrestart : ∀ times a t, P times a → a.timestamp + timeWindow < t → P times ⟨0, t⟩)
    (hcount : ∀ times a t, P times a → B a → a.timestamp ≤ t → t ≤ a.timestamp + timeWindow →
      P (times ++ [t]) ⟨a.count + 1, a.timestamp⟩)
    {run : List (Call κ)} (hclock : NonDecreasing run)
    (hB : ∀ before t rest, run = before ++ ⟨.increment, k, t⟩ :: rest →
      B ((fetch (after before) k t).checked t)) {t : Int} (ht : ∀ c ∈ run, c.now ≤ t) :
    P (incrementTimes k (sinceReset k run)) (fetch (after run) k t) ∧
      (fetch (after run) k t).timestamp ≤ t := by
  have hchecked : ∀ {times a t}, P times a ∧ a.timestamp ≤ t →
      P times (a.checked t) ∧ (a.checked t).timestamp ≤ t ∧
        t ≤ (a.checked t).timestamp + timeWindow := by
    rintro times a t ⟨hP, hle⟩
    cases he : a.expired t with
    | true =>
      rw [checked_of_expired he]
      have hW : (0 : Int) ≤ timeWindow := by decide
      exact ⟨hrestart _ _ _ hP ((expired_iff a t).mp he), Int.le_refl t, by dsimp only; omega⟩
    | false =>
      rw [checked_of_not_expired he]
      exact ⟨hP, hle, (not_expired_iff a t).mp he⟩
  -- the calls are added at the end, so that the record before the last one is the induction's
  induction run using List.reverseRecOn generalizing t with
  | nil => exact ⟨hnew t, Int.le_refl t⟩
  | append_singleton run c ih =>
    have hrun := List.pairwise_append.mp hclock
    have hnow : ∀ d ∈ run, d.now ≤ c.now := fun d hd => hrun.2.2 d hd c (List.mem_singleton_self c)
    have hct : c.now ≤ t := ht c (by simp)
    have ih := fun {t} => ih (t := t) hrun.1 fun before u rest h =>
      hB before u (rest ++ [c]) (by rw [h]; simp)
    have ihnow := hchecked (ih hnow)
    have iht := ih fun d hd => ht d (List.mem_append_left _ hd)
    by_cases hk : c.key = k
    · obtain ⟨operation, key, now⟩ := c
      obtain rfl : key = k := hk
      cases operation with
      | checkLimit =>
        rw [sinceReset_snoc_of_not_reset _ (by simp), incrementTimes_append,
          incrementTimes_singleton_of_not_increment (by simp), List.append_nil]
        obtain h | h := fetch_checkLimit (k := key) run now t
        · rw [h]
          exact ⟨ihnow.1, Int.le_trans ihnow.2.1 hct⟩
        · rw [h]
          exact iht
      | increment =>
        rw [sinceReset_snoc_of_not_reset _ (by simp), incrementTimes_append,
          incrementTimes_increment, fetch_increment, incremented_eq]
        exact ⟨hcount _ _ _ ihnow.1 (hB run now [] rfl) ihnow.2.1 ihnow.2.2,
          Int.le_trans ihnow.2.1 hct⟩
      | reset =>
        rw [sinceReset_reset, fetch_reset]
        exact ⟨hnew t, Int.le_refl t⟩
    · rw [sinceReset_snoc_of_ne _ hk, incrementTimes_append, incrementTimes_singleton_of_ne hk,
        List.append_nil, fetch_of_ne _ hk]
      exact iht

/-! ### Callers that ask first -/

/-- The last call on the key was a `checkLimit` that returned true. -/
def JustAllowed (k : κ) (before : List (Call κ)) : Prop :=
  ∃ pre c mid, before = pre ++ c :: mid ∧ c.operation = .checkLimit ∧ c.key = k ∧
    returned (after pre) c = .allowed true ∧ ∀ d ∈ mid, d.key ≠ k

/-- The call restarts the window of the key: the record it fetches has expired. -/
def Restarts (k : κ) (l : Limiter κ) (c : Call κ) : Prop :=
  c.key = k ∧ c.operation ≠ .reset ∧ ∃ a, l k = some a ∧ a.expired c.now = true

theorem JustAllowed.count_lt {before : List (Call κ)} (h : JustAllowed k before) (t : Int) :
    (fetch (after before) k t).count < maxAttempts := by
  obtain ⟨pre, ⟨operation, key, now⟩, mid, rfl, hop, hkey, hreturned, hmid⟩ := h
  subst hop hkey
  have hlast : after (pre ++ ⟨.checkLimit, key, now⟩ :: mid) key =
      (after pre key).map (·.checked now) := by
    rw [after_append, List.foldl_cons, foldl_step_of_ne hmid, step_self _ rfl]
    rfl
  have hlt : ((fetch (after pre) key now).checked now).count < maxAttempts :=
    of_decide_eq_true (Returned.allowed.inj hreturned)
  rw [fetch] at hlt
  rw [fetch, hlast]
  cases hr : after pre key with
  | none => exact Nat.zero_lt_succ 4
  | some a =>
    rw [hr] at hlt
    exact hlt

theorem checked_count_lt {a : Attempts} (h : a.count < maxAttempts) (t : Int) :
    (a.checked t).count < maxAttempts := by
  cases he : a.expired t with
  | true =>
    rw [checked_of_expired he]
    exact Nat.zero_lt_succ 4
  | false =>
    rw [checked_of_not_expired he]
    exact h

/-- What the record says of the instants `times` at which its key was incremented: they have been
counted since the timestamp, the window holds all of them, and the window before it held no more
than `maxAttempts` either. -/
structure Window (times : List Int) (a : Attempts) : Prop where
  counted : times.countP (fun s => a.timestamp ≤ s) = a.count
  count_le : a.count ≤ maxAttempts
  le_end : ∀ s ∈ times, s ≤ a.timestamp + timeWindow
  previous : times.countP (fun s => a.timestamp - timeWindow ≤ s ∧ s < a.timestamp) ≤ maxAttempts
  interval : ∀ x, times.countP (fun s => x ≤ s ∧ s ≤ x + timeWindow) ≤ 2 * maxAttempts

theorem Window.new (t : Int) : Window [] ⟨0, t⟩ := by
  constructor <;> simp

theorem Window.restart {times : List Int} {a : Attempts} {t : Int} (h : Window times a)
    (ht : a.timestamp + timeWindow < t) : Window times ⟨0, t⟩ := by
  have hbefore : ∀ s ∈ times, s < t := fun s hs => Int.lt_of_le_of_lt (h.le_end s hs) ht
  have hW : (0 : Int) ≤ timeWindow := by decide
  constructor
  · rw [List.countP_eq_zero]
    intro s hs
    have hst := hbefore s hs
    simpa using hst
  · exact Nat.zero_le _
  · intro s hs
    have hst := hbefore s hs
    dsimp only
    omega
  · -- what is left of the window before the new one lies in the old one
    have hold : times.countP (fun s => t - timeWindow ≤ s ∧ s < t) ≤
        times.countP (fun s => a.timestamp ≤ s) := by
      apply List.countP_mono_left
      intro s _ hs
      simp only [decide_eq_true_eq] at hs ⊢
      omega
    have hcount := h.counted
    have hle := h.count_le
    dsimp only
    omega
  · exact h.interval

theorem Window.count {times : List Int} {a : Attempts} {t : Int} (h : Window times a)
    (hlt : a.count < maxAttempts) (hle : a.timestamp ≤ t) (hend : t ≤ a.timestamp + timeWindow) :
    Window (times ++ [t]) ⟨a.count + 1, a.timestamp⟩ := by
  have hcounted := h.counted
  constructor
  · rw [List.countP_append, hcounted, List.countP_singleton, if_pos (decide_eq_true hle)]
  · exact hlt
  · intro s hs
    rcases List.mem_append.mp hs with hs | hs
    · exact h.le_end s hs
    · rw [List.mem_singleton.mp hs]
      exact hend
  · have hnot : ¬(a.timestamp - timeWindow ≤ t ∧ t < a.timestamp) := by omega
    rw [List.countP_append, List.countP_singleton, if_neg (by simpa using hnot)]
    exact h.previous
  · intro x
    rw [List.countP_append, List.countP_singleton]
    by_cases hx : x ≤ t ∧ t ≤ x + timeWindow
    · -- the interval reaches back into the previous window at most
      have hsplit : times.countP (fun s => x ≤ s ∧ s ≤ x + timeWindow) ≤
          times.countP (fun s => a.timestamp - timeWindow ≤ s ∧ s < a.timestamp) +
            times.countP (fun s => a.timestamp ≤ s) := by
        clear hcounted h
        induction times with
        | nil => simp
        | cons s times ih =>
          simp only [List.countP_cons, decide_eq_true_eq]
          split_ifs <;> omega
      have hprevious := h.previous
      rw [if_pos (by simpa using hx)]
      omega
    · rw [if_neg (by simpa using hx)]
      exact h.interval x

/-- How many increments the stored record of a key counts. -/
def counted (l : Limiter κ) (k : κ) : Nat := (l k).elim 0 (·.count)

omit [DecidableEq κ] in
theorem counted_eq_fetch (l : Limiter κ) (k : κ) (t : Int) :
    counted l k = (fetch l k t).count := by
  rw [counted, fetch]
  cases l k with
  | none => rfl
  | some a => rfl

/-- An increment is counted, whatever the record was. -/
theorem length_incrementTimes_singleton_le (l : Limiter κ) (c : Call κ) :
    (incrementTimes k [c]).length ≤ counted (step l c) k := by
  by_cases hk : c.key = k
  · obtain ⟨operation, key, now⟩ := c
    obtain rfl : key = k := hk
    cases operation with
    | checkLimit | reset => exact Nat.zero_le _
    | increment =>
      rw [counted, step_self _ rfl, incrementTimes_increment]
      dsimp only [nextRecord, Option.elim_some, List.length_singleton]
      rw [incremented_eq]
      exact Nat.le_add_left 1 _
  · rw [incrementTimes_singleton_of_ne hk]
    exact Nat.zero_le _

/-- A call that does not restart the window only adds to the count. -/
theorem counted_add_le (l : Limiter κ) {c : Call κ} (hreset : c.key = k → c.operation ≠ .reset)
    (hrestart : ¬Restarts k l c) :
    counted l k + (incrementTimes k [c]).length ≤ counted (step l c) k := by
  by_cases hk : c.key = k
  · obtain ⟨operation, key, now⟩ := c
    obtain rfl : key = k := hk
    cases hr : l key with
    | none =>
      have hle := length_incrementTimes_singleton_le (k := key) l ⟨operation, key, now⟩
      have hzero : counted l key = 0 := by rw [counted, hr]; rfl
      omega
    | some a =>
      have hexpired : a.expired now = false := by
        rw [← Bool.not_eq_true]
        intro h
        exact hrestart ⟨rfl, hreset rfl, a, hr, h⟩
      rw [counted, counted, step_self _ rfl, hr]
      cases operation with
      | checkLimit =>
        dsimp only [nextRecord, Option.map_some, Option.elim_some]
        rw [checked_of_not_expired hexpired]
        exact Nat.le_refl _
      | increment =>
        dsimp only [nextRecord, Option.getD_some, Option.elim_some]
        rw [incremented_eq, checked_of_not_expired hexpired, incrementTimes_increment]
        exact Nat.le_refl _
      | reset => exact absurd rfl (hreset rfl)
  · rw [counted, counted, step_of_ne l hk, incrementTimes_singleton_of_ne hk]
    exact Nat.le_refl _

theorem counted_add_le_foldl {run : List (Call κ)} (l : Limiter κ)
    (hreset : ∀ c ∈ run, c.key = k → c.operation ≠ .reset)
    (hrestart : Run.Along step (fun l c => ¬Restarts k l c) l run) :
    counted l k + (incrementTimes k run).length ≤ counted (run.foldl step l) k := by
  induction run generalizing l with
  | nil => exact Nat.le_refl _
  | cons c run ih =>
    have hc := counted_add_le l (hreset c (List.mem_cons_self ..)) hrestart.1
    have hrest := ih (step l c) (fun d hd => hreset d (List.mem_cons_of_mem _ hd)) hrestart.2
    have hlength := length_incrementTimes_cons (k := k) c run
    rw [List.foldl_cons]
    omega

/-- The record of a key is made by the calls on it. -/
theorem after_filter_key (run : List (Call κ)) :
    after (run.filter (·.key = k)) k = after run k := by
  induction run using List.reverseRecOn with
  | nil => rfl
  | append_singleton run c ih =>
    rw [List.filter_append, after_append, after_snoc]
    by_cases hk : c.key = k
    · simp only [hk, List.filter_cons, decide_true, if_true, List.filter_nil, List.foldl_cons,
        List.foldl_nil]
      rw [step_self _ hk, step_self _ hk, ih]
    · simp only [hk, List.filter_cons, decide_false, Bool.false_eq_true, if_false, List.filter_nil,
        List.foldl_nil]
      rw [step_of_ne _ hk, ih]

omit [DecidableEq κ] in
theorem exists_now_le (run : List (Call κ)) : ∃ t : Int, ∀ c ∈ run, c.now ≤ t := by
  induction run with
  | nil => exact ⟨0, by simp⟩
  | cons c run ih =>
    obtain ⟨t, ht⟩ := ih
    refine ⟨max c.now t, ?_⟩
    intro d hd
    rcases List.mem_cons.mp hd with rfl | hd
    · exact Int.le_max_left _ _
    · exact Int.le_trans (ht d hd) (Int.le_max_right _ _)

/-- Callers that ask before each increment of a key make at most ten of them in any interval of
length `timeWindow`, and at most five from one restart of the window to the next: `w` is the call
that restarts it, and no call of `rest` does.  What a call on the key returns is the same without
the calls on other keys. -/
theorem increments_bounded {run : List (Call κ)} (hclock : NonDecreasing run)
    (hreset : ∀ c ∈ run, c.key = k → c.operation ≠ .reset)
    (hallowed : ∀ before t rest, run = before ++ ⟨.increment, k, t⟩ :: rest →
      JustAllowed k before) :
    (∀ x, (incrementTimes k run).countP (fun s => x ≤ s ∧ s ≤ x + timeWindow) ≤ 2 * maxAttempts) ∧
    (∀ before w rest later, run = before ++ w :: (rest ++ later) →
      Run.Along step (fun l c => ¬Restarts k l c) (after (before ++ [w])) rest →
      (incrementTimes k (w :: rest)).length ≤ maxAttempts) ∧
    ∀ before c rest, run = before ++ c :: rest → c.key = k →
      returned (after before) c = returned (after (before.filter (·.key = k))) c := by
  have hwindow : ∀ {part later} t, run = part ++ later → (∀ c ∈ part, c.now ≤ t) →
      Window (incrementTimes k part) (fetch (after part) k t) := by
    rintro part later t rfl ht
    have hcount : ∀ before u rest, part = before ++ ⟨.increment, k, u⟩ :: rest →
        ((fetch (after before) k u).checked u).count < maxAttempts := by
      intro before u rest hpart
      have hjust := hallowed before u (rest ++ later) (by rw [hpart]; simp)
      exact checked_count_lt (hjust.count_lt u) u
    have hinv := fetch_invariant (P := Window) (B := fun a => a.count < maxAttempts) (k := k)
      Window.new (fun _ _ _ => Window.restart) (fun _ _ _ => Window.count)
      (List.pairwise_append.mp hclock).1 hcount ht
    have hpart := sinceReset_of_no_reset fun c hc => hreset c (List.mem_append_left _ hc)
    rw [hpart] at hinv
    exact hinv.1
  refine ⟨?_, ?_, ?_⟩
  · obtain ⟨t, ht⟩ := exists_now_le run
    exact (hwindow t (List.append_nil run).symm ht).interval
  · intro before w rest later hrun hrestart
    obtain ⟨t, ht⟩ := exists_now_le (before ++ w :: rest)
    have hpart : run = (before ++ w :: rest) ++ later := by rw [hrun]; simp
    have hle := (hwindow t hpart ht).count_le
    have hrest := counted_add_le_foldl (k := k) (after (before ++ [w]))
      (fun c hc => hreset c (by rw [hrun]; simp [hc])) hrestart
    have hw := length_incrementTimes_singleton_le (k := k) (after before) w
    have hafter : after (before ++ w :: rest) = rest.foldl step (after (before ++ [w])) := by
      rw [← after_append, List.append_assoc]
      rfl
    have hlength := length_incrementTimes_cons (k := k) w rest
    rw [← counted_eq_fetch, hafter] at hle
    rw [← after_snoc] at hw
    omega
  · intro before c rest _ hk
    apply returned_congr
    rw [hk, after_filter_key]

theorem increments_bounded_signup :
    let run : List (Call String) := [⟨.checkLimit, "signup", 0⟩, ⟨.increment, "login", 1⟩,
      ⟨.increment, "signup", 2⟩]
    incrementTimes "signup" run = [2] ∧
      ∀ x, (incrementTimes "signup" run).countP (fun s => x ≤ s ∧ s ≤ x + timeWindow) ≤
        2 * maxAttempts := by
  refine ⟨by decide, (increments_bounded (by unfold NonDecreasing; decide) (by decide) ?_).1⟩
  intro before t rest h
  -- the only increment of the key is the third call
  obtain _ | ⟨a, _ | ⟨b, _ | ⟨c, before⟩⟩⟩ := before
  · simp at h
  · simp at h
  · obtain ⟨rfl, rfl, -⟩ : _ ∧ _ ∧ _ := by simpa using h
    exact ⟨[], _, [_], rfl, rfl, rfl, by decide, by decide⟩
  · simp at h

/-! ### Who is refused -/

/-- The record counts no more than the increments since its timestamp. -/
def Justified (times : List Int) (a : Attempts) : Prop :=
  a.count ≤ times.countP (fun s => a.timestamp ≤ s)

theorem Justified.count {times : List Int} {a : Attempts} {t : Int} (h : Justified times a)
    (hle : a.timestamp ≤ t) : Justified (times ++ [t]) ⟨a.count + 1, a.timestamp⟩ := by
  have hcount : a.count ≤ times.countP (fun s => a.timestamp ≤ s) := h
  rw [Justified, List.countP_append, List.countP_singleton, if_pos (decide_eq_true hle)]
  dsimp only
  omega

theorem fetch_justified {run : List (Call κ)} (hclock : NonDecreasing run) {t : Int}
    (ht : ∀ c ∈ run, c.now ≤ t) :
    Justified (incrementTimes k (sinceReset k run)) (fetch (after run) k t) :=
  (fetch_invariant (P := Justified) (B := fun _ => True) (fun _ => Nat.zero_le _)
    (fun _ _ _ _ _ => Nat.zero_le _) (fun _ _ _ h _ hle _ => h.count hle) hclock
    (fun _ _ _ _ => trivial) ht).1

/-- `checkLimit` refuses a key at `t` only if five increments of it since its last reset lie within
`timeWindow` before `t`; so once the window has passed since the last of them it allows it. -/
theorem increments_of_refused {run before rest : List (Call κ)} {t : Int}
    (hclock : NonDecreasing run) (hrun : run = before ++ ⟨.checkLimit, k, t⟩ :: rest) :
    ((checkLimit (after before) k t).1 = false →
      maxAttempts ≤ (incrementTimes k (sinceReset k before)).countP
        (fun s => t - timeWindow ≤ s ∧ s ≤ t)) ∧
    ((∀ s ∈ incrementTimes k (sinceReset k before), s + timeWindow < t) →
      (checkLimit (after before) k t).1 = true) := by
  subst hrun
  have hpairs := List.pairwise_append.mp hclock
  have hbefore : ∀ c ∈ before, c.now ≤ t := fun c hc => hpairs.2.2 c hc _ (List.mem_cons_self ..)
  have hrefused : (checkLimit (after before) k t).1 = false →
      maxAttempts ≤ (incrementTimes k (sinceReset k before)).countP
        (fun s => t - timeWindow ≤ s ∧ s ≤ t) := by
    intro hfalse
    have hcount : maxAttempts ≤ ((fetch (after before) k t).checked t).count :=
      Nat.le_of_not_lt (of_decide_eq_false hfalse)
    have hjust := fetch_justified (k := k) hpairs.1 hbefore
    set a := fetch (after before) k t
    cases he : a.expired t with
    | true =>
      rw [checked_of_expired he] at hcount
      exact absurd hcount (Nat.not_succ_le_zero 4)
    | false =>
      rw [checked_of_not_expired he] at hcount
      have hend := (not_expired_iff a t).mp he
      refine Nat.le_trans hcount (Nat.le_trans hjust (List.countP_mono_left ?_))
      intro s hs hts
      obtain ⟨c, hc, hcs⟩ := now_of_mem_incrementTimes hs
      have hst : c.now ≤ t := hbefore c (mem_of_mem_sinceReset hc)
      simp only [decide_eq_true_eq] at hts ⊢
      omega
  refine ⟨hrefused, ?_⟩
  intro hpassed
  by_contra hfalse
  have hfive := hrefused (Bool.not_eq_true _ ▸ hfalse)
  have hnone : (incrementTimes k (sinceReset k before)).countP
      (fun s => t - timeWindow ≤ s ∧ s ≤ t) = 0 := by
    rw [List.countP_eq_zero]
    intro s hs
    have hs := hpassed s hs
    simp only [decide_eq_true_eq]
    omega
  rw [hnone] at hfive
  exact absurd hfive (by decide)

theorem increments_of_refused_signup :
    let before : List (Call String) := List.replicate 5 ⟨.increment, "signup", 0⟩
    (checkLimit (after before) "signup" 7).1 = false ∧
      maxAttempts ≤ (incrementTimes "signup" (sinceReset "signup" before)).countP
        (fun s => 7 - timeWindow ≤ s ∧ s ≤ 7) := by
  have hrefused : (checkLimit (after (List.replicate 5 ⟨.increment, "signup", 0⟩))
      "signup" 7).1 = false := by decide
  have hrun : List.replicate 5 ⟨.increment, "signup", 0⟩ ++ [⟨.checkLimit, "signup", 7⟩] =
      List.replicate 5 (⟨.increment, "signup", 0⟩ : Call String) ++
        ⟨.checkLimit, "signup", 7⟩ :: [] := rfl
  exact ⟨hrefused, (increments_of_refused (by unfold NonDecreasing; decide) hrun).1 hrefused⟩

/-! ### Asking once more -/

/-- Two maps that differ at one key at most. -/
def Agree (k : κ) (l l' : Limiter κ) : Prop := ∀ k', k' ≠ k → l k' = l' k'

omit [DecidableEq κ] in
theorem Agree.eq {l l' : Limiter κ} (h : Agree k l l') (hk : l k = l' k) : l = l' := by
  funext k'
  by_cases hk' : k' = k
  · rw [hk', hk]
  · exact h k' hk'

theorem Agree.step {l l' : Limiter κ} (h : Agree k l l') (c : Call κ) :
    Agree k (step l c) (step l' c) := by
  intro k' hk'
  rw [step_apply, step_apply, h k' hk']

/-- A reset of the key removes the difference. -/
theorem Agree.step_reset {l l' : Limiter κ} (h : Agree k l l') {c : Call κ} (hk : c.key = k)
    (hop : c.operation = .reset) : RateLimiter.step l c = RateLimiter.step l' c := by
  apply (h.step c).eq
  rw [step_self _ hk, step_self _ hk, nextRecord, nextRecord, hop]

theorem Agree.foldl {l l' : Limiter κ} (h : Agree k l l') (run : List (Call κ)) :
    Agree k (run.foldl RateLimiter.step l) (run.foldl RateLimiter.step l') := by
  induction run generalizing l l' with
  | nil => exact h
  | cons c run ih => exact ih (h.step c)

theorem agree_step_self (l : Limiter κ) {c : Call κ} (h : c.key = k) : Agree k (step l c) l :=
  fun _ hk' => step_of_ne l fun hc => hk' (hc.symm.trans h)

/-- A call on two records of the same count returns the same and leaves two of the same count. -/
theorem call_same_count {l l' : Limiter κ} {c : Call κ} (hk : c.key = k)
    (hop : c.operation ≠ .reset) {a b : Attempts} (hl : l k = some a) (hl' : l' k = some b)
    {n : Nat} {t u : Int} (ha : a.checked c.now = ⟨n, t⟩) (hb : b.checked c.now = ⟨n, u⟩) :
    returned l c = returned l' c ∧
      ∃ m, step l c k = some ⟨m, t⟩ ∧ step l' c k = some ⟨m, u⟩ := by
  obtain ⟨operation, key, now⟩ := c
  obtain rfl : key = k := hk
  have hfetch : fetch l key now = a := by rw [fetch, hl]; rfl
  have hfetch' : fetch l' key now = b := by rw [fetch, hl']; rfl
  dsimp only at ha hb
  rw [step_self _ rfl, step_self _ rfl]
  cases operation with
  | checkLimit =>
    simp only [returned, checkLimit, hfetch, hfetch', ha, hb, nextRecord, hl, hl', Option.map_some]
    exact ⟨trivial, n, rfl, rfl⟩
  | increment =>
    simp only [returned, increment, hfetch, hfetch', incremented_eq, ha, hb, nextRecord, hl, hl',
      Option.getD_some]
    exact ⟨trivial, n + 1, rfl, rfl⟩
  | reset => exact absurd rfl hop

/-- A call on the key that comes before any reset of it, in the interval by which the ends of the
two windows differ. -/
def Crosses (k : κ) (t u : Int) (post : List (Call κ)) : Prop :=
  ∃ mid d rest, post = mid ++ d :: rest ∧ (∀ c ∈ mid, c.key = k → c.operation ≠ .reset) ∧
    d.key = k ∧ d.operation ≠ .reset ∧ t + timeWindow < d.now ∧ d.now ≤ u + timeWindow

omit [DecidableEq κ] in
theorem Crosses.cons {t u : Int} {post : List (Call κ)} {c : Call κ} (h : Crosses k t u post)
    (hc : c.key = k → c.operation ≠ .reset) : Crosses k t u (c :: post) := by
  obtain ⟨mid, d, rest, rfl, hmid, hd⟩ := h
  refine ⟨c :: mid, d, rest, rfl, ?_, hd⟩
  intro x hx
  rcases List.mem_cons.mp hx with rfl | hx
  · exact hc
  · exact hmid x hx

/-- Two windows of the same count that began at `t` and at `u` answer alike until a call falls
between their ends. -/
theorem outputs_eq_of_not_crosses {post : List (Call κ)} {l l' : Limiter κ} (hagree : Agree k l l')
    {n : Nat} {t u : Int} (htu : t ≤ u) (hl : l k = some ⟨n, t⟩) (hl' : l' k = some ⟨n, u⟩)
    (hpost : ¬Crosses k t u post) : outputs l post = outputs l' post := by
  induction post generalizing l l' n with
  | nil => rfl
  | cons c post ih =>
    have hrest : (c.key = k → c.operation ≠ .reset) → ¬Crosses k t u post :=
      fun hc h => hpost (h.cons hc)
    rw [outputs, outputs]
    by_cases hk : c.key = k
    · by_cases hop : c.operation = .reset
      · rw [hagree.step_reset hk hop, returned, returned, hop]
      · by_cases hlate : u + timeWindow < c.now
        · -- both windows have expired
          obtain ⟨hreturned, m, hm, hm'⟩ := call_same_count hk hop hl hl'
            (checked_of_expired ((expired_iff _ _).mpr (by dsimp only; omega)))
            (checked_of_expired ((expired_iff _ _).mpr hlate))
          rw [hreturned, (hagree.step c).eq (hm.trans hm'.symm)]
        · -- neither has, for the call does not fall between their ends
          have hnow : c.now ≤ t + timeWindow := by
            by_contra hnow
            exact hpost ⟨[], c, post, rfl, by simp, hk, hop, by omega, by omega⟩
          obtain ⟨hreturned, m, hm, hm'⟩ := call_same_count hk hop hl hl'
            (checked_of_not_expired ((not_expired_iff _ _).mpr hnow))
            (checked_of_not_expired ((not_expired_iff _ _).mpr (by dsimp only; omega)))
          rw [hreturned, ih (hagree.step c) hm hm' (hrest fun _ => hop)]
    · have hreturned : returned l c = returned l' c := returned_congr (hagree _ hk)
      rw [hreturned, ih (hagree.step c) ((step_of_ne l hk).trans hl) ((step_of_ne l' hk).trans hl')
        (hrest fun h => absurd h hk)]

/-- The next call on the key, at `u`, comes after `t` and within the window that began there, and a
call after it crosses. -/
def Moves (k : κ) (t : Int) (post : List (Call κ)) : Prop :=
  ∃ mid c rest, post = mid ++ c :: rest ∧ (∀ d ∈ mid, d.key ≠ k) ∧ c.key = k ∧
    c.operation ≠ .reset ∧ t < c.now ∧ c.now ≤ t + timeWindow ∧ Crosses k t c.now rest

omit [DecidableEq κ] in
theorem Moves.cons {t : Int} {post : List (Call κ)} {c : Call κ} (h : Moves k t post)
    (hc : c.key ≠ k) : Moves k t (c :: post) := by
  obtain ⟨mid, d, rest, rfl, hmid, hd⟩ := h
  refine ⟨c :: mid, d, rest, rfl, ?_, hd⟩
  intro x hx
  rcases List.mem_cons.mp hx with rfl | hx
  · exact hc
  · exact hmid x hx

/-- A window that has expired at `t` and one that was restarted there answer alike, unless the
restart moves a later one. -/
theorem outputs_eq_of_restarted {post : List (Call κ)} {l l' : Limiter κ} (hagree : Agree k l l')
    {a : Attempts} {t : Int} (hl : l k = some ⟨0, t⟩) (hl' : l' k = some a)
    (ha : a.expired t = true) (hclock : ∀ c ∈ post, t ≤ c.now) (hpost : ¬Moves k t post) :
    outputs l post = outputs l' post := by
  induction post generalizing l l' with
  | nil => rfl
  | cons c post ih =>
    have htc : t ≤ c.now := hclock c (List.mem_cons_self ..)
    rw [outputs, outputs]
    by_cases hk : c.key = k
    · by_cases hop : c.operation = .reset
      · rw [hagree.step_reset hk hop, returned, returned, hop]
      · have hstart := (expired_iff a t).mp ha
        have hexpired : a.checked c.now = ⟨0, c.now⟩ :=
          checked_of_expired ((expired_iff _ _).mpr (by omega))
        by_cases hlate : t + timeWindow < c.now
        · obtain ⟨hreturned, m, hm, hm'⟩ := call_same_count hk hop hl hl'
            (checked_of_expired ((expired_iff _ _).mpr hlate)) hexpired
          rw [hreturned, (hagree.step c).eq (hm.trans hm'.symm)]
        · obtain ⟨hreturned, m, hm, hm'⟩ := call_same_count hk hop hl hl'
            (checked_of_not_expired ((not_expired_iff _ _).mpr (by dsimp only; omega))) hexpired
          have hcrosses : ¬Crosses k t c.now post := by
            intro h
            rcases Int.lt_or_eq_of_le htc with hlt | heq
            · exact hpost ⟨[], c, post, rfl, by simp, hk, hop, hlt, by omega, h⟩
            · obtain ⟨_, d, _, _, _, _, _, hd, hd'⟩ := h
              omega
          rw [hreturned, outputs_eq_of_not_crosses (hagree.step c) htc hm hm' hcrosses]
    · have hreturned : returned l c = returned l' c := returned_congr (hagree _ hk)
      rw [hreturned, ih (hagree.step c) ((step_of_ne l hk).trans hl) ((step_of_ne l' hk).trans hl')
        (fun d hd => hclock d (List.mem_cons_of_mem _ hd)) fun h => hpost (h.cons hk)]

theorem outputs_append (l : Limiter κ) (run run' : List (Call κ)) :
    outputs l (run ++ run') = outputs l run ++ outputs (run.foldl step l) run' := by
  induction run generalizing l with
  | nil => rfl
  | cons c run ih => rw [List.cons_append, outputs, outputs, ih, List.foldl_cons, List.cons_append]

theorem length_outputs (l : Limiter κ) (run : List (Call κ)) :
    (outputs l run).length = run.length := by
  induction run generalizing l with
  | nil => rfl
  | cons c run ih => rw [outputs, List.length_cons, List.length_cons, ih]

/-- One more `checkLimit` at `t`, anywhere in a history, leaves what the other calls return as it
was, unless the window of the key has expired there, so that the call restarts it, and the restart
moves the end of the window past a later call.  Calls on other keys are left alone in any case. -/
theorem outputs_insert_checkLimit {pre post : List (Call κ)} {t : Int}
    (hclock : NonDecreasing (pre ++ ⟨.checkLimit, k, t⟩ :: post)) :
    (¬((∃ a, after pre k = some a ∧ a.expired t = true) ∧ Moves k t post) →
      (outputs .empty (pre ++ ⟨.checkLimit, k, t⟩ :: post)).eraseIdx pre.length =
        outputs .empty (pre ++ post)) ∧
    ∀ before c rest, post = before ++ c :: rest → c.key ≠ k →
      returned (after (pre ++ ⟨.checkLimit, k, t⟩ :: before)) c =
        returned (after (pre ++ before)) c := by
  set check : Call κ := ⟨.checkLimit, k, t⟩ with hcheck
  have hagree : Agree k (step (after pre) check) (after pre) := agree_step_self _ rfl
  have hrecord : step (after pre) check k = (after pre k).map (·.checked t) := step_self _ rfl
  have hpost : ∀ c ∈ post, t ≤ c.now :=
    (List.pairwise_cons.mp (List.pairwise_append.mp hclock).2.1).1
  refine ⟨?_, ?_⟩
  · intro hmoves
    have hsame : outputs (step (after pre) check) post = outputs (after pre) post := by
      cases hr : after pre k with
      | none => rw [hagree.eq (by rw [hrecord, hr]; rfl)]
      | some a =>
        cases he : a.expired t with
        | false =>
          rw [hagree.eq (by rw [hrecord, hr, Option.map_some, checked_of_not_expired he])]
        | true =>
          have hnew : step (after pre) check k = some ⟨0, t⟩ := by
            rw [hrecord, hr, Option.map_some, checked_of_expired he]
          exact outputs_eq_of_restarted hagree hnew hr he hpost fun h => hmoves ⟨⟨a, hr, he⟩, h⟩
    have hlength := length_outputs (.empty : Limiter κ) pre
    rw [outputs_append, outputs_append, List.eraseIdx_append_of_length_le (by omega), hlength,
      Nat.sub_self, outputs, List.eraseIdx_cons_zero]
    exact congrArg _ hsame
  · intro before c rest _ hc
    apply returned_congr
    rw [after_append, after_append, List.foldl_cons]
    exact hagree.foldl before c.key hc

theorem outputs_insert_checkLimit_first :
    (outputs .empty [⟨.checkLimit, "signup", 0⟩, ⟨.increment, "signup", 1⟩]).eraseIdx 0 =
      outputs .empty [⟨.increment, "signup", 1⟩] := by
  have hclock : NonDecreasing ([] ++ ⟨.checkLimit, "signup", 0⟩ ::
      [(⟨.increment, "signup", 1⟩ : Call String)]) := by unfold NonDecreasing; decide
  refine (outputs_insert_checkLimit hclock).1 ?_
  rintro ⟨⟨a, ha, -⟩, -⟩
  cases ha

/-- Asked a millisecond after its window has passed, the limiter starts a new one there, and the
last increment returns 1; without the question the new window starts with the increment at ten
minutes, and the last one returns 2. -/
theorem outputs_insert_checkLimit_restart :
    let pre : List (Call String) := [⟨.increment, "signup", 0⟩]
    let check : Call String := ⟨.checkLimit, "signup", timeWindow + 1⟩
    let post : List (Call String) := [⟨.increment, "signup", 2 * timeWindow⟩,
      ⟨.increment, "signup", 2 * timeWindow + 2⟩]
    NonDecreasing (pre ++ check :: post) ∧
      (outputs .empty (pre ++ check :: post)).eraseIdx pre.length ≠
        outputs .empty (pre ++ post) := by
  unfold NonDecreasing
  decide

end Artha.Client.RateLimiter
