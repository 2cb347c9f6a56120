import Mathlib.Computability.RegularExpressions

/-!
# Character classes and repetitions

The two forms of the usual notation for regular expressions that Mathlib's have no constructor for:
a class `[...]`, and the repetitions `*`, `+` and `{n,}`.  A repetition of a class matches the texts
that are long enough and have only characters of the class (`rmatch_atLeast_charClass`).
-/

namespace Artha.Regex

variable {α : Type}

/-- `[...]`: one of these characters. -/
def charClass (cs : List α) : RegularExpression α := (cs.map RegularExpression.char).sum

/-- `P{n,}`: `P` at least `n` times. -/
def atLeast : Nat → RegularExpression α → RegularExpression α
  | 0, P => P.star
  | n + 1, P => P * atLeast n P

variable [DecidableEq α] {cs xs : List α}

theorem rmatch_charClass : (charClass cs).rmatch xs = true ↔ ∃ c ∈ cs, xs = [c] := by
  induction cs with
  | nil =>
    have hzero : charClass ([] : List α) = 0 := rfl
    simp [hzero]
  | cons c cs ih =>
    have hadd : charClass (c :: cs) = .char c + charClass cs := rfl
    rw [hadd, RegularExpression.add_rmatch_iff, RegularExpression.char_rmatch_iff, ih,
      List.exists_mem_cons_iff]

theorem rmatch_star_charClass : (charClass cs).star.rmatch xs = true ↔ ∀ c ∈ xs, c ∈ cs := by
  rw [RegularExpression.star_rmatch_iff]
  constructor
  · rintro ⟨S, rfl, hS⟩ c hc
    obtain ⟨t, ht, hct⟩ := List.mem_flatten.mp hc
    obtain ⟨d, hd, rfl⟩ := rmatch_charClass.mp (hS t ht).2
    rw [List.mem_singleton.mp hct]
    exact hd
  · intro h
    refine ⟨xs.map fun c => [c], ?_, ?_⟩
    · induction xs with
      | nil => rfl
      | cons x xs ih =>
        rw [List.map_cons, List.flatten_cons, ← ih fun c hc => h c (List.mem_cons_of_mem _ hc)]
        rfl
    · intro t ht
      obtain ⟨c, hc, rfl⟩ := List.mem_map.mp ht
      exact ⟨List.cons_ne_nil _ _, rmatch_charClass.mpr ⟨c, h c hc, rfl⟩⟩

/-- A repeated class matches by length and by characters. -/
theorem rmatch_atLeast_charClass {n : Nat} :
    (atLeast n (charClass cs)).rmatch xs = true ↔ n ≤ xs.length ∧ ∀ c ∈ xs, c ∈ cs := by
  induction n generalizing xs with
  | zero =>
    rw [atLeast, rmatch_star_charClass]
    exact ⟨fun h => ⟨Nat.zero_le _, h⟩, fun h => h.2⟩
  | succ n ih =>
    rw [atLeast, RegularExpression.mul_rmatch_iff]
    constructor
    · rintro ⟨t, u, rfl, ht, hu⟩
      obtain ⟨c, hc, rfl⟩ := rmatch_charClass.mp ht
      obtain ⟨hlen, hall⟩ := ih.mp hu
      refine ⟨?_, ?_⟩
      · rw [List.singleton_append, List.length_cons]
        omega
      · intro d hd
        rcases List.mem_cons.mp hd with rfl | hd
        · exact hc
        · exact hall d hd
    · rintro ⟨hlen, hall⟩
      cases xs with
      | nil => exact absurd hlen (by simp)
      | cons c xs =>
        have htail : n ≤ xs.length ∧ ∀ d ∈ xs, d ∈ cs :=
          ⟨Nat.le_of_succ_le_succ hlen, fun d hd => hall d (List.mem_cons_of_mem _ hd)⟩
        exact ⟨[c], xs, rfl, rmatch_charClass.mpr ⟨c, hall c (List.mem_cons_self ..), rfl⟩,
          ih.mpr htail⟩

end Artha.Regex
