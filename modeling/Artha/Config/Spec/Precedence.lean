import Artha.Config.Boot
import Mathlib.Data.List.Nodup

/-!
# Which source of a setting wins

A setting should come from the environment, else from `midtrans.env`, else be the hard-coded one.
`MidtransConfig::initialize` writes the hard-coded values into the configuration after the
environment has been read, so they always win, and a setting is as it should be exactly where the
other sources agree with the hard-coded value (`resolves_iff`).

In the environment itself the variables that are set are kept, and `midtrans.env` is never seen:
`initialize` puts the missing ones into the superglobals, which hide what the loop sets
(`get_boot`).
-/

namespace Artha.Config

open Php

variable {e : Environment} {k : Setting}

/-! ### What should win -/

/-- The value the environment sets, if it is not empty. -/
def environmentValue (e : Environment) (k : Setting) : Option Value :=
  ((e.text k.envKey).filter (· ≠ "")).map convert

/-- The value `midtrans.env` sets: the first line that assigns the variable something. -/
def fileValue (file : Option String) (k : Setting) : Option Value :=
  file.bind fun text =>
    (((splitLines text.toList).filterMap assignment).find? fun a =>
      a.1 = k.envKey && a.2 ≠ "").map fun a => convert a.2

/-- The environment's value, else the file's, else the hard-coded one. -/
def resolved (e : Environment) (file : Option String) (k : Setting) : Value :=
  match environmentValue e k with
  | some v => v
  | none => (fileValue file k).getD k.hardcoded

/-- The setting of the booted application is the one that should win, and a new helper uses it for
its server key. -/
def Resolves (e : Environment) (file : Option String) (k : Setting) : Prop :=
  (boot e file).settings.setting k = resolved e file k ∧
    (k = .serverKey → (boot e file).newHelper.serverKey = resolved e file k)

/-! ### What wins -/

/-- The hard-coded server key is not empty, so the constructor has no use for its fallbacks. -/
theorem serverKey_newHelper (e : Environment) (file : Option String) :
    (boot e file).newHelper.serverKey = Setting.hardcoded .serverKey := by
  have hkey : (boot e file).settings.setting .serverKey = Setting.hardcoded .serverKey := rfl
  have htruthy : (Setting.hardcoded .serverKey).truthy = true := by decide
  rw [App.newHelper, keyOf, hkey, if_pos htruthy]

/-- For every environment, every content of `midtrans.env` or none, and each setting: it is resolved
as it should be exactly when the value the environment sets is the hard-coded one, or the
environment sets none and neither does the file set another. -/
theorem resolves_iff (e : Environment) (file : Option String) (k : Setting) :
    Resolves e file k ↔
      (∀ v, environmentValue e k = some v → v = k.hardcoded) ∧
        (environmentValue e k = none → ∀ v, fileValue file k = some v → v = k.hardcoded) := by
  have hresolves : Resolves e file k ↔ resolved e file k = k.hardcoded := by
    constructor
    · rintro ⟨hsetting, -⟩
      exact hsetting.symm
    · intro h
      refine ⟨h.symm, ?_⟩
      rintro rfl
      rw [serverKey_newHelper, h]
  rw [hresolves, resolved]
  cases environmentValue e k with
  | some v => simp
  | none => cases fileValue file k <;> simp

/-! ### The environment after the boot -/

/-- Between two environments, `env()` finds the same under the variable of a setting. -/
structure Keeps (k : Setting) (e e' : Environment) : Prop where
  text : e'.text k.envKey = e.text k.envKey
  server : e'.server k.envKey = e.server k.envKey

theorem Keeps.refl (e : Environment) : Keeps k e e := ⟨rfl, rfl⟩

theorem Keeps.trans {e₁ e₂ e₃ : Environment} (h : Keeps k e₁ e₂) (h' : Keeps k e₂ e₃) :
    Keeps k e₁ e₃ :=
  ⟨h'.text.trans h.text, h'.server.trans h.server⟩

theorem Keeps.get {e e' : Environment} (h : Keeps k e e') (default : Value) :
    e'.get k.envKey default = e.get k.envKey default := by
  rw [Environment.get, Environment.get, h.text]

theorem envKey_injective : Function.Injective Setting.envKey := by
  intro k k' h
  cases k <;> cases k' <;> first | rfl | exact absurd h (by decide)

theorem keeps_initializeSetting {k' : Setting} (h : k ≠ k') (e : Environment) :
    Keeps k e (initializeSetting e k') := by
  have hkey : k.envKey ≠ k'.envKey := fun heq => h (envKey_injective heq)
  unfold initializeSetting
  split
  · refine ⟨?_, ?_⟩
    · rw [Environment.text_putSuperglobals_of_ne _ _ hkey, Environment.text_putenv_of_ne _ _ hkey]
    · simp [Environment.putSuperglobals, Environment.putenv, Function.update_of_ne hkey]
  · exact .refl e

theorem keeps_foldl_initializeSetting {ks : List Setting} (h : k ∉ ks) (e : Environment) :
    Keeps k e (ks.foldl initializeSetting e) := by
  induction ks generalizing e with
  | nil => exact .refl e
  | cons k' ks ih =>
    obtain ⟨hne, hrest⟩ := not_or.mp (List.mem_cons.not.mp h)
    exact (keeps_initializeSetting hne e).trans (ih hrest _)

/-- What `env()` reads of a hard-coded entry is the hard-coded value. -/
theorem convert_read_hardcodedEntry (k : Setting) :
    convert k.hardcodedEntry.read = k.hardcoded := by
  cases k <;> decide

/-- What `initialize` leaves: a variable that is set is kept, any other is hidden by the hard-coded
entry. -/
theorem initializeEnvironment_spec (e : Environment) (k : Setting) :
    ((e.get k.envKey .null).truthy = true ∧ Keeps k e (initializeEnvironment e)) ∨
    ((e.get k.envKey .null).truthy = false ∧
      (initializeEnvironment e).server k.envKey = some k.hardcodedEntry) := by
  -- the step of `k` itself, between steps of other settings
  obtain ⟨before, behind, hsplit, hbefore, hbehind⟩ :
      ∃ before behind, Setting.all = before ++ k :: behind ∧ k ∉ before ∧ k ∉ behind := by
    have hmem : k ∈ Setting.all := by cases k <;> decide
    obtain ⟨before, behind, hsplit⟩ := List.append_of_mem hmem
    have hnodup : Setting.all.Nodup := by decide
    rw [hsplit] at hnodup
    have hmid := List.nodup_middle.mp hnodup
    rw [List.nodup_cons, List.mem_append, not_or] at hmid
    exact ⟨before, behind, hsplit, hmid.1⟩
  have hfirst := keeps_foldl_initializeSetting hbefore e
  have hlast := keeps_foldl_initializeSetting hbehind
    (initializeSetting (before.foldl initializeSetting e) k)
  unfold initializeEnvironment
  rw [hsplit, List.foldl_append, List.foldl_cons]
  cases htruthy : (e.get k.envKey .null).truthy with
  | true =>
    refine .inl ⟨rfl, hfirst.trans (Keeps.trans ?_ hlast)⟩
    rw [initializeSetting, hfirst.get, htruthy]
    exact .refl _
  | false =>
    refine .inr ⟨rfl, ?_⟩
    rw [hlast.server, initializeSetting, hfirst.get, htruthy]
    simp [Environment.putSuperglobals]

/-- The loop over the lines does not reach a variable that is set or hidden. -/
theorem keeps_loadLine {e : Environment} (line : List Char)
    (h : (e.get k.envKey .null).truthy = true ∨ (e.server k.envKey).isSome = true) :
    Keeps k e (loadLine e line) := by
  unfold loadLine
  split
  · exact .refl e
  · next key value _ =>
    split
    · next hset =>
      refine ⟨?_, rfl⟩
      by_cases hkey : k.envKey = key
      · -- the variable was empty, so it is hidden
        have hempty : (e.get k.envKey .null).truthy = false := by
          simp only [Bool.and_eq_true, Bool.not_eq_true'] at hset
          rw [hkey]
          exact hset.2
        rw [hempty] at h
        exact e.text_putenv_of_server key value (h.resolve_left Bool.false_ne_true)
      · exact e.text_putenv_of_ne value hkey
    · exact .refl e

theorem keeps_loadFile {e : Environment} (text : String)
    (h : (e.get k.envKey .null).truthy = true ∨ (e.server k.envKey).isSome = true) :
    Keeps k e (loadFile e text) := by
  have hfold : ∀ (lines : List (List Char)) (e : Environment),
      (e.get k.envKey .null).truthy = true ∨ (e.server k.envKey).isSome = true →
      Keeps k e (lines.foldl loadLine e) := by
    intro lines
    induction lines with
    | nil => exact fun e _ => .refl e
    | cons line lines ih =>
      intro e he
      have hline := keeps_loadLine line he
      refine hline.trans (ih (loadLine e line) ?_)
      rw [hline.get, hline.server]
      exact he
  exact hfold _ e h

/-- After the boot `env()` gives a setting the value it had if that is not empty, and the hard-coded
one otherwise.  No content of `midtrans.env` changes this. -/
theorem get_boot (e : Environment) (file : Option String) (k : Setting) :
    (boot e file).environment.get k.envKey .null =
      if (e.get k.envKey .null).truthy then e.get k.envKey .null else k.hardcoded := by
  have hfile : ((initializeEnvironment e).get k.envKey .null).truthy = true ∨
      ((initializeEnvironment e).server k.envKey).isSome = true →
      (boot e file).environment.get k.envKey .null
        = (initializeEnvironment e).get k.envKey .null := by
    intro he
    cases file with
    | none => rfl
    | some text => exact (keeps_loadFile text he).get .null
  rcases initializeEnvironment_spec e k with ⟨htruthy, hkeeps⟩ | ⟨hempty, hserver⟩
  · rw [if_pos htruthy, ← hkeeps.get]
    rw [← hkeeps.get] at htruthy
    exact hfile (.inl htruthy)
  · rw [if_neg (by simp [hempty])]
    have hget : (initializeEnvironment e).get k.envKey .null = k.hardcoded := by
      rw [Environment.get, Environment.text, hserver]
      exact convert_read_hardcodedEntry k
    rw [← hget]
    exact hfile (.inr (by rw [hserver]; rfl))

/-! ### A production key -/

/-- A production key in the environment. -/
def productionEnvironment : Environment where
  server := fun key =>
    if key = "MIDTRANS_SERVER_KEY" then some (.text "Mid-server-production") else none
  env := fun _ => none
  process := fun _ => none

/-- The production key is read and then overwritten by the sandbox key. -/
theorem production_key_ignored :
    ¬ ∀ (e : Environment) (file : Option String) (k : Setting), Resolves e file k := by
  intro h
  have hkey := (h productionEnvironment none .serverKey).1
  exact absurd hkey (by decide)

end Artha.Config
