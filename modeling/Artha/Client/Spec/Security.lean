import Artha.ApiController.Account
import Artha.Client.Security
import Artha.UserController.Basic

/-!
# Who can log in

An account is created through one of three validators, and the login form is checked by a fourth.
The pattern of the form is narrower than the `email` rule (no apostrophe, no non-ASCII character, a
domain with a dot and letters behind it), and `store` takes passwords of six characters where the
form wants eight units.  `canLogIn_iff` is the exact condition under which the form lets an account
in.
-/

namespace Artha.Client

open Php Laravel Regex

/-! ### Addresses -/

/-- A local part, `@`, a domain, a dot and at least two letters, over given characters. -/
def Address (isLocal isDomain isLetter : Char → Prop) (xs : List Char) : Prop :=
  ∃ l d t, xs = l ++ '@' :: (d ++ '.' :: t) ∧ (1 ≤ l.length ∧ ∀ c ∈ l, isLocal c) ∧
    (1 ≤ d.length ∧ ∀ c ∈ d, isDomain c) ∧ 2 ≤ t.length ∧ ∀ c ∈ t, isLetter c

/-- A letter of ASCII, or the Kelvin sign, whose lower case is one. -/
def isLetter (c : Char) : Bool := c.isAlpha || c == kelvin

/-- A character of a local part the form takes. -/
def isLocal (c : Char) : Bool := isLetter c || c.isDigit || "._%+-".toList.contains c

/-- A character of a domain the form takes. -/
def isDomain (c : Char) : Bool := isLetter c || c.isDigit || ".-".toList.contains c

/-- An address the form takes. -/
def LoginAddress (email : String) : Prop :=
  Address (fun c => isLocal c = true) (fun c => isDomain c = true) (fun c => isLetter c = true)
    email.toList

variable {m : CaseMapping}

/-- The pattern, read as a shape. -/
theorem rmatch_re {xs : List Char} :
    re.rmatch xs = true ↔
      Address (· ∈ localChars) (· ∈ domainChars) (· ∈ letters) xs := by
  simp only [re, RegularExpression.mul_rmatch_iff, RegularExpression.char_rmatch_iff,
    rmatch_atLeast_charClass]
  constructor
  · rintro ⟨l, _, rfl, hl, _, _, rfl, rfl, d, _, rfl, hd, _, t, rfl, rfl, ht⟩
    exact ⟨l, d, t, rfl, hl, hd, ht⟩
  · rintro ⟨l, d, t, rfl, hl, hd, ht⟩
    exact ⟨l, _, rfl, hl, ['@'], _, rfl, rfl, d, _, rfl, hd, ['.'], t, rfl, rfl, ht⟩

/-- A class that a map keeps on a text, over a part of the text. -/
theorem forall_mem_map_iff {f : Char → Char} {xs ys : List Char} {P P' : Char → Prop}
    (h : ∀ c ∈ xs, P (f c) ↔ P' c) (hys : ys ⊆ xs) :
    (∀ c ∈ ys.map f, P c) ↔ ∀ c ∈ ys, P' c := by
  rw [List.forall_mem_map]
  exact forall₂_congr fun c hc => h c (hys hc)

/-- The shape is kept and reflected by a map that keeps the two separators and the three classes. -/
theorem address_map {f : Char → Char} {xs : List Char} {P Q R P' Q' R' : Char → Prop}
    (hat : ∀ c ∈ xs, f c = '@' ↔ c = '@') (hdot : ∀ c ∈ xs, f c = '.' ↔ c = '.')
    (hP : ∀ c ∈ xs, P (f c) ↔ P' c) (hQ : ∀ c ∈ xs, Q (f c) ↔ Q' c)
    (hR : ∀ c ∈ xs, R (f c) ↔ R' c) : Address P Q R (xs.map f) ↔ Address P' Q' R' xs := by
  constructor
  · rintro ⟨l, d, t, hxs, ⟨hl, hlocal⟩, ⟨hd, hdomain⟩, ht, hletter⟩
    obtain ⟨l', xs', rfl, rfl, hxs'⟩ := List.map_eq_append_iff.mp hxs
    obtain ⟨a, xs'', rfl, ha, hxs''⟩ := List.map_eq_cons_iff.mp hxs'
    obtain ⟨d', ys, rfl, rfl, hys⟩ := List.map_eq_append_iff.mp hxs''
    obtain ⟨b, t', rfl, hb, rfl⟩ := List.map_eq_cons_iff.mp hys
    obtain rfl : a = '@' := (hat a (by simp)).mp ha
    obtain rfl : b = '.' := (hdot b (by simp)).mp hb
    rw [List.length_map] at hl hd ht
    refine ⟨l', d', t', rfl, ⟨hl, ?_⟩, ⟨hd, ?_⟩, ht, ?_⟩
    · exact (forall_mem_map_iff hP fun c hc => by simp [hc]).mp hlocal
    · exact (forall_mem_map_iff hQ fun c hc => by simp [hc]).mp hdomain
    · exact (forall_mem_map_iff hR fun c hc => by simp [hc]).mp hletter
  · rintro ⟨l, d, t, rfl, ⟨hl, hlocal⟩, ⟨hd, hdomain⟩, ht, hletter⟩
    have hat' : f '@' = '@' := (hat '@' (by simp)).mpr rfl
    have hdot' : f '.' = '.' := (hdot '.' (by simp)).mpr rfl
    have hsplit : (l ++ '@' :: (d ++ '.' :: t)).map f
        = l.map f ++ '@' :: (d.map f ++ '.' :: t.map f) := by simp [hat', hdot']
    rw [← List.length_map f] at hl hd ht
    refine ⟨l.map f, d.map f, t.map f, hsplit, ⟨hl, ?_⟩, ⟨hd, ?_⟩, ht, ?_⟩
    · exact (forall_mem_map_iff hP fun c hc => by simp [hc]).mpr hlocal
    · exact (forall_mem_map_iff hQ fun c hc => by simp [hc]).mpr hdomain
    · exact (forall_mem_map_iff hR fun c hc => by simp [hc]).mpr hletter

/-- A property of the characters of all three classes and of the separators holds of a whole
address. -/
theorem Address.forall_mem {P Q R S : Char → Prop} {xs : List Char} (h : Address P Q R xs)
    (hat : S '@') (hdot : S '.') (hP : ∀ c, P c → S c) (hQ : ∀ c, Q c → S c)
    (hR : ∀ c, R c → S c) : ∀ c ∈ xs, S c := by
  obtain ⟨l, d, t, rfl, ⟨-, hl⟩, ⟨-, hd⟩, -, ht⟩ := h
  intro c hc
  simp only [List.mem_append, List.mem_cons] at hc
  rcases hc with hc | rfl | hc | rfl | hc
  · exact hP c (hl c hc)
  · exact hat
  · exact hQ c (hd c hc)
  · exact hdot
  · exact hR c (ht c hc)

/-! ### The lower case -/

/-- The lower case of the character is in ASCII. -/
def isPlain (c : Char) : Prop := c.toNat < 128 ∨ c = kelvin

/-- The lower case of such a character. -/
def lowerPlain (c : Char) : Char := if c = kelvin then 'k' else c.toLower

theorem lowerChar_of_isPlain {c : Char} (h : isPlain c) (before after : List Char) :
    lowerChar m before c after = [lowerPlain c] := by
  unfold lowerChar lowerPlain
  by_cases hk : c = kelvin
  · subst hk
    rfl
  · have hc : c.toNat < 128 := h.resolve_right hk
    rw [if_pos hc, if_neg hk]

theorem lowerFrom_of_isPlain {cs : List Char} (h : ∀ c ∈ cs, isPlain c) (before : List Char) :
    lowerFrom m before cs = cs.map lowerPlain := by
  induction cs generalizing before with
  | nil => rfl
  | cons c cs ih =>
    rw [lowerFrom, lowerChar_of_isPlain (h c (List.mem_cons_self ..)),
      ih fun d hd => h d (List.mem_cons_of_mem _ hd)]
    rfl

/-- A text whose lower case is in ASCII has only plain characters. -/
theorem isPlain_of_lowerFrom {cs before : List Char}
    (h : ∀ d ∈ lowerFrom m before cs, d.toNat < 128) : ∀ c ∈ cs, isPlain c := by
  induction cs generalizing before with
  | nil => nofun
  | cons c cs ih =>
    simp only [lowerFrom, List.mem_append] at h
    intro d hd
    rcases List.mem_cons.mp hd with rfl | hd
    · by_contra hplain
      obtain ⟨hascii, hk⟩ := not_or.mp hplain
      obtain ⟨e, he, hbig⟩ := m.not_ascii before d cs (Nat.le_of_not_lt hascii)
      have hlower : lowerChar m before d cs = m.lower before d cs := by
        rw [lowerChar, if_neg hascii, if_neg hk]
      have hsmall := h e (.inl (by rw [hlower]; exact he))
      omega
    · exact ih (fun e he => h e (.inr he)) d hd

/-! ### The classes -/

/-- What holds of the first 128 characters and of the Kelvin sign holds of the plain ones. -/
theorem forall_isPlain {P : Char → Prop} (hascii : ∀ n < 128, P (Char.ofNat n)) (hk : P kelvin)
    {c : Char} (hc : isPlain c) : P c := by
  rcases hc with hc | rfl
  · have h := hascii c.toNat hc
    rwa [Char.ofNat_toNat] at h
  · exact hk

theorem lowerPlain_eq_at {c : Char} : isPlain c → (lowerPlain c = '@' ↔ c = '@') :=
  forall_isPlain (P := fun c => lowerPlain c = '@' ↔ c = '@') (by decide +kernel) (by decide)

theorem lowerPlain_eq_dot {c : Char} : isPlain c → (lowerPlain c = '.' ↔ c = '.') :=
  forall_isPlain (P := fun c => lowerPlain c = '.' ↔ c = '.') (by decide +kernel) (by decide)

theorem toNat_lt_of_isAlpha {c : Char} (h : c.isAlpha = true) : c.toNat < 128 := by
  rcases Bool.or_eq_true_iff.mp h with hupper | hlower
  · have hle : c.val ≤ 'Z'.val := (of_decide_eq_true hupper).2
    exact Nat.lt_of_le_of_lt (UInt32.le_iff_toNat_le.mp hle) (by decide)
  · have hle : c.val ≤ 'z'.val := of_decide_eq_true (Bool.and_eq_true_iff.mp hlower).2
    exact Nat.lt_of_le_of_lt (UInt32.le_iff_toNat_le.mp hle) (by decide)

theorem toNat_lt_of_isDigit {c : Char} (h : c.isDigit = true) : c.toNat < 128 :=
  Nat.lt_of_le_of_lt (Char.isDigit_iff_toNat.mp h).2 (by decide)

/-- A list that has the characters of ASCII with a property, where no others have it. -/
theorem mem_iff_of_ascii {cs : List Char} {p : Char → Bool} (hcs : cs.all p = true)
    (hascii : ∀ n < 128, p (Char.ofNat n) = true → Char.ofNat n ∈ cs)
    (hp : ∀ {c}, p c = true → c.toNat < 128) {c : Char} : c ∈ cs ↔ p c = true := by
  refine ⟨List.all_eq_true.mp hcs c, fun h => ?_⟩
  have hc := hascii c.toNat (hp h)
  rw [Char.ofNat_toNat] at hc
  exact hc h

theorem mem_letters {c : Char} : c ∈ letters ↔ c.isAlpha = true :=
  mem_iff_of_ascii (by decide) (by decide +kernel) toNat_lt_of_isAlpha

theorem mem_digits {c : Char} : c ∈ digits ↔ c.isDigit = true :=
  mem_iff_of_ascii (by decide) (by decide +kernel) toNat_lt_of_isDigit

theorem isAlpha_lowerPlain {c : Char} :
    isPlain c → ((lowerPlain c).isAlpha = true ↔ isLetter c = true) :=
  forall_isPlain (P := fun c => (lowerPlain c).isAlpha = true ↔ isLetter c = true)
    (by decide +kernel) (by decide)

theorem isDigit_lowerPlain {c : Char} :
    isPlain c → ((lowerPlain c).isDigit = true ↔ c.isDigit = true) :=
  forall_isPlain (P := fun c => (lowerPlain c).isDigit = true ↔ c.isDigit = true)
    (by decide +kernel) (by decide)

theorem lowerPlain_mem_letters {c : Char} (h : isPlain c) :
    lowerPlain c ∈ letters ↔ isLetter c = true :=
  mem_letters.trans (isAlpha_lowerPlain h)

/-- A class is letters, digits and a few others, which are their own lower case. -/
theorem lowerPlain_mem_class {others : List Char} {c : Char} (h : isPlain c)
    (hothers : lowerPlain c ∈ others ↔ c ∈ others) :
    lowerPlain c ∈ letters ++ digits ++ others ↔
      (isLetter c || c.isDigit || others.contains c) = true := by
  rw [List.mem_append, List.mem_append, lowerPlain_mem_letters h, mem_digits,
    isDigit_lowerPlain h, hothers, Bool.or_eq_true, Bool.or_eq_true, List.contains_iff_mem]

theorem lowerPlain_mem_localChars {c : Char} (h : isPlain c) :
    lowerPlain c ∈ localChars ↔ isLocal c = true :=
  lowerPlain_mem_class h (forall_isPlain
    (P := fun c => lowerPlain c ∈ "._%+-".toList ↔ c ∈ "._%+-".toList) (by decide +kernel)
    (by decide) h)

theorem lowerPlain_mem_domainChars {c : Char} (h : isPlain c) :
    lowerPlain c ∈ domainChars ↔ isDomain c = true :=
  lowerPlain_mem_class h (forall_isPlain
    (P := fun c => lowerPlain c ∈ ".-".toList ↔ c ∈ ".-".toList) (by decide +kernel) (by decide) h)

/-- Every character of a given list is in ASCII. -/
theorem toNat_lt_of_all {cs : List Char} (h : (cs.all fun c => c.toNat < 128) = true) :
    ∀ c ∈ cs, c.toNat < 128 :=
  fun c hc => of_decide_eq_true (List.all_eq_true.mp h c hc)

theorem isPlain_of_isLetter {c : Char} (h : isLetter c = true) : isPlain c := by
  rcases Bool.or_eq_true_iff.mp h with halpha | hk
  · exact .inl (toNat_lt_of_isAlpha halpha)
  · exact .inr (beq_iff_eq.mp hk)

/-- The characters of a class are letters, digits and a few others of ASCII. -/
theorem isPlain_of_class {others : String} (hothers : ∀ d ∈ others.toList, d.toNat < 128) {c : Char}
    (h : (isLetter c || c.isDigit || others.toList.contains c) = true) : isPlain c := by
  simp only [Bool.or_eq_true] at h
  rcases h with (hletter | hdigit) | hother
  · exact isPlain_of_isLetter hletter
  · exact .inl (toNat_lt_of_isDigit hdigit)
  · exact .inl (hothers c (List.contains_iff_mem.mp hother))

/-! ### The form -/

/-- The addresses whose lower case matches the pattern. -/
theorem validateEmail_iff {email : String} :
    validateEmail m email = true ↔ LoginAddress email := by
  have hmap : (∀ c ∈ email.toList, isPlain c) →
      (validateEmail m email = true ↔ LoginAddress email) := by
    intro hplain
    rw [validateEmail, toLowerCase, lowerFrom_of_isPlain hplain, rmatch_re]
    exact address_map (fun c hc => lowerPlain_eq_at (hplain c hc))
      (fun c hc => lowerPlain_eq_dot (hplain c hc))
      (fun c hc => lowerPlain_mem_localChars (hplain c hc))
      (fun c hc => lowerPlain_mem_domainChars (hplain c hc))
      fun c hc => lowerPlain_mem_letters (hplain c hc)
  -- on either side there are only plain characters
  constructor
  · intro h
    have hascii : ∀ d ∈ toLowerCase m email, d.toNat < 128 :=
      (rmatch_re.mp h).forall_mem (by decide) (by decide) (toNat_lt_of_all (by decide))
        (toNat_lt_of_all (by decide)) (toNat_lt_of_all (by decide))
    exact (hmap (isPlain_of_lowerFrom hascii)).mp h
  · intro h
    refine (hmap (h.forall_mem (.inl (by decide)) (.inl (by decide)) ?_ ?_ ?_)).mpr h
    · exact fun c hc => isPlain_of_class (toNat_lt_of_all (by decide)) hc
    · exact fun c hc => isPlain_of_class (toNat_lt_of_all (by decide)) hc
    · exact fun c hc => isPlain_of_isLetter hc

theorem length_le_utf16Length (s : String) : s.length ≤ utf16Length s := by
  have hsum : ∀ cs : List Char, cs.length ≤ cs.foldr (fun c n => utf16Units c + n) 0 := by
    intro cs
    induction cs with
    | nil => exact Nat.le_refl 0
    | cons c cs ih =>
      have hunits : 1 ≤ utf16Units c := by
        unfold utf16Units
        split <;> omega
      rw [List.foldr_cons, List.length_cons]
      omega
  rw [← String.length_toList]
  exact hsum s.toList

theorem utf16Length_empty : utf16Length "" = 0 := rfl

/-- The form is valid if both fields are: an address that matches is not empty, and neither is a
password that is long enough. -/
theorem isValid_iff {email password : String} :
    (validateLoginForm m email password).isValid = true ↔
      LoginAddress email ∧ 8 ≤ utf16Length password := by
  have hempty : ¬ LoginAddress "" := by
    rintro ⟨l, d, t, h, -⟩
    simp at h
  rw [← validateEmail_iff (m := m)] at hempty ⊢
  simp only [validateLoginForm, loginErrors, beq_iff_eq, List.length_append, Nat.add_eq_zero_iff]
  constructor
  · rintro ⟨hemail, hpassword⟩
    constructor
    · by_contra hno
      split at hemail
      · cases hemail
      · simp [hno] at hemail
    · by_contra hno
      split at hpassword
      · cases hpassword
      · simp [validatePassword, hno] at hpassword
  · rintro ⟨hemail, hpassword⟩
    have hne : email ≠ "" := by
      rintro rfl
      exact hempty hemail
    have hne' : password ≠ "" := by
      rintro rfl
      rw [utf16Length_empty] at hpassword
      omega
    simp [hne, hne', hemail, validatePassword, hpassword]

/-! ### Accounts -/

/-- The actions that create an account. -/
inductive AccountPath where
  | signup
  | createAccount
  | store
deriving DecidableEq, Repr

/-- The validator of the action. -/
def AccountPath.rules : AccountPath → List (Attribute × List Rule)
  | .signup => ApiController.signupRules
  | .createAccount => ApiController.createAccountRules
  | .store => UserController.storeRules

/-- The least number of characters of a password. -/
def AccountPath.minPassword : AccountPath → Nat
  | .signup | .createAccount => 8
  | .store => 6

variable {R : Rules} {path : AccountPath} {input : Value}

/-- The three validators ask the same of a password, but for its length. -/
theorem mem_rules_password (path : AccountPath) :
    (.key "password", [.required, .string, .min path.minPassword]) ∈ path.rules := by
  cases path <;> decide

/-- The e-mail address of an accepted input is a text. -/
theorem eq_str_of_email (h : accepts R input path.rules = true) :
    ∃ email, input.getD "email" .null = .str email := by
  have hline : ∃ rules, (Attribute.key "email", rules) ∈ path.rules ∧ Rule.string ∈ rules := by
    cases path with
    | signup => exact ⟨[.required, .string, .email, .max 255, .uniqueUsers], by decide, by decide⟩
    | createAccount => exact ⟨[.required, .string, .email, .max 255], by decide, by decide⟩
    | store => exact ⟨[.required, .string, .email, .max 255, .uniqueUsers], by decide, by decide⟩
  obtain ⟨rules, hrules, hstring⟩ := hline
  exact eq_str_of_accepts h rules hrules hstring

/-- The password of an accepted input is a text that is long enough, in characters. -/
theorem eq_str_of_password (h : accepts R input path.rules = true) :
    ∃ password, input.getD "password" .null = .str password ∧
      path.minPassword ≤ password.length := by
  obtain ⟨password, hpassword⟩ :=
    eq_str_of_accepts h _ (mem_rules_password path) (by simp)
  have hmin := passes_of_accepts h (mem_rules_password path)
    (show Rule.min path.minPassword ∈ _ by simp)
  refine ⟨password, hpassword, ?_⟩
  -- no rule of the attribute is a numeric one, so the characters are counted
  rw [hpassword, passes, if_neg (by simp)] at hmin
  exact of_decide_eq_true hmin

/-- For every account-creating action and every input its validator accepts: the login form takes
the e-mail address and the password exactly if the address is one of the form's and, after `store`,
the password has eight units. -/
theorem canLogIn_iff (m : CaseMapping) (h : accepts R input path.rules = true) :
    ∃ email password, input.getD "email" .null = .str email ∧
      input.getD "password" .null = .str password ∧
      ((validateLoginForm m email password).isValid = true ↔
        LoginAddress email ∧ (path = .store → 8 ≤ utf16Length password)) := by
  obtain ⟨email, hemail⟩ := eq_str_of_email h
  obtain ⟨password, hpassword, hmin⟩ := eq_str_of_password h
  refine ⟨email, password, hemail, hpassword, ?_⟩
  rw [isValid_iff]
  refine and_congr_right fun _ => ⟨fun hlong _ => hlong, fun hstore => ?_⟩
  -- eight characters are at least eight units
  have hunits := length_le_utf16Length password
  cases path with
  | store => exact hstore rfl
  | signup | createAccount => exact Nat.le_trans hmin hunits

/-! ### Accounts that are shut out -/

/-- Whoever the validator of the action accepts passes the check of the login form. -/
def CanLogIn (m : CaseMapping) (R : Rules) (path : AccountPath) : Prop :=
  ∀ input email password, accepts R input path.rules = true →
    input.getD "email" .null = .str email → input.getD "password" .null = .str password →
    (validateLoginForm m email password).isValid = true

/-- A character of an atom. -/
def isAtomChar (c : Char) : Bool :=
  c.isAlphanum || "!#$%&'*+-/=?^_`\x7b|\x7d~".toList.contains c

/-- A label of a domain: letters, digits and hyphens, with no hyphen at an end. -/
def isLabel (cs : List Char) : Bool :=
  cs.all (fun c => c.isAlphanum || c == '-') && cs.head? != some '-' && cs.getLast? != some '-'

/-- A dot-atom address: atoms with dots between them, `@`, and labels with dots between them. -/
def isDotAtomAddress (s : String) : Bool :=
  match s.toList.splitOn '@' with
  | [l, d] =>
    l.length ≤ 64 && (l.splitOn '.').all (fun atom => !atom.isEmpty && atom.all isAtomChar) &&
      (d.splitOn '.').all fun label => !label.isEmpty && isLabel label
  | _ => false

/-- Rules whose e-mail check takes exactly the dot-atom addresses. -/
def dotAtomRules : Rules := { Rules.sample with validEmail := isDotAtomAddress }

/-- Everything outside ASCII but the Kelvin sign is its own lower case. -/
def sampleCase : CaseMapping where
  lower := fun _ c _ => [c]
  not_ascii := fun _ c _ hc => ⟨c, List.mem_singleton.mpr rfl, hc⟩

/-- An account as `store` takes it. -/
def storeInput (email password : String) : Value :=
  .arr [("name", .str "C"), ("email", .str email), ("password", .str password),
    ("role", .str "Sales")]

/-- An account as `signup` takes it. -/
def signupInput (email password : String) : Value :=
  .arr [("firstname", .str "C"), ("lastname", .str "O"), ("email", .str email),
    ("password", .str password), ("role", .str "sales")]

theorem loginAddress_plain : LoginAddress "c@artha.test" :=
  ⟨"c".toList, "artha".toList, "test".toList, rfl, ⟨by decide, List.all_eq_true.mp (by decide)⟩,
    ⟨by decide, List.all_eq_true.mp (by decide)⟩, by decide, List.all_eq_true.mp (by decide)⟩

/-- The pattern knows no apostrophe. -/
theorem not_loginAddress_of_mem {email : String} (h : '\x27' ∈ email.toList) :
    ¬ LoginAddress email := by
  intro haddress
  -- a class with the apostrophe in it would be one
  have hother : ∀ {p : Char → Bool}, p '\x27' = false → ∀ c, p c = true → c ≠ '\x27' := by
    rintro p hp c hc rfl
    rw [hp] at hc
    cases hc
  exact haddress.forall_mem (S := fun c => c ≠ '\x27') (by decide) (by decide)
    (hother (by decide)) (hother (by decide)) (hother (by decide)) _ h rfl

/-- An account of `store` with eight characters in its password can log in. -/
theorem canLogIn_plain :
    (validateLoginForm sampleCase "c@artha.test" "password").isValid = true := by
  have haccepts : accepts dotAtomRules (storeInput "c@artha.test" "password")
      AccountPath.store.rules = true := by decide
  obtain ⟨email, password, hemail, hpassword, hiff⟩ := canLogIn_iff sampleCase haccepts
  obtain rfl := Value.str.inj hemail
  obtain rfl := Value.str.inj hpassword
  exact hiff.mpr ⟨loginAddress_plain, fun _ => by decide⟩

/-- An account of `store` with a password of six characters cannot, and neither can one of `signup`
with an apostrophe in its address. -/
theorem accounts_shut_out :
    ¬ CanLogIn sampleCase dotAtomRules .store ∧ ¬ CanLogIn sampleCase dotAtomRules .signup := by
  constructor
  · intro h
    have hvalid := h (storeInput "c@artha.test" "secret") _ _ (by decide) rfl rfl
    exact absurd (isValid_iff.mp hvalid).2 (by decide)
  · intro h
    have hvalid := h (signupInput "o'brien@artha.test" "password") _ _ (by decide) rfl rfl
    exact not_loginAddress_of_mem (by decide) (isValid_iff.mp hvalid).1

end Artha.Client
