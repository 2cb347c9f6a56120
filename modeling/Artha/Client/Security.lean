import Artha.JavaScript.Json
import Artha.Regex.Basic

/-!
# `utils/security.js`: the check of the login form

The page checks the e-mail address against a pattern and the length of the password before it sends
anything.  JavaScript's strings are sequences of UTF-16 units: a character beyond the basic plane
counts twice in a length.  For the pattern, which has only ASCII characters, units and characters
are the same.  `sanitizeInput` is the module's other export.
-/

namespace Artha.Client

open Regex

/-! ### Strings of JavaScript -/

/-- The UTF-16 units of a character. -/
def utf16Units (c : Char) : Nat := if c.toNat < 0x10000 then 1 else 2

/-- `s.length`. -/
def utf16Length (s : String) : Nat := s.toList.foldr (fun c n => utf16Units c + n) 0

/-- Unicode's lower case of the characters outside ASCII.  That of a sigma depends on the characters
before and after it. -/
structure CaseMapping where
  lower : List Char → Char → List Char → List Char
  /-- Nothing but the Kelvin sign is mapped into ASCII: the lower case of a dotted `I` is an `i`
  with a combining dot. -/
  not_ascii : ∀ before c after, 128 ≤ c.toNat → ∃ d ∈ lower before c after, 128 ≤ d.toNat

/-- The Kelvin sign. -/
def kelvin : Char := '\u212a'

/-- The lower case of a character between others. -/
def lowerChar (m : CaseMapping) (before : List Char) (c : Char) (after : List Char) : List Char :=
  if c.toNat < 128 then [c.toLower]
  else if c = kelvin then ['k']
  else m.lower before c after

/-- The lower case of the rest of a text, behind `before`. -/
def lowerFrom (m : CaseMapping) (before : List Char) : List Char → List Char
  | [] => []
  | c :: cs => lowerChar m before c cs ++ lowerFrom m (before ++ [c]) cs

/-- `s.toLowerCase()`. -/
def toLowerCase (m : CaseMapping) (s : String) : List Char := lowerFrom m [] s.toList

/-! ### The pattern -/

/-- `a-zA-Z`. -/
def letters : List Char := "abcdefghijklmnopqrstuvwxyzABCDEFGHIJKLMNOPQRSTUVWXYZ".toList

/-- `0-9`. -/
def digits : List Char := "0123456789".toList

/-- `a-zA-Z0-9._%+-`. -/
def localChars : List Char := letters ++ digits ++ "._%+-".toList

/-- `a-zA-Z0-9.-`. -/
def domainChars : List Char := letters ++ digits ++ ".-".toList

/-- `/^[a-zA-Z0-9._%+-]+@[a-zA-Z0-9.-]+\.[a-zA-Z]{2,}$/`.  There is no flag, so `$` is the end of
the text. -/
def re : RegularExpression Char :=
  atLeast 1 (charClass localChars) * (.char '@' *
    (atLeast 1 (charClass domainChars) * (.char '.' * atLeast 2 (charClass letters))))

/-! ### The checks -/

def validateEmail (m : CaseMapping) (email : String) : Bool := re.rmatch (toLowerCase m email)

def validatePassword (password : String) : Bool := password != "" && 8 ≤ utf16Length password

/-- The object `validateLoginForm` returns. -/
structure FormCheck where
  isValid : Bool
  errors : List (String × String)

/-- The errors `validateLoginForm` collects. -/
def loginErrors (m : CaseMapping) (email password : String) : List (String × String) :=
  (if email = "" then [("email", "Email is required")]
    else if !validateEmail m email then [("email", "Please enter a valid email")]
    else []) ++
  (if password = "" then [("password", "Password is required")]
    else if !validatePassword password then
      [("password", "Password must be at least 8 characters")]
    else [])

def validateLoginForm (m : CaseMapping) (email password : String) : FormCheck where
  isValid := (loginErrors m email password).length == 0
  errors := loginErrors m email password

/-! ### `sanitizeInput` -/

/-- `[<>]`. -/
def isBracket (c : UInt16) : Bool := c == 60 || c == 62

/-- `input.trim().replace(/[<>]/g, '')`. -/
def sanitizeText (s : JavaScript.JsString) : JavaScript.JsString :=
  (JavaScript.trim s).filter (!isBracket ·)

def sanitizeInput : JavaScript.Json → JavaScript.Json
  | .string s => .string (sanitizeText s)
  | input => input

end Artha.Client
