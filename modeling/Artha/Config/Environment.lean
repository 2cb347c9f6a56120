import Artha.Laravel.Validator
import Mathlib.Logic.Function.Basic

/-!
# The environment

`env()` looks a variable up in `$_SERVER`, then in `$_ENV`, then in the environment of the process,
and converts the text it finds.  `putenv` writes the last of the three only.

A text is a sequence of characters; that of a file or a variable is a sequence of bytes, which is
one whose characters are below 256.  The functions here look at ASCII characters only, so the two
readings agree.
-/

namespace Artha.Config

open Php Laravel

/-- What a superglobal holds under a key: a text, or a boolean that the program put there. -/
inductive Entry where
  | text (s : String)
  | flag (b : Bool)
deriving DecidableEq, Repr

/-- The text an adapter of the repository reads. -/
def Entry.read : Entry → String
  | .text s => s
  | .flag true => "true"
  | .flag false => "false"

/-- The places `env()` looks at, in this order. -/
structure Environment where
  /-- `$_SERVER`. -/
  server : String → Option Entry
  /-- `$_ENV`. -/
  env : String → Option Entry
  /-- The environment of the process. -/
  process : String → Option String

/-- The text between two equal quotes, as `/\A(['"])(.*)\1\z/` finds it; any other text as it is. -/
def unquote (s : String) : String :=
  match s.toList with
  | [] => s
  | quote :: cs =>
    -- the point in the pattern matches everything but a line feed
    if (quote = '\x22' || quote = '\x27') && cs.getLast? = some quote && !cs.dropLast.contains '\n'
    then String.ofList cs.dropLast
    else s

/-- The value `env()` makes of a text. -/
def convert (text : String) : Value :=
  match strtolower text with
  | "true" | "(true)" => .bool true
  | "false" | "(false)" => .bool false
  | "empty" | "(empty)" => .str ""
  | "null" | "(null)" => .null
  | _ => .str (unquote text)

namespace Environment

/-- The text of a variable, if it is set. -/
def text (e : Environment) (key : String) : Option String :=
  match e.server key with
  | some entry => some entry.read
  | none =>
    match e.env key with
    | some entry => some entry.read
    | none => e.process key

/-- `env($key, $default)`. -/
def get (e : Environment) (key : String) (default : Value) : Value :=
  match e.text key with
  | some text => convert text
  | none => default

/-- `putenv("$key=$value")`. -/
def putenv (e : Environment) (key value : String) : Environment :=
  { e with process := Function.update e.process key (some value) }

/-- `$_ENV[$key] = $value; $_SERVER[$key] = $value;`. -/
def putSuperglobals (e : Environment) (key : String) (entry : Entry) : Environment :=
  { e with
    server := Function.update e.server key (some entry)
    env := Function.update e.env key (some entry) }

theorem text_putSuperglobals_of_ne (e : Environment) {key key' : String} (entry : Entry)
    (h : key' ≠ key) : (e.putSuperglobals key entry).text key' = e.text key' := by
  simp [text, putSuperglobals, Function.update_of_ne h]

theorem text_putenv_of_ne (e : Environment) {key key' : String} (value : String)
    (h : key' ≠ key) : (e.putenv key value).text key' = e.text key' := by
  simp [text, putenv, Function.update_of_ne h]

/-- What a superglobal holds hides the environment of the process. -/
theorem text_putenv_of_server (e : Environment) {key : String} (key' value : String)
    (h : (e.server key).isSome = true) : (e.putenv key' value).text key = e.text key := by
  obtain ⟨entry, hentry⟩ := Option.isSome_iff_exists.mp h
  simp [text, putenv, hentry]

end Environment

/-! ### `midtrans.env` -/

/-- `trim`. -/
def trim (cs : List Char) : String := String.ofList (trimBy isTrimBlank cs)

/-- `preg_split('/\r\n|\r|\n/', $text)`. -/
def splitLines : List Char → List (List Char)
  | [] => [[]]
  | '\r' :: '\n' :: cs => [] :: splitLines cs
  | '\r' :: cs => [] :: splitLines cs
  | '\n' :: cs => [] :: splitLines cs
  | c :: cs =>
    match splitLines cs with
    | [] => [[c]]
    | line :: lines => (c :: line) :: lines

/-- The two sides of a line with a `=`, trimmed: `explode('=', $line, 2)`. -/
def assignment (line : List Char) : Option (String × String) :=
  if line.contains '=' then
    some (trim (line.takeWhile (· ≠ '=')), trim ((line.dropWhile (· ≠ '=')).drop 1))
  -- an empty line has no `=` either
  else none

/-- The body of the loop over the lines. -/
def loadLine (e : Environment) (line : List Char) : Environment :=
  match assignment line with
  | none => e
  | some (key, value) =>
    if (Value.str key).truthy && (Value.str value).truthy && !(e.get key .null).truthy then
      e.putenv key value
    else e

/-- The loop of `AppServiceProvider::boot` over the lines of `midtrans.env`. -/
def loadFile (e : Environment) (text : String) : Environment :=
  (splitLines text.toList).foldl loadLine e

end Artha.Config
