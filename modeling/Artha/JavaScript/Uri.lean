import Artha.Codec.Utf
import Artha.JavaScript.Number

/-!
# `decodeURIComponent`

The decoding is in two passes: `unescape` reads the escapes `%xx` of the text, `decodeItems` puts
the octets together to characters.  Every failure is a `URIError`, so it does not matter which of
two comes first.  Of octets alone it reads exactly the well-formed UTF-8 (`decodeItems_utf8`,
`exists_utf8_of_decodeItems`).
-/

namespace Artha.JavaScript

open Codec.Utf

/-- A code unit as it stands, or an escaped octet. -/
inductive Item where
  | unit (c : UInt16)
  | octet (b : UInt8)

/-- The octet of two hexadecimal digits. -/
def hexOctet (x y : UInt16) : Option UInt8 :=
  if isDigit 16 x ∧ isDigit 16 y then some (.ofNat (ofDigits 16 [x, y])) else none

/-- The escapes of a text; a `%` without two hexadecimal digits after it is an error. -/
def unescape : JsString → Option (List Item)
  | [] => some []
  | c :: s =>
    if c = 37 then
      match s with
      | x :: y :: s => (hexOctet x y).bind fun b => (unescape s).map (.octet b :: ·)
      | _ => none
    else (unescape s).map (.unit c :: ·)

/-- The code units of the character that the octets encode, before the rest. -/
def prependOctets (octets : List UInt8) (rest : Option JsString) : Option JsString :=
  (decodeOctets octets).bind fun c => rest.map (utf16Char c ++ ·)

/-- The characters, where `octets` have been read of one and `missing` more belong to it.  The first
octet says how many there are. -/
def decodeItems (octets : List UInt8) (missing : Nat) : List Item → Option JsString
  | [] => if missing = 0 then some [] else none
  | .unit c :: items => if missing = 0 then (decodeItems [] 0 items).map (c :: ·) else none
  | .octet b :: items =>
    match missing with
    | 0 =>
      if leadingOnes b = 0 then prependOctets [b] (decodeItems [] 0 items)
      else if leadingOnes b = 1 ∨ 4 < leadingOnes b then none
      else decodeItems [b] (leadingOnes b - 1) items
    | 1 => prependOctets (octets ++ [b]) (decodeItems [] 0 items)
    | missing + 2 => decodeItems (octets ++ [b]) (missing + 1) items

/-- `decodeURIComponent(s)`; none is a `URIError`. -/
def decodeURIComponent (s : JsString) : Option JsString := (unescape s).bind (decodeItems [] 0)

/-! ### Octets alone -/

theorem prependOctets_eq_some {octets : List UInt8} {rest : Option JsString} {text : JsString}
    (h : prependOctets octets rest = some text) :
    ∃ c text', String.utf8EncodeChar c = octets ∧ rest = some text' := by
  obtain ⟨c, hc, hrest⟩ := Option.bind_eq_some_iff.mp h
  obtain ⟨text', htext', -⟩ := Option.map_eq_some_iff.mp hrest
  exact ⟨c, text', decodeOctets_eq_some_iff.mp hc, htext'⟩

theorem prependOctets_utf8EncodeChar (c : Char) (rest : Option JsString) :
    prependOctets (String.utf8EncodeChar c) rest = rest.map (utf16Char c ++ ·) := by
  rw [prependOctets, decodeOctets_eq_some_iff.mpr rfl, Option.bind_some]

/-- The octets of a character are read together. -/
theorem decodeItems_utf8EncodeChar (c : Char) (items : List Item) :
    decodeItems [] 0 ((String.utf8EncodeChar c).map .octet ++ items) =
      (decodeItems [] 0 items).map (utf16Char c ++ ·) := by
  rw [← prependOctets_utf8EncodeChar]
  rcases utf8EncodeChar_cases c with ⟨b₁, h, hb⟩ | ⟨b₁, b₂, h, hb⟩ | ⟨b₁, b₂, b₃, h, hb⟩ |
    ⟨b₁, b₂, b₃, b₄, h, hb⟩
  · simp [h, decodeItems, hb]
  · simp [h, decodeItems, hb]
  · simp [h, decodeItems, hb]
  · simp [h, decodeItems, hb]

theorem utf8_cons (c : Char) (p : List Char) : utf8 (c :: p) = String.utf8EncodeChar c ++ utf8 p :=
  rfl

theorem decodeItems_utf8 (p : List Char) :
    decodeItems [] 0 ((utf8 p).map .octet) = some (utf16 p) := by
  induction p with
  | nil => rfl
  | cons c p ih =>
    rw [utf8_cons, List.map_append, decodeItems_utf8EncodeChar, ih]
    rfl

/-- What is read was the encoding of some text: `octets` begin its first character. -/
theorem exists_utf8_of_decodeItems {bytes octets : List UInt8} {missing : Nat} {text : JsString}
    (hstart : missing = 0 → octets = [])
    (h : decodeItems octets missing (bytes.map .octet) = some text) :
    ∃ p, octets ++ bytes = utf8 p := by
  induction bytes generalizing octets missing text with
  | nil =>
    rw [List.map_nil, decodeItems] at h
    split_ifs at h with hmissing
    exact ⟨[], by rw [hstart hmissing]; rfl⟩
  | cons b bytes ih =>
    -- a character is complete with `b`
    have hcomplete : ∀ {octets : List UInt8}, prependOctets (octets ++ [b])
        (decodeItems [] 0 (bytes.map .octet)) = some text → ∃ p, octets ++ b :: bytes = utf8 p := by
      intro octets hprepend
      obtain ⟨c, text', hc, hrest⟩ := prependOctets_eq_some hprepend
      obtain ⟨p, hp⟩ := ih (fun _ => rfl) hrest
      refine ⟨c :: p, ?_⟩
      rw [utf8_cons, hc, ← hp, List.nil_append, List.append_assoc, List.singleton_append]
    rcases missing with _ | _ | missing
    · obtain rfl := hstart rfl
      rw [List.map_cons, decodeItems] at h
      split_ifs at h with hzero hinvalid
      · exact hcomplete h
      · have hne : leadingOnes b - 1 = 0 → [b] = [] := by
          intro hle
          omega
        exact ih hne h
    · exact hcomplete h
    · obtain ⟨p, hp⟩ := ih (fun hzero => absurd hzero (Nat.succ_ne_zero _)) h
      exact ⟨p, by rw [← hp, List.append_assoc, List.singleton_append]⟩

end Artha.JavaScript
