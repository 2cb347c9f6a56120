import Artha.Client.Auth

/-!
# What a token says

The payload of a token is read back: `parseJwt` undoes base64url and UTF-8 together, for every text
and every length of it, and answers null for every segment that is not the encoding of a text.
`isTokenExpired` compares what the payload says with the clock, and is wrong only about an `exp`
that is no number and does not convert to one.
-/

namespace Artha.Client.Auth

open Binary64 Codec Codec.Utf JavaScript

/-! ### The escapes -/

/-- A hexadecimal digit. -/
def hexDigit (n : Nat) : UInt16 := .ofNat (if n < 10 then 48 + n else 87 + n)

theorem hexOctet_hexDigit : ∀ i < 16, ∀ j < 16,
    hexOctet (hexDigit i) (hexDigit j) = some (.ofNat (16 * i + j)) := by
  decide

/-- The two digits of an octet, with a zero before a single one. -/
theorem escapeUnit_octet : ∀ n < 256,
    escapeUnit (.ofNat n) = [37, hexDigit (n / 16), hexDigit (n % 16)] := by
  decide +kernel

theorem unescape_escapeUnit (b : UInt8) (s : JsString) :
    unescape (escapeUnit (.ofNat b.toNat) ++ s) = (unescape s).map (.octet b :: ·) := by
  have hb := b.toNat_lt
  have hhex := hexOctet_hexDigit (b.toNat / 16) (by omega) (b.toNat % 16) (by omega)
  have hoctet : 16 * (b.toNat / 16) + b.toNat % 16 = b.toNat := by omega
  rw [hoctet, UInt8.ofNat_toNat] at hhex
  rw [escapeUnit_octet _ hb]
  simp only [List.cons_append, List.nil_append, unescape, if_true, hhex, Option.bind_some]

theorem unescape_octets (bytes : List UInt8) :
    unescape ((bytes.map fun b => UInt16.ofNat b.toNat).flatMap escapeUnit) =
      some (bytes.map .octet) := by
  induction bytes with
  | nil => rfl
  | cons b bytes ih =>
    rw [List.map_cons, List.flatMap_cons, unescape_escapeUnit, ih]
    rfl

/-- The octets of a segment are read as UTF-8. -/
theorem jsonPayload_of_decode {token segment : JsString} {bytes : List UInt8}
    (hsegment : base64 token = some segment)
    (hbytes : Base64.forgivingDecode segment = some bytes) :
    jsonPayload token = decodeItems [] 0 (bytes.map .octet) := by
  rw [jsonPayload, hsegment, Option.bind_some, atob, hbytes, Option.map_some, Option.bind_some,
    decodeURIComponent, unescape_octets, Option.bind_some]

/-! ### The segment -/

/-- A character of base64url is no dot, and the substitution makes it that of plain base64. -/
theorem character_url : ∀ n < 64, Base64.character 45 95 n ≠ 46 ∧
    (if (if Base64.character 45 95 n = 45 then 43 else Base64.character 45 95 n) = 95 then 47
      else if Base64.character 45 95 n = 45 then 43 else Base64.character 45 95 n) =
        Base64.character 43 47 n := by
  decide

theorem dot_not_mem_encodeUrl (bytes : List UInt8) : 46 ∉ Base64.encodeUrl bytes := by
  intro h
  obtain ⟨n, hn, hdot⟩ := List.mem_map.mp h
  exact (character_url n (Base64.lt_of_mem_toSextets bytes n hn)).1 hdot

theorem replaceAll_encodeUrl (bytes : List UInt8) :
    replaceAll 95 47 (replaceAll 45 43 (Base64.encodeUrl bytes)) =
      (Base64.toSextets bytes).map (Base64.character 43 47) := by
  rw [replaceAll, replaceAll, Base64.encodeUrl, List.map_map, List.map_map]
  apply List.map_congr_left
  intro n hn
  exact (character_url n (Base64.lt_of_mem_toSextets bytes n hn)).2

theorem base64_token {h : JsString} (hdot : 46 ∉ h) (bytes : List UInt8) (s : JsString) :
    base64 (h ++ 46 :: (Base64.encodeUrl bytes ++ 46 :: s)) =
      some ((Base64.toSextets bytes).map (Base64.character 43 47)) := by
  rw [base64, List.splitOn_append_cons_self_of_not_mem hdot,
    List.splitOn_append_cons_self_of_not_mem (dot_not_mem_encodeUrl bytes), List.getElem?_cons_succ,
    List.getElem?_cons_zero, Option.map_some, replaceAll_encodeUrl]

theorem jsonPayload_token {h : JsString} (hdot : 46 ∉ h) (s : JsString) (p : List Char) :
    jsonPayload (h ++ 46 :: (Base64.encodeUrl (utf8 p) ++ 46 :: s)) = some (utf16 p) := by
  rw [jsonPayload_of_decode (base64_token hdot (utf8 p) s)
    (Base64.forgivingDecode_map_character (utf8 p)), decodeItems_utf8]

variable (parse : JsString → Option Json)

/-- The text handed to `JSON.parse` is the one that was encoded, whatever stands before and after
it; a token without a second segment, with one that `atob` rejects or with one that is not UTF-8
gives null. -/
theorem parseJwt_roundtrip :
    (∀ h s p, 46 ∉ h →
      jsonPayload (h ++ 46 :: (Base64.encodeUrl (utf8 p) ++ 46 :: s)) = some (utf16 p) ∧
      ∀ v, parse (utf16 p) = some v →
        parseJwt parse (h ++ 46 :: (Base64.encodeUrl (utf8 p) ++ 46 :: s)) = v) ∧
    ∀ token, (base64 token = none ∨ ∃ segment, base64 token = some segment ∧
        (Base64.forgivingDecode segment = none ∨ ∃ bytes,
          Base64.forgivingDecode segment = some bytes ∧ ∀ p, bytes ≠ utf8 p)) →
      parseJwt parse token = .null := by
  constructor
  · intro h s p hdot
    have hpayload := jsonPayload_token hdot s p
    refine ⟨hpayload, ?_⟩
    intro v hv
    rw [parseJwt, hpayload, Option.bind_some, hv, Option.getD_some]
  · intro token hbad
    have hpayload : jsonPayload token = none := by
      rcases hbad with hmissing | ⟨segment, hsegment, hrejected | ⟨bytes, hbytes, hutf8⟩⟩
      · rw [jsonPayload, hmissing, Option.bind_none]
      · rw [jsonPayload, hsegment, Option.bind_some, atob, hrejected, Option.map_none,
          Option.bind_none]
      · rw [jsonPayload_of_decode hsegment hbytes, Option.eq_none_iff_forall_ne_some]
        intro text htext
        obtain ⟨p, hp⟩ := exists_utf8_of_decodeItems (fun _ => rfl) htext
        exact hutf8 p hp
    rw [parseJwt, hpayload, Option.bind_none, Option.getD_none]

theorem parseJwt_roundtrip_digit :
    let parse : JsString → Option Json := fun text =>
      if text = [49] then some (.number (.finite 1)) else none
    parseJwt parse ([] ++ 46 :: (Base64.encodeUrl (utf8 ['1']) ++ 46 :: [])) =
        .number (.finite 1) ∧
      parseJwt parse [] = .null := by
  intro parse
  have hroundtrip := parseJwt_roundtrip parse
  have hone := (hroundtrip.1 [] [] ['1'] (by simp)).2 (.number (.finite 1)) (if_pos (by decide))
  exact ⟨hone, hroundtrip.2 [] (Or.inl rfl)⟩

/-! ### The expiry -/

/-- The thousandfold of a number is a number. -/
theorem mul_thousand_ne_nan {x : Number} (h : x ≠ .nan) : x.mul (.finite 1000) ≠ .nan := by
  cases x with
  | nan => exact absurd rfl h
  | infinity negative =>
    rw [Number.mul, if_neg (by norm_num)]
    intro hnan
    cases hnan
  | finite v =>
    rw [Number.mul, Number.ofRat]
    split_ifs <;> exact Number.noConfusion

theorem ne_nan_of_truthy {x : Number} (h : (Json.number x).truthy = true) : x ≠ .nan := by
  rintro rfl
  cases h

/-- When a token is reported valid. -/
theorem isTokenExpired_eq_false_iff (token : JsString) (now : ℤ) :
    isTokenExpired parse token now = false ↔
      ∃ fields exp x, parseJwt parse token = .object fields ∧ fields.lookup expKey = some exp ∧
        exp.truthy = true ∧ exp.toNumber = some x ∧
        (x.mul (.finite 1000)).lt (.finite now) = false := by
  rw [isTokenExpired]
  constructor
  · intro h
    split_ifs at h with hdecoded
    cases hvalue : parseJwt parse token with
    | object fields =>
      rw [hvalue, Json.get?] at h
      cases hexp : fields.lookup expKey with
      | none =>
        rw [hexp] at h
        cases h
      | some exp =>
        rw [hexp] at h
        dsimp only at h
        split_ifs at h with htruthy
        cases hnumber : exp.toNumber with
        | none =>
          rw [hnumber] at h
          cases h
        | some x =>
          rw [hnumber] at h
          have htruthy : exp.truthy = true := by simpa using htruthy
          exact ⟨fields, exp, x, rfl, hexp, htruthy, hnumber, h⟩
    | null | bool _ | number _ | string _ | array _ =>
      rw [hvalue, Json.get?] at h
      all_goals cases h
  · rintro ⟨fields, exp, x, hdecoded, hexp, htruthy, hnumber, hlt⟩
    have hobject : (Json.object fields).truthy = true := rfl
    simp only [hdecoded, hobject, Json.get?, hexp, htruthy, hnumber, hlt, Bool.not_true,
      Bool.false_eq_true, if_false]

/-- A token is reported valid only with a numeric `exp` that is not past, exactly if its `exp` is no
number only where it is falsy, where its conversion throws, or where it converts to a number that is
past. -/
theorem isTokenExpired_fail_closed_iff (token : JsString) (now : ℤ) :
    (isTokenExpired parse token now = false →
      ∃ fields x, parseJwt parse token = .object fields ∧
        fields.lookup expKey = some (.number x) ∧
        (Number.finite now).le (x.mul (.finite 1000)) = true) ↔
    ∀ fields exp, parseJwt parse token = .object fields → fields.lookup expKey = some exp →
      exp.truthy = true → (∃ x, exp = .number x) ∨ exp.toNumber = none ∨
        ∃ x, exp.toNumber = some x ∧ (x.mul (.finite 1000)).lt (.finite now) = true := by
  rw [isTokenExpired_eq_false_iff]
  constructor
  · intro hclosed fields exp hdecoded hexp htruthy
    cases hnumber : exp.toNumber with
    | none => exact Or.inr (Or.inl rfl)
    | some x =>
      cases hlt : (x.mul (.finite 1000)).lt (.finite now) with
      | true => exact Or.inr (Or.inr ⟨x, rfl, hlt⟩)
      | false =>
        obtain ⟨fields', x', hdecoded', hexp', -⟩ :=
          hclosed ⟨fields, exp, x, hdecoded, hexp, htruthy, hnumber, hlt⟩
        obtain rfl : fields = fields' := Json.object.inj (hdecoded.symm.trans hdecoded')
        exact Or.inl ⟨x', Option.some.inj (hexp.symm.trans hexp')⟩
  · rintro hexp ⟨fields, exp, x, hdecoded, hlookup, htruthy, hnumber, hlt⟩
    rcases hexp fields exp hdecoded hlookup htruthy with ⟨x', rfl⟩ | hthrows | ⟨x', hx', hlt'⟩
    · obtain rfl : x' = x := Option.some.inj hnumber
      have hproduct := mul_thousand_ne_nan (ne_nan_of_truthy htruthy)
      refine ⟨fields, x', hdecoded, hlookup, ?_⟩
      simp [Number.le, hproduct, hlt]
    · rw [hthrows] at hnumber
      cases hnumber
    · obtain rfl : x = x' := Option.some.inj (hnumber.symm.trans hx')
      rw [hlt] at hlt'
      cases hlt'

/-- With `"exp":"abc"` a token never expires: `NaN` is not before any time. -/
theorem isTokenExpired_text :
    let p : List Char := ['\x7b', '\x22', 'e', 'x', 'p', '\x22', ':', '\x22', 'a', 'b', 'c', '\x22',
      '\x7d']
    let payload : Json := .object [(expKey, .string [97, 98, 99])]
    let parse : JsString → Option Json := fun text => if text = utf16 p then some payload else none
    let token : JsString := [] ++ 46 :: (Base64.encodeUrl (utf8 p) ++ 46 :: [])
    isTokenExpired parse token 1700000000000 = false ∧ parseJwt parse token = payload := by
  intro p payload parse token
  have hpayload : parseJwt parse token = payload := by
    have hparse : parse (utf16 p) = some payload := if_pos rfl
    rw [parseJwt, jsonPayload_token (by simp) [] p, Option.bind_some, hparse, Option.getD_some]
  refine ⟨?_, hpayload⟩
  rw [isTokenExpired_eq_false_iff]
  refine ⟨_, .string [97, 98, 99], .nan, hpayload, rfl, rfl, ?_, rfl⟩
  have hnan : stringToNumber [97, 98, 99] = .nan := by decide
  rw [Json.toNumber, hnan]

end Artha.Client.Auth
