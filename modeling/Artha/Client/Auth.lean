import Artha.Codec.Base64
import Artha.JavaScript.Json
import Artha.JavaScript.Uri

/-!
# Reading a token: `parseJwt` and `isTokenExpired` of `utils/auth.js`

`JSON.parse` is a parameter: what it returns for a text, none where it throws.
-/

namespace Artha.Client.Auth

open Binary64 Codec JavaScript

/-- `s.replace(/a/g, b)` for two characters. -/
def replaceAll (a b : UInt16) (s : JsString) : JsString := s.map fun c => if c = a then b else c

/-- `atob(s)`: the octets, each as a code unit. -/
def atob (s : JsString) : Option JsString :=
  (Base64.forgivingDecode s).map (·.map fun b => .ofNat b.toNat)

/-- `c.charCodeAt(0).toString(16)`. -/
def hexText (c : UInt16) : JsString := (Nat.toDigits 16 c.toNat).map fun d => .ofNat d.toNat

/-- `s.slice(-2)`. -/
def sliceLastTwo (s : JsString) : JsString := s.drop (s.length - 2)

/-- `'%' + ('00' + c.charCodeAt(0).toString(16)).slice(-2)`. -/
def escapeUnit (c : UInt16) : JsString := 37 :: sliceLastTwo (48 :: 48 :: hexText c)

/-- The second segment of a token, with the characters of plain base64. -/
def base64 (token : JsString) : Option JsString :=
  (token.splitOn 46)[1]?.map fun base64Url => replaceAll 95 47 (replaceAll 45 43 base64Url)

/-- The text that `parseJwt` hands to `JSON.parse`; none where it throws before. -/
def jsonPayload (token : JsString) : Option JsString :=
  (base64 token).bind fun base64 =>
    (atob base64).bind fun data => decodeURIComponent (data.flatMap escapeUnit)

/-- `exp`. -/
def expKey : JsString := [101, 120, 112]

section

variable (parse : JsString → Option Json)

/-- `parseJwt(token)`: null on every error. -/
def parseJwt (token : JsString) : Json := ((jsonPayload token).bind parse).getD .null

/-- `isTokenExpired(token)`, when the clock says `now`. -/
def isTokenExpired (token : JsString) (now : ℤ) : Bool :=
  let decoded := parseJwt parse token
  if !decoded.truthy then true
  else
    match decoded.get? expKey with
    | none => true
    | some exp =>
      if !exp.truthy then true
      else
        match exp.toNumber with
        | some x => (x.mul (.finite 1000)).lt (.finite now)
        -- the conversion throws, and the exception is caught
        | none => true

end

end Artha.Client.Auth
