import Artha.Regex.Multiline

/-!
# `setup_midtrans.php`

The script writes the Midtrans settings into `.env` and `midtrans.env`.  In an `.env` that exists it
exchanges the lines of the keys it finds; only where it finds none does it append all of them.  What
it prints is left out.
-/

namespace Artha.Config.Setup

/-- `$midtransConfig`. -/
def midtransConfig : List String :=
  ["MIDTRANS_SERVER_KEY=SB-Mid-server-43gE8qD7eYGxQzpdvvf0G-tl",
    "MIDTRANS_CLIENT_KEY=SB-Mid-client-44JyAuImP_XPOzeZ",
    "MIDTRANS_IS_PRODUCTION=false",
    "MIDTRANS_IS_SANITIZED=true",
    "MIDTRANS_IS_3DS=true",
    "MIDTRANS_CALLBACK_URL=http://localhost:8000/payment/callback",
    "MIDTRANS_WEBHOOK_URL=http://localhost:8000/midtrans/webhook"]

/-- `"{$key}="`, with the key of `explode('=', $config, 2)`. -/
def keyWord (config : String) : List Char := config.toList.takeWhile (· ≠ '=') ++ ['=']

/-- `preg_match("/^{$key}=.*/m", $envContent)`. -/
def hasKey (config : String) (envContent : List Char) : Bool :=
  Regex.matchesLine '\n' (keyWord config) true envContent

/-- `preg_replace("/^{$key}=.*/m", $config, $envContent)`. -/
def replaceKey (config : String) (envContent : List Char) : List Char :=
  Regex.replaceLine '\n' (keyWord config) config.toList .start envContent

/-- The body of the loop over `$midtransConfig`: `$envContent` and `$updated`. -/
def updateKey (state : List Char × Bool) (config : String) : List Char × Bool :=
  if hasKey config state.1 then (replaceKey config state.1, true) else state

/-- `implode("\n", $midtransConfig)`. -/
def midtransText : List Char := ['\n'].intercalate (midtransConfig.map String.toList)

/-- `.env` as it is written back. -/
def updateEnv (envContent : List Char) : List Char :=
  let state := midtransConfig.foldl updateKey (envContent, false)
  if state.2 then state.1
  else state.1 ++ ("\n# Midtrans Configuration\n".toList ++ (midtransText ++ ['\n']))

/-- The `.env` that is written where there was none. -/
def newEnv : List Char :=
  ("APP_NAME=Laravel\nAPP_ENV=local\nAPP_DEBUG=true\nAPP_URL=http://localhost:8000\n\n" ++
    "# Midtrans Configuration\n").toList ++ (midtransText ++ ['\n'])

/-- The two files, where they exist. -/
structure Files where
  env : Option (List Char)
  midtransEnv : Option (List Char)

/-- A run of the script. -/
def setupMidtrans (files : Files) : Files where
  env :=
    match files.env with
    | some envContent => some (updateEnv envContent)
    | none => some newEnv
  midtransEnv := some midtransText

end Artha.Config.Setup
