import Artha.Config.Environment

/-!
# The Midtrans settings

Four places write the same seven settings: `config/midtrans.php` from the environment,
`MidtransConfig::initialize` into the environment and then into the configuration, the loop over
`midtrans.env` in `AppServiceProvider::boot`, and the fallbacks of `MidtransHelper::__construct`.
They run in this order.
-/

namespace Artha.Config

open Php

/-- The seven settings. -/
inductive Setting where
  | serverKey | clientKey | isProduction | isSanitized | is3ds | callbackUrl | webhookUrl
deriving DecidableEq, Repr

namespace Setting

/-- The environment variable of a setting. -/
def envKey : Setting → String
  | .serverKey => "MIDTRANS_SERVER_KEY"
  | .clientKey => "MIDTRANS_CLIENT_KEY"
  | .isProduction => "MIDTRANS_IS_PRODUCTION"
  | .isSanitized => "MIDTRANS_IS_SANITIZED"
  | .is3ds => "MIDTRANS_IS_3DS"
  | .callbackUrl => "MIDTRANS_CALLBACK_URL"
  | .webhookUrl => "MIDTRANS_WEBHOOK_URL"

/-- The hard-coded entry of a setting. -/
def hardcodedEntry : Setting → Entry
  | .serverKey => .text "SB-Mid-server-43gE8qD7eYGxQzpdvvf0G-tl"
  | .clientKey => .text "SB-Mid-client-44JyAuImP_XPOzeZ"
  | .isProduction => .flag false
  | .isSanitized => .flag true
  | .is3ds => .flag true
  | .callbackUrl => .text "http://localhost:8000/payment/callback"
  | .webhookUrl => .text "http://localhost:8000/midtrans/webhook"

/-- The settings in the order of `$config`. -/
def all : List Setting :=
  [.serverKey, .clientKey, .isProduction, .isSanitized, .is3ds, .callbackUrl, .webhookUrl]

end Setting

/-- An entry as a PHP value. -/
def Entry.value : Entry → Value
  | .text s => .str s
  | .flag b => .bool b

/-- An entry inside a string. -/
def Entry.interpolate : Entry → String
  | .text s => s
  | .flag b => if b then "1" else ""

/-- The hard-coded value of a setting. -/
def Setting.hardcoded (k : Setting) : Value := k.hardcodedEntry.value

/-- `config('midtrans')`. -/
structure Settings where
  setting : Setting → Value
  apiUrl : String
  snapUrl : String

/-- `config/midtrans.php`. -/
def configFile (e : Environment) : Settings where
  setting k := e.get k.envKey k.hardcoded
  apiUrl :=
    if (e.get "MIDTRANS_IS_PRODUCTION" (.bool false)).truthy then "https://api.midtrans.com/v2"
    else "https://api.sandbox.midtrans.com/v2"
  snapUrl :=
    if (e.get "MIDTRANS_IS_PRODUCTION" (.bool false)).truthy then
      "https://app.midtrans.com/snap/snap.js"
    else "https://app.sandbox.midtrans.com/snap/snap.js"

/-! ### `MidtransConfig::initialize` -/

/-- The body of the loop over `$config`: a variable that is empty is set, in all three places. -/
def initializeSetting (e : Environment) (k : Setting) : Environment :=
  if !(e.get k.envKey .null).truthy then
    (e.putenv k.envKey k.hardcodedEntry.interpolate).putSuperglobals k.envKey k.hardcodedEntry
  else e

def initializeEnvironment (e : Environment) : Environment := Setting.all.foldl initializeSetting e

/-- `config([...])`: the seven settings are written, whatever the environment says. -/
def initializeSettings (c : Settings) : Settings := { c with setting := Setting.hardcoded }

/-! ### `AppServiceProvider::boot` -/

/-- The application once it has booted. -/
structure App where
  environment : Environment
  settings : Settings

/-- Load the configuration and boot, with the text of `midtrans.env` if the file exists. -/
def boot (e : Environment) (file : Option String) : App where
  environment :=
    match file with
    | none => initializeEnvironment e
    | some text => loadFile (initializeEnvironment e) text
  settings := initializeSettings (configFile e)

/-! ### `MidtransHelper::__construct` -/

/-- The state of a new `MidtransHelper`. -/
structure NewHelper where
  serverKey : Value
  clientKey : Value
  isProduction : Value
  baseUrl : String

/-- The first value that is not empty, in the order of the constructor. -/
def keyOf (app : App) (k : Setting) : Value :=
  if (app.settings.setting k).truthy then app.settings.setting k
  else if (app.environment.get k.envKey .null).truthy then app.environment.get k.envKey .null
  else k.hardcoded

/-- `new MidtransHelper()`. -/
def App.newHelper (app : App) : NewHelper where
  serverKey := keyOf app .serverKey
  clientKey := keyOf app .clientKey
  isProduction := app.settings.setting .isProduction
  baseUrl :=
    if (app.settings.setting .isProduction).truthy then "https://app.midtrans.com/snap/v1"
    else "https://app.sandbox.midtrans.com/snap/v1"

end Artha.Config
