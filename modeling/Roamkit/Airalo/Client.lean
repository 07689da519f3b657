import Roamkit.Exceptions
import Roamkit.Lib.Json

/-!
# The Airalo partner API

`AiraloClient` sends a request and gives back the JSON object of the reply, or
raises; the providers map that object to the DTOs the services work with. Every
way the exchange can end is a `HttpReply`: the client refuses to send, the server
answers with an error, the connection fails, or a body comes back.
-/

namespace Roamkit.Airalo

open Lib

/-- How one exchange with the API ends. -/
inductive HttpReply where
  /-- No request is sent: the client is not ready, or has no token. -/
  | refused (e : Exc)
  | httpError (code : Int)
  | urlError (reason : String)
  /-- The body breaks off, times out, or is no UTF-8. -/
  | broken
  | empty
  /-- `json.loads` raises. -/
  | unreadable
  | json (body : Json)

/-- `urllib.parse.quote(text, safe='')` of one byte. -/
def quoteByte (b : UInt8) : String :=
  let c := Char.ofNat b.toNat
  if c.isAlphanum ∨ c = '_' ∨ c = '.' ∨ c = '-' ∨ c = '~' then String.ofList [c]
  else
    "%" ++ String.ofList ((Nat.toDigits 16 b.toNat).leftpad 2 '0' |>.map Char.toUpper)

def quote (text : String) : String := String.join (text.toUTF8.toList.map quoteByte)

/-- `AiraloClient._request` -/
def request (method path : String) : HttpReply → Except Exc Json
  | .refused e => .error e
  | .httpError code =>
    .error (.airaloClient
      ("Airalo API returned " ++ toString code ++ " for " ++ method ++ " " ++ path))
  | .urlError reason => .error (.airaloClient ("Airalo API request failed: " ++ reason))
  | .broken => .error .transport
  | .empty => .ok (.dict [])
  | .unreadable => .error .valueError
  | .json (.dict kvs) => .ok (.dict kvs)
  | .json _ => .error (.airaloClient "Airalo API returned unexpected JSON payload")

/-- `AiraloClient.create_order` -/
def createOrder (r : HttpReply) : Except Exc Json := do
  let payload ← request "POST" "/v2/orders" r
  return payload.getD "data" (.dict [])

/-- `AiraloClient.submit_topup` -/
def submitTopup (r : HttpReply) : Except Exc Json := do
  let payload ← request "POST" "/v2/orders/topups" r
  return payload.getD "data" (.dict [])

/-- `AiraloClient.get_usage` -/
def getUsage (iccid : String) (r : HttpReply) : Except Exc Json := do
  let payload ← request "GET" ("/v2/sims/" ++ quote iccid ++ "/usage") r
  match payload.getD "data" (.dict []) with
  | .dict kvs => return .dict kvs
  | _ => return .dict []

/-- `AiraloClient.list_topups` -/
def listTopups (iccid : String) (r : HttpReply) : Except Exc (List Json) := do
  let payload ← request "GET" ("/v2/sims/" ++ quote iccid ++ "/topups") r
  match payload.getD "data" (.list []) with
  | .list items => return items
  | _ => return []

/-! ## Reading a payload -/

/-- Only an object has a `get`. -/
def requireDict (j : Json) : Except Exc Unit :=
  if j.isDict then .ok () else .error .attributeError

/-- `str(value)` -/
def text (w : Json.Writer) (j : Json) : Except Exc String :=
  match j.toStr w with
  | some s => .ok s
  | none => .error .valueError

/-- `str(payload.get(key) or default)` -/
def textOr (w : Json.Writer) (payload : Json) (key default : String) : Except Exc String :=
  text w ((payload.get key).orElse (.str default))

/-- `int(value)`; which exception it raises depends on the value. -/
def number (j : Json) : Except Exc Int :=
  match j, j.toInt with
  | _, some n => .ok n
  | .str _, none => .error .valueError
  | .float _, none => .error .valueError
  | _, none => .error .typeError

/-- `int(payload.get(key) or 0)` -/
def numberOr (payload : Json) (key : String) : Except Exc Int :=
  number ((payload.get key).orElse (.int 0))

/-- `Decimal(str(value))` -/
def decimal (w : Json.Writer) (j : Json) : Except Exc PyDecimal := do
  let s ← text w j
  match PyDecimal.ofStr s with
  | some d => .ok d
  | none => .error .invalidOperation

/-- `Decimal(str(price)) if price is not None else default` -/
def decimalOr (w : Json.Writer) (payload : Json) (key : String) (default : Option PyDecimal) :
    Except Exc (Option PyDecimal) :=
  if (payload.get key).isNull then .ok default else some <$> decimal w (payload.get key)

/-- `Decimal("0.00")` -/
def noPrice : PyDecimal := .finite ⟨0, -2⟩

/-- What a `for` loop goes through. -/
def iterate : Json → Except Exc (List Json)
  | .list xs => .ok xs
  | .str s => .ok (s.toList.map fun c => .str (String.ofList [c]))
  | .dict kvs => .ok (kvs.map fun kv => .str kv.1)
  | _ => .error .typeError

/-! ## Orders -/

structure OrderedSimDTO where
  iccid : String
  lpa : String
  matchingId : String
  qrcode : String
  qrcodeUrl : String
  directAppleInstallationUrl : String
deriving DecidableEq

structure OrderResult where
  externalOrderId : String
  code : String
  packageId : String
  customerRef : String
  currency : String
  priceUsd : PyDecimal
  manualInstallation : String
  qrcodeInstallation : String
  installationGuideUrl : String
  sims : List OrderedSimDTO
deriving DecidableEq

/-- One entry of `sims`; nothing for what is no object or has a blank ICCID. -/
def mapSim (w : Json.Writer) (sim : Json) : Except Exc (Option OrderedSimDTO) := do
  if ¬ sim.isDict then return none
  let iccid := PyText.strip (← text w (sim.getD "iccid" (.str "")))
  if iccid = "" then return none
  return some {
    iccid
    lpa := ← textOr w sim "lpa" ""
    matchingId := ← textOr w sim "matching_id" ""
    qrcode := ← textOr w sim "qrcode" ""
    qrcodeUrl := ← textOr w sim "qrcode_url" ""
    directAppleInstallationUrl := ← textOr w sim "direct_apple_installation_url" "" }

def mapSims (w : Json.Writer) : List Json → Except Exc (List OrderedSimDTO)
  | [] => .ok []
  | sim :: sims => do
    let mapped ← mapSim w sim
    let rest ← mapSims w sims
    return mapped.toList ++ rest

/-- `installation_guide_url` -/
def guideUrl (w : Json.Writer) (payload : Json) : Except Exc String :=
  let guides := (payload.get "installation_guides").orElse (.dict [])
  if guides.isDict then textOr w guides "en" "" else .ok ""

/-- `AiraloOrderProvider._map_order` -/
def mapOrder (w : Json.Writer) (payload : Json) (customerRef : String) : Except Exc OrderResult :=
  do
  requireDict payload
  let installationGuideUrl ← guideUrl w payload
  let sims ← mapSims w (← iterate ((payload.get "sims").orElse (.list [])))
  return {
    externalOrderId := ← text w (payload.getD "id" (.str ""))
    code := ← textOr w payload "code" ""
    packageId := ← textOr w payload "package_id" ""
    customerRef := ← textOr w payload "description" customerRef
    currency := ← textOr w payload "currency" "USD"
    priceUsd := (← decimalOr w payload "price" (some noPrice)).getD noPrice
    manualInstallation := ← textOr w payload "manual_installation" ""
    qrcodeInstallation := ← textOr w payload "qrcode_installation" ""
    installationGuideUrl
    sims }

/-- `AiraloOrderProvider.create_order` -/
def placeOrder (w : Json.Writer) (customerRef : String) (r : HttpReply) :
    Except Exc OrderResult := do
  mapOrder w (← createOrder r) customerRef

/-! ## Top-ups -/

structure TopupPackage where
  externalId : String
  title : String
  dataAllowance : String
  validityDays : Int
  priceUsd : PyDecimal
  netPriceUsd : Option PyDecimal
  isUnlimited : Bool
  planType : String
deriving DecidableEq

/-- `AiraloPackageProvider._resolve_is_unlimited` -/
def resolveIsUnlimited (w : Json.Writer) (package : Json) : Except Exc Bool := do
  if (package.get "is_unlimited").truthy then return true
  let data := PyText.lower (PyText.strip (← textOr w package "data" ""))
  if data = "unlimited" then return true
  let title := PyText.lower (PyText.strip (← textOr w package "title" ""))
  return PyText.contains title "unlimited"

/-- `AiraloTopupProvider._map_topup_package` -/
def mapTopupPackage (w : Json.Writer) (package : Json) : Except Exc (Option TopupPackage) := do
  requireDict package
  let externalId := PyText.strip (← text w (package.getD "id" (.str "")))
  if externalId = "" then return none
  let isUnlimited ← resolveIsUnlimited w package
  let data ← textOr w package "data" ""
  return some {
    externalId
    title := ← textOr w package "title" ""
    dataAllowance := if data = "" ∧ isUnlimited then "Unlimited" else data
    validityDays := ← numberOr package "day"
    priceUsd := (← decimalOr w package "price" (some noPrice)).getD noPrice
    netPriceUsd := ← decimalOr w package "net_price" none
    isUnlimited
    planType := ← textOr w package "type" "topup" }

def mapTopupPackages (w : Json.Writer) : List Json → Except Exc (List TopupPackage)
  | [] => .ok []
  | item :: items => do
    let mapped ← mapTopupPackage w item
    let rest ← mapTopupPackages w items
    return mapped.toList ++ rest

/-- `AiraloTopupProvider.list_topups` -/
def topupPackages (w : Json.Writer) (iccid : String) (r : HttpReply) :
    Except Exc (List TopupPackage) := do
  mapTopupPackages w (← listTopups iccid r)

structure TopupResult where
  externalOrderId : String
  code : String
  packageId : String
  iccid : String
  currency : String
  priceUsd : PyDecimal
  customerRef : String
deriving DecidableEq

/-- `AiraloTopupProvider._map_topup_result` -/
def mapTopupResult (w : Json.Writer) (payload : Json) (iccid : String) :
    Except Exc TopupResult := do
  requireDict payload
  return {
    externalOrderId := ← text w (payload.getD "id" (.str ""))
    code := ← textOr w payload "code" ""
    packageId := ← textOr w payload "package_id" ""
    iccid
    currency := ← textOr w payload "currency" "USD"
    priceUsd := (← decimalOr w payload "price" (some noPrice)).getD noPrice
    customerRef := ← textOr w payload "description" "" }

/-- `AiraloTopupProvider.submit_topup` -/
def placeTopup (w : Json.Writer) (iccid : String) (r : HttpReply) : Except Exc TopupResult := do
  mapTopupResult w (← submitTopup r) iccid

/-! ## Usage -/

structure UsageDTO where
  remainingMb : Int
  totalMb : Int
  expiredAt : Option String
  isUnlimited : Option Bool
  status : String
  remainingVoice : Int
  remainingText : Int
  totalVoice : Int
  totalText : Int
deriving DecidableEq

/-- `_usage_status` -/
def usageStatus (w : Json.Writer) (raw : Json) : Except Exc String :=
  if raw.isNull then .ok "" else PyText.strip <$> text w raw

/-- `str(value) if value is not None else None` -/
def textOrNone (w : Json.Writer) (j : Json) : Except Exc (Option String) :=
  if j.isNull then .ok none else some <$> text w j

/-- `AiraloTopupProvider._map_usage` -/
def mapUsage (w : Json.Writer) (payload : Json) : Except Exc UsageDTO := do
  let isUnlimited := payload.get "is_unlimited"
  return {
    remainingMb := ← numberOr payload "remaining"
    totalMb := ← numberOr payload "total"
    expiredAt := ← textOrNone w (payload.get "expired_at")
    isUnlimited := if isUnlimited.isNull then none else some isUnlimited.truthy
    status := ← usageStatus w (payload.get "status")
    remainingVoice := ← numberOr payload "remaining_voice"
    remainingText := ← numberOr payload "remaining_text"
    totalVoice := ← numberOr payload "total_voice"
    totalText := ← numberOr payload "total_text" }

/-- `AiraloTopupProvider.get_usage` -/
def fetchUsage (w : Json.Writer) (iccid : String) (r : HttpReply) : Except Exc UsageDTO := do
  mapUsage w (← getUsage iccid r)

end Roamkit.Airalo
