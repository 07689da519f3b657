import Roamkit.Airalo.Client
import Roamkit.Lib.Raises
import Roamkit.Lib.Table
import Roamkit.Values

/-!
# eSIMs by the serial of a device

A device names its serial. UEM, which has an inventory of the devices, is asked for a token
and then for the devices it has; the device with the serial names the ICCID of its SIM, and
that is the eSIM's. Nothing is written but the token, which is kept for the next call.
-/

namespace Roamkit.Organizations

open Lib

/-! ## What is asked -/

/-- How an exchange with an endpoint ends. -/
inductive Answer where
  /-- The last answer, behind any redirection, with its whole body. -/
  | reply (code : Nat) (body : ByteArray)
  /-- `URLError` -/
  | urlError (reason : String)
  /-- Any other way, of which `urllib` makes no `URLError`: a time-out or a connection that ends
  while the answer is read, or a URL that it does not take. -/
  | broken

/-- `settings.BLACKBERRY_UEM_…` -/
structure UemSettings where
  enabled : Bool
  tenantId : String
  host : String
  clientId : String
  clientSecret : String
  tokenUrl : String
deriving DecidableEq

/-- `_TokenCache`; any value that is not falsy is a token. -/
structure TokenCache where
  accessToken : Json
  expiresAt : Time

/-- What one call has to go by. -/
structure UemCall where
  writer : Json.Writer
  reader : JsonReader
  settings : UemSettings
  now : Time
  /-- What the token endpoint answers, where it is asked. -/
  tokenAnswer : Answer
  /-- What the endpoint of the devices answers, where it is asked. -/
  devicesAnswer : Answer

/-! ## The client -/

/-- The fields of a `BlackberryUemClient` made without arguments. -/
structure UemClient where
  tenantId : String
  host : String
  clientId : String
  clientSecret : String
  tokenUrl : String
deriving DecidableEq

/-- `BlackberryUemClient.__init__` -/
def UemSettings.client (s : UemSettings) : UemClient :=
  let tenantId := PyText.strip s.tenantId
  let configuredToken := PyText.strip s.tokenUrl
  { tenantId
    host := String.ofList ((PyText.strip s.host).toList.rdropWhile (· = '/'))
    clientId := PyText.strip s.clientId
    clientSecret := PyText.strip s.clientSecret
    tokenUrl :=
      if configuredToken ≠ "" then configuredToken
      else if tenantId ≠ "" then "https://idp.blackberry.com/op/tenant/" ++ tenantId ++ "/token"
      else "" }

/-- The settings that a client lacks. -/
def UemClient.missing (c : UemClient) : List String :=
  ([("BLACKBERRY_UEM_TENANT_ID", c.tenantId), ("BLACKBERRY_UEM_HOST", c.host),
    ("BLACKBERRY_UEM_CLIENT_ID", c.clientId), ("BLACKBERRY_UEM_CLIENT_SECRET", c.clientSecret),
    ("token_url", c.tokenUrl)].filter (·.2 = "")).map (·.1)

/-- `_ensure_ready` -/
def ensureReady (s : UemSettings) : Except Exc Unit :=
  if ¬ s.enabled then
    .error
      (.blackberryUemClient "BlackBerry UEM integration is disabled (BLACKBERRY_UEM_ENABLED=false)")
  else if s.client.missing ≠ [] then
    .error (.blackberryUemClient
      ("BlackBerry UEM is not configured: " ++ String.intercalate ", " s.client.missing))
  else .ok ()

/-- A URL is opened and its answer read, as the client does it twice: an error of HTTP and a
`URLError` are translated, and no body at all is an empty object. -/
def fetch (r : JsonReader) (returned : Nat → String) (failed : String) : Answer → Except Exc Json
  | .reply code body =>
    if code < 200 ∨ 300 ≤ code then .error (.blackberryUemClient (returned code))
    else
      match String.fromUTF8? body with
      | none => .error .valueError
      | some raw =>
        if raw = "" then .ok (.dict [])
        else
          match r.loads raw with
          | none => .error .valueError
          | some parsed => .ok parsed
  | .urlError reason => .error (.blackberryUemClient (failed ++ reason))
  | .broken => .error .transport

/-- Goes on where a check holds. -/
def require (holds : Bool) (otherwise : Exc) : Except Exc Unit :=
  if holds then .ok () else .error otherwise

/-! ## The token -/

/-- The token of an answer: none, when it is no object. -/
def accessToken (parsed : Json) : Json := if parsed.isDict then parsed.get "access_token" else .null

/-- `int(parsed.get("expires_in") or 3600)` -/
def expiresIn (parsed : Json) : Except Exc Int :=
  Airalo.number ((parsed.get "expires_in").orElse (.int 3600))

/-- How long a token is kept, in seconds. -/
def lifetime (expiresIn : Int) : Int := max (expiresIn - 60) 60

/-- A positive `int` can be added to a `float`: it is not rounded beyond the greatest one. -/
def fitsFloat (n : Int) : Bool := n < 2 ^ 1024 - 2 ^ 970

/-- The cached token may be used. -/
def TokenCache.isValid (cache : TokenCache) (now : Time) : Bool :=
  cache.accessToken.truthy && now < cache.expiresAt

variable (u : UemCall) (w : Json.Writer)

/-- What is read of an answer of the token endpoint. -/
def tokenReply : Except Exc (Json × Int) := do
  let parsed ← fetch u.reader (fun code => "UEM token endpoint returned " ++ toString code)
    "UEM token request failed: " u.tokenAnswer
  require (accessToken parsed).truthy
    (.blackberryUemClient "UEM token response missing access_token")
  let expiresIn ← expiresIn parsed
  return (accessToken parsed, expiresIn)

/-- `_get_access_token` -/
def getAccessToken (cache : TokenCache) : Except Exc Json × TokenCache :=
  if cache.isValid u.now then (.ok cache.accessToken, cache)
  else
    match tokenReply u with
    | .error e => (.error e, cache)
    | .ok (token, expiresIn) =>
      -- the token is put in the cache before the time it ends is found
      if fitsFloat (lifetime expiresIn) then
        (.ok token, ⟨token, u.now + seconds (lifetime expiresIn)⟩)
      else (.error .overflowError, ⟨token, cache.expiresAt⟩)

/-! ## The devices -/

/-- `http.client` sends a header's value in Latin-1, with no line break but before a blank. -/
def hasLegalBreaks : List Char → Bool
  | [] => true
  | '\n' :: rest => (rest.head?.any fun c => c = ' ' ∨ c = '\t') && hasLegalBreaks rest
  | '\r' :: rest => (rest.head?.any fun c => c = ' ' ∨ c = '\t' ∨ c = '\n') && hasLegalBreaks rest
  | _ :: rest => hasLegalBreaks rest

def isLegalHeader (value : String) : Bool :=
  (value.toList.all fun c => c.toNat < 256) && hasLegalBreaks value.toList

/-- `f"Bearer {token}"`, sent as a header. -/
def sendToken (token : Json) : Except Exc Unit := do
  let token ← Airalo.text w token
  require (isLegalHeader ("Bearer " ++ token)) .valueError

/-- `_request("GET", "/devices")`, with its token at hand -/
def requestDevices (token : Json) : Except Exc Json := do
  sendToken u.writer token
  let parsed ← fetch u.reader
    (fun code => "UEM API returned " ++ toString code ++ " for GET /devices")
    "UEM API request failed: " u.devicesAnswer
  require parsed.isDict (.blackberryUemClient "UEM API returned unexpected JSON payload")
  return parsed

/-- The objects in the list of the payload. -/
def devicesOf (payload : Json) : Except Exc (List Json) :=
  match payload.get "devices" with
  | .list devices => .ok (devices.filter (·.isDict))
  | _ => .error (.blackberryUemClient "UEM /devices response missing devices list")

/-- `list_devices` -/
def listDevices (cache : TokenCache) : Except Exc (List Json) × TokenCache :=
  match ensureReady u.settings with
  | .error e => (.error e, cache)
  | .ok () =>
    let (token, cache) := getAccessToken u cache
    (do
      let token ← token
      let payload ← requestDevices u token
      devicesOf payload, cache)

/-- `str(value.get(key) or "").strip()` -/
def stripped (value : Json) (key : String) : Except Exc String :=
  PyText.strip <$> Airalo.textOr w value key ""

/-- `str(device.get("serialNumber") or "").strip() == serial` -/
def hasSerial (serial : String) (device : Json) : Except Exc Bool := do
  let serialNumber ← stripped w device "serialNumber"
  return serialNumber = serial

/-- The device that has the serial, where one has. -/
def oneMatch : List Json → Except Exc Json
  | [] => .error (.blackberryUemClient "UEM serialNumber match count is 0 (fail closed)")
  | [device] => .ok device
  | devices =>
    .error (.blackberryUemClient
      ("UEM serialNumber match count is " ++ toString devices.length ++ " (fail closed)"))

/-- `get_device_by_serial` -/
def getDeviceBySerial (cache : TokenCache) (serialNumber : String) :
    Except Exc Json × TokenCache :=
  let serial := PyText.strip serialNumber
  if serial = "" then (.error (.blackberryUemClient "UEM serialNumber is required"), cache)
  else
    let (devices, cache) := listDevices u cache
    (do
      let devices ← devices
      let hits ← devices.filterM (hasSerial u.writer serial)
      oneMatch hits, cache)

/-! ## From the serial to the eSIM -/

/-- The handler of `resolve_uem_device_by_serial`, which goes by the text of the message. -/
def asSerialMatch : Exc → Exc
  | .blackberryUemClient msg =>
    if PyText.contains msg "match count is 0" then .deviceNotFound "Device not found in UEM."
    else if PyText.contains msg "match count is" then
      .deviceAmbiguous "Multiple UEM devices match this serial."
    else .uemSerialMatch msg
  | e => e

/-- `resolve_uem_device_by_serial` -/
def resolveUemDeviceBySerial (cache : TokenCache) (serialNumber : String) :
    Except Exc Json × TokenCache :=
  let serial := PyText.strip serialNumber
  if serial = "" then (.error (.deviceNotFound "Device not found in UEM."), cache)
  else if ¬ u.settings.enabled then
    (.error (.uemSerialMatch "BlackBerry UEM integration is disabled"), cache)
  else
    let (device, cache) := getDeviceBySerial u cache serial
    (device.mapError asSerialMatch, cache)

/-- The ICCIDs of the list, without the blank ones. -/
def simIccids (sims : List Json) : Except Exc (List String) := do
  let iccids ← (sims.filter (·.isDict)).mapM (stripped w · "iccid")
  return iccids.filter (· ≠ "")

/-- What the list of SIMs must be like for the ICCID to be taken. -/
def checkSims (iccid : String) : Json → Except Exc Unit
  | .null => .ok ()
  | .list sims => do
    require (!sims.isEmpty) (.uemInventoryUnavailable "UEM telephony inventory unavailable")
    let iccids ← simIccids w sims
    require (iccid ∈ iccids)
      (.uemInventoryUnavailable "UEM top-level ICCID not present in sims inventory")
  | _ => .error (.uemInventoryUnavailable "UEM telephony inventory unavailable")

/-- `resolve_top_level_iccid` -/
def resolveTopLevelIccid (device : Json) : Except Exc String := do
  require device.isDict (.uemInventoryUnavailable "UEM device record unavailable")
  let iccid ← stripped w device "iccid"
  require (iccid ≠ "") (.uemInventoryUnavailable "UEM telephony inventory unavailable")
  checkSims w iccid (device.get "sims")
  return iccid

/-- The columns of `Esim` the look-up reads. That the ICCID is unique is left out: the code counts
the rows. -/
structure EsimRow where
  id : Nat
  iccid : String
  archivedAt : Option Time
deriving DecidableEq

instance : Constraint EsimRow where
  clash e f := e.id = f.id
  symm := Eq.symm
  decClash _ _ := inferInstance

/-- The database takes no text with a NUL in it. -/
def isStorable (text : String) : Bool := !text.toList.contains '\x00'

/-- `_esim_for_iccid` -/
def esimForIccid (esims : Table EsimRow) (iccid : String) : Except Exc EsimRow :=
  if ¬ isStorable iccid then .error .data
  else
    match esims.rows.filter fun e => e.iccid = iccid ∧ e.archivedAt = none with
    | [] => .error (.iccidNotFound "No RoamKit data for this ICCID.")
    | [esim] => .ok esim
    | _ => .error (.iccidAmbiguous "Multiple RoamKit eSIMs match this ICCID.")

/-- The handler of `_resolve_esim_by_serial`. -/
def asUnavailable : Exc → Exc
  | .uemSerialMatch _ => .uemInventoryUnavailable "UEM telephony inventory unavailable"
  | e => e

/-- `_resolve_esim_by_serial` -/
def resolveEsimBySerial (esims : Table EsimRow) (cache : TokenCache) (deviceSerial : String) :
    Except Exc EsimRow × TokenCache :=
  let serial := PyText.strip deviceSerial
  if serial = "" then (.error (.deviceNotFound "Device not found in UEM."), cache)
  else
    let (device, cache) := resolveUemDeviceBySerial u cache serial
    (do
      let device ← device.mapError asUnavailable
      let iccid ← resolveTopLevelIccid u.writer device
      esimForIccid esims iccid, cache)

end Roamkit.Organizations
