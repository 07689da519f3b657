import Roamkit.Airalo.Client

/-!
# The package catalogue of Airalo

`AiraloPackageProvider`: the rows of the local and of the global answer are merged, a row
whose key has come before is left out, and what is left is mapped to one DTO a package. A row
is a location with operators, or an operator. What Python knows of letters and of floating
point is given by a `Python`.
-/

namespace Roamkit.Airalo

open Lib

/-- What the mapping asks of Python's letters and numbers. -/
structure Python where
  writer : Json.Writer
  /-- `str.lower`, -/
  lower : String → String
  /-- `str.upper`, -/
  upper : String → String
  /-- `str.isalpha` of a text -/
  isAlpha : String → Bool
  /-- and `str.isalnum` of a character. -/
  isAlnum : Char → Bool
  /-- `float(n)`, but for an `OverflowError`; -/
  floatOfInt : Int → Option PyFloat
  /-- `float(s)`, but for a `ValueError`; -/
  floatOfText : String → Option PyFloat
  /-- `f"{x:g}"` -/
  general : PyFloat → String

structure Network where
  name : String
  types : List String
deriving DecidableEq

structure Coverage where
  code : String
  name : String
  networks : List Network
deriving DecidableEq

structure PackageDTO where
  externalId : String
  title : String
  operatorTitle : String
  operatorId : String
  countryCode : String
  dataAllowance : String
  validityDays : Int
  priceUsd : PyDecimal
  netPriceUsd : Option PyDecimal
  isUnlimited : Bool
  planType : String
  voiceMinutes : Option Int
  textSms : Option Int
  locationSlug : String
  locationTitle : String
  locationImageUrl : String
  coverageType : String
  coveredCountryCodes : List String
  coverages : List Coverage
  activationPolicy : String
deriving DecidableEq

/-- `key in item` -/
def hasKey (item : Json) (key : String) : Except Exc Bool :=
  match item with
  | .dict _ => .ok (item.find? key).isSome
  | .list xs => .ok (xs.any fun x => match x with | .str s => s = key | _ => false)
  | .str s => .ok (PyText.contains s key)
  | _ => .error .typeError

/-- `str(payload.get(key) or "").strip()` -/
def strippedOr (w : Json.Writer) (payload : Json) (key : String) : Except Exc String :=
  PyText.strip <$> textOr w payload key ""

/-! ## Places -/

def coverageLocal : String := "local"
def coverageRegional : String := "regional"
def coverageGlobal : String := "global"

/-- `_GLOBAL_LOCATION_SLUG_ALIASES` -/
def globalSlugAliases : List String :=
    ["world", "global", "worldwide", "discover", "discover-global"]

/-- `_normalize_location_slug` -/
def normalizeLocationSlug (py : Python) (slug : String) : String :=
  let slug := py.lower (PyText.strip slug)
  if slug ∈ globalSlugAliases then "global" else slug

/-- `_normalize_iso2` -/
def normalizeIso2 (py : Python) (code : String) : String :=
  let normalized := PyText.strip (py.upper code)
  if normalized.length = 2 ∧ py.isAlpha normalized then normalized else ""

/-- `_resolve_coverage_type` -/
def resolveCoverageType (py : Python) (operatorType locationSlug countryCode : String) : String :=
  if normalizeLocationSlug py locationSlug = "global" then coverageGlobal
  else
    let type := py.lower (PyText.strip operatorType)
    if type = "local" then coverageLocal
    else if type ∈ ["global", "worldwide", "regional", "region"] then coverageRegional
    else if countryCode = "" then coverageRegional
    else coverageLocal

/-- `text.strip("-")` -/
def stripDashes (cs : List Char) : List Char :=
  ((cs.dropWhile (· = '-')).reverse.dropWhile (· = '-')).reverse

/-- `_fallback_slug` -/
def fallbackSlug (py : Python) (coverageType countryCode operatorTitle : String) : String :=
  if coverageType = coverageGlobal then "global"
  else if countryCode ≠ "" then py.lower countryCode
  else
    let dashed := (PyText.strip operatorTitle).toList.flatMap fun ch =>
      if py.isAlnum ch then (py.lower (String.ofList [ch])).toList else ['-']
    let slug := String.ofList (stripDashes dashed)
    if slug = "" then "unknown" else slug

/-- `_extract_image_url` -/
def extractImageUrl (py : Python) (image : Json) : Except Exc String :=
  match image with
  | .dict _ => strippedOr py.writer image "url"
  | .str s => .ok (PyText.strip s)
  | _ => .ok ""

/-- `_primary_country_code` -/
def primaryCountryCode (py : Python) (countries : Json) : Except Exc String :=
  if ¬ countries.truthy then .ok ""
  else
    match countries with
    | .list (country :: _) => do
      requireDict country
      return py.upper (← text py.writer (country.getD "country_code" (.str "")))
    | .dict _ => .error .keyError
    | .str _ => .error .attributeError
    | _ => .error .typeError

/-- `_covered_country_codes`, from the codes before. -/
def coveredCountryCodes (py : Python) (codes : List String) : List Json → Except Exc (List String)
  | [] => .ok codes
  | country :: countries =>
    if ¬ country.isDict then coveredCountryCodes py codes countries
    else do
      let code := PyText.strip (py.upper (← textOr py.writer country "country_code" ""))
      coveredCountryCodes py (if code = "" ∨ code ∈ codes then codes else codes ++ [code]) countries

/-! ## Coverages -/

/-- Put a value under its key into an ordered `dict`, or change the one that is there. -/
def mergeUnder {α : Type} (key : String) (new : α) (change : α → α) :
    List (String × α) → List (String × α)
  | [] => [(key, new)]
  | (k, x) :: rest =>
      if k = key then (k, change x) :: rest else (k, x) :: mergeUnder key new change rest

/-- Append what is not there. -/
def addMissing (xs more : List String) : List String :=
  more.foldl (fun xs x => if x ∈ xs then xs else xs ++ [x]) xs

/-- `_merge_networks` -/
def mergeNetworks (py : Python) (existing incoming : List Network) : List Network :=
  let byName := (existing ++ incoming).foldl (fun byName network =>
    let name := PyText.strip network.name
    if name = "" then byName
    else
      let types := (network.types.map PyText.strip).filter (· ≠ "")
      mergeUnder (py.lower name) ⟨name, types⟩
        (fun n => { n with types := addMissing n.types types }) byName) []
  byName.map Prod.snd

/-- The `types` of a network. -/
def networkTypes (py : Python) (types : List String) : List Json → Except Exc (List String)
  | [] => .ok types
  | type :: rest => do
    let label := PyText.strip (← text py.writer (type.orElse (.str "")))
    networkTypes py (if label = "" ∨ label ∈ types then types else types ++ [label]) rest

/-- `_map_networks`, before its merge. -/
def readNetworks (py : Python) : List Json → Except Exc (List Network)
  | [] => .ok []
  | network :: rest =>
    if ¬ network.isDict then readNetworks py rest
    else do
      let name ← strippedOr py.writer network "name"
      if name = "" then readNetworks py rest
      else do
        let types ← networkTypes py [] (← iterate ((network.get "types").orElse (.list [])))
        return ⟨name, types⟩ :: (← readNetworks py rest)

/-- `_map_networks` -/
def mapNetworks (py : Python) (raw : List Json) : Except Exc (List Network) :=
  mergeNetworks py [] <$> readNetworks py raw

/-- What a coverage that came before takes from another of its key. -/
def Coverage.merge (py : Python) (existing : Coverage) (code name : String)
    (networks : List Network) : Coverage where
  code := if code ≠ "" ∧ existing.code = "" then code else existing.code
  name := if name ≠ "" ∧ existing.name = "" then name else existing.name
  networks := mergeNetworks py existing.networks networks

/-- `_map_coverages`, from the coverages before. -/
def readCoverages (py : Python) (byKey : List (String × Coverage)) :
    List Json → Except Exc (List (String × Coverage))
  | [] => .ok byKey
  | entry :: rest =>
    if ¬ entry.isDict then readCoverages py byKey rest
    else do
      let code := normalizeIso2 py (← textOr py.writer entry "code" "")
      let name ← strippedOr py.writer entry "name"
      if code = "" ∧ name = "" then readCoverages py byKey rest
      else do
        let networks ← mapNetworks py (← iterate ((entry.get "networks").orElse (.list [])))
        let key := if code = "" then py.lower name else code
        readCoverages py
          (mergeUnder key ⟨code, name, networks⟩ (·.merge py code name networks) byKey) rest

/-- `_map_coverages` -/
def mapCoverages (py : Python) (raw : List Json) : Except Exc (List Coverage) :=
  List.map Prod.snd <$> readCoverages py [] raw

/-! ## What a package holds -/

/-- `float(amount)`; nothing where it raises `TypeError` or `ValueError`. -/
def toFloat (py : Python) : Json → Except Exc (Option PyFloat)
  | .bool b => .ok (some (.finite (if b then 1 else 0) 0))
  | .int n =>
    match py.floatOfInt n with
    | some x => .ok (some x)
    | none => .error .overflowError
  | .float x => .ok (some x)
  | .str s => .ok (py.floatOfText s)
  | _ => .ok none

/-- `x >= 1024` -/
def atLeastKilo : PyFloat → Bool
  | .finite num exp => if 0 ≤ exp then 1024 ≤ num * 2 ^ exp.toNat else 1024 * 2 ^ (-exp).toNat ≤ num
  | .infinity negative => !negative
  | .nan => false

/-- The whole number a float is. -/
def wholeOf : PyFloat → Option Int
  | .finite num exp =>
    if 0 ≤ exp then some (num * 2 ^ exp.toNat)
    else if num % 2 ^ (-exp).toNat = 0 then some (num / 2 ^ (-exp).toNat) else none
  | _ => none

/-- `x / 1024`, of what is at least 1024. -/
def perKilo : PyFloat → PyFloat
  | .finite num exp => .finite num (exp - 10)
  | x => x

/-- A number of megabytes, as the catalogue shows it. -/
def formatMegabytes (py : Python) (mb : PyFloat) : String :=
  if atLeastKilo mb then
    match wholeOf mb with
    | some n =>
        if n % 1024 = 0 then toString (n / 1024) ++ " GB" else py.general (perKilo mb) ++ " GB"
    | none => py.general (perKilo mb) ++ " GB"
  else
    match wholeOf mb with
    | some n => toString n ++ " MB"
    | none => py.writer.float mb ++ " MB"

/-- `_format_data_allowance` -/
def formatDataAllowance (py : Python) (package : Json) (isUnlimited : Bool) : Except Exc String :=
  let data := package.get "data"
  if data.truthy then text py.writer data
  else if isUnlimited then .ok "Unlimited"
  else
    let amount := package.get "amount"
    if amount.isNull then .ok ""
    else do
      match ← toFloat py amount with
      | none => text py.writer amount
      | some mb => return formatMegabytes py mb

/-- `prices.get("USD")` of a kind of price, when there is one. -/
def usdOf (prices : Json) (kind : String) : Except Exc (Option Json) := do
  requireDict prices
  let found := (prices.get kind).orElse (.dict [])
  match found with
  | .dict _ => return found.find? "USD"
  | _ => if ← hasKey found "USD" then .error .typeError else return none

/-- `_extract_usd_price` -/
def extractUsdPrice (py : Python) (package : Json) : Except Exc PyDecimal := do
  match ← usdOf ((package.get "prices").orElse (.dict [])) "recommended_retail_price" with
  | some price => decimal py.writer price
  | none => return (← decimalOr py.writer package "price" (some noPrice)).getD noPrice

/-- `_extract_usd_net_price` -/
def extractUsdNetPrice (py : Python) (package : Json) : Except Exc (Option PyDecimal) := do
  match ← usdOf ((package.get "prices").orElse (.dict [])) "net_price" with
  | some price => some <$> decimal py.writer price
  | none => decimalOr py.writer package "net_price" none

/-- `_optional_positive_int` -/
def optionalPositiveInt : Json → Except Exc (Option Int)
  | .null => .ok none
  | .float (.infinity _) => .error .overflowError
  | value => .ok (value.toInt.filter (0 < ·))

/-! ## Minutes and messages in a title -/

/-- A word, of which each letter may be written in several ways. -/
def takeLetters : List (List Char) → List Char → Option (List Char)
  | [], cs => some cs
  | _ :: _, [] => none
  | letter :: letters, ch :: cs => if ch ∈ letter then takeLetters letters cs else none

/-- `\b`, after a letter. -/
def wordEnds (py : Python) : List Char → Bool
  | [] => true
  | ch :: _ => !(py.isAlnum ch || ch = '_')

/-- Whether a unit stands at the front, with a letter that may follow. -/
def unitAt (py : Python) (letters : List (List Char)) (optional : List Char)
    (cs : List Char) : Bool :=
  match takeLetters letters cs with
  | none => false
  | some [] => true
  | some (ch :: rest) => (ch ∈ optional && wordEnds py rest) || wordEnds py (ch :: rest)

/-- The first number in a text that a unit follows: `re.search`, up to the case of letters. -/
def findQuantity (py : Python) (letters : List (List Char)) (optional : List Char) :
    List Char → Option (List Nat)
  | [] => none
  | ch :: cs =>
    match PyText.spanDigits (ch :: cs) with
    | (d :: ds, rest) =>
      if unitAt py letters optional (rest.dropWhile PyText.isSpace) then some (d :: ds)
      else findQuantity py letters optional cs
    | ([], _) => findQuantity py letters optional cs

/-- `int(match.group(1)) if match else None` -/
def quantity : Option (List Nat) → Except Exc (Option Int)
  | none => .ok none
  | some ds =>
      if ds.length ≤ PyText.maxStrDigits then .ok (some (PyText.ofDigits ds))
        else .error .valueError

/-- `min` and `sms`, in either case; the letters i and s are also those without and with a long
stroke. -/
def minLetters : List (List Char) := [['m', 'M'], ['i', 'I', '\u0130', '\u0131'], ['n', 'N']]
def sLetters : List Char := ['s', 'S', '\u017f']
def smsLetters : List (List Char) := [sLetters, ['m', 'M'], sLetters]

/-- `_parse_voice_text_from_title` -/
def parseVoiceTextFromTitle (py : Python) (title : String) : Except Exc (Option Int × Option Int) :=
  do
  let voice ← quantity (findQuantity py minLetters sLetters title.toList)
  let sms ← quantity (findQuantity py smsLetters [] title.toList)
  return (voice, sms)

/-! ## Packages -/

/-- `_normalize_activation_policy` -/
def normalizeActivationPolicy (py : Python) (raw : Json) : Except Exc String := do
  let value := py.lower (PyText.strip (← text py.writer (raw.orElse (.str ""))))
  let value := String.ofList (value.toList.map fun ch => if ch = '-' ∨ ch = ' ' then '_' else ch)
  return if value ∈ ["first_usage", "firstusage"] then "first_usage"
    else if value ∈ ["installation", "install"] then "installation"
    else "unknown"

/-- What the packages of an operator share. -/
structure OperatorInfo where
  operatorId : String
  operatorTitle : String
  planType : String
  countryCode : String
  locationSlug : String
  locationTitle : String
  locationImageUrl : String
  coverageType : String
  coveredCountryCodes : List String
  coverages : List Coverage
  activationPolicy : String

/-- The stripped id of a package. -/
def packageId (py : Python) (package : Json) : Except Exc String :=
  PyText.strip <$> text py.writer (package.getD "id" (.str ""))

/-- `voice` and `text` of a package, or what its title says of them. -/
def voiceAndText (py : Python) (package : Json) (title : String) :
    Except Exc (Option Int × Option Int) :=
  do
  let voice ← optionalPositiveInt (package.get "voice")
  let sms ← optionalPositiveInt (package.get "text")
  if voice.isNone ∧ sms.isNone then parseVoiceTextFromTitle py title else return (voice, sms)

/-- `_map_package` -/
def mapPackage (py : Python) (o : OperatorInfo) (package : Json) : Except Exc (Option PackageDTO) :=
  do
  requireDict package
  let externalId ← packageId py package
  if externalId = "" then return none
  let priceUsd ← extractUsdPrice py package
  let netPriceUsd ← extractUsdNetPrice py package
  let title ← text py.writer (package.getD "title" (.str ""))
  let isUnlimited ← resolveIsUnlimited py.writer package
  let (voiceMinutes, textSms) ← voiceAndText py package title
  let dataAllowance ← formatDataAllowance py package isUnlimited
  let validityDays ← numberOr package "day"
  return some {
    externalId, title, dataAllowance, validityDays, priceUsd, netPriceUsd, isUnlimited,
      voiceMinutes, textSms
    operatorTitle := o.operatorTitle
    operatorId := o.operatorId
    countryCode := o.countryCode
    planType := o.planType
    locationSlug := o.locationSlug
    locationTitle := o.locationTitle
    locationImageUrl := o.locationImageUrl
    coverageType := o.coverageType
    coveredCountryCodes := o.coveredCountryCodes
    coverages := o.coverages
    activationPolicy := o.activationPolicy }

def mapPackages (py : Python) (o : OperatorInfo) : List Json → Except Exc (List PackageDTO)
  | [] => .ok []
  | package :: packages => do
    let mapped ← mapPackage py o package
    let rest ← mapPackages py o packages
    return mapped.toList ++ rest

/-! ## Operators and locations -/

/-- The location an operator is nested in. -/
structure LocationInfo where
  slug : String
  title : String
  countryCode : String
  imageUrl : String

/-- `_map_operator`, up to its packages. -/
def operatorInfo (py : Python) (location : Option LocationInfo) (operator : Json) :
    Except Exc OperatorInfo :=
  do
  requireDict operator
  let operatorId ← text py.writer (operator.getD "id" (.str ""))
  let operatorTitle ← text py.writer (operator.getD "title" (.str ""))
  let planType ← text py.writer (operator.getD "plan_type" (.str "data"))
  let countries := (operator.get "countries").orElse (.list [])
  let countryCode ← match location with
    | some l => pure (normalizeIso2 py l.countryCode)
    | none => normalizeIso2 py <$> primaryCountryCode py countries
  let coverages ← mapCoverages py (← iterate ((operator.get "coverages").orElse (.list [])))
  let covered ← coveredCountryCodes py [] (← iterate countries)
  let locationSlug := (location.map (·.slug)).getD ""
  let locationTitle := (location.map (·.title)).getD ""
  let coverageType :=
    resolveCoverageType py (← textOr py.writer operator "type" "") locationSlug countryCode
  let countryCode := if coverageType = coverageLocal then countryCode else ""
  let resolvedSlug := normalizeLocationSlug py
    (if locationSlug = "" then fallbackSlug py coverageType countryCode operatorTitle
      else locationSlug)
  let activationPolicy ← normalizeActivationPolicy py (operator.get "activation_policy")
  return {
    operatorId, operatorTitle, planType, countryCode, coverageType, coverages, activationPolicy
    locationSlug := resolvedSlug
    locationTitle :=
      if locationTitle ≠ "" then locationTitle else if operatorTitle ≠ "" then operatorTitle
        else resolvedSlug
    locationImageUrl := (location.map (·.imageUrl)).getD ""
    coveredCountryCodes :=
      if covered = [] then (coverages.map (·.code)).filter (· ≠ "") else covered }

/-- `_map_operator` -/
def mapOperator (py : Python) (location : Option LocationInfo) (operator : Json) :
    Except Exc (List PackageDTO) :=
  do
  let o ← operatorInfo py location operator
  mapPackages py o (← iterate (operator.getD "packages" (.list [])))

def mapOperators (py : Python) (location : LocationInfo) : List Json → Except Exc (List PackageDTO)
  | [] => .ok []
  | operator :: operators =>
    if ¬ operator.isDict then mapOperators py location operators
    else do
      let mapped ← mapOperator py (some location) operator
      let rest ← mapOperators py location operators
      return mapped ++ rest

/-- `_map_location_item` -/
def mapLocationItem (py : Python) (item : Json) : Except Exc (List PackageDTO) := do
  requireDict item
  let slug := normalizeLocationSlug py (← textOr py.writer item "slug" "")
  let title ← strippedOr py.writer item "title"
  let countryCode := normalizeIso2 py (py.upper (← textOr py.writer item "country_code" ""))
  let imageUrl ← extractImageUrl py (item.get "image")
  mapOperators py ⟨slug, title, countryCode, imageUrl⟩
    (← iterate ((item.get "operators").orElse (.list [])))

/-- One row of the catalogue. -/
def mapItem (py : Python) (item : Json) : Except Exc (List PackageDTO) := do
  if ← hasKey item "operators" then mapLocationItem py item else mapOperator py none item

def mapItems (py : Python) : List Json → Except Exc (List PackageDTO)
  | [] => .ok []
  | item :: items => do
    let mapped ← mapItem py item
    let rest ← mapItems py items
    return mapped ++ rest

/-! ## The merge -/

/-- `_catalog_item_key` -/
def catalogItemKey (py : Python) (item : Json) : Except Exc String := do
  requireDict item
  let slug := py.lower (← strippedOr py.writer item "slug")
  if slug ≠ "" then return "slug:" ++ slug
  let operatorId ← strippedOr py.writer item "id"
  if operatorId ≠ "" then return "operator:" ++ operatorId
  let title := py.lower (← strippedOr py.writer item "title")
  return "title:" ++ title

/-- `_merge_catalog_items`, past the keys that were seen. -/
def mergeCatalogItems (py : Python) (seen : List String) : List Json → Except Exc (List Json)
  | [] => .ok []
  | item :: items => do
    let key ← catalogItemKey py item
    if key ∈ seen then mergeCatalogItems py seen items
    else return item :: (← mergeCatalogItems py (key :: seen) items)

/-- What `AiraloClient.list_packages` gives, by its filters. -/
structure CatalogAnswers where
  ofCountry : String → List Json
  locals : List Json
  globals : List Json

/-- The filter of a listing, when there is one. -/
def countryFilter (country : Option String) : Option String := country.filter (· ≠ "")

/-- `_fetch_catalog_items` -/
def fetchCatalogItems (py : Python) (answers : CatalogAnswers) (country : Option String) :
    Except Exc (List Json) :=
  match countryFilter country with
  | some code => .ok (answers.ofCountry code)
  | none => mergeCatalogItems py [] (answers.locals ++ answers.globals)

/-- `AiraloPackageProvider.list_packages` -/
def listPackages (py : Python) (answers : CatalogAnswers) (country : Option String) :
    Except Exc (List PackageDTO) :=
  do
  mapItems py (← fetchCatalogItems py answers country)

end Roamkit.Airalo
