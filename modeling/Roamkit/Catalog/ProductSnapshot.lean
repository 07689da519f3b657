import Mathlib.Data.String.Basic
import Roamkit.Catalog.PackageSync
import Roamkit.Lib.Distinct

/-!
# The snapshot of a product

What an order keeps of the package it is for. The coverage of the package's location is
untyped JSON: it is normalised to one entry for each country with a two-letter code, with
the names of its operators. `casefold` is Python's `str.casefold`.
-/

namespace Roamkit.Catalog

open Lib Airalo

/-- A country of a coverage snapshot. -/
structure CountryCoverage where
  countryCode : String
  countryName : Option String
  operators : List String
deriving DecidableEq

/-- `_COUNTRY_CODE_RE.fullmatch(code)` -/
def isCountryCode (code : String) : Bool :=
  code.length = 2 && code.toList.all fun c => 'A' ≤ c && c ≤ 'Z'

/-- `entry.get(key)`, or `entry.get(other)` where that is None. -/
def getOr (entry : Json) (key other : String) : Json :=
  if (entry.get key).isNull then entry.get other else entry.get key

variable (py : Python)

/-- The trimmed and upper-cased code of an entry. -/
def entryCode (entry : Json) : Except Exc String :=
  (fun code => py.upper (PyText.strip code))
    <$> text py.writer ((getOr entry "code" "country_code").orElse (.str ""))

/-- The trimmed name of an entry; None when there is none, or a blank one. -/
def entryName (entry : Json) : Except Exc (Option String) :=
  let raw := getOr entry "name" "country_name"
  if raw.isNull then .ok none
  else (fun name => if PyText.strip name = "" then none else some (PyText.strip name))
    <$> text py.writer raw

/-! ## Operators -/

/-- The trimmed name of a network; blank where it is neither an object nor a text. -/
def networkName (net : Json) : Except Exc String :=
  match net with
  | .dict _ => strippedOr py.writer net "name"
  | .str s => .ok (PyText.strip s)
  | _ => .ok ""

/-- The names of networks that are not blank. -/
def networkNames (py : Python) : List Json → Except Exc (List String)
  | [] => .ok []
  | net :: nets => do
    let name ← networkName py net
    let names ← networkNames py nets
    return if name = "" then names else name :: names

/-- `_normalize_operators`: the first of each case-folded name, sorted by it. -/
def normalizeOperators (casefold : String → String) (networks : Json) : Except Exc (List String) :=
  match networks with
  | .list nets => sortFirsts casefold <$> networkNames py nets
  | _ => .ok []

/-- `_merge_operators` -/
def mergeOperators (casefold : String → String) (left right : List String) : List String :=
  sortFirsts casefold (left ++ right)

/-! ## Countries -/

/-- What a country takes from a later entry of its code. -/
def CountryCoverage.merge (casefold : String → String) (existing : CountryCoverage)
    (countryName : Option String) (operators : List String) : CountryCoverage where
  countryCode := existing.countryCode
  countryName := existing.countryName.or countryName
  operators := mergeOperators casefold existing.operators operators

/-- `by_code`, with one more entry. -/
def recordEntry (casefold : String → String) (byCode : List (String × CountryCoverage))
    (entry : Json) :
    Except Exc (List (String × CountryCoverage)) :=
  if ¬ entry.isDict then .ok byCode
  else do
    let code ← entryCode py entry
    if ¬ isCountryCode code then return byCode
    let countryName ← entryName py entry
    let operators ← normalizeOperators py casefold (entry.get "networks")
    return mergeUnder code ⟨code, countryName, operators⟩
      (·.merge casefold countryName operators) byCode

def recordEntries (py : Python) (casefold : String → String)
    (byCode : List (String × CountryCoverage)) :
    List Json → Except Exc (List (String × CountryCoverage))
  | [] => .ok byCode
  | entry
    :: entries => do recordEntries py casefold (← recordEntry py casefold byCode entry) entries

/-- `[by_code[code] for code in sorted(by_code.keys())]` -/
def sortedByCode (byCode : List (String × CountryCoverage)) : List CountryCoverage :=
  (byCode.insertionSort fun a b => a.1 ≤ b.1).map Prod.snd

/-- `normalize_coverage_snapshot` -/
def normalizeCoverageSnapshot (casefold : String → String) (raw : Json) :
    Except Exc (List CountryCoverage) :=
  match raw with
  | .list entries => sortedByCode <$> recordEntries py casefold [] entries
  | _ => .ok []

/-! ## Products -/

def Network.toJson (n : Network) : Json :=
  .dict [("name", .str n.name), ("types", .list (n.types.map .str))]

def Coverage.toJson (c : Coverage) : Json :=
  .dict [("code", .str c.code), ("name", .str c.name),
    ("networks", .list (c.networks.map Network.toJson))]

/-- The column `coverages`. -/
def Location.coveragesJson (l : Location) : Json := .list (l.coverages.map Coverage.toJson)

/-- The fields of an order that are copied from its package. -/
structure ProductSnapshot where
  packageExternalId : String
  packageTitle : String
  operatorTitle : String
  locationTitle : String
  countryCode : String
  coverageType : String
  coverageSnapshot : List CountryCoverage
  dataAllowance : String
  validityDays : Int
  retailPriceUsd : PyDecimal
  currency : String
  netPriceUsd : Option PyDecimal

/-- `package.location` -/
def CatalogDb.locationOf (s : CatalogDb) (p : Package) : Option Location :=
  p.location.bind fun id => s.locations.find? (·.id = id)

/-- The coverage of a package, as its location has it. -/
def coverageSnapshot (casefold : String → String) (location : Option Location) :
    Except Exc (List CountryCoverage) :=
  match location with
  | some l => normalizeCoverageSnapshot py casefold l.coveragesJson
  | none => .ok []

/-- `product_snapshot_kwargs` -/
def productSnapshotKwargs (casefold : String → String) (s : CatalogDb) (p : Package) :
    Except Exc ProductSnapshot := do
  let location := s.locationOf p
  let coverageSnapshot ← coverageSnapshot py casefold location
  return {
    packageExternalId := p.externalId
    packageTitle := p.title
    operatorTitle := p.operatorTitle
    locationTitle := (location.map (·.title)).getD ""
    countryCode :=
      if p.countryCode ≠ "" then p.countryCode else (location.map (·.countryCode)).getD ""
    coverageType := (location.map (·.coverageType)).getD ""
    coverageSnapshot
    dataAllowance := p.dataAllowance
    validityDays := p.validityDays
    retailPriceUsd := p.priceUsd
    currency := "USD"
    netPriceUsd := p.netPriceUsd }

end Roamkit.Catalog
