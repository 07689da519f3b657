import Roamkit.Airalo.Catalog
import Roamkit.Lib.Table
import Roamkit.Values

/-!
# Package sync

`PackageSyncService`: every DTO of a listing is written to the package of its id, in one
transaction, and then the packages of the source that were not among them are made inactive.
A row that a column does not hold ends the transaction.
-/

namespace Roamkit.Catalog

open Lib Airalo

structure Location where
  id : Nat
  slug : String
  title : String
  countryCode : String
  coverageType : String
  imageUrl : String
  coveredCountryCodes : List String
  coverages : List Coverage
  isPopular : Bool
deriving DecidableEq

instance : Constraint Location where
  clash a b := a.id = b.id ∨ a.slug = b.slug
  symm h := h.imp Eq.symm Eq.symm
  decClash _ _ := inferInstance

structure Package where
  externalId : String
  title : String
  operatorTitle : String
  operatorId : String
  countryCode : String
  location : Option Nat
  dataAllowance : String
  validityDays : Int
  priceUsd : PyDecimal
  netPriceUsd : Option PyDecimal
  isUnlimited : Bool
  planType : String
  voiceMinutes : Option Int
  textSms : Option Int
  activationPolicy : String
  source : String
  isActive : Bool
  syncedAt : Time
deriving DecidableEq

instance : Constraint Package where
  clash a b := a.externalId = b.externalId
  symm := Eq.symm
  decClash _ _ := inferInstance

structure CatalogDb where
  packages : Table Package
  locations : Table Location
  /-- The next primary key of a location. -/
  nextLocation : Nat

/-! ## What the columns hold -/

/-- `varchar(n)` -/
def fitsText (n : Nat) (s : String) : Bool := s.length ≤ n && !s.toList.contains '\x00'

/-- A positive `integer`: a check constraint keeps the negative out. -/
def fitsCount (n : Int) : Bool := n ≤ 2147483647

/-- `numeric(10, 2)`; only finite numbers are sent. -/
def fitsPrice : PyDecimal → Bool
  | .finite d => fitsNumeric 10 2 d
  | _ => true

def isFinitePrice : PyDecimal → Bool
  | .finite _ => true
  | _ => false

/-- A price as the column rounds it. -/
def price : PyDecimal → PyDecimal
  | .finite d => .finite (.ofUnits 2 (d.units 2))
  | x => x

/-- A `jsonb` column holds every text but those with a NUL. -/
def fitsJson (s : String) : Bool := !s.toList.contains '\x00'

def Coverage.fits (e : Coverage) : Bool :=
  fitsJson e.code && fitsJson e.name && e.networks.all fun n =>
    fitsJson n.name && n.types.all fitsJson

def Location.fits (l : Location) : Bool :=
  fitsText 128 l.slug && fitsText 255 l.title && fitsText 2 l.countryCode && fitsText 512 l.imageUrl
    && l.coveredCountryCodes.all fitsJson && l.coverages.all Coverage.fits

def Package.fits (p : Package) : Bool :=
  fitsText 64 p.externalId && fitsText 255 p.title && fitsText 255 p.operatorTitle
    && fitsText 64 p.operatorId
    && fitsText 2 p.countryCode && fitsText 64 p.dataAllowance && fitsCount p.validityDays
      && fitsPrice p.priceUsd
    && p.netPriceUsd.all fitsPrice && fitsText 32 p.planType && p.voiceMinutes.all fitsCount
      && p.textSms.all fitsCount
    && fitsText 32 p.activationPolicy && fitsText 32 p.source

/-- What the save of a package raises. -/
def Package.refused (p : Package) : Option Exc :=
  if ¬ (isFinitePrice p.priceUsd ∧ p.netPriceUsd.all isFinitePrice) then some .validation
  else if ¬ p.fits then some .data
  else if p.validityDays < 0 ∨ p.voiceMinutes.any (· < 0) ∨ p.textSms.any (· < 0) then
    some .integrity
  else none

/-! ## Locations -/

/-- `POPULAR_COUNTRY_CODES` -/
def popularCountryCodes : List String :=
  ["US", "JP", "GB", "IT", "CA", "FR", "ES", "DE", "TR", "TH", "AU", "MX", "KR", "CN", "AE", "PT",
    "NL", "CH", "BR", "IN"]

/-- `POPULAR_LOCATION_SLUGS` -/
def popularLocationSlugs : List String :=
  ["united-states", "japan", "united-kingdom", "italy", "canada", "france", "spain", "germany",
    "turkey", "thailand",
    "australia", "mexico", "south-korea", "china", "united-arab-emirates", "portugal",
      "netherlands", "switzerland",
    "brazil", "india", "europe", "global"]

variable (py : Python)

/-- The location of a DTO, under a slug and a primary key. -/
def locationOf (dto : PackageDTO) (slug : String) (id : Nat) : Location :=
  let coverageType :=
    if dto.coverageType ∈ [coverageLocal, coverageRegional, coverageGlobal] then dto.coverageType
    else coverageLocal
  -- an empty code has no upper case
  let countryCode :=
    if coverageType ≠ coverageLocal ∨ dto.countryCode = "" then "" else py.upper dto.countryCode
  { id, slug, coverageType, countryCode
    title := if dto.locationTitle = "" then slug else dto.locationTitle
    imageUrl := dto.locationImageUrl
    coveredCountryCodes := dto.coveredCountryCodes
    coverages := dto.coverages
    isPopular := slug ∈ popularLocationSlugs ∨ countryCode ∈ popularCountryCodes }

variable (s : CatalogDb)

/-- Before a location is called "global", the one called "world" is renamed, when there is none. -/
def renameWorld (slug : String) : Except Exc CatalogDb :=
  if slug ≠ "global" ∨ (s.locations.find? (·.slug = "global")).isSome then .ok s
  else
    match s.locations.update? (·.slug = "world") fun l => { l with slug := "global" } with
    | none => .error .integrity
    | some locations => .ok { s with locations }

/-- `Location.objects.update_or_create` -/
def CatalogDb.putLocation (slug : String) (row : Nat → Location) : Except Exc (CatalogDb × Nat) :=
  match s.locations.find? (·.slug = slug) with
  | some l =>
    if ¬ (row l.id).fits then .error .data
    else
      match s.locations.update? (·.id = l.id) fun _ => row l.id with
      | none => .error .integrity
      | some locations => .ok ({ s with locations }, l.id)
  | none =>
    if ¬ (row s.nextLocation).fits then .error .data
    else
      match s.locations.insert? (row s.nextLocation) with
      | none => .error .integrity
      | some locations =>
          .ok ({ s with locations, nextLocation := s.nextLocation + 1 }, s.nextLocation)

/-- `_upsert_location`, of a slug that is not in the cache. -/
def upsertLocation (s : CatalogDb) (dto : PackageDTO) (slug : String) :
    Except Exc (CatalogDb × Nat) :=
  do
  (← renameWorld s slug).putLocation slug (locationOf py dto slug)

/-! ## Packages -/

/-- The package that a DTO is written to. -/
def packageOf (source : String) (now : Time) (dto : PackageDTO)
    (location : Option Nat) : Package where
  externalId := dto.externalId
  title := dto.title
  operatorTitle := dto.operatorTitle
  operatorId := dto.operatorId
  countryCode := dto.countryCode
  location
  dataAllowance := dto.dataAllowance
  validityDays := dto.validityDays
  priceUsd := price dto.priceUsd
  netPriceUsd := dto.netPriceUsd.map price
  isUnlimited := dto.isUnlimited
  planType := dto.planType
  voiceMinutes := dto.voiceMinutes
  textSms := dto.textSms
  activationPolicy := if dto.activationPolicy = "" then "unknown" else dto.activationPolicy
  source
  isActive := true
  syncedAt := now

/-- `Package.objects.update_or_create`: the row of the id gives way to the new one. -/
def CatalogDb.putPackage (row : Package) : Except Exc CatalogDb :=
  match row.refused with
  | some e => .error e
  | none =>
    match (s.packages.remove (·.externalId = row.externalId)).insert? row with
    | none => .error .integrity
    | some packages => .ok { s with packages }

/-- A database, and the locations of a sync by their slugs. -/
abbrev Syncing := CatalogDb × List (String × Nat)

/-- The location of a DTO, from the cache or the database. -/
def locate (s : Syncing) (dto : PackageDTO) : Except Exc (Syncing × Option Nat) :=
  let slug := PyText.strip dto.locationSlug
  if slug = "" then .ok (s, none)
  else
    match s.2.find? (·.1 = slug) with
    | some cached => .ok (s, some cached.2)
    | none => do
      let (db, id) ← upsertLocation py s.1 dto slug
      return ((db, (slug, id) :: s.2), some id)

/-- One DTO of `_upsert_packages`. -/
def upsertPackage (source : String) (now : Time) (s : Syncing)
    (dto : PackageDTO) : Except Exc Syncing :=
  do
  let (s, location) ← locate py s dto
  return (← s.1.putPackage (packageOf source now dto location), s.2)

/-- `_upsert_packages`, the rest of a listing. -/
def upsertPackages (py : Python) (source : String) (now : Time) (s : Syncing) :
    List PackageDTO → Except Exc Syncing
  | [] => .ok s
  | dto :: dtos => do upsertPackages py source now (← upsertPackage py source now s dto) dtos

/-- A package that is not sold any more. -/
def deactivated (now : Time) (p : Package) :
    Package := { p with isActive := false, syncedAt := now }

/-- Whether a sync makes a package inactive. -/
def isMissing (source : String) (syncedIds : List String) (p : Package) : Bool :=
  p.source = source && p.isActive && !syncedIds.contains p.externalId

/-- `_deactivate_missing` -/
def CatalogDb.deactivateMissing (source : String) (now : Time)
    (syncedIds : List String) : CatalogDb :=
  if syncedIds = [] then s
  else { s with
    packages := s.packages.update (isMissing source syncedIds) (deactivated now) (fun _ _ h => h) }

/-- `PackageSyncService.sync`, with the provider of Airalo. -/
def sync (source : String) (now : Time) (answers : CatalogAnswers) (country : Option String)
    (s : CatalogDb) : Except Exc CatalogDb := do
  let packages ← listPackages py answers country
  let (db, _) ← upsertPackages py source now (s, []) packages
  return db.deactivateMissing source now (packages.map (·.externalId))

end Roamkit.Catalog
