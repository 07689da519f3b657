import Roamkit.Pricing.Quotes

/-!
# A quote in the columns of a purchase

A quote is stored in columns of an `Order` or a `Topup` and read back from them. The two
functions that write it share everything but the name of the customer's price, which an order
stores in cents and a top-up with six decimal places.
-/

namespace Roamkit.Pricing

open Lib

/-- The constants of `PricingReason`. -/
def PricingReason.str : PricingReason → String
  | retail => "retail"
  | pricingProfile => "pricing_profile"
  | invalidMargin => "invalid_margin"

/-- The constants of `FloorReason` that `resolve` uses. -/
def FloorReason.str : FloorReason → String
  | none => "none"
  | discount => "discount"

/-- The fields of a `PricingQuote`, with the texts a row may hold; prices in cents. -/
structure QuoteData where
  listPrice : Int
  customerPrice : Int
  discountPercent : Int
  pricingReason : String
  floorReason : String
  pricingProfileId : Option Uuid
  pricingProfileVersion : Option Nat
  pricingContextHash : String
  profileSlug : Option String
  profileName : Option String
  snapshotSchemaVersion : Nat
deriving DecidableEq

/-- The fields of a quote that was resolved. -/
def Quote.data (q : Quote) : QuoteData where
  listPrice := q.listPrice
  customerPrice := q.customerPrice
  discountPercent := q.discountPercent
  pricingReason := q.pricingReason.str
  floorReason := q.floorReason.str
  pricingProfileId := q.profile.map Prod.fst
  pricingProfileVersion := q.profile.map Prod.snd
  pricingContextHash := q.pricingContextHash
  profileSlug := q.profileSlug
  profileName := q.profileName
  snapshotSchemaVersion := q.snapshotSchemaVersion

/-- The keyword arguments for a row; prices in cents. -/
structure SnapshotKwargs where
  listPriceUsd : Int
  /-- `retail_price_usd` of an order, `amount` of a top-up. -/
  customerPrice : Int
  discountPercent : Int
  pricingReason : String
  floorReason : String
  pricingProfileId : Option Uuid
  pricingProfileVersion : Option Nat
  pricingProfileSlug : String
  pricingProfileName : String
  pricingContextHash : String
  snapshotSchemaVersion : Nat

variable (quote : QuoteData)

def snapshotKwargs : SnapshotKwargs where
  listPriceUsd := quote.listPrice
  customerPrice := quote.customerPrice
  discountPercent := quote.discountPercent
  pricingReason := quote.pricingReason
  floorReason := quote.floorReason
  pricingProfileId := quote.pricingProfileId
  pricingProfileVersion := quote.pricingProfileVersion
  pricingProfileSlug := quote.profileSlug.getD ""
  pricingProfileName := quote.profileName.getD ""
  pricingContextHash := quote.pricingContextHash
  snapshotSchemaVersion := quote.snapshotSchemaVersion

/-- `quote_to_order_snapshot_kwargs` -/
def quoteToOrderSnapshotKwargs : SnapshotKwargs := snapshotKwargs quote

/-- `quote_to_topup_snapshot_kwargs` -/
def quoteToTopupSnapshotKwargs : SnapshotKwargs := snapshotKwargs quote

/-- The columns of a snapshot that both tables have; the list price in cents. -/
structure SnapshotColumns where
  listPriceUsd : Option Int
  discountPercent : Option Int
  pricingReason : String
  floorReason : String
  pricingProfileId : Option Uuid
  pricingProfileVersion : Option Nat
  pricingProfileSlug : String
  pricingProfileName : String
  pricingContextHash : String
  snapshotSchemaVersion : Option Nat

/-- The columns of an `Order`; prices in cents. -/
structure OrderSnapshot extends SnapshotColumns where
  retailPriceUsd : Option Int

/-- The columns of a `Topup`; the amount in millionths. -/
structure TopupSnapshot extends SnapshotColumns where
  amount : Int

variable (k : SnapshotKwargs)

/-- Whether the values fit the columns that both tables have. -/
def SnapshotKwargs.fits : Bool :=
  fitsNumeric 10 2 (Dec.ofUnits 2 k.listPriceUsd)
    && fitsNumeric 5 2 (Dec.ofUnits 2 k.discountPercent)
    && k.pricingReason.length ≤ 32 && k.floorReason.length ≤ 32
    && k.pricingProfileVersion.all (· ≤ 2147483647) && k.pricingProfileSlug.length ≤ 128
    && k.pricingProfileName.length ≤ 128 && k.pricingContextHash.length ≤ 64
    && k.snapshotSchemaVersion ≤ 32767

def SnapshotKwargs.columns : SnapshotColumns where
  listPriceUsd := some k.listPriceUsd
  discountPercent := some k.discountPercent
  pricingReason := k.pricingReason
  floorReason := k.floorReason
  pricingProfileId := k.pricingProfileId
  pricingProfileVersion := k.pricingProfileVersion
  pricingProfileSlug := k.pricingProfileSlug
  pricingProfileName := k.pricingProfileName
  pricingContextHash := k.pricingContextHash
  snapshotSchemaVersion := some k.snapshotSchemaVersion

/-- The insert of an order with these columns. -/
def storeOrder : Except Exc OrderSnapshot :=
  if k.fits && fitsNumeric 10 2 (Dec.ofUnits 2 k.customerPrice) then
    .ok { k.columns with retailPriceUsd := some k.customerPrice }
  else .error .data

/-- The insert of a top-up with these columns, and its check constraint on the amount. -/
def storeTopup : Except Exc TopupSnapshot :=
  if k.fits && fitsNumeric 20 6 (Dec.ofUnits 2 k.customerPrice) then
    if 0 < k.customerPrice then
      .ok { k.columns with amount := (Dec.ofUnits 2 k.customerPrice).units 6 }
    else .error .integrity
  else .error .data

/-- `quote_from_snapshot`, of the shared columns and of the column with the customer's price. -/
def quoteFromSnapshot (row : SnapshotColumns) (customerPrice : Option Dec) : Except Exc QuoteData :=
  match row.listPriceUsd, customerPrice with
  | some listPrice, some customerPrice =>
    if row.pricingContextHash = "" then .error .valueError
    else do
      let listPrice ← moneyRound (cents listPrice)
      let customerPrice ← moneyRound (.finite customerPrice)
      let discountPercent ← moneyRound (cents (row.discountPercent.getD 0))
      return {
        listPrice, customerPrice, discountPercent
        pricingReason := if row.pricingReason = "" then "retail" else row.pricingReason
        floorReason := if row.floorReason = "" then "none" else row.floorReason
        pricingProfileId := row.pricingProfileId
        pricingProfileVersion := row.pricingProfileVersion
        pricingContextHash := row.pricingContextHash
        profileSlug := if row.pricingProfileSlug = "" then none else some row.pricingProfileSlug
        profileName := if row.pricingProfileName = "" then none else some row.pricingProfileName
        -- `or SNAPSHOT_SCHEMA_VERSION`, which also replaces a zero
        snapshotSchemaVersion := match row.snapshotSchemaVersion with
          | none | some 0 => snapshotSchemaVersion
          | some version => version }
  | _, _ => .error .valueError

/-- `quote_from_order` -/
def quoteFromOrder (row : OrderSnapshot) : Except Exc QuoteData :=
  quoteFromSnapshot row.toSnapshotColumns (row.retailPriceUsd.map (Dec.ofUnits 2))

/-- `quote_from_topup` -/
def quoteFromTopup (row : TopupSnapshot) : Except Exc QuoteData :=
  quoteFromSnapshot row.toSnapshotColumns (some (Dec.ofUnits 6 row.amount))

end Roamkit.Pricing
