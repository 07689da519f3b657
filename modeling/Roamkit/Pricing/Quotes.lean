import Roamkit.Lib.Isoformat
import Roamkit.Pricing.Charge

/-!
# Quotes and their fingerprint

`PricingService.resolve` puts beside the price what identifies it: the profile, and a hash of
the context it was resolved in. SHA-256 is a parameter, from the payload to the hex digest.
-/

namespace Roamkit.Pricing

open Lib

/-- The columns of `PricingProfile` that a quote names, beside its terms. -/
structure NamedProfile extends PricingProfile where
  slug : String
  name : String

/-- An account and the profile assigned to it. -/
structure PricedAccount where
  id : Uuid
  pricingProfile : Option NamedProfile

/-- `PricingContext`, with the account and everything the hash reads. -/
structure QuoteContext where
  listPrice : PyDecimal
  netPrice : Option PyDecimal
  orderType : String
  timestamp : Time
  account : Option PricedAccount
  profile : Option NamedProfile

namespace QuoteContext

/-- The profile of the context, or else that of its account. -/
def resolvedProfile (ctx : QuoteContext) : Option NamedProfile :=
  match ctx.profile with
  | some profile => some profile
  | none => ctx.account.bind PricedAccount.pricingProfile

/-- What the price depends on. -/
def pricing (ctx : QuoteContext) : PricingContext :=
  ⟨ctx.listPrice, ctx.netPrice, ctx.timestamp,
    ctx.resolvedProfile.map NamedProfile.toPricingProfile⟩

end QuoteContext

/-- `_dec` -/
def dec : Option PyDecimal → Except Exc String
  | none => .ok ""
  | some (.finite d) => do
    let cents ← moneyRound (.finite d)
    -- an amount below zero that rounds to zero keeps its sign
    return if d.coeff < 0 ∧ cents = 0 then "-" ++ Dec.fixed 2 cents else Dec.fixed 2 cents
  | some _ => .error .invalidOperation

/-- `pricing_context_hash`; `_dec` rounds the list price, which `resolve` has rounded before. -/
def pricingContextHash (sha256 : String → String) (ctx : QuoteContext) (flagEnabled : Bool) :
    Except Exc String := do
  let profile := ctx.resolvedProfile
  let profileId := match profile with
    | some p => p.id.str
    | none => ""
  let profileVersion := match profile with
    | some p => toString p.version
    | none => ""
  let accountId := match ctx.account with
    | some account => account.id.str
    | none => ""
  let listPrice ← dec (some ctx.listPrice)
  let netPrice ← dec ctx.netPrice
  return sha256 ("|".intercalate ["v1", if flagEnabled then "1" else "0", accountId, profileId,
    profileVersion, listPrice, netPrice, ctx.orderType, Isoformat.isoformat ctx.timestamp])

/-- `SNAPSHOT_SCHEMA_VERSION` -/
def snapshotSchemaVersion : Nat := 1

/-- `PricingQuote`, with the hash of its context and the names of its profile. -/
structure Quote extends PricingQuote where
  pricingContextHash : String
  profileSlug : Option String
  profileName : Option String
  snapshotSchemaVersion : Nat

/-- `PricingService.resolve`: `resolve` gives the price, and a quote of a profile names it. -/
def resolveQuote (sha256 : String → String) (flagEnabled : Bool) (ctx : QuoteContext) :
    Except Exc Quote := do
  let contextHash ← pricingContextHash sha256 ctx flagEnabled
  let quote ← resolve flagEnabled ctx.pricing
  let quoted := quote.profile.bind fun _ => ctx.resolvedProfile
  return { quote with
    pricingContextHash := contextHash
    profileSlug := quoted.map NamedProfile.slug
    profileName := quoted.map NamedProfile.name
    snapshotSchemaVersion := snapshotSchemaVersion }

end Roamkit.Pricing
