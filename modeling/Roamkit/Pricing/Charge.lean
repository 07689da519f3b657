import Roamkit.Exceptions
import Roamkit.Values

/-!
# The price of a purchase

`PricingService.resolve` turns a list price into what the customer pays. Every
price it returns has gone through `money_round`, so it is a whole number of cents.
-/

namespace Roamkit.Pricing

open Lib

/-- `money_round`, in cents. -/
def moneyRound : PyDecimal → Except Exc Int
  | .finite d =>
    match d.quantize 2 with
    | some cents => .ok cents
    | none => .error .invalidOperation
  | _ => .error .invalidOperation

/-- A number of cents, or of hundredths of a percent, as a decimal. -/
def cents (n : Int) : PyDecimal := .finite (Dec.ofUnits 2 n)

inductive FloorPolicy where
  | none
  | wholesale
deriving DecidableEq

/-- The columns of `PricingProfile` the resolution reads; the percent in hundredths. -/
structure PricingProfile where
  id : Uuid
  version : Nat
  discountPercent : Int
  floorPolicy : FloorPolicy
  isActive : Bool
  archivedAt : Option Time
  effectiveFrom : Option Time
  effectiveUntil : Option Time

/-- `_profile_is_effective` -/
def PricingProfile.isEffective (p : PricingProfile) (at_ : Time) : Bool :=
  p.archivedAt.isNone && p.isActive
    && p.effectiveFrom.all (fun t => t ≤ at_) && p.effectiveUntil.all (fun t => at_ < t)

inductive PricingReason where
  | retail
  | pricingProfile
  | invalidMargin
deriving DecidableEq

inductive FloorReason where
  | none
  | discount
deriving DecidableEq

structure PricingContext where
  listPrice : PyDecimal
  netPrice : Option PyDecimal
  timestamp : Time
  profile : Option PricingProfile

/-- What `resolve` answers; prices in cents. -/
structure PricingQuote where
  listPrice : Int
  customerPrice : Int
  discountPercent : Int
  pricingReason : PricingReason
  floorReason : FloorReason
  profile : Option (Uuid × Nat)

def retailQuote (listPrice : Int) (reason : PricingReason) : PricingQuote :=
  ⟨listPrice, listPrice, 0, reason, .none, none⟩

def profileQuote (p : PricingProfile) (listPrice customerPrice discount : Int)
    (floor : FloorReason) :
    PricingQuote :=
  ⟨listPrice, customerPrice, discount, .pricingProfile, floor, some (p.id, p.version)⟩

/-- `_HUNDRED - discount` -/
def remainder (discount : Int) : Dec := Dec.sub ⟨100, 0⟩ (Dec.ofUnits 2 discount)

/-- `_legacy_percent_off_list` -/
def legacyPercentOffList (listPrice discount : Int) : Except Exc Int :=
  moneyRound (.finite (Dec.percent (Dec.mul (Dec.ofUnits 2 listPrice) (remainder discount))))

/-- `_margin_share_customer` -/
def marginShareCustomer (listPrice netPrice discount : Int) : Except Exc Int :=
  let margin := Dec.sub (Dec.ofUnits 2 listPrice) (Dec.ofUnits 2 netPrice)
  -- `max` keeps its first argument, `_ZERO`, unless the margin is larger
  let margin := if 0 < margin.coeff then margin else ⟨0, 0⟩
  moneyRound (.finite (Dec.add (Dec.ofUnits 2 netPrice)
    (Dec.percent (Dec.mul margin (remainder discount)))))

/-- `PricingService.resolve` -/
def resolve (flagEnabled : Bool) (ctx : PricingContext) : Except Exc PricingQuote := do
  let listPrice ← moneyRound ctx.listPrice
  -- `pricing_context_hash` writes both prices rounded, whatever the profile
  let _ ← ctx.netPrice.mapM moneyRound
  match ctx.profile with
  | none => return retailQuote listPrice .retail
  | some p =>
    if ¬ flagEnabled ∨ ¬ p.isEffective ctx.timestamp then return retailQuote listPrice .retail
    let discount := p.discountPercent
    if discount ≤ 0 then return profileQuote p listPrice listPrice 0 .none
    if p.floorPolicy = .none then
      return profileQuote p listPrice (← legacyPercentOffList listPrice discount) discount .discount
    match ctx.netPrice with
    | none => return retailQuote listPrice .retail
    | some net =>
      let netPrice ← moneyRound net
      if listPrice < netPrice then return retailQuote listPrice .invalidMargin
      return profileQuote p listPrice (← marginShareCustomer listPrice netPrice discount)
        discount .discount

end Roamkit.Pricing
