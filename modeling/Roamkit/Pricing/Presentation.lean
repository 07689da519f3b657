import Roamkit.Spend.Topups

/-!
# Prices as the API shows them

The catalog and the list of top-ups show a quote for the personal account of the user who
asks. The purchase is charged to the account of its context, which may be a team's.
-/

namespace Roamkit.Pricing

open Lib Billing Spend Airalo

/-- The kinds of context `resolve_account_context` answers, with a team's account. -/
inductive AccountContext where
  | personal
  | team (account : Uuid)
deriving DecidableEq

/-- What the database holds for the user of a request: the account of the user and the profile of
each account. -/
structure PricedAccounts where
  personal : Uuid
  profile : Uuid → Option PricingProfile

/-- `context.account` -/
def AccountContext.account (r : PricedAccounts) : AccountContext → Uuid
  | personal => r.personal
  | team account => account

/-- `pricing_account_for_request`, of an authenticated user. -/
def pricingAccountForRequest (r : PricedAccounts) : Uuid := r.personal

/-- `public_price_dict`; prices in cents, the percent in hundredths. -/
structure PublicPrice where
  priceUsd : Int
  listPriceUsd : Int
  discountPercent : Int
  pricingReason : PricingReason
deriving DecidableEq

def publicPriceDict (q : PricingQuote) : PublicPrice :=
  ⟨q.customerPrice, q.listPrice, q.discountPercent, q.pricingReason⟩

/-- `resolve_package_quote`, as `PackageSerializer` shows it. -/
def packagePrice (c : SpendSettings) (now : Time) (r : PricedAccounts) (package : Package) :
    Except Exc PublicPrice :=
  publicPriceDict <$> resolve c.pricingProfilesEnabled
    ⟨cents package.priceUsd, package.netPriceUsd.map cents, now,
      r.profile (pricingAccountForRequest r)⟩

/-- `resolve_topup_quote`, as `TopupPackageSerializer` shows it. -/
def topupPrice (c : SpendSettings) (now : Time) (r : PricedAccounts) (package : TopupPackage) :
    Except Exc PublicPrice :=
  publicPriceDict <$> resolve c.pricingProfilesEnabled
    ⟨package.priceUsd, package.netPriceUsd, now, r.profile (pricingAccountForRequest r)⟩

/-- The check constraint of `PricingProfile.discount_percent`. -/
def PricingProfile.InRange (p : PricingProfile) : Prop :=
  0 ≤ p.discountPercent ∧ p.discountPercent ≤ 10000

end Roamkit.Pricing
