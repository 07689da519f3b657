import Roamkit.Spend.Orders

/-!
# `TopupService`

What `purchase` does in each of its steps: check the key and the owner, find the
package among those the provider lists, reserve the top-up and debit it, persist
the provider's result, or fail the top-up and refund it.
-/

namespace Roamkit.Spend

open Lib Billing Airalo

/-- The arguments of `purchase`; the eSIM is the copy the caller loaded. -/
structure PurchaseArgs where
  esim : Esim
  packageId : String
  idempotencyKey : String
  account : Option Uuid

variable (a : PurchaseArgs) (c : SpendSettings)

/-- The account a call spends from. -/
def PurchaseArgs.spendAccount : Uuid := a.account.getD a.esim.account

/-- The part of `purchase` before it asks the provider for its packages. -/
def PurchaseArgs.check (s : SpendDb) : Except Exc Unit :=
  if a.idempotencyKey = "" then
    .error (.idempotencyKeyRequired "idempotency_key is required")
  else
    match a.account with
    | none => .ok ()
    | some account =>
      if account ≠ a.esim.account
          ∧ (s.topups.find? (·.idempotencyKey = a.idempotencyKey)).isNone then
        .error (.esimOwnershipChanged "Resolved Account does not own this eSIM")
      else .ok ()

/-- `_resolve_package` -/
def resolvePackage (a : PurchaseArgs) (r : HttpReply) :
    Except Exc TopupPackage := do
  let packages ← topupPackages c.writer a.esim.iccid r
  match packages.find? (·.externalId = a.packageId) with
  | some package => .ok package
  | none =>
    .error (.topupPackageNotFound
      ("Top-up package " ++ PyText.repr a.packageId ++ " is not available for this eSIM"))

/-- `resolve_topup_charge`, as `amount` is read off it. -/
def resolveTopupCharge (s : SpendDb) (account : Uuid) (package : TopupPackage)
    (profile : Option Pricing.PricingProfile) : Except Exc PyDecimal :=
  if ¬ c.pricingProfilesEnabled then .ok package.priceUsd
  else if (s.books.accounts.find? (·.id = account)).isNone then .error (.doesNotExist "Account")
  else do
    let quote ← Pricing.resolve c.pricingProfilesEnabled
      ⟨package.priceUsd, package.netPriceUsd, s.now, profile⟩
    return Pricing.cents quote.customerPrice

/-- The number of the next top-up of an eSIM. -/
def nextSequence (s : SpendDb) (esim : Nat) : Nat :=
  s.topups.rows.foldr (fun t n => if t.esim = esim then max n (t.sequence + 1) else n) 1

/-- The row `_reserve_and_debit` creates. -/
def PurchaseArgs.newTopup (s : SpendDb) (package : TopupPackage) (id : Uuid)
    (amount : Amount) : Topup where
  id
  account := a.spendAccount
  esim := a.esim.id
  packageExternalId := package.externalId
  amount
  status := .fulfilling
  sequence := nextSequence s a.esim.id
  externalOrderId := ""
  idempotencyKey := a.idempotencyKey
  createdAt := s.now

/-- The finite value of a decimal. -/
def finite? : PyDecimal → Option Dec
  | .finite d => some d
  | _ => none

/-- A value as `esims_topup.amount` stores it; `none` where the check constraint refuses it. -/
def storedAmount (d : Dec) : Option Amount :=
  if h : 0 < d.units 6 ∧ d.units 6 < maxMoney then some ⟨d.units 6, h.1, h.2⟩ else none

/-- The checks of the row's values; the decimals are validated before anything is inserted. -/
def PurchaseArgs.columns (package : TopupPackage) (amount : PyDecimal) :
    Except Exc (Option Amount) :=
  match finite? amount, finite? package.priceUsd, finite? (package.netPriceUsd.getD noPrice) with
  | some amount, some list, some net =>
    if fitsNumeric 20 6 amount && fitsNumeric 10 2 list && fitsNumeric 20 6 net
        && package.externalId.length ≤ 64 && a.idempotencyKey.length ≤ 128 then
      .ok (storedAmount amount)
    else .error .data
  | _, _, _ => .error .validation

/--
`TopupService._reserve_and_debit`. A row that the look-up missed, or an amount
that is not positive, makes the insert fail, and the query the handler then makes
is in a broken transaction.
-/
def reserveTopup (s : SpendDb) (a : PurchaseArgs) (package : TopupPackage) (d : Draw Uuid) :
    Except Exc (SpendDb × Reserved Topup) :=
  if ¬ c.billingEnabled then .error (.billingDisabled "Billing is disabled")
  else
    match if d.raced then none else s.topups.find? (·.idempotencyKey = a.idempotencyKey) with
    | some existing =>
      if existing.status = .fulfilling then
        .error (.spendInProgress "Top-up request is still in progress")
      else .ok (s, .replay existing)
    | none =>
      match s.esims.find? (·.id = a.esim.id) with
      | none => .error (.doesNotExist "Esim")
      | some locked =>
        if locked.account ≠ a.spendAccount then
          .error (.esimOwnershipChanged "Resolved Account does not own this eSIM")
        else do
          let amount ← resolveTopupCharge c s a.spendAccount package d.profile
          match ← a.columns package amount with
          | none => .error .transactionManagement
          | some stored =>
            let topup := a.newTopup s package d.id stored
            match s.topups.insert? topup with
            | none => .error .transactionManagement
            | some topups =>
              let src := Source.topup topup.id
              let p ← preparePosting topup.account (.decimal amount) (.member .topup)
                src.reference src.debitKey false
              let (books, _) ← s.books.apply p
              .ok ({ s with topups, books }, .fresh topup)

/-- A row as `_compensate_failed` saves it. -/
def failedTopup (t : Topup) : Topup := { t with status := .failed }

/-- `TopupService._compensate_failed` -/
def compensateTopup (s : SpendDb) (t : Topup) (account : Uuid) : Except Exc SpendDb :=
  match s.topups.find? (·.id = t.id) with
  | none => .error (.doesNotExist "Topup")
  | some locked =>
    if locked.status = .failed then .ok s
    else do
      let src := Source.topup locked.id
      let p ← preparePosting account (.decimal (.finite (Dec.ofUnits 6 locked.amount.micros)))
        (.member .refund) src.reference src.refundKey true
      let (books, _) ← s.books.apply p
      .ok { s.saveTopup t.id failedTopup (fun _ _ h => h) with books }

/-- A row as `_persist_fulfillment` saves it. -/
def fulfilledTopup (externalOrderId : String) (t : Topup) : Topup :=
  { t with externalOrderId, status := .fulfilled }

/-- `TopupService._persist_fulfillment` -/
def persistTopup (s : SpendDb) (t : Topup) (package : TopupPackage) (result : TopupResult)
    (d : PersistDraw) : Except Exc SpendDb :=
  if 64 < result.externalOrderId.length then .error .data
  else
    (s.saveTopup t.id (fulfilledTopup result.externalOrderId) (fun _ _ h => h)).accrue c .topup
      t.id.str (finite? package.priceUsd) (package.netPriceUsd.bind finite?) d.accountUser d

end Roamkit.Spend
