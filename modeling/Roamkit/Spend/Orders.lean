import Roamkit.Spend.Rows

/-!
# `OrderService`

What `fulfill` does in each of its transactions: reserve the order and debit it,
persist the provider's result, or fail the order and refund it.
-/

namespace Roamkit.Spend

open Lib Billing Airalo

/-- A package of the catalog; prices in cents. -/
structure Package where
  externalId : String
  priceUsd : Int
  netPriceUsd : Option Int
deriving DecidableEq

/-- The arguments of `fulfill`. -/
structure FulfillArgs where
  user : UserId
  /-- What `ensure_billing_account(user)` answers. -/
  billingAccount : Uuid
  package : Package
  customerRef : Option String
  skipPayment : Bool
  idempotencyKey : Option String
  account : Option Uuid

/-- The account a call spends from. -/
def FulfillArgs.spendAccount (a : FulfillArgs) : Uuid := a.account.getD a.billingAccount

/-- `text or None` -/
def nonempty (text : Option String) : Option String := text.filter (· ≠ "")

/-- What a reservation gets from outside. -/
structure Draw (ι : Type) where
  /-- The primary key of a new row. -/
  id : ι
  /-- The look-up by key ran before a row with it was committed. -/
  raced : Bool
  /-- The pricing profile of the account. -/
  profile : Option Pricing.PricingProfile

/-- What a reservation gives. -/
inductive Reserved (ρ : Type) where
  | replay (row : ρ)
  | fresh (row : ρ)

variable (c : SpendSettings) (o : Order) (s : SpendDb)

/-- `resolve_package_charge`: what the customer pays and the list price, in cents. -/
def resolvePackageCharge (s : SpendDb) (account : Uuid) (package : Package)
    (profile : Option Pricing.PricingProfile) : Except Exc (Int × Int) :=
  if ¬ c.pricingProfilesEnabled then .ok (package.priceUsd, package.priceUsd)
  else if (s.books.accounts.find? (·.id = account)).isNone then .error (.doesNotExist "Account")
  else do
    let quote ← Pricing.resolve c.pricingProfilesEnabled
      ⟨Pricing.cents package.priceUsd, package.netPriceUsd.map Pricing.cents, s.now, profile⟩
    return (quote.customerPrice, quote.listPrice)

/-- `max_digits=10, decimal_places=2`, in cents. -/
def maxPrice : Nat := 10 ^ 10

/-- Whether every value fits its column. -/
def Order.fits : Bool :=
  o.customerRef.length ≤ 255 && (o.idempotencyKey.getD "").length ≤ 128
    && o.packageExternalId.length ≤ 64 && o.retailPriceUsd.natAbs < maxPrice
    && o.listPriceUsd.natAbs < maxPrice && (o.netPriceUsd.getD 0).natAbs < maxPrice

/-- The row `_reserve_and_debit` creates. -/
def FulfillArgs.newOrder (a : FulfillArgs) (id : Nat) (charge listPrice : Int) (now : Time) :
    Order where
  id
  account := a.spendAccount
  status := .fulfilling
  externalOrderId := ""
  customerRef := (nonempty a.customerRef).getD ("rk-" ++ toString id)
  idempotencyKey := nonempty a.idempotencyKey
  packageExternalId := a.package.externalId
  retailPriceUsd := charge
  listPriceUsd := listPrice
  netPriceUsd := a.package.netPriceUsd
  createdAt := now
  skipPayment := a.skipPayment

/-- `filter(idempotency_key=…).first()`, when there is a key to look up. -/
def SpendDb.orderOfKey (key : Option String) : Option Order :=
  if key = none then none else s.orders.find? (·.idempotencyKey = key)

/--
`OrderService._reserve_and_debit`. A row that the look-up missed makes the insert
fail, and the query the handler then makes is in a broken transaction.
-/
def reserveOrder (s : SpendDb) (a : FulfillArgs) (d : Draw Nat) :
    Except Exc (SpendDb × Reserved Order) :=
  match if d.raced then none else s.orderOfKey (nonempty a.idempotencyKey) with
  | some existing =>
    if existing.status = .fulfilling then
      .error (.spendInProgress "Order request is still in progress")
    else .ok (s, .replay existing)
  | none => do
    let (charge, listPrice) ← resolvePackageCharge c s a.spendAccount a.package d.profile
    let order := a.newOrder d.id charge listPrice s.now
    if ¬ order.fits then .error .data
    else
      match s.orders.insert? order with
      | none => .error .transactionManagement
      | some orders =>
        if a.skipPayment then
          if (s.books.accounts.find? (·.id = order.account)).isNone then .error .integrity
          else .ok ({ s with orders }, .fresh order)
        else if ¬ c.billingEnabled then .error (.billingDisabled "Billing is disabled")
        else
          let src := Source.order order.id
          let p ← preparePosting order.account (.decimal (Pricing.cents order.retailPriceUsd))
            (.member .order) src.reference src.debitKey false
          let (books, _) ← s.books.apply p
          .ok ({ s with orders, books }, .fresh order)

/-- A row as `_compensate_failed` saves it. -/
def failedOrder : Order := { o with status := .failed }

/-- `OrderService._compensate_failed` -/
def compensateOrder (o : Order) (account : Uuid) (skipPayment : Bool) :
    Except Exc SpendDb :=
  match s.orders.find? (·.id = o.id) with
  | none => .error (.doesNotExist "Order")
  | some locked =>
    if locked.status = .failed then .ok s
    else
      let s' := s.saveOrder o.id failedOrder (fun _ _ h => h)
      if skipPayment then .ok s'
      else do
        let src := Source.order locked.id
        let p ← preparePosting account (.decimal (Pricing.cents locked.retailPriceUsd))
          (.member .refund) src.reference src.refundKey true
        let (books, _) ← s.books.apply p
        .ok { s' with books }

/-! ## The eSIMs of an order -/

/-- `initial_credit_key` -/
def initialCreditKey (esim : Nat) : String := "initial-credit:" ++ toString esim

/-- A number of cents as an amount. -/
def amountOfCents (n : Int) : Option Amount :=
  if h : 0 < n * 10000 then
    if h' : n * 10000 < maxMoney then some ⟨n * 10000, h, h'⟩ else none
  else none

/-- The row `ensure_initial_credit_topup` creates. -/
def initialCredit (esim : Esim) (o : Order) (package : Package) (amount : Amount) (id : Uuid) :
    Topup where
  id
  account := esim.account
  esim := esim.id
  packageExternalId :=
    let external := PyText.strip o.packageExternalId
    if external = "" then package.externalId else external
  amount
  status := .fulfilled
  sequence := 0
  externalOrderId := String.ofList (o.externalOrderId.toList.take 64)
  idempotencyKey := initialCreditKey esim.id
  createdAt := o.createdAt

/-- What the initial credit is worth, in cents: the price of the order, or else of the package. -/
def initialCreditPrice (package : Package) : Int :=
  if o.retailPriceUsd ≤ 0 then package.priceUsd else o.retailPriceUsd

/-- `ensure_initial_credit_topup` -/
def ensureInitialCredit (esim : Esim) (o : Order) (package : Package) (id : Uuid) :
    Except Exc SpendDb :=
  if (s.topups.find? (·.idempotencyKey = initialCreditKey esim.id)).isSome then .ok s
  else if initialCreditPrice o package ≤ 0 then .error .valueError
  else
    match amountOfCents (initialCreditPrice o package) with
    | none => .error .data
    | some amount =>
      match s.topups.insert? (initialCredit esim o package amount id) with
      | none => .error .integrity
      | some topups => .ok { s with topups }

/-- Whether the values of an eSIM fit their columns. -/
def simFits (sim : OrderedSimDTO) (installationGuideUrl : String) : Bool :=
  sim.iccid.length ≤ 32 && sim.lpa.length ≤ 255 && (PyText.strip sim.matchingId).length ≤ 128
    && sim.qrcodeUrl.length ≤ 512 && sim.directAppleInstallationUrl.length ≤ 1024
    && installationGuideUrl.length ≤ 512

/-- The row `create_purchased` creates. -/
def purchasedEsim (user : UserId) (sim : OrderedSimDTO) (id : Nat) (now : Time) :
    Esim where
  id
  account := o.account
  user
  order := o.id
  iccid := sim.iccid
  matchingId := PyText.strip sim.matchingId
  usage := .blank
  setupCompletedAt := none
  createdAt := now

/-- `LifecycleService.create_purchased` -/
def createPurchased (o : Order) (user : UserId) (package : Package)
    (installationGuideUrl : String) (sim : OrderedSimDTO) (id : Nat) (topupId : Uuid) :
    Except Exc SpendDb :=
  if ¬ simFits sim installationGuideUrl then .error .data
  else
    let esim := purchasedEsim o user sim id s.now
    match s.esims.insert? esim with
    | none => .error .integrity
    | some esims => ensureInitialCredit { s with esims } esim o package topupId

/-- What a fulfilment gets from outside. -/
structure PersistDraw where
  /-- The primary keys of the n-th eSIM and of its initial credit. -/
  sim : Nat → Nat × Uuid
  /-- `topup.account.user` -/
  accountUser : Option UserId
  /-- The customer's attribution and its channel. -/
  attribution : Option ChannelView
  accrualId : Uuid

/-- The loop over `result.sims`, from the n-th on. -/
def createSims (s : SpendDb) (o : Order) (user : UserId) (package : Package)
    (installationGuideUrl : String) (d : PersistDraw) :
    Nat → List OrderedSimDTO → Except Exc SpendDb
  | _, [] => .ok s
  | n, sim :: sims => do
    let s' ← createPurchased s o user package installationGuideUrl sim (d.sim n).1 (d.sim n).2
    createSims s' o user package installationGuideUrl d (n + 1) sims

/-- `partner_margin_service.accrue(…)` on the ledger of the database. -/
def SpendDb.accrue (s : SpendDb) (sourceType : SourceType) (sourceId : String)
    (listPrice netPrice : Option Dec) (customer : Option UserId) (d : PersistDraw) :
    Except Exc SpendDb := do
  let m ← (MarginBooks.mk s.books s.accruals).accrue c.partnerChannelEnabled sourceType sourceId
    listPrice netPrice customer d.attribution d.accrualId
  return { s with books := m.books, accruals := m.accruals }

/-- A row as `_persist_fulfillment` saves it. -/
def fulfilledOrder (externalOrderId : String) (o : Order) : Order :=
  { o with externalOrderId, status := .fulfilled }

/-- `OrderService._persist_fulfillment` -/
def persistOrder (s : SpendDb) (o : Order) (user : UserId) (package : Package)
    (result : OrderResult) (d : PersistDraw) : Except Exc SpendDb :=
  if 64 < result.externalOrderId.length then .error .data
  else do
    let s₁ := s.saveOrder o.id (fulfilledOrder result.externalOrderId) (fun _ _ h => h)
    let s₂ ← createSims s₁ (fulfilledOrder result.externalOrderId o) user package
      result.installationGuideUrl d 0 result.sims
    s₂.accrue c .order (toString o.id) (some (Dec.ofUnits 2 o.listPriceUsd))
      (o.netPriceUsd.map (Dec.ofUnits 2)) (some user) d

end Roamkit.Spend
