import Roamkit.Airalo.Client
import Roamkit.Billing.PartnerMargin
import Roamkit.Pricing.Charge

/-!
# Orders, top-ups and eSIMs

The rows a purchase writes. An `Order` buys a package of the catalog and brings
eSIMs; a `Topup` buys a package for an eSIM that is there. Both reserve a row,
debit its price, ask the provider, and then persist the result or refund.

To the ledger the two are alike, and a `Purchase` is what they have in common:
an account, a charge and a status. Its `movements` are what should stand in the
ledger for it.
-/

namespace Roamkit.Spend

open Lib Billing

/-! ## Rows -/

inductive OrderStatus where
  | draft
  | pendingPayment
  | paid
  | fulfilling
  | fulfilled
  | failed
  | cancelled
deriving DecidableEq

/-- An order; prices in cents. -/
structure Order where
  id : Nat
  account : Uuid
  status : OrderStatus
  externalOrderId : String
  customerRef : String
  idempotencyKey : Option String
  packageExternalId : String
  retailPriceUsd : Int
  listPriceUsd : Int
  netPriceUsd : Option Int
  createdAt : Time
  /-- Not a column: whether the order was placed without payment. -/
  skipPayment : Bool
deriving DecidableEq

instance : Constraint Order where
  clash o p := o.id = p.id ∨ (o.idempotencyKey ≠ none ∧ o.idempotencyKey = p.idempotencyKey)
  symm := by
    intro o p h
    rcases h with h | ⟨hne, h⟩
    · exact .inl h.symm
    · exact .inr ⟨h ▸ hne, h.symm⟩
  decClash _ _ := inferInstance

inductive TopupStatus where
  | fulfilling
  | fulfilled
  | failed
deriving DecidableEq

/-- A top-up; `sequence` 0 is the initial credit of the eSIM, which is no purchase. -/
structure Topup where
  id : Uuid
  account : Uuid
  esim : Nat
  packageExternalId : String
  amount : Amount
  status : TopupStatus
  sequence : Nat
  externalOrderId : String
  idempotencyKey : String
  createdAt : Time
deriving DecidableEq

instance : Constraint Topup where
  clash t u := t.id = u.id ∨ t.idempotencyKey = u.idempotencyKey
    ∨ (t.esim = u.esim ∧ t.sequence = u.sequence)
  symm := by
    intro t u h
    rcases h with h | h | ⟨h, h'⟩
    · exact .inl h.symm
    · exact .inr (.inl h.symm)
    · exact .inr (.inr ⟨h.symm, h'.symm⟩)
  decClash _ _ := inferInstance

/-- The usage columns of an eSIM. -/
structure UsageCache where
  remainingMb : Option Int
  totalMb : Option Int
  status : String
  isUnlimited : Option Bool
  expiredAt : Option Time
  syncedAt : Option Time
deriving DecidableEq

def UsageCache.blank : UsageCache := ⟨none, none, "", none, none, none⟩

structure Esim where
  id : Nat
  account : Uuid
  user : UserId
  order : Nat
  iccid : String
  matchingId : String
  usage : UsageCache
  setupCompletedAt : Option Time
  createdAt : Time
deriving DecidableEq

instance : Constraint Esim where
  clash e f := e.id = f.id ∨ e.iccid = f.iccid ∨ (e.matchingId ≠ "" ∧ e.matchingId = f.matchingId)
  symm := by
    intro e f h
    rcases h with h | h | ⟨hne, h⟩
    · exact .inl h.symm
    · exact .inr (.inl h.symm)
    · exact .inr (.inr ⟨h ▸ hne, h.symm⟩)
  decClash _ _ := inferInstance

/-! ## What the ledger knows of a purchase -/

/-- The row a movement of the ledger is for. -/
inductive Source where
  | order (id : Nat)
  | topup (id : Uuid)
deriving DecidableEq

namespace Source

/-- `str(row.pk)` -/
def reference : Source → String
  | order id => toString id
  | topup id => id.str

/-- `f"order-debit:{order.pk}"`, `f"topup-debit:{topup.pk}"` -/
def debitKey : Source → String
  | order id => "order-debit:" ++ toString id
  | topup id => "topup-debit:" ++ id.str

/-- `f"order-refund:{locked.pk}"`, `f"topup-refund:{locked.pk}"` -/
def refundKey : Source → String
  | order id => "order-refund:" ++ toString id
  | topup id => "topup-refund:" ++ id.str

def referenceType : Source → LedgerReferenceType
  | order _ => .order
  | topup _ => .topup

end Source

/-- The reference types of purchases and their refunds. -/
def isSpendType (t : LedgerReferenceType) : Bool := t = .order || t = .topup || t = .refund

/-- An entry but for the balance it left. -/
structure Movement where
  account : Uuid
  delta : Int
  referenceType : LedgerReferenceType
  referenceId : String
  idempotencyKey : String
deriving DecidableEq

/-- The movement of an entry. -/
def movement (e : CreditLedgerEntry) : Movement :=
  ⟨e.account, e.delta, e.referenceType, e.referenceId, e.idempotencyKey⟩

variable (src : Source)

/-- A movement is for a row by its key, or by its type and reference. -/
def Source.owns (m : Movement) : Bool :=
  m.idempotencyKey = src.debitKey || m.idempotencyKey = src.refundKey
    || (isSpendType m.referenceType && m.referenceId = src.reference)

/-- The movements made for a row, in the order they were made. -/
def movementsOf (b : Books) (src : Source) : List Movement :=
  (b.entries.rows.map movement).filter src.owns

/-- What an order and a top-up have in common; the charge in millionths. -/
structure Purchase where
  account : Uuid
  charge : Option Int
  status : OrderStatus
deriving DecidableEq

namespace Purchase

def debit (account : Uuid) (charge : Int) : Movement :=
  ⟨account, -charge, src.referenceType, src.reference, src.debitKey⟩

def refund (account : Uuid) (charge : Int) : Movement :=
  ⟨account, charge, .refund, src.reference, src.refundKey⟩

/-- What should stand in the ledger for a purchase. -/
def movements (p : Purchase) : List Movement :=
  match p.charge with
  | none => []
  | some m => debit src p.account m :: if p.status = .failed then [refund src p.account m] else []

end Purchase

/-- The price in millionths. -/
def Order.charge (o : Order) : Option Int :=
  if o.skipPayment then none else some (o.retailPriceUsd * 10000)

def Order.purchase (o : Order) : Purchase := ⟨o.account, o.charge, o.status⟩

def TopupStatus.toOrder : TopupStatus → OrderStatus
  | fulfilling => .fulfilling
  | fulfilled => .fulfilled
  | failed => .failed

/-- An initial credit charges nothing. -/
def Topup.charge (t : Topup) : Option Int :=
  if t.sequence = 0 then none else some t.amount.micros

def Topup.purchase (t : Topup) : Purchase := ⟨t.account, t.charge, t.status.toOrder⟩

/-! ## The database -/

/-- What the provider did with a purchase: whether it took it, and how the exchange ended. -/
structure Exchange where
  accepted : Bool
  reply : Airalo.HttpReply

structure SpendDb where
  books : Books
  accruals : Table PartnerMarginAccrual
  orders : Table Order
  topups : Table Topup
  esims : Table Esim
  /-- What the provider was asked, which the database does not know. -/
  provider : Source → Option Exchange
  now : Time

variable (s : SpendDb)

namespace SpendDb

/-- The purchase a source is, when its row is there. -/
def purchase? : Source → Option Purchase
  | .order id => (s.orders.find? (·.id = id)).map Order.purchase
  | .topup id => (s.topups.find? (·.id = id)).map Topup.purchase

/-- What should stand in the ledger for a source. -/
def movements (src : Source) : List Movement :=
  match s.purchase? src with
  | none => []
  | some p => p.movements src

def saveOrder (id : Nat) (f : Order → Order) (hf : Table.Keeps f) : SpendDb :=
  { s with orders := s.orders.update (·.id = id) f hf }

def saveTopup (id : Uuid) (f : Topup → Topup) (hf : Table.Keeps f) : SpendDb :=
  { s with topups := s.topups.update (·.id = id) f hf }

/-- The provider's record of a purchase. -/
def record (src : Source) (x : Exchange) : SpendDb :=
  { s with provider := Function.update s.provider src (some x) }

end SpendDb

/-- The settings the spend services read. -/
structure SpendSettings where
  billingEnabled : Bool
  pricingProfilesEnabled : Bool
  partnerChannelEnabled : Bool
  /-- How the running Python writes floats, lists and objects. -/
  writer : Json.Writer

end Roamkit.Spend
