import Roamkit.Spend.Topups

/-!
# Purchases in flight

`spendProgram` runs any number of `OrderService.fulfill` and
`TopupService.purchase` calls at once. Each of their transactions is one step, and
so is each exchange with the provider; a transaction may fail, which rolls it
back, and the process may be gone between any two steps. Other services' postings,
eSIM transfers and the passing of time are calls of their own.
-/

namespace Roamkit.Spend

open Lib Billing Airalo

/-- A posting of another service: for no purchase, and not under a purchase's key. -/
structure ForeignPosting where
  posting : Posting
  notSpend : isSpendType posting.referenceType = false
  notKey : ∀ src : Source,
    posting.idempotencyKey ≠ src.debitKey ∧ posting.idempotencyKey ≠ src.refundKey

inductive SpendCall where
  | fulfill (a : FulfillArgs)
  | purchase (a : PurchaseArgs)
  | post (p : ForeignPosting)
  | transfer (esim : Nat) (account : Uuid) (user : UserId)
  | wait (d : Nat)

/-- A row a call reserved, with what it goes on with. -/
inductive Spending where
  | order (a : FulfillArgs) (o : Order)
  | topup (a : PurchaseArgs) (package : TopupPackage) (t : Topup)

/-- A row a call gives back. -/
inductive Row where
  | order (o : Order)
  | topup (t : Topup)

/-- What the provider sold. -/
inductive Sale where
  | order (r : OrderResult)
  | topup (r : TopupResult)

/-- Where a call is. -/
inductive SpendPc where
  /-- Not begun. -/
  | asked
  /-- `_resolve_package` -/
  | listing (a : PurchaseArgs)
  /-- `_reserve_and_debit` of a top-up. -/
  | reserving (a : PurchaseArgs) (package : TopupPackage)
  /-- The row is reserved and debited; the provider is asked. -/
  | requesting (w : Spending)
  /-- `_persist_fulfillment` -/
  | persisting (w : Spending) (sale : Sale)
  /-- `_compensate_failed`, after which `e` is raised. -/
  | compensating (w : Spending) (e : Exc)
  /-- Returned the row that has its key. -/
  | replayed (row : Row)
  /-- Returned the row it reserved. -/
  | fulfilled (row : Row)
  /-- Raised, and reserved nothing. -/
  | refused (e : Exc)
  /-- Raised after the compensation of its row. -/
  | refunded (row : Row) (e : Exc)
  /-- Raised by the transaction that persists or compensates its row. -/
  | abandoned (row : Row) (e : Exc)
  /-- The process is gone. -/
  | crashed (row : Option Row)
  /-- Another service's call is done. -/
  | done (e : Option Exc)

structure SpendThread where
  call : SpendCall
  pc : SpendPc

/-- What a step gets from outside. -/
inductive SpendInput where
  | go
  | order (d : Draw Nat)
  | topup (d : Draw Uuid)
  | answer (x : Exchange)
  | persist (d : PersistDraw)
  /-- The transaction fails. -/
  | fail
  /-- The process is gone. -/
  | crash

namespace Row

def source : Row → Source
  | order o => .order o.id
  | topup t => .topup t.id

def purchase : Row → Purchase
  | order o => o.purchase
  | topup t => t.purchase

end Row

variable (c : SpendSettings)

namespace Spending

def row : Spending → Row
  | order _ o => .order o
  | topup _ _ t => .topup t

def source (w : Spending) : Source := w.row.source

/-- The provider's answer, as the service reads it. -/
def read : Spending → HttpReply → Except Exc Sale
  | order _ o, r => .order <$> placeOrder c.writer o.customerRef r
  | topup a _ _, r => .topup <$> placeTopup c.writer a.esim.iccid r

/-- `_compensate_failed`, and the row it leaves. -/
def compensate (s : SpendDb) : Spending → Except Exc (SpendDb × Row)
  | order a o => do return (← compensateOrder s o a.spendAccount a.skipPayment,
    .order (failedOrder o))
  | topup a _ t => do return (← compensateTopup s t a.spendAccount, .topup (failedTopup t))

/-- What is raised after the compensation. -/
def raised : Spending → Exc → Exc
  | order _ _, e => e
  | topup _ _ _, _ => .providerFulfillment "Provider fulfillment failed"

/-- `_persist_fulfillment`, and the row it leaves. -/
def persist (s : SpendDb) (d : PersistDraw) :
    Spending → Sale → Except Exc (SpendDb × Row)
  | order a o, .order r => do
    return (← persistOrder c s o a.user a.package r d, .order (fulfilledOrder r.externalOrderId o))
  | topup _ package t, .topup r => do
    return (← persistTopup c s t package r d, .topup (fulfilledTopup r.externalOrderId t))
  | _, _ => .error .typeError

end Spending

/-- An eSIM as an inventory transfer saves it. -/
def transferred (account : Uuid) (user : UserId) (e : Esim) : Esim := { e with account, user }

/-- `transfer_esim_inventory`, to an account that may own the eSIM. -/
def transferEsim (s : SpendDb) (esim : Nat) (account : Uuid) (user : UserId) :
    Except Exc SpendDb :=
  match s.esims.find? (·.id = esim) with
  | none => .error (.doesNotExist "Esim")
  | some locked =>
    if locked.account = account then .ok s
    else if s.topups.rows.any fun t => t.esim = esim && t.status = .fulfilling then
      .error (.esimTransfer "A top-up is still fulfilling for this eSIM")
    else .ok { s with
      esims := s.esims.update (·.id = esim) (transferred account user) (fun _ _ h => h) }

/-- One step of a call. -/
def spendStep (s : SpendDb) (t : SpendThread) (x : SpendInput) :
    Option (SpendDb × SpendThread) :=
  let move (s : SpendDb) (pc : SpendPc) := some (s, { t with pc })
  match t.pc, x with
  | .requesting w, .crash => move s (.crashed (some w.row))
  | .persisting w _, .crash => move s (.crashed (some w.row))
  | .compensating w _, .crash => move s (.crashed (some w.row))
  | .asked, .crash => move s (.crashed none)
  | .listing _, .crash => move s (.crashed none)
  | .reserving _ _, .crash => move s (.crashed none)
  | .asked, .fail => move s (.refused .operational)
  | .reserving _ _, .fail => move s (.refused .operational)
  | .persisting w _, .fail => move s (.abandoned w.row .operational)
  | .compensating w _, .fail => move s (.abandoned w.row .operational)
  | .asked, .go =>
    match t.call with
    | .fulfill a =>
      if ¬ a.skipPayment ∧ nonempty a.idempotencyKey = none then
        move s (.refused (.idempotencyKeyRequired "idempotency_key is required"))
      else none
    | .purchase a =>
      match a.check s with
      | .error e => move s (.refused e)
      | .ok () => move s (.listing a)
    | .post p =>
      match s.books.apply p.posting with
      | .error e => move s (.done (some e))
      | .ok (books, _) => move { s with books } (.done none)
    | .transfer esim account user =>
      match transferEsim s esim account user with
      | .error e => move s (.done (some e))
      | .ok s' => move s' (.done none)
    | .wait d => move { s with now := s.now + d } (.done none)
  | .asked, .order d =>
    match t.call with
    | .fulfill a =>
      if ¬ a.skipPayment ∧ nonempty a.idempotencyKey = none then none
      else
        match reserveOrder c s a d with
        | .error e => move s (.refused e)
        | .ok (s', .replay o) => move s' (.replayed (.order o))
        | .ok (s', .fresh o) => move s' (.requesting (.order a o))
    | _ => none
  | .listing a, .answer r =>
    match resolvePackage c a r.reply with
    | .error e => move s (.refused e)
    | .ok package => move s (.reserving a package)
  | .reserving a package, .topup d =>
    match reserveTopup c s a package d with
    | .error e => move s (.refused e)
    | .ok (s', .replay u) => move s' (.replayed (.topup u))
    | .ok (s', .fresh u) => move s' (.requesting (.topup a package u))
  | .requesting w, .answer r =>
    match w.read c r.reply with
    | .error e => move (s.record w.source r) (.compensating w e)
    | .ok sale => move (s.record w.source r) (.persisting w sale)
  | .persisting w sale, .persist d =>
    match w.persist c s d sale with
    | .error e => move s (.abandoned w.row e)
    | .ok (s', row) => move s' (.fulfilled row)
  | .compensating w e, .go =>
    match w.compensate s with
    | .error e' => move s (.abandoned w.row e')
    | .ok (s', row) => move s' (.refunded row (w.raised e))
  | _, _ => none

/-- The spend services, their calls run concurrently. -/
def spendProgram : Program SpendDb SpendThread SpendCall SpendInput where
  start call := ⟨call, .asked⟩
  step := spendStep c

end Roamkit.Spend
