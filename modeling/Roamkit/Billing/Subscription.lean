import Mathlib.Data.List.Sort
import Roamkit.Billing.PartnerMargin
import Roamkit.Lib.Dates

/-!
# Subscription renewals

`SubscriptionService` renews what is due against prepaid credits. The row of the
renewal cycle is committed first, with the prices it is for; then one transaction
locks the cycle and the subscription, debits the account and moves the date on, or
pauses both.

`renewalProgram` runs any number of `renew_due` and `renew_one` calls at once, with
edits of subscriptions and other services' postings in between. A query outside
the money transaction is one step, and so is that transaction. What `accrue` reads
of other rows comes in with the step.
-/

namespace Roamkit.Billing

open Lib

inductive SubscriptionStatus where
  | active
  | paused
  | expired
deriving DecidableEq

structure Subscription where
  id : Uuid
  account : Uuid
  pricePerPeriod : Amount
  nextBillingDate : Date
  status : SubscriptionStatus
deriving DecidableEq

instance : Constraint Subscription where
  clash r q := r.id = q.id
  symm := Eq.symm
  decClash _ _ := inferInstance

inductive CycleStatus where
  | pending
  | renewed
  | paused
  | failed
deriving DecidableEq

/-- `status in ["pending", "paused", "failed"]` -/
def CycleStatus.isUnfinished (status : CycleStatus) : Bool := status ≠ .renewed

structure SubscriptionRenewalCycle where
  id : Uuid
  subscription : Uuid
  billingDate : Date
  renewalListPrice : Dec
  renewalNetPrice : Option Dec
  status : CycleStatus
deriving DecidableEq

instance : Constraint SubscriptionRenewalCycle where
  clash a b := a.id = b.id ∨ (a.subscription = b.subscription ∧
    (a.billingDate = b.billingDate
      ∨ (a.status.isUnfinished = true ∧ b.status.isUnfinished = true)))
  symm := by
    intro a b h
    rcases h with h | ⟨h, h' | ⟨ha, hb⟩⟩
    · exact .inl h.symm
    · exact .inr ⟨h.symm, .inl h'.symm⟩
    · exact .inr ⟨h.symm, .inr ⟨hb, ha⟩⟩
  decClash _ _ := inferInstance

/-- The settings the service reads. -/
structure RenewalSettings where
  billingEnabled : Bool
  subscriptionsEnabled : Bool
  partnerChannelEnabled : Bool

/-- `SUBSCRIPTION_PERIOD_DAYS` -/
def subscriptionPeriodDays : Int := 30

/-- `f"subscription-renew:{locked.pk}:{billing_date.isoformat()}"` -/
def renewalKey (subscription : Uuid) (billingDate : Date) : String :=
  "subscription-renew:" ++ subscription.str ++ ":" ++ billingDate.isoformat

/-- `build_source_id` of a renewal. -/
def renewalSourceId (subscription : Uuid) (billingDate : Date) : String :=
  subscription.str ++ ":" ++ billingDate.isoformat

/-! ## Calls in flight -/

/-- A posting of another service: no subscription's debit, and not under a renewal's key. -/
structure BalancePosting where
  posting : Posting
  notSubscription : posting.referenceType ≠ .subscription
  notRenewalKey : ∀ id date, posting.idempotencyKey ≠ renewalKey id date

/-- A call; `today` is its `as_of`, or the local date. -/
inductive RenewalCall where
  | renewOne (id : Uuid) (today : Date)
  | renewDue (today : Date)
  /-- `SubscriptionAdmin` saves a row, all columns of it. -/
  | edit (row : Subscription)
  | post (p : BalancePosting)

def RenewalCall.today? : RenewalCall → Option Date
  | renewOne _ today => some today
  | renewDue today => some today
  | _ => none

/-- What `renew_one` answers. -/
inductive RenewalOutcome where
  | renewed
  | paused
  | skipped
deriving DecidableEq

/-- Where a call is. -/
inductive RenewalPc where
  /-- Not begun. -/
  | asked
  /-- `renew_one` before its first query. -/
  | reading (id : Uuid)
  /-- `get_or_create_renewal_cycle`, before its look-up, -/
  | cycling (current : Subscription)
  /-- before its insert, -/
  | opening (current : Subscription)
  /-- and after the insert met a row. -/
  | raced (current : Subscription)
  /-- Before the money transaction. -/
  | renewing (id : Uuid) (billingDate : Date)
  | returned
  | raised (e : Exc)

/-- `left` is what `renew_due` still has to renew, `results` what `renew_one` has answered. -/
structure RenewalThread where
  call : RenewalCall
  results : List (Uuid × RenewalOutcome)
  left : List Uuid
  pc : RenewalPc

variable (t : RenewalThread)

/-- `stats` of `renew_due`: how often an outcome was answered. -/
def RenewalThread.stats (o : RenewalOutcome) : Nat :=
  t.results.countP fun r => r.2 = o

/-- The prices of the package of a subscription's eSIM. -/
structure PackagePrices where
  priceUsd : Dec
  netPriceUsd : Option Dec

/-- What `accrue` reads of the customer and of the channel, and the UUID it draws. -/
structure AccrualView where
  customer : Option UserId
  attribution : Option ChannelView
  accrualId : Uuid

/-- What a step gets from outside. -/
inductive RenewalInput where
  | go
  | opens (id : Uuid) (prices : PackagePrices)
  | accrues (v : AccrualView)
  | fail

structure RenewalDb where
  books : Books
  accruals : Table PartnerMarginAccrual
  subscriptions : Table Subscription
  cycles : Table SubscriptionRenewalCycle

variable (s : RenewalDb) (c : RenewalSettings)

namespace RenewalDb

/-- `order_by("next_billing_date", "pk")` -/
def billedBefore (r q : Subscription) : Bool :=
  r.nextBillingDate.days < q.nextBillingDate.days
    || (r.nextBillingDate = q.nextBillingDate && r.id.str ≤ q.id.str)

/-- `due_ids` -/
def dueIds (today : Date) : List Uuid :=
  ((s.subscriptions.rows.filter fun r =>
    r.status = .active && r.nextBillingDate ≤ today).insertionSort (billedBefore · ·)).map (·.id)

/-- The cycle of a subscription and a date. -/
def cycleOf (id : Uuid) (billingDate : Date) : Option SubscriptionRenewalCycle :=
  s.cycles.find? fun c => c.subscription = id && c.billingDate = billingDate

/-- The row `get_or_create_renewal_cycle` inserts. -/
def pendingCycle (id : Uuid) (current : Subscription) (prices : PackagePrices) :
    SubscriptionRenewalCycle where
  id
  subscription := current.id
  billingDate := current.nextBillingDate
  renewalListPrice := prices.priceUsd
  renewalNetPrice := prices.netPriceUsd
  status := .pending

/-- The rows after a subscription that was locked is saved with another status. -/
def saveStatus (id : Uuid) (status : SubscriptionStatus) : RenewalDb :=
  { s with
    subscriptions := s.subscriptions.update (·.id = id) (fun r => { r with status })
      (fun _ _ h => h) }

/-- The rows after it is saved with another date. -/
def saveDate (id : Uuid) (nextBillingDate : Date) : RenewalDb :=
  { s with
    subscriptions := s.subscriptions.update (·.id = id) (fun r => { r with nextBillingDate })
      (fun _ _ h => h) }

/-- A cycle that is done with. -/
def finished (c : SubscriptionRenewalCycle) :
    SubscriptionRenewalCycle := { c with status := .renewed }

theorem finished_keeps : Table.Keeps finished := by
  rintro a b (h | ⟨h, h' | ⟨ha, _⟩⟩)
  · exact .inl h
  · exact .inr ⟨h, .inl h'⟩
  · cases ha

/-- The rows after a cycle that was locked is saved as renewed. -/
def saveRenewed (id : Uuid) : RenewalDb :=
  { s with cycles := s.cycles.update (·.id = id) finished finished_keeps }

/-- The branch that is out of funds. -/
def pause (cycle : SubscriptionRenewalCycle) (locked : Subscription) :
    Except Exc RenewalDb :=
  match s.cycles.update? (·.id = cycle.id) fun c => { c with status := .paused } with
  | none => .error .integrity
  | some cycles => .ok ({ s with cycles }.saveStatus locked.id .paused)

/-- The branch that was debited. -/
def settle (s : RenewalDb) (cycle : SubscriptionRenewalCycle) (locked : Subscription)
    (books : Books) (v : AccrualView) : Except Exc RenewalDb :=
  match cycle.billingDate.addDays? subscriptionPeriodDays with
  | none => .error .overflowError
  | some next => do
    let s' := ({ s with books }.saveDate locked.id next).saveRenewed cycle.id
    let m ← (MarginBooks.mk s'.books s'.accruals).accrue c.partnerChannelEnabled .subscription
      (renewalSourceId locked.id cycle.billingDate) (some cycle.renewalListPrice)
      cycle.renewalNetPrice v.customer v.attribution v.accrualId
    return { s' with books := m.books, accruals := m.accruals }

/--
The money transaction of `renew_one`. The cycle is looked up by the pair, so its
check that they match holds.
-/
def renew (s : RenewalDb) (id : Uuid) (billingDate : Date) (v : AccrualView) :
    Except Exc (RenewalDb × RenewalOutcome) :=
  match s.cycleOf id billingDate with
  | none => .error (.doesNotExist "SubscriptionRenewalCycle")
  | some cycle =>
    match s.subscriptions.find? (·.id = id) with
    | none => .ok (s, .skipped)
    | some locked =>
      if cycle.status = .renewed then .ok (s, .renewed)
      else if locked.status ≠ .active then .ok (s, .skipped)
      else if locked.nextBillingDate ≠ billingDate then .ok (s, .skipped)
      else do
        let p ← preparePosting locked.account
          (.decimal (.finite (Dec.ofUnits 6 locked.pricePerPeriod.micros)))
          (.member .subscription) locked.id.str (renewalKey locked.id billingDate) false
        match s.books.apply p with
        | .error (.insufficientFunds _ _) => return (← s.pause cycle locked, .paused)
        | .error e => .error e
        | .ok (books, _) => return (← s.settle c cycle locked books v, .renewed)

/-- What `renew_one` does with the row of its first query. -/
def pick (id : Uuid) (today : Date) : Option Subscription :=
  match s.subscriptions.find? (·.id = id) with
  | none => none
  | some current =>
    if current.status ≠ .active then none
    else if ¬ current.nextBillingDate ≤ today then none
    else some current

/-- A form saves a row. -/
def edit (row : Subscription) : RenewalDb :=
  { s with
    subscriptions := s.subscriptions.update (·.id = row.id) (fun r => { row with id := r.id })
      (fun _ _ h => h) }

end RenewalDb

namespace RenewalThread

/-- `renew_due` goes on to its next subscription. -/
def next : RenewalThread :=
  match t.left with
  | [] => { t with pc := .returned }
  | id :: left => { t with left, pc := .reading id }

/-- `renew_one` answers. -/
def answer (id : Uuid) (o : RenewalOutcome) : RenewalThread :=
  { t with results := t.results ++ [(id, o)] }.next

def raise (e : Exc) : RenewalThread := { t with pc := .raised e }

end RenewalThread

/-- `_require_enabled` -/
def RenewalSettings.requireEnabled : Except Exc Unit :=
  if ¬ c.billingEnabled then .error (.billingDisabled "Billing is disabled")
  else if ¬ c.subscriptionsEnabled then .error (.subscriptionsDisabled "Subscriptions are disabled")
  else .ok ()

/-- The first step of a call. -/
def beginRenewal (s : RenewalDb) (t : RenewalThread) :
    RenewalDb × RenewalThread :=
  match t.call with
  | .renewOne id _ =>
    match c.requireEnabled with
    | .error e => (s, t.raise e)
    | .ok _ => (s, { t with pc := .reading id })
  | .renewDue today =>
    match c.requireEnabled with
    | .error e => (s, t.raise e)
    | .ok _ => (s, { t with left := s.dueIds today }.next)
  | .edit row => (s.edit row, { t with pc := .returned })
  | .post p =>
    match s.books.apply p.posting with
    | .error e => (s, t.raise e)
    | .ok (books, _) => ({ s with books }, { t with pc := .returned })

/-- The first query of `renew_one`. -/
def readSubscription (t : RenewalThread) (id : Uuid) (today : Date) : RenewalThread :=
  match s.pick id today with
  | none => t.answer id .skipped
  | some current => { t with pc := .cycling current }

/-- A cycle was found, or made. -/
def RenewalThread.renewing (current : Subscription) : RenewalThread :=
  { t with pc := .renewing current.id current.nextBillingDate }

/-- The look-up of `get_or_create_renewal_cycle`. -/
def lookForCycle (t : RenewalThread) (current : Subscription) : RenewalThread :=
  match s.cycleOf current.id current.nextBillingDate with
  | some _ => t.renewing current
  | none => { t with pc := .opening current }

/-- Its insert; the subscription may be gone, but no subscription ever is. -/
def openCycle (t : RenewalThread) (current : Subscription) (id : Uuid) (prices : PackagePrices) :
    RenewalDb × RenewalThread :=
  match s.cycles.insert? (RenewalDb.pendingCycle id current prices) with
  | none => (s, { t with pc := .raced current })
  | some cycles => ({ s with cycles }, t.renewing current)

/-- Its look-up after the insert met a row. -/
def lookAgain (t : RenewalThread) (current : Subscription) : RenewalThread :=
  match s.cycleOf current.id current.nextBillingDate with
  | some _ => t.renewing current
  | none => t.raise .integrity

/-- The money transaction. -/
def renewStep (s : RenewalDb) (t : RenewalThread) (id : Uuid) (date : Date) (v : AccrualView) :
    RenewalDb × RenewalThread :=
  match s.renew c id date v with
  | .error e => (s, t.raise e)
  | .ok (s', o) => (s', t.answer id o)

/-- Whether a call has a query left. -/
def RenewalPc.isLive : RenewalPc → Bool
  | .returned => false
  | .raised _ => false
  | _ => true

/-- One step of a call. -/
def renewalStep (s : RenewalDb) (t : RenewalThread) (x : RenewalInput) :
    Option (RenewalDb × RenewalThread) :=
  match t.pc, x with
  | pc, .fail => if pc.isLive then some (s, t.raise .operational) else none
  | .asked, .go => some (beginRenewal c s t)
  | .reading id, .go => t.call.today?.map fun today => (s, readSubscription s t id today)
  | .cycling current, .go => some (s, lookForCycle s t current)
  | .opening current, .opens id prices => some (openCycle s t current id prices)
  | .raced current, .go => some (s, lookAgain s t current)
  | .renewing id date, .accrues v => some (renewStep c s t id date v)
  | _, _ => none

/-- `SubscriptionService`, its calls run concurrently. -/
def renewalProgram :
    Program RenewalDb RenewalThread RenewalCall RenewalInput where
  start call := ⟨call, [], [], .asked⟩
  step := renewalStep c

end Roamkit.Billing
