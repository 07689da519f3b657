import Roamkit.Accounts.Registration
import Roamkit.Spend.Locks

/-!
# Requests that race

Two requests with one idempotency key, or with one e-mail address, may both look
it up before either has committed. Here a look-up and the rest of its transaction
are two steps, and others may commit in between. The rest, from the insert on, is
one step: an insert of a value that another open transaction has inserted waits for
that transaction to end.
-/

namespace Roamkit.Accounts

open Lib Billing Airalo Spend

/-! ## The rest of a reservation -/

/-- The insert of an order. -/
def insertOrder (order : Order) (s : SpendDb) : Except Exc SpendDb :=
  if ¬ order.fits then .error .data
  else
    match s.orders.insert? order with
    | none => .error .integrity
    | some orders => .ok { s with orders }

variable (c : SpendSettings)

/-- The debit of an order that was inserted. -/
def debitOrder (a : FulfillArgs) (order : Order) (s : SpendDb) :
    Except Exc SpendDb :=
  if a.skipPayment then
    if (s.books.accounts.find? (·.id = order.account)).isNone then .error .integrity else .ok s
  else if ¬ c.billingEnabled then .error (.billingDisabled "Billing is disabled")
  else do
    let src := Source.order order.id
    let p ← preparePosting order.account (.decimal (Pricing.cents order.retailPriceUsd))
      (.member .order) src.reference src.debitKey false
    let (books, _) ← s.books.apply p
    return { s with books }

/-- An order that has the key of a request. -/
def replayOrder (existing : Order) : Except Exc (Reserved Order) :=
  if existing.status = .fulfilling then
    .error (.spendInProgress "Order request is still in progress")
  else .ok (.replay existing)

/-- The handler of the insert: look the key up again. -/
def recoverOrder (a : FulfillArgs) : Stmt SpendDb Exc (Reserved Order) :=
  .read fun s =>
    match s.orders.find? (·.idempotencyKey = nonempty a.idempotencyKey) with
    | none => .error .integrity
    | some existing => replayOrder existing

/-- `OrderService._reserve_and_debit` where the look-up found no row. -/
def newOrder (a : FulfillArgs) (d : Draw Nat) :
    Stmt SpendDb Exc (Reserved Order) := do
  let order ← .read fun s => do
    let (charge, listPrice) ← resolvePackageCharge c s a.spendAccount a.package d.profile
    return a.newOrder d.id charge listPrice s.now
  .tryInsert (.write (insertOrder order)) (recoverOrder a) fun _ => do
    Stmt.write (debitOrder c a order)
    return .fresh order

/-- The insert of a top-up, `none` where its amount is refused by the check constraint. -/
def insertTopupRow (topup : Option Topup) (s : SpendDb) : Except Exc SpendDb :=
  match topup with
  | none => .error .integrity
  | some topup =>
    match s.topups.insert? topup with
    | none => .error .integrity
    | some topups => .ok { s with topups }

/-- The debit of a top-up that was inserted. -/
def debitTopup (topup : Topup) (amount : PyDecimal) (s : SpendDb) : Except Exc SpendDb := do
  let src := Source.topup topup.id
  let p ← preparePosting topup.account (.decimal amount) (.member .topup) src.reference src.debitKey
    false
  let (books, _) ← s.books.apply p
  return { s with books }

/-- A top-up that has the key of a request. -/
def replayTopup (existing : Topup) : Except Exc (Reserved Topup) :=
  if existing.status = .fulfilling then
    .error (.spendInProgress "Top-up request is still in progress")
  else .ok (.replay existing)

/-- The handler of the insert: look the key up again. -/
def recoverTopup (a : PurchaseArgs) : Stmt SpendDb Exc (Reserved Topup) :=
  .read fun s =>
    match s.topups.find? (·.idempotencyKey = a.idempotencyKey) with
    | none => .error .integrity
    | some existing => replayTopup existing

/-- The lock of the eSIM, the price and the values of the row. -/
def priceTopup (a : PurchaseArgs) (package : TopupPackage) (d : Draw Uuid) (s : SpendDb) :
    Except Exc (PyDecimal × Option Topup) :=
  match s.esims.find? (·.id = a.esim.id) with
  | none => .error (.doesNotExist "Esim")
  | some locked =>
    if locked.account ≠ a.spendAccount then
      .error (.esimOwnershipChanged "Resolved Account does not own this eSIM")
    else do
      let amount ← resolveTopupCharge c s a.spendAccount package d.profile
      let stored ← a.columns package amount
      return (amount, stored.map (a.newTopup s package d.id))

/-- `TopupService._reserve_and_debit` where the look-up found no row. -/
def newTopup (a : PurchaseArgs) (package : TopupPackage) (d : Draw Uuid) :
    Stmt SpendDb Exc (Reserved Topup) := do
  let (amount, row) ← .read (priceTopup c a package d)
  .tryInsert (.write (insertTopupRow row)) (recoverTopup a) fun _ =>
    match row with
    | none => .raise .integrity
    | some topup => do
      Stmt.write (debitTopup topup amount)
      return .fresh topup

/-! ## The program -/

structure RaceDb where
  spend : SpendDb
  accounts : AccountsDb

inductive RaceCall where
  | spend (call : SpendCall)
  /-- `register_user`, and whether a verified invite came with it. -/
  | register (email : String) (invite : Bool)
  | signup (a : SignupArgs)
  /-- The user of an address confirms it. -/
  | activate (email : String)

inductive RacePc where
  /-- Not begun. -/
  | asked
  /-- A purchase, outside of its reservation or before the look-up of it. -/
  | spending (pc : SpendPc)
  /-- The look-up of a reservation found no row. -/
  | missedOrder (a : FulfillArgs)
  | missedTopup (a : PurchaseArgs) (package : TopupPackage)
  /-- The look-up of a registration found no user. -/
  | missedUser (email : String) (invite : Bool)
  /-- A signup may send its mail. -/
  | claimed (a : Signup)
  /-- The look-up of a signup found no user. -/
  | missedSignup (a : Signup)
  | registered (r : RegistrationResult)
  /-- `start_signup` has returned. -/
  | signedUp
  | raised (e : Exc)
  /-- Another call is done, or the process is gone. -/
  | done

structure RaceThread where
  call : RaceCall
  pc : RacePc

inductive RaceInput where
  | go
  | lookUp
  | spend (x : SpendInput)
  | order (d : Draw Nat)
  | topup (d : Draw Uuid)
  | user (id : UserId)
  /-- Whether the address may be sent a mail, and what is drawn. -/
  | claim (granted : Bool) (d : SignupDraw)
  /-- The transaction fails. -/
  | fail
  /-- The process is gone. -/
  | crash

/-- Where a purchase is when its reservation ends. -/
def reserved {ρ : Type} (row : ρ → Row) (spending : ρ → Spending) :
    Except Exc (Reserved ρ) → SpendPc
  | .error e => .refused e
  | .ok (.replay r) => .replayed (row r)
  | .ok (.fresh r) => .requesting (spending r)

/-- The look-up of a reservation. -/
def lookUpSpend (s : SpendDb) : RaceCall → SpendPc → Option RacePc
  | .spend (.fulfill a), .asked =>
    if ¬ a.skipPayment ∧ nonempty a.idempotencyKey = none then none
    else
      match s.orderOfKey (nonempty a.idempotencyKey) with
      | none => some (.missedOrder a)
      | some existing =>
        some (.spending (reserved .order (.order a) (replayOrder existing)))
  | _, .reserving a package =>
    match lookUpTopup c s a with
    | .error e => some (.spending (.refused e))
    | .ok (some existing) => some (.spending (.replayed (.topup existing)))
    | .ok none => some (.missedTopup a package)
  | _, _ => none

/-- A step of a purchase that is not a reservation. -/
def spendStepOf (s : SpendDb) (call : RaceCall) (pc : SpendPc) (x : SpendInput) :
    Option (SpendDb × RacePc) :=
  match call, pc, x with
  | _, .asked, .order _ => none
  | _, .reserving _ _, .topup _ => none
  | .spend call, pc, x => (spendStep c s ⟨call, pc⟩ x).map fun r => (r.1, .spending r.2.pc)
  | _, _, _ => none

/-- Where a registration is when its transaction ends. -/
def registration : Except Exc RegistrationResult → RacePc
  | .error e => .raised e
  | .ok r => .registered r

/-- Where a signup is when its transaction ends. -/
def signup : Except Exc Unit → RacePc
  | .error e => .raised e
  | .ok () => .signedUp

variable (s : RaceDb)

/-- A transaction on the users. -/
def RaceDb.run {α : Type} (m : Stmt AccountsDb Exc α) (f : Except Exc α → RacePc) :
    RaceDb × RacePc :=
  ({ s with accounts := (m.atomic s.accounts).2 }, f (m.atomic s.accounts).1)

/-- A transaction on the purchases. -/
def RaceDb.reserve {α : Type} (m : Stmt SpendDb Exc α) (f : Except Exc α → SpendPc) :
    RaceDb × RacePc :=
  ({ s with spend := (m.atomic s.spend).2 }, .spending (f (m.atomic s.spend).1))

/-- The look-up of a registration or a signup. -/
def lookUpUser : RaceCall → RacePc → Option (RaceDb × RacePc)
  | .register email invite, .asked =>
    match s.accounts.userOf (normalizeEmail email) with
    | none => some (s, .missedUser (normalizeEmail email) invite)
    | some user => some (s.run (registerFound user invite) registration)
  | _, .claimed a =>
    match s.accounts.userOf a.email with
    | none => some (s, .missedSignup a)
    | some user => some (s.run (signupFound a user) signup)
  | _, _ => none

/-- A user who has confirmed the address. -/
def activated (user : User) : User := { user with isActive := true }

/-- Whether a call has a transaction left. -/
def RacePc.isLive : RacePc → Bool
  | .asked => true
  | .missedOrder _ => true
  | .missedTopup _ _ => true
  | .missedUser _ _ => true
  | .claimed _ => true
  | .missedSignup _ => true
  | _ => false

/-- One step of a call. -/
def racePc (s : RaceDb) (call : RaceCall) :
    RacePc → RaceInput → Option (RaceDb × RacePc)
  | .spending pc, .lookUp => (lookUpSpend c s.spend call pc).map fun pc => (s, pc)
  | .spending pc, .spend x =>
    (spendStepOf c s.spend call pc x).map fun r =>
      ({ spend := r.1, accounts := { s.accounts with now := r.1.now } }, r.2)
  | .missedOrder a, .order d => some (s.reserve (newOrder c a d) (reserved .order (.order a)))
  | .missedTopup a package, .topup d =>
    some (s.reserve (newTopup c a package d) (reserved .topup (.topup a package)))
  | .missedUser email invite, .user id => some (s.run (registerNew email invite id) registration)
  | .asked, .claim granted d =>
    match call with
    | .signup a => some (s, if granted then .claimed (a.signup d) else .signedUp)
    | _ => none
  | .missedSignup a, .go => some (s.run (signupNew a) signup)
  | .asked, .go =>
    match call with
    | .activate email =>
      some ({ s with accounts := { s.accounts with
          users := s.accounts.users.update (·.email = email) activated (fun _ _ h => h) } }, .done)
    | _ => none
  | pc, .lookUp => lookUpUser s call pc
  | pc, .fail => if pc.isLive then some (s, .raised .operational) else none
  | pc, .crash => if pc.isLive then some (s, .done) else none
  | _, _ => none

/-- The requests, run concurrently. -/
def raceProgram : Program RaceDb RaceThread RaceCall RaceInput where
  start
    | .spend call => ⟨.spend call, .spending .asked⟩
    | call => ⟨call, .asked⟩
  step s t x := (racePc c s t.call t.pc x).map fun r => (r.1, { t with pc := r.2 })

end Roamkit.Accounts
