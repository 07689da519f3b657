import Roamkit.Spend.Locks

/-!
# The numbers of top-ups

`_reserve_and_debit` and `ensure_initial_credit_topup` once more, with the rows that
transactions have inserted and not committed yet. A query sees committed rows only. An insert
fails where its row clashes with a committed one, and waits while it clashes with a row of a
transaction that is not done. `Topup.save` reads the highest number in a query of its own,
before its insert.
-/

namespace Roamkit.Spend

open Lib Billing Airalo

/-! ## The database -/

structure SequenceDb where
  spend : SpendDb
  /-- The eSIMs whose row is locked. -/
  held : Nat → Bool
  /-- The rows of transactions that have not committed. -/
  pending : List Topup
  /-- The initial credits that were committed; no step reads it. -/
  credits : List Uuid

/-- What an insert of a top-up comes to. -/
inductive Inserted where
  | done (s : SequenceDb)
  /-- An `IntegrityError`. -/
  | clashes
  /-- Another transaction has to end first. -/
  | waits

variable (s : SequenceDb) (c : SpendSettings)

namespace SequenceDb

/-- A transaction takes the row lock of an eSIM, or lets it go. -/
def lock (esim : Nat) (b : Bool) : SequenceDb := { s with held := Function.update s.held esim b }

def insert (u : Topup) : Inserted :=
  if ∃ t ∈ s.spend.topups.rows, Constraint.clash t u then .clashes
  else if ∃ t ∈ s.pending, Constraint.clash t u then .waits
  else .done { s with pending := u :: s.pending }

/-- A transaction is rolled back. -/
def drop (u : Topup) : SequenceDb := { s with pending := s.pending.filter (· ≠ u) }

/-- A transaction commits its top-up. -/
def commit (u : Topup) : Option SequenceDb :=
  (s.spend.topups.insert? u).map fun topups => { s.drop u with spend := { s.spend with topups } }

end SequenceDb

/-! ## Calls -/

inductive SequenceCall where
  /-- `_reserve_and_debit` -/
  | reserve (a : PurchaseArgs) (package : TopupPackage)
  /-- A transaction with an `ensure_initial_credit_topup`. -/
  | credit (esim : Esim) (o : Order) (package : Package)
  /-- A later transaction of a purchase. -/
  | settle (topup : Uuid) (status : TopupStatus) (externalOrderId : String)
  /-- A transaction of any service that writes no top-up, and what it leaves. -/
  | other (spend : SpendDb)

inductive SequencePc where
  | asked
  /-- The key was not found; the eSIM is locked next. -/
  | unlocked
  /-- The eSIM is locked, and its owner was right. -/
  | locked
  /-- The charge and the primary key. -/
  | priced (amount : PyDecimal) (id : Uuid)
  /-- `Topup.save` has read the highest number. -/
  | numbered (amount : PyDecimal) (id : Uuid) (sequence : Nat)
  /-- The row is inserted; the debit is next. -/
  | inserted (amount : PyDecimal) (u : Topup)
  /-- There is no initial credit yet. -/
  | missed
  /-- The initial credit is inserted. -/
  | credited (u : Topup)
  | replayed (u : Topup)
  | reserved (u : Topup)
  | done
  | raised (e : Exc)

structure SequenceThread where
  call : SequenceCall
  pc : SequencePc

inductive SequenceInput where
  | go
  /-- A primary key, and the pricing profile of the account. -/
  | draw (id : Uuid) (profile : Option Pricing.PricingProfile)
  /-- The transaction fails. -/
  | fail

/-! ## A reservation -/

/-- The eSIM is locked, and its owner compared. -/
def lockOwned (a : PurchaseArgs) : Option (SequenceDb × SequencePc) :=
  if s.held a.esim.id then none
  else
    match s.spend.esims.find? (·.id = a.esim.id) with
    | none => some (s, .raised (.doesNotExist "Esim"))
    | some locked =>
      if locked.account ≠ a.spendAccount then
        some (s, .raised (.esimOwnershipChanged "Resolved Account does not own this eSIM"))
      else some (s.lock a.esim.id true, .locked)

/-- The row `Topup.objects.create` inserts, with the number that was read. -/
def numberedTopup (a : PurchaseArgs) (package : TopupPackage) (id : Uuid) (stored : Amount)
    (sequence : Nat) : Topup := { a.newTopup s.spend package id stored with sequence }

/-- The insert; where it fails, the query of the handler is in a broken transaction. -/
def insertNumbered (a : PurchaseArgs) (package : TopupPackage) (amount : PyDecimal) (id : Uuid)
    (sequence : Nat) : Option (SequenceDb × SequencePc) :=
  match a.columns package amount with
  | .error e => some (s.lock a.esim.id false, .raised e)
  | .ok none => some (s.lock a.esim.id false, .raised .transactionManagement)
  | .ok (some stored) =>
    match s.insert (numberedTopup s a package id stored sequence) with
    | .done s' => some (s', .inserted amount (numberedTopup s a package id stored sequence))
    | .clashes => some (s.lock a.esim.id false, .raised .transactionManagement)
    | .waits => none

/-- The books after the debit of a top-up. -/
def debitTopup (s : SpendDb) (u : Topup) (amount : PyDecimal) : Except Exc Books := do
  let src := Source.topup u.id
  let p ← preparePosting u.account (.decimal amount)
    (.member .topup) src.reference src.debitKey false
  return (← s.books.apply p).1

/-- The debit and the commit. -/
def debitInserted (a : PurchaseArgs) (amount : PyDecimal) (u : Topup) : SequenceDb × SequencePc :=
  match debitTopup s.spend u amount with
  | .error e => ((s.drop u).lock a.esim.id false, .raised e)
  | .ok books =>
    match s.commit u with
    | none => ((s.drop u).lock a.esim.id false, .raised .integrity)
    | some s' => ({ s' with spend := { s'.spend with books } }.lock a.esim.id false, .reserved u)

/-- One step of `_reserve_and_debit`. -/
def reservePc (s : SequenceDb) (a : PurchaseArgs) (package : TopupPackage) :
    SequencePc → SequenceInput → Option (SequenceDb × SequencePc)
  | .asked, .go =>
    match lookUpTopup c s.spend a with
    | .error e => some (s, .raised e)
    | .ok (some u) => some (s, .replayed u)
    | .ok none => some (s, .unlocked)
  | .unlocked, .go => lockOwned s a
  | .locked, .draw id profile =>
    match resolveTopupCharge c s.spend a.spendAccount package profile with
    | .error e => some (s.lock a.esim.id false, .raised e)
    | .ok amount => some (s, .priced amount id)
  | .priced amount id, .go => some (s, .numbered amount id (nextSequence s.spend a.esim.id))
  | .numbered amount id sequence, .go => insertNumbered s a package amount id sequence
  | .inserted amount u, .go => some (debitInserted s a amount u)
  | .asked, .fail => some (s, .raised .operational)
  | .unlocked, .fail => some (s, .raised .operational)
  | .locked, .fail => some (s.lock a.esim.id false, .raised .operational)
  | .priced _ _, .fail => some (s.lock a.esim.id false, .raised .operational)
  | .numbered _ _ _, .fail => some (s.lock a.esim.id false, .raised .operational)
  | .inserted _ u, .fail => some ((s.drop u).lock a.esim.id false, .raised .operational)
  | _, _ => none

/-! ## An initial credit -/

/-- One step of `ensure_initial_credit_topup`, and of the transaction it is called in. -/
def creditPc (esim : Esim) (o : Order) (package : Package) :
    SequencePc → SequenceInput → Option (SequenceDb × SequencePc)
  | .asked, .go =>
    if (s.spend.topups.find? (·.idempotencyKey = initialCreditKey esim.id)).isSome then
      some (s, .done)
    else if initialCreditPrice o package ≤ 0 then some (s, .raised .valueError)
    else some (s, .missed)
  | .missed, .draw id _ =>
    match amountOfCents (initialCreditPrice o package) with
    | none => some (s, .raised .data)
    | some amount =>
      match s.insert (initialCredit esim o package amount id) with
      | .done s' => some (s', .credited (initialCredit esim o package amount id))
      | .clashes => some (s, .raised .integrity)
      | .waits => none
  | .credited u, .go =>
    match s.commit u with
    | none => some (s.drop u, .raised .integrity)
    | some s' => some ({ s' with credits := u.id :: s'.credits }, .done)
  | .asked, .fail => some (s, .raised .operational)
  | .missed, .fail => some (s, .raised .operational)
  | .credited u, .fail => some (s.drop u, .raised .operational)
  | _, _ => none

/-! ## The program -/

/-- A top-up as a later transaction of its purchase saves it. -/
def settledTopup (status : TopupStatus) (externalOrderId : String) (u : Topup) : Topup :=
  { u with status, externalOrderId }

/-- One step of any call. -/
def sequencePc (s : SequenceDb) :
    SequenceCall → SequencePc → SequenceInput → Option (SequenceDb × SequencePc)
  | .reserve a package, pc, x => reservePc c s a package pc x
  | .credit esim o package, pc, x => creditPc s esim o package pc x
  | .settle topup status externalOrderId, .asked, .go =>
    let topups :=
      s.spend.topups.update (·.id = topup) (settledTopup status externalOrderId) (fun _ _ h => h)
    some ({ s with spend := { s.spend with topups } }, .done)
  | .other spend, .asked, .go =>
      some ({ s with spend := { spend with topups := s.spend.topups } }, .done)
  | _, _, _ => none

/-- Reservations and initial credits, run concurrently. -/
def sequenceProgram : Program SequenceDb SequenceThread SequenceCall SequenceInput where
  start call := ⟨call, .asked⟩
  step s t x := (sequencePc c s t.call t.pc x).map fun r => (r.1, { t with pc := r.2 })

end Roamkit.Spend
