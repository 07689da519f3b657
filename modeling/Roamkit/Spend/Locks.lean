import Roamkit.Spend.Program

/-!
# Purchases and transfers, statement by statement

`spendProgram` takes a transaction for one step. Here the two transactions that
depend on who owns an eSIM are taken apart: `TopupService._reserve_and_debit` looks
its key up, locks the eSIM and compares its owner, and then inserts, debits and
commits; `transfer_esim_inventory` locks the eSIM, looks for a top-up that is still
fulfilling, and then writes and commits. Between any two of these others may step,
and only the row lock of the eSIM, held to the end of the transaction, is in their
way. Nothing a transaction writes is seen before it commits.
-/

namespace Roamkit.Spend

open Lib Billing Airalo

/-- The database, and the eSIMs whose row is locked. -/
structure LockDb where
  spend : SpendDb
  held : Nat → Bool

/-- Where a call is. -/
inductive LockPc where
  /-- At none of the two transactions, or at the start of one. -/
  | atomic (pc : SpendPc)
  /-- The key was not found; the eSIM is locked next. -/
  | unlocked (a : PurchaseArgs) (package : TopupPackage)
  /-- The eSIM is locked, and its owner was right. -/
  | locked (a : PurchaseArgs) (package : TopupPackage)
  /-- A transfer has locked the eSIM, which another account owns. -/
  | checking (esim : Nat) (account : Uuid) (user : UserId)
  /-- A transfer has found no top-up fulfilling. -/
  | moving (esim : Nat) (account : Uuid) (user : UserId)

structure LockThread where
  call : SpendCall
  pc : LockPc

variable (c : SpendSettings)

/-- The look-up of `_reserve_and_debit`: a row to replay, if there is one. -/
def lookUpTopup (s : SpendDb) (a : PurchaseArgs) : Except Exc (Option Topup) :=
  if ¬ c.billingEnabled then .error (.billingDisabled "Billing is disabled")
  else
    match s.topups.find? (·.idempotencyKey = a.idempotencyKey) with
    | some existing =>
      if existing.status = .fulfilling then
        .error (.spendInProgress "Top-up request is still in progress")
      else .ok (some existing)
    | none => .ok none

/-- The rest of `_reserve_and_debit`, after the owner was compared. -/
def insertTopup (s : SpendDb) (a : PurchaseArgs) (package : TopupPackage) (d : Draw Uuid) :
    Except Exc (SpendDb × Topup) :=
  do
  let amount ← resolveTopupCharge c s a.spendAccount package d.profile
  match ← a.columns package amount with
  | none => .error .transactionManagement
  | some stored =>
    let topup := a.newTopup s package d.id stored
    match s.topups.insert? topup with
    | none => .error .transactionManagement
    | some topups =>
      let src := Source.topup topup.id
      let p ← preparePosting topup.account (.decimal amount) (.member .topup)
        src.reference src.debitKey false
      let (books, _) ← s.books.apply p
      .ok ({ s with topups, books }, topup)

variable (s : LockDb)

/-- A transaction takes the row lock of an eSIM, or lets it go. -/
def LockDb.lock (esim : Nat) (b : Bool) : LockDb :=
  { s with held := Function.update s.held esim b }

/-- What a transfer writes to the eSIM. -/
def handOver (s : SpendDb) (esim : Nat) (account : Uuid) (user : UserId) : SpendDb :=
  { s with esims := s.esims.update (·.id = esim) (transferred account user) (fun _ _ h => h) }

/-- A step that is one of `spendStep`. -/
def spendAt (s : LockDb) (t : LockThread) (pc : SpendPc) (x : SpendInput) :
    Option (LockDb × LockThread) :=
  match spendStep c s.spend ⟨t.call, pc⟩ x with
  | none => none
  | some (db, u) => some ({ s with spend := db }, { t with pc := .atomic u.pc })

/-- A call comes to a point of its own. -/
def LockThread.at (t : LockThread) (pc : LockPc) : LockThread := { t with pc }

/-- A call comes to a point of `spendStep`. -/
def LockThread.quit (t : LockThread) (pc : SpendPc) : LockThread := { t with pc := .atomic pc }

/-- The look-up by key. -/
def lookUpStep (s : LockDb) (t : LockThread) (a : PurchaseArgs)
    (package : TopupPackage) : LockDb × LockThread :=
  match lookUpTopup c s.spend a with
  | .error e => (s, t.quit (.refused e))
  | .ok (some u) => (s, t.quit (.replayed (.topup u)))
  | .ok none => (s, t.at (.unlocked a package))

/-- The row lock of the eSIM, and the comparison of its owner. -/
def lockOwnedStep (t : LockThread) (a : PurchaseArgs) (package : TopupPackage) :
    Option (LockDb × LockThread) :=
  if s.held a.esim.id then none
  else
    match s.spend.esims.find? (·.id = a.esim.id) with
    | none => some (s, t.quit (.refused (.doesNotExist "Esim")))
    | some locked =>
      if locked.account ≠ a.spendAccount then
        some (s, t.quit
          (.refused (.esimOwnershipChanged "Resolved Account does not own this eSIM")))
      else some (s.lock a.esim.id true, t.at (.locked a package))

/-- The insert, the debit and the commit. -/
def reserveStep (s : LockDb) (t : LockThread) (a : PurchaseArgs) (package : TopupPackage)
    (d : Draw Uuid) : LockDb × LockThread :=
  match insertTopup c s.spend a package d with
  | .error e => (s.lock a.esim.id false, t.quit (.refused e))
  | .ok (db, u) =>
    ({ s with spend := db }.lock a.esim.id false, t.quit (.requesting (.topup a package u)))

/-- The row lock of the eSIM of a transfer. -/
def lockTransferStep (t : LockThread) (esim : Nat) (account : Uuid) (user : UserId) :
    Option (LockDb × LockThread) :=
  if s.held esim then none
  else
    match s.spend.esims.find? (·.id = esim) with
    | none => some (s, t.quit (.done (some (.doesNotExist "Esim"))))
    | some locked =>
      if locked.account = account then some (s, t.quit (.done none))
      else some (s.lock esim true, t.at (.checking esim account user))

/-- The look for a top-up that is fulfilling. -/
def checkStep (t : LockThread) (esim : Nat) (account : Uuid) (user : UserId) :
    LockDb × LockThread :=
  if s.spend.topups.rows.any fun t => t.esim = esim && t.status = .fulfilling then
    (s.lock esim false,
      t.quit (.done (some (.esimTransfer "A top-up is still fulfilling for this eSIM"))))
  else (s, t.at (.moving esim account user))

/-- One step of a call at a point of `spendStep`. -/
def atomicStep (s : LockDb) (t : LockThread) (pc : SpendPc) (x : SpendInput) :
    Option (LockDb × LockThread) :=
  match pc, t.call, x with
  | .reserving a package, _, .go => some (lookUpStep c s t a package)
  | .reserving _ _, _, .topup _ => none
  | .asked, .transfer esim account user, .go => lockTransferStep s t esim account user
  | _, _, _ => spendAt c s t pc x

/-- One step of a call. -/
def lockStep (s : LockDb) (t : LockThread) (x : SpendInput) :
    Option (LockDb × LockThread) :=
  match t.pc, x with
  | .atomic pc, x => atomicStep c s t pc x
  | .unlocked _ _, .crash => some (s, t.quit (.crashed none))
  | .unlocked _ _, .fail => some (s, t.quit (.refused .operational))
  | .unlocked a package, .go => lockOwnedStep s t a package
  | .locked a _, .crash => some (s.lock a.esim.id false, t.quit (.crashed none))
  | .locked a _, .fail => some (s.lock a.esim.id false, t.quit (.refused .operational))
  | .locked a package, .topup d => some (reserveStep c s t a package d)
  | .checking esim _ _, .crash => some (s.lock esim false, t.quit (.crashed none))
  | .checking esim _ _, .fail => some (s.lock esim false, t.quit (.refused .operational))
  | .checking esim account user, .go => some (checkStep s t esim account user)
  | .moving esim _ _, .crash => some (s.lock esim false, t.quit (.crashed none))
  | .moving esim _ _, .fail => some (s.lock esim false, t.quit (.refused .operational))
  | .moving esim account user, .go =>
    some ({ s with spend := handOver s.spend esim account user }.lock esim false,
      t.quit (.done none))
  | _, _ => none

/-- The spend services, with the row locks of eSIMs. -/
def lockProgram : Program LockDb LockThread SpendCall SpendInput where
  start call := ⟨call, .atomic .asked⟩
  step := lockStep c

end Roamkit.Spend
