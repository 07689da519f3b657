import Roamkit.Billing.Credit

/-!
# The admin form of an account

`AccountAdmin` shows the balance and the version read-only and edits other columns. A
submission loads the row without a lock, and its save writes all columns of the row that
was loaded. `accountProgram` runs any number of submissions among the calls of
`CreditService`; the columns that the form edits are read by none of them.
-/

namespace Roamkit.Billing

open Lib

/-- Where a submission is. -/
inductive EditPc where
  | asked
  /-- `get_object` has read the row; the form is validated. -/
  | loaded (row : Account)
  | saved
  | raised (e : Exc)
deriving DecidableEq

inductive AccountCall where
  | service (call : CreditCall)
  /-- `changeform_view`, a submission for an account. -/
  | edit (account : Uuid)

inductive AccountThread where
  | service (t : CreditThread)
  | edit (account : Uuid) (pc : EditPc)

/-- `save()` of a row without `update_fields`: every column is written. -/
def LedgerDb.saveRow (s : LedgerDb) (row : Account) : LedgerDb :=
  { s with
    books := { s.books with
      accounts := s.books.accounts.update (·.id = row.id)
        (fun a => { a with balance := row.balance, version := row.version }) (fun _ _ h => h) } }

/-- One step of a submission; the save waits for a transaction that holds the row. -/
def editStep (s : LedgerDb) (account : Uuid) (pc : EditPc) (go : Bool) :
    Option (LedgerDb × EditPc) :=
  match pc with
  | .asked =>
    if ¬ go then some (s, .raised .operational)
    else
      match s.books.accounts.find? (·.id = account) with
      | none => some (s, .raised (.doesNotExist "Account"))
      | some row => some (s, .loaded row)
  | .loaded row =>
    if ¬ go then some (s, .raised .operational)
    else if s.locked row.id then none
    else some (s.saveRow row, .saved)
  | .saved => none
  | .raised _ => none

def accountStep (s : LedgerDb) (t : AccountThread) (go : Bool) :
    Option (LedgerDb × AccountThread) :=
  match t with
  | .service t => (creditStep s t go).map fun (s', t') => (s', .service t')
  | .edit account pc => (editStep s account pc go).map fun (s', pc') => (s', .edit account pc')

/-- `CreditService` and the admin form, run concurrently. -/
def accountProgram : Program LedgerDb AccountThread AccountCall Bool where
  start
    | .service call => .service (creditProgram.start call)
    | .edit account => .edit account .asked
  step := accountStep

end Roamkit.Billing
