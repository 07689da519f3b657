import Mathlib.Data.List.Sort
import Roamkit.Esims.PackageHistory
import Roamkit.Lib.Deal
import Roamkit.Spend.Topups

/-!
# `sync_applied_packages`

The provider's list of an eSIM is stored beside its top-ups, a row of the list with a
top-up. The rows are bound by the packages and by the order in which they stand; a sync
takes the place of what was stored before.
-/

namespace Roamkit.Esims

open Lib Billing Spend

/-- `EsimAppliedPackage` -/
structure AppliedRow where
  esim : Nat
  topup : Uuid
  instanceId : String
  sequence : Nat
  packageExternalId : String
  kind : PackageKind
  status : String
  dataAllowance : String
  validityDays : Int
  isUnlimited : Bool
  amountMb : Option Int
  remainingMb : Option Int
  activatedAt : Option Time
  expiredAt : Option Time
  finishedAt : Option Time
  providerPriceUsd : Option PyDecimal
  syncedAt : Time
deriving DecidableEq

instance : Constraint AppliedRow where
  clash a b :=
    a.topup = b.topup ∨ (a.esim = b.esim ∧ (a.instanceId = b.instanceId ∨ a.sequence = b.sequence))
  symm := by
    intro a b h
    rcases h with h | ⟨hesim, h | h⟩
    · exact .inl h.symm
    · exact .inr ⟨hesim.symm, .inl h.symm⟩
    · exact .inr ⟨hesim.symm, .inr h.symm⟩
  decClash _ _ := inferInstance

structure PackagesDb where
  topups : Table TopupRow
  applied : Table AppliedRow
  now : Time

/-! ## Assignments -/

/-- The order of the sequences, in which a null comes last. Of the rows that have none, which are
all passed over, it says nothing more. -/
def inSequence (t u : TopupRow) : Bool :=
  match t.sequence, u.sequence with
  | _, none => true
  | none, some _ => false
  | some i, some j => i ≤ j

/-- `list(esim.topups.order_by("sequence", "created_at", "pk"))` -/
def sequenced (topups : Table TopupRow) (esim : Nat) : List TopupRow :=
  (topupsOf topups esim).insertionSort fun t u => inSequence t u = true

/-- A later top-up, which is not passed over. -/
def isLater (t : TopupRow) : Bool := t.sequence ≠ none && t.sequence ≠ some 0

/-- The row of the original SIM: one of its package, or else the only one there is. -/
def initialRow? (initial : TopupRow) (esimRows : List SimPackageDTO) : Option SimPackageDTO :=
  match esimRows.find? (·.packageExternalId = initial.packageExternalId) with
  | some row => some row
  | none =>
    match esimRows with
    | [row] => some row
    | _ => none

/-- The original SIM, and its row. -/
def assignInitial (topups : List TopupRow) (rows : List SimPackageDTO) :
    List (TopupRow × SimPackageDTO) :=
  match topups.find? (·.sequence = some 0) with
  | none => []
  | some initial =>
    match initialRow? initial (esimRows rows) with
    | none => []
    | some row => [(initial, row)]

/-- `_assign`; a later top-up takes the next row of its package. -/
def assignRows (topups : List TopupRow) (rows : List SimPackageDTO) :
    List (TopupRow × SimPackageDTO) :=
  let assigned := assignInitial topups rows
  let used := assigned.map (·.2.instanceId)
  let remaining := (topupRows rows).filter (·.instanceId ∉ used)
  assigned ++ deal (·.packageExternalId)
    (fun package => remaining.filter (·.packageExternalId = package)) (topups.filter isLater)

/-! ## Rows -/

/-- `_snapshot` -/
def snapshot (parse : String → Except Exc (Option Time)) (esim : Nat) (syncedAt : Time)
    (assignment : TopupRow × SimPackageDTO) : Except Exc AppliedRow := do
  let (topup, row) := assignment
  let activatedAt ← parseDatetime parse row.activatedAt
  let expiredAt ← parseDatetime parse row.expiredAt
  let finishedAt ← parseDatetime parse row.finishedAt
  return ⟨esim, topup.id, row.instanceId, topup.sequence.getD 0, row.packageExternalId,
    kind row.planType, row.status,
    row.dataAllowance, row.validityDays, row.isUnlimited, row.amountMb, row.remainingMb,
      activatedAt, expiredAt,
    finishedAt, row.providerPriceUsd, syncedAt⟩

/-- Whether a number fits an integer column, from a least value on. -/
def fitsInteger (least : Int) (n : Int) : Bool := least ≤ n && n ≤ maxVersion

/-- Whether a row fits its columns. -/
def AppliedRow.fits (a : AppliedRow) : Bool :=
  a.instanceId.length ≤ 64 && a.packageExternalId.length ≤ 64 && a.status.length ≤ 32
    && a.dataAllowance.length ≤ 64
    && fitsInteger 0 a.validityDays && a.amountMb.all (fitsInteger 0)
      && a.remainingMb.all (fitsInteger (-2147483648))
    && a.providerPriceUsd.all fun price => (finite? price).any (fitsNumeric 10 2)

/-- One row of `bulk_create`. -/
def createApplied (applied : Table AppliedRow) (a : AppliedRow) : Except Exc (Table AppliedRow) :=
  if ¬ a.fits then .error .data
  else
    match applied.insert? a with
    | none => .error .integrity
    | some applied => .ok applied

/-- A top-up whose package has a status. -/
def withPackageStatus (status : String) (t : TopupRow) :
    TopupRow := { t with providerPackageStatus := status }

theorem withPackageStatus_keeps (status : String) : Table.Keeps (withPackageStatus status) :=
  fun _ _ h => h

/-- The status of one assignment is saved, where it is another. -/
def savePackageStatus (topups : Table TopupRow)
    (assignment : TopupRow × SimPackageDTO) : Table TopupRow :=
  if assignment.1.providerPackageStatus = assignment.2.status then topups
  else topups.update (·.id = assignment.1.id) (withPackageStatus assignment.2.status)
    (withPackageStatus_keeps _)

/-- The top-ups of the eSIM that have no row any more. -/
def isStale (esim : Nat) (seen : List Uuid) (t : TopupRow) : Bool :=
  t.esim = esim && t.id ∉ seen && t.providerPackageStatus ≠ ""

/-- `sync_applied_packages`, once the provider has sent its rows. -/
def syncAppliedPackages (parse : String → Except Exc (Option Time)) (s : PackagesDb) (esim : Nat)
    (rows : List SimPackageDTO) : Except Exc (Nat × PackagesDb) := do
  let assignments := assignRows (sequenced s.topups esim) rows
  let snapshots ← assignments.mapM (snapshot parse esim s.now)
  let applied ← snapshots.foldlM createApplied (s.applied.remove (·.esim = esim))
  let topups := assignments.foldl savePackageStatus s.topups
  let topups := topups.update (isStale esim (assignments.map (·.1.id))) (withPackageStatus "")
    (withPackageStatus_keeps _)
  return (assignments.length, { s with topups, applied })

end Roamkit.Esims
