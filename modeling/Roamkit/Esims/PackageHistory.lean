import Mathlib.Data.List.Dedup
import Mathlib.Logic.Function.Basic
import Roamkit.Lib.Recorded
import Roamkit.Spend.Orders

/-!
# `PackageHistoryService`

The packages the provider has applied to an eSIM, each with what was paid for it. The
provider names no local row, so a row of the list is matched with the order of the eSIM or
with one of its top-ups: by the id of the provider's order first, then by its own id, and
last by its package, where that leaves no choice.
-/

namespace Roamkit.Esims

open Lib Billing Spend

/-! ## Rows -/

/-- One applied package of the provider's list. -/
structure SimPackageDTO where
  instanceId : String
  status : String
  remainingMb : Option Int
  activatedAt : Option String
  expiredAt : Option String
  finishedAt : Option String
  packageExternalId : String
  planType : String
  dataAllowance : String
  validityDays : Int
  isUnlimited : Bool
  providerOrderId : Option String
  amountMb : Option Int
  providerPriceUsd : Option PyDecimal
deriving DecidableEq

/-- A row of `esims_topup`, in the columns that are matched. -/
structure TopupRow where
  id : Uuid
  esim : Nat
  packageExternalId : String
  amount : Amount
  status : TopupStatus
  sequence : Option Nat
  /-- A blank one is null. -/
  providerPackageStatus : String
  externalOrderId : String
  createdAt : Time
deriving DecidableEq

instance : Constraint TopupRow where
  clash t u := t.id = u.id ∨ (t.esim = u.esim ∧ t.sequence ≠ none ∧ t.sequence = u.sequence)
  symm := by
    intro t u h
    rcases h with h | ⟨hesim, hne, h⟩
    · exact .inl h.symm
    · exact .inr ⟨hesim.symm, h ▸ hne, h.symm⟩
  decClash _ _ := inferInstance

/-- The order of an eSIM; the price is in cents, and null in an order of long ago. -/
structure InitialOrder where
  retailPriceUsd : Option Nat
  externalOrderId : String
  currency : String
  createdAt : Time
deriving DecidableEq

/-- What a row of the list may be matched with. -/
inductive LocalSpend where
  | order (o : InitialOrder)
  | topup (t : TopupRow)
deriving DecidableEq

/-- What was paid for it, in millionths. -/
def LocalSpend.charge? : LocalSpend → Option Int
  | order o => o.retailPriceUsd.map fun cents : Nat => (cents : Int) * 10000
  | topup t => some t.amount.micros

def LocalSpend.createdAt : LocalSpend → Time
  | order o => o.createdAt
  | topup t => t.createdAt

inductive PackageKind where
  | esim
  | topup
deriving DecidableEq

/-- `_kind` -/
def kind (planType : String) : PackageKind :=
  if PyText.lower (PyText.strip planType) ∈ ["sim", "esim"] then .esim else .topup

namespace SimPackageDTO

/-- The id of the provider's order, when there is one. -/
def orderId (row : SimPackageDTO) : Option String := nonempty row.providerOrderId

end SimPackageDTO

/-! ## Matching -/

/-- The two dictionaries, with what was put in last in front, and the keys of the top-ups that are
used. -/
structure Matching where
  paid : List (String × Int)
  created : List (String × Time)
  usedIds : List Uuid
  /-- Not in the code: the pairs themselves. -/
  pairs : List (SimPackageDTO × LocalSpend)

variable (m : Matching) (rows : List SimPackageDTO)

namespace Matching

def empty : Matching := ⟨[], [], [], []⟩

/-- `row.instance_id in paid` -/
def isPaid (instanceId : String) : Bool := (newest m.paid instanceId).isSome

/-- `_assign` -/
def assign (row : SimPackageDTO) (spend : LocalSpend) : Matching where
  paid :=
    match spend.charge? with
    | none => m.paid
    | some amount => (row.instanceId, amount) :: m.paid
  created := (row.instanceId, spend.createdAt) :: m.created
  usedIds := m.usedIds
  pairs := (row, spend) :: m.pairs

/-- `used_ids.add` -/
def use (t : TopupRow) : Matching := { m with usedIds := t.id :: m.usedIds }

/-- `_match_initial_order` -/
def matchInitialOrder (order : InitialOrder) (esimRows : List SimPackageDTO) : Matching :=
  let orderId := PyText.strip order.externalOrderId
  match esimRows.filter fun row => orderId ≠ "" ∧ row.orderId = some orderId with
  | [row] => m.assign row (.order order)
  | _ :: _ => m
  | [] =>
    match esimRows with
    | [row] => if row.orderId = none then m.assign row (.order order) else m
    | _ => m

/-- The first loop of `_match_topups`: by the id of the provider's order. -/
def matchOrderId (unused : List TopupRow) (m : Matching) (row : SimPackageDTO) : Matching :=
  match row.orderId with
  | none => m
  | some id =>
    match unused.find? fun t => t.id ∉ m.usedIds ∧ PyText.strip t.externalOrderId = id with
    | none => m
    | some t => (m.use t).assign row (.topup t)

/-- The top-ups that are not used yet. -/
def left (unused : List TopupRow) : List TopupRow := unused.filter fun t => t.id ∉ m.usedIds

/-- One row of `_match_topups_by_instance_id`; the dictionary has the top-ups by their order's
id. -/
def matchInstanceId (s : Matching × (String → List TopupRow)) (row : SimPackageDTO) :
    Matching × (String → List TopupRow) :=
  let key := PyText.strip row.instanceId
  if s.1.isPaid row.instanceId ∨ key = "" then s
  else
    match s.2 key with
    | [t] => ((s.1.use t).assign row (.topup t), Function.update s.2 key [])
    | _ => s

/-- `_match_topups_by_instance_id` -/
def matchTopupsByInstanceId (topupRows : List SimPackageDTO) (unused : List TopupRow) : Matching :=
  let byExternalId key :=
    if key = "" then [] else (m.left unused).filter fun t => PyText.strip t.externalOrderId = key
  (topupRows.foldl matchInstanceId (m, byExternalId)).1

/-- The keys of a dictionary that is filled in this order: a key stays where it was first put. -/
def dictKeys (keys : List String) : List String := keys.reverse.dedup.reverse

/-- One package of the last loop: it has one row left, and one top-up. -/
def matchPackage (topups : List TopupRow) (m : Matching) (package : String) :
    Matching :=
  match rows.filter (·.packageExternalId = package),
    topups.filter (·.packageExternalId = package) with
  | [row], [t] => m.assign row (.topup t)
  | _, _ => m

/-- The last loop of `_match_topups`: by the package. -/
def matchPackages (topupRows : List SimPackageDTO) (unused : List TopupRow) : Matching :=
  let rows := topupRows.filter fun row => ¬ m.isPaid row.instanceId ∧ row.orderId = none
  let packages := dictKeys ((rows.map (·.packageExternalId)).filter (· ≠ ""))
  packages.foldl (matchPackage rows (m.left unused)) m

/-- `_match_topups` -/
def matchTopups (topupRows : List SimPackageDTO) (unused : List TopupRow) : Matching :=
  let m := topupRows.foldl (matchOrderId unused) m
  let m := m.matchTopupsByInstanceId topupRows unused
  m.matchPackages topupRows unused

end Matching

/-- The rows that are of the eSIM itself. -/
def esimRows : List SimPackageDTO := rows.filter (kind ·.planType = .esim)

/-- The rows that are of top-ups. -/
def topupRows : List SimPackageDTO := rows.filter (kind ·.planType ≠ .esim)

/-- `esim.topups` -/
def topupsOf (topups : Table TopupRow) (esim : Nat) : List TopupRow :=
  topups.rows.filter (·.esim = esim)

/-- What the query of `_match_topups` is about. -/
def isCandidate (t : TopupRow) : Bool := t.status = .fulfilled && t.sequence ≠ some 0

/-- An answer of that query, which leaves open how top-ups of one time are ordered. -/
structure Candidates (topups : List TopupRow) where
  rows : List TopupRow
  perm : rows.Perm (topups.filter isCandidate)
  ordered : rows.Pairwise fun t u => t.createdAt ≤ u.createdAt

/-- `_match_spend` -/
def matchSpend (order : InitialOrder) {topups : List TopupRow} (unused : Candidates topups)
    (rows : List SimPackageDTO) : Matching :=
  (Matching.empty.matchInitialOrder order (esimRows rows)).matchTopups (topupRows rows) unused.rows

/-! ## The history -/

/-- The customer's view of an applied package; amounts in millionths. -/
structure AppliedPackage where
  id : String
  kind : PackageKind
  status : String
  dataAllowance : String
  validityDays : Int
  isUnlimited : Bool
  remainingMb : Option Int
  createdAt : Option Time
  activatedAt : Option String
  expiresAt : Option String
  paidUsd : Option Int
  currency : String
deriving DecidableEq

/-- A date and a time with a blank between them, as the parser takes it. -/
def normalizedDatetime (value : String) : String :=
  let cs := (PyText.strip value).toList
  if ' ' ∈ cs ∧ 'T' ∉ cs then
    String.ofList (cs.takeWhile (· ≠ ' ') ++ 'T' :: (cs.dropWhile (· ≠ ' ')).tail)
  else String.ofList cs

/-- `_parse_datetime`; `parse` is Django's, and makes the value aware. -/
def parseDatetime (parse : String → Except Exc (Option Time)) (value : Option String) :
    Except Exc (Option Time) :=
  match nonempty value with
  | none => .ok none
  | some text => parse (normalizedDatetime text)

/-- `(esim.order.currency or "").strip() or "USD"` -/
def InitialOrder.shownCurrency (order : InitialOrder) : String :=
  if PyText.strip order.currency = "" then "USD" else PyText.strip order.currency

/-- When a row is shown as made: as what it is matched with, or when it was activated. -/
def shownCreatedAt (parse : String → Except Exc (Option Time)) (m : Matching)
    (row : SimPackageDTO) :
    Except Exc (Option Time) :=
  match newest m.created row.instanceId with
  | some t => .ok (some t)
  | none => parseDatetime parse row.activatedAt

/-- A row of the history. -/
def appliedPackage (parse : String → Except Exc (Option Time)) (currency : String) (m : Matching)
    (row : SimPackageDTO) : Except Exc AppliedPackage := do
  let createdAt ← shownCreatedAt parse m row
  return ⟨row.instanceId, kind row.planType, row.status, row.dataAllowance, row.validityDays,
    row.isUnlimited,
    if row.isUnlimited then none else row.remainingMb, createdAt, row.activatedAt, row.expiredAt,
    newest m.paid row.instanceId, currency⟩

/-- `list_packages`, once the provider has sent its rows. -/
def listPackages (parse : String → Except Exc (Option Time)) (order : InitialOrder)
    {topups : List TopupRow} (unused : Candidates topups) (rows : List SimPackageDTO) :
    Except Exc (List AppliedPackage) :=
  rows.mapM (appliedPackage parse order.shownCurrency (matchSpend order unused rows))

end Roamkit.Esims
