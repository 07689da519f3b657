import Roamkit.Billing.Credit

/-!
# Voucher campaigns, batches, vouchers and redemptions

The rows of the voucher tables, as far as the services read them, and the row
locks that redemptions and saves hold from one query to the next. `updated_at` is
the column that the admin's optimistic check compares.
-/

namespace Roamkit.Vouchers

open Lib Billing

inductive RewardType where
  | fixedCredit
  | percentBonus
  | freeSubscription
  | freeTopup
deriving DecidableEq

def RewardType.value : RewardType → String
  | fixedCredit => "fixed_credit"
  | percentBonus => "percent_bonus"
  | freeSubscription => "free_subscription"
  | freeTopup => "free_topup"

inductive RedemptionMode where
  | shared
  | unique
deriving DecidableEq

inductive CampaignStatus where
  | draft
  | active
  | expired
  | revoked
deriving DecidableEq

inductive BatchStatus where
  | created
  | active
  | revoked
deriving DecidableEq

inductive VoucherStatus where
  | created
  | active
  | redeemed
  | expired
  | revoked
deriving DecidableEq

/-- `_REVOCABLE_VOUCHER_STATUSES` -/
def VoucherStatus.isRevocable (status : VoucherStatus) : Bool :=
  status = .created || status = .active

/-- The values of `VoucherRevokeReason`. -/
def voucherRevokeReasons : List String :=
  ["fraud", "expired_campaign", "manual_revoke", "duplicate_issue"]

/-! ## Rows -/

structure VoucherCampaign where
  id : Uuid
  code : Option String
  redemptionMode : RedemptionMode
  rewardType : RewardType
  creditAmount : Amount
  maxRedemptionsTotal : Option Nat
  maxRedemptionsPerAccount : Option Nat
  startsAt : Option Time
  expiresAt : Option Time
  status : CampaignStatus
  updatedAt : Time
deriving DecidableEq

/-- NULL codes do not clash. -/
instance : Constraint VoucherCampaign where
  clash a b := a.id = b.id ∨ (a.code = b.code ∧ a.code ≠ none)
  symm := by
    rintro a b (h | ⟨h, hn⟩)
    · exact .inl h.symm
    · exact .inr ⟨h.symm, h ▸ hn⟩
  decClash _ _ := inferInstance

structure VoucherBatch where
  id : Uuid
  campaign : Option Uuid
  size : Nat
  status : BatchStatus
  updatedAt : Time
deriving DecidableEq

instance : Constraint VoucherBatch where
  clash a b := a.id = b.id
  symm := Eq.symm
  decClash _ _ := inferInstance

structure Voucher where
  id : Uuid
  code : String
  redemptionMode : RedemptionMode
  rewardType : RewardType
  creditAmount : Amount
  campaign : Option Uuid
  batch : Option Uuid
  status : VoucherStatus
  expiresAt : Option Time
  updatedAt : Time
deriving DecidableEq

instance : Constraint Voucher where
  clash a b := a.id = b.id ∨ a.code = b.code
  symm := by
    rintro a b (h | h)
    · exact .inl h.symm
    · exact .inr h.symm
  decClash _ _ := inferInstance

/-- What is redeemed: exactly one of the two columns of the row is set. -/
inductive RedemptionSource where
  | voucher (id : Uuid)
  | campaign (id : Uuid)
deriving DecidableEq

structure VoucherRedemption where
  id : Uuid
  account : Uuid
  source : RedemptionSource
  amount : Amount
  requestId : String
  redeemedAt : Time
deriving DecidableEq

instance : Constraint VoucherRedemption where
  clash a b := a.id = b.id
  symm := Eq.symm
  decClash _ _ := inferInstance

/-- A row that a transaction may lock and go on. -/
inductive LockedRow where
  | voucher (id : Uuid)
  | campaign (id : Uuid)
deriving DecidableEq

/-- The committed tables, and the rows that transactions in flight hold the lock of. -/
structure VoucherDb where
  books : Books
  campaigns : Table VoucherCampaign
  batches : Table VoucherBatch
  vouchers : Table Voucher
  redemptions : Table VoucherRedemption
  locks : List LockedRow

variable (s : VoucherDb)

namespace VoucherDb

def lock (row : LockedRow) : VoucherDb := { s with locks := row :: s.locks }

/-- The end of a transaction that held a row, committed or rolled back. -/
def unlock (row : Option LockedRow) : VoucherDb :=
  { s with locks := s.locks.filter fun r => row ≠ some r }

/-- The redemptions of a voucher or a campaign. -/
def redemptionsOf (source : RedemptionSource) : List VoucherRedemption :=
  s.redemptions.rows.filter (·.source = source)

/-- `filter(campaign=campaign, account=account)`, and the same for a voucher. -/
def redemptionsBy (source : RedemptionSource) (account : Uuid) :
    List VoucherRedemption :=
  (s.redemptionsOf source).filter (·.account = account)

/-- `.order_by("redeemed_at").first()` -/
def firstBy (source : RedemptionSource) (account : Uuid) :
    Option VoucherRedemption :=
  (s.redemptionsBy source account).foldl (fun best r =>
    match best with
    | none => some r
    | some b => if r.redeemedAt < b.redeemedAt then some r else some b) none

end VoucherDb

/-! ## Columns -/

/-- What a `numeric(20, 6)` column with a check that it is positive makes of a decimal. -/
def columnAmount (d : Dec) : Except Exc Amount :=
  let e := d.exp + 6
  let n := if 0 ≤ e then d.coeff * 10 ^ e.toNat
    else d.coeff.sign * Dec.halfEven d.coeff.natAbs (10 ^ (-e).toNat)
  if maxMoney ≤ n.natAbs then .error .invalidOperation
  else if h : 0 < n then
    if h' : n < maxMoney then .ok ⟨n, h, h'⟩ else .error .invalidOperation
  else .error .integrity

example : (columnAmount ⟨25, -1⟩).toOption.map (·.micros) = some 2500000 := by decide

/-- The check constraints on the caps of a campaign, and the length of its code. -/
def VoucherCampaign.check (c : VoucherCampaign) : Except Exc Unit :=
  if c.maxRedemptionsTotal = some 0 ∨ c.maxRedemptionsPerAccount = some 0 then .error .integrity
  else if c.code.any fun code => decide (64 < code.length) then .error .data
  else .ok ()

/-- `_assert_updated_at`: a difference of a millisecond is let through. -/
def assertUpdatedAt (current : Time) (expected : Option Time) : Except Exc Unit :=
  match expected with
  | none => .ok ()
  | some expected =>
    if 1000 < (current - expected).natAbs then
      .error
        (.voucherAdminConflict "Reload and retry — the record was changed by another operator.")
    else .ok ()

end Roamkit.Vouchers
