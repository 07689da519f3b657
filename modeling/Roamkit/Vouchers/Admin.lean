import Roamkit.Vouchers.Redeem

/-!
# Issuing and revoking vouchers

What the services of `voucher_admin` and the forms of the admin read and write. An
operation that writes what it has just checked under the locks it takes is one
function; one that checks a code and writes it by another query is two.
-/

namespace Roamkit.Vouchers

open Lib Billing

/-! ## Campaigns -/

/-- The arguments of `create_campaign` and `issue_shared_campaign`, or the fields of a form. -/
structure CampaignData where
  code : Option String
  redemptionMode : RedemptionMode
  rewardType : RewardType
  creditAmount : Dec
  maxRedemptionsTotal : Option Nat
  maxRedemptionsPerAccount : Option Nat
  startsAt : Option Time
  expiresAt : Option Time
  status : CampaignStatus

/-- The row of the arguments, under a code. -/
def CampaignData.row (d : CampaignData) (code : Option String) (id : Uuid) (now : Time) :
    Except Exc VoucherCampaign := do
  let creditAmount ← columnAmount d.creditAmount
  let row : VoucherCampaign :=
    ⟨id, code, d.redemptionMode, d.rewardType, creditAmount, d.maxRedemptionsTotal,
      d.maxRedemptionsPerAccount, d.startsAt, d.expiresAt, d.status, now⟩
  row.check
  return row

variable (c : CodeText) (s : VoucherDb)

/-- `create_campaign`, up to its insert: the code that is stored. -/
def createCampaign (s : VoucherDb) (d : CampaignData) : Except Exc (Option String) :=
  if d.rewardType ≠ .fixedCredit then
    .error (.voucherAdminValidation "Only fixed_credit is supported in v1")
  else if d.creditAmount.coeff ≤ 0 then
    .error (.voucherAdminValidation "credit_amount must be positive")
  else
    match d.code with
    | none => .ok none
    | some code => if code = "" then .ok none else some <$> assertCodeAvailable c s code none

/-- `issue_shared_campaign`, up to its insert. -/
def issueSharedCampaign (s : VoucherDb) (code : String) : Except Exc (Option String) :=
  some <$> assertCodeAvailable c s code none

/-- What the form makes of what was typed as the code. -/
def formCode (typed : String) : Option String :=
  if PyText.strip typed = "" then none else some (PyText.strip typed)

/--
The add form of `VoucherCampaignAdmin`, up to its insert: the form's own check of
the unique column, and no other.
-/
def addForm (typed : String) : Except Exc (Option String) :=
  match formCode typed with
  | none => .ok none
  | some code => if s.hasCampaignCode code none then .error .validation else .ok (some code)

/-- One of the fields `save_campaign` is given. -/
inductive CampaignField where
  /-- A protected column. -/
  | id (value : Uuid)
  | code (value : Option String)
  | redemptionMode (value : RedemptionMode)
  | rewardType (value : RewardType)
  | creditAmount (value : Dec)
  | maxRedemptionsTotal (value : Option Nat)
  | maxRedemptionsPerAccount (value : Option Nat)
  | startsAt (value : Option Time)
  | expiresAt (value : Option Time)
  | status (value : CampaignStatus)

/-- What is stored of a code that `save_campaign` is given. -/
def savedCode (s : VoucherDb) (id : Uuid) (value : Option String) :
    Except Exc (Option String) :=
  match value with
  | none => .ok none
  | some code =>
      if code = "" then .ok (some "") else some <$> assertCodeAvailable c s code (some id)

/-- One turn of the loop of `save_campaign`. -/
def setField (s : VoucherDb) (locked : VoucherCampaign) :
    CampaignField → Except Exc VoucherCampaign
  | .id _ => .ok locked
  | .code value => do
    let code ← savedCode c s locked.id value
    return { locked with code }
  | .redemptionMode redemptionMode => .ok { locked with redemptionMode }
  | .rewardType rewardType => .ok { locked with rewardType }
  | .creditAmount value => do
    let creditAmount ← columnAmount value
    return { locked with creditAmount }
  | .maxRedemptionsTotal maxRedemptionsTotal => .ok { locked with maxRedemptionsTotal }
  | .maxRedemptionsPerAccount maxRedemptionsPerAccount =>
    .ok { locked with maxRedemptionsPerAccount }
  | .startsAt startsAt => .ok { locked with startsAt }
  | .expiresAt expiresAt => .ok { locked with expiresAt }
  | .status status => .ok { locked with status }

/-- The loop of `save_campaign`. -/
def setFields (c : CodeText) (s : VoucherDb) :
    VoucherCampaign → List CampaignField → Except Exc VoucherCampaign
  | locked, [] => .ok locked
  | locked, field :: fields => do
    let locked ← setField c s locked field
    setFields c s locked fields

/-- `save_campaign` on the locked row, up to its save. -/
def editCampaign (s : VoucherDb) (locked : VoucherCampaign) (expected : Option Time)
    (fields : List CampaignField) : Except Exc VoucherCampaign := do
  assertUpdatedAt locked.updatedAt expected
  if locked.status = .revoked then .error (.voucherAdminValidation "Cannot edit a revoked campaign")
  else do
    let row ← setFields c s locked fields
    row.check
    return row

namespace VoucherDb

/-- Save all columns of a campaign, `none` when its code is another's. -/
def saveCampaign (row : VoucherCampaign) (now : Time) : Option VoucherDb :=
  (s.campaigns.update? (·.id = row.id) fun _ => { row with updatedAt := now }).map
    fun campaigns => { s with campaigns }

/-- Save the status and the expiry of a campaign. -/
def saveCampaignStatus (id : Uuid) (status : CampaignStatus) (expiresAt : Option Time)
    (now : Time) : VoucherDb :=
  { s with
    campaigns := s.campaigns.update (·.id = id)
      (fun c => { c with status, expiresAt, updatedAt := now }) (fun _ _ h => h) }

/-- Save the status and the expiry of a voucher. -/
def saveVoucherStatus (id : Uuid) (status : VoucherStatus) (expiresAt : Option Time)
    (now : Time) : VoucherDb :=
  { s with
    vouchers := s.vouchers.update (·.id = id)
      (fun v => { v with status, expiresAt, updatedAt := now }) (fun _ _ h => h) }

/-- Save the status of a batch. -/
def saveBatchStatus (id : Uuid) (status : BatchStatus) (now : Time) : VoucherDb :=
  { s with
    batches := s.batches.update (·.id = id) (fun b => { b with status, updatedAt := now })
      (fun _ _ h => h) }

/-! ## Status -/

def activateCampaign (id : Uuid) (expected : Option Time) (now : Time) :
    Except Exc VoucherDb :=
  match s.campaigns.find? (·.id = id) with
  | none => .error (.doesNotExist "VoucherCampaign")
  | some locked => do
    assertUpdatedAt locked.updatedAt expected
    if locked.status ≠ .draft then
      .error (.voucherAdminValidation "Only DRAFT campaigns can be activated")
    else return s.saveCampaignStatus id .active locked.expiresAt now

def extendCampaignExpiry (id : Uuid) (expiresAt : Time) (expected : Option Time) (now : Time) :
    Except Exc VoucherDb :=
  match s.campaigns.find? (·.id = id) with
  | none => .error (.doesNotExist "VoucherCampaign")
  | some locked => do
    assertUpdatedAt locked.updatedAt expected
    if locked.status = .revoked then
      .error (.voucherAdminValidation "Cannot extend a revoked campaign")
    else
      return s.saveCampaignStatus id
        (if locked.status = .expired then .active else locked.status) (some expiresAt) now

def extendVoucherExpiry (id : Uuid) (expiresAt : Time) (expected : Option Time) (now : Time) :
    Except Exc VoucherDb :=
  match s.vouchers.find? (·.id = id) with
  | none => .error (.doesNotExist "Voucher")
  | some locked => do
    assertUpdatedAt locked.updatedAt expected
    if locked.status = .redeemed ∨ locked.status = .revoked then
      .error (.voucherAdminValidation "Cannot extend expiry on redeemed or revoked vouchers")
    else
      return s.saveVoucherStatus id
        (if locked.status = .expired then .active else locked.status) (some expiresAt) now

/-! ## Revoking -/

/-- `_apply_voucher_revokes` -/
def applyVoucherRevokes (p : Voucher → Bool) (now : Time) : VoucherDb :=
  { s with
    vouchers := s.vouchers.update (fun v => p v && v.status.isRevocable)
      (fun v => { v with status := .revoked, updatedAt := now }) (fun _ _ h => h) }

end VoucherDb

structure RevokeImpact where
  affected : Nat
  alreadyRedeemed : Nat
  revokedNow : Nat
deriving DecidableEq

/-- `_voucher_revoke_counts` -/
def voucherRevokeCounts (p : Voucher → Bool) : RevokeImpact where
  affected := s.vouchers.rows.countP p
  alreadyRedeemed := s.vouchers.rows.countP fun v => p v && v.status = .redeemed
  revokedNow := s.vouchers.rows.countP fun v => p v && v.status.isRevocable

/-- `_require_revoke_reason` -/
def requireRevokeReason (reason : String) : Except Exc Unit :=
  if voucherRevokeReasons.contains reason then .ok ()
  else .error (.voucherAdminValidation "revoke_reason is required")

namespace VoucherDb

def revokeCampaign (id : Uuid) (reason : String) (expected : Option Time) (now : Time) :
    Except Exc (VoucherDb × RevokeImpact) :=
  do
  requireRevokeReason reason
  match s.campaigns.find? (·.id = id) with
  | none => .error (.doesNotExist "VoucherCampaign")
  | some locked => do
    assertUpdatedAt locked.updatedAt expected
    if locked.status = .revoked then
      .error (.voucherAdminValidation "Campaign is already revoked")
    else
      let linked := fun v : Voucher => v.campaign = some id
      let impact := voucherRevokeCounts s linked
      return ((s.applyVoucherRevokes linked now).saveCampaignStatus id .revoked
          locked.expiresAt now,
        ⟨impact.affected + 1, impact.alreadyRedeemed, impact.revokedNow + 1⟩)

def revokeBatch (id : Uuid) (reason : String) (expected : Option Time) (now : Time) :
    Except Exc (VoucherDb × RevokeImpact) :=
  do
  requireRevokeReason reason
  match s.batches.find? (·.id = id) with
  | none => .error (.doesNotExist "VoucherBatch")
  | some locked => do
    assertUpdatedAt locked.updatedAt expected
    if locked.status = .revoked then .error (.voucherAdminValidation "Batch is already revoked")
    else
      let linked := fun v : Voucher => v.batch = some id
      return ((s.applyVoucherRevokes linked now).saveBatchStatus id .revoked now,
        voucherRevokeCounts s linked)

def revokeVouchers (ids : List Uuid) (reason : String) (now : Time) :
    Except Exc (VoucherDb × RevokeImpact) := do
  requireRevokeReason reason
  let chosen := fun v : Voucher => ids.contains v.id
  return (s.applyVoucherRevokes chosen now, voucherRevokeCounts s chosen)

/-! ## Vouchers -/

/-- Whether the parents of a voucher are there: its foreign keys. -/
def hasParents (v : Voucher) : Bool :=
  v.campaign.all (fun id => s.campaigns.rows.any (·.id = id))
    && v.batch.all (fun id => s.batches.rows.any (·.id = id))

/-- Insert a voucher. -/
def insertVoucher (v : Voucher) : Except Exc VoucherDb :=
  if 64 < v.code.length then .error .data
  else if ¬ s.hasParents v then .error .integrity
  else
    match s.vouchers.insert? v with
    | none => .error .integrity
    | some vouchers => .ok { s with vouchers }

/-- `bulk_create` -/
def insertVouchers (s : VoucherDb) : List Voucher → Except Exc VoucherDb
  | [] => .ok s
  | v :: vs => do
    let s ← s.insertVoucher v
    s.insertVouchers vs

end VoucherDb

/-- The arguments of `issue_unique_voucher`. -/
structure VoucherData where
  code : String
  creditAmount : Dec
  status : VoucherStatus
  expiresAt : Option Time
  campaign : Option Uuid
  batch : Option Uuid

/-- The row of the arguments, under a code. -/
def VoucherData.row (d : VoucherData) (code : String) (id : Uuid) (now : Time) :
    Except Exc Voucher := do
  let creditAmount ← columnAmount d.creditAmount
  return ⟨id, code, .unique, .fixedCredit, creditAmount, d.campaign, d.batch, d.status,
    d.expiresAt, now⟩

/-! ## Batches -/

/-- The arguments of `generate_batch`. -/
structure BatchData where
  size : Nat
  creditAmount : Dec
  campaign : Option Uuid
  expectedCampaignUpdatedAt : Option Time
  rewardType : RewardType
  expiresAt : Option Time
  activate : Bool

variable (d : BatchData)

/-- `preview_batch`, where it raises. -/
def previewBatch : Except Exc Unit :=
  if d.size < 1 then .error (.voucherAdminValidation "size must be >= 1")
  else if d.creditAmount.coeff ≤ 0 then
    .error (.voucherAdminValidation "credit_amount must be positive")
  else if d.rewardType ≠ .fixedCredit then
    .error (.voucherAdminValidation "Only fixed_credit is supported in v1")
  else .ok ()

/-- `_CODE_COLLISION_RETRIES` -/
def codeCollisionRetries : Nat := 8

/-- A batch whose codes are being drawn. -/
structure Draw where
  campaign : Option VoucherCampaign
  size : Nat
  creditAmount : Amount
  rewardType : RewardType
  expiresAt : Option Time
  activate : Bool
  codes : List String
  tries : Nat

/-- `generate_batch` without a campaign, up to its first code. -/
def drawFree : Except Exc Draw := do
  let creditAmount ← columnAmount d.creditAmount
  return ⟨none, d.size, creditAmount, d.rewardType, d.expiresAt, d.activate, [],
    codeCollisionRetries⟩

/--
`generate_batch` on the locked campaign, up to its first code; `advisory` is whether
the advisory lock was free.
-/
def drawFor (locked : VoucherCampaign) (advisory : Bool) : Except Exc Draw := do
  assertUpdatedAt locked.updatedAt d.expectedCampaignUpdatedAt
  if ¬ advisory then .error (.voucherBatchBusy "Batch generation already in progress.")
  else if locked.status = .revoked then
    .error (.voucherAdminValidation "Cannot generate a batch for a revoked campaign")
  else
    return ⟨some locked, d.size, locked.creditAmount, locked.rewardType,
      d.expiresAt.or locked.expiresAt, d.activate, [], codeCollisionRetries⟩

/-- One candidate of `generate_unique_code`. -/
def drawCode (s : VoucherDb) (d : Draw) (token : HexToken) : Except Exc Draw :=
  match assertCodeAvailable c s (candidateCode token) none with
  | .ok code => .ok { d with codes := d.codes ++ [code], tries := codeCollisionRetries }
  | .error .valueError =>
    if d.tries ≤ 1 then
      .error (.voucherAdminValidation "Could not allocate a unique voucher code")
    else .ok { d with tries := d.tries - 1 }
  | .error e => .error e

/-- The voucher of a code of the batch. -/
def Draw.voucher (d : Draw) (batch : Uuid) (now : Time) (code : String) (id : Uuid) : Voucher where
  id
  code
  redemptionMode := .unique
  rewardType := d.rewardType
  creditAmount := d.creditAmount
  campaign := d.campaign.map (·.id)
  batch := some batch
  status := if d.activate then .active else .created
  expiresAt := d.expiresAt
  updatedAt := now

/-- The vouchers of the batch; `ids` is what `uuid4()` answers. -/
def Draw.vouchers (d : Draw) (batch : Uuid) (ids : Nat → Uuid) (now : Time) : List Voucher :=
  d.codes.zipIdx.map fun ⟨code, i⟩ => d.voucher batch now code (ids i)

/-- The row of the batch. -/
def Draw.row (d : Draw) (batch : Uuid) (now : Time) : VoucherBatch where
  id := batch
  campaign := d.campaign.map (·.id)
  size := d.size
  status := if d.activate then .active else .created
  updatedAt := now

/-- The batch and its vouchers are written. -/
def VoucherDb.createBatch (d : Draw) (batch : Uuid) (ids : Nat → Uuid) (now : Time) :
    Except Exc VoucherDb :=
  match s.batches.insert? (d.row batch now) with
  | none => .error .integrity
  | some batches => { s with batches }.insertVouchers (d.vouchers batch ids now)

end Roamkit.Vouchers
