import Roamkit.Lib.Ucd
import Roamkit.Vouchers.Rows

/-!
# Redeeming a code

What `VoucherRedeemService` reads and writes at each of its queries. A redemption
holds the row of its voucher or campaign from the query that finds it, so that the
checks, the counts of the caps and the credit are about one state of that row.
-/

namespace Roamkit.Vouchers

open Lib Billing

/-!
## Voucher codes

A code is stored and compared in one form: NFKC, stripped, upper case. The denylist
is looked through by a comparison that takes text within ASCII only, and raises on any
other.
-/

/-- The tables of `unicodedata.normalize` and `str.upper`. -/
abbrev CodeText := Ucd

/-- `RESERVED_VOUCHER_CODES` -/
def reservedVoucherCodes : List String := ["ADMIN", "TEST", "FREE", "DEMO", "NULL", "SYSTEM"]

variable (c : CodeText) (s : VoucherDb)

def normalizeVoucherCode (raw : String) : String := c.upper (PyText.strip (c.nfkc raw))

/-- `secrets.compare_digest` of two strings. -/
def compareDigest (a b : String) : Except Exc Bool :=
  if isAscii a ∧ isAscii b then .ok (a = b) else .error .typeError

/-- The loop of `is_reserved_voucher_code`. -/
def isOneOf (normalized : String) : List String → Except Exc Bool
  | [] => .ok false
  | reserved :: rest => do
    let same ← compareDigest normalized reserved
    if same then return true else isOneOf normalized rest

def isReservedVoucherCode (code : String) : Except Exc Bool :=
  if normalizeVoucherCode c code = "" then .ok false
  else isOneOf (normalizeVoucherCode c code) reservedVoucherCodes

namespace VoucherDb

def hasVoucherCode (code : String) : Bool := s.vouchers.rows.any (·.code = code)

/-- Whether a campaign has a code, other than the excluded one. -/
def hasCampaignCode (code : String) (excludeCampaignId : Option Uuid) : Bool :=
  s.campaigns.rows.any fun c => c.code = some code && excludeCampaignId ≠ some c.id

end VoucherDb

/-- No caller excludes a voucher. -/
def assertCodeAvailable (s : VoucherDb) (code : String)
    (excludeCampaignId : Option Uuid) : Except Exc String :=
  let normalized := normalizeVoucherCode c code
  if normalized = "" then .error .valueError
  else do
    let reserved ← isReservedVoucherCode c normalized
    if reserved then .error .valueError
    else if s.hasVoucherCode normalized then .error .valueError
    else if s.hasCampaignCode normalized excludeCampaignId then .error .valueError
    else return normalized

/-- What `secrets.token_hex(8)` answers. -/
structure HexToken where
  str : String
  hex : str.toList.all isHexDigit = true
  sixteen : str.length = 16
deriving DecidableEq

/-- `f"{VOUCHER_CODE_PREFIX}{secrets.token_hex(8).upper()}"` -/
def candidateCode (token : HexToken) : String :=
  "RK-" ++ String.ofList (token.str.toList.map Char.toUpper)

/-! ## The service -/

structure VoucherConfig where
  billingEnabled : Bool
  vouchersEnabled : Bool
  text : CodeText

structure RedeemResult where
  credited : Amount
  balance : Int
  redemptionId : Uuid
  requestId : String
  replay : Bool
deriving DecidableEq

/-- The arguments of `redeem`; `drawn` is what `uuid4()` answers when no request id is given. -/
structure RedeemRequest where
  account : Uuid
  code : String
  requestId : String
  drawn : Uuid

/-- `(request_id or "").strip() or str(uuid4())` -/
def RedeemRequest.rid (r : RedeemRequest) : String :=
  if PyText.strip r.requestId = "" then r.drawn.str else PyText.strip r.requestId

/-- `_require_enabled` -/
def VoucherConfig.requireEnabled (c : VoucherConfig) : Except Exc Unit :=
  if ¬ c.billingEnabled ∨ ¬ c.vouchersEnabled then
    .error (.vouchersDisabled "Vouchers are disabled")
  else .ok ()

/-- The part of `redeem` before its transaction: the code it looks for. -/
def prepareRedeem (c : VoucherConfig) (r : RedeemRequest) : Except Exc String := do
  c.requireEnabled
  let normalized := normalizeVoucherCode c.text r.code
  if normalized = "" then .error (.voucherInvalid "Voucher code is required")
  else do
    let reserved ← isReservedVoucherCode c.text normalized
    if reserved then .error (.voucherReserved "Voucher code is reserved")
    else return normalized

/-- `_credit_amount_for_reward` -/
def creditAmountForReward (rewardType : RewardType) (creditAmount : Amount) : Except Exc Amount :=
  match rewardType with
  | .fixedCredit => .ok creditAmount
  | other => .error (.unsupportedRewardType ("Unsupported reward type: " ++ other.value))

namespace VoucherDb

def findUnique (code : String) : Option Voucher :=
  s.vouchers.find? fun v => v.code = code && v.redemptionMode = .unique

def findShared (code : String) : Option VoucherCampaign :=
  s.campaigns.find? fun c => c.code = some code && c.redemptionMode = .shared

/-- The answer that repeats an earlier one, with the balance of now. -/
def replayOf (r : RedeemRequest) (existing : VoucherRedemption) :
    Except Exc RedeemResult :=
  match s.books.accounts.find? (·.id = r.account) with
  | none => .error (.doesNotExist "Account")
  | some a =>
    .ok ⟨existing.amount, a.balance, existing.id,
      if existing.requestId = "" then r.rid else existing.requestId, true⟩

end VoucherDb

/-- What the checks lead to: an answer at once, or an amount to be granted. -/
inductive Verdict where
  | replays (result : RedeemResult)
  | grants (amount : Amount)

/-- `_redeem_unique`, up to the grant. -/
def redeemUnique (r : RedeemRequest) (v : Voucher) (now : Time) :
    Except Exc Verdict :=
  match v.status with
  | .redeemed =>
    match s.firstBy (.voucher v.id) r.account with
    | some existing => .replays <$> s.replayOf r existing
    | none => .error (.voucherInvalid "Voucher already redeemed")
  | .revoked => .error (.voucherRevoked "Voucher revoked")
  | .expired => .error (.voucherExpired "Voucher expired")
  | .created => .error (.voucherInvalid "Voucher is not active")
  | .active =>
    if v.expiresAt.any (· ≤ now) then .error (.voucherExpired "Voucher expired")
    else .grants <$> creditAmountForReward v.rewardType v.creditAmount

/-- The cap of a campaign on one account. -/
def checkPerAccount (r : RedeemRequest) (c : VoucherCampaign) :
    Except Exc (Option RedeemResult) :=
  match c.maxRedemptionsPerAccount with
  | none => .ok none
  | some cap =>
    if cap ≤ (s.redemptionsBy (.campaign c.id) r.account).length then
      match s.firstBy (.campaign c.id) r.account with
      | some prior =>
        if cap = 1 then some <$> s.replayOf r prior
        else .error (.voucherLimit "Redemption limit reached for this account")
      | none => .error (.voucherLimit "Redemption limit reached for this account")
    else .ok none

/-- The cap of a campaign on all accounts. -/
def checkTotal (c : VoucherCampaign) : Except Exc Unit :=
  match c.maxRedemptionsTotal with
  | none => .ok ()
  | some cap =>
    if cap ≤ (s.redemptionsOf (.campaign c.id)).length then
      .error (.voucherLimit "Campaign redemption limit reached")
    else .ok ()

/-- `_redeem_shared`, up to the grant. -/
def redeemShared (r : RedeemRequest) (c : VoucherCampaign) (now : Time) :
    Except Exc Verdict :=
  match c.status with
  | .revoked => .error (.voucherRevoked "Campaign revoked")
  | .expired => .error (.voucherExpired "Campaign expired")
  | .draft => .error (.voucherInvalid "Campaign is not active")
  | .active =>
    if c.startsAt.any (now < ·) then .error (.voucherInvalid "Campaign is not active yet")
    else if c.expiresAt.any (· ≤ now) then .error (.voucherExpired "Campaign expired")
    else do
      match ← checkPerAccount s r c with
      | some result => return .replays result
      | none =>
        checkTotal s c
        .grants <$> creditAmountForReward c.rewardType c.creditAmount

/-- `f"voucher_redeem:{redemption.pk}"` -/
def redeemKey (redemption : Uuid) : String := "voucher_redeem:" ++ redemption.str

namespace VoucherDb

/-- Save a voucher's status. -/
def saveStatus (id : Uuid) (status : VoucherStatus) (now : Time) : VoucherDb :=
  { s with
    vouchers := s.vouchers.update (·.id = id) (fun v => { v with status, updatedAt := now })
      (fun _ _ h => h) }

/-- `mark_voucher_redeemed` -/
def markRedeemed (source : RedemptionSource) (now : Time) : VoucherDb :=
  match source with
  | .voucher id => s.saveStatus id .redeemed now
  | .campaign _ => s

/-- `_grant` -/
def grant (r : RedeemRequest) (source : RedemptionSource) (amount : Amount) (instant : Time)
    (id : Uuid) : Except Exc (VoucherDb × RedeemResult) :=
  if 64 < r.rid.length then .error .data
  else
    match s.redemptions.insert? ⟨id, r.account, source, amount, r.rid, instant⟩ with
    | none => .error .integrity
    | some redemptions => do
      let p ← preparePosting r.account (.decimal (.finite (Dec.ofUnits 6 amount.micros)))
        (.member .voucher) id.str (redeemKey id) true
      let (books, e) ← s.books.apply p
      return ({ s with books, redemptions }.markRedeemed source instant,
        ⟨amount, e.balanceAfter, id, r.rid, false⟩)

end VoucherDb

end Roamkit.Vouchers
