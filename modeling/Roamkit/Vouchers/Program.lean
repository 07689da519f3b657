import Roamkit.Vouchers.Admin

/-!
# Voucher calls in flight

`voucherProgram` runs any number of redemptions and admin operations at once, with
other services' postings in between. A redemption, a save of a campaign and the
generation of a batch go on over several steps under the row lock they have taken;
a check of a code and the insert that follows it are two steps. An operation whose
queries are all under the locks it takes is one step, and every step that needs a
lock another call holds waits for it.
-/

namespace Roamkit.Vouchers

open Lib Billing

/-- A posting of another service: no voucher's credit, and not under a redemption's key. -/
structure OtherPosting where
  posting : Posting
  notVoucher : posting.referenceType ≠ .voucher
  notRedeemKey : ∀ id, posting.idempotencyKey ≠ redeemKey id

inductive VoucherCall where
  | redeem (r : RedeemRequest)
  | createCampaign (d : CampaignData)
  | issueSharedCampaign (code : String) (d : CampaignData)
  /-- `VoucherCampaignAdmin.save_model` of a new campaign, with the code as typed. -/
  | addForm (typed : String) (d : CampaignData)
  /-- `save_campaign`, also as `save_model` of a campaign that is there calls it. -/
  | saveCampaign (id : Uuid) (expected : Option Time) (fields : List CampaignField)
  | activateCampaign (id : Uuid) (expected : Option Time)
  | extendCampaignExpiry (id : Uuid) (expiresAt : Time) (expected : Option Time)
  | extendVoucherExpiry (id : Uuid) (expiresAt : Time) (expected : Option Time)
  | revokeCampaign (id : Uuid) (reason : String) (expected : Option Time)
  | revokeBatch (id : Uuid) (reason : String) (expected : Option Time)
  | revokeVouchers (ids : List Uuid) (reason : String)
  | generateBatch (d : BatchData)
  | issueUniqueVoucher (d : VoucherData)
  | post (p : OtherPosting)

/-- The voucher whose expiry a call extends. -/
def VoucherCall.extended? : VoucherCall → Option Uuid
  | extendVoucherExpiry id _ _ => some id
  | _ => none

/-- What a call returns. -/
inductive VoucherAnswer where
  | redeemed (result : RedeemResult)
  | campaign (id : Uuid)
  | batch (id : Uuid)
  | voucher (id : Uuid)
  | impact (i : RevokeImpact)
  | posted

/-- Where a call is. -/
inductive VoucherPc where
  /-- Not begun. -/
  | asked
  /-- No voucher has the code. -/
  | seeking (code : String)
  /-- A redemption holds the row of its voucher, -/
  | holding (v : Voucher)
  /-- or of its campaign. -/
  | holdingShared (c : VoucherCampaign)
  /-- The checks are done, and the row still held. -/
  | granting (source : RedemptionSource) (amount : Amount) (instant : Time)
  /-- The code of a campaign is checked. -/
  | inserting (code : Option String) (d : CampaignData)
  /-- The code of a voucher is checked. -/
  | insertingVoucher (code : String) (d : VoucherData)
  /-- `save_campaign` holds the row, read as `locked`, and has set its fields. -/
  | saving (locked row : VoucherCampaign)
  /-- `generate_batch` draws codes, and holds the row of its campaign. -/
  | drawing (d : Draw)
  | returned (a : VoucherAnswer)
  | raised (e : Exc)

/-- The row a call holds. -/
def VoucherPc.held : VoucherPc → Option LockedRow
  | holding v => some (.voucher v.id)
  | holdingShared c => some (.campaign c.id)
  | granting (.voucher id) _ _ => some (.voucher id)
  | granting (.campaign id) _ _ => some (.campaign id)
  | saving locked _ => some (.campaign locked.id)
  | drawing d => d.campaign.map fun c => .campaign c.id
  | _ => none

structure VoucherThread where
  call : VoucherCall
  pc : VoucherPc

/-- What a step gets from outside: the clock, UUIDs and random digits, and the advisory lock. -/
structure VoucherView where
  now : Time
  uuid : Uuid
  uuids : Nat → Uuid
  token : HexToken
  advisory : Bool

inductive VoucherInput where
  | go (v : VoucherView)
  | fail

namespace VoucherThread

def goto (t : VoucherThread) (pc : VoucherPc) : VoucherThread := { t with pc }

end VoucherThread

variable (s : VoucherDb) (c : VoucherConfig)

/-- The call raises; what it held is free, and what it wrote is rolled back. -/
def VoucherDb.raise (t : VoucherThread) (e : Exc) : VoucherDb × VoucherThread :=
  (s.unlock t.pc.held, t.goto (.raised e))

/-- The call returns. -/
def VoucherDb.answer (t : VoucherThread) (a : VoucherAnswer) :
    VoucherDb × VoucherThread := (s.unlock t.pc.held, t.goto (.returned a))

/-- A call whose queries are all in one step. -/
def VoucherDb.settle (t : VoucherThread) (r : Except Exc (VoucherDb × VoucherAnswer)) :
    VoucherDb × VoucherThread :=
  match r with
  | .error e => s.raise t e
  | .ok (s', a) => s'.answer t a

/-- Whether nobody else holds a campaign. -/
def VoucherDb.isFree (row : LockedRow) : Bool := row ∉ s.locks

/-- Whether nobody holds a voucher that is revocable and has a property. -/
def VoucherDb.areFree (p : Voucher → Bool) : Bool :=
  s.vouchers.rows.all fun v => ¬ (p v && v.status.isRevocable) || s.isFree (.voucher v.id)

/-- `f` when the lock it needs is free; else the call waits. -/
def whenFree (free : Bool) (r : VoucherDb × VoucherThread) : Option (VoucherDb × VoucherThread) :=
  if free then some r else none

/-- The query for the voucher. -/
def seekVoucher (t : VoucherThread) (code : String) :
    Option (VoucherDb × VoucherThread) :=
  match s.findUnique code with
  | none => some (s, t.goto (.seeking code))
  | some v => whenFree (s.isFree (.voucher v.id)) (s.lock (.voucher v.id), t.goto (.holding v))

/-- The query for the campaign. -/
def seekCampaign (t : VoucherThread) (code : String) :
    Option (VoucherDb × VoucherThread) :=
  match s.findShared code with
  | none => some (s.raise t (.voucherInvalid "Invalid voucher code"))
  | some c =>
      whenFree (s.isFree (.campaign c.id)) (s.lock (.campaign c.id), t.goto (.holdingShared c))

/-- What comes of the checks of a redemption. -/
def decideRedeem (t : VoucherThread) (source : RedemptionSource) (now : Time)
    (r : Except Exc Verdict) : VoucherDb × VoucherThread :=
  match r with
  | .error e => s.raise t e
  | .ok (.replays result) => s.answer t (.redeemed result)
  | .ok (.grants amount) => (s, t.goto (.granting source amount now))

/-- A code was checked, or not accepted. -/
def checkCode (t : VoucherThread) (d : CampaignData) (r : Except Exc (Option String)) :
    VoucherDb × VoucherThread :=
  match r with
  | .error e => s.raise t e
  | .ok code => (s, t.goto (.inserting code d))

/-- `save_campaign`, its first queries. -/
def beginSave (s : VoucherDb) (t : VoucherThread) (id : Uuid) (expected : Option Time)
    (fields : List CampaignField) : VoucherDb × VoucherThread :=
  match s.campaigns.find? (·.id = id) with
  | none => s.raise t (.doesNotExist "VoucherCampaign")
  | some locked =>
    match editCampaign c.text s locked expected fields with
    | .error e => s.raise t e
    | .ok row => (s.lock (.campaign locked.id), t.goto (.saving locked row))

/-- `generate_batch`, its first queries. -/
def beginBatch (t : VoucherThread) (d : BatchData) (advisory : Bool) :
    VoucherDb × VoucherThread :=
  match previewBatch d with
  | .error e => s.raise t e
  | .ok _ =>
    match d.campaign with
    | none =>
      match drawFree d with
      | .error e => s.raise t e
      | .ok draw => (s, t.goto (.drawing draw))
    | some id =>
      match s.campaigns.find? (·.id = id) with
      | none => s.raise t (.doesNotExist "VoucherCampaign")
      | some locked =>
        -- `nowait`: a row that is held is not waited for
        if ¬ s.isFree (.campaign locked.id) then
          s.raise t (.voucherBatchBusy "Batch generation already in progress.")
        else
          match drawFor d locked advisory with
          | .error e => s.raise t e
          | .ok draw => (s.lock (.campaign locked.id), t.goto (.drawing draw))

/-- The first step of a call. -/
def beginVoucher (s : VoucherDb) (t : VoucherThread) (x : VoucherView) :
    Option (VoucherDb × VoucherThread) :=
  match t.call with
  | .redeem r =>
    match prepareRedeem c r with
    | .error e => some (s.raise t e)
    | .ok code => seekVoucher s t code
  | .createCampaign d => some (checkCode s t d (createCampaign c.text s d))
  | .issueSharedCampaign code d =>
    some (checkCode s t { d with rewardType := .fixedCredit, redemptionMode := .shared }
      (issueSharedCampaign c.text s code))
  | .addForm typed d => some (checkCode s t { d with rewardType := .fixedCredit } (addForm s typed))
  | .saveCampaign id expected fields =>
    whenFree (s.isFree (.campaign id)) (beginSave c s t id expected fields)
  | .activateCampaign id expected =>
    whenFree (s.isFree (.campaign id))
      (s.settle t ((·, .campaign id) <$> s.activateCampaign id expected x.now))
  | .extendCampaignExpiry id expiresAt expected =>
    whenFree (s.isFree (.campaign id))
      (s.settle t ((·, .campaign id) <$> s.extendCampaignExpiry id expiresAt expected x.now))
  | .extendVoucherExpiry id expiresAt expected =>
    whenFree (s.isFree (.voucher id))
      (s.settle t ((·, .voucher id) <$> s.extendVoucherExpiry id expiresAt expected x.now))
  | .revokeCampaign id reason expected =>
    whenFree (s.isFree (.campaign id) && s.areFree fun v => v.campaign = some id)
      (s.settle t ((fun r => (r.1, .impact r.2)) <$> s.revokeCampaign id reason expected x.now))
  | .revokeBatch id reason expected =>
    whenFree (s.areFree fun v => v.batch = some id)
      (s.settle t ((fun r => (r.1, .impact r.2)) <$> s.revokeBatch id reason expected x.now))
  | .revokeVouchers ids reason =>
    whenFree (s.areFree fun v => ids.contains v.id)
      (s.settle t ((fun r => (r.1, .impact r.2)) <$> s.revokeVouchers ids reason x.now))
  | .generateBatch d => some (beginBatch s t d x.advisory)
  | .issueUniqueVoucher d =>
    match assertCodeAvailable c.text s d.code none with
    | .error e => some (s.raise t e)
    | .ok code => some (s, t.goto (.insertingVoucher code d))
  | .post p =>
    match s.books.apply p.posting with
    | .error e => some (s.raise t e)
    | .ok (books, _) => some ({ s with books }.answer t .posted)

/-- The grant of a redemption. -/
def grantStep (t : VoucherThread) (source : RedemptionSource) (amount : Amount) (instant : Time)
    (id : Uuid) : Option (VoucherDb × VoucherThread) :=
  match t.call with
  | .redeem r =>
      some (s.settle t ((fun x => (x.1, .redeemed x.2)) <$> s.grant r source amount instant id))
  | _ => none

/-- The checks of a redemption. -/
def checkStep (t : VoucherThread) (source : RedemptionSource) (now : Time)
    (check : RedeemRequest → Except Exc Verdict) : Option (VoucherDb × VoucherThread) :=
  match t.call with
  | .redeem r => some (decideRedeem s t source now (check r))
  | _ => none

/-- The insert of a campaign. -/
def insertCampaign (code : Option String) (d : CampaignData) (id : Uuid) (now : Time) :
    Except Exc (VoucherDb × VoucherAnswer) :=
  do
  let row ← d.row code id now
  match s.campaigns.insert? row with
  | none => .error .integrity
  | some campaigns => return ({ s with campaigns }, .campaign id)

/-- The insert of a voucher. -/
def insertIssued (code : String) (d : VoucherData) (id : Uuid) (now : Time) :
    Except Exc (VoucherDb × VoucherAnswer) := do
  let row ← d.row code id now
  let s ← s.insertVoucher row
  return (s, .voucher id)

/-- The save of a campaign. -/
def saveEdited (row : VoucherCampaign) (now : Time) :
    Except Exc (VoucherDb × VoucherAnswer) :=
  match s.saveCampaign row now with
  | none => .error .integrity
  | some s' => .ok (s', .campaign row.id)

/-- One more code of a batch, or the batch is written. -/
def drawStep (s : VoucherDb) (t : VoucherThread) (d : Draw) (x : VoucherView) :
    VoucherDb × VoucherThread :=
  if d.codes.length < d.size then
    match drawCode c.text s d x.token with
    | .error e => s.raise t e
    | .ok d' => (s, t.goto (.drawing d'))
  else s.settle t ((·, .batch x.uuid) <$> s.createBatch d x.uuid x.uuids x.now)

/-- Whether a call has a query left. -/
def VoucherPc.isLive : VoucherPc → Bool
  | returned _ => false
  | raised _ => false
  | _ => true

/-- One step of a call. -/
def voucherStep (s : VoucherDb) (t : VoucherThread) (x : VoucherInput) :
    Option (VoucherDb × VoucherThread) :=
  match x with
  | .fail => if t.pc.isLive then some (s.raise t .operational) else none
  | .go x =>
    match t.pc with
    | .asked => beginVoucher c s t x
    | .seeking code => seekCampaign s t code
    | .holding v => checkStep s t (.voucher v.id) x.now fun r => redeemUnique s r v x.now
    | .holdingShared k => checkStep s t (.campaign k.id) x.now fun r => redeemShared s r k x.now
    | .granting source amount instant => grantStep s t source amount instant x.uuid
    | .inserting code d => some (s.settle t (insertCampaign s code d x.uuid x.now))
    | .insertingVoucher code d => some (s.settle t (insertIssued s code d x.uuid x.now))
    | .saving _ row => some (s.settle t (saveEdited s row x.now))
    | .drawing d => some (drawStep c s t d x)
    | .returned _ => none
    | .raised _ => none

/-- The voucher services, their calls run concurrently. -/
def voucherProgram :
    Program VoucherDb VoucherThread VoucherCall VoucherInput where
  start call := ⟨call, .asked⟩
  step := voucherStep c

end Roamkit.Vouchers
