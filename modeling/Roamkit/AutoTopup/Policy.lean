import Roamkit.Lib.Isoformat
import Roamkit.Spend.Program

/-!
# Auto top-up policies

A policy says when to buy a top-up for an eSIM: when its usage clock has run out,
or when the data left is under a bound. What is here is decided from the rows
alone: whether a policy fires and why, the idempotency key of the purchase, and
what a success writes back.
-/

namespace Roamkit.AutoTopup

open Lib Spend Billing

/-!
## `UsageService`

The usage of an eSIM as its row caches it. A refresh asks the provider, writes
what the mapper made of the reply, and stamps it with the time of the write; the
lifecycle status that is overwritten after that is no part of this.
-/

/-- `parse_datetime`, with a naive time taken in UTC, which `TIME_ZONE` is. -/
abbrev DatetimeParser := String → Except Exc (Option Time)

/-- `text.replace(" ", "T", 1)` -/
def replaceSpace : List Char → List Char
  | [] => []
  | ' ' :: cs => 'T' :: cs
  | c :: cs => c :: replaceSpace cs

/-- `UsageService._parse_expired_at` -/
def parseExpiredAt (parse : DatetimeParser) (value : Option String) : Except Exc (Option Time) :=
  match value with
  | none => .ok none
  | some text =>
    if text = "" then .ok none
    else
      let normalized := PyText.strip text
      if PyText.contains normalized " " ∧ ¬ PyText.contains normalized "T" then
        parse (String.ofList (replaceSpace normalized.toList))
      else parse normalized

/-- The range of an `integer` column. -/
def fitsInteger (n : Int) : Bool := -2147483648 ≤ n && n ≤ 2147483647

/-- The columns `UsageService._update_cache` writes. -/
def updateCache (parse : DatetimeParser) (now : Time) (usage : Airalo.UsageDTO) :
    Except Exc UsageCache := do
  let expiredAt ← parseExpiredAt parse usage.expiredAt
  if fitsInteger usage.remainingMb && fitsInteger usage.totalMb && usage.status.length ≤ 64 then
    return {
      remainingMb := some usage.remainingMb
      totalMb := some usage.totalMb
      status := usage.status
      isUnlimited := usage.isUnlimited
      expiredAt
      syncedAt := some now }
  else .error .data

/-- `UsageService.get_usage`, as far as the cache. -/
def getUsage (w : Json.Writer) (parse : DatetimeParser) (now : Time) (iccid : String)
    (r : Airalo.HttpReply) : Except Exc UsageCache := do
  updateCache parse now (← Airalo.fetchUsage w iccid r)

/-- An eSIM with its usage rewritten. -/
def cached (usage : UsageCache) (e : Esim) : Esim := { e with usage }

/-- The row of an eSIM saved with its usage. -/
def saveUsage (s : SpendDb) (esim : Nat) (usage : UsageCache) : SpendDb :=
  { s with esims := s.esims.update (·.id = esim) (cached usage) (fun _ _ h => h) }

/-! ## Policies -/

inductive PolicyStatus where
  | active
  | paused
  | blocked
  | disabled
deriving DecidableEq

inductive PolicyReason where
  | none
  | insufficientFunds
  | packageUnavailable
  | usageUnknown
  | providerError
  | manualPause
  | countExhausted
  | scheduleEnded
deriving DecidableEq

inductive UsageMode where
  | disabled
  | threshold
  | zero
deriving DecidableEq

inductive RenewMode where
  | untilFunds
  | fixedCount
deriving DecidableEq

/-- Why a purchase is made. -/
inductive FireReason where
  | expiry
  | usageThreshold
  | usageZero
deriving DecidableEq

def FireReason.value : FireReason → String
  | expiry => "expiry"
  | usageThreshold => "usage_threshold"
  | usageZero => "usage_zero"

/-- `EsimAutoTopupPolicy`, with its check constraints. -/
structure Policy where
  id : Uuid
  account : Uuid
  esim : Nat
  packageId : String
  enabled : Bool
  status : PolicyStatus
  reason : PolicyReason
  expiryEnabled : Bool
  usageMode : UsageMode
  thresholdMb : Option Nat
  renewMode : RenewMode
  remainingCount : Option Nat
  activeUntil : Option Time
  cooldownUntil : Option Time
  lastTriggeredAt : Option Time
  lastTopup : Option Uuid
  lastIdempotencyKey : String
  thresholdRequired : usageMode = .threshold → thresholdMb ≠ none
  countRequired : renewMode = .fixedCount → remainingCount ≠ none
deriving DecidableEq

/-- The settings the service reads. -/
structure AutoTopupSettings where
  spend : SpendSettings
  enabled : Bool
  cooldownSeconds : Int
  usageMaxAgeSeconds : Int
  minimumAgeSeconds : Int
  rolloutMode : String
  allowlist : List String
  rolloutPercent : Int
  /-- The number the first eight digits of the SHA-256 of a text spell. -/
  digest : String → Nat
  parseDatetime : DatetimeParser

variable (c : AutoTopupSettings)

/-- `rollout_allows_account`; `isStaff` of the account's user, if it has one. -/
def rolloutAllows (account : Uuid) (isStaff : Option Bool) :
    Except Exc Bool :=
  if ¬ (c.enabled ∧ c.spend.billingEnabled) then .ok false
  else
    let mode := PyText.lower c.rolloutMode
    if mode = "" ∨ mode = "off" then .ok false
    else if mode = "all" then .ok true
    else if mode = "staff" then
      match isStaff with
      | none => .error .attributeError
      | some b => .ok b
    else if mode = "allowlist" then .ok (c.allowlist.contains account.str)
    else if mode = "percent" then
      if c.rolloutPercent ≤ 0 then .ok false
      else if 100 ≤ c.rolloutPercent then .ok true
      else .ok (c.digest account.str % 100 < c.rolloutPercent)
    else .ok false

/-! ## Whether to buy -/

/-- Whether usage synced at a time is fresh at another. -/
def isFresh (syncedAt : Option Time) (now : Time) : Bool :=
  syncedAt.any fun synced => now - synced ≤ seconds c.usageMaxAgeSeconds

/-- `_past_minimum_age` -/
def pastMinimumAge (esim : Esim) (now : Time) : Bool :=
  seconds c.minimumAgeSeconds ≤ now - esim.setupCompletedAt.getD esim.createdAt

/-- `_expiry_met` -/
def expiryMet (esim : Esim) (now : Time) : Bool := esim.usage.expiredAt.any (· ≤ now)

variable (policy : Policy)

/-- `_select_fire_reason` -/
def selectFireReason (esim : Esim) (now : Time) : Option FireReason :=
  if policy.expiryEnabled ∧ expiryMet esim now then some .expiry
  else
    match policy.usageMode with
    | .disabled => none
    | .threshold =>
      if esim.usage.isUnlimited = some true then none
      else
        match esim.usage.remainingMb with
        | none => none
        | some remaining =>
          if remaining < (policy.thresholdMb.getD 0 : Nat) then some .usageThreshold else none
    | .zero =>
      if esim.usage.isUnlimited = some true then none
      else
        match esim.usage.remainingMb with
        | none => none
        | some remaining => if remaining ≤ 0 then some .usageZero else none

/-- `canonical_utc_stamp` -/
def canonicalUtcStamp (t : Time) : String :=
  Isoformat.isoformat (t / Isoformat.perSecond * Isoformat.perSecond)

example : canonicalUtcStamp 1786524601123456 = "2026-08-12T08:50:01+00:00" := by decide

/-- `f"auto-topup:{policy.pk}:{reason}:"` -/
def keyPrefix (policy : Uuid) (reason : FireReason) : String :=
  "auto-topup:" ++ policy.str ++ ":" ++ reason.value ++ ":"

/-- `_idempotency_key` -/
def idempotencyKey (esim : Esim) (reason : FireReason) : Except Exc String :=
  if reason = .expiry then
    match esim.usage.expiredAt with
    | none => .error .valueError
    | some expiredAt => .ok (keyPrefix policy.id reason ++ canonicalUtcStamp expiredAt)
  else
    .ok (keyPrefix policy.id reason
      ++ (esim.usage.syncedAt.map Isoformat.isoformat).getD "unknown")

/-- `_same_expiry_episode` -/
def sameExpiryEpisode (esim : Esim) : Bool :=
  match esim.usage.expiredAt with
  | none => false
  | some expiredAt =>
    let start := (keyPrefix policy.id .expiry).toList
    let last := policy.lastIdempotencyKey.toList
    if ¬ start.isPrefixOf last then false
    else
      let stamp := String.ofList (last.drop start.length)
      if stamp = "" ∨ stamp = "unknown" then false
      else
        match Isoformat.fromIsoformat stamp with
        | none => false
        | some previous => canonicalUtcStamp previous = canonicalUtcStamp expiredAt

/-- What an evaluation goes on to buy with. -/
structure Plan where
  esim : Esim
  packageId : String
  idempotencyKey : String
  reason : FireReason
  account : Uuid
deriving DecidableEq

/-- The call of `purchase` a plan makes. -/
def Plan.args (plan : Plan) : PurchaseArgs :=
  ⟨plan.esim, plan.packageId, plan.idempotencyKey, some plan.account⟩

/-- What an evaluation finds to do. -/
inductive Prepared where
  | skipped
  | scheduleEnded
  | buy (plan : Plan)

/-- The second transaction of `_prepare`, but for the pause it writes. -/
def prepare (policy : Policy) (esim : Esim) (now : Time) :
    Except Exc Prepared :=
  if ¬ policy.enabled ∨ policy.status ≠ .active then .ok .skipped
  else if policy.cooldownUntil.any (now < ·) then .ok .skipped
  else if ¬ pastMinimumAge c esim now then .ok .skipped
  else if policy.activeUntil.any (· ≤ now) then .ok .scheduleEnded
  else
    match selectFireReason policy esim now with
    | none => .ok .skipped
    | some reason =>
      if reason = .expiry ∧ sameExpiryEpisode policy esim then .ok .skipped
      else do
        let key ← idempotencyKey policy esim reason
        return .buy ⟨esim, policy.packageId, key, reason, policy.account⟩

/-! ## What an evaluation writes -/

def Policy.paused (reason : PolicyReason) (policy : Policy) : Policy :=
  { policy with status := .paused, reason }

def Policy.blocked : Policy :=
  { policy with status := .blocked, reason := .packageUnavailable }

/-- The event of a success. -/
structure AutoTopupSucceeded where
  policyId : Uuid
  topupId : Uuid
  packageId : String
  amount : Amount
  remainingCount : Option Nat
  accountId : Uuid
  esimId : Nat
  createdAt : Time
deriving DecidableEq

/-- The count a success leaves. -/
def Policy.countAfter : Option Nat :=
  if policy.renewMode = .fixedCount then some (policy.remainingCount.getD 0 - 1)
  else policy.remainingCount

theorem Policy.countAfter_required (h : policy.renewMode = .fixedCount) :
    policy.countAfter ≠ none := by
  simp [Policy.countAfter, h]

/-- The policy as `_on_success` saves it. -/
def Policy.succeeded (c : AutoTopupSettings) (now : Time) (topup : Topup) (key : String) : Policy :=
  let exhausted := policy.renewMode = .fixedCount ∧ policy.countAfter = some 0
  { policy with
    cooldownUntil := some (now + seconds c.cooldownSeconds)
    lastTriggeredAt := some now
    lastTopup := some topup.id
    lastIdempotencyKey := key
    remainingCount := policy.countAfter
    countRequired := policy.countAfter_required
    status := if exhausted then .paused else policy.status
    reason := if exhausted then .countExhausted else policy.reason }

/-- The event `_on_success` publishes. -/
def Policy.successEvent (now : Time) (topup : Topup) : AutoTopupSucceeded where
  policyId := policy.id
  topupId := topup.id
  packageId := policy.packageId
  amount := topup.amount
  remainingCount := policy.countAfter
  accountId := policy.account
  esimId := policy.esim
  createdAt := now

end Roamkit.AutoTopup
