import Roamkit.Partner.Calls

/-!
# Attributions, channels and invite links

The queries of `services/partner_attribution.py`, of `services/partner_invite.py`
and of `services/partner_invite_visit.py`. Every writer of an attribution holds the
row of the user from its first query on, and that of the channel from the check of
self-referral on.
-/

namespace Roamkit.Partner

open Lib Billing Organizations

/-! ## Visits -/

/-- `ATTRIBUTION_WINDOW`: 30 days. -/
def attributionWindow : Int := seconds (30 * 24 * 3600)

/-- `PENDING_ROW_MAX_AGE_SECONDS`: 24 hours. -/
def pendingRowMaxAge : Int := seconds (24 * 60 * 60)

/-- `pending_expires_at()` -/
def pendingExpiresAt (now : Time) : Time := now + pendingRowMaxAge

/-- `visit_predates_regeneration` -/
def visitPredatesRegeneration (visit : InviteVisit) (link : PartnerInviteLink) : Bool :=
  link.regeneratedAt.any (visit.createdAt < ·)

/-- `validate_invite_visit`, of a visit and its link. -/
def validInviteVisit (visit : InviteVisit) (link : PartnerInviteLink) (checkWindow : Bool)
    (now : Time) : Bool :=
  link.isActive && !visitPredatesRegeneration visit link
    && !(checkWindow && visit.createdAt < now - attributionWindow)

variable (s : ReferralDb) (c : ReferralSettings)

/-- The link that `_lock_visit` locks. -/
def visitLink? (id : Uuid) : Option (InviteVisit × PartnerInviteLink) :=
  match s.visits.find? (·.id = id) with
  | none => none
  | some visit => (s.links.find? (·.id = visit.inviteLink)).map (visit, ·)

/-- `_lock_visit`; `f` goes on with the link, when the visit may still be used. -/
def lockVisitStep (t : ReferralThread) (id : Uuid) (checkWindow : Bool) (now : Time)
    (f : ReferralDb → ReferralThread → Option (InviteVisit × PartnerInviteLink) → Stepped) :
    Option Stepped :=
  match visitLink? s id with
  | none => some (f s t none)
  | some (visit, link) =>
    s.lockThen t (.link link.id) fun s t =>
      f s t (if validInviteVisit visit link checkWindow now then some (visit, link) else none)

/-! ## Pending attributions -/

/-- `record_pending_for_new_user`, up to its transaction. -/
def recordsPending (s : ReferralDb) (user : UserId) (isActive : Bool) : Bool :=
  c.partnerChannelEnabled && !isActive && (s.attribution? user).isNone && (s.pending? user).isNone

/-- Its transaction; the visit was checked at `v.now`, and the clock is read again for the row. -/
def recordPending (user : UserId) (visit : InviteVisit) (link : PartnerInviteLink)
    (v : ReferralView) : Except Exc (ReferralDb × ReferralAnswer) :=
  match s.pendings.insert? ⟨v.uuid 0, user, link.partnerChannel, link.token, some visit.id,
      pendingExpiresAt (v.now + v.lag)⟩ with
  | none => .error .integrity
  | some pendings => .ok ({ s with pendings }, .nothing)

/-- `pending.delete()` -/
def dropPending (id : Uuid) : ReferralDb :=
  { s with pendings := s.pendings.remove (·.id = id) }

/-- `_current_link` of a pending row without a visit, when it still has the row's token. -/
def currentLink? (p : PendingPartnerAttribution) : Option PartnerInviteLink :=
  match s.channel? p.partnerChannel with
  | none => none
  | some channel =>
    (s.canonicalLink? channel.id).filter fun l => l.isActive && l.token = p.inviteTokenSnapshot

/-- `apply_pending_on_activation`, the part before its transaction; the activation holds the
user. -/
def applyPendingStep (s : ReferralDb) (t : ReferralThread) (user : UserId) (now : Time) : Stepped :=
  match s.pending? user with
  | none => s.answer t .nothing
  | some p =>
    if p.expiresAt ≤ now then (dropPending s p.id).answer t .nothing
    else if (s.attribution? user).isSome then (dropPending s p.id).answer t .nothing
    else if ¬ c.partnerChannelEnabled then s.answer t .nothing
    else
      match p.inviteVisit with
      | some _ => s.goto t (.pendingSeen p)
      | none =>
        match currentLink? s p with
        | none => (dropPending s p.id).answer t .nothing
        | some link => s.goto t (.legacySeen p link)

/-- The lock of the pending row, and the checks that are made again. -/
def lockPendingStep (t : ReferralThread) (user : UserId) (p : PendingPartnerAttribution)
    (now : Time) : Option Stepped :=
  match s.pendings.find? (·.id = p.id) with
  | none => some (s.answer t .nothing)
  | some locked =>
    s.lockThen t (.pending locked.id) fun s t =>
      if locked.expiresAt ≤ now then (dropPending s locked.id).answer t .nothing
      else if (s.attribution? user).isSome then (dropPending s locked.id).answer t .nothing
      else
        match locked.inviteVisit with
        | none => (dropPending s locked.id).answer t .nothing
        | some visit => s.goto t (.visiting visit (some locked.id))

/-- The attribution of a pending row without a visit. -/
def legacyAttribution (user : UserId) (p : PendingPartnerAttribution) (link : PartnerInviteLink) :
    NewAttribution where
  user
  partnerChannel := p.partnerChannel
  source := .inviteLink
  inviteLink := some link.id
  inviteVisit := none
  inviteToken := some p.inviteTokenSnapshot
  registeredViaInvite := false
  bonusAmountSnapshot := none

/-- `_apply_legacy_pending`, its transaction up to the check of self-referral. -/
def lockLegacyStep (t : ReferralThread) (user : UserId) (p : PendingPartnerAttribution)
    (link : PartnerInviteLink) : Option Stepped :=
  match s.pendings.find? (·.id = p.id) with
  | none => some (s.answer t .nothing)
  | some locked =>
    s.lockThen t (.pending locked.id) fun s t =>
      if (s.attribution? user).isSome then (dropPending s locked.id).answer t .nothing
      else s.goto t (.attributing (legacyAttribution user locked link) (some locked.id))

/-! ## Writing attributions -/

/-- The user a call is about. -/
def AttributionCall.user : AttributionCall → UserId
  | recordPending user _ _ => user
  | applyPending user => user
  | attributeCreated user _ => user
  | consumePending user _ => user
  | assign user _ => user
  | transfer user _ => user

/-- Whether a call attributes a user who registered by the invite. -/
def AttributionCall.registers : AttributionCall → Bool
  | applyPending _ => true
  | attributeCreated .. => true
  | _ => false

/-- `_insert_attribution`, the row it is to insert. -/
def visitAttribution (user : UserId) (visit : InviteVisit) (link : PartnerInviteLink)
    (registers : Bool) :
    NewAttribution where
  user
  partnerChannel := link.partnerChannel
  source := .inviteLink
  inviteLink := some link.id
  inviteVisit := some visit.id
  inviteToken := some link.token
  registeredViaInvite := registers
  bonusAmountSnapshot := if registers then some link.bonusAmount else none

/-- The row `assign_customer_attribution` is to insert. -/
def adminAttribution (user : UserId) (channel : Uuid) : NewAttribution where
  user
  partnerChannel := channel
  source := .admin
  inviteLink := none
  inviteVisit := none
  inviteToken := none
  registeredViaInvite := false
  bonusAmountSnapshot := none

/-- What a call answers when its visit may not be used. -/
def noVisit (pending : Option Uuid) : AttributionCall → ReferralDb × ReferralAnswer
  | .consumePending .. => (s, .consumed "ignored")
  | _ => (pending.elim s (dropPending s), .nothing)

/-- `_lock_visit` of a call that attributes. -/
def visitStep (t : ReferralThread) (call : AttributionCall) (visit : Uuid) (pending : Option Uuid)
    (now : Time) : Option Stepped :=
  lockVisitStep s t visit pending.isNone now fun s t found =>
    match found with
    | none => (noVisit s pending call).1.answer t (noVisit s pending call).2
    | some (visit, link) =>
      s.goto t (.attributing (visitAttribution call.user visit link call.registers) pending)

/-- `ensure_current_attribution_allowed`: the lock of the channel, and the check under both
locks. -/
def checkAttributionStep (t : ReferralThread) (call : AttributionCall) (a : NewAttribution)
    (pending : Option Uuid) : Option Stepped :=
  match s.channel? a.partnerChannel with
  | none => some (s.raise t (.doesNotExist "PartnerChannel"))
  | some channel =>
    s.lockThen t (.channel channel.id) fun s t =>
      match s.refersToSelf a.user channel with
      | none => s.goto t (.inserting a pending)
      | some e =>
        -- an activation keeps the pending row, and does not fail
        match call with
        | .applyPending _ => s.answer t .nothing
        | _ => s.raise t e

/-- `f"invite-registration-bonus:{attribution.user_id}"` -/
def bonusKey (user : UserId) : String := "invite-registration-bonus:" ++ toString user

/-- `credit_registration_invite_bonus` -/
def creditRegistrationInviteBonus (a : CustomerAttribution) : Except Exc ReferralDb :=
  match a.registeredViaInvite, a.bonusAmountSnapshot with
  | true, some amount =>
    if amount = 0 then .ok s
    else
      match s.accounts.find? (·.user = some a.user) with
      | none => .error (.doesNotExist "Account")
      | some account => do
        let p ← preparePosting account.id (.decimal (.finite (Dec.ofUnits 6 amount)))
          (.member .partnerInviteBonus) a.id.str (bonusKey a.user) true
        let (books, _) ← s.books.apply p
        return { s with books }
  | _, _ => .ok s

/-- The insert of an attribution, its bonus, and the end of the pending row. -/
def insertAttribution (a : NewAttribution) (pending : Option Uuid) (v : ReferralView) :
    Except Exc (ReferralDb × ReferralAnswer) :=
  let row := a.row (v.uuid 0) v.now
  match s.attributions.insert? row with
  | none => .error .integrity
  | some attributions => do
    let s' ← creditRegistrationInviteBonus { s with attributions } row
    return (pending.elim s' (dropPending s'), .attribution row)

/-- The last step of a call that attributes. -/
def insertStep (t : ReferralThread) (call : AttributionCall) (a : NewAttribution)
    (pending : Option Uuid) (v : ReferralView) : Stepped :=
  match call, insertAttribution s a pending v with
  | .consumePending .., .error .integrity => s.answer t (.consumed "noop")
  | .consumePending .., .ok (s', _) => s'.answer t (.consumed "created")
  | _, r => s.settle t r

/-- `transfer_customer_attribution`, the lock of the attribution. -/
def lockAttributionStep (t : ReferralThread) (user : UserId) (channel : Uuid) :
    Option Stepped :=
  match s.attribution? user with
  | none => some (s.raise t (.doesNotExist "CustomerAttribution"))
  | some a =>
    s.lockThen t (.attribution user) fun s t =>
      if a.partnerChannel = channel then s.answer t (.attribution a) else s.goto t (.moving a)

/-- The locks of both channels, and the check under them. -/
def checkMoveStep (t : ReferralThread) (a : CustomerAttribution) (channel : Uuid) :
    Option Stepped :=
  match s.channel? channel with
  | none => some (s.raise t (.doesNotExist "PartnerChannel"))
  | some target =>
    let h := s.hold t (.channel a.partnerChannel)
    let h' := h.1.hold h.2 (.channel channel)
    s.await t [.channel a.partnerChannel, .channel channel]
      (match s.refersToSelf a.user target with
      | none => h'.1.goto h'.2 (.moved a)
      | some e => s.raise t e)

/-- An attribution on another channel. -/
def reattributed (channel : Uuid) (a : CustomerAttribution) : CustomerAttribution :=
  { a with partnerChannel := channel }

/-- The save of the attribution. -/
def moveAttribution (a : CustomerAttribution) (channel : Uuid) :
    ReferralDb × ReferralAnswer :=
  ({ s with
    attributions := s.attributions.update (·.id = a.id) (reattributed channel) (fun _ _ h => h) },
    .attribution (reattributed channel a))

/-! ## The steps of a call -/

/-- `consume_partner_pending`, the first queries of its transaction. -/
def consumeStep (t : ReferralThread) (user : UserId) (visit : Uuid) : Option Stepped :=
  s.lockThen t (.user user) fun s t =>
    if (s.attribution? user).isSome then s.answer t (.consumed "noop")
    else if (s.pending? user).isSome then s.answer t (.consumed "ignored")
    else s.goto t (.visiting visit none)

/-- The first step of a call of `partner_attribution`; every one but the first locks the user. -/
def beginAttribution (s : ReferralDb) (t : ReferralThread) (v : ReferralView) :
    AttributionCall → Option Stepped
  | .recordPending user isActive visit =>
    match visit with
    | none => some (s.answer t .nothing)
    | some visit =>
      if recordsPending c s user isActive then
        lockVisitStep s t visit true v.now fun s t found =>
          match found with
          | none => s.answer t .nothing
          | some (visit, link) => s.settle t (recordPending s user visit link v)
      else some (s.answer t .nothing)
  | .applyPending user => s.lockThen t (.user user) fun s t => applyPendingStep c s t user v.now
  | .attributeCreated user visit =>
    match visit with
    | none => some (s.answer t .nothing)
    | some visit =>
      if ¬ c.partnerChannelEnabled then some (s.answer t .nothing)
      else
        s.lockThen t (.user user) fun s t =>
          if (s.attribution? user).isSome then s.answer t .nothing
          else s.goto t (.visiting visit none)
  | .consumePending user visit =>
    if (s.attribution? user).isSome then some (s.answer t (.consumed "noop"))
    else
      match visit with
      | none => some (s.answer t (.consumed "ignored"))
      | some visit =>
        if ¬ c.partnerChannelEnabled then some (s.answer t (.consumed "ignored"))
        else some (s.goto t (.consuming visit))
  | .assign user channel =>
    s.lockThen t (.user user) fun s t =>
      if (s.attribution? user).isSome then
        s.raise t (.customerAttributionExists "This customer already has a partner")
      else s.goto t (.attributing (adminAttribution user channel) none)
  | .transfer user _ => s.lockThen t (.user user) fun s t => s.goto t .seekingAttribution

end Roamkit.Partner
