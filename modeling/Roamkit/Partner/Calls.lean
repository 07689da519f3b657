import Roamkit.Partner.Rows

/-!
# Calls of the organization and partner services

What may be called, where a call is, and what it holds. A call goes on query by
query; the rows it has locked are its own until its transaction ends, and what it
writes is seen by others then.
-/

namespace Roamkit.Partner

open Lib Billing Organizations

/-! ## Calls -/

inductive OrganizationCall where
  | createOrganization (name : String) (actor : UserId) (status : OrganizationStatus)
  | transferOwnership (actor : UserId) (organization : Uuid) (newOwner : UserId)
  | setMemberRole (actor : UserId) (organization : Uuid) (targetUser : UserId)
      (role : Option MembershipRole)
  | revokeMembership (actor : UserId) (organization : Uuid) (targetUser : UserId)
  | setOrganizationStatus (actor : UserId) (organization : Uuid)
      (status : Option OrganizationStatus)
  | createInvite (actor : UserId) (organization : Uuid) (email : String)
      (role : Option MembershipRole)
  | revokeInvite (actor : UserId) (organization : Uuid) (invite : Uuid)
  | acceptInvite (actor : Person) (rawToken : String)

/-- What an admin form saves; without an `id` it is a new row. -/
structure MembershipForm where
  id : Option Uuid
  organization : Uuid
  user : UserId
  role : MembershipRole
  status : MembershipStatus

inductive AdminCall where
  /-- `MembershipAdmin.save_model` -/
  | saveMembership (f : MembershipForm)
  /-- The memberships `OrganizationAdmin` has in line, in one transaction. -/
  | saveInlines (fs : List MembershipForm)

/-- `visit` is the visit of the signed cookie, when its signature holds. -/
inductive AttributionCall where
  | recordPending (user : UserId) (isActive : Bool) (visit : Option Uuid)
  | applyPending (user : UserId)
  | attributeCreated (user : UserId) (visit : Option Uuid)
  | consumePending (user : UserId) (visit : Option Uuid)
  | assign (user : UserId) (channel : Uuid)
  | transfer (user : UserId) (channel : Uuid)

/-- Shares are in hundredths. -/
inductive ChannelCall where
  | createIndividual (owner : UserId) (percent : Int)
  | createTeam (organization : Uuid) (percent : Int)
  | updateSettings (channel : Uuid) (isActive : Bool) (percent : Int)
  | recordVisit (token : String)
  | regenerateLink (channel : Uuid)
  | setInviteActive (channel : Uuid) (active : Bool)

inductive ReferralCall where
  | organization (c : OrganizationCall)
  | admin (c : AdminCall)
  | attribution (c : AttributionCall)
  | channel (c : ChannelCall)
  /-- A user registers, and gets a personal account. -/
  | register (p : Person)
  /-- Another service posts to the ledger. -/
  | post (p : Posting)

/-- What a call returns. -/
inductive ReferralAnswer where
  | nothing
  | organization (o : Organization)
  | membership (m : Membership)
  | inviteCreated (i : OrganizationInvite) (rawToken : String) (created : Bool)
  | invite (i : OrganizationInvite)
  | accepted (m : Membership) (i : OrganizationInvite) (already : Bool)
  | consumed (outcome : String)
  | attribution (a : CustomerAttribution)
  | channel (c : PartnerChannel)
  | visit (v : InviteVisit)

/-! ## Where a call is -/

/-- What follows `ensure_active_membership_allowed`. -/
inductive Checked where
  /-- `transfer_ownership`, with the membership of its context. -/
  | transferring (membership : Uuid)
  | settingRole
  | inviting
  | accepting (invite : OrganizationInvite)
  | saving (f : MembershipForm)

/-- The attribution a call is about to insert. -/
structure NewAttribution where
  user : UserId
  partnerChannel : Uuid
  source : AttributionSource
  inviteLink : Option Uuid
  inviteVisit : Option Uuid
  inviteToken : Option String
  registeredViaInvite : Bool
  bonusAmountSnapshot : Option Nat

/-- The row it inserts. -/
def NewAttribution.row (a : NewAttribution) (id : Uuid) (attributedAt : Time) :
    CustomerAttribution where
  id
  user := a.user
  partnerChannel := a.partnerChannel
  source := a.source
  inviteLink := a.inviteLink
  inviteVisit := a.inviteVisit
  inviteToken := a.inviteToken
  registeredViaInvite := a.registeredViaInvite
  bonusAmountSnapshot := a.bonusAmountSnapshot
  attributedAt

inductive ReferralPc where
  /-- Not begun. -/
  | asked
  /-- `resolve_organization_context` has read the organization. -/
  | resolved (o : Organization)
  /-- `set_organization_status` before its save. -/
  | savingStatus (o : Organization)
  /-- `create_invite` before it looks for the user. -/
  | findingUser (organization : Uuid)
  /-- `ensure_active_membership_allowed` before its look-up of the channel, -/
  | guarding (user : UserId) (organization : Uuid) (next : Checked)
  /-- before it locks the user, -/
  | lockingUser (user : UserId) (channel : Uuid) (next : Checked)
  /-- and before it locks the channel. -/
  | lockingChannel (user : UserId) (channel : Uuid) (next : Checked)
  /-- It has passed. -/
  | checked (next : Checked)
  /-- `transfer_ownership` holds the membership of the new owner. -/
  | promoting (target : Membership) (membership : Uuid)
  /-- `revoke_membership`, with the role of its context. -/
  | revoking (role : MembershipRole)
  /-- `create_invite` before it looks for a pending invite. -/
  | writingInvite (organization : Uuid)
  | revokingInvite
  /-- `accept_invite` holds the user. -/
  | seekingInvite
  /-- The membership `get_or_create` has read. -/
  | joining (invite : OrganizationInvite) (membership : Option Membership)
  /-- `save_formset`, before the rest of the rows. -/
  | savingInlines
  /-- `apply_pending_on_activation` before it locks the pending row it has read, -/
  | pendingSeen (p : PendingPartnerAttribution)
  /-- also one without a visit, whose link is current. -/
  | legacySeen (p : PendingPartnerAttribution) (link : PartnerInviteLink)
  /-- `consume_partner_pending` before its transaction. -/
  | consuming (visit : Uuid)
  /-- Before `_lock_visit`. -/
  | visiting (visit : Uuid) (pending : Option Uuid)
  /-- Before `ensure_current_attribution_allowed`. -/
  | attributing (a : NewAttribution) (pending : Option Uuid)
  /-- It has passed. -/
  | inserting (a : NewAttribution) (pending : Option Uuid)
  /-- `transfer_customer_attribution` holds the user, -/
  | seekingAttribution
  /-- it holds the attribution, -/
  | moving (a : CustomerAttribution)
  /-- and may move it. -/
  | moved (a : CustomerAttribution)
  /-- `_create_channel_and_link`, after some attempts. -/
  | minting (attempt : Nat)
  | returned (a : ReferralAnswer)
  | raised (e : Exc)

structure ReferralThread where
  call : ReferralCall
  pc : ReferralPc
  /-- The rows its transaction holds. -/
  held : List LockedRow

/-- What a step gets from outside: the clock, UUIDs and tokens. -/
structure ReferralView where
  now : Time
  uuid : Nat → Uuid
  token : Nat → String
  /-- How much later the step reads the clock again. -/
  lag : Nat

inductive ReferralInput where
  | go (v : ReferralView)
  | fail

structure ReferralSettings where
  partnerChannelEnabled : Bool
  /-- In seconds. -/
  inviteTtl : Int
  text : OrgText

/-! ## Moving on -/

/-- The database and a thread after one step of the thread. -/
abbrev Stepped := ReferralDb × ReferralThread

namespace ReferralThread

def goto (t : ReferralThread) (pc : ReferralPc) : ReferralThread := { t with pc }

end ReferralThread

variable (s : ReferralDb)

namespace ReferralDb

/-- The end of a transaction. -/
def release (held : List LockedRow) : ReferralDb :=
  { s with locks := s.locks.filter (· ∉ held) }

/-- The call raises; its transaction is rolled back. -/
def raise (t : ReferralThread) (e : Exc) : Stepped :=
  (s.release t.held, { t with pc := .raised e, held := [] })

/-- The call returns. -/
def answer (t : ReferralThread) (a : ReferralAnswer) : Stepped :=
  (s.release t.held, { t with pc := .returned a, held := [] })

/-- The rest of a transaction, in one step. -/
def settle (t : ReferralThread) (r : Except Exc (ReferralDb × ReferralAnswer)) : Stepped :=
  match r with
  | .error e => s.raise t e
  | .ok (s', a) => s'.answer t a

/-- The call goes on. -/
def goto (t : ReferralThread) (pc : ReferralPc) : Stepped := (s, t.goto pc)

/-- A thread locks one more row. -/
def hold (t : ReferralThread) (row : LockedRow) : Stepped :=
  if row ∈ t.held then (s, t)
  else ({ s with locks := row :: s.locks }, { t with held := row :: t.held })

/-- Whether a thread gets a row without waiting. -/
def grants (s : ReferralDb) (t : ReferralThread) (row : LockedRow) : Bool :=
  row ∈ t.held || row ∉ s.locks

/-- `f` once the rows it needs are free; until then the call waits. -/
def await (t : ReferralThread) (rows : List LockedRow) (r : Stepped) : Option Stepped :=
  if rows.all (s.grants t) then some r else none

/-- The call locks a row and goes on. -/
def lockThen (t : ReferralThread) (row : LockedRow)
    (f : ReferralDb → ReferralThread → Stepped) : Option Stepped :=
  s.await t [row] (f (s.hold t row).1 (s.hold t row).2)

end ReferralDb

end Roamkit.Partner
