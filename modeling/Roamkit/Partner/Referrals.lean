import Roamkit.Partner.Attribution
import Roamkit.Partner.Channels
import Roamkit.Partner.Members

/-!
# Calls in flight

`referralProgram` runs any number of calls of the organization services, of the
admin forms and of the partner services at once, with registrations and other
services' postings in between. A look-up outside a lock is a step of its own, and so
is a lock; what a call reads and writes between the last lock it waits for and the
end of its transaction is one step.
-/

namespace Roamkit.Partner

open Lib Billing Organizations

variable (s : ReferralDb) (c : ReferralSettings)

/-- A user registers: the row and a personal account. -/
def registerPerson (p : Person) (account : Uuid) : Except Exc (ReferralDb × ReferralAnswer) :=
  match s.people.insert? p, s.accounts.insert? ⟨account, some p.id, .personal⟩,
      s.books.accounts.insert? ⟨account, 0, 0⟩ with
  | some people, some accounts, some balances =>
    .ok ({ s with people, accounts, books := { s.books with accounts := balances } }, .nothing)
  | _, _, _ => .error .integrity

/-- The first step of a call of the organization services. -/
def beginOrganization (t : ReferralThread) (k : OrganizationCall) (v : ReferralView) :
    Option Stepped :=
  match k with
  | .createOrganization name actor status =>
    s.await t [.user actor] (s.settle t (createOrganization s name actor status v.uuid))
  | .acceptInvite actor rawToken =>
    if PyText.strip rawToken = "" then some (s.raise t (.inviteInvalid "Invalid invite token."))
    else lockUserStep s t actor.id .seekingInvite
  | k =>
    match k.begin? with
    | .error e => some (s.raise t e)
    | .ok none => none
    | .ok (some (_, organization)) =>
      match s.organization? organization with
      | none => some (s.raise t (.notFound "Not found."))
      | some o => some (s.goto t (.resolved o))

/-- The first step of an admin form; one that saves no active membership checks nothing. -/
def beginAdmin (t : ReferralThread) : AdminCall → Stepped
  | .saveMembership f =>
    if f.status = .active then s.goto t (.guarding f.user f.organization (.saving f))
    else s.goto t (.checked (.saving f))
  | .saveInlines _ => s.goto t .savingInlines

/-- The first step of a call. -/
def beginReferral (s : ReferralDb) (t : ReferralThread) (v : ReferralView) :
    Option Stepped :=
  match t.call with
  | .organization k => beginOrganization s t k v
  | .admin k => some (beginAdmin s t k)
  | .attribution k => beginAttribution c s t v k
  | .channel k => beginChannel c s t v k
  | .register p => some (s.settle t (registerPerson s p (v.uuid 0)))
  | .post p =>
    match s.books.apply p with
    | .error e => some (s.raise t e)
    | .ok (books, _) => some ({ s with books }.answer t .nothing)

/-- A call goes on after the guard of memberships. -/
def checkedStep (s : ReferralDb) (t : ReferralThread) (next : Checked)
    (v : ReferralView) : Option Stepped :=
  match next, t.call with
  | .transferring membership, .organization (.transferOwnership _ organization newOwner) =>
    lockTargetStep s t organization newOwner membership
  | .settingRole, .organization (.setMemberRole _ organization targetUser role) =>
    s.await t (membershipRow s organization targetUser)
      (s.settle t (setRole s organization targetUser role))
  | .inviting, .organization (.createInvite _ organization email _) =>
    some (checkMemberStep c s t organization email)
  | .accepting invite, .organization (.acceptInvite actor _) =>
    some (s.goto t (.joining invite (s.membership? invite.organization actor.id)))
  | .saving f, .admin (.saveMembership _) =>
    s.await t f.rows (s.settle t ((·, .nothing) <$> saveForm s f (v.uuid 0)))
  | _, _ => none

/-- Whether a call has a query left. -/
def ReferralPc.isLive : ReferralPc → Bool
  | returned _ => false
  | raised _ => false
  | _ => true

/-- The steps of a call of the organization services, but for the first and the guard. -/
def organizationStep (s : ReferralDb) (t : ReferralThread) (k : OrganizationCall)
    (v : ReferralView) : Option Stepped :=
  match t.pc, k with
  | .resolved o, k =>
    match k.begin? with
    | .ok (some (actor, _)) => some (resolveStep c s t k actor o)
    | _ => none
  | .savingStatus o, .setOrganizationStatus _ _ (some status) =>
    s.await t [.organization o.id] (s.settle t (.ok (saveStatus s o status)))
  | .findingUser organization, .createInvite _ _ email _ =>
      some (findUserStep c s t organization email)
  | .promoting target membership, .transferOwnership .. =>
    s.await t [.membership membership] (s.settle t (promote s target membership))
  | .revoking role, .revokeMembership _ organization targetUser =>
    s.await t (membershipRow s organization targetUser)
      (s.settle t (revoke s organization targetUser role))
  | .writingInvite organization, .createInvite actor _ email role =>
    match InviteRole.ofRole role with
    | none => none
    | some role =>
      s.await t (inviteRows s actor organization (normalizeInviteEmail c.text email))
        (s.settle t (writeInvite c s actor organization email role v))
  | .revokingInvite, .revokeInvite _ organization invite =>
    s.await t [.invite invite] (s.settle t (revokeInvite s organization invite))
  | .seekingInvite, .acceptInvite actor rawToken => seekInviteStep c s t actor rawToken v.now
  | .joining invite found, .acceptInvite actor _ => joinStep s t actor.id invite found (v.uuid 0)
  | _, _ => none

/-- The steps of a call that attributes, but for the first. -/
def attributionStep (t : ReferralThread) (k : AttributionCall) (v : ReferralView) :
    Option Stepped :=
  match t.pc, k with
  | .pendingSeen p, k => lockPendingStep s t k.user p v.now
  | .legacySeen p link, k => lockLegacyStep s t k.user p link
  | .consuming visit, k => consumeStep s t k.user visit
  | .visiting visit pending, k => visitStep s t k visit pending v.now
  | .attributing a pending, k => checkAttributionStep s t k a pending
  | .inserting a pending, k => some (insertStep s t k a pending v)
  | .seekingAttribution, .transfer user channel => lockAttributionStep s t user channel
  | .moving a, .transfer _ channel => checkMoveStep s t a channel
  | .moved a, .transfer _ channel => some (s.settle t (.ok (moveAttribution s a channel)))
  | _, _ => none

/-- The rows that the forms in line wait for. -/
def inlineRows (fs : List MembershipForm) : List LockedRow := fs.flatMap MembershipForm.rows

/-- One step of a call. -/
def referralStep (s : ReferralDb) (t : ReferralThread) (x : ReferralInput) :
    Option Stepped :=
  match x with
  | .fail => if t.pc.isLive then some (s.raise t .operational) else none
  | .go v =>
    match t.pc with
    | .asked => beginReferral c s t v
    | .guarding user organization next => some (guardStep s t user organization next)
    | .lockingUser user channel next => lockUserStep s t user (.lockingChannel user channel next)
    | .lockingChannel user channel next => lockChannelStep s t user channel next
    | .checked next => checkedStep c s t next v
    | .minting attempt =>
      match t.call with
      | .channel k =>
        match k.creates? with
        | some (owner, percent) => mintStep s t owner percent attempt v
        | none => none
      | _ => none
    | .savingInlines =>
      match t.call with
      | .admin (.saveInlines fs) =>
        s.await t (inlineRows fs) (s.settle t ((·, .nothing) <$> saveForms s v.uuid 0 fs))
      | _ => none
    | .returned _ => none
    | .raised _ => none
    | _ =>
      match t.call with
      | .organization k => organizationStep c s t k v
      | .attribution k => attributionStep s t k v
      | _ => none

/-- The organization and partner services, their calls run concurrently. -/
def referralProgram : Program ReferralDb ReferralThread ReferralCall ReferralInput where
  start call := ⟨call, .asked, []⟩
  step := referralStep c

end Roamkit.Partner
