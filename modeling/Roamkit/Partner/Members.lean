import Roamkit.Partner.Calls

/-!
# Members and invites

The queries of `services/membership.py`, `services/invites.py`,
`services/account_binding.py` and of the admin forms, one function for each place a
call may be at. A function whose name ends in `Step` takes the call on from there.
-/

namespace Roamkit.Partner

open Lib Billing Organizations

/-! ## Creating an organization -/

variable (s : ReferralDb) (c : ReferralSettings)

/-- `create_organization` -/
def createOrganization (name : String) (actor : UserId) (status : OrganizationStatus)
    (uuid : Nat → Uuid) : Except Exc (ReferralDb × ReferralAnswer) :=
  let trimmed := PyText.strip name
  if trimmed = "" then .error .valueError
  else if 128 < trimmed.length then .error .data
  else
    let org : Organization := ⟨uuid 0, trimmed, status, uuid 1⟩
    match s.accounts.insert? ⟨uuid 1, none, .organization⟩, s.books.accounts.insert? ⟨uuid 1, 0, 0⟩,
        s.organizations.insert? org,
          s.memberships.insert? ⟨uuid 2, uuid 0, actor, .owner, .active⟩ with
    | some accounts, some balances, some organizations, some memberships =>
      .ok ({ s with
        accounts, organizations, memberships
        books := { s.books with accounts := balances } }, .organization org)
    | _, _, _, _ => .error .integrity

/-! ## The context of a call -/

/-- The checks of a call on its arguments, and the organization it is about. -/
def OrganizationCall.begin? : OrganizationCall → Except Exc (Option (UserId × Uuid))
  | .transferOwnership actor organization _ => .ok (some (actor, organization))
  | .setMemberRole actor organization _ role =>
    if role = some .owner then
      .error (.notAllowed "Use transfer_ownership to assign the owner role.")
    else .ok (some (actor, organization))
  | .revokeMembership actor organization _ => .ok (some (actor, organization))
  | .setOrganizationStatus actor organization status =>
    if status = none then .error (.notAllowed "Invalid organization status.")
    else .ok (some (actor, organization))
  | .createInvite actor organization _ role =>
    if InviteRole.ofRole role = none then .error (.notAllowed "Invalid invite role.")
    else .ok (some (actor, organization))
  | .revokeInvite actor organization _ => .ok (some (actor, organization))
  | _ => .ok none

/-- `resolve_organization_context`, the membership it reads. -/
def resolveContext (o : Organization) (actor : UserId) : Except Exc OrganizationContext :=
  match s.membership? o.id actor with
  | none => .error (.notFound "Not found.")
  | some m =>
    if m.status = .active then .ok ⟨o, m⟩
    else .error (.permissionDenied "Membership is not active.")

/-- `set_organization_status`, its permission. -/
def allowStatus (c : OrganizationContext) : Except Exc Unit :=
  if c.organization.status = .active then requireArchiveOrg c
  else if c.role = .owner then .ok ()
  else .error (.notAllowed "Only the owner can change organization status.")

/-- Where a call goes on with its context. -/
def OrganizationCall.proceed (text : OrgText) (c : OrganizationContext) :
    OrganizationCall → Except Exc ReferralPc
  | .transferOwnership _ _ newOwner => do
    requireTransferOwnership c
    return .guarding newOwner c.organization.id (.transferring c.membership.id)
  | .setMemberRole _ _ targetUser _ => do
    requireManageMembers c
    return .guarding targetUser c.organization.id .settingRole
  | .revokeMembership .. => do
    requireManageMembers c
    return .revoking c.role
  | .setOrganizationStatus .. => do
    allowStatus c
    return .savingStatus c.organization
  | .createInvite _ _ email _ => do
    requireInvite c
    if normalizeInviteEmail text email = "" then .error (.notAllowed "Email is required.")
    else return .findingUser c.organization.id
  | .revokeInvite .. => do
    requireInvite c
    return .revokingInvite
  | _ => .error .typeError

def resolveStep (s : ReferralDb) (t : ReferralThread) (k : OrganizationCall) (actor : UserId)
    (o : Organization) : Stepped :=
  match do k.proceed c.text (← resolveContext s o actor) with
  | .error e => s.raise t e
  | .ok pc => s.goto t pc

/-- `set_organization_status`, its save. -/
def saveStatus (o : Organization) (status : OrganizationStatus) :
    ReferralDb × ReferralAnswer :=
  ({ s with
    organizations :=
      s.organizations.update (·.id = o.id) (fun p => { p with status }) (fun _ _ h => h) },
    .organization { o with status })

/-! ## `ensure_active_membership_allowed` -/

/-- What a call makes of a conflict. -/
def Checked.conflict : Checked → Exc
  | .saving _ => .validation
  | _ => .inviteConflict "A customer of this partner channel cannot be an active member"

/-- The look-up of the channel. -/
def guardStep (t : ReferralThread) (user : UserId) (organization : Uuid)
    (next : Checked) : Stepped :=
  match s.teamChannel? organization with
  | none => s.goto t (.checked next)
  | some channel => s.goto t (.lockingUser user channel.id next)

/-- `User.objects.select_for_update().get(…)` -/
def lockUserStep (t : ReferralThread) (user : UserId) (pc : ReferralPc) : Option Stepped :=
  match s.people.find? (·.id = user) with
  | none => some (s.raise t (.doesNotExist "User"))
  | some _ => s.lockThen t (.user user) fun s t => s.goto t pc

/-- The lock of the channel, and the check under both locks. -/
def lockChannelStep (t : ReferralThread) (user : UserId) (channel : Uuid)
    (next : Checked) : Option Stepped :=
  s.lockThen t (.channel channel) fun s t =>
    if s.isAttributed user channel then s.raise t next.conflict else s.goto t (.checked next)

/-! ## Writing memberships -/

/-- `save(update_fields=…)` of the row with a key. -/
def saveMembershipRow (id : Uuid) (f : Membership → Membership) : Except Exc ReferralDb :=
  match s.memberships.update? (·.id = id) f with
  | none => .error .integrity
  | some memberships => .ok { s with memberships }

/-- The row a membership is locked in, when there is one. -/
def membershipRow (organization : Uuid) (user : UserId) : List LockedRow :=
  ((s.membership? organization user).map fun m => .membership m.id).toList

/-- `transfer_ownership`, the lock of the new owner's membership. -/
def lockTargetStep (t : ReferralThread) (organization : Uuid) (newOwner : UserId)
    (membership : Uuid) : Option Stepped :=
  let refuse (s : ReferralDb) (t : ReferralThread) :=
    s.raise t (.notAllowed "New owner must be an active organization member.")
  match s.membership? organization newOwner with
  | none => some (refuse s t)
  | some target =>
    s.lockThen t (.membership target.id) fun s t =>
      if target.status = .active then s.goto t (.promoting target membership) else refuse s t

/-- `transfer_ownership`, its last queries. -/
def promote (target : Membership) (membership : Uuid) :
    Except Exc (ReferralDb × ReferralAnswer) :=
  match s.memberships.find? (·.id = membership) with
  | none => .error (.doesNotExist "Membership")
  | some actorMembership =>
    if actorMembership.role ≠ .owner then
      .error (.notAllowed "Only the owner can transfer ownership.")
    else if target.id = actorMembership.id then .ok (s, .membership actorMembership)
    else do
      -- the owner is demoted first, so that the partial unique constraint holds
      let s₁ ← saveMembershipRow s actorMembership.id fun m => { m with role := .admin }
      let s₂ ← saveMembershipRow s₁ target.id fun m => { m with role := .owner }
      return (s₂, .membership { target with role := .owner })

/-- `set_member_role`, after the guard. -/
def setRole (organization : Uuid) (targetUser : UserId) (role : Option MembershipRole) :
    Except Exc (ReferralDb × ReferralAnswer) :=
  match s.membership? organization targetUser with
  | none => .error (.notAllowed "Target must be an active organization member.")
  | some target =>
    if target.status ≠ .active then
      .error (.notAllowed "Target must be an active organization member.")
    else if target.role = .owner then
      .error (.notAllowed "Cannot change the owner's role; transfer ownership.")
    else
      match InviteRole.ofRole role with
      | none => .error (.notAllowed "Invalid role.")
      | some r => do
        let s' ← saveMembershipRow s target.id fun m => { m with role := r.membershipRole }
        return (s', .membership { target with role := r.membershipRole })

/-- `revoke_membership`, after its permission; `role` is that of its context. -/
def revoke (s : ReferralDb) (organization : Uuid) (targetUser : UserId) (role : MembershipRole) :
    Except Exc (ReferralDb × ReferralAnswer) :=
  match s.membership? organization targetUser with
  | none => .error (.notAllowed "Target membership not found.")
  | some target =>
    if target.status = .revoked then .ok (s, .membership target)
    else if target.isActiveOwner ∧ s.activeOwnerCount organization ≤ 1 then
      .error (.lastOwner "Cannot revoke the sole active owner.")
    else if target.isActiveOwner ∧ role ≠ .owner then
      .error (.notAllowed "Only the owner can revoke an owner.")
    else do
      let s' ← saveMembershipRow s target.id fun m => { m with status := .revoked }
      return (s', .membership { target with status := .revoked })

/-! ## Invites -/

/-- `create_invite`, the look-up of the user. -/
def findUserStep (s : ReferralDb) (t : ReferralThread) (organization : Uuid)
    (email : String) : Stepped :=
  match s.people.find? fun u =>
    c.text.upper u.email = c.text.upper (normalizeInviteEmail c.text email) with
  | none => s.goto t (.checked .inviting)
  | some user => s.goto t (.guarding user.id organization .inviting)

/-- Whether an active member of an organization has an address. -/
def hasMember (text : OrgText) (s : ReferralDb) (organization : Uuid) (email : String) : Bool :=
  s.memberships.rows.any fun m => m.organization = organization && m.isActive
    && s.people.rows.any fun u =>
      u.id = m.user && text.upper u.email = text.upper (normalizeInviteEmail text email)

/-- `create_invite`, the look-up of a member. -/
def checkMemberStep (s : ReferralDb) (t : ReferralThread) (organization : Uuid)
    (email : String) : Stepped :=
  if hasMember c.text s organization email then
    s.raise t (.inviteConflict "User is already an active organization member.")
  else s.goto t (.writingInvite organization)

/-- The pending invite of an address. -/
def pendingInvite? (organization : Uuid) (email : String) : Option OrganizationInvite :=
  s.invites.find? fun i => i.organization = organization && i.emailNormalized = email
    && i.status = .pending

/-- `create_invite`, its write. -/
def writeInvite (s : ReferralDb) (actor : UserId) (organization : Uuid) (email : String)
    (role : InviteRole) (v : ReferralView) : Except Exc (ReferralDb × ReferralAnswer) :=
  let emailNormalized := normalizeInviteEmail c.text email
  let expiresAt := v.now + seconds c.inviteTtl
  let tokenHash := c.text.sha256 (v.token 0)
  match pendingInvite? s organization emailNormalized with
  | some pending =>
    let f (i : OrganizationInvite) : OrganizationInvite :=
      { i with email := PyText.strip email, role, tokenHash, expiresAt, invitedBy := actor }
    match s.invites.update? (·.id = pending.id) f with
    | none => .error .integrity
    | some invites => .ok ({ s with invites }, .inviteCreated (f pending) (v.token 0) false)
  | none =>
    let invite : OrganizationInvite :=
      ⟨v.uuid 0, organization, PyText.strip email, emailNormalized, role,
      .pending, tokenHash, expiresAt, actor, none⟩
    if 254 < invite.email.length ∨ 254 < emailNormalized.length then .error .data
    else
      match s.invites.insert? invite with
      | none => .error .integrity
      | some invites => .ok ({ s with invites }, .inviteCreated invite (v.token 0) true)

/-- The rows a write of an invite waits for: the pending invite, or what the new row refers to. -/
def inviteRows (actor : UserId) (organization : Uuid) (email : String) : List LockedRow :=
  match pendingInvite? s organization email with
  | some pending => [.invite pending.id]
  | none => [.organization organization, .user actor]

/-- A change of the status of an invite that was locked. -/
def saveInvite (id : Uuid) (f : OrganizationInvite → OrganizationInvite) (hf : Table.Keeps f) :
    ReferralDb := { s with invites := s.invites.update (·.id = id) f hf }

/-- An invite that is done with. -/
def closed (status : InviteStatus) (acceptedBy : Option UserId) (i : OrganizationInvite) :
    OrganizationInvite := { i with status, acceptedBy }

theorem closed_keeps {status : InviteStatus} (h : status ≠ .pending) (user : Option UserId) :
    Table.Keeps (closed status user) := by
  rintro i j (hid | htoken | ⟨_, _, hpending, _⟩)
  · exact .inl hid
  · exact .inr (.inl htoken)
  · exact absurd hpending h

/-- `revoke_invite`, after its permission. -/
def revokeInvite (organization id : Uuid) : Except Exc (ReferralDb × ReferralAnswer) :=
  match s.invites.find? fun i => i.id = id && i.organization = organization with
  | none => .error (.notFound "Invite not found.")
  | some invite =>
    if invite.status ≠ .pending then .ok (s, .invite invite)
    else
      .ok (saveInvite s id (closed .revoked invite.acceptedBy) (closed_keeps (by decide) _),
        .invite { invite with status := .revoked })

/-- What `accept_invite` makes of the invite it has locked. -/
inductive Acceptance where
  | replays
  | expires
  | proceeds

def judgeInvite (s : ReferralDb) (actor : Person) (invite : OrganizationInvite) (now : Time) :
    Except Exc Acceptance :=
  match invite.status with
  | .accepted =>
    if invite.acceptedBy = some actor.id then .ok .replays
    else .error (.inviteInvalid "Invite has already been accepted.")
  | .revoked => .error (.inviteInvalid "Invite has been revoked.")
  | .expired => .ok .expires
  | .pending =>
    if invite.expiresAt ≤ now then .ok .expires
    else
      match s.organization? invite.organization with
      | none => .error (.inviteInvalid "Invalid invite token.")
      | some o =>
        if o.status ≠ .active then .error (.inviteInvalid "Organization is not active.")
        else if normalizeInviteEmail c.text actor.email ≠ invite.emailNormalized then
          .error (.inviteInvalid "Invite email does not match authenticated user.")
        else .ok .proceeds

/-- A pending invite is saved as expired, and the transaction committed, before the error. -/
def expire (invite : OrganizationInvite) : ReferralDb :=
  if invite.status = .pending then
    saveInvite s invite.id (closed .expired invite.acceptedBy) (closed_keeps (by decide) _)
  else s

/-- `accept_invite`, the lock of the invite (with it, of its organization) and the checks. -/
def seekInviteStep (s : ReferralDb) (t : ReferralThread) (actor : Person) (rawToken : String)
    (now : Time) : Option Stepped :=
  match s.invites.find? (·.tokenHash = c.text.sha256 (PyText.strip rawToken)) with
  | none => some (s.raise t (.inviteInvalid "Invalid invite token."))
  | some invite =>
    s.await t [.invite invite.id, .organization invite.organization]
      (match judgeInvite c s actor invite now with
      | .error e => s.raise t e
      | .ok .replays =>
        match s.membership? invite.organization actor.id with
        | none => s.raise t (.doesNotExist "Membership")
        | some m => s.answer t (.accepted m invite true)
      | .ok .expires => (expire s invite).raise t (.inviteInvalid "Invite has expired.")
      | .ok .proceeds =>
        let h := s.hold t (.invite invite.id)
        let h' := h.1.hold h.2 (.organization invite.organization)
        h'.1.goto h'.2 (.guarding actor.id invite.organization (.accepting invite)))

/-- The membership as `accept_invite` makes it. -/
def joined (invite : OrganizationInvite) (m : Membership) : Membership :=
  { m with status := .active, role := invite.role.membershipRole }

/-- The invite as `accept_invite` saves it. -/
def acceptInvite (invite : OrganizationInvite) (actor : UserId) : ReferralDb :=
  saveInvite s invite.id (closed .accepted (some actor)) (closed_keeps (by decide) _)

/-- The insert of `get_or_create`, or the save of the membership it found; then that of the
invite. -/
def joinStep (t : ReferralThread) (actor : UserId) (invite : OrganizationInvite)
    (found : Option Membership) (id : Uuid) : Option Stepped :=
  let accepted (m : Membership) : ReferralAnswer :=
    .accepted m (closed .accepted (some actor) invite) false
  match found with
  | none =>
    let m : Membership := ⟨id, invite.organization, actor, invite.role.membershipRole, .active⟩
    match s.memberships.insert? m with
    | some memberships =>
      s.await t [.user actor, .organization invite.organization]
        ((acceptInvite { s with memberships } invite actor).answer t (accepted m))
    | none =>
      -- another transaction was first: its row is read
      match s.membership? invite.organization actor with
      | none => some (s.raise t .integrity)
      | some m => some (s.goto t (.joining invite (some m)))
  | some m =>
    if joined invite m = m then some ((acceptInvite s invite actor).answer t (accepted m))
    else
      s.await t [.membership m.id]
        (s.settle t do
          let s' ← saveMembershipRow s m.id (joined invite)
          return (acceptInvite s' invite actor, accepted (joined invite m)))

/-! ## The admin forms -/

/-- The row a form saves. -/
def MembershipForm.row (f : MembershipForm) (id : Uuid) : Membership :=
  ⟨id, f.organization, f.user, f.role, f.status⟩

/-- The save of one form. -/
def saveForm (f : MembershipForm) (id : Uuid) : Except Exc ReferralDb :=
  match f.id with
  | some key => saveMembershipRow s key fun _ => f.row key
  | none =>
    match s.memberships.insert? (f.row id) with
    | none => .error .integrity
    | some memberships => .ok { s with memberships }

/-- The rows it waits for: its own, or those it refers to. -/
def MembershipForm.rows (f : MembershipForm) : List LockedRow :=
  match f.id with
  | some key => [.membership key]
  | none => [.user f.user, .organization f.organization]

/-- The saves of several, the n-th new row under the n-th key. -/
def saveForms (s : ReferralDb) (uuid : Nat → Uuid) :
    Nat → List MembershipForm → Except Exc ReferralDb
  | _, [] => .ok s
  | n, f :: fs => do saveForms (← saveForm s f (uuid n)) uuid (n + 1) fs

end Roamkit.Partner
