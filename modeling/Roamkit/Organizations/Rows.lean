import Roamkit.Billing.PartnerMargin

/-!
# Organizations, memberships and invites

The rows of the collaboration aggregate. That an organization has at most one
active owner is a partial unique constraint of the memberships, so it is part of
what a table of them is; that it has at least one is what the services must see to.
-/

namespace Roamkit.Organizations

open Lib Billing

inductive OrganizationStatus where
  | active
  | suspended
  | archived
deriving DecidableEq

inductive MembershipRole where
  | owner
  | admin
  | member
  | viewer
deriving DecidableEq

inductive MembershipStatus where
  | active
  | suspended
  | revoked
deriving DecidableEq

inductive InviteStatus where
  | pending
  | accepted
  | revoked
  | expired
deriving DecidableEq

/-- Roles that may be granted by an invite: owner is none of them. -/
inductive InviteRole where
  | admin
  | member
  | viewer
deriving DecidableEq

namespace InviteRole

/-- The role a membership gets. -/
def membershipRole : InviteRole → MembershipRole
  | admin => .admin
  | member => .member
  | viewer => .viewer

theorem membershipRole_ne_owner (r : InviteRole) : r.membershipRole ≠ .owner := by
  cases r <;> decide

/-- A role as a caller gives it, when it may be granted; `none` is a text that is no role. -/
def ofRole : Option MembershipRole → Option InviteRole
  | some .admin => some admin
  | some .member => some member
  | some .viewer => some viewer
  | _ => none

end InviteRole

/-! ## Rows -/

structure Organization where
  id : Uuid
  name : String
  status : OrganizationStatus
  /-- The team account. -/
  account : Uuid
deriving DecidableEq

instance : Constraint Organization where
  clash o p := o.id = p.id ∨ o.account = p.account
  symm h := h.imp Eq.symm Eq.symm
  decClash _ _ := inferInstance

structure Membership where
  id : Uuid
  organization : Uuid
  user : UserId
  role : MembershipRole
  status : MembershipStatus
deriving DecidableEq

namespace Membership

def isActive (m : Membership) : Bool := m.status = .active

/-- The condition of the partial unique constraint. -/
def isActiveOwner (m : Membership) : Bool := m.role = .owner && m.status = .active

end Membership

instance : Constraint Membership where
  clash m n := m.id = n.id ∨ (m.organization = n.organization ∧
    (m.user = n.user ∨ (m.isActiveOwner = true ∧ n.isActiveOwner = true)))
  symm := by
    intro m n h
    rcases h with h | ⟨h, h' | ⟨hm, hn⟩⟩
    · exact .inl h.symm
    · exact .inr ⟨h.symm, .inl h'.symm⟩
    · exact .inr ⟨h.symm, .inr ⟨hn, hm⟩⟩
  decClash _ _ := inferInstance

structure OrganizationInvite where
  id : Uuid
  organization : Uuid
  email : String
  emailNormalized : String
  role : InviteRole
  status : InviteStatus
  tokenHash : String
  expiresAt : Time
  invitedBy : UserId
  acceptedBy : Option UserId
deriving DecidableEq

instance : Constraint OrganizationInvite where
  clash i j := i.id = j.id ∨ i.tokenHash = j.tokenHash ∨ (i.organization = j.organization
    ∧ i.emailNormalized = j.emailNormalized ∧ i.status = .pending ∧ j.status = .pending)
  symm := by
    intro i j h
    rcases h with h | h | ⟨ho, he, hi, hj⟩
    · exact .inl h.symm
    · exact .inr (.inl h.symm)
    · exact .inr (.inr ⟨ho.symm, he.symm, hj, hi⟩)
  decClash _ _ := inferInstance

/-- A user, as the services here read one. -/
structure Person where
  id : UserId
  email : String
deriving DecidableEq

instance : Constraint Person where
  clash u v := u.id = v.id ∨ u.email = v.email
  symm h := h.imp Eq.symm Eq.symm
  decClash _ _ := inferInstance

/-! ## Permissions -/

structure OrgPermissions where
  canView : Bool
  canSpend : Bool
  canManageMembers : Bool
  canInvite : Bool
  canTransferOwnership : Bool
  canArchiveOrg : Bool
  canAssignEsim : Bool
  canDeviceBind : Bool

/-- `permissions_for_role` -/
def permissionsForRole : MembershipRole → OrgPermissions
  | .owner => ⟨true, true, true, true, true, true, true, true⟩
  | .admin => ⟨true, true, true, true, false, false, true, true⟩
  | .member => ⟨true, true, false, false, false, false, true, false⟩
  | .viewer => ⟨true, false, false, false, false, false, false, false⟩

/-- What `resolve_organization_context` has read. -/
structure OrganizationContext where
  organization : Organization
  membership : Membership

variable (c : OrganizationContext)

def OrganizationContext.role : MembershipRole := c.membership.role

/-- `require_org_mutation` -/
def requireOrgMutation : Except Exc Unit :=
  if c.organization.status = .active then .ok ()
  else .error (.permissionDenied "Organization is not active; mutations are disabled.")

/-- `require_org_mutation`, then `require_permission`. -/
def requireMutation (permission : OrgPermissions → Bool) : Except Exc Unit := do
  requireOrgMutation c
  if permission (permissionsForRole c.role) then .ok ()
    else .error (.permissionDenied "Permission denied.")

def requireManageMembers : Except Exc Unit :=
  requireMutation c (·.canManageMembers)

def requireTransferOwnership : Except Exc Unit :=
  requireMutation c (·.canTransferOwnership)

def requireArchiveOrg : Except Exc Unit := requireMutation c (·.canArchiveOrg)

def requireInvite : Except Exc Unit := requireMutation c (·.canInvite)

/-! ## Emails and tokens -/

/-- How the running Python and the database write and compare texts. -/
structure OrgText where
  /-- `str.lower` -/
  lower : String → String
  /-- `UPPER`, which `iexact` compares by. -/
  upper : String → String
  /-- `hashlib.sha256(…).hexdigest()` -/
  sha256 : String → String

/-- `normalize_invite_email` -/
def normalizeInviteEmail (t : OrgText) (email : String) : String := t.lower (PyText.strip email)

/-- `ORGANIZATION_INVITE_TTL_SECONDS` unless it is set. -/
def defaultInviteTtl : Int := 7 * 24 * 3600

end Roamkit.Organizations
