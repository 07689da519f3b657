import Roamkit.Proof.ReferralStep

/-!
# Who owns an organization

`transfer_ownership`, `set_member_role` and `revoke_membership` keep exactly one
active owner between them: each holds the row it writes, and only the first writes
the row of an owner. `accept_invite` writes the membership it finds whatever its role
has become since, and an invite of a member is there when the member accepted an
earlier one between the check and the insert of `create_invite`. An owner who accepts
such an invite leaves the organization without an owner.
-/

namespace Roamkit.Partner.Proof

open Lib Billing Organizations Partner Billing.Proof

/-! ## Rows that are held -/

/-- The rows a call holds are locked. -/
def Locked (s : ReferralDb) (t : ReferralThread) : Prop := ∀ row ∈ t.held, row ∈ s.locks

/-- Two calls hold no row in common. -/
def ApartRows (t u : ReferralThread) : Prop := ∀ row ∈ t.held, row ∉ u.held

section Rows

variable {c : ReferralSettings} {s s' : ReferralDb} {t t' u : ReferralThread}

theorem ApartRows.symm (h : ApartRows t u) : ApartRows u t := fun row hu ht => h row ht hu

theorem ApartRows.start (k : ReferralCall) : ApartRows ((referralProgram c).start k) u :=
  fun _ hrow => by cases hrow

/-- A step leaves what another call holds. -/
theorem Effect.frame (he : Effect c s t x s' t') (hu : Locked s u) (h : ApartRows t u) :
    Locked s' u ∧ ApartRows t' u := by
  refine ⟨fun row hrow => he.locks row (hu row hrow) (h.symm row hrow), fun row hrow hother => ?_⟩
  rcases he.free row hrow with hheld | hfree
  · exact h row hheld hother
  · exact hfree (hu row hother)

/-- What another call holds is not granted. -/
theorem not_grants {row : LockedRow} (hu : Locked s u) (h : ApartRows t u) (hrow : row ∈ u.held) :
    s.grants t row = false := by
  by_contra hgrant
  rcases free_of_grants (Bool.not_eq_false _ ▸ hgrant) with hheld | hfree
  · exact h row hheld hrow
  · exact hfree (hu row hrow)

theorem grants_of_held {row : LockedRow} (h : row ∈ t.held) : s.grants t row = true := by
  simp [ReferralDb.grants, h]

end Rows

/-! ## What is asked of a step -/

/-- The call is one of a service, and not an admin form. -/
def ofService (t : ReferralThread) : Bool :=
  match t.call with
  | .admin _ => false
  | _ => true

/-- The membership that `accept_invite` has read and is about to write over. -/
def rewrites? : ReferralPc → Option Membership
  | .joining invite (some m) =>
    if m.isActive && m.role = invite.role.membershipRole then none else some m
  | _ => none

/-- The membership that an accepted invite is about to be written over is no active owner's. -/
def sparesOwner (s : ReferralDb) (t : ReferralThread) : Bool :=
  match rewrites? t.pc with
  | some m => s.memberships.rows.all fun r => r.id ≠ m.id || !r.isActiveOwner
  | none => true

/-- What is asked of a step. -/
def KeepsOwner (s : ReferralDb) (t : ReferralThread) (_ : ReferralInput) : Prop :=
  ofService t = true ∧ sparesOwner s t = true

/-! ## The invariant -/

/-- Every organization has an owner, and every owner is active. -/
structure OwnerInv (s : ReferralDb) : Prop where
  active : ∀ m ∈ s.memberships, m.role = .owner → m.status = .active
  owned : ∀ o ∈ s.organizations, ∃ m ∈ s.memberships, m.organization = o.id ∧ m.isActiveOwner = true

/-- A database in which every organization has its owner, and nobody is at work. -/
structure Founded (s : ReferralDb) : Prop where
  owners : OwnerInv s
  locks : s.locks = []

/-- A membership with a key is that of a user in an organization. -/
def Belongs (s : ReferralDb) (membership organization : Uuid) (user : UserId) : Prop :=
  ∃ m ∈ s.memberships, m.id = membership ∧ m.organization = organization ∧ m.user = user

/-- A transfer in flight, with the membership of its actor. -/
def Transferring (s : ReferralDb) (t : ReferralThread) (membership : Uuid) : Prop :=
  ∃ actor organization newOwner,
    t.call = .organization (.transferOwnership actor organization newOwner)
      ∧ Belongs s membership organization actor

/-- The membership of the new owner as a transfer has locked it. -/
def HoldsTarget (s : ReferralDb) (t : ReferralThread) (target : Membership) : Prop :=
  target ∈ s.memberships ∧ target.status = .active ∧ .membership target.id ∈ t.held
    ∧ ∃ actor newOwner,
      t.call = .organization (.transferOwnership actor target.organization newOwner)
        ∧ target.user = newOwner

/-- What a transfer relies on. -/
def OwnsTransfer (s : ReferralDb) (t : ReferralThread) : Prop :=
  match t.pc with
  | .resolved o => ∃ k actor, t.call = .organization k ∧ k.begin? = .ok (some (actor, o.id))
  | .guarding _ _ (.transferring m) => Transferring s t m
  | .lockingUser _ _ (.transferring m) => Transferring s t m
  | .lockingChannel _ _ (.transferring m) => Transferring s t m
  | .checked (.transferring m) => Transferring s t m
  | .promoting target m => Transferring s t m ∧ HoldsTarget s t target
  | _ => True

/-! ## What a service does to the memberships -/

/-- The memberships after a step: rows keep whose they are, and rows others hold are as they
were. -/
structure MembersKept (s : ReferralDb) (t : ReferralThread) (s₁ : ReferralDb) : Prop where
  kept : ∀ m ∈ s.memberships, ∃ m' ∈ s₁.memberships,
    m'.id = m.id ∧ m'.organization = m.organization ∧ m'.user = m.user
  held : ∀ m ∈ s.memberships, s.grants t (.membership m.id) = false → m ∈ s₁.memberships

variable {m : Membership} {id organization : Uuid} {f : Membership → Membership}
  {a : ReferralAnswer} {pc : ReferralPc}

section Keeping

variable {c : ReferralSettings} {s s' s₁ s₂ : ReferralDb} {t t' u : ReferralThread}

theorem MembersKept.of_eq (h : s₁.memberships = s.memberships) : MembersKept s t s₁ :=
  ⟨fun m hm => ⟨m, h ▸ hm, rfl, rfl, rfl⟩, fun _ hm _ => h ▸ hm⟩

theorem MembersKept.of_insert (h : s.memberships.insert? m = some s₁.memberships) :
    MembersKept s t s₁ := by
  refine ⟨fun r hr => ⟨r, (Table.mem_insert h).2 (.inl hr), rfl, rfl, rfl⟩, fun r hr _ => ?_⟩
  exact (Table.mem_insert h).2 (.inl hr)

theorem mem_saveMembershipRow (h : saveMembershipRow s id f = .ok s₁) {r : Membership} :
    r ∈ s₁.memberships ↔ ∃ m ∈ s.memberships, rewrite (·.id = id) f m = r := by
  obtain ⟨memberships, hu, rfl⟩ := saveMembershipRow_cases h
  exact Table.mem_update? hu

/-- A save of one row. -/
theorem MembersKept.of_save (h : saveMembershipRow s id f = .ok s₁)
    (hgrant : s.grants t (.membership id) = true)
    (hf : ∀ m, (f m).id = m.id ∧ (f m).organization = m.organization ∧ (f m).user = m.user) :
    MembersKept s t s₁ := by
  refine ⟨fun m hm => ⟨_, (mem_saveMembershipRow h).2 ⟨m, hm, rfl⟩, ?_⟩, fun m hm hother => ?_⟩
  · unfold rewrite
    split
    · exact hf m
    · exact ⟨rfl, rfl, rfl⟩
  · refine (mem_saveMembershipRow h).2 ⟨m, hm, rewrite_neg f ?_⟩
    intro hid
    rw [of_decide_eq_true hid, hgrant] at hother
    cases hother

theorem MembersKept.trans {s₁ s₂ : ReferralDb} (h : MembersKept s t s₁) (h' : MembersKept s₁ t s₂)
    (hl : s₁.locks = s.locks) : MembersKept s t s₂ := by
  refine ⟨fun m hm => ?_, fun m hm hother => ?_⟩
  · obtain ⟨m₁, hm₁, hid, ho, hu⟩ := h.kept m hm
    obtain ⟨m₂, hm₂, hid', ho', hu'⟩ := h'.kept m₁ hm₁
    exact ⟨m₂, hm₂, hid'.trans hid, ho'.trans ho, hu'.trans hu⟩
  · refine h'.held m (h.held m hm hother) ?_
    unfold ReferralDb.grants at hother ⊢
    rw [hl]
    exact hother

theorem createOrganization_cases {name : String} {actor : UserId} {status : OrganizationStatus}
    {uuid : Nat → Uuid} (h : createOrganization s name actor status uuid = .ok (s₁, a)) :
    s.memberships.insert? ⟨uuid 2, uuid 0, actor, .owner, .active⟩ = some s₁.memberships
      ∧ (∃ o : Organization, o.id = uuid 0 ∧ s.organizations.insert? o = some s₁.organizations)
      ∧ s₁.channels = s.channels ∧ s₁.attributions = s.attributions := by
  unfold createOrganization at h
  dsimp only at h
  split at h
  · cases h
  split at h
  · cases h
  split at h
  · rename_i ho hm
    cases h
    exact ⟨hm, ⟨_, rfl, ho⟩, rfl, rfl⟩
  · cases h

theorem insertAttribution_members {a : NewAttribution} {pending : Option Uuid} {v : ReferralView}
    {ans : ReferralAnswer} (h : insertAttribution s a pending v = .ok (s₁, ans)) :
    s₁.memberships = s.memberships ∧ s₁.organizations = s.organizations := by
  obtain ⟨attributions, s₂, _, hb, rfl⟩ := insertAttribution_cases h
  obtain ⟨_, hp⟩ := elim_dropPending s₂ pending
  rw [hp]
  rcases creditBonus_cases hb with rfl | ⟨_, _, _, _, _, _, _, _, _, _, _, _, rfl⟩
  · exact ⟨rfl, rfl⟩
  · exact ⟨rfl, rfl⟩

theorem registerPerson_cases {p : Person} {account : Uuid}
    (h : registerPerson s p account = .ok (s₁, a)) :
    ∃ people accounts books, s₁ = { s with people, accounts, books } := by
  unfold registerPerson at h
  split at h
  · cases h
    exact ⟨_, _, _, rfl⟩
  · cases h

/-- Only a form is saved where a form is. -/
theorem not_forms (h : ofService t = true) : forms? t = none := by
  unfold ofService at h
  unfold forms?
  split at h
  · cases h
  rename_i hcall
  split
  · rename_i k _ hk
    exact absurd hk (hcall _)
  · rename_i _ hk
    exact absurd hk (hcall _)
  · rfl

/-- **A service leaves memberships whose they are, and rows that others hold alone.** -/
theorem write_kept (hw : ReferralWrite c s t x s₁) (ht : OwnsTransfer s t)
    (hservice : ofService t = true) :
    MembersKept s t s₁ := by
  cases hw with
  | stays => exact .of_eq rfl
  | creates h => exact .of_insert (createOrganization_cases h).1
  | setsStatus => exact .of_eq rfl
  | @promotes _ _ _ target membership _ _ _ hpc hgrant h =>
    rw [OwnsTransfer, hpc] at ht
    obtain ⟨_, _, _, hheld, _⟩ := ht
    rcases promote_cases h with rfl | ⟨m, s₂, _, hid, _, _, h₂, h₃⟩
    · exact .of_eq rfl
    · have hlocks := saveMembershipRow_locks h₂
      have hgrant' : s₂.grants t (.membership target.id) = true := grants_of_held hheld
      have hkept := MembersKept.of_save h₂ (hid ▸ hgrant) fun _ => ⟨rfl, rfl, rfl⟩
      exact hkept.trans (.of_save h₃ hgrant' fun _ => ⟨rfl, rfl, rfl⟩) hlocks
  | setsRole _ hgrant h =>
    obtain ⟨target, _, hfind, _, _, hs⟩ := setRole_cases h
    exact .of_save hs (hgrant target hfind) fun _ => ⟨rfl, rfl, rfl⟩
  | revokes _ hgrant h =>
    rcases revoke_cases h with rfl | ⟨target, hfind, _, hs⟩
    · exact .of_eq rfl
    · exact .of_save hs (hgrant target hfind) fun _ => ⟨rfl, rfl, rfl⟩
  | writesInvite _ _ _ hi =>
    obtain ⟨_, rfl⟩ := writeInvite_cases hi
    exact .of_eq rfl
  | revokesInvite _ hi =>
    obtain ⟨_, rfl⟩ := revokeInvite_cases hi
    exact .of_eq rfl
  | expires _ _ =>
    obtain ⟨_, hexpired⟩ := expire_cases s _
    rw [hexpired]
    exact .of_eq rfl
  | accepts _ _ _ => exact .of_eq rfl
  | joins _ _ h => exact .of_insert h
  | rejoins _ _ _ hgrant h =>
    have hk := MembersKept.of_save h hgrant fun _ => ⟨rfl, rfl, rfl⟩
    exact ⟨hk.kept, hk.held⟩
  | saves hforms _ _ =>
    rw [not_forms hservice] at hforms
    cases hforms
  | records _ _ _ => exact .of_eq rfl
  | drops _ => exact .of_eq rfl
  | attributes _ _ h => exact .of_eq (insertAttribution_members h).1
  | moves _ _ => exact .of_eq rfl
  | mints _ _ _ h =>
    obtain ⟨_, _, _, _, _, _, rfl⟩ := createChannel_cases h
    exact .of_eq rfl
  | resettles _ => exact .of_eq rfl
  | relinks _ _ _ _ _ => exact .of_eq rfl
  | visits _ _ _ => exact .of_eq rfl
  | registers h =>
    obtain ⟨_, _, _, rfl⟩ := registerPerson_cases h
    exact .of_eq rfl
  | posts _ _ => exact .of_eq rfl

theorem Belongs.kept {membership : Uuid} {user : UserId}
    (h : Belongs s membership organization user) (hk : MembersKept s t s₁) :
    Belongs s₁ membership organization user := by
  obtain ⟨m, hm, rfl, rfl, rfl⟩ := h
  obtain ⟨m', hm', hid, ho, hu⟩ := hk.kept m hm
  exact ⟨m', hm', hid, ho, hu⟩

/-! ## What a transfer relies on -/

theorem owns_of_plain (h : isPlain t.pc = true) : OwnsTransfer s t := by
  unfold OwnsTransfer
  split
  all_goals first | trivial | (rename_i hpc; rw [hpc] at h; cases h)

theorem owns_of_attributes (h : attributes t.pc = true) : OwnsTransfer s t := by
  unfold OwnsTransfer
  split
  all_goals first | trivial | (rename_i hpc; rw [hpc] at h; cases h)

theorem owns_of_ended (h : t.pc.isLive = false) : OwnsTransfer s t := by
  unfold OwnsTransfer
  split
  all_goals first | trivial | (rename_i hpc; rw [hpc] at h; cases h)

/-- `OwnsTransfer` is about the memberships alone. -/
theorem OwnsTransfer.relock {locks : List LockedRow} (h : OwnsTransfer s t) :
    OwnsTransfer { s with locks } t := h

theorem Transferring.of_call {m : Uuid} (h : Transferring s t m) (hcall : t'.call = t.call) :
    Transferring s t' m := by
  obtain ⟨actor, organization, newOwner, hk, hbelongs⟩ := h
  exact ⟨actor, organization, newOwner, hcall.trans hk, hbelongs⟩

/-- A guard is passed on the way to what follows it. -/
theorem owns_of_guard {next : Checked} (hcall : t'.call = t.call) (hpc : t'.pc = pc)
    (hguard : ∀ m, next = .transferring m → Transferring s t m)
    (hnext : pc
      = .checked next ∨ (∃ u o, pc = .guarding u o next) ∨ (∃ u o, pc = .lockingUser u o next)
      ∨ ∃ u o, pc = .lockingChannel u o next) : OwnsTransfer s t' := by
  have hmain : ∀ m, next = .transferring m → Transferring s t' m := fun m hm =>
    (hguard m hm).of_call hcall
  rcases hnext with rfl | ⟨u, o, rfl⟩ | ⟨u, o, rfl⟩ | ⟨u, o, rfl⟩
  all_goals
    unfold OwnsTransfer
    rw [hpc]
    cases next with
    | transferring m => exact hmain m rfl
    | _ => trivial

theorem guard_of_owns {next : Checked} (ht : OwnsTransfer s t)
    (hpc : (∃ u o, t.pc = .guarding u o next) ∨ (∃ u o, t.pc = .lockingUser u o next)
      ∨ ∃ u o, t.pc = .lockingChannel u o next) (m : Uuid) (hm : next = .transferring m) :
    Transferring s t m := by
  subst hm
  rcases hpc with ⟨u, o, hpc⟩ | ⟨u, o, hpc⟩ | ⟨u, o, hpc⟩
  all_goals
    rw [OwnsTransfer, hpc] at ht
    exact ht

/-- Where a call goes on with its context. -/
theorem owns_proceed {k : OrganizationCall} {actor : UserId} {o : Organization}
    (hcall : t'.call = .organization k) (hk : k.begin? = .ok (some (actor, o.id)))
    (hm : m ∈ s.memberships) (ho : m.organization = o.id) (hu : m.user = actor)
    (h : k.proceed c.text ⟨o, m⟩ = .ok pc) (hpc : t'.pc = pc) : OwnsTransfer s t' := by
  cases k with
  | transferOwnership a organization newOwner =>
    obtain ⟨_, _, h⟩ := bind_ok h
    cases h
    cases hk
    unfold OwnsTransfer
    rw [hpc]
    exact ⟨actor, o.id, newOwner, hcall, m, hm, rfl, ho, hu⟩
  | setMemberRole =>
    obtain ⟨_, _, h⟩ := bind_ok h
    cases h
    unfold OwnsTransfer
    rw [hpc]
    trivial
  | revokeMembership =>
    obtain ⟨_, _, h⟩ := bind_ok h
    cases h
    unfold OwnsTransfer
    rw [hpc]
    trivial
  | setOrganizationStatus =>
    obtain ⟨_, _, h⟩ := bind_ok h
    cases h
    unfold OwnsTransfer
    rw [hpc]
    trivial
  | createInvite =>
    obtain ⟨_, _, h⟩ := bind_ok h
    dsimp only at h
    split at h
    · cases h
    cases h
    unfold OwnsTransfer
    rw [hpc]
    trivial
  | revokeInvite =>
    obtain ⟨_, _, h⟩ := bind_ok h
    cases h
    unfold OwnsTransfer
    rw [hpc]
    trivial
  | createOrganization => cases h
  | acceptInvite => cases h

/-- **A step re-establishes what its transfer relies on.** -/
theorem owns_step (he : Effect c s t x s' t') (ht : OwnsTransfer s t) : OwnsTransfer s' t' := by
  cases hlive : t'.pc.isLive with
  | false => exact owns_of_ended hlive
  | true =>
    obtain ⟨hs, _, hg⟩ := he.goes hlive
    rw [hs]
    refine OwnsTransfer.relock ?_
    generalize hpc : t'.pc = pc at hg
    cases hg with
    | plain hplain => exact owns_of_plain (hpc ▸ hplain)
    | resolves hcall hk _ =>
      unfold OwnsTransfer
      rw [hpc]
      exact ⟨_, _, he.call.trans hcall, hk⟩
    | proceeds hresolved hcall hk hm ho hu _ hproceed =>
      rw [OwnsTransfer, hresolved] at ht
      obtain ⟨k', actor', hcall', hk'⟩ := ht
      rw [hcall] at hcall'
      cases hcall'
      rw [hk] at hk'
      cases hk'
      exact owns_proceed (he.call.trans hcall) hk hm ho hu hproceed hpc
    | guardsInvite =>
      unfold OwnsTransfer
      rw [hpc]
      trivial
    | guardsForm _ _ _ =>
      unfold OwnsTransfer
      rw [hpc]
      trivial
    | saves _ _ =>
      unfold OwnsTransfer
      rw [hpc]
      trivial
    | unguarded hguard _ _ =>
      exact owns_of_guard he.call hpc (guard_of_owns ht (.inl ⟨_, _, hguard⟩)) (.inl rfl)
    | guarded hguard _ _ =>
      exact owns_of_guard he.call hpc (guard_of_owns ht (.inl ⟨_, _, hguard⟩))
        (.inr (.inr (.inl ⟨_, _, rfl⟩)))
    | locksUser hguard _ _ =>
      exact owns_of_guard he.call hpc (guard_of_owns ht (.inr (.inl ⟨_, _, hguard⟩)))
        (.inr (.inr (.inr ⟨_, _, rfl⟩)))
    | passes hguard _ _ =>
      exact owns_of_guard he.call hpc (guard_of_owns ht (.inr (.inr ⟨_, _, hguard⟩))) (.inl rfl)
    | locksTarget hcall hchecked hfind hactive hheld =>
      have hprop := whose_membership? hfind
      rw [OwnsTransfer, hchecked] at ht
      unfold OwnsTransfer
      rw [hpc]
      exact ⟨ht.of_call he.call, Table.mem_of_find? hfind, hactive, hheld, _, _,
        hprop.1 ▸ he.call.trans hcall, hprop.2⟩
    | seeksInvite _ _ =>
      unfold OwnsTransfer
      rw [hpc]
      trivial
    | joins _ _ _ =>
      unfold OwnsTransfer
      rw [hpc]
      trivial
    | mints _ _ _ =>
      unfold OwnsTransfer
      rw [hpc]
      trivial
    | takesUser _ _ hattr _ _ _ _ => exact owns_of_attributes (hpc ▸ hattr)
    | allows _ _ _ _ _ => exact owns_of_attributes (hpc ▸ rfl)
    | allowsMove _ _ _ _ _ => exact owns_of_attributes (hpc ▸ rfl)

theorem Transferring.kept {m : Uuid} (h : Transferring s t m) (hk : ∀ organization user,
    Belongs s m organization user → Belongs s' m organization user) : Transferring s' t m := by
  obtain ⟨actor, organization, newOwner, hcall, hbelongs⟩ := h
  exact ⟨actor, organization, newOwner, hcall, hk _ _ hbelongs⟩

/-- **A step of another service leaves what a transfer relies on.** -/
theorem owns_frame (hk : MembersKept s t s₁) (hu : Locked s u) (hapart : ApartRows t u)
    (h : OwnsTransfer s u) : OwnsTransfer s₁ u := by
  have hmain : ∀ m, Transferring s u m → Transferring s₁ u m := fun m hm =>
    hm.kept fun _ _ hbelongs => hbelongs.kept hk
  unfold OwnsTransfer at h ⊢
  split at h
  · exact h
  · exact hmain _ h
  · exact hmain _ h
  · exact hmain _ h
  · exact hmain _ h
  · obtain ⟨htransfer, hmem, hactive, hheld, hcall⟩ := h
    exact ⟨hmain _ htransfer, hk.held _ hmem (not_grants hu hapart hheld), hactive, hheld, hcall⟩
  · trivial

end Keeping

/-! ## Owners -/

/-- A user is the active owner of an organization. -/
def Owner (s : ReferralDb) (organization : Uuid) (user : UserId) : Prop :=
  ∃ m ∈ s.memberships, m.organization = organization ∧ m.user = user ∧ m.isActiveOwner = true

section Owning

variable {c : ReferralSettings} {s s' s₁ : ReferralDb} {t t' : ReferralThread}

theorem isActiveOwner_iff (m : Membership) :
    m.isActiveOwner = true ↔ m.role = .owner ∧ m.status = .active := by
  simp [Membership.isActiveOwner]

theorem activeOwnerCount_le (s : ReferralDb) (organization : Uuid) :
    s.activeOwnerCount organization ≤ 1 := by
  refine s.memberships.countP_le_one fun m m' hm hm' => ?_
  simp only [Bool.and_eq_true, decide_eq_true_eq] at hm hm'
  exact .inr ⟨hm.1.trans hm'.1.symm, .inr ⟨hm.2, hm'.2⟩⟩

theorem activeOwnerCount_eq {u : UserId} (h : Owner s organization u) :
    s.activeOwnerCount organization = 1 := by
  obtain ⟨m, hm, ho, _, hown⟩ := h
  have hpos : 0 < s.activeOwnerCount organization :=
    List.countP_pos_iff.2 ⟨m, hm, by simp [ho, hown]⟩
  have hle := activeOwnerCount_le s organization
  omega

/-- What a step does to the owners. -/
structure OwnersMoved (s : ReferralDb) (t : ReferralThread) (s₁ : ReferralDb) : Prop where
  active : ∀ m ∈ s₁.memberships, m.role = .owner → m.status = .active
  /-- An owner stays one, or hands the organization over. -/
  stays : ∀ organization u, Owner s organization u → Owner s₁ organization u
    ∨ ∃ newOwner, t.call = .organization (.transferOwnership u organization newOwner)
        ∧ Owner s₁ organization newOwner
  /-- A new organization has an owner. -/
  founded : ∀ o ∈ s₁.organizations, (∃ o' ∈ s.organizations, o'.id = o.id) ∨ ∃ u, Owner s₁ o.id u

theorem OwnersMoved.of_same (h : OwnerInv s) (hm : s₁.memberships = s.memberships)
    (ho : ∀ o ∈ s₁.organizations, ∃ o' ∈ s.organizations, o'.id = o.id) : OwnersMoved s t s₁ := by
  refine ⟨hm ▸ h.active, fun organization u howner => .inl ?_, fun o hmem => .inl (ho o hmem)⟩
  unfold Owner at howner ⊢
  rw [hm]
  exact howner

theorem same_organizations (h : s₁.organizations = s.organizations) :
    ∀ o ∈ s₁.organizations, ∃ o' ∈ s.organizations, o'.id = o.id :=
  fun o ho => ⟨o, h ▸ ho, rfl⟩

/-- A new membership that is no owner's. -/
theorem OwnersMoved.of_insert (h : OwnerInv s) (hrole : m.role ≠ .owner)
    (hm : s.memberships.insert? m = some s₁.memberships) (ho : s₁.organizations = s.organizations) :
    OwnersMoved s t s₁ := by
  refine ⟨fun r hr howner => ?_, fun organization u howner => .inl ?_,
    fun o hmem => .inl (same_organizations ho o hmem)⟩
  · rcases (Table.mem_insert hm).1 hr with hr | rfl
    · exact h.active r hr howner
    · exact absurd howner hrole
  · obtain ⟨r, hr, hrest⟩ := howner
    exact ⟨r, (Table.mem_insert hm).2 (.inl hr), hrest⟩

/-- A save of a membership that is no owner's before or after. -/
theorem OwnersMoved.of_save (h : OwnerInv s) (hs : saveMembershipRow s id f = .ok s₁)
    (hrow : ∀ m ∈ s.memberships, m.id = id → m.isActiveOwner = false)
    (hf : ∀ m ∈ s.memberships, m.id = id → (f m).role ≠ .owner) : OwnersMoved s t s₁ := by
  refine ⟨fun r hr howner => ?_, fun organization u howner => .inl ?_, fun o hmem => .inl ?_⟩
  · obtain ⟨m, hm, rfl⟩ := (mem_saveMembershipRow hs).1 hr
    by_cases hid : m.id = id
    · rw [rewrite_pos f (by simpa using hid)] at howner
      exact absurd howner (hf m hm hid)
    · rw [rewrite_neg f (by simpa using hid)] at howner ⊢
      exact h.active m hm howner
  · obtain ⟨m, hm, hrest⟩ := howner
    refine ⟨m, (mem_saveMembershipRow hs).2 ⟨m, hm, rewrite_neg f fun hid => ?_⟩, hrest⟩
    have hnot := hrow m hm (of_decide_eq_true hid)
    rw [hrest.2.2] at hnot
    cases hnot
  · obtain ⟨_, _, rfl⟩ := saveMembershipRow_cases hs
    exact ⟨o, hmem, rfl⟩

/-- A membership that is as the invite would make it is not written. -/
theorem joined_same {invite : OrganizationInvite} (hactive : m.isActive = true)
    (hrole : m.role = invite.role.membershipRole) : joined invite m = m := by
  cases m
  simp only [Membership.isActive, decide_eq_true_eq] at hactive
  simp only [joined, Membership.mk.injEq, true_and]
  exact ⟨hrole.symm, hactive.symm⟩

theorem rewrites?_of_ne {invite : OrganizationInvite} (hpc : pc = .joining invite (some m))
    (hne : joined invite m ≠ m) : rewrites? pc = some m := by
  subst hpc
  refine if_neg fun hsame => hne ?_
  rw [Bool.and_eq_true, decide_eq_true_eq] at hsame
  exact joined_same hsame.1 hsame.2

/-- The row with the key of a membership is that membership. -/
theorem eq_of_id {m' : Membership} (hm : m ∈ s.memberships) (hm' : m' ∈ s.memberships)
    (h : m.id = m'.id) : m = m' := Table.eq_of_clash hm hm' (.inl h)

theorem mem_of_membership? {user : UserId}
    (h : s.membership? organization user = some m) : m ∈ s.memberships :=
  Table.mem_of_find? h

/-- **A transfer hands the organization of its actor to the new owner.** -/
theorem OwnersMoved.of_promote {target : Membership} {membership : Uuid} (h : OwnerInv s)
    (ht : Transferring s t membership) (hheld : HoldsTarget s t target)
    (hp : promote s target membership = .ok (s₁, a)) : OwnersMoved s t s₁ := by
  rcases promote_cases hp with rfl | ⟨m, s₂, hm, hid, hrole, hne, h₂, h₃⟩
  · exact .of_same h rfl (same_organizations rfl)
  · obtain ⟨actor, organization, newOwner, hcall, m', hm', hid', ho', hu'⟩ := ht
    obtain ⟨htarget, hactive, _, actor', newOwner', hcall', huser⟩ := hheld
    obtain rfl := eq_of_id hm hm' (hid.trans hid'.symm)
    rw [hcall] at hcall'
    cases hcall'
    have hdemoted : ∀ r ∈ s₂.memberships, (r ∈ s.memberships ∧ r.id ≠ m.id)
        ∨ r = { m with role := .admin } := by
      intro r hr
      obtain ⟨q, hq, rfl⟩ := (mem_saveMembershipRow h₂).1 hr
      by_cases hqid : q.id = m.id
      · right
        rw [rewrite_pos _ (by simpa using hqid), eq_of_id hq hm hqid]
      · left
        rw [rewrite_neg _ (by simpa using hqid)]
        exact ⟨hq, hqid⟩
    have hkept : ∀ r ∈ s.memberships, r.id ≠ m.id → r.id ≠ target.id → r ∈ s₁.memberships := by
      intro r hr hrm hrt
      have hr₂ : r ∈ s₂.memberships :=
        (mem_saveMembershipRow h₂).2 ⟨r, hr, rewrite_neg _ (by simpa using hrm)⟩
      exact (mem_saveMembershipRow h₃).2 ⟨r, hr₂, rewrite_neg _ (by simpa using hrt)⟩
    have hnew : { target with role := .owner } ∈ s₁.memberships := by
      have ht₂ : target ∈ s₂.memberships :=
        (mem_saveMembershipRow h₂).2 ⟨target, htarget, rewrite_neg _ (by simpa using hne)⟩
      exact (mem_saveMembershipRow h₃).2 ⟨target, ht₂, rewrite_pos _ (by simp)⟩
    refine ⟨fun r hr howner => ?_, fun org u howner => ?_, fun o hmem => .inl ?_⟩
    · obtain ⟨q, hq, rfl⟩ := (mem_saveMembershipRow h₃).1 hr
      by_cases hqid : q.id = target.id
      · rw [rewrite_pos _ (by simpa using hqid)]
        rcases hdemoted q hq with ⟨hq, _⟩ | rfl
        · rw [eq_of_id hq htarget hqid]
          exact hactive
        · exact absurd hqid.symm hne
      · rw [rewrite_neg _ (by simpa using hqid)] at howner ⊢
        rcases hdemoted q hq with ⟨hq, _⟩ | rfl
        · exact h.active q hq howner
        · cases howner
    · obtain ⟨r, hr, hro, hru, hown⟩ := howner
      have hrowner := (isActiveOwner_iff r).1 hown
      by_cases hrm : r.id = m.id
      · obtain rfl := eq_of_id hr hm hrm
        right
        refine ⟨target.user, ?_, _, hnew, ?_, rfl, ?_⟩
        · rw [← hro, ho', ← hru, hu', huser]
          exact hcall
        · exact (ho'.symm.trans hro)
        · exact (isActiveOwner_iff _).2 ⟨rfl, hactive⟩
      · left
        refine ⟨r, hkept r hr hrm fun hrt => ?_, hro, hru, hown⟩
        -- two active owners of one organization are one
        obtain rfl := eq_of_id hr htarget hrt
        have hmowner : m.isActiveOwner = true :=
          (isActiveOwner_iff m).2 ⟨hrole, h.active m hm hrole⟩
        exact hrm (congrArg Membership.id
          (Table.eq_of_clash hr hm (.inr ⟨ho'.symm, .inr ⟨hown, hmowner⟩⟩)))
    · obtain ⟨_, _, rfl⟩ := saveMembershipRow_cases h₃
      obtain ⟨_, _, rfl⟩ := saveMembershipRow_cases h₂
      exact ⟨o, hmem, rfl⟩

/-- **What a service does to the owners.** -/
theorem write_owners (h : OwnerInv s) (hw : ReferralWrite c s t x s₁) (ht : OwnsTransfer s t)
    (hservice : ofService t = true) (hspares : sparesOwner s t = true) : OwnersMoved s t s₁ := by
  cases hw with
  | stays => exact .of_same h rfl (same_organizations rfl)
  | creates hc =>
    obtain ⟨hm, ⟨o, hoid, ho⟩, _⟩ := createOrganization_cases hc
    refine ⟨fun r hr howner => ?_, fun organization u howner => .inl ?_, fun o' hmem => ?_⟩
    · rcases (Table.mem_insert hm).1 hr with hr | rfl
      · exact h.active r hr howner
      · rfl
    · obtain ⟨r, hr, hrest⟩ := howner
      exact ⟨r, (Table.mem_insert hm).2 (.inl hr), hrest⟩
    · rcases (Table.mem_insert ho).1 hmem with hmem | rfl
      · exact .inl ⟨o', hmem, rfl⟩
      · exact .inr ⟨_, _, (Table.mem_insert hm).2 (.inr rfl), hoid.symm, rfl, rfl⟩
  | @setsStatus o status =>
    have hids : ∀ o' ∈ (saveStatus s o status).1.organizations, ∃ p ∈ s.organizations, p.id
        = o'.id := by
      intro o' hmem
      obtain ⟨p, hp, rfl⟩ := List.mem_map.1 hmem
      refine ⟨p, hp, ?_⟩
      unfold rewrite
      split <;> rfl
    exact .of_same h rfl hids
  | promotes _ hpc _ hp =>
    rw [OwnsTransfer, hpc] at ht
    exact .of_promote h ht.1 ht.2 hp
  | setsRole _ _ hs =>
    obtain ⟨target, r, hfind, _, hrole, hs⟩ := setRole_cases hs
    have htarget := mem_of_membership? hfind
    refine .of_save h hs (fun m hm hid => ?_) fun m _ _ => InviteRole.membershipRole_ne_owner r
    obtain rfl := eq_of_id hm htarget hid
    rw [← Bool.not_eq_true, isActiveOwner_iff]
    exact fun hown => hrole hown.1
  | revokes _ _ hs =>
    rcases revoke_cases hs with rfl | ⟨target, hfind, hlast, hs⟩
    · exact .of_same h rfl (same_organizations rfl)
    · have htarget := mem_of_membership? hfind
      have hnot : target.isActiveOwner = false := by
        rw [← Bool.not_eq_true]
        exact fun hown => hlast ⟨hown, activeOwnerCount_le s _⟩
      refine .of_save h hs (fun m hm hid => ?_) fun m hm hid howner => ?_
      · rw [eq_of_id hm htarget hid]
        exact hnot
      · obtain rfl := eq_of_id hm htarget hid
        rw [(isActiveOwner_iff m).2 ⟨howner, h.active m hm howner⟩] at hnot
        cases hnot
  | writesInvite _ _ _ hi =>
    obtain ⟨_, rfl⟩ := writeInvite_cases hi
    exact .of_same h rfl (same_organizations rfl)
  | revokesInvite _ hi =>
    obtain ⟨_, rfl⟩ := revokeInvite_cases hi
    exact .of_same h rfl (same_organizations rfl)
  | expires _ _ =>
    obtain ⟨_, hexpired⟩ := expire_cases s _
    rw [hexpired]
    exact .of_same h rfl (same_organizations rfl)
  | accepts _ _ _ => exact .of_same h rfl (same_organizations rfl)
  | joins _ _ hm => exact .of_insert h (InviteRole.membershipRole_ne_owner _) hm rfl
  | @rejoins _ _ invite m s₂ _ hpc hne _ hs =>
    have hmoved : OwnersMoved s t s₂ := by
      refine .of_save h hs (fun r hr hid => ?_) fun r _ _ => InviteRole.membershipRole_ne_owner _
      unfold sparesOwner at hspares
      rw [rewrites?_of_ne hpc hne] at hspares
      simp only [Bool.or_eq_true, decide_eq_true_eq, List.all_eq_true] at hspares
      rcases hspares r hr with hother | hfree
      · exact absurd hid hother
      · simpa using hfree
    exact ⟨hmoved.active, hmoved.stays, hmoved.founded⟩
  | saves hforms _ _ =>
    rw [not_forms hservice] at hforms
    cases hforms
  | records _ _ _ => exact .of_same h rfl (same_organizations rfl)
  | drops _ => exact .of_same h rfl (same_organizations rfl)
  | attributes _ _ hs =>
    obtain ⟨hm, ho⟩ := insertAttribution_members hs
    exact .of_same h hm (same_organizations ho)
  | moves _ _ => exact .of_same h rfl (same_organizations rfl)
  | mints _ _ _ hs =>
    obtain ⟨_, _, _, _, _, _, rfl⟩ := createChannel_cases hs
    exact .of_same h rfl (same_organizations rfl)
  | resettles _ => exact .of_same h rfl (same_organizations rfl)
  | relinks _ _ _ _ _ => exact .of_same h rfl (same_organizations rfl)
  | visits _ _ _ => exact .of_same h rfl (same_organizations rfl)
  | registers hs =>
    obtain ⟨_, _, _, rfl⟩ := registerPerson_cases hs
    exact .of_same h rfl (same_organizations rfl)
  | posts _ _ => exact .of_same h rfl (same_organizations rfl)

theorem OwnerInv.moved (h : OwnerInv s) (hm : OwnersMoved s t s₁) : OwnerInv s₁ := by
  refine ⟨hm.active, fun o ho => ?_⟩
  have howner : ∃ u, Owner s₁ o.id u := by
    rcases hm.founded o ho with ⟨o', ho', hid⟩ | howner
    · obtain ⟨m, hmem, horg, hown⟩ := h.owned o' ho'
      rcases hm.stays o.id m.user ⟨m, hmem, horg.trans hid, rfl, hown⟩
        with hstay | ⟨newOwner, _, hnew⟩
      · exact ⟨_, hstay⟩
      · exact ⟨_, hnew⟩
    · exact howner
  obtain ⟨u, m, hmem, horg, _, hown⟩ := howner
  exact ⟨m, hmem, horg, hown⟩

theorem OwnersMoved.relock {locks : List LockedRow} (h : OwnersMoved s t s₁) :
    OwnersMoved s t { s₁ with locks } := ⟨h.active, h.stays, h.founded⟩

/-- A step's moves, under what is asked of it. -/
theorem effect_owners (h : OwnerInv s) (he : Effect c s t x s' t') (ht : OwnsTransfer s t)
    (hservice : ofService t = true) (hspares : sparesOwner s t = true) :
    OwnersMoved s t s' ∧ MembersKept s t s' := by
  obtain ⟨s₁, hw, hs⟩ := he.write
  have hmoved := write_owners h hw ht hservice hspares
  have hkept := write_kept hw ht hservice
  rw [hs]
  exact ⟨hmoved.relock, hkept.kept, hkept.held⟩

/-- **The invariant of the owners, whatever the calls and their order.** -/
theorem ownerInvariant (c : ReferralSettings) :
    Invariant (referralProgram c) Founded KeepsOwner OwnerInv
      (fun s t => Locked s t ∧ OwnsTransfer s t) ApartRows where
  init h := h.owners
  start k _ := ⟨fun _ hrow => (List.not_mem_nil hrow).elim, trivial⟩
  apart_start k _ := .start (c := c) k
  symm h := h.symm
  step := by
    intro s t x s' t' hG hL hok hstep
    have he := referralStep_effect hstep
    exact ⟨hG.moved (effect_owners hG he hL.2 hok.1 hok.2).1, he.taken hL.1, owns_step he hL.2⟩
  frame := by
    intro s t x s' t' u hG hL hok hstep hLu hR
    have he := referralStep_effect hstep
    obtain ⟨hlocked, hapart⟩ := he.frame hLu.1 hR
    exact ⟨⟨hlocked, owns_frame (effect_owners hG he hL.2 hok.1 hok.2).2 hLu.1 hR hLu.2⟩, hapart⟩

/--
**Every organization has exactly one active owner, whatever services are called and
in whatever order, and an owner stays one until a transfer of theirs.** It holds of
every run in which no accepted invite is written over the membership of an active
owner.
-/
theorem owners_sound {g : Config ReferralDb ReferralThread}
    (h : (referralProgram c).ReachWhere Founded KeepsOwner g) :
    (∀ o ∈ g.store.organizations, g.store.activeOwnerCount o.id = 1)
      ∧ ∀ p t x s' t', g.threads p = some t → KeepsOwner g.store t x →
        (referralProgram c).step g.store t x = some (s', t') →
        ∀ organization u, Owner g.store organization u → Owner s' organization u
          ∨ ∃ newOwner, t.call = .organization (.transferOwnership u organization newOwner)
            ∧ Owner s' organization newOwner := by
  have hinv := (ownerInvariant c).reach h
  refine ⟨fun o ho => ?_, fun p t x s' t' hp hok hstep => ?_⟩
  · obtain ⟨m, hm, horg, hown⟩ := hinv.store.owned o ho
    exact activeOwnerCount_eq ⟨m, hm, horg, rfl, hown⟩
  · have hmoved :=
      effect_owners hinv.store (referralStep_effect hstep) (hinv.thread p t hp).2 hok.1 hok.2
    exact hmoved.1.stays

end Owning

/-! ## An organization, and an invite that is accepted late -/

/-- Text as it is where every letter is ASCII, and the digests of two tokens. -/
def orgText : OrgText where
  lower s := String.ofList (s.toList.map Char.toLower)
  upper s := String.ofList (s.toList.map Char.toUpper)
  sha256 s :=
    if s = "rs7Qk0mVnXbW2tYd" then
      "7696f2f86ca5211dcef1f17e1f741fa2a57cf2a1b4d4d40a2f15c816d54c878a"
    else if s = "Zp4LhC9uJxE1aGfo" then
      "ae5dda015c5a8926ceb06f24c577ac486ddc107efa1cae69fc4978ffa19a459a"
    else ""

def referralSettings : ReferralSettings := ⟨true, defaultInviteTtl, orgText⟩

def founder : Person := ⟨1, "founder@example.com"⟩

def guest : Person := ⟨2, "guest@example.com"⟩

/-- Two users with their accounts, and nothing else. -/
def twoPeople : ReferralDb where
  books := twoAccounts
  accounts := ⟨[⟨alice, some 1, .personal⟩, ⟨bob, some 2, .personal⟩], by decide⟩
  people := ⟨[founder, guest], by decide⟩
  organizations := .empty
  memberships := .empty
  invites := .empty
  channels := .empty
  links := .empty
  visits := .empty
  pendings := .empty
  attributions := .empty
  locks := []

theorem founded_twoPeople : Founded twoPeople :=
  ⟨⟨fun m hm => absurd hm (Table.not_mem_empty m), fun o ho => absurd ho (Table.not_mem_empty o)⟩,
    rfl⟩

/-- The channel that is made after the company. -/
def companyChannel : Uuid := ⟨"00000000-0000-4000-8000-0000000000c3", by decide⟩

/-- The UUIDs that are drawn, in order. -/
def drawn : List Uuid :=
  [⟨"00000000-0000-4000-8000-0000000000c0", by decide⟩,
    ⟨"00000000-0000-4000-8000-0000000000c1", by decide⟩,
    ⟨"00000000-0000-4000-8000-0000000000c2", by decide⟩, companyChannel,
    ⟨"00000000-0000-4000-8000-0000000000c4", by decide⟩,
      ⟨"00000000-0000-4000-8000-0000000000c5", by decide⟩]

/-- The organization that is created first. -/
def company : Uuid := ⟨"00000000-0000-4000-8000-0000000000c0", by decide⟩

/-- Some steps of a call, which has a token and draws from the n-th UUID on. -/
def referralSteps (p count n : Nat) (token : String) : List (Act ReferralCall ReferralInput) :=
  List.replicate count (.tick p (.go ⟨0, fun i => drawn.getD (n + i) alice, fun _ => token, 0⟩))

/-- The founder creates the company and invites the guest as a member. -/
def founding : List (Act ReferralCall ReferralInput) :=
  .call 0 (.organization (.createOrganization "Company" founder.id .active))
    :: referralSteps 0 1 0 ""
    ++ .call 1 (.organization (.createInvite founder.id company guest.email (some .member)))
      :: referralSteps 1 6 3 "rs7Qk0mVnXbW2tYd"

/-- The guest accepts the first invite. -/
def joining : List (Act ReferralCall ReferralInput) :=
  .call 2 (.organization (.acceptInvite guest "rs7Qk0mVnXbW2tYd")) :: referralSteps 2 5 4 ""

/-- The founder hands the company over to the guest. -/
def handingOver : List (Act ReferralCall ReferralInput) :=
  .call 3 (.organization (.transferOwnership founder.id company guest.id)) :: referralSteps 3 5 0 ""

/-- The guest owns the company. -/
def guestOwns (g : Config ReferralDb ReferralThread) : Bool :=
  g.store.memberships.rows.any fun m =>
    m.organization = company && m.user = guest.id && m.isActiveOwner

theorem owners_sound_handed_over : ∃ g, guestOwns g = true
    ∧ ∀ o ∈ g.store.organizations, g.store.activeOwnerCount o.id = 1 := by
  have hrun : ∃ g, (referralProgram referralSettings).ReachWhere Founded KeepsOwner g
      ∧ guestOwns g = true :=
    Program.reachWhere_check (fun s t _ => ofService t && sparesOwner s t)
      (fun _ _ _ h => Bool.and_eq_true_iff.1 h) founded_twoPeople
        (founding ++ joining ++ handingOver)
      guestOwns (by decide)
  obtain ⟨g, hg, howns⟩ := hrun
  exact ⟨g, howns, (owners_sound hg).1⟩

/-- The company has no active owner. -/
def ownerless (g : Config ReferralDb ReferralThread) : Bool :=
  g.store.organizations.rows.any fun o => g.store.activeOwnerCount o.id = 0

/--
**A company without an owner.** The founder invites the guest again; the guest
accepts the first invite after the check of the second and before its write. The
founder hands the company over, and the guest, now its owner, accepts the second.
-/
theorem owner_lost : ∃ g,
    (referralProgram referralSettings).ReachWhere Founded (fun _ t _ => ofService t = true) g
      ∧ ∃ o ∈ g.store.organizations, g.store.activeOwnerCount o.id = 0 := by
  have hrun : ∃ g, (referralProgram referralSettings).ReachWhere Founded
    (fun _ t _ => ofService t = true) g
      ∧ ownerless g = true :=
    Program.reachWhere_check (fun _ t _ => ofService t) (fun _ _ _ h => h) founded_twoPeople
      (founding
        ++ .call 4 (.organization (.createInvite founder.id company guest.email (some .member)))
          :: referralSteps 4 5 5 "Zp4LhC9uJxE1aGfo"
        ++ joining ++ referralSteps 4 1 5 "Zp4LhC9uJxE1aGfo" ++ handingOver
        ++ .call 5 (.organization (.acceptInvite guest "Zp4LhC9uJxE1aGfo"))
          :: referralSteps 5 5 0 "")
      ownerless (by decide)
  obtain ⟨g, hg, hnone⟩ := hrun
  obtain ⟨o, ho, hcount⟩ := List.any_eq_true.1 hnone
  exact ⟨g, hg, o, ho, of_decide_eq_true hcount⟩

end Roamkit.Partner.Proof
