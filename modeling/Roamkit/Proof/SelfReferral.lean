import Roamkit.Proof.Owners

/-!
# Nobody is a customer of their own channel

A user is attributed neither to a channel of their own nor to one of an organization
they are an active member of. Both kinds of write check the rows of the other under
locks: an attribution holds the user and the channel until it is inserted, and
`accept_invite` holds the user.

The admin forms are the exception. Those in line have no guard. The form of one
membership locks nothing while the organization has no channel, and one may be made
before it saves. A form may also give a membership to another user between the read
and the write of `accept_invite`.
-/

namespace Roamkit.Partner.Proof

open Lib Billing Organizations Partner Billing.Proof

/-! ## What is asked of a step -/

/--
A user may become an active member, as far as the channel of the organization goes:
they are not attributed to it, and nobody who holds both of them is about to.
-/
def mayJoin (s : ReferralDb) (t : ReferralThread) (user : UserId) (organization : Uuid) : Bool :=
  match s.teamChannel? organization with
  | none => true
  | some channel =>
    !s.isAttributed user channel.id && (s.grants t (.user user) || s.grants t (.channel channel.id))

/-- The call has locked the channel of an organization. -/
def holdsChannel (s : ReferralDb) (t : ReferralThread) (organization : Uuid) : Bool :=
  match s.teamChannel? organization with
  | none => false
  | some channel => .channel channel.id ∈ t.held

/-- Who becomes an active member without a guard: by a form, or by an invite written over a row that
is another's. -/
def unguarded (s : ReferralDb) (t : ReferralThread) : List (UserId × Uuid) :=
  match t.pc, t.call with
  | .checked (.saving f), .admin _ =>
    if f.status = .active ∧ holdsChannel s t f.organization = false then
      [(f.user, f.organization)] else []
  | .savingInlines, .admin (.saveInlines fs) =>
    (fs.filter (·.status = .active)).map fun f => (f.user, f.organization)
  | pc, _ =>
    match rewrites? pc with
    | none => []
    | some m =>
      (s.memberships.rows.filter fun r =>
        r.id = m.id && (r.user ≠ m.user || r.organization ≠ m.organization)).map
          fun r => (r.user, r.organization)

/-- What is asked of a step. -/
def KeepsApart (s : ReferralDb) (t : ReferralThread) (_ : ReferralInput) : Prop :=
  ∀ j ∈ unguarded s t, mayJoin s t j.1 j.2 = true

/-! ## The invariant -/

/-- A user may be a customer of the channel of an owner. -/
def Allowed (s : ReferralDb) (user : UserId) : ChannelOwner → Prop
  | .individual owner => owner ≠ user
  | .team organization => s.activeMember organization user = false

/-- A user is no customer of a channel of an organization. -/
def Unattributed (s : ReferralDb) (user : UserId) (organization : Uuid) : Prop :=
  ∀ a ∈ s.attributions, a.user = user → ∀ ch ∈ s.channels, ch.id = a.partnerChannel →
    ch.owner ≠ .team organization

/-- The invariant. -/
structure SelfInv (s : ReferralDb) : Prop where
  /-- An attribution is to a channel there is. -/
  channels : ∀ a ∈ s.attributions, ∃ ch ∈ s.channels, ch.id = a.partnerChannel
  /-- A team channel is of an organization there is. -/
  organizations : ∀ ch ∈ s.channels, ∀ organization, ch.owner = .team organization →
    ∃ o ∈ s.organizations, o.id = organization
  /-- Nobody is their own customer. -/
  apart : ∀ a ∈ s.attributions, ∀ ch ∈ s.channels, ch.id = a.partnerChannel
    → Allowed s a.user ch.owner

variable {channel organization : Uuid} {user : UserId} {ch : PartnerChannel} {next : Checked}
  {v : ReferralView}

section Guards

variable {c : ReferralSettings} {s s' s₁ : ReferralDb} {t t' u : ReferralThread}

theorem activeMember_iff :
    s.activeMember organization user = true
      ↔ ∃ m ∈ s.memberships, m.organization = organization ∧ m.user = user
        ∧ m.status = .active := by
  unfold ReferralDb.activeMember
  rw [List.any_eq_true]
  simp only [Bool.and_eq_true, decide_eq_true_eq, Membership.isActive, and_assoc]
  rfl

/-- The guard of attributions passes exactly the users it may. -/
theorem allowed_iff :
    s.refersToSelf user ch = none ↔ Allowed s user ch.owner := by
  unfold ReferralDb.refersToSelf
  cases ch.owner with
  | individual owner => simp [Allowed]
  | team organization => simp [Allowed]

theorem teamChannel?_eq (hch : ch ∈ s.channels) (ho : ch.owner = .team organization) :
    s.teamChannel? organization = some ch := by
  refine Table.find?_of_mem hch (by simpa using ho) ?_
  intro q hq
  have hq : q.owner = .team organization := by simpa using hq
  exact .inr (hq.trans ho.symm)

theorem isAttributed_iff :
    s.isAttributed user channel = true
      ↔ ∃ a ∈ s.attributions, a.user = user ∧ a.partnerChannel = channel := by
  unfold ReferralDb.isAttributed
  rw [List.any_eq_true]
  simp only [Bool.and_eq_true, decide_eq_true_eq]
  rfl

/-- Under the check of a channel, a user is no customer of its organization. -/
theorem unattributed_of_check (hch : ch ∈ s.channels) (ho : ch.owner = .team organization)
    (hfree : s.isAttributed user ch.id = false) : Unattributed s user organization := by
  intro a ha hu ch' hch' hid ho'
  obtain rfl : ch = ch' := Table.eq_of_clash hch hch' (.inr (ho.trans ho'.symm))
  have hattr : s.isAttributed user ch.id = true := isAttributed_iff.2 ⟨a, ha, hu, hid.symm⟩
  rw [hattr] at hfree
  cases hfree

theorem unattributed_of_none (h : s.teamChannel? organization = none) :
    Unattributed s user organization := by
  intro a _ _ ch hch _ ho
  rw [teamChannel?_eq hch ho] at h
  cases h

/-- Why a user may become an active member. -/
inductive MayJoin (s : ReferralDb) (t : ReferralThread) (user : UserId) (organization : Uuid) : Prop
  /-- The organization is new. -/
  | founds : (∀ o ∈ s.organizations, o.id ≠ organization) → MayJoin s t user organization
  /-- The guard has passed, and the user is held since. -/
  | holds : .user user ∈ t.held → Unattributed s user organization → MayJoin s t user organization
  | free : mayJoin s t user organization = true → MayJoin s t user organization

theorem MayJoin.unattributed (hG : SelfInv s) (h : MayJoin s t user organization) :
    Unattributed s user organization := by
  cases h with
  | founds hnew =>
    intro a _ _ ch hch _ ho
    obtain ⟨o, hmem, hid⟩ := hG.organizations ch hch organization ho
    exact hnew o hmem hid
  | holds _ hfree => exact hfree
  | free hfree =>
    unfold mayJoin at hfree
    split at hfree
    · rename_i hnone
      exact unattributed_of_none hnone
    · rename_i ch hsome
      have ho : ch.owner = .team organization := by simpa using Table.prop_of_find? hsome
      rw [Bool.and_eq_true, Bool.not_eq_true'] at hfree
      exact unattributed_of_check (Table.mem_of_find? hsome) ho hfree.1

/-- A call that holds a user and a channel keeps others from making the user a member of its
organization. -/
theorem not_mayJoin (hG : SelfInv s) (hu : Locked s u) (hapart : ApartRows t u)
    (huser : .user user ∈ u.held) (hch : ch ∈ s.channels) (ho : ch.owner = .team organization)
    (hchannel : .channel ch.id ∈ u.held) :
    ¬ MayJoin s t user organization := by
  intro h
  cases h with
  | founds hnew =>
    obtain ⟨o, hmem, hid⟩ := hG.organizations ch hch organization ho
    exact hnew o hmem hid
  | holds hheld _ => exact hapart _ hheld huser
  | free hfree =>
    unfold mayJoin at hfree
    rw [teamChannel?_eq hch ho] at hfree
    simp only [not_grants hu hapart huser, not_grants hu hapart hchannel, Bool.or_self,
      Bool.and_false] at hfree
    cases hfree

/-! ## What a step does to the rows the guards read -/

/-- An attribution with a key is the user's. -/
def Stored (s : ReferralDb) (a : CustomerAttribution) : Prop :=
  ∃ r ∈ s.attributions, r.id = a.id ∧ r.user = a.user

/-- The rows the guards read, after a step. -/
structure ReferralKept (s : ReferralDb) (t : ReferralThread) (s₁ : ReferralDb) : Prop where
  organizations : ∀ o ∈ s.organizations, ∃ o' ∈ s₁.organizations, o'.id = o.id
  channels : ∀ ch ∈ s.channels, ∃ ch' ∈ s₁.channels, ch'.id = ch.id ∧ ch'.owner = ch.owner
  /-- A new channel is of an organization there is. -/
  newChannel : ∀ ch' ∈ s₁.channels, (∃ ch ∈ s.channels, ch.id = ch'.id ∧ ch.owner = ch'.owner)
    ∨ ((∀ ch ∈ s.channels, ch.id ≠ ch'.id) ∧ ∀ organization, ch'.owner = .team organization →
      ∃ o ∈ s₁.organizations, o.id = organization)
  attributions : ∀ a ∈ s.attributions, Stored s₁ a
  /-- A new attribution has passed its check, and the user is held since. -/
  newAttribution : ∀ a' ∈ s₁.attributions,
    (∃ a ∈ s.attributions, a.user = a'.user ∧ a.partnerChannel = a'.partnerChannel)
    ∨ (s₁.memberships = s.memberships ∧ .user a'.user ∈ t.held
      ∧ ∃ ch ∈ s.channels, ch.id = a'.partnerChannel ∧ Allowed s a'.user ch.owner)
  /-- A new active member may be one. -/
  newMember : ∀ m' ∈ s₁.memberships, m'.status = .active →
    (∃ m ∈ s.memberships, m.organization = m'.organization ∧ m.user = m'.user ∧ m.status = .active)
    ∨ MayJoin s t m'.user m'.organization

/-- A channel keeps its owner. -/
theorem ReferralKept.owner {ch' : PartnerChannel} (hk : ReferralKept s t s₁) (hch : ch ∈ s.channels)
    (hch' : ch' ∈ s₁.channels) (hid : ch'.id = ch.id) : ch'.owner = ch.owner := by
  obtain ⟨ch'', hmem, hid'', ho⟩ := hk.channels ch hch
  rw [← ho, Table.eq_of_clash hch' hmem (.inl (hid.trans hid''.symm))]

/-- A user who may not join stays one who may be a customer. -/
theorem Allowed.kept {owner : ChannelOwner} (hk : ReferralKept s t s₁)
    (hnot : ∀ organization, owner = .team organization → ¬ MayJoin s t user organization)
    (h : Allowed s user owner) : Allowed s₁ user owner := by
  cases owner with
  | individual _ => exact h
  | team organization =>
    show s₁.activeMember organization user = false
    by_contra hmember
    rw [Bool.not_eq_false] at hmember
    obtain ⟨m', hm', rfl, rfl, hactive⟩ := activeMember_iff.1 hmember
    rcases hk.newMember m' hm' hactive with hold | hnew
    · have hactive : s.activeMember m'.organization m'.user = true := activeMember_iff.2 hold
      have hfree : s.activeMember m'.organization m'.user = false := h
      rw [hactive] at hfree
      cases hfree
    · exact hnot m'.organization rfl hnew

/-- Only a call that holds a user attributes them. -/
theorem Unattributed.kept (hG : SelfInv s) (hk : ReferralKept s t s₁)
    (hheld : .user user ∉ t.held) (h : Unattributed s user organization) :
    Unattributed s₁ user organization := by
  rintro a' ha' rfl ch' hch' hid ho
  rcases hk.newAttribution a' ha' with ⟨a, ha, hu, hchannel⟩ | ⟨_, hnew, _⟩
  · obtain ⟨ch, hch, hcid⟩ := hG.channels a ha
    have howner := hk.owner hch hch' (hid.trans (hchannel.symm.trans hcid.symm))
    exact h a ha hu ch hch hcid (howner.symm.trans ho)
  · exact hheld hnew

/-- **A step keeps users off their own channels.** -/
theorem SelfInv.kept (h : SelfInv s) (hk : ReferralKept s t s₁) : SelfInv s₁ := by
  refine ⟨fun a' ha' => ?_, fun ch' hch' organization ho => ?_, fun a' ha' ch' hch' hid => ?_⟩
  · have hold : ∃ ch ∈ s.channels, ch.id = a'.partnerChannel := by
      rcases hk.newAttribution a' ha' with ⟨a, ha, _, hchannel⟩ | ⟨_, _, ch, hch, hcid, _⟩
      · obtain ⟨ch, hch, hcid⟩ := h.channels a ha
        exact ⟨ch, hch, hcid.trans hchannel⟩
      · exact ⟨ch, hch, hcid⟩
    obtain ⟨ch, hch, hcid⟩ := hold
    obtain ⟨ch', hch', hid, _⟩ := hk.channels ch hch
    exact ⟨ch', hch', hid.trans hcid⟩
  · rcases hk.newChannel ch' hch' with ⟨ch, hch, _, howner⟩ | ⟨_, horg⟩
    · obtain ⟨o, hmem, hid⟩ := h.organizations ch hch organization (howner.trans ho)
      obtain ⟨o', hmem', hid'⟩ := hk.organizations o hmem
      exact ⟨o', hmem', hid'.trans hid⟩
    · exact horg organization ho
  · rcases hk.newAttribution a' ha' with ⟨a, ha, hu, hchannel⟩ | ⟨hsame, _, ch, hch, hcid, hallowed⟩
    · obtain ⟨ch, hch, hcid⟩ := h.channels a ha
      have howner := hk.owner hch hch' (hid.trans (hchannel.symm.trans hcid.symm))
      have hallowed : Allowed s a'.user ch'.owner := by
        rw [howner, ← hu]
        exact h.apart a ha ch hch hcid
      -- a user who joins is no customer of the organization
      refine hallowed.kept hk fun organization ho hjoin => ?_
      exact hjoin.unattributed h a ha hu ch hch hcid (howner.symm.trans ho)
    · have howner := hk.owner hch hch' (hid.trans hcid.symm)
      rw [howner]
      unfold Allowed ReferralDb.activeMember at hallowed ⊢
      rw [hsame]
      exact hallowed

/-! ## What the calls know -/

/-- What a guard goes by, and the rows its call holds. -/
def GuardOwns (t : ReferralThread) (user : UserId) (organization : Uuid) : Checked → Prop
  | .accepting invite => organization = invite.organization ∧ .user user ∈ t.held
      ∧ ∃ actor raw, t.call = .organization (.acceptInvite actor raw) ∧ actor.id = user
  | .saving f => user = f.user ∧ organization = f.organization ∧ ∀ id, .channel id ∉ t.held
  | _ => True

/-- What has been checked, and is so while the user is held. -/
def CheckedOwns (s : ReferralDb) (t : ReferralThread) : Checked → Prop
  | .accepting invite => ∃ actor raw, t.call = .organization (.acceptInvite actor raw)
      ∧ .user actor.id ∈ t.held ∧ Unattributed s actor.id invite.organization
  | .saving f => f.status = .active → (∀ id, .channel id ∉ t.held)
      ∨ (.user f.user ∈ t.held ∧ Unattributed s f.user f.organization)
  | _ => True

/-- A key is that of the channel of an organization. -/
def TeamChannel (s : ReferralDb) (id organization : Uuid) : Prop :=
  ∃ ch ∈ s.channels, ch.id = id ∧ ch.owner = .team organization

/-- What the guard of memberships relies on, and those who have passed it. -/
def OwnsGuard (s : ReferralDb) (t : ReferralThread) : Prop :=
  match t.pc with
  | .asked => t.held = []
  | .seekingInvite =>
      ∃ actor raw, t.call = .organization (.acceptInvite actor raw) ∧ .user actor.id ∈ t.held
  | .guarding user organization next => GuardOwns t user organization next
  | .lockingUser user ch next => ∃ organization, TeamChannel s ch organization
      ∧ GuardOwns t user organization next
  | .lockingChannel user ch next => ∃ organization, TeamChannel s ch organization
      ∧ GuardOwns t user organization next ∧ .user user ∈ t.held
  | .checked next => CheckedOwns s t next
  | .joining invite found => ∃ actor raw, t.call = .organization (.acceptInvite actor raw)
      ∧ .user actor.id ∈ t.held ∧ Unattributed s actor.id invite.organization
      ∧ ∀ m, found = some m → m.organization = invite.organization ∧ m.user = actor.id
  | _ => True

/-- Places of `OwnsGuard`. -/
def guards : ReferralPc → Bool
  | .asked => true
  | .seekingInvite => true
  | .guarding _ _ _ => true
  | .lockingUser _ _ _ => true
  | .lockingChannel _ _ _ => true
  | .checked _ => true
  | .joining _ _ => true
  | _ => false

/-- An attribution that has passed its check, and the locks under which it has. -/
def Passed (s : ReferralDb) (t : ReferralThread) (user : UserId) (channel : Uuid) : Prop :=
  ∃ ch ∈ s.channels, ch.id = channel ∧ .channel ch.id ∈ t.held ∧ Allowed s user ch.owner

/-- What an attribution relies on. -/
def OwnsAttribution (s : ReferralDb) (t : ReferralThread) : Prop :=
  attributes t.pc = true → ∃ k, t.call = .attribution k ∧ .user k.user ∈ t.held
    ∧ match t.pc with
      | .attributing a _ => a.user = k.user
      | .inserting a _ => a.user = k.user ∧ Passed s t a.user a.partnerChannel
      | .moving a => a.user = k.user ∧ Stored s a
      | .moved a => a.user = k.user ∧ Stored s a ∧ ∃ channel, k = .transfer k.user channel
          ∧ Passed s t a.user channel
      | _ => True

/-- A call that makes a team channel has read its organization. -/
def OwnsMint (s : ReferralDb) (t : ReferralThread) : Prop :=
  ∀ k n organization percent, t.call = .channel k → t.pc = .minting n →
    k.creates? = some (.team organization, percent) → ∃ o ∈ s.organizations, o.id = organization

/-- What a call relies on. -/
structure SelfLocal (s : ReferralDb) (t : ReferralThread) : Prop where
  locked : Locked s t
  guard : OwnsGuard s t
  attribution : OwnsAttribution s t
  mint : OwnsMint s t

/-! ### What a step of the call itself leaves -/

theorem ownsGuard_of_not (h : guards t.pc = false) : OwnsGuard s t := by
  unfold OwnsGuard
  split
  all_goals first | trivial | (rename_i hpc; rw [hpc] at h; cases h)

theorem ownsAttribution_of_not (h : attributes t.pc = false) : OwnsAttribution s t := by
  intro hattr
  rw [h] at hattr
  cases hattr

/-- Places a call goes on to with its context. -/
def proceeds : ReferralPc → Bool
  | .guarding _ _ (.transferring _) => true
  | .guarding _ _ .settingRole => true
  | .revoking _ => true
  | .savingStatus _ => true
  | .findingUser _ => true
  | .revokingInvite => true
  | _ => false

theorem proceeds_of_ok {k : OrganizationCall} {text : OrgText} {ctx : OrganizationContext}
    {pc : ReferralPc} (h : k.proceed text ctx = .ok pc) : proceeds pc = true := by
  cases k with
  | createInvite =>
    obtain ⟨_, _, h⟩ := bind_ok h
    split at h
    · cases h
    · cases h
      rfl
  | createOrganization => cases h
  | acceptInvite => cases h
  | _ =>
    obtain ⟨_, _, h⟩ := bind_ok h
    cases h
    rfl

theorem ownsGuard_of_proceeds (h : proceeds t.pc = true) : OwnsGuard s t := by
  unfold OwnsGuard
  split
  case h_3 _ _ next hpc =>
    rw [hpc] at h
    cases next <;> trivial
  all_goals first | trivial | (rename_i hpc; rw [hpc] at h; cases h)

theorem ownsGuard_of_plain (h : isPlain t.pc = true) : OwnsGuard s t := by
  unfold OwnsGuard
  split
  case h_3 _ _ next hpc =>
    rw [hpc] at h
    cases next <;> trivial
  case h_6 next hpc =>
    rw [hpc] at h
    cases next <;> trivial
  all_goals first | trivial | (rename_i hpc; rw [hpc] at h; cases h)

/-- A guard that takes no row but users goes on. -/
theorem GuardOwns.step (hcall : t'.call = t.call) (hkeeps : ∀ row ∈ t.held, row ∈ t'.held)
    (honly : ∀ row ∈ t'.held, row ∈ t.held ∨ ∃ v, row = .user v)
    (h : GuardOwns t user organization next) : GuardOwns t' user organization next := by
  cases next with
  | accepting invite =>
    obtain ⟨ho, hheld, actor, raw, hk, hid⟩ := h
    exact ⟨ho, hkeeps _ hheld, actor, raw, hcall.trans hk, hid⟩
  | saving f =>
    obtain ⟨hu, ho, hnone⟩ := h
    refine ⟨hu, ho, fun id hid => ?_⟩
    rcases honly _ hid with hheld | ⟨_, heq⟩
    · exact hnone id hheld
    · cases heq
  | _ => trivial

/-- A guard that passes. -/
theorem GuardOwns.checked (hcall : t'.call = t.call) (hkeeps : ∀ row ∈ t.held, row ∈ t'.held)
    (hheld : t'.held = t.held ∨ .user user ∈ t'.held) (hfree : Unattributed s user organization)
    (h : GuardOwns t user organization next) :
    CheckedOwns s t' next := by
  cases next with
  | accepting invite =>
    obtain ⟨rfl, huser, actor, raw, hk, rfl⟩ := h
    exact ⟨actor, raw, hcall.trans hk, hkeeps _ huser, hfree⟩
  | saving f =>
    obtain ⟨rfl, rfl, hnone⟩ := h
    intro _
    rcases hheld with hsame | huser
    · exact .inl fun id hid => hnone id (hsame ▸ hid)
    · exact .inr ⟨huser, hfree⟩
  | _ => trivial

/-- **A step of the guard leaves what it relies on next.** -/
theorem guard_step (he : Effect c s t x s' t') (h : OwnsGuard s t) : OwnsGuard s' t' := by
  cases hlive : t'.pc.isLive with
  | false =>
      exact ownsGuard_of_not (by
        generalize t'.pc = pc at hlive; cases pc <;> first | rfl | cases hlive)
  | true =>
    obtain ⟨hs, hkeeps, hg⟩ := he.goes hlive
    rw [hs]
    show OwnsGuard s t'
    generalize hpc : t'.pc = pc at hg
    cases hg with
    | plain hplain => exact ownsGuard_of_plain (hpc ▸ hplain)
    | proceeds _ _ _ _ _ _ _ hproceed => exact ownsGuard_of_proceeds (hpc ▸ proceeds_of_ok hproceed)
    | guardsInvite _ hcall hseek =>
      rw [OwnsGuard, hseek] at h
      obtain ⟨actor', raw', hcall', hheld⟩ := h
      obtain ⟨rfl, rfl⟩ : actor' = _ ∧ raw' = _ := by simpa using hcall'.symm.trans hcall
      rw [OwnsGuard, hpc]
      exact ⟨rfl, hkeeps _ hheld, actor', raw', he.call.trans hcall, rfl⟩
    | guardsForm hcall hasked hheld =>
      rw [OwnsGuard, hasked] at h
      rw [OwnsGuard, hpc]
      refine ⟨rfl, rfl, fun id hid => ?_⟩
      rw [hheld, h] at hid
      cases hid
    | saves _ hstatus =>
      rw [OwnsGuard, hpc]
      exact fun hactive => absurd hactive hstatus
    | unguarded hguard hnone hheld =>
      rw [OwnsGuard, hguard] at h
      rw [OwnsGuard, hpc]
      exact GuardOwns.checked he.call hkeeps (.inl hheld) (unattributed_of_none hnone) h
    | guarded hguard hsome hheld =>
      rw [OwnsGuard, hguard] at h
      rw [OwnsGuard, hpc]
      have ho := Table.prop_of_find? hsome
      exact ⟨_, ⟨_, Table.mem_of_find? hsome, rfl, by simpa using ho⟩,
        GuardOwns.step he.call hkeeps (fun row hrow => .inl (hheld ▸ hrow)) h⟩
    | locksUser hguard hheld honly =>
      rw [OwnsGuard, hguard] at h
      obtain ⟨organization, hteam, h⟩ := h
      rw [OwnsGuard, hpc]
      exact ⟨organization, hteam, GuardOwns.step he.call hkeeps
        (fun row hrow => (honly row hrow).imp_right fun hrow => ⟨_, hrow⟩) h, hheld⟩
    | passes hguard _ hfree =>
      rw [OwnsGuard, hguard] at h
      obtain ⟨organization, ⟨ch, hch, rfl, ho⟩, h, huser⟩ := h
      rw [OwnsGuard, hpc]
      exact GuardOwns.checked he.call hkeeps (.inr (hkeeps _ huser))
        (unattributed_of_check hch ho hfree) h
    | seeksInvite hcall hheld =>
      rw [OwnsGuard, hpc]
      exact ⟨_, _, he.call.trans hcall, hheld⟩
    | @joins actor raw invite found hcall hfrom hfound =>
      rw [OwnsGuard, hpc]
      have hknown : ∃ actor raw, t.call = .organization (.acceptInvite actor raw)
          ∧ .user actor.id ∈ t.held ∧ Unattributed s actor.id invite.organization := by
        rcases hfrom with hchecked | hjoining
        · rw [OwnsGuard, hchecked] at h
          exact h
        · rw [OwnsGuard, hjoining] at h
          obtain ⟨actor, raw, hcall, huser, hfree, _⟩ := h
          exact ⟨actor, raw, hcall, huser, hfree⟩
      obtain ⟨actor', raw', hcall', huser, hfree⟩ := hknown
      obtain ⟨rfl, rfl⟩ : actor' = actor ∧ raw' = raw := by simpa using hcall'.symm.trans hcall
      exact ⟨actor', raw', he.call.trans hcall, hkeeps _ huser, hfree, fun m hm => (hfound m hm).2⟩
    | takesUser _ _ hattr =>
      refine ownsGuard_of_not ?_
      rw [hpc]
      cases pc <;> first | rfl | cases hattr
    | resolves => exact ownsGuard_of_not (hpc ▸ rfl)
    | locksTarget => exact ownsGuard_of_not (hpc ▸ rfl)
    | mints => exact ownsGuard_of_not (hpc ▸ rfl)
    | allows => exact ownsGuard_of_not (hpc ▸ rfl)
    | allowsMove => exact ownsGuard_of_not (hpc ▸ rfl)

/-- **A step of an attribution leaves what it relies on next.** -/
theorem attribution_step (he : Effect c s t x s' t') (h : OwnsAttribution s t) :
    OwnsAttribution s' t' := by
  cases hlive : t'.pc.isLive with
  | false =>
    refine ownsAttribution_of_not ?_
    generalize t'.pc = pc at hlive
    cases pc <;> first | rfl | cases hlive
  | true =>
    obtain ⟨hs, hkeeps, hg⟩ := he.goes hlive
    rw [hs]
    show OwnsAttribution s t'
    generalize hpc : t'.pc = pc at hg
    cases hg with
    | plain hplain =>
      refine ownsAttribution_of_not ?_
      rw [hpc]
      cases pc <;> first | rfl | cases hplain
    | proceeds _ _ _ _ _ _ _ hproceed =>
      refine ownsAttribution_of_not ?_
      rw [hpc]
      have hproceeds := proceeds_of_ok hproceed
      cases pc <;> first | rfl | cases hproceeds
    | @takesUser k _ hcall huser hattr hnoinsert hnomove hattributes hmoves =>
      intro _
      have hheld : .user k.user ∈ t'.held := by
        rcases huser with hbefore | hnow
        · obtain ⟨k', hk', hheld, _⟩ := h hbefore
          rw [hcall] at hk'
          cases hk'
          exact hkeeps _ hheld
        · exact hnow
      refine ⟨k, he.call.trans hcall, hheld, ?_⟩
      rw [hpc]
      cases pc with
      | attributing a pending => exact hattributes a pending rfl
      | moving a =>
        obtain ⟨hmem, hu⟩ := hmoves a rfl
        exact ⟨hu, a, hmem, rfl, rfl⟩
      | inserting a pending => exact absurd rfl (hnoinsert a pending)
      | moved a => exact absurd rfl (hnomove a)
      | _ => trivial
    | allows hcall hfrom hfind hheld hnone =>
      intro _
      obtain ⟨k, hk, huser, hu⟩ := h (by rw [hfrom]; rfl)
      rw [hfrom] at hu
      refine ⟨k, he.call.trans hk, hkeeps _ huser, ?_⟩
      rw [hpc]
      exact ⟨hu, _, Table.mem_of_find? hfind, by simpa using Table.prop_of_find? hfind, hheld,
        allowed_iff.1 hnone⟩
    | allowsMove hcall hfrom hfind hheld hnone =>
      intro _
      obtain ⟨k, hk, huser, hknown⟩ := h (by rw [hfrom]; rfl)
      rw [hfrom] at hknown
      obtain ⟨hu, hstored⟩ := hknown
      rw [hcall] at hk
      cases hk
      refine ⟨_, he.call.trans hcall, hkeeps _ huser, ?_⟩
      rw [hpc]
      exact ⟨hu, hstored, _, rfl, _, Table.mem_of_find? hfind,
        by simpa using Table.prop_of_find? hfind, hheld, allowed_iff.1 hnone⟩
    | resolves => exact ownsAttribution_of_not (hpc ▸ rfl)
    | guardsInvite => exact ownsAttribution_of_not (hpc ▸ rfl)
    | guardsForm => exact ownsAttribution_of_not (hpc ▸ rfl)
    | saves => exact ownsAttribution_of_not (hpc ▸ rfl)
    | unguarded => exact ownsAttribution_of_not (hpc ▸ rfl)
    | guarded => exact ownsAttribution_of_not (hpc ▸ rfl)
    | locksUser => exact ownsAttribution_of_not (hpc ▸ rfl)
    | passes => exact ownsAttribution_of_not (hpc ▸ rfl)
    | locksTarget => exact ownsAttribution_of_not (hpc ▸ rfl)
    | seeksInvite => exact ownsAttribution_of_not (hpc ▸ rfl)
    | joins => exact ownsAttribution_of_not (hpc ▸ rfl)
    | mints => exact ownsAttribution_of_not (hpc ▸ rfl)

theorem mint_step (he : Effect c s t x s' t') (h : OwnsMint s t) : OwnsMint s' t' := by
  intro k n organization percent hcall hpc hk
  obtain ⟨hs, _, hg⟩ := he.goes (by rw [hpc]; rfl)
  rw [hs]
  show ∃ o ∈ s.organizations, o.id = organization
  rw [hpc] at hg
  cases hg with
  | plain hplain => cases hplain
  | proceeds _ _ _ _ _ _ _ hproceed => cases proceeds_of_ok hproceed
  | takesUser _ _ hattr => cases hattr
  | mints hcall' hk' hfrom =>
    rw [he.call, hcall'] at hcall
    cases hcall
    rw [hk] at hk'
    cases hk'
    rcases hfrom with hchecked | ⟨m, hminting⟩
    · unfold checkOwner at hchecked
      dsimp only at hchecked
      split at hchecked
      · cases hchecked
      · rename_i o hfind
        exact ⟨o, Table.mem_of_find? hfind, by simpa using Table.prop_of_find? hfind⟩
    · exact h _ _ _ _ hcall' hminting hk

/-! ### What the steps of others leave -/

theorem TeamChannel.kept {id : Uuid} (hk : ReferralKept s t s₁)
    (h : TeamChannel s id organization) : TeamChannel s₁ id organization := by
  obtain ⟨ch, hch, hid, ho⟩ := h
  obtain ⟨ch', hch', hid', ho'⟩ := hk.channels ch hch
  exact ⟨ch', hch', hid'.trans hid, ho'.trans ho⟩

theorem Stored.kept {a : CustomerAttribution} (hk : ReferralKept s t s₁)
    (h : Stored s a) : Stored s₁ a := by
  obtain ⟨r, hr, hid, hu⟩ := h
  obtain ⟨r', hr', hid', hu'⟩ := hk.attributions r hr
  exact ⟨r', hr', hid'.trans hid, hu'.trans hu⟩

/-- A check of an attribution holds on under its locks. -/
theorem Passed.kept (hG : SelfInv s) (hk : ReferralKept s t s₁) (hu : Locked s u)
    (hapart : ApartRows t u) (huser : .user user ∈ u.held) (h : Passed s u user channel) :
    Passed s₁ u user channel := by
  obtain ⟨ch, hch, rfl, hheld, hallowed⟩ := h
  obtain ⟨ch', hch', hid, ho⟩ := hk.channels ch hch
  refine ⟨ch', hch', hid, hid ▸ hheld, ?_⟩
  rw [ho]
  exact hallowed.kept hk fun organization hteam => not_mayJoin hG hu hapart huser hch hteam hheld

theorem CheckedOwns.kept (hG : SelfInv s) (hk : ReferralKept s t s₁) (hapart : ApartRows t u)
    (h : CheckedOwns s u next) : CheckedOwns s₁ u next := by
  cases next with
  | accepting invite =>
    obtain ⟨actor, raw, hcall, huser, hfree⟩ := h
    exact ⟨actor, raw, hcall, huser, hfree.kept hG hk fun hheld => hapart _ hheld huser⟩
  | saving f =>
    intro hactive
    rcases h hactive with hnone | ⟨huser, hfree⟩
    · exact .inl hnone
    · exact .inr ⟨huser, hfree.kept hG hk fun hheld => hapart _ hheld huser⟩
  | _ => trivial

theorem guard_frame (hG : SelfInv s) (hk : ReferralKept s t s₁) (hapart : ApartRows t u)
    (h : OwnsGuard s u) : OwnsGuard s₁ u := by
  unfold OwnsGuard at h ⊢
  split at h
  · exact h
  · exact h
  · exact h
  · obtain ⟨organization, hteam, h⟩ := h
    exact ⟨organization, hteam.kept hk, h⟩
  · obtain ⟨organization, hteam, h⟩ := h
    exact ⟨organization, hteam.kept hk, h⟩
  · exact h.kept hG hk hapart
  · obtain ⟨actor, raw, hcall, huser, hfree, hfound⟩ := h
    exact ⟨actor, raw, hcall, huser, hfree.kept hG hk fun hheld => hapart _ hheld huser, hfound⟩
  · trivial

theorem attribution_frame (hG : SelfInv s) (hk : ReferralKept s t s₁) (hu : Locked s u)
    (hapart : ApartRows t u) (h : OwnsAttribution s u) : OwnsAttribution s₁ u := by
  intro hattr
  obtain ⟨k, hcall, huser, hpc⟩ := h hattr
  refine ⟨k, hcall, huser, ?_⟩
  split at hpc
  · exact hpc
  · obtain ⟨hku, hpassed⟩ := hpc
    exact ⟨hku, hpassed.kept hG hk hu hapart (hku ▸ huser)⟩
  · exact ⟨hpc.1, hpc.2.kept hk⟩
  · obtain ⟨hku, hstored, channel, hk', hpassed⟩ := hpc
    exact ⟨hku, hstored.kept hk, channel, hk', hpassed.kept hG hk hu hapart (hku ▸ huser)⟩
  · trivial

theorem mint_frame (hk : ReferralKept s t s₁) (h : OwnsMint s u) : OwnsMint s₁ u := by
  intro k n organization percent hcall hpc hcreates
  obtain ⟨o, ho, hid⟩ := h k n organization percent hcall hpc hcreates
  obtain ⟨o', ho', hid'⟩ := hk.organizations o ho
  exact ⟨o', ho', hid'.trans hid⟩

/-! ## What the writes do -/

/-- A write to other tables, and perhaps to the memberships. -/
theorem ReferralKept.of_rows (ho : ∀ o ∈ s.organizations, ∃ o' ∈ s₁.organizations, o'.id = o.id)
    (hch : s₁.channels = s.channels) (ha : s₁.attributions = s.attributions)
    (hm : ∀ m' ∈ s₁.memberships, m'.status = .active →
      (∃ m ∈ s.memberships, m.organization = m'.organization ∧ m.user = m'.user
        ∧ m.status = .active)
      ∨ MayJoin s t m'.user m'.organization) : ReferralKept s t s₁ where
  organizations := ho
  channels ch hmem := ⟨ch, hch ▸ hmem, rfl, rfl⟩
  newChannel ch' hmem := .inl ⟨ch', hch ▸ hmem, rfl, rfl⟩
  attributions a hmem := ⟨a, ha ▸ hmem, rfl, rfl⟩
  newAttribution a' hmem := .inl ⟨a', ha ▸ hmem, rfl, rfl⟩
  newMember := hm

theorem ReferralKept.of_same (ho : s₁.organizations = s.organizations)
    (hch : s₁.channels = s.channels) (ha : s₁.attributions = s.attributions)
    (hm : s₁.memberships = s.memberships) : ReferralKept s t s₁ :=
  .of_rows (fun o hmem => ⟨o, ho ▸ hmem, rfl⟩) hch ha
    fun m' hmem hactive => .inl ⟨m', hm ▸ hmem, rfl, rfl, hactive⟩

/-- A save of a membership. -/
theorem ReferralKept.of_save {id : Uuid} {f : Membership → Membership}
    (hs : saveMembershipRow s id f = .ok s₁)
    (hf : ∀ m ∈ s.memberships, m.id = id → (f m).status = .active →
      (m.organization = (f m).organization ∧ m.user = (f m).user ∧ m.status = .active)
      ∨ MayJoin s t (f m).user (f m).organization) : ReferralKept s t s₁ := by
  have hmembers : ∀ m' ∈ s₁.memberships, m'.status = .active →
      (∃ m ∈ s.memberships, m.organization = m'.organization ∧ m.user = m'.user
        ∧ m.status = .active)
      ∨ MayJoin s t m'.user m'.organization := by
    intro m' hm' hactive
    obtain ⟨m, hm, rfl⟩ := (mem_saveMembershipRow hs).1 hm'
    by_cases hid : m.id = id
    · rw [rewrite_pos f (by simpa using hid)] at hactive ⊢
      exact (hf m hm hid hactive).imp_left fun hsame => ⟨m, hm, hsame⟩
    · rw [rewrite_neg f (by simpa using hid)] at hactive ⊢
      exact .inl ⟨m, hm, rfl, rfl, hactive⟩
  obtain ⟨memberships, _, rfl⟩ := saveMembershipRow_cases hs
  exact .of_rows (fun o hmem => ⟨o, hmem, rfl⟩) rfl rfl hmembers

/-- A transfer of ownership changes roles alone. -/
theorem ReferralKept.of_promote {target : Membership} {membership : Uuid} {a : ReferralAnswer}
    (hp : promote s target membership = .ok (s₁, a)) : ReferralKept s t s₁ := by
  rcases promote_cases hp with rfl | ⟨m, s₂, _, _, _, _, h₂, h₃⟩
  · exact .of_same rfl rfl rfl rfl
  · have hmembers : ∀ m' ∈ s₁.memberships, m'.status = .active →
        ∃ m ∈ s.memberships, m.organization = m'.organization ∧ m.user = m'.user
          ∧ m.status = .active := by
      intro m' hm' hactive
      obtain ⟨m₂, hm₂, rfl⟩ := (mem_saveMembershipRow h₃).1 hm'
      obtain ⟨m₁, hm₁, rfl⟩ := (mem_saveMembershipRow h₂).1 hm₂
      refine ⟨m₁, hm₁, ?_⟩
      unfold rewrite at hactive ⊢
      split at hactive <;> split at hactive <;> simp_all
    obtain ⟨_, _, rfl⟩ := saveMembershipRow_cases h₃
    obtain ⟨_, _, rfl⟩ := saveMembershipRow_cases h₂
    exact .of_rows (fun o hmem => ⟨o, hmem, rfl⟩) rfl rfl fun m' hm' hactive =>
      .inl (hmembers m' hm' hactive)

/-- A membership after forms are saved is as before, or as a form has it. -/
theorem mem_saveForms {uuid : Nat → Uuid} {n : Nat} {fs : List MembershipForm}
    (h : saveForms s uuid n fs = .ok s₁) {r : Membership} (hr : r ∈ s₁.memberships) :
    r ∈ s.memberships ∨ ∃ f ∈ fs, r.organization = f.organization ∧ r.user = f.user
      ∧ r.status = f.status := by
  induction fs generalizing s n with
  | nil =>
    obtain rfl : s = s₁ := Except.ok.inj h
    exact .inl hr
  | cons f fs ih =>
    obtain ⟨s₂, h₂, h⟩ := bind_ok h
    rcases ih h with hmem | ⟨g, hg, hrow⟩
    · have hform : r ∈ s.memberships
          ∨ (r.organization = f.organization ∧ r.user = f.user ∧ r.status = f.status) := by
        unfold saveForm at h₂
        split at h₂
        · obtain ⟨q, hq, rfl⟩ := (mem_saveMembershipRow h₂).1 hmem
          unfold rewrite
          split
          · exact .inr ⟨rfl, rfl, rfl⟩
          · exact .inl hq
        · split at h₂
          · cases h₂
          rename_i memberships hi
          cases h₂
          rcases (Table.mem_insert hi).1 hmem with hq | rfl
          · exact .inl hq
          · exact .inr ⟨rfl, rfl, rfl⟩
      exact hform.imp_right fun hrow => ⟨f, List.mem_cons_self, hrow⟩
    · exact .inr ⟨g, List.mem_cons_of_mem _ hg, hrow⟩

/-- A form that saves an active membership has been guarded, or is asked not to need it. -/
theorem mayJoin_of_form {fs : List MembershipForm} {f : MembershipForm} (hlocal : OwnsGuard s t)
    (hok : ∀ j ∈ unguarded s t, mayJoin s t j.1 j.2 = true) (hforms : forms? t = some fs)
    (hf : f ∈ fs) (hactive : f.status = .active) : MayJoin s t f.user f.organization := by
  unfold forms? at hforms
  split at hforms
  · rename_i g _ hpc hcall
    cases hforms
    obtain rfl := List.mem_singleton.1 hf
    by_cases hheld : holdsChannel s t f.organization = true
    · rw [OwnsGuard, hpc] at hlocal
      rcases hlocal hactive with hnone | ⟨huser, hfree⟩
      · unfold holdsChannel at hheld
        split at hheld
        · cases hheld
        · exact absurd (of_decide_eq_true hheld) (hnone _)
      · exact .holds huser hfree
    · rw [Bool.not_eq_true] at hheld
      have hlist : unguarded s t = [(f.user, f.organization)] := by
        rw [unguarded, hpc, hcall]
        exact if_pos ⟨hactive, hheld⟩
      exact .free (hok (f.user, f.organization) (hlist ▸ List.mem_singleton.2 rfl))
  · rename_i hpc hcall
    cases hforms
    refine .free (hok (f.user, f.organization) ?_)
    rw [unguarded, hpc, hcall]
    exact List.mem_map.2 ⟨f, List.mem_filter.2 ⟨hf, by simpa using hactive⟩, rfl⟩
  · cases hforms

/-- An invite is written over the membership of its actor, or is asked not to matter. -/
theorem mayJoin_of_rejoin {invite : OrganizationInvite} {m r : Membership} (hlocal : OwnsGuard s t)
    (hok : ∀ j ∈ unguarded s t, mayJoin s t j.1 j.2 = true) (hpc : t.pc = .joining invite (some m))
    (hne : joined invite m ≠ m) (hr : r ∈ s.memberships) (hid : r.id = m.id) :
    MayJoin s t r.user r.organization := by
  rw [OwnsGuard, hpc] at hlocal
  obtain ⟨actor', raw', hcall', huser, hfree, hfound⟩ := hlocal
  obtain ⟨ho, hu⟩ := hfound m rfl
  by_cases hsame : r.user = m.user ∧ r.organization = m.organization
  · rw [hsame.1, hsame.2, ho, hu]
    exact .holds huser hfree
  · refine .free (hok (r.user, r.organization) ?_)
    have hrewrites : rewrites? (.joining invite (some m)) = some m := rewrites?_of_ne rfl hne
    have hlist : unguarded s t = (s.memberships.rows.filter fun r =>
        r.id = m.id && (r.user ≠ m.user || r.organization ≠ m.organization)).map
          fun r => (r.user, r.organization) := by
      rw [unguarded, hpc]
      dsimp only
      rw [hrewrites]
    rw [hlist]
    refine List.mem_map.2 ⟨r, List.mem_filter.2 ⟨hr, ?_⟩, rfl⟩
    simp only [hid, decide_true, Bool.true_and, Bool.or_eq_true, decide_eq_true_eq]
    exact not_and_or.1 hsame

theorem insertAttribution_rows {a : NewAttribution} {pending : Option Uuid} {ans : ReferralAnswer}
    (h : insertAttribution s a pending v = .ok (s₁, ans)) :
    s.attributions.insert? (a.row (v.uuid 0) v.now) = some s₁.attributions
      ∧ s₁.channels = s.channels ∧ s₁.organizations = s.organizations
        ∧ s₁.memberships = s.memberships := by
  obtain ⟨attributions, s₂, hi, hb, rfl⟩ := insertAttribution_cases h
  obtain ⟨_, hp⟩ := elim_dropPending s₂ pending
  rw [hp]
  rcases creditBonus_cases hb with rfl | ⟨_, _, _, _, _, _, _, _, _, _, _, _, rfl⟩
  · exact ⟨hi, rfl, rfl, rfl⟩
  · exact ⟨hi, rfl, rfl, rfl⟩

/-- An attribution that has passed its check is inserted. -/
theorem ReferralKept.of_attribution {a : NewAttribution} {pending : Option Uuid}
    {ans : ReferralAnswer} (hlocal : OwnsAttribution s t) (hpc : t.pc = .inserting a pending)
    (hs : insertAttribution s a pending v = .ok (s₁, ans)) : ReferralKept s t s₁ := by
  obtain ⟨hi, hch, ho, hm⟩ := insertAttribution_rows hs
  obtain ⟨k, _, huser, hknown⟩ := hlocal (by rw [hpc]; rfl)
  rw [hpc] at hknown
  obtain ⟨hu, ch, hmem, hid, _, hallowed⟩ := hknown
  have hsame : ReferralKept s t { s₁ with attributions := s.attributions } := .of_same ho hch rfl hm
  refine { hsame with attributions := fun r hr => ?_, newAttribution := fun a' ha' => ?_ }
  · exact ⟨r, (Table.mem_insert hi).2 (.inl hr), rfl, rfl⟩
  · rcases (Table.mem_insert hi).1 ha' with ha' | rfl
    · exact .inl ⟨a', ha', rfl, rfl⟩
    · right
      have huser' : .user a.user ∈ t.held := hu ▸ huser
      exact ⟨hm, huser', ch, hmem, hid, hallowed⟩

/-- An attribution that has passed its check is moved. -/
theorem ReferralKept.of_move {a : CustomerAttribution} (hlocal : OwnsAttribution s t)
    (hcall : t.call = .attribution (.transfer user channel)) (hpc : t.pc = .moved a) :
    ReferralKept s t (moveAttribution s a channel).1 := by
  obtain ⟨k, hk, huser, hknown⟩ := hlocal (by rw [hpc]; rfl)
  rw [hcall] at hk
  cases hk
  rw [hpc] at hknown
  obtain ⟨hu, ⟨q, hq, hqid, hqu⟩, channel', hchannel, ch, hmem, hid, _, hallowed⟩ := hknown
  cases hchannel
  have hsame : ReferralKept s t
      { (moveAttribution s a channel).1 with attributions := s.attributions } :=
    .of_same rfl rfl rfl rfl
  refine { hsame with attributions := fun r hr => ?_, newAttribution := fun a' ha' => ?_ }
  · refine ⟨_, List.mem_map.2 ⟨r, hr, rfl⟩, ?_⟩
    unfold rewrite
    split <;> exact ⟨rfl, rfl⟩
  · obtain ⟨r, hr, rfl⟩ := List.mem_map.1 ha'
    by_cases hra : r.id = a.id
    · right
      rw [rewrite_pos _ (by simpa using hra)]
      -- the row with the key is the one that was read
      obtain rfl : r = q := Table.eq_of_clash hr hq (.inl (hra.trans hqid.symm))
      have hru : r.user = user := hqu.trans hu
      refine ⟨rfl, ?_, ch, hmem, hid, ?_⟩
      · show LockedRow.user r.user ∈ t.held
        rw [hru]
        exact huser
      · show Allowed s r.user ch.owner
        rw [hqu]
        exact hallowed
    · left
      rw [rewrite_neg _ (by simpa using hra)]
      exact ⟨r, hr, rfl, rfl⟩

/-- A channel that is made is of an organization there is. -/
theorem ReferralKept.of_mint {k : ChannelCall} {owner : ChannelOwner} {percent : Int} {n : Nat}
    {a : ReferralAnswer} (hlocal : OwnsMint s t) (hcall : t.call = .channel k)
    (hk : k.creates? = some (owner, percent)) (hpc : t.pc = .minting n)
    (hs : createChannelAndLink s owner percent v = some (.ok (s₁, a))) : ReferralKept s t s₁ := by
  obtain ⟨share, channels, links, _, hi, _, rfl⟩ := createChannel_cases hs
  have hsame : ReferralKept s t { s with links } := .of_same rfl rfl rfl rfl
  refine { hsame with channels := fun ch hch => ?_, newChannel := fun ch' hch' => ?_ }
  · exact ⟨ch, (Table.mem_insert hi).2 (.inl hch), rfl, rfl⟩
  · rcases (Table.mem_insert hi).1 hch' with hch' | rfl
    · exact .inl ⟨ch', hch', rfl, rfl⟩
    · refine .inr ⟨fun ch hch hid => Table.apart_of_insert hi hch (.inl hid),
        fun organization ho => ?_⟩
      obtain rfl : owner = .team organization := ho
      exact hlocal k n organization percent hcall hpc hk

/-- **What a step does to the rows the guards read.** -/
theorem write_rows (hw : ReferralWrite c s t x s₁) (hlocal : SelfLocal s t)
    (hok : ∀ j ∈ unguarded s t, mayJoin s t j.1 j.2 = true) : ReferralKept s t s₁ := by
  cases hw with
  | stays => exact .of_same rfl rfl rfl rfl
  | creates hc =>
    obtain ⟨hm, ⟨o, hoid, ho⟩, hch, ha⟩ := createOrganization_cases hc
    refine .of_rows (fun o' hmem => ⟨o', (Table.mem_insert ho).2 (.inl hmem), rfl⟩) hch ha ?_
    intro m' hm' hactive
    rcases (Table.mem_insert hm).1 hm' with hm' | rfl
    · exact .inl ⟨m', hm', rfl, rfl, hactive⟩
    · refine .inr (.founds fun o' hmem hid => Table.apart_of_insert ho hmem ?_)
      exact .inl (hid.trans hoid.symm)
  | @setsStatus o status =>
    refine .of_rows (fun o' hmem => ⟨_, List.mem_map.2 ⟨o', hmem, rfl⟩, ?_⟩) rfl rfl
      fun m' hm' hactive => .inl ⟨m', hm', rfl, rfl, hactive⟩
    unfold rewrite
    split <;> rfl
  | promotes _ _ _ hp => exact .of_promote hp
  | setsRole _ _ hs =>
    obtain ⟨target, r, _, _, _, hs⟩ := setRole_cases hs
    exact .of_save hs fun m _ _ hactive => .inl ⟨rfl, rfl, hactive⟩
  | revokes _ _ hs =>
    rcases revoke_cases hs with rfl | ⟨target, _, _, hs⟩
    · exact .of_same rfl rfl rfl rfl
    · exact .of_save hs fun m _ _ hactive => by cases hactive
  | writesInvite _ _ _ hi =>
    obtain ⟨_, rfl⟩ := writeInvite_cases hi
    exact .of_same rfl rfl rfl rfl
  | revokesInvite _ hi =>
    obtain ⟨_, rfl⟩ := revokeInvite_cases hi
    exact .of_same rfl rfl rfl rfl
  | expires _ _ =>
    obtain ⟨_, hexpired⟩ := expire_cases s _
    rw [hexpired]
    exact .of_same rfl rfl rfl rfl
  | accepts _ _ _ => exact .of_same rfl rfl rfl rfl
  | @joins actor raw invite id memberships hcall hpc hm =>
    have hguard := hlocal.guard
    rw [OwnsGuard, hpc] at hguard
    obtain ⟨actor', raw', hcall', huser, hfree, _⟩ := hguard
    obtain ⟨rfl, rfl⟩ : actor' = actor ∧ raw' = raw := by simpa using hcall'.symm.trans hcall
    refine .of_rows (fun o hmem => ⟨o, hmem, rfl⟩) rfl rfl fun m' hm' hactive => ?_
    rcases (Table.mem_insert hm).1 hm' with hm' | rfl
    · exact .inl ⟨m', hm', rfl, rfl, hactive⟩
    · exact .inr (.holds huser hfree)
  | rejoins hcall hpc hne _ hs =>
    refine { ReferralKept.of_save hs fun r hr hid _ => ?_ with }
    have hjoin := mayJoin_of_rejoin hlocal.guard hok hpc hne hr hid
    exact .inr hjoin
  | saves hforms _ hs =>
    have hmembers := fun r hr => mem_saveForms hs (r := r) hr
    obtain ⟨memberships, rfl⟩ := saveForms_cases hs
    refine .of_rows (fun o hmem => ⟨o, hmem, rfl⟩) rfl rfl fun m' hm' hactive => ?_
    rcases hmembers m' hm' with hold | ⟨f, hf, ho, hu, hstatus⟩
    · exact .inl ⟨m', hold, rfl, rfl, hactive⟩
    · rw [ho, hu]
      exact .inr (mayJoin_of_form hlocal.guard hok hforms hf (hstatus.symm.trans hactive))
  | records _ _ _ => exact .of_same rfl rfl rfl rfl
  | drops _ => exact .of_same rfl rfl rfl rfl
  | attributes _ hpc hs => exact .of_attribution hlocal.attribution hpc hs
  | moves hcall hpc => exact .of_move hlocal.attribution hcall hpc
  | mints hcall hk hpc hs => exact .of_mint hlocal.mint hcall hk hpc hs
  | @resettles id isActive share _ =>
    have hsame : ReferralKept s t s := .of_same rfl rfl rfl rfl
    have hrow : ∀ ch : PartnerChannel,
      (rewrite (·.id = id) (resettled isActive share) ch).id = ch.id
        ∧ (rewrite (·.id = id) (resettled isActive share) ch).owner = ch.owner := by
      intro ch
      unfold rewrite
      split <;> exact ⟨rfl, rfl⟩
    refine { hsame with channels := fun ch hch => ?_, newChannel := fun ch' hch' => ?_ }
    · exact ⟨_, List.mem_map.2 ⟨ch, hch, rfl⟩, hrow ch⟩
    · obtain ⟨ch, hch, rfl⟩ := List.mem_map.1 hch'
      exact .inl ⟨ch, hch, (hrow ch).1.symm, (hrow ch).2.symm⟩
  | relinks _ _ _ _ _ => exact .of_same rfl rfl rfl rfl
  | visits _ _ _ => exact .of_same rfl rfl rfl rfl
  | registers hs =>
    obtain ⟨_, _, _, rfl⟩ := registerPerson_cases hs
    exact .of_same rfl rfl rfl rfl
  | posts _ _ => exact .of_same rfl rfl rfl rfl

theorem effect_rows (he : Effect c s t x s' t') (hlocal : SelfLocal s t)
    (hok : ∀ j ∈ unguarded s t, mayJoin s t j.1 j.2 = true) : ReferralKept s t s' := by
  obtain ⟨s₁, hw, hs⟩ := he.write
  have hkept := write_rows hw hlocal hok
  rw [hs]
  exact { hkept with }

/-- **The invariant of attributions and memberships, whatever the calls and their order.** -/
theorem selfInvariant (c : ReferralSettings) :
    Invariant (referralProgram c) SelfInv KeepsApart SelfInv SelfLocal ApartRows where
  init h := h
  start k _ := {
    locked := fun _ hrow => (List.not_mem_nil hrow).elim
    guard := rfl
    attribution := ownsAttribution_of_not rfl
    mint := fun _ _ _ _ _ hpc => by cases hpc }
  apart_start k _ := .start (c := c) k
  symm h := h.symm
  step := by
    intro s t x s' t' hG hL hok hstep
    have he := referralStep_effect hstep
    exact ⟨hG.kept (effect_rows he hL hok), he.taken hL.locked, guard_step he hL.guard,
      attribution_step he hL.attribution, mint_step he hL.mint⟩
  frame := by
    intro s t x s' t' u hG hL hok hstep hLu hR
    have he := referralStep_effect hstep
    have hk := effect_rows he hL hok
    obtain ⟨hlocked, hapart⟩ := he.frame hLu.locked hR
    exact ⟨⟨hlocked, guard_frame hG hk hR hLu.guard,
      attribution_frame hG hk hLu.locked hR hLu.attribution, mint_frame hk hLu.mint⟩, hapart⟩

/--
**No user is attributed to a channel they own, nor to a channel of an organization
they are an active member of**, in any state of any run in which nobody becomes an
active member without a guard while a customer, or about to be one, of the
organization's channel.
-/
theorem self_referral_sound {g : Config ReferralDb ReferralThread}
    (h : (referralProgram c).ReachWhere SelfInv KeepsApart g) :
    ∀ a ∈ g.store.attributions, ∀ ch ∈ g.store.channels, ch.id = a.partnerChannel →
      ch.owner ≠ .individual a.user
        ∧ ∀ organization, ch.owner = .team organization →
          ∀ m ∈ g.store.memberships, m.organization = organization → m.user = a.user
            → m.status ≠ .active := by
  intro a ha ch hch hid
  have hallowed := ((selfInvariant c).reach h).store.apart a ha ch hch hid
  refine ⟨fun howner => ?_, fun organization howner m hm ho hu hactive => ?_⟩
  · rw [howner] at hallowed
    exact hallowed rfl
  · rw [howner] at hallowed
    have hmember : g.store.activeMember organization a.user = true :=
      activeMember_iff.2 ⟨m, hm, ho, hu, hactive⟩
    have hnone : g.store.activeMember organization a.user = false := hallowed
    rw [hmember] at hnone
    cases hnone

end Guards

/-! ## A customer who becomes a member -/

theorem selfInv_twoPeople : SelfInv twoPeople where
  channels a ha := absurd ha (Table.not_mem_empty a)
  organizations ch hch := absurd hch (Table.not_mem_empty ch)
  apart a ha := absurd ha (Table.not_mem_empty a)

/-- The founder creates the company. -/
def creating : List (Act ReferralCall ReferralInput) :=
  .call 0 (.organization (.createOrganization "Company" founder.id .active))
    :: referralSteps 0 1 0 ""

/-- The company gets a channel, and the guest becomes its customer. -/
def attributing : List (Act ReferralCall ReferralInput) :=
  .call 1 (.channel (.createTeam company 2000)) :: referralSteps 1 2 3 "rs7Qk0mVnXbW2tYd"
    ++ .call 2 (.attribution (.assign guest.id companyChannel)) :: referralSteps 2 3 4 ""

/-- A form that makes the guest a member of the company. -/
def guestForm : MembershipForm := ⟨none, company, guest.id, .member, .active⟩

/-- The guest is a customer of the company's channel. -/
def isCustomer (g : Config ReferralDb ReferralThread) : Bool :=
  g.store.attributions.rows.any fun a => a.user = guest.id && a.partnerChannel = companyChannel

/-- And an active member of the company. -/
def isBoth (g : Config ReferralDb ReferralThread) : Bool :=
  isCustomer g && g.store.activeMember company guest.id
    && g.store.channels.rows.any fun ch => ch.id = companyChannel && ch.owner = .team company

/-- The guest is a customer; the form of a membership is refused. -/
theorem self_referral_sound_refused : ∃ g, isCustomer g = true
    ∧ ∀ a ∈ g.store.attributions, ∀ ch ∈ g.store.channels, ch.id = a.partnerChannel →
      ch.owner ≠ .individual a.user
        ∧ ∀ organization, ch.owner = .team organization →
          ∀ m ∈ g.store.memberships, m.organization = organization → m.user = a.user
            → m.status ≠ .active := by
  have hrun : ∃ g, (referralProgram referralSettings).ReachWhere SelfInv KeepsApart g
      ∧ isCustomer g = true :=
    Program.reachWhere_check (fun s t _ => (unguarded s t).all fun j => mayJoin s t j.1 j.2)
      (fun _ _ _ h => List.all_eq_true.1 h) selfInv_twoPeople
      (creating ++ attributing ++ .call 3 (.admin (.saveMembership guestForm))
        :: referralSteps 3 4 5 "")
      isCustomer (by decide)
  obtain ⟨g, hg, hcustomer⟩ := hrun
  exact ⟨g, hcustomer, self_referral_sound hg⟩

/-- A customer of a channel of an organization that they are an active member of. -/
def OwnCustomer (s : ReferralDb) : Prop :=
  ∃ a ∈ s.attributions, ∃ ch ∈ s.channels, ch.id = a.partnerChannel ∧ ∃ organization,
    ch.owner = .team organization
      ∧ ∃ m ∈ s.memberships, m.organization = organization ∧ m.user = a.user ∧ m.status = .active

theorem ownCustomer_of_isBoth {g : Config ReferralDb ReferralThread} (h : isBoth g = true) :
    OwnCustomer g.store := by
  unfold isBoth isCustomer at h
  simp only [Bool.and_eq_true, List.any_eq_true, decide_eq_true_eq] at h
  obtain ⟨⟨⟨a, ha, hu, hid⟩, hmember⟩, ch, hch, hcid, ho⟩ := h
  obtain ⟨m, hm, horg, huser, hactive⟩ := activeMember_iff.1 hmember
  exact ⟨a, ha, ch, hch, hcid.trans hid.symm, company, ho, m, hm, horg,
    huser.trans hu.symm, hactive⟩

/-- Forms in line are not saved. -/
def offLine (t : ReferralThread) : Bool :=
  match t.call with
  | .admin (.saveInlines _) => false
  | _ => true

/--
**A member who is a customer of their own organization.** The forms in line have no
guard. And the form of a membership whose guard found no channel is saved when one has
been made since, and the user attributed to it.
-/
theorem self_referral_admin :
    (∃ g, (referralProgram referralSettings).Reach SelfInv g ∧ OwnCustomer g.store)
    ∧ ∃ g, (referralProgram referralSettings).ReachWhere SelfInv (fun _ t _ => offLine t = true) g
      ∧ OwnCustomer g.store := by
  refine ⟨?_, ?_⟩
  · have hrun : ∃ g, (referralProgram referralSettings).ReachWhere SelfInv (fun _ _ _ => True) g
        ∧ isBoth g = true :=
      Program.reachWhere_check (fun _ _ _ => true) (fun _ _ _ _ => trivial) selfInv_twoPeople
        (creating ++ attributing ++ .call 3 (.admin (.saveInlines [guestForm]))
          :: referralSteps 3 2 5 "")
        isBoth (by decide)
    obtain ⟨g, hg, hboth⟩ := hrun
    exact ⟨g, hg, ownCustomer_of_isBoth hboth⟩
  · have hrun : ∃ g, (referralProgram referralSettings).ReachWhere SelfInv
      (fun _ t _ => offLine t = true) g
        ∧ isBoth g = true :=
      Program.reachWhere_check (fun _ t _ => offLine t) (fun _ _ _ h => h) selfInv_twoPeople
        (creating ++ .call 3 (.admin (.saveMembership guestForm)) :: referralSteps 3 2 5 ""
          ++ attributing ++ referralSteps 3 1 5 "")
        isBoth (by decide)
    obtain ⟨g, hg, hboth⟩ := hrun
    exact ⟨g, hg, ownCustomer_of_isBoth hboth⟩

end Roamkit.Partner.Proof
