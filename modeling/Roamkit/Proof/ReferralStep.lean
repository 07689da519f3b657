import Roamkit.Proof.ReferralMove

/-!
# Every step has its effect

One lemma for each place a call may be at, and `referralStep_effect` that puts them
together.
-/

namespace Roamkit.Partner.Proof

open Lib Billing Organizations Partner Billing.Proof

variable {actor user : UserId} {uuid : Nat → Uuid} {a : ReferralAnswer}
  {channel id membership organization visit : Uuid} {pending : Option Uuid} {percent : Int}
  {next : Checked} {pc : ReferralPc} {row : LockedRow} {k : AttributionCall} {held : List LockedRow}
  {p : PendingPartnerAttribution} {now : Time}

section Steps

variable {c : ReferralSettings} {s s' s₁ : ReferralDb} {t t' : ReferralThread} {x : ReferralInput}
  {v : ReferralView}

/-! ## Locks that no write touches -/

/-- The tables a new organization is written to. -/
theorem createOrganization_tables {name : String} {status : OrganizationStatus}
    (h : createOrganization s name actor status uuid = .ok (s₁, a)) :
    ∃ accounts organizations memberships books, s₁
      = { s with accounts, organizations, memberships, books } := by
  unfold createOrganization at h
  dsimp only at h
  split at h
  · cases h
  split at h
  · cases h
  split at h
  · cases h
    exact ⟨_, _, _, _, rfl⟩
  · cases h

theorem createOrganization_locks {name : String} {status : OrganizationStatus}
    (h : createOrganization s name actor status uuid = .ok (s₁, a)) : s₁.locks = s.locks := by
  obtain ⟨_, _, _, _, rfl⟩ := createOrganization_tables h
  rfl

theorem saveMembershipRow_cases {f : Membership → Membership}
    (h : saveMembershipRow s id f = .ok s₁) :
    ∃ memberships, s.memberships.update? (·.id = id) f = some memberships
      ∧ s₁ = { s with memberships } := by
  unfold saveMembershipRow at h
  split at h
  · cases h
  rename_i memberships hu
  cases h
  exact ⟨memberships, hu, rfl⟩

theorem saveMembershipRow_locks {f : Membership → Membership}
    (h : saveMembershipRow s id f = .ok s₁) : s₁.locks = s.locks := by
  obtain ⟨_, _, rfl⟩ := saveMembershipRow_cases h
  rfl

/-- What `transfer_ownership` has found when it returns. -/
theorem promote_cases {target : Membership} (h : promote s target membership = .ok (s₁, a)) :
    s₁ = s ∨ ∃ actorMembership s₂, actorMembership ∈ s.memberships ∧ actorMembership.id = membership
      ∧ actorMembership.role = .owner ∧ target.id ≠ actorMembership.id
      ∧ saveMembershipRow s actorMembership.id (fun m => { m with role := .admin }) = .ok s₂
      ∧ saveMembershipRow s₂ target.id (fun m => { m with role := .owner }) = .ok s₁ := by
  unfold promote at h
  split at h
  · cases h
  rename_i actorMembership hfind
  split at h
  · cases h
  rename_i hrole
  split at h
  · cases h
    exact .inl rfl
  · rename_i hne
    obtain ⟨s₂, h₂, h⟩ := bind_ok h
    obtain ⟨s₃, h₃, h⟩ := bind_ok h
    cases h
    exact .inr ⟨actorMembership, s₂, Table.mem_of_find? hfind, by
      simpa using Table.prop_of_find? hfind, not_not.1 hrole, hne, h₂, h₃⟩

theorem promote_locks {target : Membership} (h : promote s target membership = .ok (s₁, a)) :
    s₁.locks = s.locks := by
  rcases promote_cases h with rfl | ⟨_, s₂, _, _, _, _, h₂, h₃⟩
  · rfl
  · exact (saveMembershipRow_locks h₃).trans (saveMembershipRow_locks h₂)

/-- What `set_member_role` has found when it returns. -/
theorem setRole_cases {role : Option MembershipRole}
    (h : setRole s organization user role = .ok (s₁, a)) :
    ∃ target r, s.membership? organization user = some target ∧ target.status = .active
      ∧ target.role ≠ .owner
      ∧ saveMembershipRow s target.id (fun m => { m with role := InviteRole.membershipRole r })
        = .ok s₁ := by
  unfold setRole at h
  split at h
  · cases h
  rename_i target hfind
  split at h
  · cases h
  rename_i hactive
  split at h
  · cases h
  rename_i howner
  split at h
  · cases h
  rename_i r hr
  obtain ⟨s₂, h₂, h⟩ := bind_ok h
  cases h
  exact ⟨target, r, hfind, not_not.1 hactive, howner, h₂⟩

theorem setRole_locks {role : Option MembershipRole}
    (h : setRole s organization user role = .ok (s₁, a)) : s₁.locks = s.locks := by
  obtain ⟨_, _, _, _, _, hs⟩ := setRole_cases h
  exact saveMembershipRow_locks hs

/-- What `revoke_membership` has found when it returns. -/
theorem revoke_cases {role : MembershipRole} (h : revoke s organization user role = .ok (s₁, a)) :
    s₁ = s ∨ ∃ target, s.membership? organization user = some target
      ∧ ¬ (target.isActiveOwner ∧ s.activeOwnerCount organization ≤ 1)
      ∧ saveMembershipRow s target.id (fun m => { m with status := .revoked }) = .ok s₁ := by
  unfold revoke at h
  split at h
  · cases h
  rename_i target hfind
  split at h
  · cases h
    exact .inl rfl
  · split at h
    · cases h
    rename_i hlast
    split at h
    · cases h
    obtain ⟨s₂, h₂, h⟩ := bind_ok h
    cases h
    exact .inr ⟨target, hfind, hlast, h₂⟩

theorem revoke_locks {role : MembershipRole} (h : revoke s organization user role = .ok (s₁, a)) :
    s₁.locks = s.locks := by
  rcases revoke_cases h with rfl | ⟨_, _, _, hs⟩
  · rfl
  · exact saveMembershipRow_locks hs

theorem saveForm_cases {f : MembershipForm} (h : saveForm s f id = .ok s₁) :
    ∃ memberships, s₁ = { s with memberships } := by
  unfold saveForm at h
  split at h
  · obtain ⟨memberships, _, rfl⟩ := saveMembershipRow_cases h
    exact ⟨memberships, rfl⟩
  · split at h
    · cases h
    · cases h
      exact ⟨_, rfl⟩

theorem saveForms_cases {n : Nat} {fs : List MembershipForm} (h : saveForms s uuid n fs = .ok s₁) :
    ∃ memberships, s₁ = { s with memberships } := by
  induction fs generalizing s n with
  | nil =>
    obtain rfl : s = s₁ := Except.ok.inj h
    exact ⟨s.memberships, rfl⟩
  | cons f fs ih =>
    obtain ⟨s₂, h₂, h⟩ := bind_ok h
    obtain ⟨_, rfl⟩ := saveForm_cases h₂
    obtain ⟨memberships, rfl⟩ := ih h
    exact ⟨memberships, rfl⟩

theorem creditBonus_cases {a : CustomerAttribution}
    (h : creditRegistrationInviteBonus s a = .ok s₁) :
    s₁ = s ∨ ∃ account p books e, account ∈ s.accounts ∧ account.user = some a.user
      ∧ p.account = account.id ∧ p.credit = true ∧ p.referenceType = .partnerInviteBonus
      ∧ p.referenceId = a.id.str ∧ p.idempotencyKey = bonusKey a.user
      ∧ s.books.apply p = .ok (books, e) ∧ s₁ = { s with books } := by
  unfold creditRegistrationInviteBonus at h
  split at h
  · split at h
    · cases h
      exact .inl rfl
    · split at h
      · cases h
      rename_i account hfind
      obtain ⟨p, hp, h⟩ := bind_ok h
      obtain ⟨⟨books, e⟩, ha, h⟩ := bind_ok h
      cases h
      obtain ⟨_, hacc, hcredit, htype, href, hkey⟩ := preparePosting_eq hp
      exact .inr ⟨account, p, books, e, Table.mem_of_find? hfind, by
        simpa using Table.prop_of_find? hfind, hacc, hcredit, htype, href, hkey, ha, rfl⟩
  · cases h
    exact .inl rfl

/-- What the insert of an attribution does. -/
theorem insertAttribution_cases {a : NewAttribution} {ans : ReferralAnswer}
    (h : insertAttribution s a pending v = .ok (s₁, ans)) :
    ∃ attributions s₂, s.attributions.insert? (a.row (v.uuid 0) v.now) = some attributions
      ∧ creditRegistrationInviteBonus { s with attributions } (a.row (v.uuid 0) v.now) = .ok s₂
      ∧ s₁ = pending.elim s₂ (dropPending s₂) := by
  unfold insertAttribution at h
  dsimp only at h
  split at h
  · cases h
  rename_i attributions hi
  obtain ⟨s₂, hb, h⟩ := bind_ok h
  cases h
  exact ⟨attributions, s₂, hi, hb, rfl⟩

theorem elim_dropPending (s : ReferralDb) (pending : Option Uuid) :
    ∃ pendings, pending.elim s (dropPending s) = { s with pendings } := by
  cases pending with
  | none => exact ⟨s.pendings, rfl⟩
  | some id => exact ⟨_, rfl⟩

theorem insertAttribution_locks {a : NewAttribution} {ans : ReferralAnswer}
    (h : insertAttribution s a pending v = .ok (s₁, ans)) : s₁.locks = s.locks := by
  obtain ⟨attributions, s₂, _, hb, rfl⟩ := insertAttribution_cases h
  obtain ⟨_, hp⟩ := elim_dropPending s₂ pending
  rw [hp]
  rcases creditBonus_cases hb with rfl | ⟨_, _, _, _, _, _, _, _, _, _, _, _, rfl⟩
  · rfl
  · rfl

/-- What an attempt to make a channel does. -/
theorem createChannel_cases {owner : ChannelOwner}
    (h : createChannelAndLink s owner percent v = some (.ok (s₁, a))) :
    ∃ share channels links token, s.channels.insert? ⟨v.uuid 0, owner, share, true⟩ = some channels
      ∧ s.links.insert? (firstLink (v.uuid 1) (v.uuid 0) v.now token) = some links
      ∧ s₁ = { s with channels, links } := by
  unfold createChannelAndLink at h
  split at h
  · cases h
  rename_i share _
  dsimp only at h
  split at h
  · cases h
  rename_i channels hi
  obtain ⟨links, hl, h⟩ := map_ok (Option.some.inj h)
  cases h
  unfold withUniqueToken at hl
  split at hl
  · cases hl
  rename_i links hfind
  cases hl
  obtain ⟨n, _, hn⟩ := List.exists_of_findSome?_eq_some hfind
  exact ⟨share, channels, links, _, hi, hn, rfl⟩

theorem registerPerson_locks {p : Person} {account : Uuid}
    (h : registerPerson s p account = .ok (s₁, a)) : s₁.locks = s.locks := by
  unfold registerPerson at h
  split at h
  · cases h
    rfl
  · cases h

/-! ## Organization calls -/

/-- The membership that is looked up is that of the user in the organization. -/
theorem whose_membership? {m : Membership} (h : s.membership? organization user = some m) :
    m.organization = organization ∧ m.user = user := by
  have hprop := Table.prop_of_find? h
  simpa using hprop

theorem resolveStep_effect {k : OrganizationCall} {o : Organization} (hpc : t.pc = .resolved o)
    (hcall : t.call = .organization k) (hk : k.begin? = .ok (some (actor, id)))
    (h : resolveStep c s t k actor o = (s', t')) : Effect c s t x s' t' := by
  unfold resolveStep at h
  split at h
  · exact effect_raise h
  · rename_i pc hproceed
    obtain ⟨ctx, hctx, hproceed⟩ := bind_ok hproceed
    unfold resolveContext at hctx
    split at hctx
    · cases hctx
    rename_i m hfind
    split at hctx
    · rename_i hactive
      cases hctx
      obtain ⟨ho, hu⟩ := whose_membership? hfind
      exact effect_goto (.proceeds hpc hcall hk (Table.mem_of_find? hfind) ho hu hactive hproceed) h
    · cases hctx

theorem guardStep_effect (hpc : t.pc = .guarding user organization next)
    (h : guardStep s t user organization next = (s', t')) : Effect c s t x s' t' := by
  unfold guardStep at h
  split at h
  · rename_i hnone
    exact effect_goto (.unguarded hpc hnone rfl) h
  · rename_i channel hsome
    exact effect_goto (.guarded hpc hsome rfl) h

theorem lockUserStep_effect
    (hg : ∀ held, .user user ∈ held → (∀ row ∈ held, row ∈ t.held ∨ row = .user user) →
      ReferralGoes c s t x held pc) (h : lockUserStep s t user pc = some (s', t')) :
        Effect c s t x s' t' := by
  unfold lockUserStep at h
  split at h
  · exact effect_raise (Option.some.inj h)
  · obtain ⟨hgrant, h⟩ := lockThen_some h
    exact effect_hold_goto hgrant (hg _ (mem_hold_held.2 (.inr rfl)) fun _ => mem_hold_held.1) h

theorem isAttributed_hold :
    (s.hold t row).1.isAttributed user channel = s.isAttributed user channel := by
  rw [hold_db row]
  rfl

theorem lockChannelStep_effect (hpc : t.pc = .lockingChannel user channel next)
    (h : lockChannelStep s t user channel next = some (s', t')) : Effect c s t x s' t' := by
  obtain ⟨hgrant, h⟩ := lockThen_some h
  split at h
  · exact effect_hold_raise hgrant h
  · rename_i hfree
    rw [isAttributed_hold, Bool.not_eq_true] at hfree
    exact effect_hold_goto hgrant (.passes hpc (mem_hold_held.2 (.inr rfl)) hfree) h

theorem lockTargetStep_effect {newOwner : UserId}
    (hcall : t.call = .organization (.transferOwnership actor organization newOwner))
    (hpc : t.pc = .checked (.transferring membership))
    (h : lockTargetStep s t organization newOwner membership = some (s', t')) :
    Effect c s t x s' t' := by
  unfold lockTargetStep at h
  dsimp only at h
  split at h
  · exact effect_raise (Option.some.inj h)
  · rename_i target hfind
    obtain ⟨hgrant, h⟩ := lockThen_some h
    split at h
    · rename_i hactive
      exact effect_hold_goto hgrant
        (.locksTarget hcall hpc hfind hactive (mem_hold_held.2 (.inr rfl))) h
    · exact effect_hold_raise hgrant h

theorem grants_membershipRow
    (h : ∀ row ∈ membershipRow s organization user, s.grants t row = true) (m : Membership)
    (hm : s.membership? organization user = some m) : s.grants t (.membership m.id) = true := by
  refine h _ ?_
  unfold membershipRow
  rw [hm]
  exact List.mem_singleton_self _

theorem writeInvite_cases {email : String} {role : InviteRole}
    (h : writeInvite c s actor organization email role v = .ok (s₁, a)) :
    ∃ invites, s₁ = { s with invites } := by
  unfold writeInvite at h
  dsimp only at h
  split at h
  · split at h
    · cases h
    · cases h
      exact ⟨_, rfl⟩
  · split at h
    · cases h
    split at h
    · cases h
    · cases h
      exact ⟨_, rfl⟩

theorem revokeInvite_cases (h : revokeInvite s organization id = .ok (s₁, a)) :
    ∃ invites, s₁ = { s with invites } := by
  unfold revokeInvite at h
  split at h
  · cases h
  split at h
  · cases h
    exact ⟨s.invites, rfl⟩
  · cases h
    exact ⟨_, rfl⟩

theorem expire_cases (s : ReferralDb) (invite : OrganizationInvite) :
    ∃ invites, expire s invite = { s with invites } := by
  unfold expire
  split
  · exact ⟨_, rfl⟩
  · exact ⟨s.invites, rfl⟩

/-- A call that takes two rows and goes on. -/
theorem effect_hold_hold_goto {row' : LockedRow} (hgrant : s.grants t row = true)
    (hgrant' : s.grants t row' = true)
    (hg : ReferralGoes c s t x ((s.hold t row).1.hold (s.hold t row).2 row').2.held pc)
    (h : ((s.hold t row).1.hold (s.hold t row).2 row').1.goto
      ((s.hold t row).1.hold (s.hold t row).2 row').2 pc = (s', t')) : Effect c s t x s' t' := by
  have hdb : ((s.hold t row).1.hold (s.hold t row).2 row').1
      = { s with locks := ((s.hold t row).1.hold (s.hold t row).2 row').1.locks } := by
    rw [hold_db row', hold_db row]
  cases h
  exact {
    call := by
      show ((s.hold t row).1.hold (s.hold t row).2 row').2.call = t.call
      rw [hold_call, hold_call]
    write := ⟨s, .stays, hdb⟩
    locks := fun _ hrow _ => mem_hold_locks (mem_hold_locks hrow)
    free := fun r hr => by
      rcases mem_hold_held.1 hr with hr | rfl
      · exact hold_free hgrant r hr
      · exact free_of_grants hgrant'
    taken := fun hheld => hold_taken (hold_taken hheld)
    goes := fun _ => ⟨hdb, fun _ hrow => mem_hold_held.2 (.inl (mem_hold_held.2 (.inl hrow))), hg⟩
    failed := fun _ _ => by
      show ((s.hold t row).1.hold (s.hold t row).2 row').1.memberships = s.memberships
      rw [hdb] }

theorem seekInviteStep_effect {actor : Person} {raw : String} (hx : x = .go v)
    (hcall : t.call = .organization (.acceptInvite actor raw)) (hpc : t.pc = .seekingInvite)
    (h : seekInviteStep c s t actor raw v.now = some (s', t')) : Effect c s t x s' t' := by
  unfold seekInviteStep at h
  split at h
  · exact effect_raise (Option.some.inj h)
  · rename_i invite hfind
    obtain ⟨hgrant, h⟩ := await_some h
    split at h
    · exact effect_raise h
    · split at h
      · exact effect_raise h
      · exact effect_answer .stays rfl h
    · obtain ⟨invites, hexp⟩ := expire_cases s invite
      have hw : ReferralWrite c s t x (expire s invite) :=
        .expires (Table.mem_of_find? hfind) (hgrant _ List.mem_cons_self)
      have hl : (expire s invite).locks = s.locks := by
        rw [hexp]
      have hm : (expire s invite).memberships = s.memberships := by
        rw [hexp]
      exact effect_raise_after hw hl hm h
    · rename_i hjudged
      have htoken : invite.tokenHash = c.text.sha256 (PyText.strip raw) := by
        simpa using Table.prop_of_find? hfind
      exact effect_hold_hold_goto (hgrant _ List.mem_cons_self)
        (hgrant _ (List.mem_cons_of_mem _ List.mem_cons_self))
        (.guardsInvite hx hcall hpc (Table.mem_of_find? hfind) htoken hjudged
          (mem_hold_held.2 (.inl (mem_hold_held.2 (.inr rfl)))) (mem_hold_held.2 (.inr rfl))) h

theorem joinStep_effect {actor : Person} {raw : String} {invite : OrganizationInvite}
    {found : Option Membership} (hcall : t.call = .organization (.acceptInvite actor raw))
    (hpc : t.pc = .joining invite found)
    (h : joinStep s t actor.id invite found id = some (s', t')) : Effect c s t x s' t' := by
  unfold joinStep at h
  dsimp only at h
  split at h
  · split at h
    · rename_i memberships hi
      obtain ⟨_, h⟩ := await_some h
      exact effect_answer (.joins hcall hpc hi) rfl h
    · split at h
      · exact effect_raise (Option.some.inj h)
      · rename_i m hfind
        refine effect_goto (.joins hcall (.inr hpc) fun _ hm => ?_) (Option.some.inj h)
        cases hm
        exact ⟨Table.mem_of_find? hfind, whose_membership? hfind⟩
  · rename_i m
    split at h
    · rename_i hsame
      have hw : ReferralWrite c s t x (acceptInvite s invite actor.id) := .accepts hcall hpc hsame
      exact effect_answer hw rfl (Option.some.inj h)
    · rename_i hne
      obtain ⟨hgrant, h⟩ := await_some h
      refine effect_settle ?_ h
      intro s₁ a hs
      obtain ⟨s₂, h₂, hs⟩ := bind_ok hs
      cases hs
      have hlocks := saveMembershipRow_locks h₂
      exact ⟨.rejoins hcall hpc hne (hgrant _ List.mem_cons_self) h₂, hlocks⟩

/-! ## Attributions -/

theorem dropPending_hold :
    dropPending (s.hold t row).1 id
      = { (dropPending s id) with locks := (s.hold t row).1.locks } := by
  rw [hold_db row]
  rfl

/-- The end of a pending row. -/
theorem drop_write (id : Uuid) : ReferralWrite c s t x (dropPending s id) :=
  .drops fun _ hp => (Table.mem_remove.1 hp).1

theorem effect_hold_drop (hgrant : s.grants t row = true)
    (h : (dropPending (s.hold t row).1 id).answer (s.hold t row).2 a = (s', t')) :
    Effect c s t x s' t' := by
  exact effect_hold_answer hgrant (drop_write id) dropPending_hold h

theorem effect_hold_nothing (hgrant : s.grants t row = true)
    (h : (s.hold t row).1.answer (s.hold t row).2 a = (s', t')) : Effect c s t x s' t' :=
  effect_hold_answer hgrant .stays (hold_db row) h

/-- A call that has locked the user goes on to a place where it relies on that alone. -/
theorem goes_takesUser (hcall : t.call = .attribution k)
    (huser : attributes t.pc = true ∨ .user k.user ∈ held) (hattr : attributes pc = true)
    (hpc : match pc with
      | .inserting .. => False
      | .moved _ => False
      | .moving _ => False
      | .attributing .. => False
      | .visiting _ (some _) => False
      | _ => True) : ReferralGoes c s t x held pc := by
  refine .takesUser hcall huser hattr ?_ ?_ ?_ ?_ ?_ ?_
  · rintro a pending rfl
    exact hpc
  · rintro a rfl
    exact hpc
  · rintro a pending rfl
    exact hpc.elim
  · rintro a rfl
    exact hpc.elim
  · rintro visit id rfl
    exact hpc.elim
  · rintro a pending id rfl
    exact hpc.elim

/-- It goes by the visit of a pending row. -/
theorem goes_visiting (hcall : t.call = .attribution k)
    (huser : attributes t.pc = true ∨ .user k.user ∈ held) (hp : p ∈ s.pendings)
    (hvisit : p.inviteVisit = some visit) :
    ReferralGoes c s t x held (.visiting visit (some p.id)) := by
  refine .takesUser hcall huser rfl ?_ ?_ ?_ ?_ ?_ ?_
  · rintro _ _ ⟨⟩
  · rintro _ ⟨⟩
  · rintro _ _ ⟨⟩
  · rintro _ ⟨⟩
  · rintro _ _ ⟨⟩
    exact ⟨p, hp, rfl, hvisit⟩
  · rintro _ _ _ ⟨⟩

/-- It knows the attribution it is to make. -/
theorem goes_attributing {a : NewAttribution} (hcall : t.call = .attribution k)
    (huser : attributes t.pc = true ∨ .user k.user ∈ held) (hu : a.user = k.user)
    (hvisit : ∀ id, a.inviteVisit = some id → AttributesVisit s t x held a pending id) :
    ReferralGoes c s t x held (.attributing a pending) := by
  refine .takesUser hcall huser rfl ?_ ?_ ?_ ?_ ?_ ?_
  · rintro _ _ ⟨⟩
  · rintro _ ⟨⟩
  · rintro _ _ ⟨⟩
    exact hu
  · rintro _ ⟨⟩
  · rintro _ _ ⟨⟩
  · rintro _ _ id ⟨⟩
    exact hvisit id

theorem lockVisitStep_effect {checkWindow : Bool}
    {f : ReferralDb → ReferralThread → Option (InviteVisit × PartnerInviteLink) → Stepped}
    (hnone : f s t none = (s', t') → Effect c s t x s' t')
    (hrefused : ∀ row, s.grants t row = true → f (s.hold t row).1 (s.hold t row).2 none = (s', t') →
      Effect c s t x s' t')
    (hpasses : ∀ visit link, PassesVisit s id checkWindow now visit link
      → s.grants t (.link link.id) = true →
      f (s.hold t (.link link.id)).1 (s.hold t (.link link.id)).2 (some (visit, link)) = (s', t') →
      Effect c s t x s' t') (h : lockVisitStep s t id checkWindow now f = some (s', t')) :
        Effect c s t x s' t' := by
  unfold lockVisitStep at h
  split at h
  · exact hnone (Option.some.inj h)
  · rename_i visit link hfound
    obtain ⟨hgrant, h⟩ := lockThen_some h
    split at h
    · rename_i hvalid
      exact hpasses visit link ⟨hfound, hvalid⟩ hgrant h
    · exact hrefused _ hgrant h

theorem recordPending_cases {visit : InviteVisit} {link : PartnerInviteLink}
    (h : recordPending s user visit link v = .ok (s₁, a)) :
    ∃ pendings, s.pendings.insert? (pendingRow user visit link v) = some pendings
      ∧ s₁ = { s with pendings } := by
  unfold recordPending at h
  split at h
  · cases h
  rename_i pendings hi
  cases h
  exact ⟨pendings, hi, rfl⟩

theorem applyPendingStep_effect (hcall : t.call = .attribution k) (hrow : row = .user k.user)
    (hgrant : s.grants t row = true)
    (h : applyPendingStep c (s.hold t row).1 (s.hold t row).2 user now = (s', t')) :
    Effect c s t x s' t' := by
  have huser : LockedRow.user k.user ∈ (s.hold t row).2.held := mem_hold_held.2 (.inr hrow.symm)
  unfold applyPendingStep at h
  split at h
  · exact effect_hold_nothing hgrant h
  · split at h
    · exact effect_hold_drop hgrant h
    · split at h
      · exact effect_hold_drop hgrant h
      · split at h
        · exact effect_hold_nothing hgrant h
        · split at h
          · exact effect_hold_goto hgrant (goes_takesUser hcall (.inr huser) rfl trivial) h
          · split at h
            · exact effect_hold_drop hgrant h
            · exact effect_hold_goto hgrant (goes_takesUser hcall (.inr huser) rfl trivial) h

theorem lockPendingStep_effect (hcall : t.call = .attribution k) (hpc : attributes t.pc = true)
    (h : lockPendingStep s t user p now = some (s', t')) : Effect c s t x s' t' := by
  unfold lockPendingStep at h
  split at h
  · exact effect_answer .stays rfl (Option.some.inj h)
  · rename_i locked hfind
    obtain ⟨hgrant, h⟩ := lockThen_some h
    split at h
    · exact effect_hold_drop hgrant h
    · split at h
      · exact effect_hold_drop hgrant h
      · split at h
        · exact effect_hold_drop hgrant h
        · rename_i visit hvisit
          exact effect_hold_goto hgrant
            (goes_visiting hcall (.inl hpc) (Table.mem_of_find? hfind) hvisit) h

theorem lockLegacyStep_effect {link : PartnerInviteLink} (hcall : t.call = .attribution k)
    (hpc : attributes t.pc = true) (h : lockLegacyStep s t k.user p link = some (s', t')) :
    Effect c s t x s' t' := by
  unfold lockLegacyStep at h
  split at h
  · exact effect_answer .stays rfl (Option.some.inj h)
  · obtain ⟨hgrant, h⟩ := lockThen_some h
    split at h
    · exact effect_hold_drop hgrant h
    · -- a row without a visit
      exact effect_hold_goto hgrant
        (goes_attributing hcall (.inl hpc) rfl fun _ hid => by cases hid) h

theorem consumeStep_effect (hcall : t.call = .attribution k)
    (h : consumeStep s t k.user visit = some (s', t')) : Effect c s t x s' t' := by
  obtain ⟨hgrant, h⟩ := lockThen_some h
  split at h
  · exact effect_hold_nothing hgrant h
  · split at h
    · exact effect_hold_nothing hgrant h
    · exact effect_hold_goto hgrant
        (goes_takesUser hcall (.inr (mem_hold_held.2 (.inr rfl))) rfl trivial) h

theorem noVisit_cases (s : ReferralDb) (pending : Option Uuid) (k : AttributionCall) :
    ∃ pendings, (noVisit s pending k).1 = { s with pendings } ∧ ∀ p ∈ pendings, p ∈ s.pendings := by
  unfold noVisit
  split
  · exact ⟨s.pendings, rfl, fun _ hp => hp⟩
  · cases pending with
    | none => exact ⟨s.pendings, rfl, fun _ hp => hp⟩
    | some id => exact ⟨_, rfl, fun _ hp => (Table.mem_remove.1 hp).1⟩

theorem visitStep_effect (hx : x = .go v) (hcall : t.call = .attribution k)
    (hpc : t.pc = .visiting visit pending)
    (h : visitStep s t k visit pending v.now = some (s', t')) : Effect c s t x s' t' := by
  have hattr : attributes t.pc = true := by
    rw [hpc]
    rfl
  refine lockVisitStep_effect ?_ ?_ ?_ h
  · intro h
    obtain ⟨pendings, hp, hsub⟩ := noVisit_cases s pending k
    have hw : ReferralWrite c s t x { s with pendings } := .drops hsub
    dsimp only at h
    rw [hp] at h
    exact effect_answer hw rfl h
  · intro row hgrant h
    obtain ⟨pendings, hp, hsub⟩ := noVisit_cases (s.hold t row).1 pending k
    have hsub' : ∀ p ∈ pendings, p ∈ s.pendings := by
      intro p hmem
      have hmem' := hsub p hmem
      rw [hold_db row] at hmem'
      exact hmem'
    have hw : ReferralWrite c s t x { s with pendings } := .drops hsub'
    dsimp only at h
    rw [hp] at h
    refine effect_hold_answer hgrant hw ?_ h
    rw [hold_db row]
  · intro found link hpasses hgrant h
    refine effect_hold_goto hgrant (goes_attributing hcall (.inl hattr) rfl ?_) h
    intro id hid
    have hvisit : found.id = visit := by
      have hfound := hpasses.found
      unfold visitLink? at hfound
      split at hfound
      · cases hfound
      rename_i row hrow
      obtain ⟨_, _, heq⟩ := Option.map_eq_some_iff.1 hfound
      have hsame : row = found := congrArg Prod.fst heq
      rw [← hsame]
      simpa using Table.prop_of_find? hrow
    obtain rfl : found.id = id := Option.some.inj hid
    exact ⟨v, found, link, hx, by
      rw [hpc, hvisit], hvisit ▸ hpasses, rfl, mem_hold_held.2 (.inr rfl)⟩

theorem refersToSelf_hold {channel : PartnerChannel} :
    (s.hold t row).1.refersToSelf user channel = s.refersToSelf user channel := by
  rw [hold_db row]
  rfl

theorem checkAttributionStep_effect {a : NewAttribution} (hcall : t.call = .attribution k)
    (hpc : t.pc = .attributing a pending)
    (h : checkAttributionStep s t k a pending = some (s', t')) : Effect c s t x s' t' := by
  unfold checkAttributionStep at h
  split at h
  · exact effect_raise (Option.some.inj h)
  · rename_i channel hfind
    obtain ⟨hgrant, h⟩ := lockThen_some h
    rw [refersToSelf_hold] at h
    split at h
    · rename_i hallowed
      exact effect_hold_goto hgrant
        (.allows hcall hpc hfind (mem_hold_held.2 (.inr rfl)) hallowed) h
    · split at h
      · exact effect_hold_nothing hgrant h
      · exact effect_hold_raise hgrant h

theorem insertStep_effect {a : NewAttribution} (hcall : t.call = .attribution k)
    (hpc : t.pc = .inserting a pending) (h : insertStep s t k a pending v = (s', t')) :
    Effect c s t x s' t' := by
  unfold insertStep at h
  split at h
  · exact effect_answer .stays rfl h
  · rename_i s₁ ans hi
    exact effect_answer (.attributes hcall hpc hi) (insertAttribution_locks hi) h
  · exact effect_settle (fun s₁ ans hi => ⟨.attributes hcall hpc hi, insertAttribution_locks hi⟩) h

theorem lockAttributionStep_effect (hcall : t.call = .attribution (.transfer user channel))
    (hpc : t.pc = .seekingAttribution) (h : lockAttributionStep s t user channel = some (s', t')) :
    Effect c s t x s' t' := by
  unfold lockAttributionStep at h
  split at h
  · exact effect_raise (Option.some.inj h)
  · rename_i a hfind
    obtain ⟨hgrant, h⟩ := lockThen_some h
    split at h
    · exact effect_hold_nothing hgrant h
    · have huser : a.user = user := by simpa using Table.prop_of_find? hfind
      refine effect_hold_goto hgrant
        (.takesUser hcall (.inl (by rw [hpc]; rfl)) rfl ?_ ?_ ?_ ?_ ?_ ?_) h
      · rintro _ _ ⟨⟩
      · rintro _ ⟨⟩
      · rintro _ _ ⟨⟩
      · rintro _ ⟨⟩
        exact ⟨Table.mem_of_find? hfind, huser⟩
      · rintro _ _ ⟨⟩
      · rintro _ _ _ ⟨⟩

theorem checkMoveStep_effect {a : CustomerAttribution}
    (hcall : t.call = .attribution (.transfer user channel)) (hpc : t.pc = .moving a)
    (h : checkMoveStep s t a channel = some (s', t')) : Effect c s t x s' t' := by
  unfold checkMoveStep at h
  split at h
  · exact effect_raise (Option.some.inj h)
  · rename_i target hfind
    obtain ⟨hgrant, h⟩ := await_some h
    have hid : target.id = channel := by simpa using Table.prop_of_find? hfind
    split at h
    · rename_i hallowed
      exact effect_hold_hold_goto (hgrant _ List.mem_cons_self)
        (hgrant _ (List.mem_cons_of_mem _ List.mem_cons_self))
        (.allowsMove hcall hpc hfind (mem_hold_held.2 (.inr (by rw [hid]))) hallowed) h
    · exact effect_raise h

theorem beginAttribution_effect (hx : x = .go v) (hcall : t.call = .attribution k)
    (h : beginAttribution c s t v k = some (s', t')) : Effect c s t x s' t' := by
  cases k with
  | recordPending user isActive visit =>
    dsimp only [beginAttribution] at h
    split at h
    · exact effect_answer .stays rfl (Option.some.inj h)
    · split at h
      · refine lockVisitStep_effect (fun h => effect_answer .stays rfl h)
          (fun _ hgrant h => effect_hold_nothing hgrant h) ?_ h
        intro found link hpasses hgrant h
        dsimp only at h
        unfold ReferralDb.settle at h
        split at h
        · exact effect_hold_raise hgrant h
        · rename_i s₁ a hr
          obtain ⟨pendings, hi, rfl⟩ := recordPending_cases hr
          rw [hold_db] at hi
          have hw : ReferralWrite c s t x { s with pendings } := .records hx hpasses hi
          refine effect_hold_answer hgrant hw ?_ h
          rw [hold_db]
      · exact effect_answer .stays rfl (Option.some.inj h)
  | applyPending user =>
    dsimp only [beginAttribution] at h
    obtain ⟨hgrant, h⟩ := lockThen_some h
    exact applyPendingStep_effect hcall rfl hgrant h
  | attributeCreated user visit =>
    dsimp only [beginAttribution] at h
    split at h
    · exact effect_answer .stays rfl (Option.some.inj h)
    · split at h
      · exact effect_answer .stays rfl (Option.some.inj h)
      · obtain ⟨hgrant, h⟩ := lockThen_some h
        split at h
        · exact effect_hold_nothing hgrant h
        · exact effect_hold_goto hgrant
            (goes_takesUser hcall (.inr (mem_hold_held.2 (.inr rfl))) rfl trivial) h
  | consumePending user visit =>
    dsimp only [beginAttribution] at h
    split at h
    · exact effect_answer .stays rfl (Option.some.inj h)
    · split at h
      · exact effect_answer .stays rfl (Option.some.inj h)
      · split at h
        · exact effect_answer .stays rfl (Option.some.inj h)
        · exact effect_goto (.plain rfl) (Option.some.inj h)
  | assign user channel =>
    dsimp only [beginAttribution] at h
    obtain ⟨hgrant, h⟩ := lockThen_some h
    split at h
    · exact effect_hold_raise hgrant h
    · exact effect_hold_goto hgrant (goes_attributing hcall (.inr (mem_hold_held.2 (.inr rfl))) rfl
        fun _ hid => by cases hid) h
  | transfer user channel =>
    dsimp only [beginAttribution] at h
    obtain ⟨hgrant, h⟩ := lockThen_some h
    exact effect_hold_goto hgrant
      (goes_takesUser hcall (.inr (mem_hold_held.2 (.inr rfl))) rfl trivial) h

/-! ## Channels -/

theorem updateSettings_cases {isActive : Bool}
    (h : updateSettings s id isActive percent = .ok (s₁, a)) :
    ∃ share, s₁ = { s with
      channels := s.channels.update (·.id = id) (resettled isActive share) (fun _ _ h => h) } := by
  unfold updateSettings at h
  split at h
  · cases h
  split at h
  · cases h
  rename_i share _
  cases h
  exact ⟨share, rfl⟩

theorem regenerate_write (hx : x = .go v)
    (hgrant : ∀ row ∈ canonicalRow s channel, s.grants t row = true)
    (h : regenerateInviteLink s channel v = .ok (s₁, a)) :
    ReferralWrite c s t x s₁ ∧ s₁.locks = s.locks := by
  unfold regenerateInviteLink at h
  split at h
  · cases h
  rename_i link hlink
  obtain ⟨links, hl, h⟩ := bind_ok h
  cases h
  unfold withUniqueToken at hl
  split at hl
  · cases hl
  rename_i links hfind
  cases hl
  obtain ⟨n, _, hn⟩ := List.exists_of_findSome?_eq_some hfind
  have hrow : s.grants t (.link link.id) = true := by
    refine hgrant _ ?_
    unfold canonicalRow
    rw [hlink]
    exact List.mem_singleton.2 rfl
  have hrelinks : Relinks v.now fun l =>
      { l with token := v.token n, regeneratedAt := some v.now } :=
    ⟨fun _ => rfl, fun _ => rfl, .inr fun _ => rfl⟩
  exact ⟨.relinks hx hrow hrelinks (Table.rows_update? hn) fun _ hp =>
    (Table.mem_remove.1 hp).1, rfl⟩

theorem setInviteActive_write {active : Bool} (hx : x = .go v)
    (hgrant : ∀ row ∈ canonicalRow s channel, s.grants t row = true)
    (h : setInviteActive s channel active = .ok (s₁, a)) :
    ReferralWrite c s t x s₁ ∧ s₁.locks = s.locks := by
  unfold setInviteActive at h
  split at h
  · cases h
  rename_i link hlink
  cases h
  have hrow : s.grants t (.link link.id) = true := by
    refine hgrant _ ?_
    unfold canonicalRow
    rw [hlink]
    exact List.mem_singleton.2 rfl
  have hrelinks : Relinks v.now fun l => { l with isActive := active } :=
    ⟨fun _ => rfl, fun _ => rfl, .inl fun _ => rfl⟩
  exact ⟨.relinks hx hrow hrelinks rfl fun _ hp => hp, rfl⟩

theorem recordVisit_write {token : String} (hx : x = .go v)
    (h : recordVisit c s token v = .ok (s₁, a)) :
    ReferralWrite c s t x s₁ ∧ s₁.locks = s.locks := by
  unfold recordVisit at h
  split at h
  · cases h
    exact ⟨.stays, rfl⟩
  · split at h
    · cases h
      exact ⟨.stays, rfl⟩
    · split at h
      · cases h
        exact ⟨.stays, rfl⟩
      · dsimp only at h
        split at h
        · cases h
        rename_i visits hi
        cases h
        exact ⟨.visits hx rfl hi, rfl⟩

theorem beginChannel_effect {k : ChannelCall} (hx : x = .go v) (hcall : t.call = .channel k)
    (h : beginChannel c s t v k = some (s', t')) :
    Effect c s t x s' t' := by
  cases k with
  | createIndividual owner percent =>
    dsimp only [beginChannel] at h
    split at h
    · exact effect_raise (Option.some.inj h)
    · rename_i hchecked
      exact effect_goto (.mints hcall rfl (.inl hchecked)) (Option.some.inj h)
  | createTeam organization percent =>
    dsimp only [beginChannel] at h
    split at h
    · exact effect_raise (Option.some.inj h)
    · rename_i hchecked
      exact effect_goto (.mints hcall rfl (.inl hchecked)) (Option.some.inj h)
  | updateSettings channel isActive percent =>
    obtain ⟨hgrant, h⟩ := await_some h
    refine effect_settle ?_ h
    intro s₁ a hs
    obtain ⟨share, rfl⟩ := updateSettings_cases hs
    exact ⟨.resettles (hgrant _ List.mem_cons_self), rfl⟩
  | recordVisit token =>
    obtain ⟨_, h⟩ := await_some h
    exact effect_settle (fun _ _ hs => recordVisit_write hx hs) h
  | regenerateLink channel =>
    obtain ⟨hgrant, h⟩ := await_some h
    exact effect_settle (fun _ _ hs => regenerate_write hx hgrant hs) h
  | setInviteActive channel active =>
    obtain ⟨hgrant, h⟩ := await_some h
    exact effect_settle (fun _ _ hs => setInviteActive_write hx hgrant hs) h

theorem mintStep_effect {k : ChannelCall} {owner : ChannelOwner} {attempt : Nat}
    (hcall : t.call = .channel k) (hk : k.creates? = some (owner, percent))
    (hpc : t.pc = .minting attempt) (h : mintStep s t owner percent attempt v = some (s', t')) :
    Effect c s t x s' t' := by
  unfold mintStep at h
  split at h
  · obtain ⟨_, h⟩ := await_some h
    split at h
    · exact effect_goto (.mints hcall hk (.inr ⟨_, hpc⟩)) h
    · rename_i r hr
      refine effect_settle ?_ h
      rintro s₁ a rfl
      obtain ⟨_, channels, links, _, _, _, rfl⟩ := createChannel_cases hr
      exact ⟨.mints hcall hk hpc hr, rfl⟩
  · exact effect_raise (Option.some.inj h)

/-! ## The first steps, and every step -/

theorem begin_resolves {k : OrganizationCall} {o : Organization}
    (hcall : t.call = .organization k) (hk : k.begin? = .ok (some (actor, id)))
    (ho : s.organization? id = some o) : ReferralGoes c s t x t.held (.resolved o) := by
  have hid : o.id = id := by simpa using Table.prop_of_find? ho
  exact .resolves hcall (hid ▸ hk) (Table.mem_of_find? ho)

theorem beginOrganization_effect {k : OrganizationCall} (hcall : t.call = .organization k)
    (h : beginOrganization s t k v = some (s', t')) : Effect c s t x s' t' := by
  unfold beginOrganization at h
  split at h
  · obtain ⟨_, h⟩ := await_some h
    exact effect_settle (fun _ _ hs => ⟨.creates hs, createOrganization_locks hs⟩) h
  · split at h
    · exact effect_raise (Option.some.inj h)
    · exact lockUserStep_effect (fun _ hheld _ => .seeksInvite hcall hheld) h
  · split at h
    · exact effect_raise (Option.some.inj h)
    · cases h
    · rename_i hk
      split at h
      · exact effect_raise (Option.some.inj h)
      · rename_i o ho
        exact effect_goto (begin_resolves hcall hk ho) (Option.some.inj h)

theorem beginReferral_effect (hx : x = .go v) (hpc : t.pc = .asked)
    (h : beginReferral c s t v = some (s', t')) : Effect c s t x s' t' := by
  unfold beginReferral at h
  split at h
  · rename_i k hcall
    exact beginOrganization_effect hcall h
  · rename_i k hcall
    cases k with
    | saveMembership f =>
      dsimp only [beginAdmin] at h
      split at h
      · exact effect_goto (.guardsForm hcall hpc rfl) (Option.some.inj h)
      · rename_i hstatus
        exact effect_goto (.saves hcall hstatus) (Option.some.inj h)
    | saveInlines fs => exact effect_goto (.plain rfl) (Option.some.inj h)
  · rename_i k hcall
    exact beginAttribution_effect hx hcall h
  · rename_i k hcall
    exact beginChannel_effect hx hcall h
  · exact effect_settle (fun _ _ hs => ⟨.registers hs, registerPerson_locks hs⟩) (Option.some.inj h)
  · rename_i p hcall
    split at h
    · exact effect_raise (Option.some.inj h)
    · rename_i books e ha
      have hw : ReferralWrite c s t x { s with books } := .posts hcall ha
      exact effect_answer hw rfl (Option.some.inj h)

theorem saveForms_locks {n : Nat} {fs : List MembershipForm} (h : saveForms s uuid n fs = .ok s₁) :
    s₁.locks = s.locks := by
  obtain ⟨_, rfl⟩ := saveForms_cases h
  rfl

theorem checkedStep_effect (hpc : t.pc = .checked next)
    (h : checkedStep c s t next v = some (s', t')) : Effect c s t x s' t' := by
  unfold checkedStep at h
  split at h
  · rename_i hcall
    exact lockTargetStep_effect hcall hpc h
  · rename_i hcall
    obtain ⟨hgrant, h⟩ := await_some h
    exact effect_settle (fun _ _ hs =>
      ⟨.setsRole hcall (grants_membershipRow hgrant) hs, setRole_locks hs⟩) h
  · unfold checkMemberStep at h
    split at h
    · exact effect_raise (Option.some.inj h)
    · exact effect_goto (.plain rfl) (Option.some.inj h)
  · rename_i hcall
    exact effect_goto (.joins hcall (.inl hpc) fun _ hm =>
      ⟨Table.mem_of_find? hm, whose_membership? hm⟩) (Option.some.inj h)
  · rename_i f _ hcall
    obtain ⟨hgrant, h⟩ := await_some h
    refine effect_settle ?_ h
    intro s₁ a hs
    obtain ⟨s₂, h₂, hs⟩ := map_ok hs
    cases hs
    have hforms : saveForms s v.uuid 0 [f] = .ok s₁ := by
      rw [saveForms, h₂]
      rfl
    refine ⟨.saves (by rw [forms?, hpc, hcall]) ?_ hforms, saveForms_locks hforms⟩
    intro row hrow
    refine hgrant row ?_
    simpa [inlineRows] using hrow
  · cases h

theorem organizationStep_effect {k : OrganizationCall} (hx : x = .go v)
    (hcall : t.call = .organization k) (h : organizationStep c s t k v = some (s', t')) :
    Effect c s t x s' t' := by
  unfold organizationStep at h
  split at h
  · rename_i o hpc
    split at h
    · rename_i hk
      exact resolveStep_effect hpc hcall hk (Option.some.inj h)
    · cases h
  · obtain ⟨hgrant, h⟩ := await_some h
    refine effect_settle ?_ h
    intro s₁ a hs
    cases hs
    exact ⟨.setsStatus (hgrant _ List.mem_cons_self), rfl⟩
  · unfold findUserStep at h
    split at h
    · exact effect_goto (.plain rfl) (Option.some.inj h)
    · exact effect_goto (.plain rfl) (Option.some.inj h)
  · rename_i hpc
    obtain ⟨hgrant, h⟩ := await_some h
    exact effect_settle (fun _ _ hs =>
      ⟨.promotes hcall hpc (hgrant _ List.mem_cons_self) hs, promote_locks hs⟩) h
  · obtain ⟨hgrant, h⟩ := await_some h
    exact effect_settle (fun _ _ hs =>
      ⟨.revokes hcall (grants_membershipRow hgrant) hs, revoke_locks hs⟩) h
  · rename_i hpc
    split at h
    · cases h
    obtain ⟨hgrant, h⟩ := await_some h
    refine effect_settle ?_ h
    intro s₁ a hs
    have hw : ReferralWrite c s t x s₁ := .writesInvite hx hpc hgrant hs
    obtain ⟨invites, rfl⟩ := writeInvite_cases hs
    exact ⟨hw, rfl⟩
  · obtain ⟨hgrant, h⟩ := await_some h
    refine effect_settle ?_ h
    intro s₁ a hs
    have hw : ReferralWrite c s t x s₁ := .revokesInvite (hgrant _ List.mem_cons_self) hs
    obtain ⟨invites, rfl⟩ := revokeInvite_cases hs
    exact ⟨hw, rfl⟩
  · rename_i hpc
    exact seekInviteStep_effect hx hcall hpc h
  · rename_i hpc
    exact joinStep_effect hcall hpc h
  · cases h

theorem attributionStep_effect (hx : x = .go v) (hcall : t.call = .attribution k)
    (h : attributionStep s t k v = some (s', t')) : Effect c s t x s' t' := by
  unfold attributionStep at h
  split at h
  · rename_i hpc
    exact lockPendingStep_effect hcall (by rw [hpc]; rfl) h
  · rename_i hpc
    exact lockLegacyStep_effect hcall (by rw [hpc]; rfl) h
  · exact consumeStep_effect hcall h
  · rename_i hpc
    exact visitStep_effect hx hcall hpc h
  · rename_i hpc
    exact checkAttributionStep_effect hcall hpc h
  · rename_i hpc
    exact insertStep_effect hcall hpc (Option.some.inj h)
  · rename_i hpc
    exact lockAttributionStep_effect hcall hpc h
  · rename_i hpc
    exact checkMoveStep_effect hcall hpc h
  · rename_i hpc
    refine effect_settle ?_ (Option.some.inj h)
    intro s₁ a hs
    cases hs
    exact ⟨.moves hcall hpc, rfl⟩
  · cases h

/-- **Every step of a call has its effect.** -/
theorem referralStep_effect (h : referralStep c s t x = some (s', t')) :
    Effect c s t x s' t' := by
  unfold referralStep at h
  split at h
  · split at h
    · exact effect_raise (Option.some.inj h)
    · cases h
  · split at h
    · rename_i hpc
      exact beginReferral_effect rfl hpc h
    · rename_i hpc
      exact guardStep_effect hpc (Option.some.inj h)
    · rename_i hpc
      exact lockUserStep_effect (fun _ hheld honly => .locksUser hpc hheld honly) h
    · rename_i hpc
      exact lockChannelStep_effect hpc h
    · rename_i hpc
      exact checkedStep_effect hpc h
    · rename_i hpc
      split at h
      · rename_i hcall
        split at h
        · rename_i hk
          exact mintStep_effect hcall hk hpc h
        · cases h
      · cases h
    · rename_i hpc
      split at h
      · rename_i fs hcall
        obtain ⟨hgrant, h⟩ := await_some h
        refine effect_settle ?_ h
        intro s₁ a hs
        obtain ⟨s₂, h₂, hs⟩ := map_ok hs
        cases hs
        exact ⟨.saves (by rw [forms?, hpc, hcall]) hgrant h₂, saveForms_locks h₂⟩
      · cases h
    · cases h
    · cases h
    · split at h
      · rename_i hcall
        exact organizationStep_effect rfl hcall h
      · rename_i hcall
        exact attributionStep_effect rfl hcall h
      · cases h

end Steps

end Roamkit.Partner.Proof
