import Roamkit.Partner.Contexts

/-!
# Listing agrees with resolving

A channel comes from at most one of the two queries of the list, and the membership
either of them reads is the one row its organization has for the user. So a context
is listed exactly when its channel resolves to it.
-/

namespace Roamkit.Partner.Proof

open Lib Billing Organizations ReferralDb

variable {s : ReferralDb} {x : ContextText} {user : UserId} {channel : PartnerChannel}

/-! ## One channel -/

/-- What a channel's authorization comes to, by owner or by membership. -/
def authorize (s : ReferralDb) (x : ContextText) (user : UserId) (roles : List MembershipRole)
    (channel : PartnerChannel) : Option PartnerContext :=
  match channel.owner with
  | .individual owner => if owner = user then some (s.partnerContext x channel .owner) else none
  | .team organization =>
    (s.membershipWith? organization user roles).map fun m => s.partnerContext x channel m.role

variable {roles : List MembershipRole}

theorem authorize_channel {ctx : PartnerContext} (h : authorize s x user roles channel = some ctx) :
    ctx.channel = channel ∧ ctx.channelId = channel.id := by
  unfold authorize at h
  split at h
  · split at h
    · cases h
      exact ⟨rfl, rfl⟩
    · cases h
  · obtain ⟨m, _, rfl⟩ := Option.map_eq_some_iff.1 h
    exact ⟨rfl, rfl⟩

theorem membershipWith_role {organization : Uuid} {m : Membership}
    (h : s.membershipWith? organization user roles = some m) : m.role ∈ roles := by
  have hp := Table.prop_of_find? h
  rw [Bool.and_eq_true] at hp
  exact List.contains_iff_mem.1 hp.2

/-! ## Resolving -/

theorem channel?_of_mem (h : channel ∈ s.channels) : s.channel? channel.id = some channel :=
  Table.find?_of_mem h (decide_eq_true rfl) fun _ hid => .inl (of_decide_eq_true hid)

theorem channel?_id {id : Uuid} (h : s.channel? id = some channel) : channel.id = id := by
  have hp := Table.prop_of_find? h
  exact of_decide_eq_true hp

/-- **Resolving a channel authorizes it, or denies the access.** -/
theorem resolve_eq (s : ReferralDb) (x : ContextText) (user : UserId) (id : Uuid)
    (roles : List MembershipRole) :
    s.resolveAuthorizedContext x user id roles
      = match (s.channel? id).bind (authorize s x user roles) with
        | some ctx => .ok ctx
        | none => .error (.partnerAccessDenied accessDenied) := by
  unfold resolveAuthorizedContext
  cases hfind : s.channel? id with
  | none => rfl
  | some channel =>
    rw [Option.bind_some]
    obtain ⟨id', owner, percent, active⟩ := channel
    cases owner with
    | individual owner =>
      by_cases howner : owner = user
      · simp [authorize, individualOwnerMatches, ChannelOwner.kind, ChannelOwner.ownerUser,
          ChannelOwner.organization, howner]
      · simp [authorize, individualOwnerMatches, ChannelOwner.kind, ChannelOwner.ownerUser,
          ChannelOwner.organization, howner]
    | team organization =>
      simp only [authorize, activeMembershipRole, ChannelOwner.kind, ChannelOwner.ownerUser,
        ChannelOwner.organization]
      cases s.membershipWith? organization user roles <;> rfl

theorem resolve_ok {id : Uuid} {ctx : PartnerContext} :
    s.resolveAuthorizedContext x user id roles = .ok ctx
      ↔ ∃ channel, s.channel? id = some channel ∧ authorize s x user roles channel = some ctx := by
  rw [resolve_eq, ← Option.bind_eq_some_iff]
  cases (s.channel? id).bind (authorize s x user roles) with
  | none => simp
  | some ctx' => simp

/-! ## Listing -/

theorem teamContext_eq (hkind : channel.owner.kind = .team) :
    s.teamContext? x user channel = authorize s x user customersRoles channel := by
  obtain ⟨id, owner, percent, active⟩ := channel
  cases owner with
  | individual owner => cases hkind
  | team organization =>
    simp only [teamContext?, authorizedMembership?, authorize, ChannelOwner.organization,
      ChannelOwner.ownerUser]
    cases hm : s.membershipWith? organization user customersRoles with
    | none => rfl
    | some m =>
      have hrole := membershipWith_role hm
      simp [hrole]

theorem mem_teamChannels : channel ∈ s.teamChannels user
    ↔ channel ∈ s.channels ∧ channel.owner.kind = .team
      ∧ (authorize s x user customersRoles channel).isSome := by
  unfold teamChannels
  rw [List.mem_filter, Bool.and_eq_true, decide_eq_true_iff]
  refine and_congr_right fun _ => and_congr_right fun hkind => ?_
  obtain ⟨id, owner, percent, active⟩ := channel
  cases owner with
  | individual owner => cases hkind
  | team organization =>
    rw [authorizedMembership?, authorize, ChannelOwner.organization, Option.isSome_map]

/-- The channels the contexts are made of, in the order of the list. -/
def listedChannels (s : ReferralDb) (x : ContextText) (user : UserId) : List PartnerChannel :=
  (s.individualChannel? user).toList
    ++ (s.teamChannels user).insertionSort (s.channelBefore x · ·)

theorem individualChannel_owner (h : s.individualChannel? user = some channel) :
    channel.owner = .individual user := by
  have hp := Table.prop_of_find? h
  exact of_decide_eq_true hp

theorem authorize_individual (h : channel.owner = .individual user) (roles : List MembershipRole) :
    authorize s x user roles channel = some (s.partnerContext x channel .owner) := by
  rw [authorize, h]
  exact if_pos rfl

/-- **The list authorizes its channels one by one.** -/
theorem list_eq (s : ReferralDb) (x : ContextText) (user : UserId) :
    s.listAuthorizedPartnerContexts x user
      = (listedChannels s x user).filterMap (authorize s x user customersRoles) := by
  unfold listAuthorizedPartnerContexts listedChannels
  rw [List.filterMap_append]
  refine congrArg₂ (· ++ ·) ?_ ?_
  · cases h : s.individualChannel? user with
    | none => rfl
    | some channel =>
      have howner := individualChannel_owner h
      have hmatch : individualOwnerMatches channel user = true := by
        simp [individualOwnerMatches, howner, ChannelOwner.kind, ChannelOwner.ownerUser,
          ChannelOwner.organization]
      dsimp only
      rw [if_pos hmatch, Option.toList_some, List.filterMap_cons, authorize_individual howner]
      rfl
  · refine List.filterMap_congr fun channel h => ?_
    rw [List.mem_insertionSort] at h
    exact teamContext_eq ((mem_teamChannels (x := x)).1 h).2.1

/-- Every channel that authorizes the user is listed. -/
theorem mem_listedChannels (h : (authorize s x user customersRoles channel).isSome) :
    channel ∈ listedChannels s x user ↔ channel ∈ s.channels := by
  unfold listedChannels
  rw [List.mem_append, List.mem_insertionSort, Option.mem_toList, mem_teamChannels (x := x)]
  constructor
  · rintro (hown | hteam)
    · exact Table.mem_of_find? hown
    · exact hteam.1
  · intro hmem
    cases howner : channel.owner with
    | individual owner =>
      have howned : owner = user := by
        by_contra hne
        rw [authorize, howner] at h
        simp [hne] at h
      rw [howned] at howner
      refine .inl (Table.find?_of_mem hmem (decide_eq_true howner) fun y hy => .inr ?_)
      rw [howner]
      exact of_decide_eq_true hy
    | team organization =>
      exact .inr ⟨hmem, by rw [ChannelOwner.kind], h⟩

theorem channels_ids_nodup (s : ReferralDb) : (s.channels.rows.map (·.id)).Nodup :=
  List.pairwise_map.2 (s.channels.apart.imp fun hn hid => hn (.inl hid))

theorem listedChannels_ids_nodup (s : ReferralDb) (x : ContextText) (user : UserId) :
    ((listedChannels s x user).map (·.id)).Nodup := by
  have hteam :
      (((s.teamChannels user).insertionSort (s.channelBefore x · ·)).map (·.id)).Nodup := by
    have hperm := (List.perm_insertionSort (s.channelBefore x · ·) (s.teamChannels user)).map (·.id)
    rw [hperm.nodup_iff]
    exact (channels_ids_nodup s).sublist (List.filter_sublist.map _)
  unfold listedChannels
  rw [List.map_append]
  refine List.Nodup.append ?_ hteam ?_
  · cases s.individualChannel? user <;> simp
  · intro id hown hlist
    obtain ⟨channel, hchannel, rfl⟩ := List.mem_map.1 hown
    obtain ⟨other, hother, hid⟩ := List.mem_map.1 hlist
    rw [Option.mem_toList] at hchannel
    rw [List.mem_insertionSort, mem_teamChannels (x := x)] at hother
    -- the two rows have one id, so they are one row, of two kinds
    obtain rfl := Table.eq_of_clash hother.1 (Table.mem_of_find? hchannel) (.inl hid)
    have hkind := hother.2.1
    rw [individualChannel_owner hchannel] at hkind
    cases hkind

/-- **A context is listed exactly when its channel resolves to it, and no channel is listed
twice.** -/
theorem listed_iff_resolves (s : ReferralDb) (x : ContextText) (user : UserId) :
    (∀ id ctx, (ctx ∈ s.listAuthorizedPartnerContexts x user ∧ ctx.channelId = id)
        ↔ s.resolveAuthorizedCustomersContext x user id = .ok ctx)
      ∧ ((s.listAuthorizedPartnerContexts x user).map (·.channelId)).Nodup := by
  rw [list_eq]
  constructor
  · intro id ctx
    unfold resolveAuthorizedCustomersContext
    rw [resolve_ok, List.mem_filterMap]
    constructor
    · rintro ⟨⟨channel, hlisted, hctx⟩, rfl⟩
      have hsome : (authorize s x user customersRoles channel).isSome := by rw [hctx]; rfl
      have hmem := (mem_listedChannels hsome).1 hlisted
      rw [(authorize_channel hctx).2]
      exact ⟨channel, channel?_of_mem hmem, hctx⟩
    · rintro ⟨channel, hfind, hctx⟩
      have hsome : (authorize s x user customersRoles channel).isSome := by rw [hctx]; rfl
      have hmem := Table.mem_of_find? hfind
      refine ⟨⟨channel, (mem_listedChannels hsome).2 hmem, hctx⟩, ?_⟩
      rw [(authorize_channel hctx).2]
      exact channel?_id hfind
  · rw [List.map_filterMap]
    -- an id that is kept is the id of its channel
    have hsub : ((listedChannels s x user).filterMap fun channel =>
        (authorize s x user customersRoles channel).map (·.channelId)).Sublist
          ((listedChannels s x user).map (·.id)) := by
      rw [← List.filterMap_eq_map]
      induction listedChannels s x user with
      | nil => exact .slnil
      | cons channel rest ih =>
        rw [List.filterMap_cons, List.filterMap_cons]
        cases hctx : authorize s x user customersRoles channel with
        | none => exact ih.cons _
        | some ctx =>
          have hid := (authorize_channel hctx).2
          simp only [Option.map_some, Function.comp_apply, hid]
          exact ih.cons_cons _
    exact (listedChannels_ids_nodup s x user).sublist hsub

end Roamkit.Partner.Proof
