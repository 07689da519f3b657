import Roamkit.Lib.Recorded
import Roamkit.Proof.SelfReferral

/-!
# Invites to an organization

An invite is issued again with another token, role and expiry as long as it is pending;
the tokens themselves are not stored. The record beside the database says what each
invite was last issued with, and when a call that accepts it has checked it. That call
holds the invite, its organization and its user from the check to the acceptance.
-/

namespace Roamkit.Partner.Proof

open Lib Billing Organizations Partner Billing.Proof

/-- What an invite is issued with. -/
structure InviteIssue where
  role : InviteRole
  expiresAt : Time
  rawToken : String

/-- Issues of invites, and checks that let a user go on to accept one, newest first. -/
structure InviteRecord where
  issues : List (Uuid × InviteIssue)
  checks : List (Uuid × UserId × Time)

/-- What `create_invite` returns is an issue. -/
def issued? (t t' : ReferralThread) : Option (Uuid × InviteIssue) :=
  match t.pc, t'.pc with
  | .writingInvite _, .returned (.inviteCreated i raw _) => some (i.id, ⟨i.role, i.expiresAt, raw⟩)
  | _, _ => none

/-- A check of `accept_invite`; its time is `accepted_at`. -/
def passed? (t : ReferralThread) (x : ReferralInput) (t' : ReferralThread) :
    Option (Uuid × UserId × Time) :=
  match t.pc, x, t'.pc with
  | .seekingInvite, .go v, .guarding user _ (.accepting i) => some (i.id, user, v.now)
  | _, _, _ => none

def noteInvite (_ : ReferralDb) (t : ReferralThread) (x : ReferralInput) (_ : ReferralDb)
    (t' : ReferralThread) (r : InviteRecord) : InviteRecord :=
  ⟨(issued? t t').toList ++ r.issues, (passed? t x t').toList ++ r.checks⟩

/-- Whether a call may write memberships that were there, other than by accepting an invite. -/
def writesMembers : ReferralCall → Bool
  | .organization (.transferOwnership ..) => true
  | .organization (.setMemberRole ..) => true
  | .organization (.revokeMembership ..) => true
  | .admin _ => true
  | _ => false

/-- Invites are created, revoked and accepted; nothing else changes a membership. -/
def InviteCalls (_ : ReferralDb) (t : ReferralThread) (_ : ReferralInput) : Prop :=
  writesMembers t.call = false

/-- Nobody has been invited. -/
def NoInvites (s : ReferralDb) : Prop := s.invites = .empty ∧ s.locks = []

/-- The invite is as it was last issued. -/
def Issued (c : ReferralSettings) (r : InviteRecord) (i : OrganizationInvite) : Prop :=
  ∃ issue, newest r.issues i.id = some issue ∧ i.role = issue.role ∧ i.expiresAt = issue.expiresAt
    ∧ i.tokenHash = c.text.sha256 issue.rawToken

/-- Every invite is. -/
def InviteInv (c : ReferralSettings) (w : ReferralDb × InviteRecord) : Prop :=
  ∀ i ∈ w.1.invites, Issued c w.2 i

def accepts? : Checked → Option OrganizationInvite
  | .accepting i => some i
  | _ => none

/-- The invite that a call accepts. -/
def accepting? : ReferralPc → Option OrganizationInvite
  | .guarding _ _ next => accepts? next
  | .lockingUser _ _ next => accepts? next
  | .lockingChannel _ _ next => accepts? next
  | .checked next => accepts? next
  | .joining i _ => some i
  | _ => none

/-- What a call that accepts an invite knows of it. -/
structure Accepting (c : ReferralSettings) (w : ReferralDb × InviteRecord) (t : ReferralThread)
    (i : OrganizationInvite) (actor : Person) (raw : String) : Prop where
  call : t.call = .organization (.acceptInvite actor raw)
  invite : i ∈ w.1.invites
  pending : i.status = .pending
  token : i.tokenHash = c.text.sha256 (PyText.strip raw)
  email : normalizeInviteEmail c.text actor.email = i.emailNormalized
  organization : ∃ o ∈ w.1.organizations, o.id = i.organization ∧ o.status = .active
  inTime : ∃ now, newest w.2.checks i.id = some (actor.id, now) ∧ now < i.expiresAt
  holds : .invite i.id ∈ t.held ∧ .organization i.organization ∈ t.held ∧ .user actor.id ∈ t.held

/-- What a call of `accept_invite` relies on. -/
structure InviteLocal (c : ReferralSettings) (w : ReferralDb × InviteRecord)
    (t : ReferralThread) : Prop where
  locked : Locked w.1 t
  accepting : ∀ i, accepting? t.pc = some i → ∃ actor raw, Accepting c w t i actor raw
  seeking : t.pc = .seekingInvite → ∀ actor raw, t.call = .organization (.acceptInvite actor raw) →
    .user actor.id ∈ t.held
  member : ∀ i m, t.pc = .joining i (some m) → m ∈ w.1.memberships ∧ m.organization = i.organization
    ∧ ∀ actor raw, t.call = .organization (.acceptInvite actor raw) → m.user = actor.id

/-! ## What a step does to invites -/

/-- The memberships after an invite was accepted by a call that had found a membership or none. -/
def Joins (s s₁ : ReferralDb) (invite : OrganizationInvite) (actor : UserId) :
    Option Membership → Prop
  | none =>
      ∃ id, s.memberships.insert?
        ⟨id, invite.organization, actor, invite.role.membershipRole, .active⟩
      = some s₁.memberships
  | some m => (joined invite m = m ∧ s₁.memberships = s.memberships)
      ∨ s.memberships.update? (·.id = m.id) (joined invite) = some s₁.memberships

/-- The invites after a step. -/
inductive InviteMove (c : ReferralSettings) (s : ReferralDb) (t t' : ReferralThread)
    (s₁ : ReferralDb) : Prop
  | same : issued? t t' = none → s₁.invites = s.invites → InviteMove c s t t' s₁
  | creates {i : OrganizationInvite} {raw : String} :
      issued? t t' = some (i.id, ⟨i.role, i.expiresAt, raw⟩) → i.tokenHash = c.text.sha256 raw →
      i.status = .pending → s.invites.insert? i = some s₁.invites → InviteMove c s t t' s₁
  | reissues {i p : OrganizationInvite} {raw : String}
      {f : OrganizationInvite → OrganizationInvite} :
      issued? t t' = some (i.id, ⟨i.role, i.expiresAt, raw⟩) → i.tokenHash = c.text.sha256 raw →
      i.status = .pending → p ∈ s.invites → p.status = .pending → f p = i → i.id = p.id →
      s.grants t (.invite p.id) = true →
      s₁.invites.rows = s.invites.rows.map (rewrite (·.id = p.id) f) → InviteMove c s t t' s₁
  | closes {id : Uuid} {status : InviteStatus} {user : Option UserId} :
      issued? t t' = none → status ≠ .accepted
        → (∀ i ∈ s.invites, i.id = id → i.status = .pending) →
      s.grants t (.invite id) = true →
      s₁.invites.rows = s.invites.rows.map (rewrite (·.id = id) (closed status user))
        → InviteMove c s t t' s₁
  | accepts {actor : Person} {raw : String} {invite : OrganizationInvite}
      {found : Option Membership} :
      issued? t t' = none → t.call = .organization (.acceptInvite actor raw)
        → t.pc = .joining invite found →
      s₁.invites.rows = s.invites.rows.map
        (rewrite (·.id = invite.id) (closed .accepted (some actor.id))) →
      Joins s s₁ invite actor.id found → InviteMove c s t t' s₁

variable {organization : Uuid} {i : OrganizationInvite} {status : InviteStatus} {actor : Person}
  {raw : String}

section Moves

variable {c : ReferralSettings} {s s' s₁ : ReferralDb} {t t' u : ReferralThread} {x : ReferralInput}
  {v : ReferralView}

/-- What `create_invite` writes. -/
theorem writeInvite_issues {actor : UserId} {email : String} {role : InviteRole}
    {a : ReferralAnswer} (h : writeInvite c s actor organization email role v = .ok (s₁, a)) :
    ∃ i created, a = .inviteCreated i (v.token 0) created ∧ i.tokenHash = c.text.sha256 (v.token 0)
      ∧ i.status = .pending ∧ (s.invites.insert? i = some s₁.invites
        ∨ ∃ p f, pendingInvite? s organization (normalizeInviteEmail c.text email) = some p
          ∧ f p = i ∧ i.id = p.id
          ∧ s.invites.update? (·.id = p.id) f = some s₁.invites) := by
  unfold writeInvite at h
  dsimp only at h
  split at h
  · rename_i p hp
    split at h
    · cases h
    rename_i invites hu
    have hpending : p.status = .pending := by
      have hprop := Table.prop_of_find? hp
      simp only [Bool.and_eq_true, decide_eq_true_eq] at hprop
      exact hprop.2
    cases h
    exact ⟨_, _, rfl, rfl, hpending, .inr ⟨p, _, hp, rfl, rfl, hu⟩⟩
  · split at h
    · cases h
    split at h
    · cases h
    rename_i invites hi
    cases h
    exact ⟨_, _, rfl, rfl, rfl, .inl hi⟩

theorem not_issued (hpc : ∀ organization, t.pc ≠ .writingInvite organization) :
    issued? t t' = none := by
  unfold issued?
  split
  · rename_i organization _ _ _ hwriting _
    exact absurd hwriting (hpc organization)
  · rfl

theorem raise_not_issued {e : Exc} (hpc : t'.pc = .raised e) : issued? t t' = none := by
  unfold issued?
  split
  · rename_i hreturned
    rw [hpc] at hreturned
    cases hreturned
  · rfl

theorem writeInvite_move {actor : UserId} {o : Uuid} {email : String} {role : InviteRole}
    (hpc : t.pc = .writingInvite o)
    (hgrant : ∀ row ∈ inviteRows s actor organization
      (normalizeInviteEmail c.text email), s.grants t row = true)
    (h : s.settle t (writeInvite c s actor organization email role v) = (s', t')) :
    InviteMove c s t t' s' := by
  unfold ReferralDb.settle at h
  split at h
  · cases h
    exact .same (raise_not_issued rfl) rfl
  · rename_i s₁ a hw
    obtain ⟨i, created, rfl, htoken, hpending, hi⟩ := writeInvite_issues hw
    obtain ⟨hs', ht'⟩ := Prod.mk.inj h
    have hissued : issued? t t' = some (i.id, ⟨i.role, i.expiresAt, v.token 0⟩) := by
      unfold issued?
      rw [hpc, ← ht']
    have hinvites : s'.invites = s₁.invites := by
      rw [← hs']
      rfl
    rcases hi with hi | ⟨p, f, hp, hf, hid, hu⟩
    · exact .creates hissued htoken hpending (hinvites ▸ hi)
    · have hrow : s.grants t (.invite p.id) = true := by
        refine hgrant _ ?_
        unfold inviteRows
        rw [hp]
        exact List.mem_singleton.2 rfl
      have hstatus : p.status = .pending := by
        have hprop := Table.prop_of_find? hp
        simp only [Bool.and_eq_true, decide_eq_true_eq] at hprop
        exact hprop.2
      exact .reissues hissued htoken hpending (Table.mem_of_find? hp) hstatus hf hid hrow
        (hinvites ▸ Table.rows_update? hu)

/-- A step of `create_invite` at its write. -/
theorem writingInvite_move (hpc : t.pc = .writingInvite organization)
    (h : referralStep c s t x = some (s', t')) : InviteMove c s t t' s' := by
  cases x with
  | fail =>
    have hlive : t.pc.isLive = true := by
      rw [hpc]
      rfl
    simp only [referralStep, hlive, if_true] at h
    cases h
    exact .same (raise_not_issued rfl) rfl
  | go v =>
    simp only [referralStep, hpc] at h
    split at h
    · rename_i k hcall
      cases k with
      | createInvite actor organization' email role =>
        simp only [organizationStep, hpc] at h
        split at h
        · cases h
        · obtain ⟨hgrant, h⟩ := await_some h
          exact writeInvite_move hpc hgrant h
      | _ => simp [organizationStep, hpc] at h
    · rename_i k hcall
      simp [attributionStep, hpc] at h
    · cases h

theorem closes_of_pending (hpc : ∀ o, t.pc ≠ .writingInvite o) (hstatus : status ≠ .accepted)
    (hi : i ∈ s.invites) (hpending : i.status = .pending)
    (hgrant : s.grants t (.invite i.id) = true)
    (hrows : s₁.invites.rows = s.invites.rows.map
      (rewrite (·.id = i.id) (closed status i.acceptedBy))) :
    InviteMove c s t t' s₁ := by
  refine .closes (not_issued hpc) hstatus (fun j hj hid => ?_) hgrant hrows
  have hsame : j = i := Table.eq_of_clash hj hi (.inl hid)
  rw [hsame]
  exact hpending

theorem revokeInvite_move {id : Uuid} {a : ReferralAnswer} (hpc : ∀ o, t.pc ≠ .writingInvite o)
    (hgrant : s.grants t (.invite id) = true) (h : revokeInvite s organization id = .ok (s₁, a)) :
    InviteMove c s t t' s₁ := by
  unfold revokeInvite at h
  split at h
  · cases h
  rename_i invite hfind
  have hid : invite.id = id := by
    have hprop := Table.prop_of_find? hfind
    simp only [Bool.and_eq_true, decide_eq_true_eq] at hprop
    exact hprop.1
  subst hid
  split at h
  · cases h
    exact .same (not_issued hpc) rfl
  · rename_i hstatus
    cases h
    exact closes_of_pending hpc (by decide) (Table.mem_of_find? hfind)
      (not_not.1 hstatus) hgrant rfl

theorem expire_move {invite : OrganizationInvite} (hpc : ∀ o, t.pc ≠ .writingInvite o)
    (hi : invite ∈ s.invites) (hgrant : s.grants t (.invite invite.id) = true) :
    InviteMove c s t t' (expire s invite) := by
  unfold expire
  split
  · rename_i hpending
    exact closes_of_pending hpc (by decide) hi hpending hgrant rfl
  · exact .same (not_issued hpc) rfl

theorem write_invites (hw : ReferralWrite c s t x s₁) (hpc : ∀ o, t.pc ≠ .writingInvite o) :
    InviteMove c s t t' s₁ := by
  have hsame : s₁.invites = s.invites → InviteMove c s t t' s₁ := .same (not_issued hpc)
  cases hw with
  | stays => exact hsame rfl
  | creates h =>
    obtain ⟨_, _, _, _, rfl⟩ := createOrganization_tables h
    exact hsame rfl
  | setsStatus => exact hsame rfl
  | promotes _ _ _ h =>
    rcases promote_cases h with rfl | ⟨_, s₂, _, _, _, _, h₂, h₃⟩
    · exact hsame rfl
    · obtain ⟨_, _, rfl⟩ := saveMembershipRow_cases h₂
      obtain ⟨_, _, rfl⟩ := saveMembershipRow_cases h₃
      exact hsame rfl
  | setsRole _ _ h =>
    obtain ⟨_, _, _, _, _, hs⟩ := setRole_cases h
    obtain ⟨_, _, rfl⟩ := saveMembershipRow_cases hs
    exact hsame rfl
  | revokes _ _ h =>
    rcases revoke_cases h with rfl | ⟨_, _, _, hs⟩
    · exact hsame rfl
    · obtain ⟨_, _, rfl⟩ := saveMembershipRow_cases hs
      exact hsame rfl
  | writesInvite _ hwriting _ _ => exact absurd hwriting (hpc _)
  | revokesInvite hgrant h => exact revokeInvite_move hpc hgrant h
  | expires hi hgrant => exact expire_move hpc hi hgrant
  | accepts hcall hjoining hjoined =>
      exact .accepts (not_issued hpc) hcall hjoining rfl (.inl ⟨hjoined, rfl⟩)
  | joins hcall hjoining hins => exact .accepts (not_issued hpc) hcall hjoining rfl ⟨_, hins⟩
  | rejoins hcall hjoining _ _ h =>
    obtain ⟨_, hupdate, rfl⟩ := saveMembershipRow_cases h
    exact .accepts (not_issued hpc) hcall hjoining rfl (.inr hupdate)
  | saves _ _ h =>
    obtain ⟨_, rfl⟩ := saveForms_cases h
    exact hsame rfl
  | records _ _ _ => exact hsame rfl
  | drops _ => exact hsame rfl
  | @attributes _ _ pending _ _ _ _ _ h =>
    obtain ⟨_, s₂, _, hb, rfl⟩ := insertAttribution_cases h
    obtain ⟨_, hp⟩ := elim_dropPending s₂ pending
    rw [hp]
    rcases creditBonus_cases hb with rfl | ⟨_, _, _, _, _, _, _, _, _, _, _, _, rfl⟩
    · exact .same (not_issued hpc) rfl
    · exact .same (not_issued hpc) rfl
  | moves _ _ => exact hsame rfl
  | mints _ _ _ h =>
    obtain ⟨_, _, _, _, _, _, rfl⟩ := createChannel_cases h
    exact hsame rfl
  | resettles _ => exact hsame rfl
  | relinks _ _ _ _ _ => exact hsame rfl
  | visits _ _ _ => exact hsame rfl
  | registers h =>
    obtain ⟨_, _, _, rfl⟩ := registerPerson_cases h
    exact hsame rfl
  | posts _ _ => exact hsame rfl

/-- **Every step has its move of the invites.** -/
theorem step_invites (h : referralStep c s t x = some (s', t')) : InviteMove c s t t' s' := by
  by_cases hpc : ∃ o, t.pc = .writingInvite o
  · obtain ⟨o, hpc⟩ := hpc
    exact writingInvite_move hpc h
  · obtain ⟨s₁, hw, hs'⟩ := (referralStep_effect h).write
    rw [hs']
    have hmove : InviteMove c s t t' s₁ := write_invites hw fun o ho => hpc ⟨o, ho⟩
    cases hmove with
    | same hi heq => exact .same hi heq
    | creates hi htoken hpending hins => exact .creates hi htoken hpending hins
    | reissues hi htoken hpending hp hstatus hf hid hgrant hrows =>
      exact .reissues hi htoken hpending hp hstatus hf hid hgrant hrows
    | closes hi hstatus hpending hgrant hrows => exact .closes hi hstatus hpending hgrant hrows
    | @accepts _ _ _ found hi hcall hjoining hrows hjoins =>
      refine .accepts hi hcall hjoining hrows ?_
      cases found with
      | none => exact hjoins
      | some m => exact hjoins

/-! ## What it does to memberships -/

/-- The memberships after a step that is none of the membership services. -/
inductive MemberMove (s : ReferralDb) (t : ReferralThread) (s₁ : ReferralDb) : Prop
  | same : s₁.memberships = s.memberships → MemberMove s t s₁
  | inserts {m : Membership} : s.memberships.insert? m = some s₁.memberships → MemberMove s t s₁
  | joins {i : OrganizationInvite} {m : Membership} :
      t.pc = .joining i (some m)
        → s.memberships.update? (·.id = m.id) (joined i) = some s₁.memberships →
      MemberMove s t s₁

theorem write_members (hw : ReferralWrite c s t x s₁) (hcalls : writesMembers t.call = false) :
    MemberMove s t s₁ := by
  cases hw with
  | stays => exact .same rfl
  | creates h => exact .inserts (createOrganization_cases h).1
  | setsStatus => exact .same rfl
  | promotes hcall _ _ _ =>
    rw [hcall] at hcalls
    cases hcalls
  | setsRole hcall _ _ =>
    rw [hcall] at hcalls
    cases hcalls
  | revokes hcall _ _ =>
    rw [hcall] at hcalls
    cases hcalls
  | writesInvite _ _ _ h =>
    obtain ⟨_, rfl⟩ := writeInvite_cases h
    exact .same rfl
  | revokesInvite _ h =>
    obtain ⟨_, rfl⟩ := revokeInvite_cases h
    exact .same rfl
  | @expires invite _ _ =>
    obtain ⟨_, hexpired⟩ := expire_cases s invite
    rw [hexpired]
    exact .same rfl
  | accepts _ _ _ => exact .same rfl
  | joins _ _ h => exact .inserts h
  | rejoins _ hjoining _ _ h =>
    obtain ⟨_, hu, rfl⟩ := saveMembershipRow_cases h
    exact .joins hjoining hu
  | saves hforms _ _ =>
    unfold forms? at hforms
    split at hforms
    · rename_i hcall
      rw [hcall] at hcalls
      cases hcalls
    · rename_i hcall
      rw [hcall] at hcalls
      cases hcalls
    · cases hforms
  | records _ _ _ => exact .same rfl
  | drops _ => exact .same rfl
  | attributes _ _ h => exact .same (insertAttribution_members h).1
  | moves _ _ => exact .same rfl
  | mints _ _ _ h =>
    obtain ⟨_, _, _, _, _, _, rfl⟩ := createChannel_cases h
    exact .same rfl
  | resettles _ => exact .same rfl
  | relinks _ _ _ _ _ => exact .same rfl
  | visits _ _ _ => exact .same rfl
  | registers h =>
    obtain ⟨_, _, _, rfl⟩ := registerPerson_cases h
    exact .same rfl
  | posts _ _ => exact .same rfl

/-! ## Where a call goes on -/

theorem judgeInvite_proceeds {now : Time} (h : judgeInvite c s actor i now = .ok .proceeds) :
    i.status = .pending ∧ now < i.expiresAt
      ∧ (∃ o ∈ s.organizations, o.id = i.organization ∧ o.status = .active)
      ∧ normalizeInviteEmail c.text actor.email = i.emailNormalized := by
  unfold judgeInvite at h
  split at h
  · split at h
    · cases h
    · cases h
  · cases h
  · cases h
  · rename_i hpending
    split at h
    · cases h
    rename_i hexpires
    split at h
    · cases h
    rename_i o ho
    split at h
    · cases h
    rename_i hactive
    split at h
    · cases h
    rename_i hemail
    refine ⟨hpending, Int.not_le.1 hexpires, ⟨o, Table.mem_of_find? ho, ?_, not_not.1 hactive⟩,
      not_not.1 hemail⟩
    simpa using Table.prop_of_find? ho

theorem not_accepting {pc : ReferralPc}
    (h : isPlain pc = true ∨ proceeds pc = true ∨ attributes pc = true) :
    accepting? pc = none := by
  rcases h with h | h | h
  all_goals cases pc <;> first | rfl | cases h | (rename_i next; cases
    next <;> first | rfl | cases h)

/-- A call that goes on to accept an invite did so before, or has just checked it. -/
theorem goes_accepting {held : List LockedRow} {pc : ReferralPc}
    (hgoes : ReferralGoes c s t x held pc) (hi : accepting? pc = some i) :
    (accepting? t.pc = some i)
      ∨ ∃ actor raw v, x = .go v ∧ t.call = .organization (.acceptInvite actor raw)
        ∧ t.pc = .seekingInvite
        ∧ pc = .guarding actor.id i.organization (.accepting i) ∧ i ∈ s.invites
        ∧ i.tokenHash = c.text.sha256 (PyText.strip raw)
          ∧ judgeInvite c s actor i v.now = .ok .proceeds
        ∧ .invite i.id ∈ held ∧ .organization i.organization ∈ held := by
  have hnot : accepting? pc ≠ none := by
    rw [hi]
    exact Option.some_ne_none i
  cases hgoes with
  | plain hplain => exact absurd (not_accepting (.inl hplain)) hnot
  | resolves => cases hi
  | proceeds _ _ _ _ _ _ _ hok =>
      exact absurd (not_accepting (.inr (.inl (proceeds_of_ok hok)))) hnot
  | guardsInvite hx hcall hpc hmem htoken hjudged hinvite horganization =>
    cases hi
    exact .inr ⟨_, _, _, hx, hcall, hpc, rfl, hmem, htoken, hjudged, hinvite, horganization⟩
  | guardsForm => cases hi
  | saves => cases hi
  | unguarded hfrom _ _ =>
    rw [hfrom]
    exact .inl hi
  | guarded hfrom _ _ =>
    rw [hfrom]
    exact .inl hi
  | locksUser hfrom _ _ =>
    rw [hfrom]
    exact .inl hi
  | passes hfrom _ _ =>
    rw [hfrom]
    exact .inl hi
  | locksTarget => cases hi
  | seeksInvite => cases hi
  | joins _ hfrom _ =>
    cases hi
    rcases hfrom with hfrom | hfrom
    · rw [hfrom]
      exact .inl rfl
    · rw [hfrom]
      exact .inl rfl
  | mints => cases hi
  | takesUser _ _ hattributes => exact absurd (not_accepting (.inr (.inr hattributes))) hnot
  | allows => cases hi
  | allowsMove => cases hi

/-! ## What others leave to a call that accepts -/

theorem InviteMove.held (hmove : InviteMove c s t t' s₁)
    (ht : ∀ j, accepting? t.pc = some j → .invite j.id ∈ t.held) (hu : Locked s u)
    (hapart : ApartRows t u) (hheld : .invite i.id ∈ u.held)
    (hi : i ∈ s.invites) : i ∈ s₁.invites := by
  have hother : ∀ id, s.grants t (.invite id) = true → i.id ≠ id := by
    rintro id hgrant rfl
    rw [not_grants hu hapart hheld] at hgrant
    cases hgrant
  cases hmove with
  | same _ heq => exact heq ▸ hi
  | creates _ _ _ hins => exact (Table.mem_insert hins).2 (.inl hi)
  | reissues _ _ _ _ _ _ _ hgrant hrows =>
    rw [Table.mem_def, hrows]
    exact List.mem_map.2 ⟨i, hi, rewrite_neg _ (by simpa using hother _ hgrant)⟩
  | closes _ _ _ hgrant hrows =>
    rw [Table.mem_def, hrows]
    exact List.mem_map.2 ⟨i, hi, rewrite_neg _ (by simpa using hother _ hgrant)⟩
  | @accepts _ _ invite _ _ _ hpc hrows _ =>
    have hrow : .invite invite.id ∈ t.held := ht invite (by rw [hpc]; rfl)
    rw [Table.mem_def, hrows]
    exact List.mem_map.2 ⟨i, hi, rewrite_neg _ (by simpa using hother _ (grants_of_held hrow))⟩

/-- An organization that another call holds stays as it is. -/
theorem write_organizations {o : Organization} (hw : ReferralWrite c s t x s₁) (hu : Locked s u)
    (hapart : ApartRows t u) (hheld : .organization o.id ∈ u.held) (ho : o ∈ s.organizations) :
    o ∈ s₁.organizations := by
  cases hw with
  | creates h =>
    obtain ⟨_, ⟨_, _, hi⟩, _⟩ := createOrganization_cases h
    exact (Table.mem_insert hi).2 (.inl ho)
  | @setsStatus o' status hgrant =>
    have hother : o.id ≠ o'.id := by
      intro hid
      rw [← hid, not_grants hu hapart hheld] at hgrant
      cases hgrant
    exact List.mem_map.2 ⟨o, ho, rewrite_neg _ (by simpa using hother)⟩
  | promotes _ _ _ h =>
    rcases promote_cases h with rfl | ⟨_, s₂, _, _, _, _, h₂, h₃⟩
    · exact ho
    · obtain ⟨_, _, rfl⟩ := saveMembershipRow_cases h₂
      obtain ⟨_, _, rfl⟩ := saveMembershipRow_cases h₃
      exact ho
  | setsRole _ _ h =>
    obtain ⟨_, _, _, _, _, hs⟩ := setRole_cases h
    obtain ⟨_, _, rfl⟩ := saveMembershipRow_cases hs
    exact ho
  | revokes _ _ h =>
    rcases revoke_cases h with rfl | ⟨_, _, _, hs⟩
    · exact ho
    · obtain ⟨_, _, rfl⟩ := saveMembershipRow_cases hs
      exact ho
  | writesInvite _ _ _ h =>
    obtain ⟨_, rfl⟩ := writeInvite_cases h
    exact ho
  | revokesInvite _ h =>
    obtain ⟨_, rfl⟩ := revokeInvite_cases h
    exact ho
  | @expires invite _ _ =>
    obtain ⟨_, hexpired⟩ := expire_cases s invite
    rw [hexpired]
    exact ho
  | rejoins _ _ _ _ h =>
    obtain ⟨_, _, rfl⟩ := saveMembershipRow_cases h
    exact ho
  | saves _ _ h =>
    obtain ⟨_, rfl⟩ := saveForms_cases h
    exact ho
  | attributes _ _ h => exact (insertAttribution_members h).2 ▸ ho
  | mints _ _ _ h =>
    obtain ⟨_, _, _, _, _, _, rfl⟩ := createChannel_cases h
    exact ho
  | registers h =>
    obtain ⟨_, _, _, rfl⟩ := registerPerson_cases h
    exact ho
  | _ => exact ho

/-! ## The record -/

variable {r : InviteRecord}

theorem note_issues (h : issued? t t' = none) : (noteInvite s t x s' t' r).issues = r.issues := by
  unfold noteInvite
  rw [h]
  rfl

theorem note_checks (h : passed? t x t' = none) : (noteInvite s t x s' t' r).checks = r.checks := by
  unfold noteInvite
  rw [h]
  rfl

theorem not_passed (hpc : t.pc ≠ .seekingInvite) : passed? t x t' = none := by
  unfold passed?
  split
  · rename_i hseeking _
    exact absurd hseeking hpc
  · rfl

/-- A check that is recorded has locked the invite. -/
theorem passed_holds {k : Uuid} {y : UserId × Time} (he : Effect c s t x s' t')
    (h : passed? t x t' = some (k, y)) :
    .invite k ∈ t'.held := by
  unfold passed? at h
  split at h
  · rename_i v user organization i hseeking hpc
    cases h
    have hlive : t'.pc.isLive = true := by
      rw [hpc]
      rfl
    obtain ⟨_, _, hgoes⟩ := he.goes hlive
    rw [hpc] at hgoes
    rcases goes_accepting hgoes rfl with hbefore | ⟨_, _, _, _, _, _, _, _, _, _, hinvite, _⟩
    · rw [hseeking] at hbefore
      cases hbefore
    · exact hinvite
  · cases h

/-- The last check of an invite that another call holds stays the last. -/
theorem newest_check_kept {id : Uuid} (he : Effect c s t x s' t') (hapart : ApartRows t' u)
    (hheld : .invite id ∈ u.held) :
    newest (noteInvite s t x s' t' r).checks id = newest r.checks id := by
  cases hp : passed? t x t' with
  | none => rw [note_checks hp]
  | some pass =>
    obtain ⟨k, y⟩ := pass
    have hne : k ≠ id := by
      rintro rfl
      exact hapart _ (passed_holds he hp) hheld
    unfold noteInvite
    rw [hp]
    exact newest_cons_other hne

theorem Issued.closed {user : Option UserId} (h : Issued c r i) :
    Issued c r (closed status user i) :=
  h

theorem InviteInv.rewritten {id : Uuid} {user : Option UserId} (h : ∀ i ∈ s.invites, Issued c r i)
    (hrows : s₁.invites.rows = s.invites.rows.map
      (rewrite (·.id = id) (Partner.closed status user))) :
    ∀ i ∈ s₁.invites, Issued c r i := by
  intro i hi
  rw [Table.mem_def, hrows] at hi
  obtain ⟨j, hj, ⟨_, rfl⟩ | ⟨_, rfl⟩⟩ := Table.of_mem_rewritten hi
  · exact (h j hj).closed
  · exact h i hj

theorem issued_step (hmove : InviteMove c s t t' s') (h : ∀ i ∈ s.invites, Issued c r i) :
    ∀ i ∈ s'.invites, Issued c (noteInvite s t x s' t' r) i := by
  cases hmove with
  | same hissued heq =>
    intro i hi
    rw [heq] at hi
    unfold Issued
    rw [note_issues hissued]
    exact h i hi
  | @creates i raw hissued htoken _ hins =>
    intro j hj
    unfold Issued noteInvite
    rw [hissued]
    rcases (Table.mem_insert hins).1 hj with hj | rfl
    · have hne : i.id ≠ j.id := fun hid => Table.apart_of_insert hins hj (.inl hid.symm)
      obtain ⟨issue, hnewest, hprops⟩ := h j hj
      exact ⟨issue, (newest_cons_other hne).trans hnewest, hprops⟩
    · exact ⟨_, newest_cons_self .., rfl, rfl, htoken⟩
  | @reissues i p raw f hissued htoken _ hp _ hf hid _ hrows =>
    intro j hj
    unfold Issued noteInvite
    rw [hissued]
    rw [Table.mem_def, hrows] at hj
    obtain ⟨q, hq, ⟨hpq, rfl⟩ | ⟨hpq, rfl⟩⟩ := Table.of_mem_rewritten hj
    · have hsame : q = p := Table.eq_of_clash hq hp (.inl (by simpa using hpq))
      rw [hsame, hf]
      exact ⟨_, newest_cons_self .., rfl, rfl, htoken⟩
    · have hne : i.id ≠ j.id := by
        rw [hid]
        exact fun heq => hpq (by simpa using heq.symm)
      obtain ⟨issue, hnewest, hprops⟩ := h j hq
      exact ⟨issue, (newest_cons_other hne).trans hnewest, hprops⟩
  | closes hissued _ _ _ hrows =>
    intro i hi
    unfold Issued
    rw [note_issues hissued]
    exact InviteInv.rewritten h hrows i hi
  | accepts hissued _ _ hrows _ =>
    intro i hi
    unfold Issued
    rw [note_issues hissued]
    exact InviteInv.rewritten h hrows i hi

/-! ## A call that accepts keeps what it knows -/

theorem Accepting.step (he : Effect c s t x s' t') (hlive : t'.pc.isLive = true)
    (hpc : t.pc ≠ .seekingInvite) (h : Accepting c (s, r) t i actor raw) :
    Accepting c (s', noteInvite s t x s' t' r) t' i actor raw := by
  obtain ⟨hs, hheld, _⟩ := he.goes hlive
  have hchecks : (noteInvite s t x s' t' r).checks = r.checks := note_checks (not_passed hpc)
  obtain ⟨hinvite, horganization, huser⟩ := h.holds
  rw [hs]
  exact {
    call := he.call.trans h.call
    invite := h.invite
    pending := h.pending
    token := h.token
    email := h.email
    organization := h.organization
    inTime := by
      obtain ⟨now, hnewest, hnow⟩ := h.inTime
      refine ⟨now, ?_, hnow⟩
      rw [← hs, hchecks]
      exact hnewest
    holds := ⟨hheld _ hinvite, hheld _ horganization, hheld _ huser⟩ }

theorem not_seeking_of_accepting (h : accepting? t.pc = some i) :
    t.pc ≠ .seekingInvite := by
  intro hpc
  rw [hpc] at h
  cases h

theorem live_of_accepting (h : accepting? t.pc = some i) : t.pc.isLive = true := by
  cases hpc : t.pc with
  | returned _ => rw [hpc] at h; cases h
  | raised _ => rw [hpc] at h; cases h
  | _ => rfl

/-- **A step of a call leaves what it relies on next.** -/
theorem invite_step (he : Effect c s t x s' t') (hL : InviteLocal c (s, r) t) :
    InviteLocal c (s', noteInvite s t x s' t' r) t' := by
  refine ⟨he.taken hL.locked, ?_, ?_, ?_⟩
  · intro i hi
    have hlive := live_of_accepting hi
    obtain ⟨hs, hheld, hgoes⟩ := he.goes hlive
    rcases goes_accepting hgoes hi with
      hbefore | ⟨actor, raw, v, rfl, hcall, hseeking, hpc, hmem, htoken, hjudged, hinvite,
        horganization⟩
    · obtain ⟨actor, raw, haccepting⟩ := hL.accepting i hbefore
      exact ⟨actor, raw, haccepting.step he hlive (not_seeking_of_accepting hbefore)⟩
    · -- it has just been checked: the check is recorded with its time
      obtain ⟨hpending, hnow, horg, hemail⟩ := judgeInvite_proceeds hjudged
      have hnewest : newest (noteInvite s t (.go v) s' t' r).checks i.id
          = some (actor.id, v.now) := by
        have hpassed : passed? t (.go v) t' = some (i.id, actor.id, v.now) := by
          unfold passed?
          rw [hseeking, hpc]
        unfold noteInvite
        rw [hpassed]
        exact newest_cons_self ..
      refine ⟨actor, raw, he.call.trans hcall, ?_, hpending, htoken, hemail, ?_,
        ⟨v.now, hnewest, hnow⟩, hinvite,
        horganization, hheld _ (hL.seeking hseeking actor raw hcall)⟩
      · rw [hs]
        exact hmem
      · rw [hs]
        exact horg
  · intro hpc actor raw hcall
    have hlive : t'.pc.isLive = true := by
      rw [hpc]
      rfl
    obtain ⟨_, _, hgoes⟩ := he.goes hlive
    rw [hpc] at hgoes
    cases hgoes with
    | plain hplain => cases hplain
    | proceeds _ _ _ _ _ _ _ hok => cases proceeds_of_ok hok
    | seeksInvite hseeks hheld =>
      have hsame := (he.call.trans hseeks).symm.trans hcall
      cases hsame
      exact hheld
    | takesUser _ _ hattributes => cases hattributes
  · intro i m hpc
    have hlive : t'.pc.isLive = true := by
      rw [hpc]
      rfl
    obtain ⟨hs, _, hgoes⟩ := he.goes hlive
    rw [hpc] at hgoes
    cases hgoes with
    | plain hplain => cases hplain
    | proceeds _ _ _ _ _ _ _ hok => cases proceeds_of_ok hok
    | joins hcall _ hfound =>
      obtain ⟨hm, horganization, huser⟩ := hfound m rfl
      refine ⟨?_, horganization, ?_⟩
      · rw [hs]
        exact hm
      · intro actor raw hcall'
        have hsame := (he.call.trans hcall).symm.trans hcall'
        cases hsame
        exact huser
    | takesUser _ _ hattributes => cases hattributes

/-! ## Others leave it -/

/-- A membership that another call is about to accept an invite with stays. -/
theorem member_kept {m : Membership} (hcalls : writesMembers t.call = false)
    (he : Effect c s t x s' t') (hL : InviteLocal c (s, r) t) (hu : InviteLocal c (s, r) u)
    (hapart : ApartRows t u) (hpc : u.pc = .joining i (some m)) : m ∈ s'.memberships := by
  obtain ⟨s₁, hw, hs'⟩ := he.write
  obtain ⟨hm, _, huser⟩ := hu.member i m hpc
  have hkept : m ∈ s₁.memberships := by
    cases write_members hw hcalls with
    | same heq => exact heq ▸ hm
    | inserts hins => exact (Table.mem_insert hins).2 (.inl hm)
    | @joins i' m' hjoining hupdate =>
      obtain ⟨actor, raw, hother⟩ := hu.accepting i (by rw [hpc]; rfl)
      obtain ⟨actor', raw', hself⟩ := hL.accepting i' (by rw [hjoining]; rfl)
      obtain ⟨hm', _, huser'⟩ := hL.member i' m' hjoining
      -- both hold their users, so these are two
      have hne : m.id ≠ m'.id := by
        intro hid
        have hsame : m = m' := Table.eq_of_clash hm hm' (.inl hid)
        have husers : actor'.id = actor.id := by
          rw [← huser' actor' raw' hself.call, ← hsame, huser actor raw hother.call]
        exact hapart _ hself.holds.2.2 (husers ▸ hother.holds.2.2)
      exact (Table.mem_update? hupdate).2 ⟨m, hm, rewrite_neg _ (by simpa using hne)⟩
  rw [hs']
  exact hkept

theorem Accepting.frame (he : Effect c s t x s' t') (hmove : InviteMove c s t t' s')
    (hL : InviteLocal c (s, r) t) (hu : Locked s u) (hapart : ApartRows t u)
    (hapart' : ApartRows t' u) (h : Accepting c (s, r) u i actor raw) :
    Accepting c (s', noteInvite s t x s' t' r) u i actor raw := by
  obtain ⟨hinvite, horganization, huser⟩ := h.holds
  have hself : ∀ j, accepting? t.pc = some j → .invite j.id ∈ t.held := by
    intro j hj
    obtain ⟨_, _, hj⟩ := hL.accepting j hj
    exact hj.holds.1
  have horg : ∃ o ∈ s'.organizations, o.id = i.organization ∧ o.status = .active := by
    obtain ⟨o, ho, hid, hactive⟩ := h.organization
    obtain ⟨s₁, hw, hs'⟩ := he.write
    have hkept := write_organizations hw hu hapart (hid ▸ horganization) ho
    rw [hs']
    exact ⟨o, hkept, hid, hactive⟩
  exact {
    call := h.call
    invite := hmove.held hself hu hapart hinvite h.invite
    pending := h.pending
    token := h.token
    email := h.email
    organization := horg
    inTime := by
      obtain ⟨now, hnewest, hnow⟩ := h.inTime
      exact ⟨now, (newest_check_kept he hapart' hinvite).trans hnewest, hnow⟩
    holds := h.holds }

end Moves

/-- The program with the record of invites. -/
abbrev inviteProgram (c : ReferralSettings) :
    Program (ReferralDb × InviteRecord) ReferralThread ReferralCall ReferralInput :=
  (referralProgram c).recorded noteInvite

theorem inviteInvariant (c : ReferralSettings) :
    Invariant (inviteProgram c) (fun w => NoInvites w.1 ∧ w.2 = ⟨[], []⟩) (fun w => InviteCalls w.1)
      (InviteInv c) (InviteLocal c) ApartRows where
  init := by
    rintro ⟨s, r⟩ ⟨⟨hnone, _⟩, _⟩ i hi
    have hnone' : s.invites = .empty := hnone
    have hi' : i ∈ s.invites := hi
    rw [hnone'] at hi'
    exact absurd hi' (Table.not_mem_empty i)
  start k _ := by
    refine ⟨?_, ?_, ?_, ?_⟩
    · intro row hrow
      cases hrow
    · intro i hi
      cases hi
    · intro hpc
      cases hpc
    · intro i m hpc
      cases hpc
  apart_start k _ := ApartRows.start (c := c) k
  symm h := h.symm
  step := by
    rintro ⟨s, r⟩ t x ⟨s', r'⟩ t' hG hL hok hstep
    obtain ⟨hstep, hnote⟩ := Program.recorded_step.1 hstep
    have hmove := step_invites hstep
    have he := referralStep_effect hstep
    obtain rfl : r' = noteInvite s t x s' t' r := hnote
    exact ⟨issued_step hmove hG, invite_step he hL⟩
  frame := by
    rintro ⟨s, r⟩ t x ⟨s', r'⟩ t' u hG hL hok hstep hu hapart
    obtain ⟨hstep, hnote⟩ := Program.recorded_step.1 hstep
    have hmove := step_invites hstep
    have he := referralStep_effect hstep
    obtain rfl : r' = noteInvite s t x s' t' r := hnote
    obtain ⟨hlocked, hapart'⟩ := he.frame hu.locked hapart
    refine ⟨⟨hlocked, ?_, hu.seeking, ?_⟩, hapart'⟩
    · intro i hi
      obtain ⟨actor, raw, haccepting⟩ := hu.accepting i hi
      exact ⟨actor, raw, haccepting.frame he hmove hL hu.locked hapart hapart'⟩
    · intro i m hpc
      exact ⟨member_kept hok he hL hu hapart hpc, (hu.member i m hpc).2⟩

/-! ## The headline -/

/-- The recorded runs in which invites are created, revoked and accepted. -/
abbrev InviteReach (c : ReferralSettings)
    (g : Config (ReferralDb × InviteRecord) ReferralThread) : Prop :=
  (referralProgram c).RecordedReach noteInvite ⟨[], []⟩ NoInvites InviteCalls g

abbrev InviteLeads (c : ReferralSettings)
    (g g' : Config (ReferralDb × InviteRecord) ReferralThread) : Prop :=
  (inviteProgram c).LeadsWhere (fun w => InviteCalls w.1) g g'

/-- A step makes an invite accepted. -/
def Accepts (s s' : ReferralDb) (id : Uuid) : Prop :=
  (∃ i ∈ s'.invites, i.id = id ∧ i.status = .accepted) ∧ ∀ i ∈ s.invites, i.id = id
    → i.status ≠ .accepted

section Headline

variable {c : ReferralSettings} {s s' : ReferralDb} {t t' : ReferralThread} {x : ReferralInput}
  {r : InviteRecord} {id : Uuid}

/-- Only a call of `accept_invite` about to write accepts an invite. -/
theorem accepts_cases (hmove : InviteMove c s t t' s') (h : Accepts s s' id) :
    ∃ actor raw invite found, t.call = .organization (.acceptInvite actor raw)
      ∧ t.pc = .joining invite found
      ∧ invite.id = id ∧ Joins s s' invite actor.id found := by
  obtain ⟨⟨i, hi, hid, haccepted⟩, hbefore⟩ := h
  have hold : i ∉ s.invites := fun hmem => hbefore i hmem hid haccepted
  cases hmove with
  | same _ heq => exact absurd (heq ▸ hi) hold
  | creates _ _ hpending hins =>
    rcases (Table.mem_insert hins).1 hi with hmem | rfl
    · exact absurd hmem hold
    · rw [hpending] at haccepted
      cases haccepted
  | reissues _ _ hpending hp _ hf _ _ hrows =>
    rw [Table.mem_def, hrows] at hi
    obtain ⟨q, hq, ⟨hpq, rfl⟩ | ⟨_, rfl⟩⟩ := Table.of_mem_rewritten hi
    · have hsame := Table.eq_of_clash hq hp (.inl (by simpa using hpq))
      rw [hsame, hf, hpending] at haccepted
      cases haccepted
    · exact absurd hq hold
  | closes _ hstatus _ _ hrows =>
    rw [Table.mem_def, hrows] at hi
    obtain ⟨q, hq, ⟨_, rfl⟩ | ⟨_, rfl⟩⟩ := Table.of_mem_rewritten hi
    · exact absurd haccepted hstatus
    · exact absurd hq hold
  | @accepts _ _ invite _ _ hcall hpc hrows hjoins =>
    rw [Table.mem_def, hrows] at hi
    obtain ⟨q, hq, ⟨hpq, rfl⟩ | ⟨_, rfl⟩⟩ := Table.of_mem_rewritten hi
    · have hqid : q.id = invite.id := by simpa using hpq
      exact ⟨_, _, _, _, hcall, hpc, hqid.symm.trans hid, hjoins⟩
    · exact absurd hq hold

/-- The member after an invite was accepted. -/
theorem Joins.member {invite : OrganizationInvite} {actor : UserId} {found : Option Membership}
    (h : Joins s s' invite actor found)
    (hfound : ∀ m, found = some m
      → m ∈ s.memberships ∧ m.organization = invite.organization ∧ m.user = actor) :
    ∃ m ∈ s'.memberships, m.organization = invite.organization ∧ m.user = actor ∧ m.status = .active
      ∧ m.role = invite.role.membershipRole := by
  cases found with
  | none =>
    obtain ⟨key, hins⟩ := h
    exact ⟨_, (Table.mem_insert hins).2 (.inr rfl), rfl, rfl, rfl, rfl⟩
  | some m =>
    obtain ⟨hm, horganization, huser⟩ := hfound m rfl
    rcases h with ⟨hsame, heq⟩ | hupdate
    · refine ⟨joined invite m, ?_, horganization, huser, rfl, rfl⟩
      rw [hsame, heq]
      exact hm
    · refine ⟨joined invite m, ?_, horganization, huser, rfl, rfl⟩
      exact (Table.mem_update? hupdate).2 ⟨m, hm, rewrite_pos _ (by simp)⟩

/-- An accepted invite stays as it is. -/
theorem accepted_kept (hL : InviteLocal c (s, r) t) (hmove : InviteMove c s t t' s')
    (hi : i ∈ s.invites) (haccepted : i.status = .accepted) : i ∈ s'.invites := by
  have hother : ∀ j ∈ s.invites, j.status = .pending → i.id ≠ j.id := by
    intro j hj hpending hid
    have hsame : i = j := Table.eq_of_clash hi hj (.inl hid)
    rw [hsame, hpending] at haccepted
    cases haccepted
  cases hmove with
  | same _ heq => exact heq ▸ hi
  | creates _ _ _ hins => exact (Table.mem_insert hins).2 (.inl hi)
  | reissues _ _ _ hp hstatus _ _ _ hrows =>
    rw [Table.mem_def, hrows]
    exact List.mem_map.2 ⟨i, hi, rewrite_neg _ (by simpa using hother _ hp hstatus)⟩
  | closes _ _ hpending _ hrows =>
    have hne : i.id ≠ _ := fun hid => hother i hi (hpending i hi hid) rfl
    rw [Table.mem_def, hrows]
    exact List.mem_map.2 ⟨i, hi, rewrite_neg _ (by simpa using hne)⟩
  | @accepts _ _ invite _ _ _ hpc hrows _ =>
    obtain ⟨_, _, hself⟩ := hL.accepting invite (by rw [hpc]; rfl)
    rw [Table.mem_def, hrows]
    exact List.mem_map.2 ⟨i, hi, rewrite_neg _ (by simpa using hother _ hself.invite hself.pending)⟩

theorem accepted_later {g g' : Config (ReferralDb × InviteRecord) ReferralThread}
    (h : InviteReach c g) (hl : InviteLeads c g g') (hi : i ∈ g.store.1.invites)
    (haccepted : i.status = .accepted) : i ∈ g'.store.1.invites := by
  refine hl.keeps (K :=
    fun w w' => ∀ i ∈ w.1.invites, i.status = .accepted → i ∈ w'.1.invites) h ?_ ?_ ?_
    i hi haccepted
  · intro w j hj _
    exact hj
  · intro w w' w'' h₁ h₂ j hj hstatus
    exact h₂ j (h₁ j hj hstatus) hstatus
  · intro g p t x w t' hreach ht _ hstep j hj hstatus
    obtain ⟨hinner, _⟩ := Program.recorded_step.1 hstep
    exact accepted_kept (((inviteInvariant c).reach hreach).thread p t ht)
      (step_invites hinner) hj hstatus

/-- The attempt to accept an invite that has expired. -/
theorem expired_attempt {v : ReferralView} (hstep : referralStep c s t (.go v) = some (s', t'))
    (hcall : t.call = .organization (.acceptInvite actor raw)) (hpc : t.pc = .seekingInvite)
    (hi : i ∈ s.invites) (htoken : i.tokenHash = c.text.sha256 (PyText.strip raw))
    (hexpired : i.status = .expired ∨ i.status = .pending ∧ i.expiresAt ≤ v.now) :
    t'.pc = .raised (.inviteInvalid "Invite has expired.") ∧ s'.memberships = s.memberships
      ∧ ∃ i' ∈ s'.invites, i'.id = i.id ∧ i'.status = .expired := by
  have hfind : s.invites.find? (·.tokenHash = c.text.sha256 (PyText.strip raw)) = some i :=
    Table.find?_of_mem hi (by simpa using htoken) fun j hj =>
      .inr (.inl ((by simpa using hj : j.tokenHash = _).trans htoken.symm))
  have hjudged : judgeInvite c s actor i v.now = .ok .expires := by
    unfold judgeInvite
    rcases hexpired with hstatus | ⟨hstatus, hpast⟩
    · rw [hstatus]
    · rw [hstatus]
      dsimp only
      rw [if_pos hpast]
  simp only [referralStep, hpc, hcall, organizationStep, seekInviteStep, hfind, hjudged] at hstep
  obtain ⟨_, hstep⟩ := await_some hstep
  cases hstep
  refine ⟨rfl, ?_, ?_⟩
  · obtain ⟨_, hexp⟩ := expire_cases s i
    show (expire s i).memberships = s.memberships
    rw [hexp]
  · show ∃ i' ∈ (expire s i).invites, i'.id = i.id ∧ i'.status = .expired
    unfold expire
    split
    · exact ⟨closed .expired i.acceptedBy i,
        List.mem_map.2 ⟨i, hi, rewrite_pos _ (by simp)⟩, rfl, rfl⟩
    · rename_i hnot
      exact ⟨i, hi, rfl, hexpired.resolve_right fun h => hnot h.1⟩

/--
**An invite is accepted once, by the user it was issued to, with the last token and in
time.** Whoever accepts it is then an active member in the role it was last issued with.
An attempt with that token after the expiry of a pending invite leaves it expired; one
that fails leaves the memberships as they are.
-/
theorem invites_sound (hinj : Function.Injective c.text.sha256)
    {g g' : Config (ReferralDb × InviteRecord) ReferralThread} {p : Nat} (h : InviteReach c g)
    (hok : Program.Meets (fun w => InviteCalls w.1) g (.tick p x : Act ReferralCall ReferralInput))
    (he : (inviteProgram c).exec g (.tick p x) = some g') :
    (∀ id, Accepts g.store.1 g'.store.1 id → ∃ t actor raw issue now, ∃ i ∈ g.store.1.invites,
      g.threads p = some t ∧ t.call = .organization (.acceptInvite actor raw) ∧ i.id = id
      ∧ normalizeInviteEmail c.text actor.email = i.emailNormalized
      ∧ newest g.store.2.issues id = some issue ∧ PyText.strip raw = issue.rawToken
      ∧ newest g.store.2.checks id = some (actor.id, now) ∧ now < issue.expiresAt
      ∧ (∃ o ∈ g.store.1.organizations, o.id = i.organization ∧ o.status = .active)
      ∧ (∃ m ∈ g'.store.1.memberships, m.organization = i.organization ∧ m.user = actor.id
        ∧ m.status = .active
        ∧ m.role = issue.role.membershipRole)
      ∧ ∀ g₁ g₂ q y, InviteLeads c g' g₁ → (inviteProgram c).exec g₁ (.tick q y) = some g₂ →
        ¬ Accepts g₁.store.1 g₂.store.1 id)
    ∧ (∀ t actor raw v issue, g.threads p = some t
      → t.call = .organization (.acceptInvite actor raw) →
      t.pc = .seekingInvite → x = .go v
        → ∀ i ∈ g.store.1.invites, newest g.store.2.issues i.id = some issue →
      PyText.strip raw = issue.rawToken →
      (i.status = .expired ∨ i.status = .pending ∧ issue.expiresAt ≤ v.now) →
      g'.store.1.memberships = g.store.1.memberships
        ∧ (∃ i' ∈ g'.store.1.invites, i'.id = i.id ∧ i'.status = .expired)
        ∧ ∃ t', g'.threads p = some t' ∧ t'.pc = .raised (.inviteInvalid "Invite has expired."))
    ∧ ∀ t actor raw, g.threads p = some t → t.call = .organization (.acceptInvite actor raw) →
      (∀ t' a, g'.threads p = some t' → t'.pc ≠ .returned a) →
      g'.store.1.memberships = g.store.1.memberships := by
  obtain ⟨t, t', ht, hstep, hthreads⟩ := Program.exec_tick he
  obtain ⟨hinner, _⟩ := Program.recorded_step.1 hstep
  have hmove := step_invites hinner
  have heffect := referralStep_effect hinner
  have hholds := (inviteInvariant c).reach h
  have hL := hholds.thread p t ht
  have hthread : g'.threads p = some t' := by
    rw [hthreads, Function.update_self]
  refine ⟨?_, ?_, ?_⟩
  · intro id haccepts
    obtain ⟨actor, raw, i, found, hcall, hpc, rfl, hjoins⟩ := accepts_cases hmove haccepts
    obtain ⟨actor', raw', hi⟩ := hL.accepting i (by rw [hpc]; rfl)
    obtain ⟨rfl, rfl⟩ : actor' = actor ∧ raw' = raw := by simpa using hi.call.symm.trans hcall
    obtain ⟨issue, hissue, hrole, hexpires, htoken⟩ := hholds.store i hi.invite
    obtain ⟨now, hcheck, hnow⟩ := hi.inTime
    have hfound : ∀ m, found = some m → m ∈ g.store.1.memberships ∧ m.organization = i.organization
        ∧ m.user = actor'.id := by
      rintro m rfl
      obtain ⟨hm, horganization, huser⟩ := hL.member i m hpc
      exact ⟨hm, horganization, huser actor' raw' hcall⟩
    have hmember := hjoins.member hfound
    rw [hrole] at hmember
    refine ⟨t, actor', raw', issue, now, i, hi.invite, ht, hcall, rfl, hi.email, hissue,
      hinj (hi.token.symm.trans htoken), hcheck, hexpires ▸ hnow, hi.organization, hmember, ?_⟩
    intro g₁ g₂ q y hleads _ hagain
    obtain ⟨j, hj, hid, haccepted⟩ := haccepts.1
    have hlater := accepted_later (.tail h hok he) hleads hj haccepted
    exact hagain.2 j hlater hid haccepted
  · rintro t₀ actor raw v issue ht₀ hcall hpc rfl i hi hissue hraw hexpired
    rw [ht] at ht₀
    cases ht₀
    obtain ⟨issue', hissue', _, hexpires, htoken⟩ := hholds.store i hi
    rw [hissue] at hissue'
    cases hissue'
    rw [← hexpires] at hexpired
    obtain ⟨hraised, hmembers, hafter⟩ :=
      expired_attempt hinner hcall hpc hi (hraw ▸ htoken) hexpired
    exact ⟨hmembers, hafter, t', hthread, hraised⟩
  · intro t₀ actor raw _ _ hfails
    by_cases hlive : t'.pc.isLive = true
    · rw [(heffect.goes hlive).1]
    · cases hpc : t'.pc with
      | returned a => exact absurd hpc (hfails t' a hthread)
      | raised e => exact heffect.failed e hpc
      | _ =>
        rw [hpc] at hlive
        exact absurd rfl hlive

end Headline

/-! ## The guest is invited -/

/-- The digest of one token, and another text for every other. -/
def tokenDigest (s : String) : String :=
  if s = "rs7Qk0mVnXbW2tYd" then "7696f2f86ca5211dcef1f17e1f741fa2a57cf2a1b4d4d40a2f15c816d54c878a"
  else "sha256:" ++ s

theorem tokenDigest_injective : Function.Injective tokenDigest := by
  have hother : ∀ a, "7696f2f86ca5211dcef1f17e1f741fa2a57cf2a1b4d4d40a2f15c816d54c878a"
      ≠ "sha256:" ++ a := by
    intro a h
    have hlist := congrArg String.toList h
    rw [String.toList_append] at hlist
    have hhead := congrArg List.head? hlist
    cases hhead
  intro a b h
  unfold tokenDigest at h
  split at h
  · rename_i ha
    split at h
    · rename_i hb
      rw [ha, hb]
    · exact absurd h (hother b)
  · split at h
    · exact absurd h.symm (hother a)
    · have hlist := congrArg String.toList h
      rw [String.toList_append, String.toList_append] at hlist
      exact String.toList_injective (List.append_cancel_left hlist)

def inviteSettings : ReferralSettings :=
    ⟨true, defaultInviteTtl, { orgText with sha256 := tokenDigest }⟩

/-- A step on a day. -/
def onDay (day : Int) : ReferralInput :=
  .go ⟨seconds (day * 24 * 3600), fun i => drawn.getD i alice, fun _ => "", 0⟩

theorem noInvites_twoPeople : NoInvites twoPeople := ⟨rfl, rfl⟩

/-- The guest has the invite, which the next step accepts. -/
def acceptsNext (g : Config (ReferralDb × InviteRecord) ReferralThread) : Bool :=
  g.store.1.invites.rows.all (fun i => decide (i.status ≠ .accepted))
    && ((inviteProgram inviteSettings).exec g (.tick 2 (onDay 0))).any fun g' =>
      g'.store.1.invites.rows.any fun i => i.status = .accepted

theorem invites_sound_accepted :
    ∃ g g' id, (inviteProgram inviteSettings).exec g (.tick 2 (onDay 0)) = some g'
    ∧ Accepts g.store.1 g'.store.1 id ∧ ∃ m ∈ g'.store.1.memberships, m.status = .active := by
  have hrun : ∃ g, InviteReach inviteSettings g ∧ (acceptsNext g
      && (g.threads 2).any (fun t => !writesMembers t.call)) = true :=
    Program.reachWhere_check (P := inviteProgram inviteSettings)
      (fun _ t _ => !writesMembers t.call)
      (fun _ _ _ h => by simpa [InviteCalls] using h) (s := (twoPeople, ⟨[], []⟩))
        ⟨noInvites_twoPeople, rfl⟩
      (founding ++ joining.dropLast) _ (by decide)
  obtain ⟨g, hg, hf⟩ := hrun
  rw [Bool.and_eq_true] at hf
  obtain ⟨hnext, hthread⟩ := hf
  unfold acceptsNext at hnext
  rw [Bool.and_eq_true] at hnext
  obtain ⟨hbefore, hafter⟩ := hnext
  obtain ⟨g', he, hany⟩ := (Option.any_eq_true _ _).1 hafter
  obtain ⟨i, hi, haccepted⟩ := List.any_eq_true.1 hany
  have haccepts : Accepts g.store.1 g'.store.1 i.id := by
    refine ⟨⟨i, hi, rfl, of_decide_eq_true haccepted⟩, fun j hj _ => ?_⟩
    exact of_decide_eq_true (List.all_eq_true.1 hbefore j hj)
  have hok : Program.Meets (fun w => InviteCalls w.1) g
      (.tick 2 (onDay 0) : Act ReferralCall ReferralInput) := by
    intro t ht
    rw [ht] at hthread
    simpa [InviteCalls] using hthread
  obtain ⟨_, _, _, _, _, _, _, _, _, _, _, _, _, _, _, _, ⟨m, hm, _, _, hactive, _⟩, _⟩ :=
    (invites_sound tokenDigest_injective hg hok he).1 i.id haccepts
  exact ⟨g, g', i.id, he, haccepts, m, hm, hactive⟩

/-- The founder revokes the invite. -/
def revoking : List (Act ReferralCall ReferralInput) :=
  .call 3 (.organization (.revokeInvite founder.id company (drawn.getD 3 alice)))
    :: referralSteps 3 3 0 ""

/-- The guest has the token that a revoked invite was last issued with. -/
def hasRevoked (g : Config (ReferralDb × InviteRecord) ReferralThread) : Bool :=
  (g.threads 2).any (fun t => match t.pc with | .seekingInvite => true | _ => false)
    && g.store.1.invites.rows.any fun i =>
      (newest g.store.2.issues i.id).any (fun issue => issue.rawToken = "rs7Qk0mVnXbW2tYd")
        && decide (i.expiresAt ≤ seconds (14 * 24 * 3600))
        && ((inviteProgram inviteSettings).exec g (.tick 2 (onDay 14))).any fun g' =>
          g'.store.1.invites.rows.any fun i' => i'.id = i.id && i'.status = .revoked

/--
**An attempt after the expiry of a revoked invite leaves it revoked.** The guest has its
last token and comes a week after it has expired.
-/
theorem revoked_stays_revoked : ∃ g g' t, InviteReach inviteSettings g
    ∧ (inviteProgram inviteSettings).exec g (.tick 2 (onDay 14)) = some g'
    ∧ g.threads 2 = some t ∧ t.pc = .seekingInvite
    ∧ ∃ i ∈ g.store.1.invites, ∃ issue, newest g.store.2.issues i.id = some issue
      ∧ issue.rawToken = "rs7Qk0mVnXbW2tYd" ∧ i.expiresAt ≤ seconds (14 * 24 * 3600)
      ∧ ∃ i' ∈ g'.store.1.invites, i'.id = i.id ∧ i'.status ≠ .expired := by
  have hrun : ∃ g, InviteReach inviteSettings g ∧ hasRevoked g = true :=
    Program.reachWhere_check (P := inviteProgram inviteSettings)
      (fun _ t _ => !writesMembers t.call)
      (fun _ _ _ h => by simpa [InviteCalls] using h) (s := (twoPeople, ⟨[], []⟩))
        ⟨noInvites_twoPeople, rfl⟩
      (founding ++ revoking ++ joining.take 2) _ (by decide)
  obtain ⟨g, hg, hf⟩ := hrun
  unfold hasRevoked at hf
  rw [Bool.and_eq_true] at hf
  obtain ⟨hthread, hinvites⟩ := hf
  obtain ⟨t, ht, hpc⟩ := (Option.any_eq_true _ _).1 hthread
  obtain ⟨i, hi, hprops⟩ := List.any_eq_true.1 hinvites
  rw [Bool.and_eq_true, Bool.and_eq_true] at hprops
  obtain ⟨⟨hissue, hexpires⟩, hafter⟩ := hprops
  obtain ⟨issue, hissue, htoken⟩ := (Option.any_eq_true _ _).1 hissue
  obtain ⟨g', he, hany⟩ := (Option.any_eq_true _ _).1 hafter
  obtain ⟨i', hi', hrevoked⟩ := List.any_eq_true.1 hany
  obtain ⟨hid, hstatus⟩ : i'.id = i.id ∧ i'.status = .revoked := by simpa using hrevoked
  have hseeking : t.pc = .seekingInvite := by
    split at hpc
    · assumption
    · cases hpc
  refine ⟨g, g', t, hg, he, ht, hseeking, i, hi, issue, hissue, of_decide_eq_true htoken,
    of_decide_eq_true hexpires, i', hi', hid, ?_⟩
  rw [hstatus]
  decide

end Roamkit.Partner.Proof
