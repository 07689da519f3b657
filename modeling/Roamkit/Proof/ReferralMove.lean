import Roamkit.Partner.Referrals
import Roamkit.Proof.Credit

/-!
# What a step of an organization or partner call can do

`ReferralWrite` lists everything a step can do to the tables, `ReferralGoes` what a
call knows when it goes on, and `Effect` is both of a step together with what it does
to the rows that are held. Every invariant of the program is read off these.
-/

namespace Roamkit.Partner.Proof

open Lib Billing Organizations Partner Billing.Proof

/-- The forms a call is about to save. -/
def forms? (t : ReferralThread) : Option (List MembershipForm) :=
  match t.pc, t.call with
  | .checked (.saving f), .admin _ => some [f]
  | .savingInlines, .admin (.saveInlines fs) => some fs
  | _, _ => none

/-- The call has locked the user it attributes. -/
def attributes : ReferralPc → Bool
  | .pendingSeen _ => true
  | .legacySeen _ _ => true
  | .visiting _ _ => true
  | .attributing _ _ => true
  | .inserting _ _ => true
  | .seekingAttribution => true
  | .moving _ => true
  | .moved _ => true
  | _ => false

/-- A place where a call knows nothing that it relies on later. -/
def isPlain : ReferralPc → Bool
  | .findingUser _ => true
  | .writingInvite _ => true
  | .consuming _ => true
  | .savingInlines => true
  | .checked .inviting => true
  | .guarding _ _ .inviting => true
  | _ => false

/-! ## The moves -/

/-- A write of a link at a time: another token, or another switch. -/
structure Relinks (now : Time) (f : PartnerInviteLink → PartnerInviteLink) : Prop where
  id : ∀ l, (f l).id = l.id
  partnerChannel : ∀ l, (f l).partnerChannel = l.partnerChannel
  regeneratedAt : (∀ l, (f l).regeneratedAt = l.regeneratedAt) ∨ ∀ l, (f l).regeneratedAt = some now

/-- A visit that `_lock_visit` lets through, and its link. -/
structure PassesVisit (s : ReferralDb) (id : Uuid) (checkWindow : Bool) (now : Time)
    (visit : InviteVisit) (link : PartnerInviteLink) : Prop where
  found : visitLink? s id = some (visit, link)
  valid : validInviteVisit visit link checkWindow now = true

/-- The row that `record_pending_for_new_user` inserts. -/
def pendingRow (user : UserId) (visit : InviteVisit) (link : PartnerInviteLink) (v : ReferralView) :
    PendingPartnerAttribution where
  id := v.uuid 0
  user
  partnerChannel := link.partnerChannel
  inviteTokenSnapshot := link.token
  inviteVisit := some visit.id
  expiresAt := pendingExpiresAt (v.now + v.lag)

/-- Everything a step can do to the tables. -/
inductive ReferralWrite (c : ReferralSettings) (s : ReferralDb) (t : ReferralThread)
    (x : ReferralInput) :
    ReferralDb → Prop
  | stays : ReferralWrite c s t x s
  | creates {name : String} {actor : UserId} {status : OrganizationStatus} {uuid : Nat → Uuid}
      {s₁ : ReferralDb} {a : ReferralAnswer} :
      createOrganization s name actor status uuid = .ok (s₁, a) → ReferralWrite c s t x s₁
  | setsStatus {o : Organization} {status : OrganizationStatus} :
      s.grants t (.organization o.id) = true → ReferralWrite c s t x (saveStatus s o status).1
  | promotes {actor newOwner : UserId} {organization : Uuid} {target : Membership}
      {membership : Uuid} {s₁ : ReferralDb} {a : ReferralAnswer} :
      t.call = .organization (.transferOwnership actor organization newOwner)
        → t.pc = .promoting target membership → s.grants t (.membership membership) = true →
      promote s target membership = .ok (s₁, a) → ReferralWrite c s t x s₁
  | setsRole {actor user : UserId} {organization : Uuid} {role : Option MembershipRole}
      {s₁ : ReferralDb} {a : ReferralAnswer} :
      t.call = .organization (.setMemberRole actor organization user role) →
      (∀ m, s.membership? organization user = some m → s.grants t (.membership m.id) = true) →
      setRole s organization user role = .ok (s₁, a) → ReferralWrite c s t x s₁
  | revokes {actor user : UserId} {organization : Uuid} {role : MembershipRole} {s₁ : ReferralDb}
      {a : ReferralAnswer} :
      t.call = .organization (.revokeMembership actor organization user) →
      (∀ m, s.membership? organization user = some m → s.grants t (.membership m.id) = true) →
      revoke s organization user role = .ok (s₁, a) → ReferralWrite c s t x s₁
  | writesInvite {actor : UserId} {organization : Uuid} {email : String} {role : InviteRole}
      {v : ReferralView} {s₁ : ReferralDb} {a : ReferralAnswer} :
      x = .go v → t.pc = .writingInvite organization →
      (∀ row ∈ inviteRows s actor organization
        (normalizeInviteEmail c.text email), s.grants t row = true) →
      writeInvite c s actor organization email role v = .ok (s₁, a) → ReferralWrite c s t x s₁
  | revokesInvite {organization invite : Uuid} {s₁ : ReferralDb} {a : ReferralAnswer} :
      s.grants t (.invite invite) = true → revokeInvite s organization invite = .ok (s₁, a) →
      ReferralWrite c s t x s₁
  | expires {invite : OrganizationInvite} :
      invite ∈ s.invites → s.grants t (.invite invite.id) = true
        → ReferralWrite c s t x (expire s invite)
  | accepts {actor : Person} {raw : String} {invite : OrganizationInvite} {m : Membership} :
      t.call = .organization (.acceptInvite actor raw) → t.pc = .joining invite (some m)
        → joined invite m = m →
      ReferralWrite c s t x (acceptInvite s invite actor.id)
  | joins {actor : Person} {raw : String} {invite : OrganizationInvite} {id : Uuid}
      {memberships : Table Membership} :
      t.call = .organization (.acceptInvite actor raw) → t.pc = .joining invite none →
      s.memberships.insert? ⟨id, invite.organization, actor.id, invite.role.membershipRole, .active⟩
        = some memberships →
      ReferralWrite c s t x (acceptInvite { s with memberships } invite actor.id)
  | rejoins {actor : Person} {raw : String} {invite : OrganizationInvite} {m : Membership}
      {s₁ : ReferralDb} :
      t.call = .organization (.acceptInvite actor raw) → t.pc = .joining invite (some m) →
      joined invite m ≠ m → s.grants t (.membership m.id) = true
        → saveMembershipRow s m.id (joined invite) = .ok s₁ →
      ReferralWrite c s t x (acceptInvite s₁ invite actor.id)
  | saves {fs : List MembershipForm} {uuid : Nat → Uuid} {s₁ : ReferralDb} :
      forms? t = some fs → (∀ row ∈ inlineRows fs, s.grants t row = true) →
      saveForms s uuid 0 fs = .ok s₁ → ReferralWrite c s t x s₁
  | records {user : UserId} {id : Uuid} {visit : InviteVisit} {link : PartnerInviteLink}
      {v : ReferralView} {pendings : Table PendingPartnerAttribution} :
      x = .go v → PassesVisit s id true v.now visit link →
      s.pendings.insert? (pendingRow user visit link v) = some pendings →
      ReferralWrite c s t x { s with pendings }
  | drops {pendings : Table PendingPartnerAttribution} :
      (∀ p ∈ pendings, p ∈ s.pendings) → ReferralWrite c s t x { s with pendings }
  | attributes {k : AttributionCall} {a : NewAttribution} {pending : Option Uuid} {v : ReferralView}
      {s₁ : ReferralDb} {ans : ReferralAnswer} :
      t.call = .attribution k → t.pc = .inserting a pending →
      insertAttribution s a pending v = .ok (s₁, ans) → ReferralWrite c s t x s₁
  | moves {user : UserId} {channel : Uuid} {a : CustomerAttribution} :
      t.call = .attribution (.transfer user channel) → t.pc = .moved a →
      ReferralWrite c s t x (moveAttribution s a channel).1
  | mints {k : ChannelCall} {owner : ChannelOwner} {percent : Int} {attempt : Nat}
      {v : ReferralView} {s₁ : ReferralDb} {a : ReferralAnswer} :
      t.call = .channel k → k.creates? = some (owner, percent) → t.pc = .minting attempt →
      createChannelAndLink s owner percent v = some (.ok (s₁, a)) → ReferralWrite c s t x s₁
  | resettles {id : Uuid} {isActive : Bool} {share : SharePercent} :
      s.grants t (.channel id) = true →
      ReferralWrite c s t x { s with
        channels := s.channels.update (·.id = id) (resettled isActive share) (fun _ _ h => h) }
  | relinks {id : Uuid} {f : PartnerInviteLink → PartnerInviteLink} {v : ReferralView}
      {links : Table PartnerInviteLink} {pendings : Table PendingPartnerAttribution} :
      x = .go v → s.grants t (.link id) = true → Relinks v.now f →
      links.rows = s.links.rows.map (rewrite (·.id = id) f) → (∀ p ∈ pendings, p ∈ s.pendings) →
      ReferralWrite c s t x { s with links, pendings }
  | visits {visit : InviteVisit} {v : ReferralView} {visits : Table InviteVisit} :
      x = .go v → visit.createdAt = v.now → s.visits.insert? visit = some visits →
      ReferralWrite c s t x { s with visits }
  | registers {p : Person} {account : Uuid} {s₁ : ReferralDb} {a : ReferralAnswer} :
      registerPerson s p account = .ok (s₁, a) → ReferralWrite c s t x s₁
  | posts {p : Posting} {books : Books} {e : CreditLedgerEntry} :
      t.call = .post p → s.books.apply p = .ok (books, e) → ReferralWrite c s t x { s with books }

/-- An attribution goes by a visit, which was let through under the lock of its link. -/
def AttributesVisit (s : ReferralDb) (t : ReferralThread) (x : ReferralInput)
    (held : List LockedRow) (a : NewAttribution) (pending : Option Uuid) (id : Uuid) : Prop :=
  ∃ v visit link, x = .go v ∧ t.pc = .visiting id pending
    ∧ PassesVisit s id pending.isNone v.now visit link
    ∧ a.inviteLink = some link.id ∧ .link link.id ∈ held

/-- What a call knows when it goes on, with the rows it then holds. -/
inductive ReferralGoes (c : ReferralSettings) (s : ReferralDb) (t : ReferralThread)
    (x : ReferralInput) (held : List LockedRow) : ReferralPc → Prop
  | plain {pc : ReferralPc} : isPlain pc = true → ReferralGoes c s t x held pc
  | resolves {k : OrganizationCall} {actor : UserId} {o : Organization} :
      t.call = .organization k → k.begin? = .ok (some (actor, o.id)) → o ∈ s.organizations →
      ReferralGoes c s t x held (.resolved o)
  | proceeds {k : OrganizationCall} {actor : UserId} {id : Uuid} {o : Organization} {m : Membership}
      {pc : ReferralPc} :
      t.pc = .resolved o → t.call = .organization k → k.begin? = .ok (some (actor, id)) →
      m ∈ s.memberships → m.organization = o.id → m.user = actor → m.status = .active →
      k.proceed c.text ⟨o, m⟩ = .ok pc → ReferralGoes c s t x held pc
  | guardsInvite {actor : Person} {raw : String} {invite : OrganizationInvite} {v : ReferralView} :
      x = .go v → t.call = .organization (.acceptInvite actor raw) → t.pc = .seekingInvite →
      invite ∈ s.invites → invite.tokenHash = c.text.sha256 (PyText.strip raw) →
      judgeInvite c s actor invite v.now = .ok .proceeds → .invite invite.id ∈ held →
      .organization invite.organization ∈ held →
      ReferralGoes c s t x held (.guarding actor.id invite.organization (.accepting invite))
  | guardsForm {f : MembershipForm} :
      t.call = .admin (.saveMembership f) → t.pc = .asked → held = t.held →
      ReferralGoes c s t x held (.guarding f.user f.organization (.saving f))
  | saves {f : MembershipForm} :
      t.call = .admin (.saveMembership f) → f.status ≠ .active
        → ReferralGoes c s t x held (.checked (.saving f))
  | unguarded {user : UserId} {organization : Uuid} {next : Checked} :
      t.pc = .guarding user organization next → s.teamChannel? organization = none → held = t.held →
      ReferralGoes c s t x held (.checked next)
  | guarded {user : UserId} {organization : Uuid} {next : Checked} {channel : PartnerChannel} :
      t.pc = .guarding user organization
        next → s.teamChannel? organization = some channel → held = t.held →
      ReferralGoes c s t x held (.lockingUser user channel.id next)
  | locksUser {user : UserId} {channel : Uuid} {next : Checked} :
      t.pc = .lockingUser user channel next → .user user ∈ held →
      (∀ row ∈ held, row ∈ t.held ∨ row = .user user)
        → ReferralGoes c s t x held (.lockingChannel user channel next)
  | passes {user : UserId} {channel : Uuid} {next : Checked} :
      t.pc = .lockingChannel user channel next → .channel channel ∈ held →
      s.isAttributed user channel = false → ReferralGoes c s t x held (.checked next)
  | locksTarget {actor newOwner : UserId} {organization membership : Uuid} {target : Membership} :
      t.call = .organization (.transferOwnership actor organization newOwner) →
      t.pc = .checked (.transferring membership)
        → s.membership? organization newOwner = some target →
      target.status = .active → .membership target.id ∈ held →
      ReferralGoes c s t x held (.promoting target membership)
  | seeksInvite {actor : Person} {raw : String} :
      t.call = .organization (.acceptInvite actor raw) → .user actor.id ∈ held →
      ReferralGoes c s t x held .seekingInvite
  | joins {actor : Person} {raw : String} {invite : OrganizationInvite}
      {found : Option Membership} :
      t.call = .organization (.acceptInvite actor raw) →
      (t.pc = .checked (.accepting invite) ∨ t.pc = .joining invite none) →
      (∀ m, found = some m → m ∈ s.memberships ∧ m.organization = invite.organization
        ∧ m.user = actor.id) →
      ReferralGoes c s t x held (.joining invite found)
  | mints {k : ChannelCall} {owner : ChannelOwner} {percent : Int} {attempt : Nat} :
      t.call = .channel k → k.creates? = some (owner, percent) →
      (checkOwner s owner = .ok () ∨ ∃ n, t.pc = .minting n)
        → ReferralGoes c s t x held (.minting attempt)
  | takesUser {k : AttributionCall} {pc : ReferralPc} :
      t.call = .attribution k → (attributes t.pc = true ∨ .user k.user ∈ held)
        → attributes pc = true →
      (∀ a pending, pc ≠ .inserting a pending) → (∀ a, pc ≠ .moved a) →
      (∀ a pending, pc = .attributing a pending → a.user = k.user) →
      (∀ a, pc = .moving a → a ∈ s.attributions ∧ a.user = k.user) →
      (∀ visit id, pc = .visiting visit (some id)
        → ∃ p ∈ s.pendings, p.id = id ∧ p.inviteVisit = some visit) →
      (∀ a pending id, pc = .attributing a pending → a.inviteVisit = some id
        → AttributesVisit s t x held a pending id) →
      ReferralGoes c s t x held pc
  | allows {k : AttributionCall} {a : NewAttribution} {pending : Option Uuid}
      {channel : PartnerChannel} :
      t.call = .attribution k → t.pc = .attributing a pending →
      s.channel? a.partnerChannel = some channel → .channel channel.id ∈ held →
      s.refersToSelf a.user channel = none → ReferralGoes c s t x held (.inserting a pending)
  | allowsMove {user : UserId} {id : Uuid} {a : CustomerAttribution} {channel : PartnerChannel} :
      t.call = .attribution (.transfer user id) → t.pc = .moving a → s.channel? id = some channel →
      .channel channel.id ∈ held → s.refersToSelf a.user channel = none →
      ReferralGoes c s t x held (.moved a)

/-- What a step does. -/
structure Effect (c : ReferralSettings) (s : ReferralDb) (t : ReferralThread) (x : ReferralInput)
    (s' : ReferralDb) (t' : ReferralThread) : Prop where
  call : t'.call = t.call
  write : ∃ s₁, ReferralWrite c s t x s₁ ∧ s' = { s₁ with locks := s'.locks }
  /-- The rows others hold stay locked. -/
  locks : ∀ row ∈ s.locks, row ∉ t.held → row ∈ s'.locks
  /-- A row that is taken was free. -/
  free : ∀ row ∈ t'.held, row ∈ t.held ∨ row ∉ s.locks
  /-- The rows it holds are locked. -/
  taken : (∀ row ∈ t.held, row ∈ s.locks) → ∀ row ∈ t'.held, row ∈ s'.locks
  /-- A call that goes on writes nothing and keeps its rows. -/
  goes : t'.pc.isLive = true → s' = { s with locks := s'.locks } ∧ (∀ row ∈ t.held, row ∈ t'.held)
    ∧ ReferralGoes c s t x t'.held t'.pc
  /-- A call that fails has changed no membership. -/
  failed : ∀ e, t'.pc = .raised e → s'.memberships = s.memberships

variable {row : LockedRow}

section Effects

variable {c : ReferralSettings} {s s' s₁ : ReferralDb} {t t' : ReferralThread} {x : ReferralInput}

theorem effect_answer {a : ReferralAnswer} (hw : ReferralWrite c s t x s₁) (hl : s₁.locks = s.locks)
    (h : s₁.answer t a = (s', t')) : Effect c s t x s' t' := by
  cases h
  exact {
    call := rfl
    write := ⟨s₁, hw, rfl⟩
    locks := fun row hrow hheld => List.mem_filter.2 ⟨hl ▸ hrow, by simpa using hheld⟩
    free := fun row hrow => by cases hrow
    taken := fun _ row hrow => by cases hrow
    goes := fun hlive => by cases hlive
    failed := fun _ hraised => by cases hraised }

/-- What is written before an error that leaves the transaction is committed. -/
theorem effect_raise_after {e : Exc} (hw : ReferralWrite c s t x s₁) (hl : s₁.locks = s.locks)
    (hm : s₁.memberships = s.memberships) (h : s₁.raise t e = (s', t')) : Effect c s t x s' t' := by
  cases h
  exact {
    call := rfl
    write := ⟨s₁, hw, rfl⟩
    locks := fun row hrow hheld => List.mem_filter.2 ⟨hl ▸ hrow, by simpa using hheld⟩
    free := fun row hrow => by cases hrow
    taken := fun _ row hrow => by cases hrow
    goes := fun hlive => by cases hlive
    failed := fun _ _ => hm }

theorem effect_raise {e : Exc} (h : s.raise t e = (s', t')) : Effect c s t x s' t' :=
  effect_raise_after .stays rfl rfl h

theorem effect_settle {r : Except Exc (ReferralDb × ReferralAnswer)}
    (hok : ∀ s₁ a, r = .ok (s₁, a) → ReferralWrite c s t x s₁ ∧ s₁.locks = s.locks)
    (h : s.settle t r = (s', t')) : Effect c s t x s' t' := by
  unfold ReferralDb.settle at h
  split at h
  · exact effect_raise h
  · rename_i s₁ a
    obtain ⟨hw, hl⟩ := hok s₁ a rfl
    exact effect_answer hw hl h

theorem effect_goto {pc : ReferralPc} (hg : ReferralGoes c s t x t.held pc)
    (h : s.goto t pc = (s', t')) :
    Effect c s t x s' t' := by
  cases h
  exact {
    call := rfl
    write := ⟨s, .stays, rfl⟩
    locks := fun _ hrow _ => hrow
    free := fun _ hrow => .inl hrow
    taken := fun hheld => hheld
    goes := fun _ => ⟨rfl, fun _ hrow => hrow, hg⟩
    failed := fun _ _ => rfl }

theorem await_some {rows : List LockedRow} {r : Stepped} (h : s.await t rows r = some (s', t')) :
    (∀ row ∈ rows, s.grants t row = true) ∧ r = (s', t') := by
  unfold ReferralDb.await at h
  split at h
  · rename_i hall
    exact ⟨fun row hrow => List.all_eq_true.1 hall row hrow, Option.some.inj h⟩
  · cases h

/-! ### Taking a row -/

theorem hold_db (row : LockedRow) :
    (s.hold t row).1 = { s with locks := (s.hold t row).1.locks } := by
  unfold ReferralDb.hold
  split <;> rfl

theorem hold_memberships (row : LockedRow) : (s.hold t row).1.memberships = s.memberships := by
  rw [hold_db row]

@[simp] theorem hold_call (row : LockedRow) : (s.hold t row).2.call = t.call := by
  unfold ReferralDb.hold
  split <;> rfl

theorem mem_hold_locks {r : LockedRow} (h : r ∈ s.locks) : r ∈ (s.hold t row).1.locks := by
  unfold ReferralDb.hold
  split
  · exact h
  · exact List.mem_cons_of_mem _ h

theorem mem_hold_held {r : LockedRow} : r ∈ (s.hold t row).2.held ↔ r ∈ t.held ∨ r = row := by
  unfold ReferralDb.hold
  split
  · rename_i hrow
    exact ⟨.inl, fun h => h.elim id fun h => h ▸ hrow⟩
  · rw [List.mem_cons, or_comm]

theorem hold_taken (h : ∀ r ∈ t.held, r ∈ s.locks) :
    ∀ r ∈ (s.hold t row).2.held, r ∈ (s.hold t row).1.locks := by
  unfold ReferralDb.hold
  split
  · exact h
  · intro r hr
    rcases List.mem_cons.1 hr with rfl | hr
    · exact List.mem_cons_self
    · exact List.mem_cons_of_mem _ (h r hr)

theorem free_of_grants (h : s.grants t row = true) : row ∈ t.held ∨ row ∉ s.locks := by
  simpa [ReferralDb.grants] using h

/-- A row that is granted and held by another is not locked. -/
theorem hold_free (h : s.grants t row = true) :
    ∀ r ∈ (s.hold t row).2.held, r ∈ t.held ∨ r ∉ s.locks := by
  intro r hr
  rcases mem_hold_held.1 hr with hr | rfl
  · exact .inl hr
  · exact free_of_grants h

/-- A step that takes a row and goes on. -/
theorem effect_hold_goto {pc : ReferralPc} (hgrant : s.grants t row = true)
    (hg : ReferralGoes c s t x (s.hold t row).2.held pc)
    (h : (s.hold t row).1.goto (s.hold t row).2 pc = (s', t')) : Effect c s t x s' t' := by
  cases h
  exact {
    call := hold_call row
    write := ⟨s, .stays, hold_db row⟩
    locks := fun _ hrow _ => mem_hold_locks hrow
    free := hold_free hgrant
    taken := hold_taken
    goes := fun _ => ⟨hold_db row, fun _ hrow => mem_hold_held.2 (.inl hrow), hg⟩
    failed := fun _ _ => hold_memberships row }

/-- A step that takes a row, writes and returns. -/
theorem effect_hold_answer {a : ReferralAnswer} {s₂ : ReferralDb} (hgrant : s.grants t row = true)
    (hw : ReferralWrite c s t x s₁) (hs : s₂ = { s₁ with locks := (s.hold t row).1.locks })
    (h : s₂.answer (s.hold t row).2 a = (s', t')) : Effect c s t x s' t' := by
  cases h
  exact {
    call := hold_call row
    write := ⟨s₁, hw, by rw [hs]; rfl⟩
    locks := fun r hr hheld => by
      subst hs
      refine List.mem_filter.2 ⟨mem_hold_locks hr, ?_⟩
      simp only [decide_not, Bool.not_eq_eq_eq_not, Bool.not_true, decide_eq_false_iff_not]
      intro hmem
      rcases mem_hold_held.1 hmem with hmem | rfl
      · exact hheld hmem
      · rcases free_of_grants hgrant with hmem | hfree
        · exact hheld hmem
        · exact hfree hr
    free := fun row hrow => by cases hrow
    taken := fun _ row hrow => by cases hrow
    goes := fun hlive => by cases hlive
    failed := fun _ hraised => by cases hraised }

/-- A step that takes a row and raises. -/
theorem effect_hold_raise {e : Exc} (hgrant : s.grants t row = true)
    (h : (s.hold t row).1.raise (s.hold t row).2 e = (s', t')) : Effect c s t x s' t' := by
  cases h
  exact {
    call := hold_call row
    write := ⟨s, .stays, by rw [hold_db row]; rfl⟩
    locks := fun r hr hheld => by
      refine List.mem_filter.2 ⟨mem_hold_locks hr, ?_⟩
      simp only [decide_not, Bool.not_eq_eq_eq_not, Bool.not_true, decide_eq_false_iff_not]
      intro hmem
      rcases mem_hold_held.1 hmem with hmem | rfl
      · exact hheld hmem
      · rcases free_of_grants hgrant with hmem | hfree
        · exact hheld hmem
        · exact hfree hr
    free := fun row hrow => by cases hrow
    taken := fun _ row hrow => by cases hrow
    goes := fun hlive => by cases hlive
    failed := fun _ _ => hold_memberships row }

theorem lockThen_some {f : ReferralDb → ReferralThread → Stepped}
    (h : s.lockThen t row f = some (s', t')) :
    s.grants t row = true ∧ f (s.hold t row).1 (s.hold t row).2 = (s', t') := by
  obtain ⟨hrows, h⟩ := await_some h
  exact ⟨hrows row List.mem_cons_self, h⟩

end Effects

end Roamkit.Partner.Proof
