import Roamkit.Accounts.Invites
import Roamkit.Proof.Activation
import Roamkit.Proof.GoogleLogin

/-!
# The pending row of a user who becomes active

`apply_pending_on_activation` leaves no pending row, or it leaves everything as it is: the
channel is switched off, or the user would be their own customer. `confirm_signup` always
leaves everything as it is. So the paths agree exactly where an activation keeps the row,
and the row of an active user is left by the other activations only.
-/

namespace Roamkit.Accounts.Proof

open Lib Billing Organizations Partner Partner.Proof Spend Billing.Proof

/-! ## What an activation leaves -/

variable {a : NewAttribution} {now : Time} {pc : AccessPc} {before : LoginDb}
  {identity : GoogleIdentity}

section Apply

variable {c : LoginSettings} {s s₁ : ReferralDb} {user : UserId} {v : ReferralView}
  {p : PendingPartnerAttribution} {ans : ReferralAnswer}

/-- An insert deletes the pending row it is of, and no other. -/
theorem insertAttribution_pendings {pending : Option Uuid}
    (h : insertAttribution s a pending v = .ok (s₁, ans)) :
    s₁.pendings = (pending.elim s (dropPending s)).pendings := by
  obtain ⟨attributions, s₂, _, hb, rfl⟩ := insertAttribution_cases h
  have hsame : s₂.pendings = s.pendings := by
    rcases creditBonus_cases hb with rfl | ⟨_, _, _, _, _, _, _, _, _, _, _, _, rfl⟩ <;> rfl
  cases pending with
  | none => exact hsame
  | some id =>
    show s₂.pendings.remove _ = s.pendings.remove _
    rw [hsame]

theorem standing_pending (h : standingPending s user now = some p) :
    s.pending? user = some p ∧ ¬ p.expiresAt ≤ now ∧ s.attribution? user = none := by
  unfold standingPending at h
  obtain ⟨hp, hok⟩ := Option.filter_eq_some_iff.1 h
  obtain ⟨hin, hnone⟩ := Bool.and_eq_true_iff.1 hok
  refine ⟨hp, Int.not_le.2 (of_decide_eq_true hin), ?_⟩
  exact Option.isNone_iff_eq_none.1 hnone

/-- A row that does not stand any more is deleted. -/
theorem apply_fallen (hp : s.pending? user = some p) (h : standingPending s user v.now = none) :
    applyPendingOnActivation c.referral s user v = .ok (dropPending s p.id, .nothing) := by
  unfold applyPendingOnActivation
  rw [hp]
  dsimp only
  by_cases hexpired : p.expiresAt ≤ v.now
  · rw [if_pos hexpired]
  rw [if_neg hexpired]
  cases hattribution : s.attribution? user with
  | some a => rw [if_pos (by rfl)]
  | none =>
    have hstands : standingPending s user v.now = some p := by
      unfold standingPending
      rw [hp, hattribution, Option.filter_some, decide_eq_true (Int.not_le.1 hexpired)]
      rfl
    rw [hstands] at h
    cases h

/-- One that stands waits for the channel to be switched on. -/
theorem apply_off (h : standingPending s user v.now = some p)
    (henabled : c.referral.partnerChannelEnabled = false) :
    applyPendingOnActivation c.referral s user v = .ok (s, .nothing) := by
  obtain ⟨hp, hexpired, hattribution⟩ := standing_pending h
  unfold applyPendingOnActivation
  rw [hp]
  dsimp only
  rw [if_neg hexpired, hattribution, if_neg (by simp), henabled, if_pos (by simp)]

/-- The attribution an activation is to insert. -/
def pendingAttribution? (s : ReferralDb) (p : PendingPartnerAttribution) (user : UserId)
    (now : Time) :
    Option NewAttribution :=
  match p.inviteVisit with
  | some id =>
      (lockVisit s id false now).map fun found => visitAttribution user found.1 found.2 true
  | none => (currentLink? s p).map (legacyAttribution user p)

theorem pendingChannel_eq (user : UserId) :
    pendingChannel? s p now = (pendingAttribution? s p user now).bind fun a =>
      s.channel? a.partnerChannel := by
  unfold pendingChannel? pendingAttribution?
  cases p.inviteVisit with
  | some id =>
    dsimp only
    cases lockVisit s id false now with
    | none => rfl
    | some found => rfl
  | none =>
    dsimp only
    cases currentLink? s p with
    | none => rfl
    | some link => rfl

theorem pendingAttribution_user (h : pendingAttribution? s p user now = some a) :
    a.user = user := by
  unfold pendingAttribution? at h
  split at h
  · obtain ⟨found, _, rfl⟩ := Option.map_eq_some_iff.1 h
    rfl
  · obtain ⟨link, _, rfl⟩ := Option.map_eq_some_iff.1 h
    rfl

/-- And is applied then. -/
theorem apply_on (h : standingPending s user v.now = some p)
    (henabled : c.referral.partnerChannelEnabled = true) :
    applyPendingOnActivation c.referral s user v =
      match pendingAttribution? s p user v.now with
      | none => .ok (dropPending s p.id, .nothing)
      | some a => insertIfAllowed s a (some p.id) v fun _ => .ok (s, .nothing) := by
  obtain ⟨hp, hexpired, hattribution⟩ := standing_pending h
  unfold applyPendingOnActivation
  rw [hp]
  dsimp only
  rw [if_neg hexpired, hattribution, if_neg (by simp), if_neg (by rw [henabled]; simp)]
  unfold pendingAttribution?
  cases p.inviteVisit with
  | some id =>
    dsimp only
    cases lockVisit s id false v.now with
    | none => rfl
    | some found => rfl
  | none =>
    dsimp only
    cases currentLink? s p with
    | none => rfl
    | some link => rfl

theorem selfReferral_eq (h : standingPending s user v.now = some p) :
    selfReferral c s user v.now = (c.referral.partnerChannelEnabled
      && (pendingChannel? s p v.now).any fun channel => (s.refersToSelf user channel).isSome) := by
  unfold selfReferral
  rw [h]
  rfl

/-- **An activation that keeps the pending row writes nothing.** -/
theorem apply_keeps (h : keepsPending c s user v.now = true) :
    applyPendingOnActivation c.referral s user v = .ok (s, .nothing) := by
  unfold keepsPending at h
  obtain ⟨hstands, hwhy⟩ := Bool.and_eq_true_iff.1 h
  obtain ⟨p, hp⟩ := Option.isSome_iff_exists.1 hstands
  cases henabled : c.referral.partnerChannelEnabled with
  | false => exact apply_off hp henabled
  | true =>
    rw [henabled, Bool.not_true, Bool.false_or, selfReferral_eq hp, henabled, Bool.true_and,
      pendingChannel_eq user] at hwhy
    rw [apply_on hp henabled]
    cases ha : pendingAttribution? s p user v.now with
    | none =>
      rw [ha] at hwhy
      cases hwhy
    | some a =>
      rw [ha, Option.bind_some] at hwhy
      cases hchannel : s.channel? a.partnerChannel with
      | none =>
        rw [hchannel] at hwhy
        cases hwhy
      | some channel =>
        rw [hchannel, Option.any_some] at hwhy
        obtain ⟨e, he⟩ := Option.isSome_iff_exists.1 hwhy
        dsimp only
        unfold insertIfAllowed
        rw [hchannel, pendingAttribution_user ha]
        dsimp only
        rw [he]

/-- **An activation leaves no pending row, or keeps it.** -/
theorem apply_settles (h : applyPendingOnActivation c.referral s user v = .ok (s₁, ans)) :
    s₁.pending? user = none ∨ (s₁ = s ∧ keepsPending c s user v.now = true) := by
  cases hp : s.pending? user with
  | none =>
    unfold applyPendingOnActivation at h
    rw [hp] at h
    cases h
    exact .inl hp
  | some p =>
    cases hstands : standingPending s user v.now with
    | none =>
      rw [apply_fallen hp hstands] at h
      cases h
      exact .inl (pending_dropped hp)
    | some q =>
      obtain ⟨hq, _, _⟩ := standing_pending hstands
      obtain rfl : p = q := Option.some.inj (hp.symm.trans hq)
      cases henabled : c.referral.partnerChannelEnabled with
      | false =>
        rw [apply_off hstands henabled] at h
        cases h
        refine .inr ⟨rfl, ?_⟩
        unfold keepsPending
        rw [hstands, henabled]
        rfl
      | true =>
        rw [apply_on hstands henabled] at h
        cases ha : pendingAttribution? s p user v.now with
        | none =>
          rw [ha] at h
          cases h
          exact .inl (pending_dropped hp)
        | some a =>
          rw [ha] at h
          dsimp only at h
          unfold insertIfAllowed at h
          rw [pendingAttribution_user ha] at h
          cases hchannel : s.channel? a.partnerChannel with
          | none =>
            rw [hchannel] at h
            cases h
          | some channel =>
            rw [hchannel] at h
            dsimp only at h
            cases hself : s.refersToSelf user channel with
            | some e =>
              rw [hself] at h
              cases h
              refine .inr ⟨rfl, ?_⟩
              unfold keepsPending
              rw [selfReferral_eq hstands, pendingChannel_eq user, ha, Option.bind_some,
                hchannel, Option.any_some, hself, hstands, henabled]
              rfl
            | none =>
              rw [hself] at h
              left
              have hrows : s₁.pendings = (dropPending s p.id).pendings :=
                insertAttribution_pendings h
              unfold ReferralDb.pending?
              rw [hrows]
              exact pending_dropped hp

end Apply

/-! ## The paths agree where the row is kept -/

section Paths

variable {c : LoginSettings} {s : LoginDb} {user : UserId} {v : ReferralView}

/-- Nothing is consumed past a pending row, whatever cookie comes and however late. -/
theorem consume_pending (c : ReferralSettings) {s : ReferralDb} (visit : Option Uuid)
    (v : ReferralView) (hp : (s.pending? user).isSome = true) :
    ∃ answer, consumePartnerPending c s user visit v = .ok (s, answer)
      ∧ ((s.attribution? user).isNone = true → answer = .consumed "ignored") := by
  unfold consumePartnerPending
  cases hattribution : s.attribution? user with
  | some a => exact ⟨_, rfl, fun hc => by simp at hc⟩
  | none =>
    rw [if_neg (by simp)]
    cases visit with
    | none => exact ⟨_, rfl, fun _ => rfl⟩
    | some id =>
      dsimp only
      by_cases henabled : ¬ c.partnerChannelEnabled = true
      · rw [if_pos henabled]
        exact ⟨_, rfl, fun _ => rfl⟩
      · rw [if_neg henabled, if_pos hp]
        exact ⟨_, rfl, fun _ => rfl⟩

theorem consumeInvite_pending {cookie : Option String}
    (hp : (s.referral.pending? user).isSome = true) :
    consumeInvite c s user cookie v = .ok s := by
  unfold consumeInvite
  by_cases hskips : unsigned cookie = true ∨ ¬ c.referral.partnerChannelEnabled = true
  · rw [if_pos hskips]
  · rw [if_neg hskips]
    obtain ⟨answer, hrun, _⟩ := consume_pending c.referral (c.visit cookie v.now) v hp
    rw [hrun]
    rfl

theorem applyPending_keeps (h : keepsPending c s.referral user v.now = true) :
    s.applyPending c user v = .ok s := by
  unfold LoginDb.applyPending
  rw [apply_keeps h]
  rfl

theorem pending_of_keeps (h : keepsPending c s.referral user v.now = true) :
    (s.referral.pending? user).isSome = true := by
  unfold keepsPending at h
  obtain ⟨p, hp⟩ := Option.isSome_iff_exists.1 (Bool.and_eq_true_iff.1 h).1
  rw [(standing_pending hp).1]
  rfl

/-- Where an activation keeps the row, no path writes anything. -/
theorem run_keeps (h : keepsPending c s.referral user v.now = true) (path : ActivationPath) :
    path.run c s user v = .ok s := by
  cases path with
  | activateUser => exact applyPending_keeps h
  | confirmSignup => rfl
  | google cookie =>
    unfold ActivationPath.run
    rw [applyPending_keeps h]
    exact consumeInvite_pending (pending_of_keeps h)

/-- **The paths lead to the same exactly where an activation keeps the pending row.** -/
theorem outcomes_agree (hp : (s.referral.pending? user).isSome = true) :
    (∀ path path' : ActivationPath, path.outcome c s user v = path'.outcome c s user v)
      ↔ keepsPending c s.referral user v.now = true := by
  constructor
  · intro hagree
    have hconfirm : ActivationPath.confirmSignup.outcome c s user v
        = .ok (outcomeOf s.referral user) := rfl
    have hsame := (hagree .activateUser .confirmSignup).trans hconfirm
    obtain ⟨s₁, hrun, houtcome⟩ := map_ok hsame
    obtain ⟨⟨referral, answer⟩, happly, heq⟩ := map_ok hrun
    rcases apply_settles happly with hnone | ⟨_, hkeeps⟩
    · -- then the row is gone after `activate_user`, and still there after `confirm_signup`
      have hgone : (outcomeOf s₁.referral user).pending = none := by
        rw [← heq]
        exact hnone
      rw [houtcome] at hgone
      rw [show s.referral.pending? user = none from hgone] at hp
      cases hp
    · exact hkeeps
  · intro hkeeps path path'
    unfold ActivationPath.outcome
    rw [run_keeps hkeeps path, run_keeps hkeeps path']

end Paths

/-! ## What a transaction does to the pending rows -/

/-- A piece of a transaction leaves the users, and only deletes pending rows. -/
structure DropsPending (s s' : LoginDb) : Prop where
  signIn : s'.signIn = s.signIn
  pendings : ∀ p ∈ s'.referral.pendings, p ∈ s.referral.pendings

section Moves

variable {c : LoginSettings} {s s' : LoginDb} {user : UserId} {v : ReferralView}
  {cookie : Option String}

theorem DropsPending.refl : DropsPending s s := ⟨rfl, fun _ hp => hp⟩

theorem DropsPending.trans {s'' : LoginDb} (h : DropsPending s s')
    (h' : DropsPending s' s'') : DropsPending s s'' :=
  ⟨h'.signIn.trans h.signIn, fun p hp => h.pendings p (h'.pendings p hp)⟩

theorem DropsPending.none_of (h : DropsPending s s') (hnone : s.referral.pending? user = none) :
    s'.referral.pending? user = none := by
  refine Table.find?_eq_none.2 fun p hp => ?_
  exact Table.find?_eq_none.1 hnone p (h.pendings p hp)

theorem referred_ok {r : Except Exc (ReferralDb × ReferralAnswer)} (h : s.referred r = .ok s') :
    ∃ referral answer, r = .ok (referral, answer) ∧ s' = { s with referral } := by
  obtain ⟨⟨referral, answer⟩, hr, heq⟩ := map_ok h
  exact ⟨referral, answer, hr, heq.symm⟩

theorem insertIfAllowed_ok {s s₁ : ReferralDb} {pending : Option Uuid} {ans : ReferralAnswer}
    {blocked : Exc → Except Exc (ReferralDb × ReferralAnswer)}
    (h : insertIfAllowed s a pending v blocked = .ok (s₁, ans)) :
    insertAttribution s a pending v = .ok (s₁, ans) ∨ ∃ e, blocked e = .ok (s₁, ans) := by
  unfold insertIfAllowed at h
  split at h
  · cases h
  split at h
  · exact .inr ⟨_, h⟩
  · exact .inl h

theorem consumePartnerPending_pendings {c : ReferralSettings} {s s₁ : ReferralDb}
    {visit : Option Uuid} {ans : ReferralAnswer}
    (h : consumePartnerPending c s user visit v = .ok (s₁, ans)) : s₁.pendings = s.pendings := by
  unfold consumePartnerPending at h
  split at h
  · cases h
    rfl
  split at h
  · cases h
    rfl
  split at h
  · cases h
    rfl
  split at h
  · cases h
    rfl
  split at h
  · cases h
    rfl
  · rename_i visit link _
    cases hinsert : insertIfAllowed s (visitAttribution user visit link false) none v .error with
    | error e =>
      rw [hinsert] at h
      unfold consumed at h
      split at h
      · rename_i hc
        cases hc
      · cases h
        rfl
      · cases h
    | ok r =>
      obtain ⟨s₂, ans₂⟩ := r
      rw [hinsert] at h
      cases h
      rcases insertIfAllowed_ok hinsert with hrow | ⟨e, he⟩
      · exact insertAttribution_pendings hrow
      · cases he

theorem attributeCreatedInvite_pendings {c : ReferralSettings} {s s₁ : ReferralDb}
    {visit : Option Uuid} {ans : ReferralAnswer}
    (h : attributeCreatedInvite c s user visit v = .ok (s₁, ans)) : s₁.pendings = s.pendings := by
  unfold attributeCreatedInvite at h
  split at h
  · cases h
    rfl
  split at h
  · cases h
    rfl
  split at h
  · cases h
    rfl
  split at h
  · cases h
    rfl
  · rcases insertIfAllowed_ok h with hrow | ⟨e, he⟩
    · exact insertAttribution_pendings hrow
    · cases he

theorem consumeInvite_drops (h : consumeInvite c s user cookie v = .ok s') : DropsPending s s' := by
  unfold consumeInvite at h
  split at h
  · cases h
    exact .refl
  · obtain ⟨referral, answer, hr, rfl⟩ := referred_ok h
    refine ⟨rfl, fun p hp => ?_⟩
    rw [← consumePartnerPending_pendings hr]
    exact hp

theorem attributeInvite_drops (h : attributeInvite c s user cookie v = .ok s') :
    DropsPending s s' := by
  unfold attributeInvite at h
  split at h
  · cases h
    exact .refl
  · obtain ⟨referral, answer, hr, rfl⟩ := referred_ok h
    refine ⟨rfl, fun p hp => ?_⟩
    rw [← attributeCreatedInvite_pendings hr]
    exact hp

theorem withPerson_drops {email : String} {account : Uuid}
    (h : s.withPerson user email account = .ok s') :
    DropsPending s s' := by
  obtain ⟨referral, answer, hr, rfl⟩ := referred_ok h
  obtain ⟨people, accounts, books, rfl⟩ := registerPerson_cases hr
  exact ⟨rfl, fun _ hp => hp⟩

theorem apply_drops {s s₁ : ReferralDb} {ans : ReferralAnswer}
    (h : applyPendingOnActivation c.referral s user v = .ok (s₁, ans)) :
    ∀ p ∈ s₁.pendings, p ∈ s.pendings := by
  have hdropped : ∀ id, ∀ p ∈ (dropPending s id).pendings, p ∈ s.pendings :=
    fun id p hp => (Table.mem_remove.1 hp).1
  cases hp : s.pending? user with
  | none =>
    unfold applyPendingOnActivation at h
    rw [hp] at h
    cases h
    exact fun _ hp => hp
  | some p =>
    cases hstands : standingPending s user v.now with
    | none =>
      rw [apply_fallen hp hstands] at h
      cases h
      exact hdropped p.id
    | some q =>
      cases henabled : c.referral.partnerChannelEnabled with
      | false =>
        rw [apply_off hstands henabled] at h
        cases h
        exact fun _ hp => hp
      | true =>
        rw [apply_on hstands henabled] at h
        split at h
        · cases h
          exact hdropped q.id
        · rcases insertIfAllowed_ok h with hrow | ⟨e, he⟩
          · rw [insertAttribution_pendings hrow]
            exact hdropped q.id
          · cases he
            exact fun _ hp => hp

theorem applyPending_drops (h : s.applyPending c user v = .ok s') :
    DropsPending s s'
      ∧ (s'.referral.pending? user = none ∨ keepsPending c s.referral user v.now = true) := by
  obtain ⟨referral, answer, hr, rfl⟩ := referred_ok h
  exact ⟨⟨rfl, apply_drops hr⟩, (apply_settles hr).imp_right And.right⟩

theorem google_drops (h : (ActivationPath.google cookie).run c s user v = .ok s') :
    DropsPending s s'
      ∧ (s'.referral.pending? user = none ∨ keepsPending c s.referral user v.now = true) := by
  obtain ⟨s₁, happly, hconsume⟩ := bind_ok h
  obtain ⟨hdrops, hsettles⟩ := applyPending_drops happly
  have hrest := consumeInvite_drops hconsume
  exact ⟨hdrops.trans hrest, hsettles.imp_left hrest.none_of⟩

/-- A registration may record one row, of the user it is for. -/
theorem recordPendingForNewUser_pendings {s s₁ : ReferralDb}
    (h : recordPendingForNewUser c s user cookie v = .ok s₁) :
    ∀ p ∈ s₁.pendings, p ∈ s.pendings ∨ p.user = user := by
  unfold recordPendingForNewUser at h
  split at h
  · cases h
    exact fun _ hp => .inl hp
  · split at h
    · cases h
      exact fun _ hp => .inl hp
    · obtain ⟨⟨s₂, ans⟩, hrecord, heq⟩ := map_ok h
      cases heq
      unfold recordPending at hrecord
      split at hrecord
      · cases hrecord
      rename_i pendings hi
      cases hrecord
      intro p hp
      rcases (Table.mem_insert hi).1 hp with hold | rfl
      · exact .inl hold
      · exact .inr rfl

end Moves

/-! ## What a step does -/

section Steps

variable {c : ActivationSettings} {s s' : SignInDb} {t t' : AccessThread} {x : AccessInput}

/-- What a step does to the activity of users who are there. -/
structure Opens (c : ActivationSettings) (s : SignInDb) (t : AccessThread) (x : AccessInput)
    (s' : SignInDb) :
    Prop where
  stays : ∀ u ∈ s.users, ∃ u' ∈ s'.users, u'.id = u.id
  /-- Who is active now was active, or is made active, or is new. -/
  active : ∀ u' ∈ s'.users, u'.isActive = true → ∀ u ∈ s.users, u.id = u'.id →
    u.isActive = true ∨ ∃ applies, activates c s t x = some (u.id, applies)

theorem isInactive_iff {user : UserId} :
    s.isInactive user = true ↔ ∃ u ∈ s.users, u.id = user ∧ u.isActive = false := by
  unfold SignInDb.isInactive
  rw [List.any_eq_true]
  constructor
  · rintro ⟨u, hu, hp⟩
    obtain ⟨hid, hactive⟩ := Bool.and_eq_true_iff.1 hp
    exact ⟨u, hu, of_decide_eq_true hid, by simpa using hactive⟩
  · rintro ⟨u, hu, hid, hactive⟩
    exact ⟨u, hu, by rw [decide_eq_true hid, hactive]; rfl⟩

theorem Opens.of_move {opened : UserId → Prop} (h : UsersMove opened s.users s'.users)
    (himp : ∀ u ∈ s.users, u.isActive = false → opened u.id
      → ∃ applies, activates c s t x = some (u.id, applies)) :
    Opens c s t x s' := by
  refine ⟨h.stays, ?_⟩
  intro u' hu' hactive u hu hid
  rcases h.comes u' hu' with hnew | ⟨u₀, hu₀, hid₀, hhow⟩
  · exact absurd hid (hnew u hu)
  · -- users have an id each
    obtain rfl : u₀ = u := Table.eq_of_clash hu₀ hu (.inl (hid₀.trans hid.symm))
    by_cases hwas : u₀.isActive = true
    · exact .inl hwas
    · rcases hhow with hopened | hsame
      · exact .inr (himp u₀ hu (Bool.eq_false_iff.2 hwas) hopened)
      · exact absurd (hsame ▸ hactive) hwas

theorem activates_of_letsIn {user : UserId} (hreset : ∀ a pc, t ≠ .own (.confirmPasswordReset a) pc)
    (hlets : letsIn c s t x = some user) (hinactive : s.isInactive user = true) :
    ∃ applies, activates c s t x = some (user, applies) := by
  have hfilter : (letsIn c s t x).filter s.isInactive = some user := by
    rw [hlets, Option.filter_some, if_pos hinactive]
  unfold activates
  split
  · cases hlets
  · rename_i a pc
    exact absurd rfl (hreset a pc)
  · rw [hfilter]
    exact ⟨_, rfl⟩
  · rw [hfilter]
    exact ⟨_, rfl⟩

/-- A reset of a password makes nobody active. -/
theorem resetPassword_opens {a : LinkArgs}
    (h : accessStep c s (.own (.confirmPasswordReset a) pc) x = some (s', t')) :
    Opens c s (.own (.confirmPasswordReset a) pc) x s' := by
  have hmove : UsersMove (fun _ => False) s.users s'.users := by
    obtain ⟨⟨accounts, pc'⟩, hpc, heq⟩ := Option.map_eq_some_iff.1 h
    cases heq
    unfold accessPc at hpc
    split at hpc
    · cases hpc
      exact .refl
    · cases hpc
      exact .refl
    · cases x with
      | go =>
        unfold beginAccess at hpc
        dsimp only at hpc
        split at hpc
        · cases hpc
          exact .refl
        · cases hpc
          exact .refl
      | signIn x => cases hpc
      | hash password => cases hpc
      | claim granted code codeHash => cases hpc
      | refuse e => cases hpc
      | fail => cases hpc
    · cases x with
      | hash password =>
        cases hpc
        exact saveUser_move (withPassword password) (fun _ _ h => h) (fun _ => rfl)
          (.inr fun _ => rfl)
      | signIn x => cases hpc
      | go => cases hpc
      | claim granted code codeHash => cases hpc
      | refuse e => cases hpc
      | fail => cases hpc
    · cases hpc
  exact .of_move hmove fun _ _ _ hf => hf.elim

/-- An administrator's step. -/
theorem setActive_opens {user : UserId} {active : Bool}
    (h : accessStep c s (.own (.setActive user active) pc) x = some (s', t')) :
    Opens c s (.own (.setActive user active) pc) x s' := by
  rcases accessStep_setActive h with ⟨rfl, rfl, rfl, _⟩ | ⟨rfl, _, rfl⟩
  · cases active with
    | false =>
      refine ⟨?_, ?_⟩
      · have hmove : UsersMove (fun id => id = user) s.users
            (s.withAccounts
              (s.race.accounts.saveUser user (withActive false) (fun _ _ h => h))).users :=
          saveUser_move (withActive false) (fun _ _ h => h) (fun _ => rfl) (.inl rfl)
        exact hmove.stays
      · intro u' hu' hactive u hu hid
        obtain ⟨u₀, hu₀, ⟨_, rfl⟩ | ⟨_, rfl⟩⟩ := Table.of_mem_rewritten hu'
        · cases hactive
        · obtain rfl : u' = u := Table.eq_of_clash hu₀ hu (.inl hid.symm)
          exact .inl hactive
    | true =>
      have hmove : UsersMove (fun id => id = user) s.users
          (s.withAccounts
            (s.race.accounts.saveUser user (withActive true) (fun _ _ h => h))).users :=
        saveUser_move (withActive true) (fun _ _ h => h) (fun _ => rfl) (.inl rfl)
      refine .of_move hmove ?_
      rintro u hu hinactive rfl
      refine ⟨false, ?_⟩
      unfold activates
      exact if_pos (isInactive_iff.2 ⟨u, hu, rfl, hinactive⟩)
  · have hmove : UsersMove (fun _ => False) s'.users s'.users := .refl
    exact .of_move hmove fun _ _ _ hf => hf.elim

/-- **Every step opens only whom `activates` names.** -/
theorem accessStep_opens (hlocal : AccessLocal t)
    (h : accessStep c s t x = some (s', t')) : Opens c s t x s' := by
  by_cases hadmin : ∃ user active pc, t = .own (.setActive user active) pc
  · obtain ⟨user, active, pc, rfl⟩ := hadmin
    exact setActive_opens h
  by_cases hreset : ∃ a pc, t = .own (.confirmPasswordReset a) pc
  · obtain ⟨a, pc, rfl⟩ := hreset
    exact resetPassword_opens h
  have hm := accessStep_move hlocal h fun user active pc hc => hadmin ⟨user, active, pc, hc⟩
  refine .of_move hm.users fun u hu hinactive hlets => ?_
  exact activates_of_letsIn (fun a pc hc => hreset ⟨a, pc, hc⟩) hlets
    (isInactive_iff.2 ⟨u, hu, rfl, hinactive⟩)

/-- A registration that created a user has left the row inactive. -/
theorem registered_inactive {t u : RaceThread} {email : String} {invite : Bool} {id : UserId}
    (ht : t.pc = .missedUser email invite) (hu : u.pc = .registered .created)
    (h : accessStep c s (.signIn (.request t)) (.signIn (.user id))
      = some (s', .signIn (.request u))) :
    ∃ user ∈ s'.users, user.id = id ∧ user.isActive = false := by
  obtain ⟨⟨s₁, v⟩, hstep, heq⟩ := Option.map_eq_some_iff.1 h
  cases heq
  obtain ⟨⟨race, v⟩, hrace, heq⟩ := Option.map_eq_some_iff.1 hstep
  cases heq
  obtain ⟨⟨race', pc'⟩, hpc, heq⟩ := Option.map_eq_some_iff.1 hrace
  cases heq
  rw [ht] at hpc
  have hrun : s.race.run (registerNew email invite id) registration = (race', pc') :=
    Option.some.inj hpc
  have hdb := (Prod.mk.inj hrun).1
  have hends := (Prod.mk.inj hrun).2
  dsimp only at hu
  rcases registerNew_cases (s := s.race.accounts) email invite id
    with ⟨hraised, _⟩ | ⟨s₂, hi, hrows⟩
  · rw [hraised, hu] at hends
    cases hends
  · refine ⟨registeredUser email id, ?_, rfl, rfl⟩
    have hmem : registeredUser email id ∈ s₂.users := by
      unfold AccountsDb.insertUser at hi
      split at hi
      · cases hi
      rename_i users hins
      cases hi
      exact (Table.mem_insert hins).2 (.inr rfl)
    show registeredUser email id ∈ race'.accounts.users
    rw [← hdb]
    show registeredUser email id ∈ ((registerNew email invite id).atomic s.race.accounts).2.users
    rw [hrows]
    exact hmem

end Steps

/-! ## What a transaction does -/

/-- Pending rows come with an inactive user, and an activation that is to apply one settles it. -/
structure InviteMove (c : InviteSettings) (s : InviteDb) (t : AccessThread) (x : InviteInput)
    (after : SignInDb) (login : LoginDb) : Prop where
  signIn : login.signIn = after
  pendings : ∀ p ∈ login.referral.pendings,
    p ∈ s.login.referral.pendings ∨ ∃ u ∈ login.signIn.users, u.id = p.user ∧ u.isActive = false
  applies : ∀ user, activates c.access s.login.signIn t x.access = some (user, true) →
    login.referral.pending? user = none
      ∨ keepsPending (c.at s.enabled) s.login.referral user x.view.now = true

section Transactions

variable {c : InviteSettings} {s : InviteDb} {login : LoginDb} {signIn : SignInDb}
  {t u : AccessThread} {x : InviteInput} {cookie : Option String}

theorem letsIn_of_activates {c : ActivationSettings} {s : SignInDb} {t : AccessThread}
    {x : AccessInput} {user : UserId} (h : activates c s t x = some (user, true)) :
    letsIn c s t x = some user ∧ s.isInactive user = true := by
  unfold activates at h
  split at h
  · split at h
    · cases h
    · cases h
  · cases h
  · obtain ⟨_, _, heq⟩ := Option.map_eq_some_iff.1 h
    cases heq
  · obtain ⟨user', hfilter, heq⟩ := Option.map_eq_some_iff.1 h
    cases heq
    exact Option.filter_eq_some_iff.1 hfilter

theorem InviteMove.of_drops (hbefore : before.referral = s.login.referral)
    (h : DropsPending before login)
    (happlies : ∀ user, activates c.access s.login.signIn t x.access = some (user, true) →
      login.referral.pending? user = none
        ∨ keepsPending (c.at s.enabled) s.login.referral user x.view.now = true) :
    InviteMove c s t x before.signIn login :=
  ⟨h.signIn, fun p hp => .inl (hbefore ▸ h.pendings p hp), happlies⟩

theorem letsIn_google {c : ActivationSettings} {s : SignInDb} {pc : GooglePc} {x : AccessInput}
    {user : UserId} (h : letsIn c s (.signIn (.google identity pc)) x = some user) :
    ∃ attempt, pc = .missedSubject attempt := by
  unfold letsIn at h
  split at h
  · rename_i hc
    cases hc
  · rename_i hc
    cases hc
  · rename_i hc
    cases hc
  · rename_i identity' attempt hc
    cases hc
    exact ⟨attempt, rfl⟩
  · cases h

theorem google_answer {pc : GooglePc} {user : UserId}
    (h : (AccessThread.signIn (.google identity pc)).answer = some user) :
    ∃ outcome, pc = .signedIn user outcome := by
  cases pc with
  | signedIn user' outcome => exact ⟨outcome, by rw [Option.some.inj h]⟩
  | _ => cases h

/-- Of the other calls, `activate_user` applies a pending row, that of its copy. -/
theorem activates_own {c : ActivationSettings} {s : SignInDb} {call : AccessCall}
    {x : AccessInput} {user : UserId} (h : activates c s (.own call pc) x = some (user, true)) :
    ∃ a copy, call = .activateUser a ∧ pc = .accepted copy ∧ copy.id = user := by
  have hlets := (letsIn_of_activates h).1
  unfold letsIn at hlets
  split at hlets
  · rename_i a copy _ hc
    cases hc
    exact ⟨a, copy, rfl, rfl, Option.some.inj hlets⟩
  · rename_i hc
    cases hc
    cases h
  · rename_i hc
    cases hc
    obtain ⟨_, _, heq⟩ := Option.map_eq_some_iff.1 h
    cases heq
  · rename_i hc
    cases hc
  · cases hlets

theorem googleReferral_move {pc pc' : GooglePc} (hbefore : before.referral = s.login.referral)
    (hlets : ∀ user, letsIn c.access s.login.signIn (.signIn (.google identity pc)) x.access
      = some user →
      (AccessThread.signIn (.google identity pc')).answer = some user)
    (h : googleReferral (c.at s.enabled) before s.login.signIn identity pc pc' cookie x
      = .ok login) :
    InviteMove c s (.signIn (.google identity pc)) x before.signIn login := by
  unfold googleReferral at h
  split at h
  · refine .of_drops hbefore (consumeInvite_drops h) fun user hc => ?_
    have hno := (letsIn_of_activates hc).1
    cases hno
  · rename_i attempt user outcome
    have hsame : ∀ user', activates c.access s.login.signIn
      (.signIn (.google identity (.missedSubject attempt)))
        x.access = some (user', true) → user' = user := by
      intro user' hc
      exact (Option.some.inj (hlets user' (letsIn_of_activates hc).1)).symm
    split at h
    · obtain ⟨hdrops, hsettles⟩ := google_drops h
      refine .of_drops hbefore hdrops fun user' hc => ?_
      rw [hsame user' hc, ← hbefore]
      exact hsettles
    · rename_i hactive
      refine .of_drops hbefore (consumeInvite_drops h) fun user' hc => ?_
      have hinactive := (letsIn_of_activates hc).2
      rw [hsame user' hc] at hinactive
      exact absurd hinactive hactive
  · obtain ⟨s₁, hperson, hattribute⟩ := bind_ok h
    refine .of_drops hbefore ((withPerson_drops hperson).trans (attributeInvite_drops hattribute))
      fun user hc => ?_
    have hno := (letsIn_of_activates hc).1
    cases hno
  · rename_i hother _
    cases h
    refine .of_drops hbefore .refl fun user hc => ?_
    -- whom the step lets in, it answers
    have hin := (letsIn_of_activates hc).1
    obtain ⟨attempt, rfl⟩ := letsIn_google hin
    obtain ⟨outcome, rfl⟩ := google_answer (hlets user hin)
    exact absurd rfl (hother attempt user outcome rfl)

theorem requestReferral_move {t u : RaceThread} (hbefore : before.referral = s.login.referral)
    (hstep : accessStep c.access s.login.signIn (.signIn (.request t)) x.access
      = some (before.signIn, .signIn (.request u)))
    (h : requestReferral (c.at s.enabled) before s.login.signIn t u cookie x = .ok login) :
    InviteMove c s (.signIn (.request t)) x before.signIn login := by
  have hnone : ∀ user, activates c.access s.login.signIn (.signIn (.request t)) x.access
      ≠ some (user, true) := by
    intro user hc
    have hno := (letsIn_of_activates hc).1
    cases hno
  unfold requestReferral at h
  split at h
  · rename_i email invite id ht hu hx
    obtain ⟨s₁, hperson, hrest⟩ := bind_ok h
    obtain ⟨referral, hrecord, heq⟩ := bind_ok hrest
    cases heq
    have hdrops := withPerson_drops hperson
    rw [hx] at hstep
    obtain ⟨user, huser, hid, hinactive⟩ := registered_inactive ht hu hstep
    refine ⟨hdrops.signIn, fun p hp => ?_, fun user hc => absurd hc (hnone user)⟩
    rcases recordPendingForNewUser_pendings hrecord p hp with hold | hnew
    · left
      rw [← hbefore]
      exact hdrops.pendings p hold
    · right
      refine ⟨user, ?_, hid.trans hnew.symm, hinactive⟩
      show user ∈ s₁.signIn.users
      rw [hdrops.signIn]
      exact huser
  · split at h
    · exact .of_drops hbefore (withPerson_drops h) fun user hc => absurd hc (hnone user)
    · cases h
      exact .of_drops hbefore .refl fun user hc => absurd hc (hnone user)
  · cases h
    exact .of_drops hbefore .refl fun user hc => absurd hc (hnone user)

/-- A call stays the call it is. -/
theorem accessStep_own {c : ActivationSettings} {s s' : SignInDb} {call : AccessCall}
    {x : AccessInput} (h : accessStep c s (.own call pc) x = some (s', u)) :
    ∃ pc', u = .own call pc' := by
  obtain ⟨⟨accounts, pc'⟩, _, heq⟩ := Option.map_eq_some_iff.1 h
  cases heq
  exact ⟨pc', rfl⟩

theorem accessStep_google {c : ActivationSettings} {s s' : SignInDb} {pc : GooglePc}
    {x : AccessInput} (h : accessStep c s (.signIn (.google identity pc)) x = some (s', u)) :
    ∃ pc', u = .signIn (.google identity pc') := by
  cases x with
  | signIn x =>
    obtain ⟨⟨s₁, u'⟩, hstep, heq⟩ := Option.map_eq_some_iff.1 h
    cases heq
    obtain ⟨⟨s₂, pc'⟩, _, heq⟩ := Option.map_eq_some_iff.1 hstep
    cases heq
    exact ⟨pc', rfl⟩
  | _ => cases h

/-- **The partner tables after a transaction of the accounts services.** -/
theorem referralOf_move (hlocal : AccessLocal t)
    (hstep : accessStep c.access s.login.signIn t x.access = some (signIn, u))
    (h : referralOf (c.at s.enabled) { s.login with signIn } s.login.signIn t u cookie x
      = .ok login) :
    InviteMove c s t x signIn login := by
  have hlets : ∀ user, letsIn c.access s.login.signIn t x.access = some user
      → u.answer = some user := by
    intro user hin
    refine (accessStep_move hlocal hstep ?_).lets user hin
    rintro user active pc rfl
    cases pc <;> cases hin
  obtain ⟨before, hbefore, hsignIn, hb⟩ : ∃ before : LoginDb, before.referral = s.login.referral
      ∧ before.signIn = signIn ∧ { s.login with signIn } = before :=
    ⟨{ s.login with signIn }, rfl, rfl, rfl⟩
  rw [hb] at h
  rw [← hsignIn]
  unfold referralOf at h
  split at h
  · rename_i a copy call user
    obtain ⟨hdrops, hsettles⟩ := applyPending_drops h
    refine .of_drops hbefore hdrops fun user' hc => ?_
    obtain ⟨_, copy', _, hpc, hid⟩ := activates_own hc
    cases hpc
    rw [← hid, ← hbefore]
    exact hsettles
  · cases h
    refine .of_drops hbefore .refl fun user hc => ?_
    obtain ⟨_, _, hcall, _⟩ := activates_own hc
    cases hcall
  · rename_i identity pc identity' pc'
    obtain ⟨pc'', heq⟩ := accessStep_google hstep
    cases heq
    exact googleReferral_move hbefore hlets h
  · rw [← hsignIn] at hstep
    exact requestReferral_move hbefore hstep h
  · rename_i hactivate _ hgoogle _
    cases h
    refine .of_drops hbefore .refl fun user hc => ?_
    have hanswer := hlets user (letsIn_of_activates hc).1
    cases t with
    | own call pc =>
      obtain ⟨a, copy, rfl, rfl, _⟩ := activates_own hc
      obtain ⟨pc', rfl⟩ := accessStep_own hstep
      cases pc' with
      | answered user' => exact absurd rfl (hactivate a copy (.activateUser a) user' rfl)
      | _ => cases hanswer
    | signIn t =>
      cases t with
      | google identity pc =>
        obtain ⟨pc', rfl⟩ := accessStep_google hstep
        exact absurd rfl (hgoogle identity pc identity pc' rfl)
      | request t =>
        have hno := (letsIn_of_activates hc).1
        cases hno

end Transactions

/-! ## Runs -/

/-- Who has a pending row is there, and inactive unless a conflict has left the row. -/
def PendingInv (s : InviteDb) (conflicts : List UserId) : Prop :=
  ∀ p ∈ s.login.referral.pendings, ∃ u ∈ s.login.signIn.users, u.id = p.user
    ∧ (u.isActive = true → u.id ∈ conflicts)

/-- Pending rows are of inactive users only. -/
def OnlyInactive (s : InviteDb) : Prop :=
  ∀ p ∈ s.login.referral.pendings, ∃ u ∈ s.login.signIn.users, u.id = p.user ∧ u.isActive = false

/-- A step that makes a user active applies the pending row while the channel is on, or there is
none. -/
def settlesPending (c : InviteSettings) (s : InviteDb) (t : InviteThread)
    (x : InviteInput) : Bool :=
  match t with
  | .own _ _ => true
  | .access t _ =>
    match activates c.access s.login.signIn t x.access with
    | none => true
    | some (user, true) => !keepsPending (c.at s.enabled) s.login.referral user x.view.now
        || selfReferral (c.at s.enabled) s.login.referral user x.view.now
    | some (user, false) => (s.login.referral.pending? user).isNone
        || selfReferral (c.at s.enabled) s.login.referral user x.view.now

/-- The requests among the calls are registrations and signups. -/
def InviteLocal : InviteThread → Prop
  | .access t _ => AccessLocal t
  | .own _ _ => True

section Runs

variable {c : InviteSettings} {s s' : InviteDb} {t u : InviteThread} {x : InviteInput}
  {conflicts : List UserId}

theorem note_keeps {user : UserId} (h : user ∈ conflicts) :
    user ∈ noteConflict c s t x s' u conflicts := by
  unfold noteConflict
  split
  · exact h
  · split
    · exact h
    · split
      · exact List.mem_cons_of_mem _ h
      · exact h

/-- **A transaction of the accounts services keeps the invariant, when it settles the pending
row.** -/
theorem PendingInv.move {t : AccessThread} {cookie : Option String} {after : SignInDb}
    {login : LoginDb} (h : PendingInv s conflicts)
    (hok : settlesPending c s (.access t cookie) x = true)
    (hopens : Opens c.access s.login.signIn t x.access after)
    (hm : InviteMove c s t x after login) :
    PendingInv { s with login } (noteConflict c s (.access t cookie) x s' u conflicts) := by
  intro p hp
  rcases hm.pendings p hp with hold | ⟨w, hw, hid, hinactive⟩
  · obtain ⟨w, hw, hid, hrecorded⟩ := h p hold
    obtain ⟨w', hw', hsame⟩ := hopens.stays w hw
    refine ⟨w', ?_, hsame.trans hid, fun hactive => ?_⟩
    · show w' ∈ login.signIn.users
      rw [hm.signIn]
      exact hw'
    rw [hsame]
    rcases hopens.active w' hw' hactive w hw hsame.symm with hwas | ⟨applies, hactivates⟩
    · exact note_keeps (hrecorded hwas)
    · unfold settlesPending at hok
      unfold noteConflict
      dsimp only at hok ⊢
      rw [hactivates] at hok
      rw [hactivates]
      by_cases hself : selfReferral (c.at s.enabled) s.login.referral w.id x.view.now = true
      · dsimp only
        rw [if_pos hself]
        exact List.mem_cons_self
      · -- without a conflict the row is gone, or was not there
        have hno := Bool.eq_false_iff.2 hself
        have hthere : ∀ q : Table PendingPartnerAttribution, p ∈ q
            → q.find? (·.user = w.id) ≠ none := by
          intro q hmem hnone
          exact Table.not_of_find? hnone hmem (decide_eq_true hid.symm)
        cases applies with
        | true =>
          dsimp only at hok
          rw [hno, Bool.or_false, Bool.not_eq_true'] at hok
          rcases hm.applies w.id hactivates with hnone | hkeeps
          · exact absurd hnone (hthere _ hp)
          · rw [hok] at hkeeps
            cases hkeeps
        | false =>
          dsimp only at hok
          rw [hno, Bool.or_false] at hok
          exact absurd (Option.isNone_iff_eq_none.1 hok) (hthere _ hold)
  · exact ⟨w, hw, hid, fun hactive => by rw [hinactive] at hactive; cases hactive⟩

theorem AccessThread.failed_local {t : AccessThread} {e : Exc} (h : AccessLocal t) :
    AccessLocal (t.failed e) := by
  cases t with
  | own call pc => trivial
  | signIn t =>
    cases t with
    | request t => exact h
    | google identity pc => trivial

/-- **Every step that settles the pending row it is about keeps the invariant.** -/
theorem invite_keeps (h : PendingInv s conflicts) (hlocal : InviteLocal t)
    (hok : settlesPending c s t x = true) (hstep : inviteStep c s t x = some (s', u)) :
    PendingInv s' (noteConflict c s t x s' u conflicts) ∧ InviteLocal u := by
  have hsame : PendingInv s (noteConflict c s t x s' u conflicts) := by
    intro p hp
    obtain ⟨w, hw, hid, hrecorded⟩ := h p hp
    exact ⟨w, hw, hid, fun hactive => note_keeps (hrecorded hactive)⟩
  unfold inviteStep at hstep
  split at hstep
  · rename_i t cookie
    unfold accessWithInvite at hstep
    split at hstep
    · cases hstep
    rename_i after v haccess
    split at hstep
    · rename_i login hreferral
      cases hstep
      have hopens := accessStep_opens hlocal haccess
      exact ⟨h.move hok hopens (referralOf_move hlocal haccess hreferral),
        accessStep_local hlocal haccess⟩
    · cases hstep
      exact ⟨hsame, AccessThread.failed_local hlocal⟩
  · obtain ⟨⟨s₁, pc⟩, hown, heq⟩ := Option.map_eq_some_iff.1 hstep
    cases heq
    refine ⟨?_, trivial⟩
    unfold ownInvite at hown
    split at hown
    · cases hown
    · split at hown
      · cases hown
        exact hsame
      · rename_i referral answer hconsume
        cases hown
        intro p hp
        refine hsame p ?_
        rw [← consumePartnerPending_pendings hconsume]
        exact hp
    · rename_i referral
      split at hown
      · rename_i hkeeps
        cases hown
        intro p hp
        refine hsame p ?_
        have hin := List.all_eq_true.1 hkeeps p hp
        exact List.contains_iff_mem.1 hin
      · cases hown
    · cases hown
      exact hsame
  · cases hstep

theorem invite_inv (c : InviteSettings) :
    Invariant ((inviteProgram c).recorded (noteConflict c)) (fun s => OnlyInactive s.1 ∧ s.2 = [])
      (fun s t x => settlesPending c s.1 t x = true) (fun s => PendingInv s.1 s.2)
        (fun _ t => InviteLocal t)
      (fun _ _ => True) where
  init := by
    rintro ⟨s, r⟩ ⟨hinactive, _⟩ p hp
    obtain ⟨u, hu, hid, hout⟩ := hinactive p hp
    exact ⟨u, hu, hid, fun hactive => by rw [hout] at hactive; cases hactive⟩
  start := by
    intro s k _
    cases k with
    | access request cookie =>
      cases request with
      | register email invite => exact fun email hc => nomatch hc
      | startSignup a => exact fun email hc => nomatch hc
      | google identity => trivial
      | own call => trivial
    | consume user cookie => trivial
    | partners referral => trivial
    | setEnabled enabled => trivial
  apart_start := fun _ _ => trivial
  symm := fun _ => trivial
  step := by
    rintro ⟨s, r⟩ t x ⟨s', r'⟩ t' hinv hlocal hok hstep
    obtain ⟨hinner, hnote⟩ := Program.recorded_step.1 hstep
    dsimp only at hnote
    rw [hnote]
    exact invite_keeps hinv hlocal hok hinner
  frame := fun _ _ _ _ hu _ => ⟨hu, trivial⟩

end Runs

/--
**The paths agree about the invite exactly where an activation keeps the pending row; and in every
run whose steps settle the row they are about, no active user is left with one, but for a
conflict.**
-/
theorem pending_settled (login : LoginSettings) (c : InviteSettings) :
    (∀ (s : LoginDb) (user : UserId) (v : ReferralView), (s.referral.pending? user).isSome = true →
        ((∀ path path' : ActivationPath, path.outcome login s user v = path'.outcome login s user v)
          ↔ keepsPending login s.referral user v.now = true))
      ∧ ∀ g, (inviteProgram c).RecordedReach (noteConflict c) [] OnlyInactive
          (fun s t x => settlesPending c s t x = true) g →
        ∀ u ∈ g.store.1.login.signIn.users, u.isActive = true → u.id ∉ g.store.2 →
          g.store.1.login.referral.pending? u.id = none := by
  refine ⟨fun s user v hp => outcomes_agree hp, ?_⟩
  intro g hg u hu hactive hout
  have hinv := ((invite_inv c).reach hg).store
  refine Table.find?_eq_none.2 fun p hp hsame => ?_
  obtain ⟨w, hw, hid, hrecorded⟩ := hinv p hp
  have hof : p.user = u.id := of_decide_eq_true hsame
  obtain rfl : w = u := Table.eq_of_clash hw hu (.inl (hid.trans hof))
  exact hout (hrecorded hactive)

/-! ## Dave registers with the founder's invite -/

/-- The links are those of user 3. -/
def daveSettings : InviteSettings where
  access := { linkSettings with decodeUid := fun uid => if uid = "MQ" then some 3 else none }
  login := loginSettings

def atOnce (x : AccessInput) : InviteInput :=
  ⟨x, drawn.getD 1 alice, ⟨0, fun i => drawn.getD i alice, fun _ => "", 0⟩⟩

def invitesOn : InviteDb := ⟨bothLinked, true⟩

theorem onlyInactive_invitesOn : OnlyInactive invitesOn :=
    fun p hp => absurd hp (Table.not_mem_empty p)

/-- Dave registers; the cookie is of a click on the link of the founder. -/
def daveRegisters : List (Act InviteCall InviteInput) :=
  [.call 0 (.access (.register "dave@example.org" true) (some "signed")),
    .tick 0 (atOnce (.signIn .lookUp)), .tick 0 (atOnce (.signIn (.user 3)))]

/-- And is let in by the link of his mail. -/
def daveActivates : List (Act InviteCall InviteInput) :=
  [.call 1 (.access (.own (.activateUser (linkTo "cqgh1s-!"))) none), .tick 1 (atOnce .go),
    .tick 1 (atOnce (.hash "pbkdf2:1"))]

/-- And signs up with a password, and is let in by the code of his mail. -/
def daveSignsUp : List (Act InviteCall InviteInput) :=
  [.call 1 (.access (.startSignup ⟨"dave@example.org", "Correct-horse-1", "Dave", "Doe"⟩) none),
    .tick 1 (atOnce (.signIn (.claim true ⟨4, "123456", ("hash:" ++ ·)⟩))),
      .tick 1 (atOnce (.signIn .lookUp)),
    .call 2 (.access (.own (.confirmSignup "dave@example.org" "123456")) none),
      .tick 2 (atOnce .go)]

theorem dave_registers : ∃ g, (inviteProgram daveSettings).RecordedReach (noteConflict daveSettings)
    [] OnlyInactive (fun _ _ _ => True) g
    ∧ (g.store.1.login.referral.pending? 3).isSome = true
    ∧ ActivationPath.activateUser.outcome (daveSettings.at true) g.store.1.login 3 (atOnce .go).view
      ≠ ActivationPath.confirmSignup.outcome (daveSettings.at true) g.store.1.login 3
        (atOnce .go).view := by
  have hrun : ∃ g, (inviteProgram daveSettings).RecordedReach (noteConflict daveSettings)
    [] OnlyInactive (fun _ _ _ => True) g
      ∧ decide ((g.store.1.login.referral.pending? 3).isSome = true
        ∧ ActivationPath.activateUser.outcome (daveSettings.at true) g.store.1.login 3
          (atOnce .go).view
          ≠ ActivationPath.confirmSignup.outcome (daveSettings.at true) g.store.1.login 3
            (atOnce .go).view) = true :=
    Program.reachWhere_check (P :=
      (inviteProgram daveSettings).recorded (noteConflict daveSettings))
      (fun _ _ _ => true) (fun _ _ _ _ => trivial) (s := (invitesOn, []))
        ⟨onlyInactive_invitesOn, rfl⟩
      daveRegisters _ (by decide)
  obtain ⟨g, hg, hends⟩ := hrun
  exact ⟨g, hg, of_decide_eq_true hends⟩

/-- `activate_user` settles the row of Dave. -/
theorem pending_settled_dave :
    (∃ s : LoginDb, (s.referral.pending? 3).isSome = true
        ∧ ((∀ path path' : ActivationPath, path.outcome (daveSettings.at true) s 3 (atOnce .go).view
            = path'.outcome (daveSettings.at true) s 3 (atOnce .go).view)
          ↔ keepsPending (daveSettings.at true) s.referral 3 (atOnce .go).view.now = true))
      ∧ ∃ g : Config (InviteDb × List UserId) InviteThread, ∃ u
        ∈ g.store.1.login.signIn.users, u.id = 3
        ∧ u.isActive = true ∧ g.store.1.login.referral.pending? u.id = none := by
  obtain ⟨g₁, _, hpending, _⟩ := dave_registers
  have hrun : ∃ g, (inviteProgram daveSettings).RecordedReach (noteConflict daveSettings)
    [] OnlyInactive (fun s t x => settlesPending daveSettings s t x = true) g
      ∧ decide
        ((∃ u ∈ g.store.1.login.signIn.users.rows, u.id = 3 ∧ u.isActive = true ∧ u.id ∉ g.store.2))
          = true :=
    Program.reachWhere_check (P :=
      (inviteProgram daveSettings).recorded (noteConflict daveSettings))
      (fun s t x => settlesPending daveSettings s.1 t x) (fun _ _ _ h => h) (s := (invitesOn, []))
      ⟨onlyInactive_invitesOn, rfl⟩ (daveRegisters ++ daveActivates) _ (by decide)
  obtain ⟨g₂, hg₂, hends⟩ := hrun
  obtain ⟨u, hu, hid, hactive, hout⟩ := of_decide_eq_true hends
  refine ⟨⟨g₁.store.1.login, hpending, (pending_settled _ daveSettings).1 _ 3 _ hpending⟩, g₂, u,
    hu, hid, hactive, ?_⟩
  exact (pending_settled (daveSettings.at true) daveSettings).2 g₂ hg₂ u hu hactive hout

/-- **`confirm_signup` leaves Dave a pending row, past which no cookie is consumed, however
late.** -/
theorem pending_left_behind :
    (∃ g, (inviteProgram daveSettings).RecordedReach (noteConflict daveSettings) [] OnlyInactive
      (fun _ _ _ => True) g
      ∧ (g.store.1.login.referral.pending? 3).isSome = true
      ∧ ActivationPath.activateUser.outcome (daveSettings.at true) g.store.1.login 3
        (atOnce .go).view
        ≠ ActivationPath.confirmSignup.outcome (daveSettings.at true) g.store.1.login 3
          (atOnce .go).view)
    ∧ ∃ g, (inviteProgram daveSettings).RecordedReach (noteConflict daveSettings) [] OnlyInactive
      (fun _ _ _ => True) g
      ∧ (∃ u ∈ g.store.1.login.signIn.users, u.id = 3 ∧ u.isActive = true) ∧ 3 ∉ g.store.2
      ∧ ∀ visit v, consumePartnerPending
        (daveSettings.at true).referral g.store.1.login.referral 3 visit v
        = .ok (g.store.1.login.referral, .consumed "ignored") := by
  have hrun : ∃ g, (inviteProgram daveSettings).RecordedReach (noteConflict daveSettings)
    [] OnlyInactive (fun _ _ _ => True) g
      ∧ decide ((∃ u ∈ g.store.1.login.signIn.users.rows, u.id = 3 ∧ u.isActive = true)
        ∧ 3 ∉ g.store.2
        ∧ (g.store.1.login.referral.pending? 3).isSome = true
        ∧ (g.store.1.login.referral.attribution? 3).isNone = true) = true :=
    Program.reachWhere_check (P :=
      (inviteProgram daveSettings).recorded (noteConflict daveSettings))
      (fun _ _ _ => true) (fun _ _ _ _ => trivial) (s := (invitesOn, []))
        ⟨onlyInactive_invitesOn, rfl⟩
      (daveRegisters ++ daveSignsUp) _ (by decide)
  obtain ⟨g, hg, hends⟩ := hrun
  obtain ⟨hactive, hout, hpending, hnone⟩ := of_decide_eq_true hends
  refine ⟨dave_registers, g, hg, hactive, hout, fun visit v => ?_⟩
  obtain ⟨answer, hconsume, hignored⟩ :=
    consume_pending (daveSettings.at true).referral visit v hpending
  rw [hconsume, hignored hnone]

end Roamkit.Accounts.Proof
