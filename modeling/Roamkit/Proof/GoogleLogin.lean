import Roamkit.Accounts.GoogleLogin
import Roamkit.Proof.InviteBonus
import Roamkit.Proof.InviteCalls
import Roamkit.Proof.SignIn

/-!
# An invite cookie and who can log in

A login ends with the user and the outcome it has without its cookie, unless the cookie is
of an invite the user may not accept: the check of self-referral raises out of the login,
and so does a bonus that the ledger refuses when the login activates its user. Neither is an
`IntegrityError`, so no attempt follows.
-/

namespace Roamkit.Accounts.Proof

open Lib Billing Organizations Partner Accounts Partner.Proof Billing.Proof

/-! ## A login without its invite -/

/-- What an attempt comes to, but for what is made of invites. -/
def signsIn (identity : GoogleIdentity) (a : LoginAttempt) :
    Except LoginFailure (UserId × GoogleLoginOutcome) :=
  match a.look identity with
  | .bySubject user =>
      if user.isActive then .ok (user.id, .existing) else .error (.auth .accountDisabled)
  | .byEmail user =>
    match linkOrActivate user (a.byEmail.signIn.subjectOf user.id) identity with
    | .error code => .error (.auth code)
    | .ok outcome =>
      match saveLink a.byEmail.signIn user identity with
      | none => .error (.raised .integrity)
      | some _ => .ok (user.id, outcome)
  | .nobody =>
    match a.create identity with
    | .error _ => .error (.raised .integrity)
    | .ok _ => .ok (a.id, .created)

/-- Another transaction was first, so that the attempt is made again. -/
def outrun (identity : GoogleIdentity) (a : LoginAttempt) : Bool :=
  lost LoginFailure.isIntegrity (signsIn identity a)

/-- The attempt that decides a login. -/
def deciding? (identity : GoogleIdentity) (attempts : Nat → LoginAttempt) : Option LoginAttempt :=
  ((List.range 3).map attempts).find? (!outrun identity ·)

/-- The cookie of a user conflicts, and no pending row is in its way. -/
def cookieFails (c : LoginSettings) (s : ReferralDb) (user : UserId) (signed : Option String)
    (now : Time) : Bool :=
  (s.pending? user).isNone && conflicts c.referral s user (c.visit signed now) now

/-- The bonus of the pending row is refused, or the row is lost and the cookie conflicts. -/
def activationFails (c : LoginSettings) (s : ReferralDb) (user : UserId) (signed : Option String)
    (now : Time) : Bool :=
  refusesPending c.referral s user now
    || (losesPending s user now && conflicts c.referral s user (c.visit signed now) now)

/-- What is made of invites ends the login. -/
def backfires (c : LoginSettings) (identity : GoogleIdentity) (signed : Option String)
    (a : LoginAttempt) : Bool :=
  match a.look identity with
  | .bySubject user => user.isActive && cookieFails c a.bySubject.referral user.id signed a.view.now
  | .byEmail user =>
    match linkOrActivate user (a.byEmail.signIn.subjectOf user.id) identity with
    | .error _ => false
    | .ok _ =>
      if user.isActive then cookieFails c a.byEmail.referral user.id signed a.view.now
      else activationFails c a.byEmail.referral user.id signed a.view.now
  | .nobody => false

/-- What an attempt reads and draws is as the database and `uuid4()` have it. -/
structure Sound (a : LoginAttempt) : Prop where
  bySubject : Consistent a.bySubject.referral
  byEmail : Consistent a.byEmail.referral
  atInsert : Consistent a.atInsert.referral
  freshByEmail : ∀ r ∈ a.byEmail.referral.attributions, r.id ≠ a.view.uuid 0
  freshAtInsert : ∀ r ∈ a.atInsert.referral.attributions, r.id ≠ a.view.uuid 0
  /-- The number of a user has few digits. -/
  key : (bonusKey a.id).length ≤ 128

/-! ## What the invite does to a login -/

section Attempts

variable {c : LoginSettings} {identity : GoogleIdentity} {signed : Option String} {a : LoginAttempt}
  {s : LoginDb} {user : UserId} {v : ReferralView}

/-- A cookie that conflicts is one that is read. -/
theorem conflicts_read {r : ReferralDb}
    (hc : conflicts c.referral r user (c.visit signed v.now) v.now = true) :
    ¬ (unsigned signed = true ∨ ¬ c.referral.partnerChannelEnabled = true) := by
  unfold conflicts at hc
  rw [Bool.and_eq_true, Bool.and_eq_true] at hc
  obtain ⟨⟨henabled, _⟩, hvisit⟩ := hc
  rintro (hblank | hdisabled)
  · have hnone : c.visit signed v.now = none := by
      unfold LoginSettings.visit
      cases signed with
      | none => rfl
      | some value => exact if_pos (of_decide_eq_true hblank)
    rw [hnone] at hvisit
    cases hvisit
  · exact hdisabled henabled

theorem consumeInvite_breaks {r : ReferralDb}
    (hc : conflicts c.referral r user (c.visit signed v.now) v.now = true)
    (hb : Breaks (consumePartnerPending c.referral s.referral user (c.visit signed v.now) v)) :
    Breaks (consumeInvite c s user signed v) := by
  obtain ⟨e, he, hne⟩ := hb
  refine ⟨e, ?_, hne⟩
  unfold consumeInvite LoginDb.referred
  rw [if_neg (conflicts_read hc), he]
  rfl

theorem consumeInvite_ok
    (hr : ∃ r, consumePartnerPending c.referral s.referral user (c.visit signed v.now) v = .ok r) :
    ∃ s', consumeInvite c s user signed v = .ok s' := by
  obtain ⟨r, hr⟩ := hr
  unfold consumeInvite LoginDb.referred
  rw [hr]
  split
  · exact ⟨s, rfl⟩
  · exact ⟨_, rfl⟩

/-- The cookie of a user who needs no activation. -/
theorem consumeInvite_ends (c : LoginSettings) (user : UserId) (signed : Option String)
    (v : ReferralView) (h : Consistent s.referral) :
    (cookieFails c s.referral user signed v.now = true → Breaks (consumeInvite c s user signed v))
      ∧ (cookieFails c s.referral user signed v.now = false
        → ∃ s', consumeInvite c s user signed v = .ok s') := by
  obtain ⟨hbreaks, hends⟩ := consume_ends c.referral (c.visit signed v.now) user v h
  refine ⟨fun hb => ?_, fun hb => consumeInvite_ok (hends ?_)⟩
  · obtain ⟨hnone, hc⟩ := Bool.and_eq_true_iff.1 hb
    exact consumeInvite_breaks hc (hbreaks hc hnone)
  · rcases Bool.and_eq_false_iff.1 hb with hsome | hc
    · exact .inr hsome
    · exact .inl hc

/-- The pending row and the cookie of a user who is activated. -/
theorem activate_ends (c : LoginSettings) (signed : Option String) (h : Consistent s.referral)
    (hfresh : ∀ r ∈ s.referral.attributions, r.id ≠ v.uuid 0) {u : User} {signIn : SignInDb}
    (hu : u.isActive = false) (hsave : saveLink s.signIn u identity = some signIn)
    {r : Except Exc LoginDb}
    (hr : r = saveAndActivate c s u identity v >>= fun s => consumeInvite c s u.id signed v) :
    (activationFails c s.referral u.id signed v.now = true → Breaks r)
      ∧ (activationFails c s.referral u.id signed v.now = false → ∃ s', r = .ok s') := by
  unfold activationFails
  obtain ⟨hrefuses, happlies⟩ := apply_ends (c := c.referral) u.id h hfresh
  have hactivate : saveAndActivate c s u identity v
      = LoginDb.referred { s with signIn }
        (applyPendingOnActivation c.referral s.referral u.id v) := by
    unfold saveAndActivate
    rw [hsave]
    exact if_neg (by rw [hu]; exact Bool.false_ne_true)
  rw [hactivate] at hr
  cases hrefused : refusesPending c.referral s.referral u.id v.now with
  | true =>
    obtain ⟨e, he, hne⟩ := hrefuses hrefused
    refine ⟨fun _ => ⟨e, ?_, hne⟩, fun hno => by simp at hno⟩
    rw [hr, he]
    rfl
  | false =>
    obtain ⟨⟨s₁, ans⟩, hs₁, hafter⟩ := happlies hrefused
    have hrest : r = consumeInvite c ⟨signIn, s₁⟩ u.id signed v := by
      rw [hr, hs₁]
      rfl
    obtain ⟨hbreaks, hends⟩ := hafter (c.visit signed v.now)
    rw [hrest, Bool.false_or]
    refine ⟨fun hb => ?_, fun hb => consumeInvite_ok (hends ?_)⟩
    · obtain ⟨hl, hc⟩ := Bool.and_eq_true_iff.1 hb
      exact consumeInvite_breaks hc (hbreaks hc hl)
    · rcases Bool.and_eq_false_iff.1 hb with hl | hc
      · exact .inr hl
      · exact .inl hc

/-- The rows of a new user, which nothing refers to. -/
theorem create_cases (hs : a.create identity = .ok s) :
    ∃ people accounts balances,
      a.atInsert.referral.people.insert? ⟨a.id, googleEmail identity.email⟩ = some people
        ∧ a.atInsert.referral.accounts.insert? ⟨a.account, some a.id, .personal⟩ = some accounts
        ∧ a.atInsert.referral.books.accounts.insert? ⟨a.account, 0, 0⟩ = some balances
        ∧ s.referral = { a.atInsert.referral with
            people, accounts,
            books := { a.atInsert.referral.books with accounts := balances } } := by
  unfold LoginAttempt.create at hs
  dsimp only at hs
  split at hs
  · rename_i _ _ referral ans _ _ hregister
    cases hs
    unfold registerPerson at hregister
    split at hregister
    · rename_i people accounts balances hpeople haccounts hbalances
      cases hregister
      exact ⟨people, accounts, balances, hpeople, haccounts, hbalances, rfl⟩
    · cases hregister
  · cases hs

theorem create_consistent (h : Consistent a.atInsert.referral) (hs : a.create identity = .ok s) :
    Consistent s.referral := by
  obtain ⟨people, accounts, balances, hpeople, _, hbalances, hreferral⟩ := create_cases hs
  rw [hreferral]
  refine
    { linked := h.linked, pended := h.pended, bonuses := h.bonuses,
      owned := ?_, joined := ?_, balances := ?_ }
  · intro ch hch owner ho
    obtain ⟨p, hp, hid⟩ := h.owned ch hch owner ho
    exact ⟨p, (Table.mem_insert hpeople).2 (.inl hp), hid⟩
  · intro m hm
    obtain ⟨p, hp, hid⟩ := h.joined m hm
    exact ⟨p, (Table.mem_insert hpeople).2 (.inl hp), hid⟩
  · intro row hrow
    rcases (Table.mem_insert hbalances).1 hrow with hrow | rfl
    · exact h.balances row hrow
    · exact Int.le_refl 0

theorem create_new (h : Sound a) (hs : a.create identity = .ok s) :
    JustCreated s.referral a.id := by
  obtain ⟨people, accounts, balances, hpeople, haccounts, hbalances, hreferral⟩ := create_cases hs
  -- a row that refers to the user would be of one there was
  have hunknown : ∀ p ∈ a.atInsert.referral.people, p.id ≠ a.id := fun p hp hid =>
    Table.apart_of_insert hpeople hp (.inl hid)
  rw [hreferral]
  refine ⟨?_, ?_, ⟨⟨a.account, some a.id, .personal⟩, ?_, ?_⟩, h.key⟩
  · intro ch hch ho
    obtain ⟨p, hp, hid⟩ := h.atInsert.owned ch hch a.id ho
    exact hunknown p hp hid
  · intro m hm hu
    obtain ⟨p, hp, hid⟩ := h.atInsert.joined m hm
    exact hunknown p hp (hid.trans hu)
  · refine Table.find?_of_mem ((Table.mem_insert haccounts).2 (.inr rfl)) (decide_eq_true rfl)
      fun x hx => .inr ?_
    have huser : x.user = some a.id := of_decide_eq_true hx
    exact ⟨by rw [huser]; rfl, huser⟩
  · refine Table.find?_of_mem ((Table.mem_insert hbalances).2 (.inr rfl)) (decide_eq_true rfl)
      fun x hx => ?_
    exact of_decide_eq_true hx

theorem attributeInvite_ok (c : LoginSettings) (signed : Option String) (h : Sound a)
    (hs : a.create identity = .ok s) :
    ∃ s', attributeInvite c s a.id signed a.view = .ok s' := by
  obtain ⟨_, _, _, _, _, _, hreferral⟩ := create_cases hs
  have hfresh : ∀ r ∈ s.referral.attributions, r.id ≠ a.view.uuid 0 := by
    rw [hreferral]
    exact h.freshAtInsert
  obtain ⟨r, hr⟩ := attributeCreated_ends (c := c.referral) (c.visit signed a.view.now)
    (create_consistent h.atInsert hs) hfresh (create_new h hs)
  unfold attributeInvite LoginDb.referred
  rw [hr]
  split
  · exact ⟨s, rfl⟩
  · exact ⟨_, rfl⟩

theorem create_error {e : Exc} (h : a.create identity = .error e) : e = .integrity := by
  unfold LoginAttempt.create at h
  dsimp only at h
  split at h <;> cases h
  rfl

theorem raised_not_integrity {α : Type} {e : Exc} (hne : e ≠ .integrity) :
    lost LoginFailure.isIntegrity (.error (.raised e) : Except LoginFailure α) = false := by
  unfold lost LoginFailure.isIntegrity
  dsimp only
  split
  · rename_i heq
    exact absurd (LoginFailure.raised.inj heq) hne
  · rfl

/-- What is not made again ends in no exception. -/
theorem signsIn_not_raised {e : Exc} (h : outrun identity a = false) :
    signsIn identity a ≠ .error (.raised e) := by
  intro hraised
  have hintegrity : e = .integrity := by
    unfold signsIn at hraised
    split at hraised
    · split at hraised <;> cases hraised
    · split at hraised
      · cases hraised
      · split at hraised <;> cases hraised
        rfl
    · split at hraised <;> cases hraised
      rfl
  unfold outrun at h
  rw [hraised, hintegrity] at h
  cases h

theorem loggedIn_breaks {r : Except Exc LoginDb} {outcome : GoogleLoginOutcome} (h : Breaks r) :
    ∃ e, loggedIn user outcome r = .error (.raised e) ∧ e ≠ .integrity := by
  obtain ⟨e, rfl, hne⟩ := h
  exact ⟨e, rfl, hne⟩

theorem loggedIn_ok {r : Except Exc LoginDb} {outcome : GoogleLoginOutcome} (h : ∃ s', r = .ok s') :
    (loggedIn user outcome r).map (·.2) = .ok (user, outcome) := by
  obtain ⟨s', rfl⟩ := h
  rfl

/-- What a user who has the address comes to. -/
theorem resolve_found {u : User} (h : Sound a) (hlook : a.look identity = .byEmail u) :
    (backfires c identity signed a = true → outrun identity a = false →
        ∃ e, resolveUser c identity signed a = .error (.raised e) ∧ e ≠ .integrity)
      ∧ (backfires c identity signed a = false ∨ outrun identity a = true →
        (resolveUser c identity signed a).map (·.2) = signsIn identity a) := by
  unfold backfires outrun resolveUser signsIn
  rw [hlook]
  dsimp only
  cases hlink : linkOrActivate u (a.byEmail.signIn.subjectOf u.id) identity with
  | error code => exact ⟨fun hb => (by cases hb), fun _ => rfl⟩
  | ok outcome =>
    dsimp only
    cases hsave : saveLink a.byEmail.signIn u identity with
    | none =>
      have hfails : saveAndActivate c a.byEmail u identity a.view = .error .integrity := by
        unfold saveAndActivate
        rw [hsave]
      rw [hfails]
      exact ⟨fun _ hno => (by cases hno), fun _ => rfl⟩
    | some signIn =>
      dsimp only
      have hno : lost LoginFailure.isIntegrity
          (.ok (u.id, outcome) : Except LoginFailure (UserId × GoogleLoginOutcome)) = false := rfl
      rw [hno]
      cases hactive : u.isActive with
      | true =>
        have hsaved : saveAndActivate c a.byEmail u identity a.view
            = .ok { a.byEmail with signIn } := by
          unfold saveAndActivate
          rw [hsave]
          exact if_pos hactive
        obtain ⟨hbreaks, hends⟩ := consumeInvite_ends (s := { a.byEmail with signIn }) c
          u.id signed a.view h.byEmail
        rw [hsaved, if_pos rfl]
        refine ⟨fun hb _ => loggedIn_breaks (hbreaks hb), ?_⟩
        rintro (hb | hb)
        · exact loggedIn_ok (hends hb)
        · cases hb
      | false =>
        obtain ⟨hbreaks, hends⟩ := activate_ends c signed h.byEmail h.freshByEmail
          hactive hsave rfl
        rw [if_neg Bool.false_ne_true]
        refine ⟨fun hb _ => loggedIn_breaks (hbreaks hb), ?_⟩
        rintro (hb | hb)
        · exact loggedIn_ok (hends hb)
        · cases hb

/-- **An attempt comes to what it comes to without invites, unless they backfire.** -/
theorem resolve_ends (c : LoginSettings) (identity : GoogleIdentity) (signed : Option String)
    (h : Sound a) :
    (backfires c identity signed a = true → outrun identity a = false →
        ∃ e, resolveUser c identity signed a = .error (.raised e) ∧ e ≠ .integrity)
      ∧ (backfires c identity signed a = false ∨ outrun identity a = true →
        (resolveUser c identity signed a).map (·.2) = signsIn identity a) := by
  cases hlook : a.look identity with
  | byEmail u => exact resolve_found h hlook
  | bySubject u =>
    obtain ⟨hbreaks, hends⟩ := consumeInvite_ends c u.id signed a.view h.bySubject
    unfold backfires outrun resolveUser signsIn
    rw [hlook]
    dsimp only
    cases u.isActive with
    | false => exact ⟨fun hb => (by cases hb), fun _ => rfl⟩
    | true =>
      rw [if_pos rfl, if_pos rfl, Bool.true_and]
      refine ⟨fun hb _ => loggedIn_breaks (hbreaks hb), ?_⟩
      rintro (hb | hb)
      · exact loggedIn_ok (hends hb)
      · cases hb
  | nobody =>
    unfold backfires outrun resolveUser signsIn
    rw [hlook]
    dsimp only
    refine ⟨fun hb => (by cases hb), fun _ => ?_⟩
    cases hcreate : a.create identity with
    | error e =>
      obtain rfl : e = .integrity := create_error hcreate
      rfl
    | ok s =>
      obtain ⟨s', hs'⟩ := attributeInvite_ok c signed h hcreate
      exact loggedIn_ok ⟨s', hs'⟩

/-- An attempt is lost with its cookie exactly where it is without invites. -/
theorem resolve_lost (h : Sound a) :
    lost LoginFailure.isIntegrity (resolveUser c identity signed a) = outrun identity a := by
  obtain ⟨hbreaks, hends⟩ := resolve_ends c identity signed h
  have hmapped : (resolveUser c identity signed a).map (·.2) = signsIn identity a →
      lost LoginFailure.isIntegrity (resolveUser c identity signed a) = outrun identity a := by
    intro hsame
    unfold outrun
    rw [← hsame]
    cases resolveUser c identity signed a <;> rfl
  cases hb : backfires c identity signed a with
  | false => exact hmapped (hends (.inl hb))
  | true =>
    cases ho : outrun identity a with
    | true =>
      rw [← ho]
      exact hmapped (hends (.inr ho))
    | false =>
      obtain ⟨e, he, hne⟩ := hbreaks hb ho
      rw [he]
      exact raised_not_integrity hne

/-- What backfires without a cookie does so with any. -/
theorem backfires_without (h : backfires c identity signed a = false) :
    backfires c identity none a = false := by
  have hnone : ∀ (s : ReferralDb) (user : UserId),
      conflicts c.referral s user (c.visit none a.view.now) a.view.now = false := by
    intro s user
    unfold conflicts LoginSettings.visit
    rw [Option.bind_none, Bool.and_false]
  unfold backfires cookieFails activationFails at h ⊢
  cases hlook : a.look identity with
  | nobody => rfl
  | bySubject u =>
    dsimp only
    rw [hnone, Bool.and_false, Bool.and_false]
  | byEmail u =>
    rw [hlook] at h
    dsimp only at h ⊢
    cases hlink : linkOrActivate u (a.byEmail.signIn.subjectOf u.id) identity with
    | error code => rfl
    | ok outcome =>
      rw [hlink] at h
      dsimp only at h ⊢
      rw [hnone, Bool.and_false, Bool.and_false, Bool.or_false]
      cases hactive : u.isActive with
      | true => rfl
      | false =>
        rw [hactive, if_neg Bool.false_ne_true] at h
        rw [if_neg Bool.false_ne_true]
        exact (Bool.or_eq_false_iff.1 h).1

end Attempts

/-! ## Two runs -/

/-- A login ends with the same user and outcome as another, or the same error, and with no other
exception. -/
structure Undisturbed (r r₀ : Except LoginFailure LoggedIn) : Prop where
  same : r.map (·.2) = r₀.map (·.2)
  answered : ∀ e, r ≠ .error (.raised e)

section Logins

variable {c : LoginSettings} {identity : GoogleIdentity} {signed : Option String}
  {attempts : Nat → LoginAttempt}

theorem attempts_lost (h : ∀ k, Sound (attempts k)) (signed : Option String) :
    ∀ a ∈ (List.range 3).map attempts,
      lost LoginFailure.isIntegrity (resolveUser c identity signed a) = outrun identity a := by
  intro a ha
  obtain ⟨k, _, rfl⟩ := List.mem_map.1 ha
  exact resolve_lost (h k)

/-- A login is what its deciding attempt is. -/
theorem login_decided {a : LoginAttempt} (h : ∀ k, Sound (attempts k))
    (ha : deciding? identity attempts = some a) :
    authenticateWithGoogle c identity signed attempts = resolveUser c identity signed a :=
  retry_decides (attempts_lost h signed) ha

theorem login_exhausted (h : ∀ k, Sound (attempts k)) (ha : deciding? identity attempts = none) :
    authenticateWithGoogle c identity signed attempts = .error (.auth .subConflict) :=
  retry_exhausted (attempts_lost h signed) ha

/--
**A cookie changes nothing, unless it backfires.**

However the three attempts of a login interleave with other transactions, the login ends as
it would without its cookie, and with no exception but its own errors, exactly when invites
do not backfire in the attempt that no other transaction is ahead of.
-/
theorem login_undisturbed_iff (h : ∀ k, Sound (attempts k)) :
    Undisturbed (authenticateWithGoogle c identity signed attempts)
        (authenticateWithGoogle c identity none attempts)
      ↔ ∀ a, deciding? identity attempts = some a → backfires c identity signed a = false := by
  cases ha : deciding? identity attempts with
  | none =>
    rw [login_exhausted h ha, login_exhausted h ha]
    refine ⟨fun _ a hnone => (by cases hnone), fun _ => ⟨rfl, fun e he => ?_⟩⟩
    cases he
  | some a =>
    have hmem := List.mem_of_find?_eq_some ha
    obtain ⟨k, _, rfl⟩ := List.mem_map.1 hmem
    have hdecides : outrun identity (attempts k) = false := by
      have hprop := List.find?_some ha
      simpa using hprop
    obtain ⟨hbreaks, hends⟩ := resolve_ends c identity signed (h k)
    rw [login_decided h ha, login_decided h ha]
    refine ⟨fun hundisturbed a hsome => ?_, fun hnot => ?_⟩
    · cases hsome
      cases hb : backfires c identity signed (attempts k) with
      | false => rfl
      | true =>
        obtain ⟨e, he, _⟩ := hbreaks hb hdecides
        exact absurd he (hundisturbed.answered e)
    · have hb := hnot _ rfl
      have hsame := hends (.inl hb)
      obtain ⟨_, hwithout⟩ := resolve_ends c identity none (h k)
      refine ⟨hsame.trans (hwithout (.inl (backfires_without hb))).symm, fun e he => ?_⟩
      rw [he] at hsame
      exact signsIn_not_raised hdecides hsame.symm

end Logins

/-! ## The founder's own invite -/

/-- The founder and the guest have signed in with Google before. -/
def bothLinked : LoginDb where
  signIn :=
    { noSignIns with
      race := { noRaces with
        accounts := { noRaces.accounts with
          users :=
            ⟨[⟨1, founder.email, true, "", none⟩, ⟨2, guest.email, true, "", none⟩], by decide⟩ } }
      links := ⟨[⟨1, "founder-sub"⟩, ⟨2, "guest-sub"⟩], by decide⟩ }
  referral := invited

/-- The cookie is of a click on the link of the founder. -/
def loginSettings : LoginSettings :=
    ⟨referralSettings, fun value _ => if value = "signed" then some guestVisit else none⟩

/-- Nothing else goes on. -/
def quietly (_ : Nat) : LoginAttempt :=
  ⟨bothLinked, bothLinked, bothLinked, 3, drawn.getD 1 alice,
    ⟨0, fun i => drawn.getD i alice, fun _ => "", 0⟩⟩

theorem sound_quietly (k : Nat) : Sound (quietly k) := by
  have hconsistent : Consistent invited := {
    linked := by decide
    pended := by decide
    joined := by decide
    balances := by decide
    bonuses := by decide
    owned := by
      intro ch hch user ho
      rcases List.mem_singleton.1 hch with rfl
      exact ⟨founder, List.mem_cons_self .., ChannelOwner.individual.inj ho⟩ }
  have hfresh : ∀ r ∈ invited.attributions, r.id ≠ drawn.getD 0 alice :=
    fun r hr => absurd hr (Table.not_mem_empty r)
  have hkey : (bonusKey 3).length ≤ 128 := by decide
  exact ⟨hconsistent, hconsistent, hconsistent, hfresh, hfresh, hkey⟩

/-- The guest logs in with the cookie as without it. -/
theorem login_undisturbed_guest :
    Undisturbed
      (authenticateWithGoogle loginSettings ⟨"guest-sub", guest.email⟩ (some "signed") quietly)
      (authenticateWithGoogle loginSettings ⟨"guest-sub", guest.email⟩ none quietly) := by
  refine (login_undisturbed_iff sound_quietly).2 fun a ha => ?_
  obtain ⟨k, _, rfl⟩ := List.mem_map.1 (List.mem_of_find?_eq_some ha)
  have hquiet : quietly k = quietly 0 := rfl
  rw [hquiet]
  decide

/-- What the founder comes to, with a cookie or without. -/
def founderLogin (signed : Option String) : Except LoginFailure (UserId × GoogleLoginOutcome) :=
  (authenticateWithGoogle loginSettings ⟨"founder-sub", founder.email⟩ signed quietly).map (·.2)

/-- **The owner of a channel cannot log in with the cookie of its link.** -/
theorem own_invite_locks_out :
    founderLogin none = .ok (1, .existing)
      ∧ founderLogin (some "signed")
        = .error
          (.raised
            (.partnerSelfReferral "The channel owner cannot be attributed to that channel")) := by
  decide

end Roamkit.Accounts.Proof
