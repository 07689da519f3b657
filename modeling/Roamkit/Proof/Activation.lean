import Roamkit.Accounts.Activation
import Roamkit.Proof.SignIn

/-!
# A user who was switched off

A user who was never active and one an administrator has switched off are the same rows. So
who was switched off is kept in a record, and the services keep those users out as long as
none of their steps lets one of them in: a step that does makes the user active, or returns
the user, whatever the record says.
-/

namespace Roamkit.Accounts.Proof

open Lib Billing Spend Spend.Proof

/-! ## What a step does to the users -/

/-- Users stay, and their activity, but for those that are opened. -/
structure UsersMove (opened : UserId → Prop) (users users' : Table User) : Prop where
  stays : ∀ u ∈ users, ∃ u' ∈ users', u'.id = u.id
  comes : ∀ u' ∈ users', (∀ u ∈ users, u.id ≠ u'.id)
    ∨ ∃ u ∈ users, u.id = u'.id ∧ (opened u.id ∨ u'.isActive = u.isActive)

namespace UsersMove

variable {opened : UserId → Prop} {users users' : Table User}

theorem refl : UsersMove opened users users :=
  ⟨fun u hu => ⟨u, hu, rfl⟩, fun u hu => .inr ⟨u, hu, rfl, .inr rfl⟩⟩

theorem of_eq (h : users' = users) : UsersMove opened users users' := by
  rw [h]
  exact refl

theorem mono {opened' : UserId → Prop} (h : UsersMove opened users users')
    (himp : ∀ id, opened id → opened' id) : UsersMove opened' users users' := by
  refine ⟨h.stays, ?_⟩
  intro u' hu'
  rcases h.comes u' hu' with hnew | ⟨u, hu, hid, hactive⟩
  · exact .inl hnew
  · exact .inr ⟨u, hu, hid, hactive.imp_left (himp _)⟩

theorem insert {user : User} (h : users.insert? user = some users') :
    UsersMove opened users users' := by
  constructor
  · intro u hu
    exact ⟨u, (Table.mem_insert h).2 (.inl hu), rfl⟩
  · intro u' hu'
    rcases (Table.mem_insert h).1 hu' with hold | rfl
    · exact .inr ⟨u', hold, rfl, .inr rfl⟩
    · exact .inl fun u hu hid => Table.apart_of_insert h hu (.inl hid)

/-- A user is written; unless it is opened, its activity stays. -/
theorem update {id : UserId} {f : User → User} {hf : Table.Keeps f} (hid : ∀ u, (f u).id = u.id)
    (hactive : opened id ∨ ∀ u, (f u).isActive = u.isActive) :
    UsersMove opened users (users.update (·.id = id) f hf) := by
  constructor
  · intro u hu
    refine ⟨rewrite _ f u, Table.mem_rewritten hu, ?_⟩
    unfold rewrite
    split
    · exact hid u
    · rfl
  · intro u' hu'
    obtain ⟨u, hu, ⟨hp, rfl⟩ | ⟨_, rfl⟩⟩ := Table.of_mem_rewritten hu'
    · have heq : u.id = id := of_decide_eq_true hp
      refine .inr ⟨u, hu, (hid u).symm, ?_⟩
      rcases hactive with hopened | hsame
      · exact .inl (heq ▸ hopened)
      · exact .inr (hsame u)
    · exact .inr ⟨u', hu, rfl, .inr rfl⟩

end UsersMove

section Requests

variable {opened : UserId → Prop} {s : AccountsDb}

theorem insertUser_move {s' : AccountsDb} {user : User} (h : s.insertUser user = .ok s') :
    UsersMove opened s.users s'.users := by
  unfold AccountsDb.insertUser at h
  split at h
  · cases h
  rename_i users hi
  cases h
  exact .insert hi

theorem signupFound_move (a : Signup) (user : User) :
    UsersMove opened s.users ((signupFound a user).atomic s).2.users := by
  rcases signupFound_cases a user with hsame | hrow
  · exact .of_eq hsame
  · rw [hrow]
    exact .update (fun _ => rfl) (.inr fun _ => rfl)

theorem registerNew_move (email : String) (invite : Bool) (id : UserId) :
    UsersMove opened s.users ((registerNew email invite id).atomic s).2.users := by
  rcases registerNew_cases email invite id with ⟨_, hsame⟩ | ⟨s₁, hi, hrow⟩
  · exact .of_eq hsame
  · rw [hrow]
    exact insertUser_move hi

theorem signupNew_move (a : Signup) :
    UsersMove opened s.users ((signupNew a).atomic s).2.users := by
  rcases signupNew_cases a with hsame | ⟨s₁, hi, hrow⟩ | ⟨user, hfound⟩
  · exact .of_eq hsame
  · rw [hrow]
    exact insertUser_move hi
  · rw [hfound]
    exact signupFound_move a user

end Requests

section Steps

variable {opened : UserId → Prop}

theorem lookUpUser_move {s s' : RaceDb} {call : RaceCall} {pc pc' : RacePc}
    (h : lookUpUser s call pc = some (s', pc')) :
    UsersMove opened s.accounts.users s'.accounts.users := by
  unfold lookUpUser at h
  split at h
  · split at h
    · cases h
      exact .refl
    · rename_i email invite _ user _
      cases h
      exact .of_eq (registerFound_users user invite)
  · split at h
    · cases h
      exact .refl
    · cases h
      exact signupFound_move _ _
  · cases h

/-- A registration or a signup makes nobody active who is there. -/
theorem racePc_move {c : SpendSettings} {s s' : RaceDb} {call : RaceCall} {pc pc' : RacePc}
    {x : RaceInput} (h : racePc c s call pc x = some (s', pc'))
    (hcall : ∀ email, call ≠ .activate email) :
    UsersMove opened s.accounts.users s'.accounts.users := by
  unfold racePc at h
  split at h
  · obtain ⟨_, _, heq⟩ := Option.map_eq_some_iff.1 h
    cases heq
    exact .refl
  · obtain ⟨_, _, heq⟩ := Option.map_eq_some_iff.1 h
    cases heq
    exact .refl
  · cases h
    exact .refl
  · cases h
    exact .refl
  · cases h
    exact registerNew_move _ _ _
  · split at h
    · cases h
      exact .refl
    · cases h
  · cases h
    exact signupNew_move _
  · split at h
    · rename_i email
      exact absurd rfl (hcall email)
    · cases h
  · exact lookUpUser_move h
  · split at h
    · cases h
      exact .refl
    · cases h
  · split at h
    · cases h
      exact .refl
    · cases h
  · cases h

end Steps

/-! ## Whom a step answers -/

/-- The ways a user comes to be answered: let in, active already, or new. -/
def Enters (c : ActivationSettings) (s : SignInDb) (t : AccessThread) (x : AccessInput)
    (user : UserId) : Prop :=
  letsIn c s t x = some user ∨ (∃ u ∈ s.users, u.id = user ∧ u.isActive = true)
    ∨ ∀ u ∈ s.users, u.id ≠ user

/-- What a step of a service does to the users, and whom it may answer. -/
structure AccessMove (c : ActivationSettings) (s : SignInDb) (t : AccessThread) (x : AccessInput)
    (s' : SignInDb) (t' : AccessThread) : Prop where
  users : UsersMove (fun id => letsIn c s t x = some id) s.users s'.users
  answers : ∀ user, t'.answer = some user → Enters c s t x user
  /-- Whom a step lets in, it answers. -/
  lets : ∀ user, letsIn c s t x = some user → t'.answer = some user

variable {identity : GoogleIdentity} {attempt : Nat} {user : UserId} {s' : SignInDb}
  {c : ActivationSettings} {t t' : AccessThread} {x : AccessInput} {r : AccessRecord}

theorem seekSubject_answer {s : SignInDb} {outcome : GoogleLoginOutcome}
    (h : seekSubject s identity attempt = .signedIn user outcome) :
    ∃ u ∈ s.users, u.id = user ∧ u.isActive = true := by
  unfold seekSubject at h
  split at h
  · cases h
  split at h
  · cases h
  rename_i u hu
  unfold signInLinked at h
  split at h
  · rename_i hactive
    cases h
    exact ⟨u, Table.mem_of_find? hu, rfl, hactive⟩
  · cases h

theorem retry_unanswered {outcome : GoogleLoginOutcome} :
    GooglePc.retry attempt ≠ .signedIn user outcome := by
  intro h
  unfold GooglePc.retry at h
  split at h <;> cases h

/-- A login by address takes a user exactly when its checks pass and the link can be saved. -/
theorem mayTake_iff {s : SignInDb} {user : User} :
    mayTake s user identity = true
      ↔ (∃ outcome, linkOrActivate user (s.subjectOf user.id) identity = .ok outcome)
      ∧ (saveLink s user identity).isSome = true := by
  unfold mayTake linkOrActivate saveLink
  rw [Bool.and_eq_true, Bool.or_eq_true, Option.isNone_iff_eq_none]
  by_cases hopen : user.isActive = true ∨ user.password = none
  · have hshut : ¬ (¬ user.isActive = true ∧ user.password.isSome = true) := by
      rcases hopen with hactive | hnone
      · exact fun h => h.1 hactive
      · rw [hnone]
        exact fun h => by cases h.2
    rw [if_neg hshut]
    cases hsubject : s.subjectOf user.id with
    | some subject =>
      by_cases hsame : subject = identity.subject
      · simp [hopen, hsame]
      · simp [hsame]
    | none =>
      have hfree : (s.links.insert? ⟨user.id, identity.subject⟩).isSome = true
          ↔ s.links.rows.all (·.subject ≠ identity.subject) = true := by
        rw [Option.isSome_iff_exists, Table.insert_iff, List.all_eq_true]
        have hnone : ∀ l ∈ s.links, l.user ≠ user.id := by
          intro l hl
          have hfind := Option.map_eq_none_iff.1 hsubject
          simpa using Table.not_of_find? hfind hl
        constructor
        · exact fun h l hl => decide_eq_true fun heq => h l hl (.inr heq)
        · rintro h l hl (huser | heq)
          · exact hnone l hl huser
          · exact of_decide_eq_true (h l hl) heq
      simpa [hopen] using hfree.symm
  · have hshut : ¬ user.isActive = true ∧ user.password.isSome = true := by
      rw [not_or] at hopen
      exact ⟨hopen.1, Option.isSome_iff_ne_none.2 hopen.2⟩
    rw [if_pos hshut]
    constructor
    · exact fun h => absurd h.1 hopen
    · rintro ⟨⟨outcome, h⟩, _⟩
      split at h <;> cases h

theorem createUser_answer {s : SignInDb} {id : UserId} {pc' : GooglePc}
    (h : createUser s identity attempt id = (s', pc')) :
    UsersMove (fun _ => False) s.users s'.users
      ∧ ∀ user outcome, pc' = .signedIn user outcome → ∀ u ∈ s.users, u.id ≠ user := by
  unfold createUser at h
  split at h
  · rename_i accounts links hi _
    have hs' := (Prod.mk.inj h).1
    have hpc := (Prod.mk.inj h).2
    constructor
    · have hmove : UsersMove (fun _ => False) s.users accounts.users := insertUser_move hi
      have hrows : s'.users = accounts.users := by
        rw [← hs']
        exact ensureBillingAccount_users id
      rw [hrows]
      exact hmove
    · intro user outcome hc u hu hid
      rw [← hpc] at hc
      cases hc
      unfold AccountsDb.insertUser at hi
      split at hi
      · cases hi
      · rename_i users hins
        exact Table.apart_of_insert hins hu (.inl hid)
  · have hs' := (Prod.mk.inj h).1
    have hpc := (Prod.mk.inj h).2
    rw [← hs', ← hpc]
    exact ⟨.refl, fun user outcome hc => absurd hc retry_unanswered⟩

/-- A login by address that takes no user writes nothing, and one that does saves the link. -/
theorem seekEmail_cases {s : SignInDb} {pc' : GooglePc}
    (h : seekEmail s identity attempt = (s', pc')) :
    (letsIn c s (.signIn (.google identity (.missedSubject attempt))) (.signIn .lookUp) = none
        ∧ s' = s ∧ ∀ user outcome, pc' ≠ .signedIn user outcome)
      ∨ ∃ user outcome,
        letsIn c s (.signIn (.google identity (.missedSubject attempt))) (.signIn .lookUp)
            = some user.id
          ∧ saveLink s user identity = some s' ∧ pc' = .signedIn user.id outcome := by
  unfold seekEmail at h
  cases huser : s.race.accounts.userOf (googleEmail identity.email) with
  | none =>
    rw [huser] at h
    cases h
    exact .inl ⟨by simp only [letsIn, huser], rfl, fun _ _ hc => by cases hc⟩
  | some user =>
    rw [huser] at h
    change signInFound s user identity attempt = (s', pc') at h
    unfold signInFound at h
    cases hlink : linkOrActivate user (s.subjectOf user.id) identity with
    | error code =>
      have hno : ¬ mayTake s user identity = true := by
        rw [mayTake_iff, hlink]
        exact fun h => by cases h.1.choose_spec
      rw [hlink] at h
      cases h
      exact .inl ⟨by simp only [letsIn, huser, if_neg hno], rfl, fun _ _ hc => by cases hc⟩
    | ok outcome =>
      rw [hlink] at h
      cases hsave : saveLink s user identity with
      | none =>
        have hno : ¬ mayTake s user identity = true := by
          rw [mayTake_iff, hsave]
          exact fun h => by cases h.2
        rw [hsave] at h
        cases h
        exact .inl ⟨by simp only [letsIn, huser, if_neg hno], rfl, fun _ _ => retry_unanswered⟩
      | some s₁ =>
        have hyes : mayTake s user identity = true :=
          mayTake_iff.2 ⟨⟨outcome, hlink⟩, by rw [hsave]; rfl⟩
        rw [hsave] at h
        cases h
        exact .inr ⟨user, outcome, by simp only [letsIn, huser, if_pos hyes], hsave, rfl⟩

theorem googlePc_move {s : SignInDb} {pc pc' : GooglePc} {x : RaceInput}
    (h : googlePc s identity pc x = some (s', pc')) :
    AccessMove c s (.signIn (.google identity pc)) (.signIn x) s'
      (.signIn (.google identity pc')) := by
  have hanswer : ∀ user, (AccessThread.signIn (.google identity pc')).answer = some user →
      ∃ outcome, pc' = .signedIn user outcome := by
    intro user hc
    cases pc' with
    | signedIn user' outcome => exact ⟨outcome, by rw [Option.some.inj hc]⟩
    | _ => cases hc
  -- a step that writes nothing, and answers no one who is not active
  have hquiet : s' = s → (∀ user outcome, pc' = .signedIn user outcome
    → ∃ u ∈ s.users, u.id = user ∧ u.isActive = true) →
      (∀ user, letsIn c s (.signIn (.google identity pc)) (.signIn x) ≠ some user) →
      AccessMove c s (.signIn (.google identity pc)) (.signIn x) s'
        (.signIn (.google identity pc')) := by
    intro hs hactive hnone
    refine ⟨.of_eq (by rw [hs]), ?_, fun user hc => absurd hc (hnone user)⟩
    intro user hc
    obtain ⟨outcome, hpc⟩ := hanswer user hc
    exact .inr (.inl (hactive user outcome hpc))
  unfold googlePc at h
  split at h
  · cases h
    exact hquiet rfl (fun user outcome hc => seekSubject_answer hc) fun user hc => nomatch hc
  · rename_i attempt
    rcases seekEmail_cases (c := c) (Option.some.inj h) with
      ⟨hnone, hs, hquit⟩ | ⟨user, outcome, hlets, hsave, rfl⟩
    · refine hquiet hs (fun user outcome hc => absurd hc (hquit user outcome)) fun user hc => ?_
      rw [hnone] at hc
      cases hc
    · refine ⟨?_, ?_, ?_⟩
      · rw [saveLink_rows hsave]
        exact .update (fun _ => rfl) (.inl hlets)
      · intro user' hc
        obtain rfl : user.id = user' := Option.some.inj hc
        exact .inl hlets
      · intro user' hc
        rw [hlets] at hc
        rw [← Option.some.inj hc]
        rfl
  · have hstep := Option.some.inj h
    obtain ⟨hmove, hnew⟩ := createUser_answer hstep
    refine ⟨hmove.mono fun _ hf => hf.elim, ?_, fun user hc => nomatch hc⟩
    intro user hc
    obtain ⟨outcome, hpc⟩ := hanswer user hc
    exact .inr (.inr (hnew user outcome hpc))
  · split at h
    · cases h
      exact hquiet rfl (fun user outcome hc => nomatch hc) fun user hc => by cases pc <;> cases hc
    · cases h
  · split at h
    · cases h
      exact hquiet rfl (fun user outcome hc => nomatch hc) fun user hc => by cases pc <;> cases hc
    · cases h
  · cases h

/-- A call that is no login, and neither lets in nor answers anyone. -/
theorem AccessMove.quiet {s : SignInDb} (husers : UsersMove (fun _ => False) s.users s'.users)
    (hanswer : t'.answer = none) (hlets : letsIn c s t x = none) : AccessMove c s t x s' t' := by
  refine ⟨husers.mono fun _ hf => hf.elim, ?_, ?_⟩
  · intro user hc
    rw [hanswer] at hc
    cases hc
  · intro user hc
    rw [hlets] at hc
    cases hc

theorem saveUser_move {opened : UserId → Prop} {s : SignInDb} {id : UserId} (f : User → User)
    (hf : Table.Keeps f) (hid : ∀ u, (f u).id = u.id)
    (hactive : opened id ∨ ∀ u, (f u).isActive = u.isActive) :
    UsersMove opened s.users (s.withAccounts (s.race.accounts.saveUser id f hf)).users :=
  @UsersMove.update opened s.users id f hf hid hactive

theorem resendSignupCode_users (s : AccountsDb) (email : String) (granted : Bool)
    (code codeHash : String) :
    (resendSignupCode s email granted code codeHash).users = s.users := by
  unfold resendSignupCode
  split
  · rfl
  · split
    · split <;> rfl
    · split <;> rfl

theorem requestPasswordReset_users (s : AccountsDb) (email : String) :
    (requestPasswordReset s email).users = s.users := by
  unfold requestPasswordReset
  split
  · rfl
  · split <;> rfl

/-- A call of the accounts services but for the administrator's. -/
theorem accessPc_move {s : SignInDb} {accounts : AccountsDb} {call : AccessCall}
    {pc pc' : AccessPc} (h : accessPc c s.race.accounts call pc x = some (accounts, pc'))
    (hcall : ∀ user active, call ≠ .setActive user active) :
    AccessMove c s (.own call pc) x (s.withAccounts accounts) (.own call pc') := by
  unfold accessPc at h
  split at h
  · cases h
    exact .quiet .refl rfl (by cases call <;> rfl)
  · cases h
    exact .quiet .refl rfl (by cases call <;> rfl)
  · unfold beginAccess at h
    split at h
    · split at h
      · cases h
        exact .quiet .refl rfl rfl
      · cases h
        exact .quiet .refl rfl rfl
    · split at h
      · cases h
        exact .quiet .refl rfl rfl
      · cases h
        exact .quiet .refl rfl rfl
    · cases h
      exact .quiet (.of_eq (resendSignupCode_users _ _ _ _ _)) rfl rfl
    · rename_i email code _
      unfold confirmSignup at h
      cases hcheck : checkSignupCode c s.race.accounts email code with
      | error e =>
        rw [hcheck] at h
        cases h
        refine .quiet .refl rfl ?_
        simp only [letsIn, hcheck]
      | ok checked =>
        obtain ⟨user, right⟩ := checked
        rw [hcheck] at h
        cases right with
        | false =>
          cases h
          refine .quiet .refl rfl ?_
          simp only [letsIn, hcheck]
        | true =>
          have hlets : letsIn c s (.own (.confirmSignup email code) .asked) .go = some user.id := by
            simp only [letsIn, hcheck]
          cases h
          refine ⟨saveUser_move (withActive true) (fun _ _ h => h) (fun _ => rfl) (.inl hlets), ?_,
            ?_⟩
          · intro user' hc
            rw [← Option.some.inj hc]
            exact .inl hlets
          · intro user' hc
            rw [hlets] at hc
            exact hc
    · cases h
      exact .quiet (.of_eq (requestPasswordReset_users _ _)) rfl rfl
    · rename_i user active _
      exact absurd rfl (hcall user active)
    · cases h
      exact .quiet .refl rfl rfl
    · cases h
  · rename_i copy _
    unfold saveAccess at h
    split at h
    · cases h
      refine ⟨saveUser_move (fun u => withActive true (withPassword _ u)) (fun _ _ h => h)
        (fun _ => rfl) (.inl rfl), ?_, fun user hc => hc⟩
      intro user hc
      exact .inl hc
    · cases h
      exact .quiet .refl rfl rfl
    · cases h
      refine ⟨saveUser_move (withPassword _) (fun _ _ h => h) (fun _ => rfl) (.inr fun _ => rfl),
        ?_, fun user hc => hc⟩
      intro user hc
      exact .inl hc
    · cases h
  · cases h

/-- The requests among the calls are registrations and signups. -/
def AccessLocal : AccessThread → Prop
  | .signIn (.request t) => ∀ email, t.call ≠ .activate email
  | _ => True

/-- **What a step of a service does.** -/
theorem accessStep_move {s : SignInDb} (hlocal : AccessLocal t)
    (h : accessStep c s t x = some (s', t'))
    (hadmin : ∀ user active pc, t ≠ .own (.setActive user active) pc) :
    AccessMove c s t x s' t' := by
  unfold accessStep at h
  split at h
  · rename_i u x
    obtain ⟨⟨s₁, u'⟩, hstep, heq⟩ := Option.map_eq_some_iff.1 h
    cases heq
    cases u with
    | request u =>
      obtain ⟨⟨race, v⟩, hrace, heq⟩ := Option.map_eq_some_iff.1 hstep
      cases heq
      obtain ⟨⟨race', pc'⟩, hpc, heq⟩ := Option.map_eq_some_iff.1 hrace
      cases heq
      exact .quiet (racePc_move hpc hlocal) rfl rfl
    | google identity pc =>
      obtain ⟨⟨s₂, pc'⟩, hpc, heq⟩ := Option.map_eq_some_iff.1 hstep
      cases heq
      exact googlePc_move hpc
  · rename_i call pc
    obtain ⟨⟨accounts, pc'⟩, hpc, heq⟩ := Option.map_eq_some_iff.1 h
    cases heq
    exact accessPc_move hpc fun user active hc => hadmin user active pc (by rw [hc])
  · cases h

/-! ## The invariant -/

/-- Who was switched off is there and is not active, and was never answered. -/
structure AccessInv (s : SignInDb) (r : AccessRecord) : Prop where
  known : ∀ id ∈ r.disabled, ∃ u ∈ s.users, u.id = id
  out : ∀ u ∈ s.users, u.id ∈ r.disabled → u.isActive = false
  answers : ∀ a ∈ r.answers, a.2 = false

/-- Nothing was done yet; the database may be any. -/
def Unrecorded (s : SignInDb × AccessRecord) : Prop := s.2 = ⟨[], []⟩

/-- The step lets no one in who was switched off. -/
def TurnsAway (c : ActivationSettings) (s : SignInDb × AccessRecord) (t : AccessThread)
    (x : AccessInput) : Prop :=
  ∀ user, letsIn c s.1 t x = some user → user ∉ s.2.disabled

theorem disabledAfter_other {s : SignInDb} {disabled : List UserId}
    (h : ∀ user active pc, t ≠ .own (.setActive user active) pc) :
    disabledAfter s t x disabled = disabled := by
  unfold disabledAfter
  split
  · rename_i user
    exact absurd rfl (h user true .asked)
  · rename_i user
    exact absurd rfl (h user false .asked)
  · rfl

theorem disabled_note (s : SignInDb) (t : AccessThread) (x : AccessInput) (s' : SignInDb)
    (t' : AccessThread) (r : AccessRecord) :
    (noteAccess s t x s' t' r).disabled = disabledAfter s t x r.disabled := by
  unfold noteAccess
  dsimp only
  split <;> rfl

/-- A service keeps those out who were switched off. -/
theorem AccessInv.move {s : SignInDb} (h : AccessInv s r) (hm : AccessMove c s t x s' t')
    (hok : TurnsAway c (s, r) t x)
    (hadmin : ∀ user active pc, t ≠ .own (.setActive user active) pc) :
    AccessInv s' (noteAccess s t x s' t' r) := by
  have hdisabled : (noteAccess s t x s' t' r).disabled = r.disabled :=
    (disabled_note s t x s' t' r).trans (disabledAfter_other hadmin)
  refine ⟨?_, ?_, ?_⟩
  · rw [hdisabled]
    intro id hid
    obtain ⟨u, hu, rfl⟩ := h.known id hid
    exact hm.users.stays u hu
  · rw [hdisabled]
    intro u' hu' hid
    rcases hm.users.comes u' hu' with hnew | ⟨u, hu, heq, hopened | hsame⟩
    · obtain ⟨u, hu, heq⟩ := h.known u'.id hid
      exact absurd heq (hnew u hu)
    · exact absurd (heq ▸ hid) (hok u.id hopened)
    · rw [hsame]
      exact h.out u hu (heq ▸ hid)
  · intro a ha
    unfold noteAccess at ha
    rw [disabledAfter_other hadmin] at ha
    dsimp only at ha
    split at ha
    · exact h.answers a ha
    · rename_i user huser
      rcases List.mem_cons.1 ha with rfl | hold
      · have hout : user ∉ r.disabled := by
          intro hin
          rcases hm.answers user huser with hlets | ⟨u, hu, rfl, hactive⟩ | hnew
          · exact hok user hlets hin
          · rw [h.out u hu hin] at hactive
            cases hactive
          · obtain ⟨u, hu, heq⟩ := h.known user hin
            exact hnew u hu heq
        simpa using hout
      · exact h.answers a hold

/-- An administrator's step. -/
theorem AccessInv.setActive {s : SignInDb} (h : AccessInv s r) (user : UserId) (active : Bool) :
    AccessInv (s.withAccounts (s.race.accounts.saveUser user (withActive active) (fun _ _ h => h)))
      (noteAccess s (.own (.setActive user active) .asked) .go
        (s.withAccounts (s.race.accounts.saveUser user (withActive active) (fun _ _ h => h)))
        (.own (.setActive user active) .done) r) := by
  have hmove : UsersMove (fun id => id = user) s.users
      (s.withAccounts (s.race.accounts.saveUser user (withActive active) (fun _ _ h => h))).users :=
    saveUser_move (withActive active) (fun _ _ h => h) (fun _ => rfl) (.inl rfl)
  have hsub : ∀ id ∈ disabledAfter s (.own (.setActive user active) .asked) .go r.disabled,
      (id ∈ r.disabled ∧ (active = true → id ≠ user))
        ∨ (id = user ∧ active = false ∧ ∃ u ∈ s.users, u.id = user) := by
    intro id hid
    unfold disabledAfter at hid
    cases active with
    | true =>
      dsimp only at hid
      obtain ⟨hold, hne⟩ := List.mem_filter.1 hid
      exact .inl ⟨hold, fun _ => of_decide_eq_true hne⟩
    | false =>
      dsimp only at hid
      split at hid
      · rename_i hthere
        rcases List.mem_cons.1 hid with rfl | hold
        · obtain ⟨u, hu⟩ := Option.isSome_iff_exists.1 hthere
          have hp := Table.prop_of_find? hu
          simp only [Bool.and_eq_true, decide_eq_true_eq] at hp
          exact .inr ⟨rfl, rfl, u, Table.mem_of_find? hu, hp.1⟩
        · exact .inl ⟨hold, fun hc => nomatch hc⟩
      · exact .inl ⟨hid, fun hc => nomatch hc⟩
  refine ⟨?_, ?_, ?_⟩
  · rw [disabled_note]
    intro id hid
    rcases hsub id hid with ⟨hold, _⟩ | ⟨rfl, _, u, hu, rfl⟩
    · obtain ⟨u, hu, rfl⟩ := h.known id hold
      exact hmove.stays u hu
    · exact hmove.stays u hu
  · rw [disabled_note]
    intro u' hu' hid
    obtain ⟨u, hu, ⟨hp, rfl⟩ | ⟨hne, rfl⟩⟩ := Table.of_mem_rewritten hu'
    · rcases hsub u.id hid with ⟨_, hon⟩ | ⟨_, hoff, _⟩
      · cases active with
        | true => exact absurd (of_decide_eq_true hp) (hon rfl)
        | false => rfl
      · exact hoff
    · rcases hsub u'.id hid with ⟨hold, _⟩ | ⟨rfl, _⟩
      · exact h.out u' hu hold
      · exact absurd (decide_eq_true rfl) hne
  · exact h.answers

theorem accessStep_setActive {s : SignInDb} {active : Bool} {pc : AccessPc}
    (h : accessStep c s (.own (.setActive user active) pc) x = some (s', t')) :
    (pc = .asked ∧ x = .go ∧ s'
      = s.withAccounts (s.race.accounts.saveUser user (withActive active) (fun _ _ h => h))
        ∧ t' = .own (.setActive user active) .done)
      ∨ (s' = s ∧ t' = .own (.setActive user active) (.raised .operational) ∧ x = .fail) := by
  obtain ⟨⟨accounts, pc'⟩, hpc, heq⟩ := Option.map_eq_some_iff.1 h
  cases heq
  unfold accessPc at hpc
  split at hpc
  · cases hpc
    exact .inr ⟨rfl, rfl, rfl⟩
  · cases hpc
    exact .inr ⟨rfl, rfl, rfl⟩
  · cases x with
    | go =>
      cases hpc
      exact .inl ⟨rfl, rfl, rfl, rfl⟩
    | signIn x => cases hpc
    | hash password => cases hpc
    | claim granted code codeHash => cases hpc
    | refuse e => cases hpc
    | fail => cases hpc
  · cases x <;> cases hpc
  · cases hpc

/-- **Every step that turns away those who were switched off keeps the invariant.** -/
theorem access_keeps {s : SignInDb} (h : AccessInv s r) (hlocal : AccessLocal t)
    (hok : TurnsAway c (s, r) t x) (hstep : accessStep c s t x = some (s', t')) :
    AccessInv s' (noteAccess s t x s' t' r) := by
  by_cases hadmin : ∃ user active pc, t = .own (.setActive user active) pc
  · obtain ⟨user, active, pc, rfl⟩ := hadmin
    rcases accessStep_setActive hstep with ⟨rfl, rfl, rfl, rfl⟩ | ⟨rfl, rfl, rfl⟩
    · exact h.setActive user active
    · have hsame : disabledAfter s' (.own (.setActive user active) pc) .fail r.disabled
          = r.disabled := by
        unfold disabledAfter
        split
        · rename_i hc
          cases hc
        · rename_i hc
          cases hc
        · rfl
      unfold noteAccess
      rw [hsame]
      exact h
  · have hservice : ∀ user active pc, t ≠ .own (.setActive user active) pc :=
      fun user active pc hc => hadmin ⟨user, active, pc, hc⟩
    exact h.move (accessStep_move hlocal hstep hservice) hok hservice

theorem accessStep_local {s : SignInDb} (hlocal : AccessLocal t)
    (h : accessStep c s t x = some (s', t')) : AccessLocal t' := by
  unfold accessStep at h
  split at h
  · rename_i u x
    obtain ⟨⟨s₁, u'⟩, hstep, heq⟩ := Option.map_eq_some_iff.1 h
    cases heq
    cases u with
    | request u =>
      obtain ⟨⟨race, v⟩, hrace, heq⟩ := Option.map_eq_some_iff.1 hstep
      cases heq
      obtain ⟨⟨race', pc'⟩, _, heq⟩ := Option.map_eq_some_iff.1 hrace
      cases heq
      exact hlocal
    | google identity pc =>
      obtain ⟨⟨s₂, pc'⟩, _, heq⟩ := Option.map_eq_some_iff.1 hstep
      cases heq
      trivial
  · obtain ⟨⟨accounts, pc'⟩, _, heq⟩ := Option.map_eq_some_iff.1 h
    cases heq
    trivial
  · cases h

theorem access_inv (c : ActivationSettings) :
    Invariant ((accessProgram c).recorded noteAccess) Unrecorded (TurnsAway c)
      (fun s => AccessInv s.1 s.2) (fun _ t => AccessLocal t) (fun _ _ => True) where
  init := by
    rintro ⟨s, r⟩ rfl
    exact ⟨fun id hid => (nomatch hid), fun u _ hid => (nomatch hid), fun a ha => nomatch ha⟩
  start := by
    intro s k _
    cases k with
    | register email invite => exact fun email hc => nomatch hc
    | startSignup a => exact fun email hc => nomatch hc
    | google identity => trivial
    | own call => trivial
  apart_start := fun _ _ => trivial
  symm := fun _ => trivial
  step := by
    rintro ⟨s, r⟩ t x ⟨s', r'⟩ t' hinv hlocal hok hstep
    obtain ⟨hinner, hnote⟩ := Program.recorded_step.1 hstep
    dsimp only at hnote
    rw [hnote]
    exact ⟨access_keeps hinv hlocal hok hinner, accessStep_local hlocal hinner⟩
  frame := fun _ _ _ _ hu _ => ⟨hu, trivial⟩

/-- A step that lets one in who was switched off answers that user. -/
theorem answered_disabled {s : SignInDb} (hlocal : AccessLocal t)
    (hstep : accessStep c s t x = some (s', t')) (h : ¬ TurnsAway c (s, r) t x) :
    ∃ user, (user, true) ∈ (noteAccess s t x s' t' r).answers := by
  unfold TurnsAway at h
  push Not at h
  obtain ⟨user, hlets, hin⟩ := h
  have hservice : ∀ user active pc, t ≠ .own (.setActive user active) pc := by
    rintro user active pc rfl
    cases pc <;> cases hlets
  have hanswer := (accessStep_move hlocal hstep hservice).lets user hlets
  refine ⟨user, ?_⟩
  unfold noteAccess
  rw [disabledAfter_other hservice, hanswer]
  have hcontains : r.disabled.contains user = true := List.contains_iff_mem.2 hin
  dsimp only
  rw [hcontains]
  exact List.mem_cons_self ..

/--
**Who was switched off stays inactive and is never answered, in every run whose steps let
no such user in; and a step that lets one in answers that user.**
-/
theorem disabled_stays_out {c : ActivationSettings} :
    (∀ g, ((accessProgram c).recorded noteAccess).ReachWhere Unrecorded (TurnsAway c) g →
        (∀ u ∈ g.store.1.users, u.id ∈ g.store.2.disabled → u.isActive = false)
          ∧ ∀ a ∈ g.store.2.answers, a.2 = false)
      ∧ ∀ s r t x s' t', AccessLocal t → accessStep c s t x = some (s', t')
        → ¬ TurnsAway c (s, r) t x →
        ∃ user, (user, true) ∈ (noteAccess s t x s' t' r).answers := by
  constructor
  · intro g hg
    have hinv := ((access_inv c).reach hg).store
    exact ⟨hinv.out, hinv.answers⟩
  · intro s r t x s' t' hlocal hstep hnot
    exact answered_disabled hlocal hstep hnot

/-! ## Bob is switched off -/

theorem unrecorded_noSignIns : Unrecorded (noSignIns, ⟨[], []⟩) := rfl

/-- Links to user 1 whose token goes with the password of the user. -/
def linkSettings : ActivationSettings where
  spend := spendSettings
  decodeUid uid := if uid = "MQ" then some 1 else none
  validatePassword _ := []
  checkActivationToken user _ token := token = "cqgh1s-" ++ user.password.getD "!"
  checkResetToken user _ token := token = "cqgh1t-" ++ user.password.getD "!"
  checkPassword code codeHash := codeHash = "hash:" ++ code

/-- The link of an activation mail, and the password that is entered. -/
def linkTo (token : String) : LinkArgs := ⟨"MQ", token, "Correct-horse-1", "Correct-horse-1"⟩

/-- Bob registers, sets a password by the link of his mail, and is switched off. -/
def switchedOff : List (Act AccessRequest AccessInput) :=
  [.call 0 (.register "bob@example.org" false), .tick 0 (.signIn .lookUp),
    .tick 0 (.signIn (.user 1)),
    .call 1 (.own (.activateUser (linkTo "cqgh1s-!"))), .tick 1 .go, .tick 1 (.hash "pbkdf2:1"),
    .call 2 (.own (.setActive 1 false)), .tick 2 .go]

/-- **Bob registers once more, and the link he is mailed makes him active again.** -/
theorem switched_off_returns : ∃ g, ((accessProgram linkSettings).recorded noteAccess).ReachWhere
    Unrecorded (fun _ _ _ => True) g
      ∧ (∃ u ∈ g.store.1.users, u.id ∈ g.store.2.disabled ∧ u.isActive = true)
      ∧ (1, true) ∈ g.store.2.answers := by
  have hrun : ∃ g, ((accessProgram linkSettings).recorded noteAccess).ReachWhere
      Unrecorded (fun _ _ _ => True) g
      ∧ decide ((∃ u ∈ g.store.1.users.rows, u.id ∈ g.store.2.disabled ∧ u.isActive = true)
        ∧ (1, true) ∈ g.store.2.answers) = true :=
    Program.reachWhere_check (P := (accessProgram linkSettings).recorded noteAccess)
      (fun _ _ _ => true) (fun _ _ _ _ => trivial) unrecorded_noSignIns
      (switchedOff ++ [.call 3 (.register "bob@example.org" false), .tick 3 (.signIn .lookUp),
        .call 4 (.own (.activateUser (linkTo "cqgh1s-pbkdf2:1"))), .tick 4 .go,
          .tick 4 (.hash "pbkdf2:2")])
      (fun g => (∃ u ∈ g.store.1.users.rows, u.id ∈ g.store.2.disabled ∧ u.isActive = true)
        ∧ (1, true) ∈ g.store.2.answers) (by decide)
  obtain ⟨g, hg, hends⟩ := hrun
  obtain ⟨⟨u, hu, hin, hactive⟩, hanswer⟩ := of_decide_eq_true hends
  exact ⟨g, hg, ⟨u, hu, hin, hactive⟩, hanswer⟩

/-- The check of `TurnsAway`. -/
def turnsAway? (c : ActivationSettings) (s : SignInDb × AccessRecord) (t : AccessThread)
    (x : AccessInput) : Bool :=
  (letsIn c s.1 t x).all fun user => !s.2.disabled.contains user

theorem turnsAway_of_check {s : SignInDb × AccessRecord} (h : turnsAway? c s t x = true) :
    TurnsAway c s t x := by
  intro user hlets hin
  unfold turnsAway? at h
  rw [hlets] at h
  have hcontains : s.2.disabled.contains user = true := List.contains_iff_mem.2 hin
  rw [Option.all_some, hcontains] at h
  cases h

/-- Google turns Bob away, who has a password, and he cannot reset it. -/
theorem disabled_stays_out_google : ∃ g : Config (SignInDb × AccessRecord) AccessThread,
    g.store.2.disabled = [1] ∧ g.store.2.answers.length = 1
      ∧ (∀ u ∈ g.store.1.users, u.id ∈ g.store.2.disabled → u.isActive = false)
      ∧ ∀ a ∈ g.store.2.answers, a.2 = false := by
  have hrun : ∃ g, ((accessProgram linkSettings).recorded noteAccess).ReachWhere
      Unrecorded (TurnsAway linkSettings) g
      ∧ decide (g.store.2.disabled = [1] ∧ g.store.2.answers.length = 1) = true :=
    Program.reachWhere_check (P := (accessProgram linkSettings).recorded noteAccess)
      (turnsAway? linkSettings) (fun _ _ _ => turnsAway_of_check) unrecorded_noSignIns
      (switchedOff ++ [.call 3 (.google ⟨"g-1", "bob@example.org"⟩), .tick 3 (.signIn .lookUp),
        .tick 3 (.signIn .lookUp), .call 4 (.own (.requestPasswordReset "bob@example.org")),
          .tick 4 .go,
        .call 5 (.own (.confirmPasswordReset (linkTo "cqgh1t-pbkdf2:1"))), .tick 5 .go])
      (fun g => g.store.2.disabled = [1] ∧ g.store.2.answers.length = 1) (by decide)
  obtain ⟨g, hg, hends⟩ := hrun
  obtain ⟨hdisabled, hlength⟩ := of_decide_eq_true hends
  exact ⟨g, hdisabled, hlength, disabled_stays_out.1 g hg⟩

end Roamkit.Accounts.Proof
