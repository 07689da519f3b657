import Roamkit.Proof.SignupCodes

/-!
# Whose password an account gets

A `start_signup` that is granted a mail saves its password for a pending user, whoever calls
it, and a call inside the gap changes nothing. So the password a confirmation makes active is
that of the last call that was granted a mail, and this need not be the last call of the
party who reads the mails.
-/

namespace Roamkit.Accounts.Proof

open Lib Billing

/-! ## What was saved -/

/-- What is done about the password of a user. -/
inductive PasswordEvent where
  | started (by_ : Party) (password : String)
  | activated (by_ : Party)
deriving DecidableEq

/-- An event of a run, if it is one about the password of a user. -/
def SignupEvent.password? (user : UserId) : SignupEvent → Option PasswordEvent
  | .started by_ u password => if u = user then some (.started by_ password) else none
  | .activated by_ u _ _ => if u = user then some (.activated by_) else none
  | _ => none

/-- What was done about the password of a user, the newest first. -/
def passwordHistory (user : UserId) (log : List SignupEvent) : List PasswordEvent :=
  log.filterMap (SignupEvent.password? user)

/-- The call whose password was saved last. -/
def lastStart : List PasswordEvent → Option (Party × String)
  | [] => none
  | .started by_ password :: _ => some (by_, password)
  | .activated _ :: history => lastStart history

section History

variable {user : UserId} {log : List SignupEvent}

theorem passwordHistory_none {es : List SignupEvent}
    (h : ∀ e ∈ es, SignupEvent.password? user e = none) :
    passwordHistory user (es ++ log) = passwordHistory user log := by
  rw [passwordHistory, List.filterMap_append, List.filterMap_eq_nil_iff.2 h]
  rfl

theorem passwordHistory_skip {e : SignupEvent} (he : ∀ u, SignupEvent.password? u e = none) :
    passwordHistory user (e :: log) = passwordHistory user log := List.filterMap_cons_none (he user)

theorem password_silent {e : SignupEvent} (h : silent e = true) :
    SignupEvent.password? user e = none := by
  cases e with
  | granted _ _ _ => rfl
  | mailed _ _ => rfl
  | called _ _ _ => rfl
  | _ => cases h

/-- An event about the password of one user. -/
theorem passwordHistory_cons {e : SignupEvent} (k : PasswordEvent) (owner : UserId)
    (he : ∀ u, SignupEvent.password? u e = if owner = u then some k else none) (user : UserId) :
    passwordHistory user (e :: log)
      = if owner = user then k :: passwordHistory user log else passwordHistory user log := by
  unfold passwordHistory
  rw [List.filterMap_cons, he user]
  by_cases hown : owner = user
  · rw [if_pos hown, if_pos hown]
  · rw [if_neg hown, if_neg hown]

end History

/-! ## The invariant -/

/-- What the row of a user has to do with the calls that saved it. -/
structure PasswordInv (c : SignupSettings) (s : SignupDb) (user : UserId) : Prop where
  /-- The row has the password that was saved last. -/
  password : ∀ u ∈ s.accounts.users, u.id = user → ∀ by_ password,
    lastStart (passwordHistory user s.log) = some (by_, password)
      → ∃ salts, u.password = some (c.hash salts password)
  /-- Who has a code has signed up. -/
  started : s.accounts.codes user ≠ none → lastStart (passwordHistory user s.log) ≠ none
  /-- Nothing follows an activation. -/
  settled : ∀ newer by_ older, passwordHistory user s.log = newer ++ .activated by_ :: older →
    newer = [] ∧ lastStart older ≠ none ∧ (∃ u ∈ s.accounts.users, u.id = user)
      ∧ ∀ u ∈ s.accounts.users, u.id = user → u.isActive = true

section Steps

variable {c : SignupSettings} {s s' : SignupDb} {call : SignupCall} {user : UserId}

/-- A step that is not about the user. -/
theorem PasswordInv.keep (h : PasswordInv c s user)
    (hhistory : passwordHistory user s'.log = passwordHistory user s.log)
    (hrows : ∀ u, u.id = user → (u ∈ s'.accounts.users ↔ u ∈ s.accounts.users))
    (hcodes : s'.accounts.codes user ≠ none → s.accounts.codes user ≠ none) :
    PasswordInv c s' user where
  password u hu hid by_ password hlast := by
    rw [hhistory] at hlast
    exact h.password u ((hrows u hid).1 hu) hid by_ password hlast
  started hcode := by
    rw [hhistory]
    exact h.started (hcodes hcode)
  settled newer by_ older heq := by
    rw [hhistory] at heq
    obtain ⟨hnewer, hlast, ⟨u, hu, hid⟩, hactive⟩ := h.settled newer by_ older heq
    exact ⟨hnewer, hlast, ⟨u, (hrows u hid).2 hu, hid⟩,
      fun v hv hv' => hactive v ((hrows v hv').1 hv) hv'⟩

/-- The row of a user, once another's has changed. -/
theorem PasswordInv.step (h : ∀ user, PasswordInv c s user) (hmove : StoreMove c s call s')
    (user : UserId) :
    PasswordInv c s' user := by
  cases hmove with
  | quiet es husers hcodes hlog hes =>
    refine (h user).keep ?_ (fun u _ => by rw [husers]) (fun hcode => hcodes ▸ hcode)
    rw [hlog]
    exact passwordHistory_none fun e he => password_silent (hes e he)
  | @signed by_ args _ saved code digest salts hfound hpending hpassword hrows hbefore
      hcodes hlog =>
    have hmem : saved ∈ s'.accounts.users := Table.mem_of_find? hfound
    have hhistory : passwordHistory user s'.log = if saved.id = user
        then .started by_ args.password :: passwordHistory user s.log
          else passwordHistory user s.log := by
      rw [hlog, passwordHistory_skip (fun _ => rfl), passwordHistory_skip (fun _ => rfl),
        passwordHistory_cons (.started by_ args.password) saved.id (fun _ => rfl)]
    by_cases hown : saved.id = user
    · subst hown
      rw [if_pos rfl] at hhistory
      refine ⟨?_, ?_, ?_⟩
      · intro u hu hid by_' password hlast
        have hsame : u = saved := Table.eq_of_clash hu hmem (.inl hid)
        rw [hhistory] at hlast
        cases hlast
        rw [hsame]
        exact ⟨salts, hpassword⟩
      · intro _
        rw [hhistory]
        exact fun hnone => nomatch hnone
      · intro newer by_' older heq
        rw [hhistory] at heq
        cases newer with
        | nil => cases heq
        | cons e newer =>
          -- the row was active already, and a signup saves a pending one only
          obtain ⟨_, _, ⟨u, hu, hid⟩, hactive⟩ :=
            (h saved.id).settled newer by_' older (List.cons.inj heq).2
          have hinactive := hbefore u hu hid
          rw [hactive u hu hid] at hinactive
          cases hinactive
    · rw [if_neg hown] at hhistory
      refine (h user).keep hhistory (fun u hid => hrows u (fun heq => hown (heq ▸ hid))) ?_
      rw [hcodes, Function.update_of_ne (Ne.symm hown)]
      exact id
  | @resent email _ found code digest salts hfound hpending hstored husers hcodes hlog =>
    have hhistory : passwordHistory user s'.log = passwordHistory user s.log := by
      rw [hlog, passwordHistory_skip (fun _ => rfl), passwordHistory_skip (fun _ => rfl)]
    refine (h user).keep hhistory (fun u _ => by rw [husers]) ?_
    rw [hcodes]
    by_cases hown : user = found.id
    · rw [hown]
      exact fun _ => hstored
    · rw [Function.update_of_ne hown]
      exact id
  | @guessed by_ email code found hcheck =>
    obtain ⟨_, _, k, hk, _⟩ := checkSignupCode_ok hcheck
    refine (h user).keep rfl (fun u _ => Iff.rfl) ?_
    rw [countAttempt_of_some hk]
    by_cases hown : user = found.id
    · rw [hown, hk]
      exact fun _ hnone => nomatch hnone
    · show Function.update s.accounts.codes found.id _ user ≠ none → _
      rw [Function.update_of_ne hown]
      exact id
  | @activated by_ email code found hcheck =>
    obtain ⟨hfound, hpending, k, hk, _⟩ := checkSignupCode_ok hcheck
    have hmem : found ∈ s.accounts.users := Table.mem_of_find? hfound
    have hhistory : passwordHistory user
        (.activated by_ found.id code s.accounts.now :: s.log) = _ :=
      passwordHistory_cons (.activated by_) found.id (fun _ => rfl) user
    by_cases hown : found.id = user
    · subst hown
      rw [if_pos rfl] at hhistory
      have hcode : s.accounts.codes found.id ≠ none := by
        rw [hk]
        exact fun hnone => nomatch hnone
      have hlast := (h found.id).started hcode
      have hsame : ∀ u ∈ s.accounts.users, u.id = found.id → u = found :=
        fun u hu hid => Table.eq_of_clash hu hmem (.inl hid)
      refine ⟨?_, ?_, ?_⟩
      · intro u hu hid by_' password hstart
        rw [show passwordHistory _ _ = _ from hhistory] at hstart
        obtain ⟨v, hv, ⟨_, rfl⟩ | ⟨_, rfl⟩⟩ := Table.of_mem_rewritten hu
        · exact (h found.id).password v hv hid by_' password hstart
        · exact (h found.id).password u hv hid by_' password hstart
      · intro hgone
        exact absurd (Function.update_self _ _ _) hgone
      · intro newer by_' older heq
        rw [show passwordHistory _ _ = _ from hhistory] at heq
        cases newer with
        | nil =>
          cases heq
          refine ⟨rfl, hlast, ⟨withActive true found, ?_, rfl⟩, fun u hu hid => ?_⟩
          · have hopened : rewrite (fun u : User => decide (u.id = found.id))
              (withActive true) found
                = withActive true found := rewrite_pos _ (decide_eq_true rfl)
            rw [← hopened]
            exact Table.mem_rewritten hmem
          · obtain ⟨v, hv, ⟨_, rfl⟩ | ⟨hid', rfl⟩⟩ := Table.of_mem_rewritten hu
            · rfl
            · exact absurd (decide_eq_true hid) hid'
        | cons e newer =>
          -- the row was active already, and only a pending one is confirmed
          obtain ⟨_, _, _, hactive⟩ := (h found.id).settled newer by_' older (List.cons.inj heq).2
          rw [hactive found hmem rfl] at hpending
          cases hpending
    · rw [if_neg hown] at hhistory
      refine (h user).keep hhistory (fun u hid => ?_) ?_
      · have hkeeps : Table.Keeps (withActive true) := fun _ _ h => h
        exact mem_users_other hkeeps (fun _ => rfl) (fun heq => hown (heq ▸ hid))
      · show Function.update s.accounts.codes found.id none user ≠ none → _
        rw [Function.update_of_ne (Ne.symm hown)]
        exact id

end Steps

/-! ## Every run -/

theorem passwords_invariant (c : SignupSettings) :
    Invariant (signupProgram c) NoCodes (fun _ _ _ => True) (fun s => ∀ user, PasswordInv c s user)
      (fun _ t => Drawn c t.call t.pc) (fun _ _ => True) where
  init {s} h user := by
    have hnone : passwordHistory user s.log = [] := by
      rw [h.1]
      rfl
    refine ⟨?_, ?_, ?_⟩
    · rw [hnone]
      exact fun _ _ _ _ _ hlast => nomatch hlast
    · exact fun hcode => absurd (h.2 user) hcode
    · rw [hnone]
      intro newer by_ older heq
      cases newer <;> cases heq
  start k _ := fun _ _ h => nomatch h
  apart_start _ _ := trivial
  symm _ := trivial
  step {s t x s' t'} hs ht _ h := by
    obtain ⟨hcall, hmove⟩ := signupStep_move h
    refine ⟨PasswordInv.step hs (hmove.store ht), ?_⟩
    rw [hcall]
    exact hmove.drawn
  frame _ _ _ _ hu _ := ⟨hu, trivial⟩

/--
**An account that is confirmed has the password that was saved last.**

However two parties interleave sign-ups, resends and confirmations for an address: a user
whom a confirmation has made active is active to the end, with the password of the last
`start_signup` before it that was granted a mail and saved one, whichever party called it.
-/
theorem activated_password (c : SignupSettings) {g : Config SignupDb SignupThread}
    (h : (signupProgram c).Reach NoCodes g) {user : User} (hu : user ∈ g.store.accounts.users)
    {by_ : Party} {newer older : List PasswordEvent}
    (hact : passwordHistory user.id g.store.log = newer ++ .activated by_ :: older) :
    user.isActive = true ∧ newer = []
      ∧ ∃ party password salts, lastStart older = some (party, password)
        ∧ user.password = some (c.hash salts password) := by
  have hinv := ((passwords_invariant c).reach h).store user.id
  obtain ⟨rfl, hlast, _, hactive⟩ := hinv.settled newer by_ older hact
  obtain ⟨⟨party, password⟩, hstart⟩ := Option.ne_none_iff_exists'.1 hlast
  have hhistory : lastStart (passwordHistory user.id g.store.log) = some (party, password) := by
    rw [hact]
    exact hstart
  obtain ⟨salts, hpassword⟩ := hinv.password user hu rfl party password hhistory
  exact ⟨hactive user hu rfl, rfl, party, password, salts, hstart, hpassword⟩

/-- Bob signs up, and confirms. -/
theorem activated_password_bob :
    ∃ g : Config SignupDb SignupThread, ∃ user ∈ g.store.accounts.users,
      passwordHistory user.id g.store.log = [.activated .owner, .started .owner "Owner-pass1"]
      ∧ user.isActive = true ∧ user.password = some "pbkdf2$Owner-pass1" := by
  obtain ⟨g, hr, hf⟩ := Program.run_check (signupProgram signupSettings) noSignups bobConfirms
    (fun g => decide (∃ user ∈ g.store.accounts.users.rows,
      passwordHistory user.id g.store.log
        = [.activated .owner, .started .owner "Owner-pass1"])) (by decide)
  have hreach : (signupProgram signupSettings).Reach NoCodes g :=
    Program.reach_run noCodes_noSignups hr
  obtain ⟨user, hu, hhistory⟩ := of_decide_eq_true hf
  obtain ⟨hactive, _, party, password, salts, hlast, hpassword⟩ :=
    activated_password signupSettings hreach hu
      (show passwordHistory user.id g.store.log
        = [] ++ .activated .owner :: [.started .owner "Owner-pass1"] from hhistory)
  cases hlast
  exact ⟨g, user, hu, hhistory, hactive, hpassword⟩

/-! ## The other party's password -/

/-- The password of the last `start_signup` a party has called for an address. -/
def lastCalled (by_ : Party) (email : String) : List SignupEvent → Option String
  | [] => none
  | .called caller address password :: log =>
    if caller = by_ ∧ address = email then some password else lastCalled by_ email log
  | _ :: log => lastCalled by_ email log

/-- An account that the owner's confirmation has made active has the password of the owner's last
call before it. -/
def OwnersPassword (c : SignupSettings) (s : SignupDb) : Prop :=
  ∀ newer user code time older, s.log = newer ++ .activated .owner user code time :: older →
    ∀ u ∈ s.accounts.users, u.id = user → ∃ password salts,
      lastCalled .owner u.email older = some password ∧ u.password = some (c.hash salts password)

/-- Bob signs up; ten minutes later another signs up with his address, and Bob confirms with the
code he is mailed. -/
def otherAsksAgain : List (Act SignupCall SignupInput) :=
  .call 0 (.start .owner (bobSignup "Owner-pass1")) :: signsUp 0 "1234"
    ++ [.call 1 (.elapse 600000000), .tick 1 .go, .call 2 (.start .other (bobSignup "Other-pass1")),
      .tick 2 .go, .tick 2 .go, .tick 2 .go, .tick 2 .go, .tick 2 (.draw 2 "5678" (fun _ => 0)),
      .call 3 (.confirm .owner "bob@example.org" "5678"), .tick 3 .go]

/-- Bob's account, and the record up to its activation. -/
def endsHijacked (s : SignupDb) : Bool :=
  match s.log with
  | .activated .owner user _ _ :: older =>
    lastCalled .owner "bob@example.org" older = some "Owner-pass1"
      && s.accounts.users.rows.any fun u =>
        u.id = user && u.email = "bob@example.org" && u.password = some "pbkdf2$Other-pass1"
  | _ => false

/-- **The owner may confirm the other party's password.** -/
theorem owner_confirms_other :
    ¬ ∀ g, (signupProgram signupSettings).Reach NoCodes g
      → OwnersPassword signupSettings g.store := by
  intro hall
  obtain ⟨g, hr, hf⟩ := Program.run_check (signupProgram signupSettings) noSignups otherAsksAgain
    (fun g => endsHijacked g.store) (by decide)
  have hreach : (signupProgram signupSettings).Reach NoCodes g :=
    Program.reach_run noCodes_noSignups hr
  unfold endsHijacked at hf
  split at hf
  · rename_i user code time older hlog
    obtain ⟨hlast, hrow⟩ := Bool.and_eq_true_iff.1 hf
    obtain ⟨u, hu, hrow⟩ := List.any_eq_true.1 hrow
    obtain ⟨hrow, hpassword⟩ := Bool.and_eq_true_iff.1 hrow
    obtain ⟨hid, hemail⟩ := Bool.and_eq_true_iff.1 hrow
    obtain ⟨password, salts, howners, hsaved⟩ :=
      hall g hreach [] user code time older hlog u hu (of_decide_eq_true hid)
    rw [of_decide_eq_true hemail, of_decide_eq_true hlast] at howners
    rw [of_decide_eq_true hpassword] at hsaved
    cases howners
    have hdiffer : "pbkdf2$Other-pass1" ≠ "pbkdf2$" ++ "Owner-pass1" := by decide
    exact hdiffer (Option.some.inj hsaved)
  · cases hf

end Roamkit.Accounts.Proof
