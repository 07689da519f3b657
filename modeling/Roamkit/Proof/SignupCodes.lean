import Roamkit.Proof.SignupRuns

/-!
# The codes of mobile signup

What was done about the codes of one user is a history: a code is issued, wrong ones are
checked against it, and the right one makes the user active and is gone. What the row of the
code says is always what its history says, so the attempts that the row counts are those
since it was issued. A transaction that reads and writes the row holds its user's.
-/

namespace Roamkit.Accounts.Proof

open Lib Billing

/-! ## Histories -/

/-- What is done about the code of a user. -/
inductive CodeEvent where
  | issued (code : String) (time : Time)
  | guessed
  | activated (code : String) (time : Time)
deriving DecidableEq

/-- An event of a run, if it is one about the code of a user. -/
def SignupEvent.code? (user : UserId) : SignupEvent → Option CodeEvent
  | .issued u code time => if u = user then some (.issued code time) else none
  | .guessed u => if u = user then some .guessed else none
  | .activated _ u code time => if u = user then some (.activated code time) else none
  | _ => none

/-- What was done about the codes of a user, the newest first. -/
def codeHistory (user : UserId) (log : List SignupEvent) : List CodeEvent :=
  log.filterMap (SignupEvent.code? user)

/-- A code was issued at a time, some wrong ones were checked, and nothing else since. -/
def Open (n : Nat) (code : String) (time : Time) (history : List CodeEvent) : Prop :=
  ∃ older, history = List.replicate n .guessed ++ .issued code time :: older

/-- What may follow a history. -/
def Follows (history : List CodeEvent) : CodeEvent → Prop
  | .issued _ _ => True
  | .guessed => ∃ n code time, n < maxAttempts ∧ Open n code time history
  | .activated code now =>
      ∃ n time, n < maxAttempts ∧ Open n code time history ∧ now < time + codeTtl

/-- A history each of whose events may follow those before it. -/
def Lawful : List CodeEvent → Prop
  | [] => True
  | e :: history => Follows history e ∧ Lawful history

theorem Lawful.older {newer history : List CodeEvent}
    (h : Lawful (newer ++ history)) : Lawful history := by
  induction newer with
  | nil => exact h
  | cons e newer ih => exact ih h.2

theorem Lawful.event {newer history : List CodeEvent} {e : CodeEvent}
    (h : Lawful (newer ++ e :: history)) :
    Follows history e := (Lawful.older h).1

/-- A code that is issued. -/
def CodeEvent.isIssue : CodeEvent → Bool
  | .issued _ _ => true
  | _ => false

/-- What has followed the last code is wrong guesses, where it is open. -/
theorem Open.guesses {n : Nat} {code : String} {time : Time} {recent older : List CodeEvent}
    (h : Open n code time (recent ++ older)) (hrecent : ∀ e ∈ recent, e.isIssue = false) :
    recent.length ≤ n ∧ recent = List.replicate recent.length .guessed := by
  obtain ⟨before, h⟩ := h
  -- an event of `recent` that lies behind the guesses would be the one that issues the code
  induction recent generalizing n with
  | nil => exact ⟨Nat.zero_le n, rfl⟩
  | cons e recent ih =>
    cases n with
    | zero =>
      obtain ⟨rfl, _⟩ := List.cons.inj h
      have hissue := hrecent _ List.mem_cons_self
      cases hissue
    | succ n =>
      obtain ⟨rfl, hrest⟩ := List.cons.inj h
      obtain ⟨hlength, heq⟩ := ih (fun e he => hrecent e (List.mem_cons_of_mem _ he)) hrest
      refine ⟨Nat.succ_le_succ hlength, ?_⟩
      rw [List.length_cons, List.replicate_succ, ← heq]

/-- Between two codes there are five wrong guesses at most, and one right one. -/
theorem Lawful.between {recent older : List CodeEvent} (h : Lawful (recent ++ older))
    (hrecent : ∀ e ∈ recent, e.isIssue = false) :
    recent.countP (· = .guessed) ≤ maxAttempts ∧ recent.countP (fun e => e ≠ .guessed) ≤ 1 := by
  cases recent with
  | nil => exact ⟨Nat.zero_le _, Nat.zero_le _⟩
  | cons e rest =>
    have hrest : ∀ e ∈ rest, e.isIssue = false := fun e he => hrecent e (List.mem_cons_of_mem _ he)
    have hfollows : Follows (rest ++ older) e := h.1
    have hopen : ∃ n code time, n < maxAttempts ∧ Open n code time (rest ++ older) := by
      cases e with
      | issued code time =>
        have hissue := hrecent _ List.mem_cons_self
        cases hissue
      | guessed => exact hfollows
      | activated code now =>
        obtain ⟨n, time, hn, hopen, _⟩ := hfollows
        exact ⟨n, code, time, hn, hopen⟩
    obtain ⟨n, code, time, hn, hopen⟩ := hopen
    obtain ⟨hlength, hguesses⟩ := hopen.guesses hrest
    have hwrong : rest.countP (· = .guessed) ≤ rest.length := List.countP_le_length
    have hright : rest.countP (fun e => e ≠ .guessed) = 0 := by
      rw [List.countP_eq_zero, hguesses]
      intro e he
      rw [List.eq_of_mem_replicate he]
      decide
    rw [List.countP_cons, List.countP_cons, hright]
    constructor
    · split <;> omega
    · split <;> omega

/-! ## What a step adds to a history -/

section History

variable {user : UserId} {log : List SignupEvent}

theorem codeHistory_silent {es : List SignupEvent} (h : ∀ e ∈ es, silent e = true) :
    codeHistory user (es ++ log) = codeHistory user log := by
  have hnone : es.filterMap (SignupEvent.code? user) = [] := by
    refine List.filterMap_eq_nil_iff.2 fun e he => ?_
    have hsilent := h e he
    cases e with
    | granted _ _ _ => rfl
    | mailed _ _ => rfl
    | called _ _ _ => rfl
    | _ => cases hsilent
  rw [codeHistory, List.filterMap_append, hnone]
  rfl

/-- An event about the code of one user. -/
theorem codeHistory_cons {e : SignupEvent} (k : CodeEvent) (owner : UserId)
    (he : ∀ u, SignupEvent.code? u e = if owner = u then some k else none) (user : UserId) :
    codeHistory user (e :: log) = if owner = user then k :: codeHistory user log
      else codeHistory user log := by
  unfold codeHistory
  rw [List.filterMap_cons, he user]
  by_cases hown : owner = user
  · rw [if_pos hown, if_pos hown]
  · rw [if_neg hown, if_neg hown]

theorem codeHistory_none {e : SignupEvent} (he : ∀ u, SignupEvent.code? u e = none)
    (user : UserId) :
    codeHistory user (e :: log) = codeHistory user log := List.filterMap_cons_none (he user)

end History

/-! ## The invariant -/

/-- What the row of a code has to do with the history of its user. -/
structure CodesInv (c : SignupSettings) (s : SignupDb) (user : UserId) : Prop where
  lawful : Lawful (codeHistory user s.log)
  /-- The row is about the code that was issued last, and counts the guesses since. -/
  stored : ∀ k, s.accounts.codes user = some k → ∃ code time salts,
    Open k.attemptCount code time (codeHistory user s.log) ∧ k.expiresAt = time + codeTtl
      ∧ k.codeHash = c.hash salts code

section Steps

variable {c : SignupSettings} {s s' : SignupDb} {call : SignupCall}

/-- A code that is checked is stored, not expired, and was guessed wrong four times at most. -/
theorem checkSignupCode_ok {c : ActivationSettings} {acc : AccountsDb} {email code : String}
    {user : User} {right : Bool} (h : checkSignupCode c acc email code = .ok (user, right)) :
    acc.userOf (normalizeEmail email) = some user ∧ user.isActive = false
      ∧ ∃ k, acc.codes user.id = some k ∧ k.attemptCount < maxAttempts ∧ acc.now < k.expiresAt
        ∧ c.checkPassword code k.codeHash = right := by
  unfold checkSignupCode at h
  split at h
  · cases h
  rename_i found hfound
  split at h
  · cases h
  rename_i hpending
  split at h
  · cases h
  rename_i k hk
  split at h
  · cases h
  rename_i hopen
  cases h
  obtain ⟨hattempts, hexpires⟩ := not_or.1 hopen
  exact ⟨hfound, Bool.eq_false_iff.2 hpending, k, hk, Nat.not_le.1 hattempts,
    Int.not_le.1 hexpires, rfl⟩

theorem CodesInv.keep {user : UserId} (h : CodesInv c s user)
    (hcodes : s'.accounts.codes user = s.accounts.codes user)
    (hhistory : codeHistory user s'.log = codeHistory user s.log) : CodesInv c s' user where
  lawful := hhistory ▸ h.lawful
  stored k hk := by
    rw [hcodes] at hk
    rw [hhistory]
    exact h.stored k hk

/-- A code is issued. -/
theorem CodesInv.issue {owner : UserId} {code : String} {salts : String → Nat}
    (h : ∀ user, CodesInv c s user) (hcodes : s'.accounts.codes
      = Function.update s.accounts.codes owner
        (some ⟨c.hash salts code, s.accounts.now + codeTtl, 0⟩))
    (hhistory : ∀ user, codeHistory user s'.log
      = if owner = user then .issued code s.accounts.now :: codeHistory user s.log
        else codeHistory user s.log)
    (user : UserId) : CodesInv c s' user := by
  have hlog := hhistory user
  by_cases hown : owner = user
  · subst hown
    rw [if_pos rfl] at hlog
    refine ⟨?_, fun k hk => ?_⟩
    · rw [hlog]
      exact ⟨trivial, (h owner).lawful⟩
    · rw [hcodes, Function.update_self] at hk
      cases hk
      rw [hlog]
      exact ⟨code, s.accounts.now, salts, ⟨_, rfl⟩, rfl, rfl⟩
  · rw [if_neg hown] at hlog
    refine (h user).keep ?_ hlog
    rw [hcodes]
    exact Function.update_of_ne (Ne.symm hown) _ _

/-- **A step keeps the rows of codes and their histories together.** -/
theorem CodesInv.step (h : ∀ user, CodesInv c s user) (hmove : StoreMove c s call s')
    (user : UserId) :
    CodesInv c s' user := by
  cases hmove with
  | quiet es _ hcodes hlog hes =>
    refine (h user).keep (by rw [hcodes]) ?_
    rw [hlog]
    exact codeHistory_silent hes
  | @signed by_ args _ saved code _ salts _ _ _ _ _ hcodes hlog =>
    refine CodesInv.issue h hcodes (fun u => ?_) user
    rw [hlog, codeHistory_none (fun _ => rfl),
      codeHistory_cons (.issued code s.accounts.now) saved.id (fun _ => rfl),
      codeHistory_none (fun _ => rfl)]
  | @resent email _ found code _ salts _ _ _ _ hcodes hlog =>
    refine CodesInv.issue h hcodes (fun u => ?_) user
    rw [hlog, codeHistory_none (fun _ => rfl),
      codeHistory_cons (.issued code s.accounts.now) found.id (fun _ => rfl)]
  | @guessed by_ email code found hcheck =>
    obtain ⟨_, _, k, hk, hattempts, _, _⟩ := checkSignupCode_ok hcheck
    obtain ⟨issued, time, salts, hopen, hexpires, hhash⟩ := (h found.id).stored k hk
    have hlog : codeHistory user (.guessed found.id :: s.log) = _ :=
      codeHistory_cons .guessed found.id (fun _ => rfl) user
    by_cases hown : found.id = user
    · subst hown
      rw [if_pos rfl] at hlog
      refine ⟨?_, fun k' hk' => ?_⟩
      · rw [hlog]
        exact ⟨⟨_, issued, time, hattempts, hopen⟩, (h found.id).lawful⟩
      · have hcounted : (s.accounts.countAttempt found.id).codes found.id
            = some { k with attemptCount := k.attemptCount + 1 } := by
          unfold AccountsDb.countAttempt
          dsimp only
          rw [Function.update_self, hk]
          rfl
        obtain rfl := Option.some.inj (hcounted.symm.trans hk')
        obtain ⟨older, hhistory⟩ := hopen
        refine ⟨issued, time, salts, ⟨older, ?_⟩, hexpires, hhash⟩
        rw [hlog, hhistory, List.replicate_succ]
        rfl
    · rw [if_neg hown] at hlog
      exact (h user).keep (Function.update_of_ne (Ne.symm hown) _ _) hlog
  | @activated by_ email code found hcheck =>
    obtain ⟨_, _, k, hk, hattempts, hlive, hright⟩ := checkSignupCode_ok hcheck
    obtain ⟨issued, time, salts, hopen, hexpires, hhash⟩ := (h found.id).stored k hk
    have hlog : codeHistory user (.activated by_ found.id code s.accounts.now :: s.log) = _ :=
      codeHistory_cons (.activated code s.accounts.now) found.id (fun _ => rfl) user
    by_cases hown : found.id = user
    · subst hown
      rw [if_pos rfl] at hlog
      refine ⟨?_, fun k' hk' => ?_⟩
      · rw [hhash] at hright
        obtain rfl := (c.check_make _ _ _).1 hright
        rw [hexpires] at hlive
        rw [hlog]
        exact ⟨⟨_, time, hattempts, hopen, hlive⟩, (h found.id).lawful⟩
      · have hgone : (accepted s.accounts found.id).codes found.id = none :=
          Function.update_self _ _ _
        rw [show _ = none from hgone] at hk'
        cases hk'
    · rw [if_neg hown] at hlog
      exact (h user).keep (Function.update_of_ne (Ne.symm hown) _ _) hlog

/-! ## One step -/

/-- A confirmation carries the code that is stored for a user, not expired and not guessed at too
often; it is gone then. -/
def Accepts (c : SignupSettings) (s : SignupDb) (call : SignupCall) (s' : SignupDb)
    (user : UserId) : Prop :=
  ∃ by_ email code k, call = .confirm by_ email code ∧ s.accounts.codes user = some k
    ∧ c.checkPassword code k.codeHash = true ∧ s.accounts.now < k.expiresAt
      ∧ k.attemptCount < maxAttempts
    ∧ s'.accounts.codes user = none

/-- Nothing has changed but that an attempt may have been counted. -/
def OnlyCounts (s s' : SignupDb) : Prop :=
  s'.cache = s.cache ∧ (s'.accounts = s.accounts ∨ ∃ user k, s.accounts.codes user = some k
    ∧ s'.accounts = { s.accounts with
        codes := Function.update s.accounts.codes user
          (some { k with attemptCount := k.attemptCount + 1 }) })

/-- Who is active after a step was before, or has confirmed. -/
theorem StoreMove.active (hmove : StoreMove c s call s') {u' : User} (hu' : u' ∈ s'.accounts.users)
    (hactive : u'.isActive = true) :
    (∃ u ∈ s.accounts.users, u.id = u'.id ∧ u.isActive = true) ∨ Accepts c s call s' u'.id := by
  cases hmove with
  | quiet es husers _ _ _ =>
    rw [husers] at hu'
    exact .inl ⟨u', hu', rfl, hactive⟩
  | @signed _ _ _ saved _ _ salts hfound hpending _ hrows _ _ _ =>
    by_cases hid : u'.id = saved.id
    · have hsame : u' = saved := Table.eq_of_clash hu' (Table.mem_of_find? hfound) (.inl hid)
      rw [hsame, hpending] at hactive
      cases hactive
    · exact .inl ⟨u', (hrows u' hid).1 hu', rfl, hactive⟩
  | resent salts _ _ _ husers _ _ =>
    rw [husers] at hu'
    exact .inl ⟨u', hu', rfl, hactive⟩
  | guessed _ => exact .inl ⟨u', hu', rfl, hactive⟩
  | @activated by_ email code found hcheck =>
    obtain ⟨_, _, k, hk, hattempts, hlive, hright⟩ := checkSignupCode_ok hcheck
    obtain ⟨u, hu, ⟨hid, rfl⟩ | ⟨_, rfl⟩⟩ := Table.of_mem_rewritten hu'
    · have hown : u.id = found.id := of_decide_eq_true hid
      refine .inr ⟨by_, email, code, k, rfl, ?_, hright, hlive, hattempts, ?_⟩
      · rw [show (withActive true u).id = found.id from hown]
        exact hk
      · rw [show (withActive true u).id = found.id from hown]
        exact Function.update_self _ _ _
    · exact .inl ⟨u', hu, rfl, hactive⟩

theorem countAttempt_of_some {acc : AccountsDb} {user : UserId} {k : SignupCode}
    (hk : acc.codes user = some k) :
    acc.countAttempt user
      = { acc with
        codes := Function.update acc.codes user
          (some { k with attemptCount := k.attemptCount + 1 }) } := by
  unfold AccountsDb.countAttempt
  rw [hk]
  rfl

/-- A confirmation that raises has counted an attempt at most. -/
theorem SignupMove.rejected {by_ : Party} {email code : String} {pc : SignupPc} {e : Exc}
    (h : SignupMove c s (.confirm by_ email code) pc s' (.raised e)) : OnlyCounts s s' := by
  generalize hpc' : SignupPc.raised e = pc' at h
  cases h with
  | confirmed _ =>
    have hconfirmed := confirmStep_confirmed c s by_ email code
    generalize confirmStep c s by_ email code = r at hconfirmed hpc' ⊢
    cases hconfirmed with
    | refused _ => exact ⟨rfl, .inl rfl⟩
    | guessed hcheck =>
      obtain ⟨_, _, k, hk, _⟩ := checkSignupCode_ok hcheck
      exact ⟨rfl, .inr ⟨_, k, hk, countAttempt_of_some hk⟩⟩
    | activated _ => cases hpc'
  | claimed hclaim => cases hpc'
  | dropped => cases hpc'
  | failed _ => exact ⟨rfl, .inl rfl⟩

end Steps

/-! ## Every run -/

/-- No code was issued yet; whoever has an account. -/
def NoCodes (s : SignupDb) : Prop := s.log = [] ∧ ∀ user, s.accounts.codes user = none

theorem codes_invariant (c : SignupSettings) :
    Invariant (signupProgram c) NoCodes (fun _ _ _ => True) (fun s => ∀ user, CodesInv c s user)
      (fun _ t => Drawn c t.call t.pc) (fun _ _ => True) where
  init {s} h user := by
    refine ⟨?_, fun k hk => ?_⟩
    · rw [h.1]
      trivial
    · rw [h.2 user] at hk
      cases hk
  start k _ := fun _ _ h => nomatch h
  apart_start _ _ := trivial
  symm _ := trivial
  step {s t x s' t'} hs ht _ h := by
    obtain ⟨hcall, hmove⟩ := signupStep_move h
    refine ⟨CodesInv.step hs (hmove.store ht), ?_⟩
    rw [hcall]
    exact hmove.drawn
  frame _ _ _ _ hu _ := ⟨hu, trivial⟩

/-- The record of the codes of a user is as it should be. -/
structure CodesSound (history : List CodeEvent) : Prop where
  /-- No more than five wrong codes are checked against one code, and one activation comes of it. -/
  bounded : ∀ newer recent older, history = newer ++ recent ++ older
    → (∀ e ∈ recent, e.isIssue = false) →
    recent.countP (· = .guessed) ≤ maxAttempts ∧ recent.countP (fun e => e ≠ .guessed) ≤ 1
  /-- The code that activates is the one that was issued last, and has not expired. -/
  current : ∀ newer code now older, history = newer ++ .activated code now :: older →
    ∃ n time, n < maxAttempts ∧ Open n code time older ∧ now < time + codeTtl

theorem Lawful.sound {history : List CodeEvent} (h : Lawful history) : CodesSound history where
  bounded newer recent older heq hrecent := by
    rw [heq, List.append_assoc] at h
    exact h.older.between hrecent
  current newer code now older heq := by
    rw [heq] at h
    exact h.event

/--
**A signup code is guessed at five times at most, and lets its user in once.**

However sign-ups, resends and confirmations are interleaved: at most five wrong codes are
checked between two codes that are issued to a user, and at most one right one; the right one
is the code issued last, not expired. Whoever a step makes active has confirmed with the code
that is stored, which is deleted; and a confirmation that is rejected changes nothing but the
attempt counter.
-/
theorem signup_codes_sound (c : SignupSettings) {g : Config SignupDb SignupThread}
    (h : (signupProgram c).Reach NoCodes g) :
    (∀ user, CodesSound (codeHistory user g.store.log))
      ∧ ∀ p t x s' t', g.threads p = some t → (signupProgram c).step g.store t x = some (s', t') →
        (∀ u' ∈ s'.accounts.users, u'.isActive = true →
          (∃ u ∈ g.store.accounts.users, u.id = u'.id ∧ u.isActive = true)
            ∨ Accepts c g.store t.call s' u'.id)
        ∧ ∀ by_ email code e, t.call = .confirm by_ email code → t'.pc = .raised e
          → OnlyCounts g.store s' := by
  have hinv := (codes_invariant c).reach h
  refine ⟨fun user => (hinv.store user).lawful.sound, ?_⟩
  intro p t x s' t' ht hstep
  obtain ⟨hcall, hmove⟩ := signupStep_move hstep
  have hstore := hmove.store (hinv.thread p t ht)
  refine ⟨fun u' hu' hactive => hstore.active hu' hactive, ?_⟩
  intro by_ email code e hconfirm hraised
  rw [hconfirm, hraised] at hmove
  exact hmove.rejected

theorem noCodes_noSignups : NoCodes noSignups := ⟨rfl, fun _ => rfl⟩

/-- Bob signs up, mistypes his code, and confirms. -/
def bobConfirms : List (Act SignupCall SignupInput) :=
  .call 0 (.start .owner (bobSignup "Owner-pass1")) :: signsUp 0 "1234"
    ++ [.call 1 (.confirm .owner "bob@example.org" "4321"), .tick 1 .go,
      .call 2 (.confirm .owner "bob@example.org" "1234"), .tick 2 .go]

theorem signup_codes_sound_bob : ∃ g : Config SignupDb SignupThread,
    codeHistory 1 g.store.log = [.activated "1234" 0, .guessed, .issued "1234" 0]
      ∧ ∀ user, CodesSound (codeHistory user g.store.log) := by
  obtain ⟨g, hr, hf⟩ := Program.run_check (signupProgram signupSettings) noSignups bobConfirms
    (fun g =>
      decide (codeHistory 1 g.store.log = [.activated "1234" 0, .guessed, .issued "1234" 0]))
    (by decide)
  have hreach : (signupProgram signupSettings).Reach NoCodes g :=
    Program.reach_run noCodes_noSignups hr
  exact ⟨g, of_decide_eq_true hf, (signup_codes_sound signupSettings hreach).1⟩

end Roamkit.Accounts.Proof
