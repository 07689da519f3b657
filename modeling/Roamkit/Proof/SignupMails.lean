import Roamkit.Lib.Windows
import Roamkit.Proof.SignupRuns

/-!
# How often an address gets a mail

A grant holds a slot of the day for a day and the gap for ten minutes, and a slot that was
given back was never one of a grant. So grants of one address are a gap apart, and those of
one day have different slots. This needs that the operations of one claim see one clock: a
slot is given back at the time it was taken, before it could be another's.
-/

namespace Roamkit.Accounts.Proof

open Lib Billing

/-! ## What the record says -/

variable (digest : String) {since : Time} {x : SignupInput} {cache : MailCache} {key : CacheKey}
  {index : Nat}

/-- The time and the slot of a grant for an address. -/
def SignupEvent.grant? : SignupEvent → Option (Time × Nat)
  | .granted d time index => if d = digest then some (time, index) else none
  | _ => none

/-- The time of a mail to an address. -/
def SignupEvent.mail? : SignupEvent → Option Time
  | .mailed d time => if d = digest then some time else none
  | _ => none

/-- The answers `True` of `claim_signup_mail` for an address, the newest first. -/
def grants (digest : String) (log : List SignupEvent) : List (Time × Nat) :=
  log.filterMap (SignupEvent.grant? digest)

/-- The times of the mails to an address, the newest first. -/
def mailings (log : List SignupEvent) : List Time := log.filterMap (SignupEvent.mail? digest)

/-- The operations of a claim, and the mail it is for, see one clock. -/
def OneClock (s : SignupDb) (t : SignupThread) (_ : SignupInput) : Prop :=
  match t.pc with
  | .claiming since _ _ => since = s.accounts.now
  | .missed since _ => since = s.accounts.now
  | _ => True

instance (s : SignupDb) (t : SignupThread) (x : SignupInput) : Decidable (OneClock s t x) := by
  unfold OneClock
  split <;> infer_instance

/-! ## Where a call stands -/

/-- The clock of a call that claims a mail, or has a mail to send. -/
def since? : SignupPc → Option Time
  | .claiming since _ _ => some since
  | .missed since _ => some since
  | _ => none

/-- The slot a claim has taken, and may give back. -/
def slot? : SignupPc → Option Nat
  | .claiming _ _ (.gap index) => some index
  | .claiming _ _ (.release index) => some index
  | _ => none

/-- Whether a call may still send the mail it has claimed. -/
def mayMail : SignupPc → Bool
  | .claiming _ _ (.answered true) => true
  | .missed _ _ => true
  | _ => false

/-- The digest of the address of a call. -/
def digestOf (c : SignupSettings) (t : SignupThread) : String := c.mailDigest t.call.email

/-! ## The invariant -/

/-- What holds of the grants and the mails of an address. -/
structure GrantsInv (s : SignupDb) (digest : String) : Prop where
  /-- No grant is in the future. -/
  past : ∀ g ∈ grants digest s.log, g.1 ≤ s.accounts.now
  /-- The gap is that of the newest grant. -/
  gap : ∀ g ∈ (grants digest s.log).head?, s.cache (.gap digest) = some (g.1 + mailGap)
  /-- Grants are a gap apart. -/
  spaced : (grants digest s.log).Pairwise fun g h => h.1 + mailGap ≤ g.1
  /-- Grants of one day have different slots. -/
  apart : (grants digest s.log).Pairwise fun g h => g.1 < h.1 + mailDay → g.2 ≠ h.2
  /-- The slots are those of a day. -/
  bound : ∀ g ∈ grants digest s.log, g.2 < mailDayMax
  /-- A grant has its slot for a day. -/
  taken : ∀ g ∈ grants digest s.log, s.accounts.now < g.1 + mailDay →
    s.cache (.day digest g.2) = some (g.1 + mailDay)
  /-- There is one mail at a time. -/
  nodup : (mailings digest s.log).Nodup
  /-- A mail goes out when it was granted. -/
  granted : ∀ τ ∈ mailings digest s.log, ∃ g ∈ grants digest s.log, g.1 = τ

/-- What a call relies on. -/
structure ClaimInv (c : SignupSettings) (s : SignupDb) (t : SignupThread) : Prop where
  past : ∀ since, since? t.pc = some since → since ≤ s.accounts.now
  /-- A claim tries the slots of a day. -/
  tries : ∀ since held index, t.pc = .claiming since held (.day index) → index < mailDayMax
  /-- The slot of a claim is its own. -/
  slot : since? t.pc = some s.accounts.now → ∀ index, slot? t.pc = some index → index < mailDayMax
    ∧ s.cache (.day (digestOf c t) index) = some (s.accounts.now + mailDay)
    ∧ ∀ g ∈ grants (digestOf c t) s.log, s.accounts.now < g.1 + mailDay → g.2 ≠ index
  /-- A mail that may be sent was granted, and was not sent. -/
  mail : since? t.pc = some s.accounts.now → mayMail t.pc = true →
    (∃ g ∈ grants (digestOf c t) s.log, g.1 = s.accounts.now)
      ∧ s.accounts.now ∉ mailings (digestOf c t) s.log
  email : ∀ since a, t.pc = .missed since a → a.email = t.call.email

/-- What keeps two calls apart: claims of one address at one time have different slots and one
mail. -/
def ClaimsApart (c : SignupSettings) (t u : SignupThread) : Prop :=
  digestOf c t = digestOf c u → ∀ since, since? t.pc = some since → since? u.pc = some since →
    (∀ index, slot? t.pc = some index → slot? u.pc ≠ some index)
      ∧ ¬ (mayMail t.pc = true ∧ mayMail u.pc = true)

/-! ## What a step does about mails -/

/-- A step, as far as grants and mails go. -/
inductive MailMove (digest : String) (s : SignupDb) (pc : SignupPc) (s' : SignupDb)
    (pc' : SignupPc) : Prop
  /-- Nothing is granted, and nothing sent. -/
  | quiet : s'.cache = s.cache → s.accounts.now ≤ s'.accounts.now →
      (∀ d, grants d s'.log = grants d s.log) → (∀ d, mailings d s'.log = mailings d s.log) →
      (∀ since, since? pc' = some since → since? pc = some since ∨ since = s.accounts.now) →
      (∀ index, slot? pc' = some index → slot? pc = some index ∧ since? pc' = since? pc) →
      (mayMail pc' = true → mayMail pc = true ∧ since? pc' = since? pc)
        → MailMove digest s pc s' pc'
  /-- A slot of the day is taken. -/
  | taken {since : Time} {held : Option UserId} {index : Nat} :
      pc = .claiming since held (.day index) →
      s.cache.has s.accounts.now (.day digest index) = false →
      s' = { s with cache := s.cache.put (.day digest index) (s.accounts.now + mailDay) } →
      pc' = .claiming since held (.gap index) → MailMove digest s pc s' pc'
  /-- The gap is taken: the claim is granted. -/
  | granted {since : Time} {held : Option UserId} {index : Nat} :
      pc = .claiming since held (.gap index) →
      s.cache.has s.accounts.now (.gap digest) = false →
      s' = { s with cache := s.cache.put (.gap digest) (s.accounts.now + mailGap),
                    log := .granted digest s.accounts.now index :: s.log } →
      pc' = .claiming since held (.answered true) → MailMove digest s pc s' pc'
  /-- The slot is given back. -/
  | released {since : Time} {held : Option UserId} {index : Nat} :
      pc = .claiming since held (.release index) →
      s' = { s with cache := s.cache.delete (.day digest index) } →
      pc' = .claiming since held (.answered false) → MailMove digest s pc s' pc'
  /-- A mail is sent. -/
  | mailed : mayMail pc = true → s'.cache = s.cache → s'.accounts.now = s.accounts.now →
      (∀ d, grants d s'.log = grants d s.log) →
      (∀ d, d ≠ digest → mailings d s'.log = mailings d s.log) →
      mailings digest s'.log = s.accounts.now :: mailings digest s.log →
      since? pc' = none → slot? pc' = none → mayMail pc' = false → MailMove digest s pc s' pc'

section Moves

variable {c : SignupSettings} {s s' : SignupDb} {call : SignupCall} {pc pc' : SignupPc}

theorem grants_append (d : String) (es log : List SignupEvent)
    (h : ∀ e ∈ es, SignupEvent.grant? d e = none) :
    grants d (es ++ log) = grants d log := by
  have hnone : es.filterMap (SignupEvent.grant? d) = [] := List.filterMap_eq_nil_iff.2 h
  rw [grants, List.filterMap_append, hnone]
  rfl

theorem mailings_append (d : String) (es log : List SignupEvent) :
    mailings d (es ++ log) = mailings d es ++ mailings d log := List.filterMap_append

theorem grants_mailed (d digest : String) (n : Nat) (now : Time) (e : SignupEvent)
    (h : e ∈ List.replicate n (.mailed digest now)) : SignupEvent.grant? d e = none := by
  rw [List.eq_of_mem_replicate h]
  rfl

theorem startedSince_silent (by_ : Party) (password : String) (a : Signup) (acc acc' : AccountsDb)
    (d : String) :
    (∀ e ∈ startedSince by_ password a acc acc', SignupEvent.grant? d e = none)
      ∧ mailings d (startedSince by_ password a acc acc') = [] := by
  unfold startedSince
  split
  · split
    · exact ⟨fun e he => absurd he List.not_mem_nil, rfl⟩
    · refine ⟨fun e he => ?_, rfl⟩
      rcases List.mem_cons.1 he with rfl | he
      · rfl
      · rw [List.mem_singleton.1 he]
        rfl
  · exact ⟨fun e he => absurd he List.not_mem_nil, rfl⟩

theorem resentSince_silent (code email : String) (acc : AccountsDb) (d : String) :
    (∀ e ∈ resentSince code email acc, SignupEvent.grant? d e = none)
      ∧ mailings d (resentSince code email acc) = [] := by
  unfold resentSince
  split
  · split
    · exact ⟨fun e he => absurd he List.not_mem_nil, rfl⟩
    · refine ⟨fun e he => ?_, rfl⟩
      rw [List.mem_singleton.1 he]
      rfl
  · exact ⟨fun e he => absurd he List.not_mem_nil, rfl⟩

/-- The events of a transaction: its mails, and others that are no grants and no mails. -/
theorem events_of_transaction (c : SignupSettings) (email : String) (acc acc' : AccountsDb)
    {es : List SignupEvent} (log : List SignupEvent)
    (hes : ∀ d, (∀ e ∈ es, SignupEvent.grant? d e = none) ∧ mailings d es = []) :
    (∀ d, grants d (mailedSince c email acc acc' ++ es ++ log) = grants d log)
      ∧ (∀ d, d ≠ c.mailDigest email
        → mailings d (mailedSince c email acc acc' ++ es ++ log) = mailings d log)
      ∧ mailings (c.mailDigest email) (mailedSince c email acc acc' ++ es ++ log)
        = List.replicate (acc'.mails.length - acc.mails.length) acc.now
          ++ mailings (c.mailDigest email) log := by
  refine ⟨fun d => ?_, fun d hd => ?_, ?_⟩
  · refine grants_append d _ log fun e he => ?_
    rcases List.mem_append.1 he with he | he
    · exact grants_mailed d _ _ _ e he
    · exact (hes d).1 e he
  · have hother : mailings d (mailedSince c email acc acc') = [] := by
      refine List.filterMap_eq_nil_iff.2 fun e he => ?_
      rw [List.eq_of_mem_replicate he]
      exact if_neg (Ne.symm hd)
    rw [mailings_append, mailings_append, hother, (hes d).2]
    rfl
  · have hown : mailings (c.mailDigest email) (mailedSince c email acc acc')
        = List.replicate (acc'.mails.length - acc.mails.length) acc.now := by
      unfold mailings mailedSince
      rw [List.filterMap_replicate]
      simp [SignupEvent.mail?]
    rw [mailings_append, mailings_append, hown, (hes _).2, List.append_nil]

theorem confirmStep_rest (by_ : Party) (email code : String) :
    (confirmStep c s by_ email code).1.cache = s.cache
      ∧ (confirmStep c s by_ email code).1.accounts.now = s.accounts.now
      ∧ (∀ d, grants d (confirmStep c s by_ email code).1.log = grants d s.log)
      ∧ (∀ d, mailings d (confirmStep c s by_ email code).1.log = mailings d s.log) := by
  have hconfirmed := confirmStep_confirmed c s by_ email code
  generalize confirmStep c s by_ email code = r at hconfirmed ⊢
  cases hconfirmed with
  | refused _ => exact ⟨rfl, rfl, fun d => rfl, fun d => rfl⟩
  | guessed _ => exact ⟨rfl, rfl, fun d => rfl, fun d => rfl⟩
  | activated _ => exact ⟨rfl, rfl, fun d => rfl, fun d => rfl⟩

theorem resendSignupCode_rest (acc : AccountsDb) (email code codeHash : String) :
    (resendSignupCode acc email true code codeHash).now = acc.now
      ∧ ((resendSignupCode acc email true code codeHash).mails = acc.mails
        ∨ ∃ m, (resendSignupCode acc email true code codeHash).mails = acc.mails ++ [m]) := by
  unfold resendSignupCode
  split
  · exact ⟨rfl, .inl rfl⟩
  · split
    · rw [if_pos rfl]
      exact ⟨rfl, .inr ⟨_, rfl⟩⟩
    · split
      · exact ⟨rfl, .inl rfl⟩
      · exact ⟨rfl, .inr ⟨_, rfl⟩⟩

theorem endResend_move (hpc : mayMail pc = true) (email code codeHash : String)
    (held : Option UserId) (hemail : call.email = normalizeEmail email) :
    MailMove (c.mailDigest call.email) s pc
      ((endResend c s email code codeHash).unlock held) .done := by
  obtain ⟨hnow, hmails⟩ := resendSignupCode_rest s.accounts email code codeHash
  let accounts := resendSignupCode s.accounts email true code codeHash
  obtain ⟨hgrants, hothers, hown⟩ :=
    events_of_transaction c (normalizeEmail email) s.accounts accounts
    s.log (resentSince_silent code (normalizeEmail email) s.accounts)
  rw [hemail]
  rcases hmails with hsame | ⟨m, hone⟩
  · refine .quiet rfl (Int.le_of_eq hnow.symm) hgrants (fun d => ?_) (fun _ h => ?_) (fun _ h => ?_)
      (fun h => ?_)
    · by_cases hd : d = c.mailDigest (normalizeEmail email)
      · have hzero : accounts.mails.length - s.accounts.mails.length = 0 := by
          rw [hsame, Nat.sub_self]
        rw [hzero] at hown
        rw [hd]
        exact hown
      · exact hothers d hd
    · cases h
    · cases h
    · cases h
  · have hlength : accounts.mails.length - s.accounts.mails.length = 1 := by
      rw [hone, List.length_append, List.length_singleton]
      omega
    rw [hlength] at hown
    exact .mailed hpc rfl hnow hgrants hothers hown rfl rfl rfl

theorem signed_move {by_ : Party} {args : SignupArgs} {a : Signup} {accounts : AccountsDb}
    (hpc : mayMail pc = true) (hemail : a.email = call.email) (h : Signed a s.accounts accounts) :
    MailMove (c.mailDigest call.email) s pc
      { s with accounts, log := mailedSince c a.email s.accounts accounts
          ++ startedSince by_ args.password a s.accounts accounts ++ s.log } .done := by
  obtain ⟨hgrants, hothers, hown⟩ := events_of_transaction c a.email s.accounts accounts
    s.log (startedSince_silent by_ args.password a s.accounts accounts)
  rw [h.mails] at hown
  rw [← hemail]
  exact .mailed hpc rfl h.now hgrants hothers hown rfl rfl rfl

theorem claim_move {held : Option UserId} {k k' : ClaimPc}
    (h : claimSignupMail (c.mailDigest call.email) s k = some (s', k')) :
    MailMove (c.mailDigest call.email) s (.claiming since held k) s' (.claiming since held k') := by
  unfold claimSignupMail at h
  dsimp only at h
  split at h
  · rename_i index
    split at h
    · cases h
      refine .quiet rfl (Int.le_refl _) (fun _ => rfl) (fun _ => rfl) (fun _ h => .inl h)
        (fun i hi => ?_) (fun hm => ?_)
      · split at hi <;> cases hi
      · split at hm <;> cases hm
    · rename_i hfree
      cases h
      exact .taken rfl (Bool.eq_false_iff.2 hfree) rfl rfl
  · rename_i index
    split at h
    · cases h
      exact .quiet rfl (Int.le_refl _) (fun _ => rfl) (fun _ => rfl) (fun _ h => .inl h)
        (fun i hi => ⟨hi, rfl⟩) (fun hm => nomatch hm)
    · rename_i hfree
      cases h
      exact .granted rfl (Bool.eq_false_iff.2 hfree) rfl rfl
  · cases h
    exact .released rfl rfl rfl
  · cases h

/-- **What a step does about mails.** -/
theorem SignupMove.mails (h : SignupMove c s call pc s' pc')
    (hemail : ∀ since a, pc = .missed since a → a.email = call.email) :
    MailMove (c.mailDigest call.email) s pc s' pc' := by
  have hsigns : ∀ {by_ : Party} {args : SignupArgs} {a : Signup}, Signs c args pc a
    → call = .start by_ args →
      mayMail pc = true ∧ a.email = call.email := by
    intro by_ args a hs hcall
    subst hcall
    cases hs with
    | drawn since held id code salts => exact ⟨rfl, rfl⟩
    | missed since a => exact ⟨rfl, hemail since a rfl⟩
  cases h with
  | called by_ a =>
    exact .quiet rfl (Int.le_refl _) (fun _ => rfl) (fun _ => rfl)
      (fun _ h => .inr (Option.some.inj h).symm) (fun _ h => nomatch h) (fun h => nomatch h)
  | ignored email =>
    exact .quiet rfl (Int.le_refl _) (fun _ => rfl) (fun _ => rfl) (fun _ h => nomatch h)
      (fun _ h => nomatch h) (fun h => nomatch h)
  | locked _ _ _ =>
    exact .quiet rfl (Int.le_refl _) (fun _ => rfl) (fun _ => rfl)
      (fun _ h => .inr (Option.some.inj h).symm) (fun _ h => nomatch h) (fun h => nomatch h)
  | @confirmed by_ email code _ =>
    obtain ⟨hcache, hnow, hgrants, hmailings⟩ := confirmStep_rest (c := c) (s := s) by_ email code
    have hconfirmed := confirmStep_confirmed c s by_ email code
    generalize confirmStep c s by_ email code = r at hconfirmed hcache hnow hgrants hmailings ⊢
    have hended : since? r.2 = none ∧ slot? r.2 = none ∧ mayMail r.2 = false := by
      cases hconfirmed <;> exact ⟨rfl, rfl, rfl⟩
    refine .quiet hcache (Int.le_of_eq hnow.symm) hgrants hmailings (fun _ h => ?_) (fun _ h => ?_)
      (fun h => ?_)
    · rw [hended.1] at h
      cases h
    · rw [hended.2.1] at h
      cases h
    · rw [hended.2.2] at h
      cases h
  | elapsed time =>
    refine .quiet rfl ?_ (fun _ => rfl) (fun _ => rfl) (fun _ h => nomatch h) (fun _ h => nomatch h)
      (fun h => nomatch h)
    exact Int.le_add_of_nonneg_right (Int.natCast_nonneg time)
  | claimed hclaim => exact claim_move hclaim
  | dropped =>
    exact .quiet rfl (Int.le_refl _) (fun _ => rfl) (fun _ => rfl) (fun _ h => nomatch h)
      (fun _ h => nomatch h) (fun h => nomatch h)
  | missed hs _ =>
    exact .quiet rfl (Int.le_refl _) (fun _ => rfl) (fun _ => rfl) (fun _ h => .inl h)
      (fun _ h => nomatch h) (fun _ => ⟨rfl, rfl⟩)
  | signed hs _ hsigned =>
    obtain ⟨hmay, haddress⟩ := hsigns hs rfl
    exact signed_move hmay haddress hsigned
  | refused _ =>
    exact .quiet rfl (Int.le_refl _) (fun _ => rfl) (fun _ => rfl) (fun _ h => nomatch h)
      (fun _ h => nomatch h) (fun h => nomatch h)
  | resent salts => exact endResend_move rfl _ _ _ _ rfl
  | failed _ =>
    exact .quiet rfl (Int.le_refl _) (fun _ => rfl) (fun _ => rfl) (fun _ h => nomatch h)
      (fun _ h => nomatch h) (fun h => nomatch h)

end Moves

/-! ## What a step keeps of the grants -/

section Keeps

variable {c : SignupSettings} {s s' : SignupDb} {t : SignupThread} {pc' : SignupPc} {d : String}

theorem since_now (h : OneClock s t x) (hs : since? t.pc = some since) :
    since = s.accounts.now := by
  unfold OneClock at h
  unfold since? at hs
  split at hs
  · rename_i hpc
    rw [hpc] at h
    exact (Option.some.inj hs).symm.trans h
  · rename_i hpc
    rw [hpc] at h
    exact (Option.some.inj hs).symm.trans h
  · cases hs

theorem before_gap (time : Time) : time < time + mailGap := Int.lt_add_of_pos_right time (by decide)

theorem before_day (time : Time) : time < time + mailDay := Int.lt_add_of_pos_right time (by decide)

theorem since_of_mayMail {pc : SignupPc} (h : mayMail pc = true) :
    ∃ since, since? pc = some since := by
  unfold mayMail at h
  split at h
  · exact ⟨_, rfl⟩
  · exact ⟨_, rfl⟩
  · cases h

theorem put_other {key' : CacheKey} (h : key' ≠ key) (until_ : Time) :
    cache.put key until_ key' = cache key' := Function.update_of_ne h _ _

theorem delete_other {key' : CacheKey} (h : key' ≠ key) : cache.delete key key' = cache key' :=
  Function.update_of_ne h _ _

theorem has_of_some {now until_ : Time} (h : cache key = some until_) (hlive : now < until_) :
    cache.has now key = true := by
  unfold MailCache.has
  rw [h]
  exact decide_eq_true hlive

theorem grants_cons_self (time : Time) (index : Nat) (log : List SignupEvent) :
    grants digest (.granted digest time index :: log) = (time, index) :: grants digest log :=
  List.filterMap_cons_some (if_pos rfl)

theorem grants_cons_other {digest : String} (h : d ≠ digest) (time : Time) (index : Nat)
    (log : List SignupEvent) :
    grants d (.granted digest time index :: log) = grants d log :=
  List.filterMap_cons_none (if_neg (Ne.symm h))

/-- The newest grant is a gap old where the gap is free, and so are the others. -/
theorem GrantsInv.gap_over (h : GrantsInv s d)
    (hfree : s.cache.has s.accounts.now (.gap d) = false) :
    ∀ g ∈ grants d s.log, g.1 + mailGap ≤ s.accounts.now := by
  have hgap := h.gap
  have hspaced := h.spaced
  revert hgap hspaced
  cases grants d s.log with
  | nil => exact fun _ _ g hg => absurd hg List.not_mem_nil
  | cons g₀ rest =>
    intro hgap hspaced g hg
    have hnewest : g₀.1 + mailGap ≤ s.accounts.now := by
      by_contra hlive
      have hhas := has_of_some (hgap g₀ rfl) (Int.not_le.1 hlive)
      rw [hfree] at hhas
      cases hhas
    rcases List.mem_cons.1 hg with rfl | hold
    · exact hnewest
    · have hbefore : g.1 + mailGap ≤ g₀.1 := (List.pairwise_cons.1 hspaced).1 g hold
      exact Int.le_trans hbefore (Int.le_trans (Int.le_of_lt (before_gap g₀.1)) hnewest)

theorem GrantsInv.quiet (h : GrantsInv s d) (hcache : s'.cache = s.cache)
    (hnow : s.accounts.now ≤ s'.accounts.now) (hgrants : grants d s'.log = grants d s.log)
    (hmailings : mailings d s'.log = mailings d s.log) :
    GrantsInv s' d where
  past g hg := Int.le_trans (h.past g (hgrants ▸ hg)) hnow
  gap g hg := by
    rw [hcache]
    exact h.gap g (hgrants ▸ hg)
  spaced := hgrants ▸ h.spaced
  apart := hgrants ▸ h.apart
  bound g hg := h.bound g (hgrants ▸ hg)
  taken g hg hlive := by
    rw [hcache]
    exact h.taken g (hgrants ▸ hg) (Int.lt_of_le_of_lt hnow hlive)
  nodup := hmailings ▸ h.nodup
  granted τ hτ := by
    rw [hgrants]
    exact h.granted τ (hmailings ▸ hτ)

/-- A change of a slot that no grant has. -/
theorem GrantsInv.slot (h : GrantsInv s d) (digest : String) (index : Nat) (value : Option Time)
    (hfree : d = digest → ∀ g ∈ grants d s.log, s.accounts.now < g.1 + mailDay → g.2 ≠ index) :
    GrantsInv { s with cache := Function.update s.cache (.day digest index) value } d where
  past := h.past
  gap g hg := by
    have hkey : CacheKey.gap d ≠ .day digest index := fun heq => nomatch heq
    exact (Function.update_of_ne hkey value s.cache).trans (h.gap g hg)
  spaced := h.spaced
  apart := h.apart
  bound := h.bound
  taken g hg hlive := by
    have hkey : CacheKey.day d g.2 ≠ .day digest index := by
      intro heq
      obtain ⟨hd, hindex⟩ := CacheKey.day.inj heq
      exact hfree hd g hg hlive hindex
    exact (Function.update_of_ne hkey value s.cache).trans (h.taken g hg hlive)
  nodup := h.nodup
  granted := h.granted

/-- A grant. -/
theorem GrantsInv.grant (h : GrantsInv s d) (hfree : s.cache.has s.accounts.now (.gap d) = false)
    (hbound : index < mailDayMax)
    (hslot : s.cache (.day d index) = some (s.accounts.now + mailDay))
    (hother : ∀ g ∈ grants d s.log, s.accounts.now < g.1 + mailDay → g.2 ≠ index) :
    GrantsInv { s with cache := s.cache.put (.gap d) (s.accounts.now + mailGap),
                       log := .granted d s.accounts.now index :: s.log } d := by
  have hcons := grants_cons_self d s.accounts.now index s.log
  have hover := h.gap_over hfree
  have hday : ∀ i, s.cache.put (.gap d) (s.accounts.now + mailGap) (.day d i)
      = s.cache (.day d i) := by
    intro i
    have hkey : CacheKey.day d i ≠ .gap d := fun heq => nomatch heq
    exact Function.update_of_ne hkey _ _
  constructor
  · intro g hg
    rw [hcons] at hg
    rcases List.mem_cons.1 hg with rfl | hold
    · exact Int.le_refl _
    · exact h.past g hold
  · intro g hg
    rw [hcons] at hg
    obtain rfl : (s.accounts.now, index) = g := Option.some.inj hg
    exact Function.update_self _ _ _
  · rw [hcons]
    exact List.pairwise_cons.2 ⟨hover, h.spaced⟩
  · rw [hcons]
    refine List.pairwise_cons.2 ⟨fun g hg hlive => ?_, h.apart⟩
    exact Ne.symm (hother g hg hlive)
  · intro g hg
    rw [hcons] at hg
    rcases List.mem_cons.1 hg with rfl | hold
    · exact hbound
    · exact h.bound g hold
  · intro g hg hlive
    rw [hcons] at hg
    refine (hday g.2).trans ?_
    rcases List.mem_cons.1 hg with rfl | hold
    · exact hslot
    · exact h.taken g hold hlive
  · exact h.nodup
  · intro τ hτ
    obtain ⟨g, hg, rfl⟩ := h.granted τ hτ
    refine ⟨g, ?_, rfl⟩
    rw [hcons]
    exact List.mem_cons_of_mem _ hg

/-- A grant for another address. -/
theorem GrantsInv.grant_other {digest : String} (h : GrantsInv s d) (hd : d ≠ digest) :
    GrantsInv { s with cache := s.cache.put (.gap digest) (s.accounts.now + mailGap),
                       log := .granted digest s.accounts.now index :: s.log } d := by
  have hsame := grants_cons_other hd s.accounts.now index s.log
  have hcache : ∀ key, key ≠ CacheKey.gap digest →
      s.cache.put (.gap digest) (s.accounts.now + mailGap) key = s.cache key :=
    fun key hkey => Function.update_of_ne hkey _ _
  constructor
  · intro g hg
    exact h.past g (hsame ▸ hg)
  · intro g hg
    have hkey : CacheKey.gap d ≠ .gap digest := fun heq => hd (CacheKey.gap.inj heq)
    exact (hcache _ hkey).trans (h.gap g (hsame ▸ hg))
  · exact hsame ▸ h.spaced
  · exact hsame ▸ h.apart
  · intro g hg
    exact h.bound g (hsame ▸ hg)
  · intro g hg hlive
    have hkey : CacheKey.day d g.2 ≠ .gap digest := fun heq => nomatch heq
    exact (hcache _ hkey).trans (h.taken g (hsame ▸ hg) hlive)
  · exact h.nodup
  · intro τ hτ
    rw [hsame]
    exact h.granted τ hτ

/-- A mail at a time of a grant, the first of its time. -/
theorem GrantsInv.mail (h : GrantsInv s d) (hcache : s'.cache = s.cache)
    (hnow : s'.accounts.now = s.accounts.now) (hgrants : grants d s'.log = grants d s.log)
    (hmailings : mailings d s'.log = s.accounts.now :: mailings d s.log)
    (hgranted : ∃ g ∈ grants d s.log, g.1 = s.accounts.now)
    (hfirst : s.accounts.now ∉ mailings d s.log) :
    GrantsInv s' d where
  past g hg := by
    rw [hnow]
    exact h.past g (hgrants ▸ hg)
  gap g hg := by
    rw [hcache]
    exact h.gap g (hgrants ▸ hg)
  spaced := hgrants ▸ h.spaced
  apart := hgrants ▸ h.apart
  bound g hg := h.bound g (hgrants ▸ hg)
  taken g hg hlive := by
    rw [hcache]
    exact h.taken g (hgrants ▸ hg) (hnow ▸ hlive)
  nodup := by
    rw [hmailings]
    exact List.nodup_cons.2 ⟨hfirst, h.nodup⟩
  granted τ hτ := by
    rw [hmailings] at hτ
    rw [hgrants]
    rcases List.mem_cons.1 hτ with rfl | hold
    · exact hgranted
    · exact h.granted τ hold

/-- A slot that is not in the cache is no grant's. -/
theorem GrantsInv.unheld (h : GrantsInv s d)
    (hfree : s.cache.has s.accounts.now (.day d index) = false) :
    ∀ g ∈ grants d s.log, s.accounts.now < g.1 + mailDay → g.2 ≠ index := by
  intro g hg hlive heq
  have hhas := has_of_some (h.taken g hg hlive) hlive
  rw [heq, hfree] at hhas
  cases hhas

theorem GrantsInv.step (h : ∀ d, GrantsInv s d) (ht : ClaimInv c s t) (hone : OneClock s t x)
    (hmove : MailMove (digestOf c t) s t.pc s' pc') (d : String) : GrantsInv s' d := by
  cases hmove with
  | quiet hcache hnow hgrants hmailings _ _ _ =>
      exact (h d).quiet hcache hnow (hgrants d) (hmailings d)
  | @taken since held index hpc hfree hs' hpc' =>
    subst hs'
    refine (h d).slot _ index _ ?_
    rintro rfl
    exact (h _).unheld hfree
  | @granted since held index hpc hfree hs' hpc' =>
    subst hs'
    by_cases hd : d = digestOf c t
    · subst hd
      have hsince : since? t.pc = some since := by rw [hpc]; rfl
      have hslot : slot? t.pc = some index := by rw [hpc]; rfl
      rw [since_now hone hsince] at hsince
      obtain ⟨hbound, hcache, hother⟩ := ht.slot hsince index hslot
      exact (h _).grant hfree hbound hcache hother
    · exact (h d).grant_other hd
  | @released since held index hpc hs' hpc' =>
    subst hs'
    refine (h d).slot _ index none ?_
    rintro rfl
    have hsince : since? t.pc = some since := by rw [hpc]; rfl
    have hslot : slot? t.pc = some index := by rw [hpc]; rfl
    rw [since_now hone hsince] at hsince
    exact (ht.slot hsince index hslot).2.2
  | mailed hmay hcache hnow hgrants hothers hown _ _ _ =>
    by_cases hd : d = digestOf c t
    · subst hd
      obtain ⟨since, hsince⟩ := since_of_mayMail hmay
      rw [since_now hone hsince] at hsince
      obtain ⟨hgranted, hfirst⟩ := ht.mail hsince hmay
      exact (h _).mail hcache hnow (hgrants _) hown hgranted hfirst
    · exact (h d).quiet hcache (Int.le_of_eq hnow.symm) (hgrants d) (hothers d hd)

/-! ## What a step keeps of the calls -/

theorem SignupMove.tries {call : SignupCall} {pc : SignupPc} (h : SignupMove c s call pc s' pc')
    {held : Option UserId} (hpc : pc' = .claiming since held (.day index)) :
    index < mailDayMax := by
  cases h with
  | called _ _ =>
    cases hpc
    decide
  | locked _ _ _ =>
    cases hpc
    decide
  | @confirmed by_ email code _ =>
    have hconfirmed := confirmStep_confirmed c s by_ email code
    generalize confirmStep c s by_ email code = r at hconfirmed hpc
    cases hconfirmed <;> cases hpc
  | claimed hclaim =>
    cases hpc
    unfold claimSignupMail at hclaim
    dsimp only at hclaim
    split at hclaim
    · rename_i tried
      split at hclaim
      · by_cases hnext : tried + 1 < mailDayMax
        · rw [if_pos hnext] at hclaim
          cases hclaim
          exact hnext
        · rw [if_neg hnext] at hclaim
          cases hclaim
      · cases hclaim
    · split at hclaim <;> cases hclaim
    · cases hclaim
    · cases hclaim
  | _ => cases hpc

theorem SignupMove.email {call : SignupCall} {pc : SignupPc} (h : SignupMove c s call pc s' pc')
    {a : Signup} (hpc : pc' = .missed since a) : a.email = call.email := by
  cases h with
  | @confirmed by_ email code _ =>
    have hconfirmed := confirmStep_confirmed c s by_ email code
    generalize confirmStep c s by_ email code = r at hconfirmed hpc
    cases hconfirmed <;> cases hpc
  | missed hs _ =>
    cases hpc
    cases hs
    rfl
  | _ => cases hpc

theorem MailMove.now_le {digest : String} {pc : SignupPc} (h : MailMove digest s pc s' pc') :
    s.accounts.now ≤ s'.accounts.now := by
  cases h with
  | quiet _ hnow _ _ _ _ _ => exact hnow
  | taken _ _ hs' _ => rw [hs']
  | granted _ _ hs' _ => rw [hs']
  | released _ hs' _ => rw [hs']
  | mailed _ _ hnow _ _ _ _ _ _ => rw [hnow]

/-- The times of grants are a gap old where the gap is free. -/
theorem GrantsInv.not_now (h : GrantsInv s d)
    (hfree : s.cache.has s.accounts.now (.gap d) = false) :
    ¬ ∃ g ∈ grants d s.log, g.1 = s.accounts.now := by
  rintro ⟨g, hg, hnow⟩
  have hover := h.gap_over hfree g hg
  rw [hnow] at hover
  exact absurd hover (Int.not_le.2 (before_gap s.accounts.now))

/-- A call after its own step. -/
theorem ClaimInv.step (h : GrantsInv s (digestOf c t)) (ht : ClaimInv c s t) (hone : OneClock s t x)
    (hmove : SignupMove c s t.call t.pc s' pc') : ClaimInv c s' { t with pc := pc' } := by
  have hmails := hmove.mails ht.email
  refine ⟨?_, fun since held index hpc => hmove.tries hpc, ?_, ?_,
    fun since a hpc => hmove.email hpc⟩
  · intro since hsince
    have hsince' : since? pc' = some since := hsince
    have hle : since ≤ s.accounts.now := by
      cases hmails with
      | quiet _ _ _ _ hclock _ _ =>
        rcases hclock since hsince' with hold | hnew
        · exact ht.past since hold
        · exact Int.le_of_eq hnew
      | taken hpc _ _ hpc' => exact ht.past since (by rw [hpc]; rw [hpc'] at hsince'; exact hsince')
      | granted hpc _ _ hpc' =>
          exact ht.past since (by rw [hpc]; rw [hpc'] at hsince'; exact hsince')
      | released hpc _ hpc' =>
          exact ht.past since (by rw [hpc]; rw [hpc'] at hsince'; exact hsince')
      | mailed _ _ _ _ _ _ hended _ _ =>
        rw [hended] at hsince'
        cases hsince'
    exact Int.le_trans hle hmails.now_le
  · intro hsince index hslot
    have hsince' : since? pc' = some s'.accounts.now := hsince
    have hslot' : slot? pc' = some index := hslot
    cases hmails with
    | quiet hcache _ hgrants _ _ hslots _ =>
      obtain ⟨hold, hclock⟩ := hslots index hslot'
      rw [hclock] at hsince'
      have hnow := since_now hone hsince'
      rw [hnow] at hsince' ⊢
      obtain ⟨hbound, htaken, hother⟩ := ht.slot hsince' index hold
      refine ⟨hbound, ?_, ?_⟩
      · rw [hcache]
        exact htaken
      · intro g hg
        exact hother g ((hgrants _) ▸ hg)
    | @taken since held i hpc hfree hs' hpc' =>
      subst hs'
      rw [hpc'] at hslot'
      cases hslot'
      exact ⟨ht.tries since held index hpc, Function.update_self _ _ _, h.unheld hfree⟩
    | granted _ _ _ hpc' =>
      rw [hpc'] at hslot'
      cases hslot'
    | released _ _ hpc' =>
      rw [hpc'] at hslot'
      cases hslot'
    | mailed _ _ _ _ _ _ _ hended _ =>
      rw [hended] at hslot'
      cases hslot'
  · intro hsince hmay
    have hsince' : since? pc' = some s'.accounts.now := hsince
    have hmay' : mayMail pc' = true := hmay
    cases hmails with
    | quiet _ _ hgrants hmailings _ _ hmays =>
      obtain ⟨hold, hclock⟩ := hmays hmay'
      rw [hclock] at hsince'
      have hnow := since_now hone hsince'
      rw [hnow] at hsince' ⊢
      have hmail := ht.mail hsince' hold
      rw [hmailings, hgrants]
      exact hmail
    | taken _ _ _ hpc' =>
      rw [hpc'] at hmay'
      cases hmay'
    | @granted since held i hpc hfree hs' hpc' =>
      subst hs'
      refine ⟨⟨(s.accounts.now, i), ?_, rfl⟩, ?_⟩
      · show (s.accounts.now, i) ∈ grants (digestOf c t)
          (.granted (digestOf c t) s.accounts.now i :: s.log)
        rw [grants_cons_self]
        exact List.mem_cons_self
      · exact fun hsent => h.not_now hfree (h.granted _ hsent)
    | released _ _ hpc' =>
      rw [hpc'] at hmay'
      cases hmay'
    | mailed _ _ _ _ _ _ _ _ hended =>
      rw [hended] at hmay'
      cases hmay'

/-- A call after the step of another. -/
theorem ClaimInv.frame {u : SignupThread} (hone : OneClock s t x)
    (hmove : MailMove (digestOf c t) s t.pc s' pc') (hu : ClaimInv c s u)
    (happart : ClaimsApart c t u) : ClaimInv c s' u := by
  refine ⟨fun since hsince => Int.le_trans (hu.past since hsince) hmove.now_le, hu.tries, ?_,
    ?_, hu.email⟩
  · intro hsince index hslot
    -- a claim of now was one of now before the step
    have hnow : s'.accounts.now = s.accounts.now := Int.le_antisymm (hu.past _ hsince) hmove.now_le
    rw [hnow] at hsince ⊢
    obtain ⟨hbound, htaken, hother⟩ := hu.slot hsince index hslot
    refine ⟨hbound, ?_⟩
    cases hmove with
    | quiet hcache _ hgrants _ _ _ _ =>
      rw [hcache, hgrants]
      exact ⟨htaken, hother⟩
    | @taken since held i hpc hfree hs' hpc' =>
      have hkey : CacheKey.day (digestOf c u) index ≠ .day (digestOf c t) i := by
        intro heq
        have hhas := has_of_some htaken (before_day s.accounts.now)
        rw [heq, hfree] at hhas
        cases hhas
      have hcache : s'.cache = s.cache.put (.day (digestOf c t) i) (s.accounts.now + mailDay) := by
        rw [hs']
      have hkeep : s'.cache (.day (digestOf c u) index) = s.cache (.day (digestOf c u) index) := by
        rw [hcache, put_other hkey]
      have hlog : s'.log = s.log := by rw [hs']
      rw [hkeep, hlog]
      exact ⟨htaken, hother⟩
    | @granted since held i hpc hfree hs' hpc' =>
      have hkey : CacheKey.day (digestOf c u) index ≠ .gap (digestOf c t) := fun heq => nomatch heq
      have hcache : s'.cache = s.cache.put (.gap (digestOf c t)) (s.accounts.now + mailGap) := by
        rw [hs']
      have hkeep : s'.cache (.day (digestOf c u) index) = s.cache (.day (digestOf c u) index) := by
        rw [hcache, put_other hkey]
      have hlog : s'.log = .granted (digestOf c t) s.accounts.now i :: s.log := by rw [hs']
      rw [hkeep, hlog]
      refine ⟨htaken, ?_⟩
      by_cases hd : digestOf c u = digestOf c t
      · have ht' : since? t.pc = some since := by rw [hpc]; rfl
        have hi : slot? t.pc = some i := by rw [hpc]; rfl
        rw [since_now hone ht'] at ht'
        have hdiffer := (happart hd.symm _ ht' hsince).1 i hi
        intro g hg hlive
        rw [hd] at hg hother
        rw [grants_cons_self] at hg
        rcases List.mem_cons.1 hg with rfl | hold
        · intro heq
          rw [← heq] at hslot
          exact hdiffer hslot
        · exact hother g hold hlive
      · rw [grants_cons_other hd]
        exact hother
    | @released since held i hpc hs' hpc' =>
      have hkey : CacheKey.day (digestOf c u) index ≠ .day (digestOf c t) i := by
        intro heq
        obtain ⟨hd, rfl⟩ := CacheKey.day.inj heq
        have ht' : since? t.pc = some since := by rw [hpc]; rfl
        have hi : slot? t.pc = some index := by rw [hpc]; rfl
        rw [since_now hone ht'] at ht'
        exact (happart hd.symm _ ht' hsince).1 index hi hslot
      have hcache : s'.cache = s.cache.delete (.day (digestOf c t) i) := by rw [hs']
      have hkeep : s'.cache (.day (digestOf c u) index) = s.cache (.day (digestOf c u) index) := by
        rw [hcache, delete_other hkey]
      have hlog : s'.log = s.log := by rw [hs']
      rw [hkeep, hlog]
      exact ⟨htaken, hother⟩
    | mailed _ hcache _ hgrants _ _ _ _ _ =>
      rw [hcache, hgrants]
      exact ⟨htaken, hother⟩
  · intro hsince hmay
    have hnow : s'.accounts.now = s.accounts.now := Int.le_antisymm (hu.past _ hsince) hmove.now_le
    rw [hnow] at hsince ⊢
    have hmail := hu.mail hsince hmay
    cases hmove with
    | quiet _ _ hgrants hmailings _ _ _ =>
      rw [hgrants, hmailings]
      exact hmail
    | taken _ _ hs' _ =>
      have hlog : s'.log = s.log := by rw [hs']
      rw [hlog]
      exact hmail
    | @granted since held i hpc hfree hs' hpc' =>
      have hlog : s'.log = .granted (digestOf c t) s.accounts.now i :: s.log := by rw [hs']
      rw [hlog]
      obtain ⟨⟨g, hg, hgnow⟩, hunsent⟩ := hmail
      refine ⟨⟨g, ?_, hgnow⟩, hunsent⟩
      by_cases hd : digestOf c u = digestOf c t
      · rw [hd] at hg ⊢
        rw [grants_cons_self]
        exact List.mem_cons_of_mem _ hg
      · rw [grants_cons_other hd]
        exact hg
    | released _ hs' _ =>
      have hlog : s'.log = s.log := by rw [hs']
      rw [hlog]
      exact hmail
    | mailed hmay' _ _ hgrants hothers hown _ _ _ =>
      rw [hgrants]
      by_cases hd : digestOf c u = digestOf c t
      · obtain ⟨since, ht'⟩ := since_of_mayMail hmay'
        rw [since_now hone ht'] at ht'
        exact absurd ⟨hmay', hmay⟩ (happart hd.symm _ ht' hsince).2
      · rw [hothers _ hd]
        exact hmail

/-- Two calls stay apart. -/
theorem ClaimsApart.step {u : SignupThread} (h : GrantsInv s (digestOf c t))
    (hone : OneClock s t x) (hmove : MailMove (digestOf c t) s t.pc s' pc') (hu : ClaimInv c s u)
    (happart : ClaimsApart c t u) : ClaimsApart c { t with pc := pc' } u := by
  intro hd since hsince hsinceu
  have hd' : digestOf c t = digestOf c u := hd
  have hsince' : since? pc' = some since := hsince
  cases hmove with
  | quiet _ _ _ _ _ hslots hmays =>
    refine ⟨fun index hslot => ?_, fun hboth => ?_⟩
    · obtain ⟨hold, hclock⟩ := hslots index hslot
      exact (happart hd' since (hclock ▸ hsince') hsinceu).1 index hold
    · obtain ⟨hold, hclock⟩ := hmays hboth.1
      exact (happart hd' since (hclock ▸ hsince') hsinceu).2 ⟨hold, hboth.2⟩
  | @taken since₀ held i hpc hfree hs' hpc' =>
    rw [hpc'] at hsince'
    have ht' : since? t.pc = some since := by rw [hpc]; exact hsince'
    obtain rfl := since_now hone ht'
    refine ⟨fun index hslot => ?_, fun hboth => ?_⟩
    · have hslot' : slot? pc' = some index := hslot
      rw [hpc'] at hslot'
      cases hslot'
      intro hslotu
      have htaken := (hu.slot hsinceu i hslotu).2.1
      have hhas := has_of_some htaken (before_day s.accounts.now)
      rw [← hd', hfree] at hhas
      cases hhas
    · have hmay : mayMail pc' = true := hboth.1
      rw [hpc'] at hmay
      cases hmay
  | @granted since₀ held i hpc hfree hs' hpc' =>
    rw [hpc'] at hsince'
    have ht' : since? t.pc = some since := by rw [hpc]; exact hsince'
    obtain rfl := since_now hone ht'
    refine ⟨fun index hslot => ?_, fun hboth => ?_⟩
    · have hslot' : slot? pc' = some index := hslot
      rw [hpc'] at hslot'
      cases hslot'
    · have hgranted := (hu.mail hsinceu hboth.2).1
      rw [← hd'] at hgranted
      exact h.not_now hfree hgranted
  | released _ _ hpc' =>
    refine ⟨fun index hslot => ?_, fun hboth => ?_⟩
    · have hslot' : slot? pc' = some index := hslot
      rw [hpc'] at hslot'
      cases hslot'
    · have hmay : mayMail pc' = true := hboth.1
      rw [hpc'] at hmay
      cases hmay
  | mailed _ _ _ _ _ _ hended _ _ =>
    rw [hended] at hsince'
    cases hsince'

end Keeps

/-! ## Every run -/

/-- Nothing is recorded yet; whatever is in the database and the cache. -/
def Unlogged (s : SignupDb) : Prop := s.log = []

theorem mails_invariant (c : SignupSettings) :
    Invariant (signupProgram c) Unlogged OneClock (fun s => ∀ d, GrantsInv s d) (ClaimInv c)
      (ClaimsApart c) where
  init {s} h d := by
    have hgrants : grants d s.log = [] := by rw [show s.log = [] from h]; rfl
    have hmailings : mailings d s.log = [] := by rw [show s.log = [] from h]; rfl
    refine ⟨?_, ?_, ?_, ?_, ?_, ?_, ?_, ?_⟩
    · rw [hgrants]
      exact fun g hg => absurd hg List.not_mem_nil
    · rw [hgrants]
      exact fun g hg => nomatch hg
    · rw [hgrants]
      exact .nil
    · rw [hgrants]
      exact .nil
    · rw [hgrants]
      exact fun g hg => absurd hg List.not_mem_nil
    · rw [hgrants]
      exact fun g hg => absurd hg List.not_mem_nil
    · rw [hmailings]
      exact .nil
    · rw [hmailings]
      exact fun τ hτ => absurd hτ List.not_mem_nil
  start k _ :=
    ⟨fun _ h => (nomatch h), fun _ _ _ h => (nomatch h), fun h => (nomatch h), fun h => (nomatch h),
    fun _ _ h => (nomatch h)⟩
  apart_start k t _ _ h := nomatch h
  symm {t u} h hd since hu ht := by
    obtain ⟨hslots, hmays⟩ := h hd.symm since ht hu
    exact ⟨fun index hi hi' => hslots index hi' hi, fun hboth => hmays ⟨hboth.2, hboth.1⟩⟩
  step {s t x s' t'} hs ht hone h := by
    obtain ⟨hcall, hmove⟩ := signupStep_move h
    obtain ⟨call, pc'⟩ := t'
    cases hcall
    exact ⟨GrantsInv.step hs ht hone (hmove.mails ht.email), ht.step (hs _) hone hmove⟩
  frame {s t x s' t' u} hs ht hone h hu happart := by
    obtain ⟨hcall, hmove⟩ := signupStep_move h
    obtain ⟨call, pc'⟩ := t'
    cases hcall
    exact ⟨hu.frame hone (hmove.mails ht.email) happart,
      happart.step (hs _) hone (hmove.mails ht.email) hu⟩

/-- What may go out to an address: ten minutes hold one of a list of times, and a day ten. -/
def WithinLimits {α : Type} (time : α → Time) (xs : List α) : Prop :=
  ∀ t, (within time t mailGap xs).length ≤ 1 ∧ (within time t mailDay xs).length ≤ mailDayMax

/--
**Signup mails are limited.**

However sign-ups and resends for an address are interleaved, each claim seeing one clock,
ten minutes never hold two answers `True` of `claim_signup_mail` and a day never eleven; and
no more mails go out.
-/
theorem signup_mails_limited (c : SignupSettings) {g : Config SignupDb SignupThread}
    (h : (signupProgram c).ReachWhere Unlogged OneClock g) (digest : String) :
    WithinLimits Prod.fst (grants digest g.store.log)
      ∧ WithinLimits id (mailings digest g.store.log) := by
  have hinv := ((mails_invariant c).reach h).store digest
  have hgrants : WithinLimits Prod.fst (grants digest g.store.log) := fun t =>
    ⟨within_spaced hinv.spaced t, within_slots hinv.apart hinv.bound t⟩
  refine ⟨hgrants, fun t => ?_⟩
  have hnodup : ((mailings digest g.store.log).map id).Nodup := by
    rw [List.map_id]
    exact hinv.nodup
  have hfewer : ∀ w, (within id t w (mailings digest g.store.log)).length
      ≤ (within Prod.fst t w (grants digest g.store.log)).length :=
    fun w => within_of_times hnodup hinv.granted t w
  exact ⟨Nat.le_trans (hfewer mailGap) (hgrants t).1, Nat.le_trans (hfewer mailDay) (hgrants t).2⟩

theorem unlogged_noSignups : Unlogged noSignups := rfl

/-- Bob signs up twice at once, and has a new code sent ten minutes later. -/
def bobAsksAgain : List (Act SignupCall SignupInput) :=
  [.call 0 (.start .owner (bobSignup "Owner-pass1")),
    .call 1 (.start .other (bobSignup "Other-pass1")),
    .tick 1 .go, .tick 1 .go,
      .tick 0 .go] ++ signsUp 0 "1234" ++ [.tick 1 .go, .tick 1 .go, .tick 1 .go,
    .call 2 (.elapse 600000000), .tick 2 .go, .call 3 (.resend "bob@example.org"), .tick 3 .go,
      .tick 3 .go,
    .tick 3 .go, .tick 3 (.draw 0 "5678" (fun _ => 0))]

theorem signup_mails_limited_bob : ∃ g : Config SignupDb SignupThread,
    (grants "bob@example.org" g.store.log).length = 2
      ∧ (mailings "bob@example.org" g.store.log).length = 2
      ∧ WithinLimits Prod.fst (grants "bob@example.org" g.store.log)
      ∧ WithinLimits id (mailings "bob@example.org" g.store.log) := by
  have hrun : ∃ g, (signupProgram signupSettings).ReachWhere Unlogged OneClock g
      ∧ decide ((grants "bob@example.org" g.store.log).length = 2
        ∧ (mailings "bob@example.org" g.store.log).length = 2) = true :=
    Program.reachWhere_check (P := signupProgram signupSettings)
      (fun s t x => decide (OneClock s t x)) (fun _ _ _ h => of_decide_eq_true h)
      unlogged_noSignups bobAsksAgain
      (fun g => (grants "bob@example.org" g.store.log).length = 2
        ∧ (mailings "bob@example.org" g.store.log).length = 2) (by decide)
  obtain ⟨g, hg, hcheck⟩ := hrun
  obtain ⟨hgrants, hmails⟩ := of_decide_eq_true hcheck
  exact ⟨g, hgrants, hmails, signup_mails_limited signupSettings hg "bob@example.org"⟩

end Roamkit.Accounts.Proof
