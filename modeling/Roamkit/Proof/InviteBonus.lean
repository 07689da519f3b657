import Roamkit.Lib.Fields
import Roamkit.Proof.SelfReferral

/-!
# Registration bonuses

A registration by an invite with a bonus credits it in the transaction that inserts the
attribution. The key of the entry is the user, who has one attribution at most, so no
credit is ever a replay; and nothing removes an attribution or an entry.
-/

namespace Roamkit.Partner.Proof

open Lib Billing Organizations Partner Billing.Proof

/-- The bonus an attribution is owed, of a positive number of millionths. -/
def Owed (a : CustomerAttribution) (n : Nat) : Prop :=
  a.registeredViaInvite = true ∧ a.bonusAmountSnapshot = some n ∧ 0 < n

/-- The entry is the bonus of the attribution. -/
structure IsBonus (accounts : Table AccountIdentity) (a : CustomerAttribution) (n : Nat)
    (e : CreditLedgerEntry) :
    Prop where
  key : e.idempotencyKey = bonusKey a.user
  kind : e.referenceType = .partnerInviteBonus
  reference : e.referenceId = a.id.str
  delta : e.delta = n
  /-- It is on the personal account of the user. -/
  account : ∃ account ∈ accounts, account.id = e.account ∧ account.user = some a.user
    ∧ account.kind = .personal

/-- An entry that says that it is a bonus. -/
def ClaimsBonus (referenceType : LedgerReferenceType) (key : String) : Prop :=
  referenceType = .partnerInviteBonus ∨ ∃ user, key = bonusKey user

/-- No other service posts a bonus. -/
def NoForeignBonus (_ : ReferralDb) (t : ReferralThread) (_ : ReferralInput) : Prop :=
  ∀ p, t.call = .post p → ¬ ClaimsBonus p.referenceType p.idempotencyKey

/-- Nobody is attributed, and no bonus was paid. -/
structure NoBonuses (s : ReferralDb) : Prop where
  attributions : s.attributions = .empty
  entries : ∀ e ∈ s.books.entries, ¬ ClaimsBonus e.referenceType e.idempotencyKey
  personal : ∀ account ∈ s.accounts, account.user.isSome = true → account.kind = .personal

structure BonusInv (s : ReferralDb) : Prop where
  /-- What is owed is paid. -/
  paid : ∀ a ∈ s.attributions, ∀ n, Owed a n → ∃ e ∈ s.books.entries, IsBonus s.accounts a n e
  /-- What is paid is owed. -/
  owed : ∀ e ∈ s.books.entries, ClaimsBonus e.referenceType e.idempotencyKey →
    ∃ a ∈ s.attributions, ∃ n, Owed a n ∧ IsBonus s.accounts a n e
  personal : ∀ account ∈ s.accounts, account.user.isSome = true → account.kind = .personal

/-! ## What a step does to attributions, accounts and entries -/

/-- The tables a bonus is about, after a step. -/
inductive BonusMove (s : ReferralDb) (t : ReferralThread) (s₁ : ReferralDb) : Prop
  | same : s₁.attributions = s.attributions → s₁.accounts = s.accounts →
      s₁.books.entries = s.books.entries → BonusMove s t s₁
  | opens {account : AccountIdentity} : s.accounts.insert? account = some s₁.accounts →
      (account.user.isSome = true → account.kind = .personal) → s₁.attributions = s.attributions →
      s₁.books.entries = s.books.entries → BonusMove s t s₁
  | attributes {k : AttributionCall} {a : NewAttribution} {pending : Option Uuid} {v : ReferralView}
      {ans : ReferralAnswer} :
      t.call = .attribution k → t.pc = .inserting a pending
        → insertAttribution s a pending v = .ok (s₁, ans) →
      BonusMove s t s₁
  | moves {a : CustomerAttribution} {channel : Uuid} : s₁ = (moveAttribution s a channel).1
      → BonusMove s t s₁
  | posts {p : Posting} {e : CreditLedgerEntry} : t.call = .post p
      → s.books.apply p = .ok (s₁.books, e) →
      s₁.attributions = s.attributions → s₁.accounts = s.accounts → BonusMove s t s₁

variable {a : CustomerAttribution} {n : Nat} {channel : Uuid}

section Moves

variable {c : ReferralSettings} {s s' s₁ : ReferralDb} {t t' : ReferralThread}

theorem createOrganization_accounts {name : String} {actor : UserId} {status : OrganizationStatus}
    {uuid : Nat → Uuid} {a : ReferralAnswer}
    (h : createOrganization s name actor status uuid = .ok (s₁, a)) :
    s.accounts.insert? ⟨uuid 1, none, .organization⟩ = some s₁.accounts
      ∧ s₁.attributions = s.attributions ∧ s₁.books.entries = s.books.entries := by
  unfold createOrganization at h
  dsimp only at h
  split at h
  · cases h
  split at h
  · cases h
  split at h
  · rename_i haccounts _ _ _
    cases h
    exact ⟨haccounts, rfl, rfl⟩
  · cases h

theorem registerPerson_accounts {p : Person} {account : Uuid} {a : ReferralAnswer}
    (h : registerPerson s p account = .ok (s₁, a)) :
    s.accounts.insert? ⟨account, some p.id, .personal⟩ = some s₁.accounts
      ∧ s₁.attributions = s.attributions ∧ s₁.books.entries = s.books.entries := by
  unfold registerPerson at h
  split at h
  · rename_i haccounts _
    cases h
    exact ⟨haccounts, rfl, rfl⟩
  · cases h

theorem saveMembershipRow_bonus {id : Uuid} {f : Membership → Membership}
    (h : saveMembershipRow s id f = .ok s₁) : BonusMove s t s₁ := by
  obtain ⟨_, _, rfl⟩ := saveMembershipRow_cases h
  exact .same rfl rfl rfl

theorem write_bonus (hw : ReferralWrite c s t x s₁) : BonusMove s t s₁ := by
  cases hw with
  | stays => exact .same rfl rfl rfl
  | creates h =>
    obtain ⟨haccounts, hattributions, hentries⟩ := createOrganization_accounts h
    exact .opens haccounts (fun hsome => by cases hsome) hattributions hentries
  | setsStatus => exact .same rfl rfl rfl
  | promotes _ _ _ h =>
    rcases promote_cases h with rfl | ⟨_, s₂, _, _, _, _, h₂, h₃⟩
    · exact .same rfl rfl rfl
    · obtain ⟨_, _, rfl⟩ := saveMembershipRow_cases h₂
      obtain ⟨_, _, rfl⟩ := saveMembershipRow_cases h₃
      exact .same rfl rfl rfl
  | setsRole _ _ h =>
    obtain ⟨_, _, _, _, _, hs⟩ := setRole_cases h
    exact saveMembershipRow_bonus hs
  | revokes _ _ h =>
    rcases revoke_cases h with rfl | ⟨_, _, _, hs⟩
    · exact .same rfl rfl rfl
    · exact saveMembershipRow_bonus hs
  | writesInvite _ _ _ hi =>
    obtain ⟨_, rfl⟩ := writeInvite_cases hi
    exact .same rfl rfl rfl
  | revokesInvite _ hi =>
    obtain ⟨_, rfl⟩ := revokeInvite_cases hi
    exact .same rfl rfl rfl
  | expires _ _ =>
    obtain ⟨_, hexpired⟩ := expire_cases s _
    rw [hexpired]
    exact .same rfl rfl rfl
  | accepts _ _ _ => exact .same rfl rfl rfl
  | joins _ _ _ => exact .same rfl rfl rfl
  | rejoins _ _ _ _ h =>
    obtain ⟨_, _, rfl⟩ := saveMembershipRow_cases h
    exact .same rfl rfl rfl
  | saves _ _ h =>
    obtain ⟨_, rfl⟩ := saveForms_cases h
    exact .same rfl rfl rfl
  | records _ _ _ => exact .same rfl rfl rfl
  | drops _ => exact .same rfl rfl rfl
  | attributes hcall hpc h => exact .attributes hcall hpc h
  | moves _ _ => exact .moves rfl
  | mints _ _ _ h =>
    obtain ⟨_, _, _, _, _, _, rfl⟩ := createChannel_cases h
    exact .same rfl rfl rfl
  | resettles _ => exact .same rfl rfl rfl
  | relinks _ _ _ _ _ => exact .same rfl rfl rfl
  | visits _ _ _ => exact .same rfl rfl rfl
  | registers h =>
    obtain ⟨haccounts, hattributions, hentries⟩ := registerPerson_accounts h
    exact .opens haccounts (fun _ => rfl) hattributions hentries
  | posts hcall h => exact .posts hcall h rfl rfl

/-- A bonus that is owed is credited, and nothing else is. -/
theorem creditBonus_rows (h : creditRegistrationInviteBonus s a = .ok s₁) :
    ((∀ n, ¬ Owed a n) ∧ s₁ = s)
      ∨ ∃ (n : Nat) (account : AccountIdentity) (p : Posting) (books : Books)
        (e : CreditLedgerEntry), Owed a n ∧ account ∈ s.accounts ∧ account.user = some a.user
          ∧ p.account = account.id ∧ p.delta = n ∧ p.referenceType = .partnerInviteBonus
          ∧ p.referenceId = a.id.str ∧ p.idempotencyKey = bonusKey a.user
          ∧ s.books.apply p = .ok (books, e) ∧ s₁ = { s with books } := by
  unfold creditRegistrationInviteBonus at h
  split at h
  · rename_i n hregistered hsnapshot
    split at h
    · rename_i hzero
      cases h
      refine .inl ⟨?_, rfl⟩
      rintro m ⟨_, hm, hpos⟩
      rw [hsnapshot] at hm
      cases hm
      omega
    · rename_i hpos
      split at h
      · cases h
      rename_i account hfind
      obtain ⟨p, hp, h⟩ := bind_ok h
      obtain ⟨⟨books, e⟩, ha, h⟩ := bind_ok h
      cases h
      obtain ⟨hamount, hacc, hcredit, htype, href, hkey⟩ := preparePosting_eq hp
      have huser : account.user = some a.user := by simpa using Table.prop_of_find? hfind
      have hdelta : p.delta = n := by
        rw [Posting.delta, hcredit, if_pos rfl, normalizeAmount_units hamount, Dec.units_ofUnits]
      exact .inr ⟨n, account, p, books, e, ⟨hregistered, hsnapshot, Nat.pos_of_ne_zero hpos⟩,
        Table.mem_of_find? hfind, huser, hacc, hdelta, htype, href, hkey, ha, rfl⟩
  · rename_i hnot
    cases h
    refine .inl ⟨?_, rfl⟩
    rintro n ⟨hregistered, hsnapshot, _⟩
    exact hnot n hregistered hsnapshot

end Moves

/-! ## Every step keeps it -/

theorem bonusKey_inj {u v : UserId} (h : bonusKey u = bonusKey v) : u = v := by
  unfold bonusKey at h
  have hlist := congrArg String.toList h
  rw [String.toList_append, String.toList_append] at hlist
  have hdigits : (toString u).toList = (toString v).toList := List.append_cancel_left hlist
  exact toString_nat_inj (String.toList_injective hdigits)

section Preserved

variable {s s₁ : ReferralDb} {t : ReferralThread}

theorem IsBonus.mono {accounts accounts' : Table AccountIdentity} {e : CreditLedgerEntry}
    (h : IsBonus accounts a n e) (hsub : ∀ account ∈ accounts, account ∈ accounts') :
    IsBonus accounts' a n e := by
  obtain ⟨account, hmem, hprops⟩ := h.account
  exact { h with account := ⟨account, hsub account hmem, hprops⟩ }

/-- A write that leaves attributions and entries as they are, and may open an account. -/
theorem BonusInv.opened (h : BonusInv s) (hattributions : s₁.attributions = s.attributions)
    (hentries : s₁.books.entries = s.books.entries)
    (hsub : ∀ account ∈ s.accounts, account ∈ s₁.accounts)
    (hpersonal : ∀ account ∈ s₁.accounts, account.user.isSome = true → account.kind = .personal) :
    BonusInv s₁ := by
  refine ⟨?_, ?_, hpersonal⟩
  · rw [hattributions, hentries]
    intro a ha n howed
    obtain ⟨e, he, hbonus⟩ := h.paid a ha n howed
    exact ⟨e, he, hbonus.mono hsub⟩
  · rw [hattributions, hentries]
    intro e he hclaims
    obtain ⟨a, ha, n, howed, hbonus⟩ := h.owed e he hclaims
    exact ⟨a, ha, n, howed, hbonus.mono hsub⟩

/-- A posting of another service. -/
theorem BonusInv.posted {p : Posting} {e : CreditLedgerEntry} (h : BonusInv s)
    (hforeign : ¬ ClaimsBonus p.referenceType p.idempotencyKey)
    (hpost : s.books.apply p = .ok (s₁.books, e)) (hattributions : s₁.attributions = s.attributions)
    (haccounts : s₁.accounts = s.accounts) :
    BonusInv s₁ := by
  have hentries : ∀ f, f ∈ s₁.books.entries → f ∈ s.books.entries
      ∨ ¬ ClaimsBonus f.referenceType f.idempotencyKey := by
    rcases apply_rows hpost with ⟨hsame, _⟩ | ⟨hrows, htype, _, hkey, _⟩
    · rw [hsame]
      exact fun f hf => .inl hf
    · intro f hf
      rw [Table.mem_def, hrows] at hf
      rcases List.mem_append.1 hf with hf | hf
      · exact .inl hf
      · rw [List.mem_singleton.1 hf, htype, hkey]
        exact .inr hforeign
  have hkept : ∀ f ∈ s.books.entries, f ∈ s₁.books.entries := by
    rcases apply_rows hpost with ⟨hsame, _⟩ | ⟨hrows, _⟩
    · rw [hsame]
      exact fun f hf => hf
    · intro f hf
      rw [Table.mem_def, hrows]
      exact List.mem_append_left _ hf
  refine ⟨?_, ?_, ?_⟩
  · rw [hattributions, haccounts]
    intro a ha n howed
    obtain ⟨f, hf, hbonus⟩ := h.paid a ha n howed
    exact ⟨f, hkept f hf, hbonus⟩
  · rw [hattributions, haccounts]
    intro f hf hclaims
    rcases hentries f hf with hold | hnot
    · exact h.owed f hold hclaims
    · exact absurd hclaims hnot
  · rw [haccounts]
    exact h.personal

/-- A transfer changes the channel of an attribution, which a bonus does not depend on. -/
theorem owed_reattributed {p : CustomerAttribution → Bool} :
    Owed (rewrite p (reattributed channel) a) n ↔ Owed a n := by
  unfold Lib.rewrite
  split <;> exact Iff.rfl

theorem IsBonus.reattributed {accounts : Table AccountIdentity} {p : CustomerAttribution → Bool}
    {e : CreditLedgerEntry} (h : IsBonus accounts a n e) :
    IsBonus accounts (rewrite p (Partner.reattributed channel) a) n e := by
  unfold Lib.rewrite
  split
  · exact ⟨h.key, h.kind, h.reference, h.delta, h.account⟩
  · exact h

theorem BonusInv.moved (h : BonusInv s) (a : CustomerAttribution) (channel : Uuid) :
    BonusInv (moveAttribution s a channel).1 := by
  refine ⟨?_, ?_, h.personal⟩
  · intro r' hr' n howed
    obtain ⟨r, hr, rfl⟩ := List.mem_map.1 hr'
    obtain ⟨e, he, hbonus⟩ := h.paid r hr n (owed_reattributed.1 howed)
    exact ⟨e, he, hbonus.reattributed⟩
  · intro e he hclaims
    obtain ⟨r, hr, n, howed, hbonus⟩ := h.owed e he hclaims
    exact ⟨_, Table.mem_rewritten hr, n, owed_reattributed.2 howed, hbonus.reattributed⟩

/-- **A registration pays what it owes.** -/
theorem BonusInv.attributed {a : NewAttribution} {pending : Option Uuid} {v : ReferralView}
    {ans : ReferralAnswer} (h : BonusInv s)
    (hs : insertAttribution s a pending v = .ok (s₁, ans)) : BonusInv s₁ := by
  obtain ⟨attributions, s₂, hi, hb, rfl⟩ := insertAttribution_cases hs
  obtain ⟨_, hp⟩ := elim_dropPending s₂ pending
  rw [hp]
  generalize hrow : a.row (v.uuid 0) v.now = row at hi hb
  rcases creditBonus_rows hb
    with ⟨hnone, rfl⟩ | ⟨n, account, p, books, e, howed, haccount, huser, hof, hdelta,
    htype, href, hkey, ha, rfl⟩
  · refine ⟨?_, ?_, h.personal⟩
    · intro r hr n howed
      rcases (Table.mem_insert hi).1 hr with hr | rfl
      · exact h.paid r hr n howed
      · exact absurd howed (hnone n)
    · intro f hf hclaims
      obtain ⟨r, hr, n, howed, hbonus⟩ := h.owed f hf hclaims
      exact ⟨r, (Table.mem_insert hi).2 (.inl hr), n, howed, hbonus⟩
  · rcases apply_rows ha with ⟨_, he, hekey⟩ | ⟨hrows, hetype, heref, hekey, heacc, hedelta⟩
    · -- an entry with the key would be of an attribution of the user
      obtain ⟨r, hr, _, _, hbonus⟩ := h.owed e he (.inr ⟨row.user, hekey.trans hkey⟩)
      have hsame : r.user = row.user := bonusKey_inj (hbonus.key.symm.trans (hekey.trans hkey))
      exact absurd (.inr hsame) (Table.apart_of_insert hi hr)
    · have hmem : ∀ f, f ∈ books.entries ↔ f ∈ s.books.entries ∨ f = e := by
        intro f
        rw [Table.mem_def, hrows, List.mem_append, List.mem_singleton]
        rfl
      have hbonus : IsBonus s.accounts row n e := {
        key := hekey.trans hkey
        kind := hetype.trans htype
        reference := heref.trans href
        delta := hedelta.trans hdelta
        account := ⟨account, haccount, hof.symm.trans heacc.symm, huser,
          h.personal account haccount (by rw [huser]; rfl)⟩ }
      refine ⟨?_, ?_, h.personal⟩
      · intro r hr m howed'
        rcases (Table.mem_insert hi).1 hr with hr | rfl
        · obtain ⟨f, hf, hold⟩ := h.paid r hr m howed'
          exact ⟨f, (hmem f).2 (.inl hf), hold⟩
        · have hsame : n = m := Option.some.inj (howed.2.1.symm.trans howed'.2.1)
          exact ⟨e, (hmem e).2 (.inr rfl), hsame ▸ hbonus⟩
      · intro f hf hclaims
        rcases (hmem f).1 hf with hf | rfl
        · obtain ⟨r, hr, m, howed', hold⟩ := h.owed f hf hclaims
          exact ⟨r, (Table.mem_insert hi).2 (.inl hr), m, howed', hold⟩
        · exact ⟨row, (Table.mem_insert hi).2 (.inr rfl), n, howed, hbonus⟩

theorem BonusInv.move {x : ReferralInput} (h : BonusInv s) (hok : NoForeignBonus s t x)
    (hmove : BonusMove s t s₁) : BonusInv s₁ := by
  cases hmove with
  | same hattributions haccounts hentries =>
    refine h.opened hattributions hentries (fun account hmem => haccounts ▸ hmem) ?_
    rw [haccounts]
    exact h.personal
  | opens haccounts hkind hattributions hentries =>
    refine h.opened hattributions hentries
      (fun account hmem => (Table.mem_insert haccounts).2 (.inl hmem)) ?_
    intro account hmem
    rcases (Table.mem_insert haccounts).1 hmem with hmem | rfl
    · exact h.personal account hmem
    · exact hkind
  | attributes _ _ hs => exact h.attributed hs
  | moves hs => exact hs ▸ h.moved _ _
  | posts hcall hpost hattributions haccounts =>
    exact h.posted (hok _ hcall) hpost hattributions haccounts

theorem BonusInv.relock {locks : List LockedRow} (h : BonusInv s) : BonusInv { s with locks } :=
  ⟨h.paid, h.owed, h.personal⟩

end Preserved

/-! ## Transfers -/

/-- Where a transfer can be. -/
def isTransferPlace : ReferralPc → Bool
  | .asked => true
  | .seekingAttribution => true
  | .moving _ => true
  | .moved _ => true
  | .returned _ => true
  | .raised _ => true
  | _ => false

/-- A transfer is where one can be. -/
def AtTransfer (_ : ReferralDb) (t : ReferralThread) : Prop :=
  ∀ user channel, t.call = .attribution (.transfer user channel) → isTransferPlace t.pc = true

section Transfers

variable {c : ReferralSettings} {s s' : ReferralDb} {t t' : ReferralThread} {x : ReferralInput}

theorem place_of_raise {e : Exc} (h : s.raise t e = (s', t')) : isTransferPlace t'.pc = true := by
  cases h
  rfl

theorem place_of_answer {a : ReferralAnswer} (h : s.answer t a = (s', t')) :
    isTransferPlace t'.pc = true := by
  cases h
  rfl

theorem place_of_settle {r : Except Exc (ReferralDb × ReferralAnswer)}
    (h : s.settle t r = (s', t')) :
    isTransferPlace t'.pc = true := by
  unfold ReferralDb.settle at h
  split at h
  · exact place_of_raise h
  · exact place_of_answer h

/-- A transfer goes from one of its places to the next. -/
theorem transfer_place {user : UserId} (hcall : t.call = .attribution (.transfer user channel))
    (hpc : isTransferPlace t.pc = true) (h : referralStep c s t x = some (s', t')) :
    isTransferPlace t'.pc = true := by
  unfold referralStep at h
  cases x with
  | fail =>
    dsimp only at h
    split at h
    · exact place_of_raise (Option.some.inj h)
    · cases h
  | go v =>
    cases hp : t.pc with
    | asked =>
      simp only [hp, beginReferral, hcall, beginAttribution] at h
      obtain ⟨_, h⟩ := lockThen_some h
      cases h
      rfl
    | seekingAttribution =>
      simp only [hp, hcall, attributionStep, lockAttributionStep] at h
      split at h
      · exact place_of_raise (Option.some.inj h)
      · obtain ⟨_, h⟩ := lockThen_some h
        split at h
        · exact place_of_answer h
        · cases h
          rfl
    | moving a =>
      simp only [hp, hcall, attributionStep, checkMoveStep] at h
      split at h
      · exact place_of_raise (Option.some.inj h)
      · obtain ⟨_, h⟩ := await_some h
        split at h
        · cases h
          rfl
        · exact place_of_raise h
    | moved a =>
      simp only [hp, hcall, attributionStep] at h
      exact place_of_settle (Option.some.inj h)
    | returned a =>
      simp only [hp] at h
      cases h
    | raised e =>
      simp only [hp] at h
      cases h
    | _ =>
      rw [hp] at hpc
      cases hpc

end Transfers

theorem bonusInvariant (c : ReferralSettings) :
    Invariant (referralProgram c) NoBonuses NoForeignBonus BonusInv AtTransfer
      (fun _ _ => True) where
  init hs := by
    refine ⟨?_, ?_, hs.personal⟩
    · intro a ha
      rw [hs.attributions] at ha
      exact absurd ha (Table.not_mem_empty a)
    · exact fun e he hclaims => absurd hclaims (hs.entries e he)
  start _ _ _ _ _ := rfl
  apart_start _ _ := trivial
  symm _ := trivial
  step := by
    intro s t x s' t' hG hL hok h
    have he := referralStep_effect h
    obtain ⟨s₁, hw, hs'⟩ := he.write
    refine ⟨?_, ?_⟩
    · rw [hs']
      exact (hG.move hok (write_bonus hw)).relock
    · intro user channel hcall
      rw [he.call] at hcall
      exact transfer_place hcall (hL user channel hcall) h
  frame _ _ _ _ hu _ := ⟨hu, trivial⟩

/-! ## The headline -/

/-- An entry of the bonus type on an account of the user. -/
def BonusOf (s : ReferralDb) (user : UserId) (e : CreditLedgerEntry) : Prop :=
  e ∈ s.books.entries ∧ e.referenceType = .partnerInviteBonus
    ∧ ∃ account ∈ s.accounts, account.id = e.account ∧ account.user = some user

section Headline

variable {c : ReferralSettings} {s : ReferralDb} {user : UserId} {e : CreditLedgerEntry}

/-- A bonus entry of a user is that of their attribution. -/
theorem BonusInv.of_entry (h : BonusInv s) (he : BonusOf s user e) :
    ∃ a ∈ s.attributions, ∃ n, a.user = user ∧ Owed a n ∧ IsBonus s.accounts a n e := by
  obtain ⟨hmem, htype, account, haccount, hid, huser⟩ := he
  obtain ⟨a, ha, n, howed, hbonus⟩ := h.owed e hmem (.inl htype)
  obtain ⟨account', haccount', hid', huser', _⟩ := hbonus.account
  have hsame : account' = account :=
    Table.eq_of_clash haccount' haccount (.inl (hid'.trans hid.symm))
  rw [hsame, huser] at huser'
  exact ⟨a, ha, n, (Option.some.inj huser').symm, howed, hbonus⟩

theorem BonusInv.entry (h : BonusInv s) (ha : a ∈ s.attributions) (howed : Owed a n) :
    ∃ e, BonusOf s a.user e ∧ IsBonus s.accounts a n e := by
  obtain ⟨e, he, hbonus⟩ := h.paid a ha n howed
  obtain ⟨account, haccount, hid, huser, _⟩ := hbonus.account
  exact ⟨e, ⟨he, hbonus.kind, account, haccount, hid, huser⟩, hbonus⟩

/-- A step of a transfer leaves the entries, and what a bonus depends on. -/
theorem transfer_keeps {s' : ReferralDb} {t t' : ReferralThread} {x : ReferralInput}
    (hplace : AtTransfer s t) (hcall : t.call = .attribution (.transfer user channel))
    (hstep : referralStep c s t x = some (s', t')) :
    s'.books.entries = s.books.entries
      ∧ ∀ a ∈ s.attributions, ∃ a' ∈ s'.attributions, a'.user = a.user
        ∧ a'.registeredViaInvite = a.registeredViaInvite
          ∧ a'.bonusAmountSnapshot = a.bonusAmountSnapshot := by
  obtain ⟨s₁, hw, hs'⟩ := (referralStep_effect hstep).write
  rw [hs']
  cases write_bonus hw with
  | same hattributions _ hentries =>
    exact ⟨hentries, fun a ha => ⟨a, hattributions.symm ▸ ha, rfl, rfl, rfl⟩⟩
  | opens _ _ hattributions hentries =>
    exact ⟨hentries, fun a ha => ⟨a, hattributions.symm ▸ ha, rfl, rfl, rfl⟩⟩
  | attributes _ hinserting _ =>
    have hnot := hplace user channel hcall
    rw [hinserting] at hnot
    cases hnot
  | moves hmoved =>
    rw [hmoved]
    refine ⟨rfl, ?_⟩
    intro a ha
    refine ⟨_, Table.mem_rewritten ha, ?_⟩
    unfold Lib.rewrite
    split <;> exact ⟨rfl, rfl, rfl⟩
  | posts hpost _ _ _ =>
    rw [hcall] at hpost
    cases hpost

/--
**A user has a registration bonus exactly when they registered by an invite with one.**
It is one entry, of the amount of the snapshot, on the personal account of the user; a
user has one attribution at most, and a transfer of it leaves the bonus as it is.
-/
theorem invite_bonus_sound {g : Config ReferralDb ReferralThread}
    (h : (referralProgram c).ReachWhere NoBonuses NoForeignBonus g) :
    (∀ a ∈ g.store.attributions, ∀ b ∈ g.store.attributions, a.user = b.user → a = b)
    ∧ (∀ user, (∃ e, BonusOf g.store user e) ↔
        ∃ a ∈ g.store.attributions, ∃ n, a.user = user ∧ a.registeredViaInvite = true
          ∧ a.bonusAmountSnapshot = some n ∧ 0 < n)
    ∧ (∀ a ∈ g.store.attributions, ∀ n, a.registeredViaInvite = true
      → a.bonusAmountSnapshot = some n →
        0 < n → ∃ e, BonusOf g.store a.user e ∧ e.delta = n
          ∧ (∀ e', BonusOf g.store a.user e' → e' = e)
          ∧ ∃ account ∈ g.store.accounts, account.id = e.account ∧ account.user = some a.user
            ∧ account.kind = .personal)
    ∧ ∀ p t user channel x g', g.threads p = some t
      → t.call = .attribution (.transfer user channel) →
        (referralProgram c).exec g (.tick p x) = some g' →
        g'.store.books.entries = g.store.books.entries
          ∧ ∀ a ∈ g.store.attributions, ∃ a' ∈ g'.store.attributions, a'.user = a.user
            ∧ a'.registeredViaInvite = a.registeredViaInvite
            ∧ a'.bonusAmountSnapshot = a.bonusAmountSnapshot := by
  have hholds := (bonusInvariant c).reach h
  have hinv : BonusInv g.store := hholds.store
  have hone : ∀ a ∈ g.store.attributions, ∀ b ∈ g.store.attributions, a.user = b.user → a = b :=
    fun a ha b hb huser => Table.eq_of_clash ha hb (.inr huser)
  refine ⟨hone, ?_, ?_, ?_⟩
  · intro user
    constructor
    · rintro ⟨e, he⟩
      obtain ⟨a, ha, n, huser, ⟨hregistered, hsnapshot, hpos⟩, _⟩ := hinv.of_entry he
      exact ⟨a, ha, n, huser, hregistered, hsnapshot, hpos⟩
    · rintro ⟨a, ha, n, rfl, hregistered, hsnapshot, hpos⟩
      obtain ⟨e, he, _⟩ := hinv.entry ha ⟨hregistered, hsnapshot, hpos⟩
      exact ⟨e, he⟩
  · intro a ha n hregistered hsnapshot hpos
    obtain ⟨e, he, hbonus⟩ := hinv.entry ha ⟨hregistered, hsnapshot, hpos⟩
    refine ⟨e, he, hbonus.delta, ?_, hbonus.account⟩
    intro e' he'
    obtain ⟨a', ha', _, huser, _, hbonus'⟩ := hinv.of_entry he'
    -- both entries have the key of the user
    rw [hone a' ha' a ha huser] at hbonus'
    exact Table.eq_of_clash he'.1 he.1 (hbonus'.key.trans hbonus.key.symm)
  · intro p t user channel x g' ht hcall he
    obtain ⟨t₀, t', ht₀, hstep, _⟩ := Program.exec_tick he
    rw [ht] at ht₀
    cases ht₀
    exact transfer_keeps (hholds.thread p t ht) hcall hstep

end Headline

/-! ## A guest who registers by the founder's invite -/

def founderChannel : Uuid := ⟨"00000000-0000-4000-8000-0000000000e0", by decide⟩

def founderLink : Uuid := ⟨"00000000-0000-4000-8000-0000000000e1", by decide⟩

def guestVisit : Uuid := ⟨"00000000-0000-4000-8000-0000000000e2", by decide⟩

/-- The founder has a channel, whose link gives a bonus of 5, and the guest has clicked it. -/
def invited : ReferralDb :=
  { twoPeople with
    channels :=
      ⟨[⟨founderChannel, .individual founder.id, ⟨2000, by decide, by decide⟩, true⟩], by decide⟩
    links := ⟨[⟨founderLink, founderChannel, "token", 5000000, true, 0, none⟩], by decide⟩
    visits := ⟨[⟨guestVisit, founderLink, 0⟩], by decide⟩ }

theorem noBonuses_invited : NoBonuses invited where
  attributions := rfl
  entries e he := absurd he (Table.not_mem_empty e)
  personal := by decide

/-- The guest is attributed as a new user. -/
def registering : List (Act ReferralCall ReferralInput) :=
  .call 0 (.attribution (.attributeCreated guest.id (some guestVisit))) :: referralSteps 0 4 0 ""

/-- The guest has registered by an invite with a bonus of 5. -/
def hasRegistered (g : Config ReferralDb ReferralThread) : Bool :=
  g.store.attributions.rows.any fun a =>
    a.user = guest.id && a.registeredViaInvite && a.bonusAmountSnapshot = some 5000000

theorem invite_bonus_sound_registered : ∃ g, hasRegistered g = true
    ∧ ∃ e, BonusOf g.store guest.id e ∧ e.delta = 5000000 := by
  have hrun : ∃ g, (referralProgram referralSettings).ReachWhere NoBonuses NoForeignBonus g
      ∧ hasRegistered g = true :=
    Program.reachWhere_check (fun _ t _ => match t.call with | .post _ => false | _ => true)
      (fun _ t _ h p hp => by rw [hp] at h; cases h) noBonuses_invited registering hasRegistered
      (by decide)
  obtain ⟨g, hg, hf⟩ := hrun
  obtain ⟨a, ha, hprop⟩ := List.any_eq_true.1 hf
  obtain ⟨⟨huser, hregistered⟩, hsnapshot⟩ :
      (a.user = guest.id ∧ a.registeredViaInvite = true)
        ∧ a.bonusAmountSnapshot = some 5000000 := by
    simpa using hprop
  obtain ⟨e, he, hdelta, _⟩ :=
    (invite_bonus_sound hg).2.2.1 a ha 5000000 hregistered hsnapshot (by decide)
  exact ⟨g, hf, e, huser ▸ he, hdelta⟩

end Roamkit.Partner.Proof
