import Roamkit.Partner.Services
import Roamkit.Proof.InviteBonus

/-!
# What a step of the partner services can do

A step of the organization and referral services opens an account or posts one entry,
and keeps every account, organization, channel and link where it is. `BooksMove` and
`RowsStep` say so once, and what holds of the ledger and of the settlement accounts is
read off them. A settlement account is settled for good: `SettlesOn` is never undone.
-/

namespace Roamkit.Partner.Proof

open Lib Billing Organizations Partner Billing.Proof

/-! ## The ledger -/

/-- What a step does to the ledger: nothing, a new account, or a posting of some kind. -/
inductive BooksMove (Q : Posting → Prop) (b : Books) : Books → Prop
  | same : BooksMove Q b b
  | opens {id : Uuid} {accounts : Table Account} : b.accounts.insert? ⟨id, 0, 0⟩ = some accounts →
      BooksMove Q b { b with accounts }
  | posts {p : Posting} {b' : Books} {e : CreditLedgerEntry} : Q p → b.apply p = .ok (b', e) →
      BooksMove Q b b'

variable {e : CreditLedgerEntry}

section Books

variable {Q : Posting → Prop} {b b' : Books}

/-- An entry stays. -/
theorem BooksMove.kept (h : BooksMove Q b b') (he : e ∈ b.entries) :
    e ∈ b'.entries := by
  cases h with
  | same => exact he
  | opens _ => exact he
  | posts _ ha =>
    rcases apply_rows ha with ⟨rfl, _⟩ | ⟨hrows, _⟩
    · exact he
    · rw [Table.mem_def, hrows]
      exact List.mem_append_left _ he

/-- A new entry is of a posting. -/
theorem BooksMove.made (h : BooksMove Q b b') (he : e ∈ b'.entries) :
    e ∈ b.entries ∨ ∃ p, Q p ∧ e.referenceType = p.referenceType
      ∧ e.idempotencyKey = p.idempotencyKey := by
  cases h with
  | same => exact .inl he
  | opens _ => exact .inl he
  | @posts p _ e' hq ha =>
    rcases apply_rows ha with ⟨rfl, _⟩ | ⟨hrows, htype, _, hkey, _⟩
    · exact .inl he
    · rw [Table.mem_def, hrows] at he
      rcases List.mem_append.1 he with he | he
      · exact .inl he
      · rw [List.mem_singleton.1 he]
        exact .inr ⟨p, hq, htype, hkey⟩

/-- An account that is opened has no entry. -/
theorem booksInv_opened {id : Uuid} {accounts : Table Account} (h : BooksInv b)
    (hi : b.accounts.insert? ⟨id, 0, 0⟩ = some accounts) : BooksInv { b with accounts } := by
  have hempty : b.entriesOf id = [] := by
    refine List.filter_eq_nil_iff.2 ?_
    intro e he hacc
    obtain ⟨a, ha, hid⟩ := h.known e he
    exact Table.apart_of_insert hi ha (hid.trans (of_decide_eq_true hacc))
  refine ⟨?_, ?_, ?_, h.running, h.after_nonneg, ?_⟩
  · intro a ha
    rcases (Table.mem_insert hi).1 ha with ha | rfl
    · exact h.balance_sum a ha
    · exact (congrArg (total CreditLedgerEntry.delta) hempty).symm
  · intro a ha
    rcases (Table.mem_insert hi).1 ha with ha | rfl
    · exact h.balance_nonneg a ha
    · exact Int.le_refl 0
  · intro a ha
    rcases (Table.mem_insert hi).1 ha with ha | rfl
    · exact h.version_count a ha
    · exact (congrArg List.length hempty).symm
  · intro e he
    obtain ⟨a, ha, hid⟩ := h.known e he
    exact ⟨a, (Table.mem_insert hi).2 (.inl ha), hid⟩

/-! ### Balances -/

/-- What becomes of the balances: none goes, and none outgrows its column. -/
structure BalancesKept (b b' : Books) : Prop where
  rows : ∀ a ∈ b.accounts, ∃ a' ∈ b'.accounts, a'.id = a.id
  bounded : (∀ a ∈ b.accounts, a.balance < maxMoney) → ∀ a ∈ b'.accounts, a.balance < maxMoney

theorem BalancesKept.refl (b : Books) : BalancesKept b b := ⟨fun a ha => ⟨a, ha, rfl⟩, fun h => h⟩

theorem BalancesKept.trans {b'' : Books} (h : BalancesKept b b') (h' : BalancesKept b' b'') :
    BalancesKept b b'' := by
  refine ⟨?_, fun hb => h'.bounded (h.bounded hb)⟩
  intro a ha
  obtain ⟨a', ha', hid⟩ := h.rows a ha
  obtain ⟨a'', ha'', hid'⟩ := h'.rows a' ha'
  exact ⟨a'', ha'', hid'.trans hid⟩

theorem balances_opened {id : Uuid} {accounts : Table Account}
    (hi : b.accounts.insert? ⟨id, 0, 0⟩ = some accounts) : BalancesKept b { b with accounts } := by
  refine ⟨fun a ha => ⟨a, (Table.mem_insert hi).2 (.inl ha), rfl⟩, ?_⟩
  intro hb a ha
  rcases (Table.mem_insert hi).1 ha with ha | rfl
  · exact hb a ha
  · show (0 : Int) < maxMoney
    unfold maxMoney
    omega

/-- An entry that is made fits its columns. -/
theorem apply_fits {p : Posting} (h : b.apply p = .ok (b', e)) :
    b' = b ∨ e.fits = true := by
  unfold Books.apply at h
  split at h
  · cases h
  split at h
  · cases h
    exact .inl rfl
  · split at h
    · cases h
    split at h
    · cases h
    rename_i hfits
    split at h
    · cases h
    split at h
    · cases h
    · cases h
      exact .inr (not_not.1 hfits)

theorem apply_balances {p : Posting} (h : b.apply p = .ok (b', e)) :
    BalancesKept b b' := by
  rcases apply_fits h with rfl | hfits
  · exact .refl _
  rcases apply_cases h with ⟨rfl, _, _⟩ | ⟨row, _, _, rfl, _, _, hpost⟩
  · exact .refl _
  · have hrows := (post_cases hpost).2.2
    constructor
    · intro a ha
      refine ⟨rewrite (·.id = row.id) (fun a => { a with
        balance := (p.entry row.balance).balanceAfter, version := row.version + 1 }) a, ?_, ?_⟩
      · rw [Table.mem_def, hrows]
        exact List.mem_map.2 ⟨a, ha, rfl⟩
      · unfold rewrite
        split <;> rfl
    · intro hb a ha
      rw [Table.mem_def, hrows] at ha
      obtain ⟨r, hr, ⟨_, rfl⟩ | ⟨_, rfl⟩⟩ := Table.of_mem_rewritten ha
      · simp only [CreditLedgerEntry.fits, Bool.and_eq_true, decide_eq_true_eq] at hfits
        have hlt := hfits.1.1
        show (p.entry row.balance).balanceAfter < maxMoney
        omega
      · exact hb _ hr

theorem booksInv_move (h : BooksInv b) (hm : BooksMove Q b b') : BooksInv b' := by
  cases hm with
  | same => exact h
  | opens hi => exact booksInv_opened h hi
  | posts _ ha => exact h.apply ha

end Books

/-! ## The other tables -/

/-- The account of a user, or the one an organization points at. -/
def SettlesOn (s : ReferralDb) : ChannelOwner → Uuid → Prop
  | .individual user, id => ∃ a ∈ s.accounts, a.id = id ∧ a.user = some user
  | .team organization, id => ∃ o ∈ s.organizations, o.id = organization ∧ o.account = id

/-- A call that makes a channel has checked what it will settle on. -/
def MintSettles (s : ReferralDb) (t : ReferralThread) : Prop :=
  ∀ k n owner percent, t.call = .channel k → t.pc = .minting n
    → k.creates? = some (owner, percent) →
    ∃ account, SettlesOn s owner account

/-- The tables of accounts, organizations, channels and links, after a step. -/
structure RowsStep (s s₁ : ReferralDb) : Prop where
  accounts : ∀ a ∈ s.accounts, a ∈ s₁.accounts
  /-- A new account has a balance, and is personal if it is a user's. -/
  newAccount : ∀ a ∈ s₁.accounts, a ∈ s.accounts
    ∨ ((a.user.isSome = true → a.kind = .personal) ∧ ∃ b ∈ s₁.books.accounts, b.id = a.id)
  organizations : ∀ o ∈ s.organizations, ∃ o' ∈ s₁.organizations, o'.id = o.id
    ∧ o'.account = o.account
  /-- A new organization has a new account of its own. -/
  newOrganization : ∀ o' ∈ s₁.organizations,
    (∃ o ∈ s.organizations, o.id = o'.id ∧ o.account = o'.account)
    ∨ ((∃ a ∈ s₁.accounts, a.id = o'.account ∧ a.kind = .organization ∧ a.user = none)
      ∧ ∀ a ∈ s.accounts, a.id ≠ o'.account)
  channels : ∀ k ∈ s.channels, ∃ k' ∈ s₁.channels, k'.id = k.id ∧ k'.owner = k.owner
  /-- A new channel has a link, and an account to settle on. -/
  newChannel : ∀ k' ∈ s₁.channels, (∃ k ∈ s.channels, k.id = k'.id ∧ k.owner = k'.owner)
    ∨ ((∃ l ∈ s₁.links, l.partnerChannel = k'.id) ∧ ∃ account, SettlesOn s₁ k'.owner account)
  links : ∀ l ∈ s.links, ∃ l' ∈ s₁.links, l'.partnerChannel = l.partnerChannel
  balances : BalancesKept s.books s₁.books

theorem rowsStep_of_eq {s s₁ : ReferralDb} (haccounts : s₁.accounts = s.accounts)
    (horganizations : s₁.organizations = s.organizations) (hchannels : s₁.channels = s.channels)
    (hlinks : s₁.links = s.links) (hbalances : BalancesKept s.books s₁.books) :
    RowsStep s s₁ := by
  refine ⟨?_, ?_, ?_, ?_, ?_, ?_, ?_, hbalances⟩
  · exact fun a ha => haccounts ▸ ha
  · exact fun a ha => .inl (haccounts ▸ ha)
  · exact fun o ho => ⟨o, horganizations ▸ ho, rfl, rfl⟩
  · exact fun o ho => .inl ⟨o, horganizations ▸ ho, rfl, rfl⟩
  · exact fun k hk => ⟨k, hchannels ▸ hk, rfl, rfl⟩
  · exact fun k hk => .inl ⟨k, hchannels ▸ hk, rfl, rfl⟩
  · exact fun l hl => ⟨l, hlinks ▸ hl, rfl⟩

section Writes

variable {c : ReferralSettings} {s s₁ : ReferralDb} {t : ReferralThread} {x : ReferralInput}

/-- What a step of the organization and referral services posts. -/
def PostedBy (t : ReferralThread) (p : Posting) : Prop :=
  t.call = .post p
    ∨ (p.referenceType = .partnerInviteBonus ∧ ∃ user, p.idempotencyKey = bonusKey user)

theorem createOrganization_rows {name : String} {actor : UserId} {status : OrganizationStatus}
    {uuid : Nat → Uuid} {a : ReferralAnswer}
    (h : createOrganization s name actor status uuid = .ok (s₁, a)) :
    ∃ accounts balances organizations memberships org,
      s.accounts.insert? ⟨uuid 1, none, .organization⟩ = some accounts
      ∧ s.books.accounts.insert? ⟨uuid 1, 0, 0⟩ = some balances
      ∧ s.organizations.insert? org = some organizations ∧ org.account = uuid 1
      ∧ s₁ = { s with
        accounts, organizations, memberships, books := { s.books with accounts := balances } } := by
  unfold createOrganization at h
  dsimp only at h
  split at h
  · cases h
  split at h
  · cases h
  split at h
  · rename_i accounts balances organizations memberships haccounts hbalances horganizations _
    cases h
    exact ⟨accounts, balances, organizations, memberships, _, haccounts, hbalances,
      horganizations, rfl, rfl⟩
  · cases h

theorem registerPerson_rows {p : Person} {account : Uuid} {a : ReferralAnswer}
    (h : registerPerson s p account = .ok (s₁, a)) :
    ∃ people accounts balances, s.accounts.insert? ⟨account, some p.id, .personal⟩ = some accounts
      ∧ s.books.accounts.insert? ⟨account, 0, 0⟩ = some balances
      ∧ s₁ = { s with people, accounts, books := { s.books with accounts := balances } } := by
  unfold registerPerson at h
  split at h
  · rename_i people accounts balances _ haccounts hbalances
    cases h
    exact ⟨people, accounts, balances, haccounts, hbalances, rfl⟩
  · cases h

/-- The attribution and the bonus of a registration. -/
theorem insertAttribution_books {a : NewAttribution} {pending : Option Uuid} {v : ReferralView}
    {ans : ReferralAnswer} (h : insertAttribution s a pending v = .ok (s₁, ans)) :
    BooksMove (PostedBy t) s.books s₁.books ∧ RowsStep s s₁ := by
  obtain ⟨attributions, s₂, _, hb, rfl⟩ := insertAttribution_cases h
  obtain ⟨_, hp⟩ := elim_dropPending s₂ pending
  rw [hp]
  rcases creditBonus_rows hb
    with ⟨_, rfl⟩ | ⟨_, _, p, books, e, _, _, _, _, _, htype, _, hkey, ha, rfl⟩
  · exact ⟨.same, rowsStep_of_eq rfl rfl rfl rfl (.refl _)⟩
  · exact ⟨.posts (.inr ⟨htype, _, hkey⟩) ha, rowsStep_of_eq rfl rfl rfl rfl (apply_balances ha)⟩

/-- A write that neither posts nor touches the tables of settlement. -/
theorem writes_elsewhere (hbooks : s₁.books = s.books) (haccounts : s₁.accounts = s.accounts)
    (horganizations : s₁.organizations = s.organizations) (hchannels : s₁.channels = s.channels)
    (hlinks : s₁.links = s.links) : BooksMove (PostedBy t) s.books s₁.books ∧ RowsStep s s₁ := by
  have hbalances : BalancesKept s.books s₁.books := by
    rw [hbooks]
    exact .refl _
  refine ⟨?_, rowsStep_of_eq haccounts horganizations hchannels hlinks hbalances⟩
  rw [hbooks]
  exact .same

theorem saveMembershipRow_elsewhere {id : Uuid} {f : Membership → Membership}
    (h : saveMembershipRow s id f = .ok s₁) :
    BooksMove (PostedBy t) s.books s₁.books ∧ RowsStep s s₁ := by
  obtain ⟨_, _, rfl⟩ := saveMembershipRow_cases h
  exact writes_elsewhere rfl rfl rfl rfl rfl

/-- **What a step of the organization and referral services writes.** -/
theorem write_partner (hw : ReferralWrite c s t x s₁) (hmint : MintSettles s t) :
    BooksMove (PostedBy t) s.books s₁.books ∧ RowsStep s s₁ := by
  cases hw with
  | stays => exact writes_elsewhere rfl rfl rfl rfl rfl
  | creates h =>
    obtain ⟨accounts, balances, organizations, memberships, org, ha, hb, ho, hof, rfl⟩ :=
      createOrganization_rows h
    refine ⟨.opens hb, ?_, ?_, ?_, ?_, ?_, ?_, ?_, balances_opened hb⟩
    · exact fun a hmem => (Table.mem_insert ha).2 (.inl hmem)
    · intro a hmem
      rcases (Table.mem_insert ha).1 hmem with hmem | rfl
      · exact .inl hmem
      · exact .inr ⟨(fun hsome => by cases hsome), _, (Table.mem_insert hb).2 (.inr rfl), rfl⟩
    · exact fun o hmem => ⟨o, (Table.mem_insert ho).2 (.inl hmem), rfl, rfl⟩
    · intro o hmem
      rcases (Table.mem_insert ho).1 hmem with hmem | rfl
      · exact .inl ⟨o, hmem, rfl, rfl⟩
      · refine .inr ⟨⟨_, (Table.mem_insert ha).2 (.inr rfl), hof.symm, rfl, rfl⟩, ?_⟩
        intro a hmem hid
        exact Table.apart_of_insert ha hmem (.inl (hid.trans hof))
    · exact fun k hk => ⟨k, hk, rfl, rfl⟩
    · exact fun k hk => .inl ⟨k, hk, rfl, rfl⟩
    · exact fun l hl => ⟨l, hl, rfl⟩
  | @setsStatus o status _ =>
    have hsame : ∀ r : Organization,
      (rewrite (·.id = o.id) (fun p => { p with status }) r).id = r.id
        ∧ (rewrite (·.id = o.id) (fun p => { p with status }) r).account = r.account := by
      intro r
      unfold rewrite
      split <;> exact ⟨rfl, rfl⟩
    refine ⟨.same, ?_, ?_, ?_, ?_, ?_, ?_, ?_, .refl _⟩
    · exact fun a ha => ha
    · exact fun a ha => .inl ha
    · exact fun r hr => ⟨_, Table.mem_rewritten hr, hsame r⟩
    · intro r' hr'
      obtain ⟨r, hr, rfl⟩ := List.mem_map.1 hr'
      exact .inl ⟨r, hr, (hsame r).1.symm, (hsame r).2.symm⟩
    · exact fun k hk => ⟨k, hk, rfl, rfl⟩
    · exact fun k hk => .inl ⟨k, hk, rfl, rfl⟩
    · exact fun l hl => ⟨l, hl, rfl⟩
  | promotes _ _ _ h =>
    rcases promote_cases h with rfl | ⟨_, s₂, _, _, _, _, h₂, h₃⟩
    · exact writes_elsewhere rfl rfl rfl rfl rfl
    · obtain ⟨_, _, rfl⟩ := saveMembershipRow_cases h₂
      obtain ⟨_, _, rfl⟩ := saveMembershipRow_cases h₃
      exact writes_elsewhere rfl rfl rfl rfl rfl
  | setsRole _ _ h =>
    obtain ⟨_, _, _, _, _, hs⟩ := setRole_cases h
    exact saveMembershipRow_elsewhere hs
  | revokes _ _ h =>
    rcases revoke_cases h with rfl | ⟨_, _, _, hs⟩
    · exact writes_elsewhere rfl rfl rfl rfl rfl
    · exact saveMembershipRow_elsewhere hs
  | writesInvite _ _ _ hi =>
    obtain ⟨_, rfl⟩ := writeInvite_cases hi
    exact writes_elsewhere rfl rfl rfl rfl rfl
  | revokesInvite _ hi =>
    obtain ⟨_, rfl⟩ := revokeInvite_cases hi
    exact writes_elsewhere rfl rfl rfl rfl rfl
  | expires _ _ =>
    obtain ⟨_, hexpired⟩ := expire_cases s _
    rw [hexpired]
    exact writes_elsewhere rfl rfl rfl rfl rfl
  | accepts _ _ _ => exact writes_elsewhere rfl rfl rfl rfl rfl
  | joins _ _ _ => exact writes_elsewhere rfl rfl rfl rfl rfl
  | rejoins _ _ _ _ h =>
    obtain ⟨_, _, rfl⟩ := saveMembershipRow_cases h
    exact writes_elsewhere rfl rfl rfl rfl rfl
  | saves _ _ h =>
    obtain ⟨_, rfl⟩ := saveForms_cases h
    exact writes_elsewhere rfl rfl rfl rfl rfl
  | records _ _ _ => exact writes_elsewhere rfl rfl rfl rfl rfl
  | drops _ => exact writes_elsewhere rfl rfl rfl rfl rfl
  | attributes _ _ h => exact insertAttribution_books h
  | moves _ _ => exact writes_elsewhere rfl rfl rfl rfl rfl
  | mints hcall hk hpc h =>
    have hsettles := hmint _ _ _ _ hcall hpc hk
    obtain ⟨_, channels, links, _, hk', hl, rfl⟩ := createChannel_cases h
    refine ⟨.same, ?_, ?_, ?_, ?_, ?_, ?_, ?_, .refl _⟩
    · exact fun a ha => ha
    · exact fun a ha => .inl ha
    · exact fun o ho => ⟨o, ho, rfl, rfl⟩
    · exact fun o ho => .inl ⟨o, ho, rfl, rfl⟩
    · exact fun k hmem => ⟨k, (Table.mem_insert hk').2 (.inl hmem), rfl, rfl⟩
    · intro k hmem
      rcases (Table.mem_insert hk').1 hmem with hmem | rfl
      · exact .inl ⟨k, hmem, rfl, rfl⟩
      · -- the link is inserted with its channel
        exact .inr ⟨⟨_, (Table.mem_insert hl).2 (.inr rfl), rfl⟩, hsettles⟩
    · exact fun l hmem => ⟨l, (Table.mem_insert hl).2 (.inl hmem), rfl⟩
  | @resettles id isActive share _ =>
    have hsame : ∀ r : PartnerChannel, (rewrite (·.id = id) (resettled isActive share) r).id = r.id
        ∧ (rewrite (·.id = id) (resettled isActive share) r).owner = r.owner := by
      intro r
      unfold rewrite
      split <;> exact ⟨rfl, rfl⟩
    refine ⟨.same, ?_, ?_, ?_, ?_, ?_, ?_, ?_, .refl _⟩
    · exact fun a ha => ha
    · exact fun a ha => .inl ha
    · exact fun o ho => ⟨o, ho, rfl, rfl⟩
    · exact fun o ho => .inl ⟨o, ho, rfl, rfl⟩
    · exact fun r hr => ⟨_, Table.mem_rewritten hr, hsame r⟩
    · intro r' hr'
      obtain ⟨r, hr, rfl⟩ := List.mem_map.1 hr'
      exact .inl ⟨r, hr, (hsame r).1.symm, (hsame r).2.symm⟩
    · exact fun l hl => ⟨l, hl, rfl⟩
  | @relinks id f _ links _ _ _ hf hrows _ =>
    refine ⟨.same, ?_, ?_, ?_, ?_, ?_, ?_, ?_, .refl _⟩
    · exact fun a ha => ha
    · exact fun a ha => .inl ha
    · exact fun o ho => ⟨o, ho, rfl, rfl⟩
    · exact fun o ho => .inl ⟨o, ho, rfl, rfl⟩
    · exact fun k hk => ⟨k, hk, rfl, rfl⟩
    · exact fun k hk => .inl ⟨k, hk, rfl, rfl⟩
    · intro l hl
      refine ⟨rewrite (·.id = id) f l, ?_, ?_⟩
      · rw [Table.mem_def, hrows]
        exact Table.mem_rewritten hl
      · unfold rewrite
        split
        · exact hf.partnerChannel l
        · rfl
  | visits _ _ _ => exact writes_elsewhere rfl rfl rfl rfl rfl
  | registers h =>
    obtain ⟨people, accounts, balances, ha, hb, rfl⟩ := registerPerson_rows h
    refine ⟨.opens hb, ?_, ?_, ?_, ?_, ?_, ?_, ?_, balances_opened hb⟩
    · exact fun a hmem => (Table.mem_insert ha).2 (.inl hmem)
    · intro a hmem
      rcases (Table.mem_insert ha).1 hmem with hmem | rfl
      · exact .inl hmem
      · exact .inr ⟨fun _ => rfl, _, (Table.mem_insert hb).2 (.inr rfl), rfl⟩
    · exact fun o ho => ⟨o, ho, rfl, rfl⟩
    · exact fun o ho => .inl ⟨o, ho, rfl, rfl⟩
    · exact fun k hk => ⟨k, hk, rfl, rfl⟩
    · exact fun k hk => .inl ⟨k, hk, rfl, rfl⟩
    · exact fun l hl => ⟨l, hl, rfl⟩
  | posts hcall h =>
      exact ⟨.posts (.inl hcall) h, rowsStep_of_eq rfl rfl rfl rfl (apply_balances h)⟩

end Writes

end Roamkit.Partner.Proof
