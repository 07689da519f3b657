import Roamkit.Proof.PartnerMove

/-!
# Settlement accounts are settled

`resolve_partner_settlement_account` looks at the kind, the user and the organization
of an account before it answers with it. Where every account of a user is personal and
every organization has an account of its own, these checks never refuse, and the answer
is read off the owner: `SettlesOn`. No step takes it back.
-/

/-!
## What all accounts hold

Every entry is on one account, so the balances add up to the sum of the whole ledger.
What two entries of opposite amounts do to it is nothing.
-/

namespace Roamkit.Billing.Proof

open Lib Billing

variable (b : Books)

/-- The sum of all balances. -/
def holdings : Int := total Account.balance b.accounts.rows

/-- The sum of the entries of some kinds. -/
def flows (kind : LedgerReferenceType → Bool) : Int :=
  total CreditLedgerEntry.delta (b.entries.rows.filter fun e => kind e.referenceType)

theorem accounts_nodup : (b.accounts.rows.map Account.id).Nodup :=
  List.pairwise_map.2 (b.accounts.apart.imp fun hne => hne)

/-- **The balances add up to the ledger.** -/
theorem BooksInv.holdings_eq {b : Books} (h : BooksInv b) :
    holdings b = total CreditLedgerEntry.delta b.entries.rows := by
  have hknown : ∀ e ∈ b.entries.rows, e.account ∈ b.accounts.rows.map Account.id := by
    intro e he
    obtain ⟨a, ha, hid⟩ := h.known e he
    exact List.mem_map.2 ⟨a, ha, hid⟩
  have hbalances : holdings b
      = total (fun id => total CreditLedgerEntry.delta (b.entriesOf id))
        (b.accounts.rows.map Account.id) := by
    rw [holdings, total, total, List.map_map]
    exact congrArg List.sum (List.map_congr_left fun a ha => h.balance_sum a ha)
  rw [hbalances]
  exact total_by_key CreditLedgerEntry.delta CreditLedgerEntry.account (accounts_nodup b) hknown

/-- The ledger is what is of some kinds, and what is not. -/
theorem flows_split (kind : LedgerReferenceType → Bool) :
    total CreditLedgerEntry.delta b.entries.rows = flows b kind + flows b fun t => !kind t := by
  unfold flows
  induction b.entries.rows with
  | nil => rfl
  | cons e es ih =>
    by_cases hkind : kind e.referenceType = true
    · simp [total, hkind] at ih ⊢
      omega
    · simp [total, hkind] at ih ⊢
      omega

end Roamkit.Billing.Proof

/-! ## What an owner settles on -/

namespace Roamkit.Partner.Proof

open Lib Billing Organizations Partner Billing.Proof

structure AccountsInv (s : ReferralDb) : Prop where
  /-- An account of a user is personal. -/
  personal : ∀ a ∈ s.accounts, a.user.isSome = true → a.kind = .personal
  /-- An organization has an account that is nobody's. -/
  organization : ∀ o ∈ s.organizations, ∃ a ∈ s.accounts, a.id = o.account ∧ a.kind = .organization
    ∧ a.user = none
  /-- An account has a balance. -/
  balances : ∀ a ∈ s.accounts, ∃ b ∈ s.books.accounts, b.id = a.id
  /-- A balance fits its column. -/
  bounded : ∀ b ∈ s.books.accounts, b.balance < maxMoney

variable {owner : ChannelOwner} {id : Uuid}

section Settlement

variable {s s₁ : ReferralDb}

theorem account_eq {a b : AccountIdentity} (ha : a ∈ s.accounts) (hb : b ∈ s.accounts)
    (h : a.id = b.id) :
    a = b := Table.eq_of_clash ha hb (.inl h)

theorem SettlesOn.step (h : SettlesOn s owner id) (hs : RowsStep s s₁) : SettlesOn s₁ owner id := by
  cases owner with
  | individual user =>
    obtain ⟨a, ha, hid, huser⟩ := h
    exact ⟨a, hs.accounts a ha, hid, huser⟩
  | team organization =>
    obtain ⟨o, ho, hoid, hacc⟩ := h
    obtain ⟨o', ho', hoid', hacc'⟩ := hs.organizations o ho
    exact ⟨o', ho', hoid'.trans hoid, hacc'.trans hacc⟩

/-- What is checked before a channel is made. -/
theorem settlesOn_of_check (h : checkOwner s owner = .ok ()) :
    ∃ account, SettlesOn s owner account := by
  unfold checkOwner at h
  cases owner with
  | individual user =>
    dsimp only at h
    split at h
    · cases h
    · rename_i a hfind
      exact ⟨a.id, a, Table.mem_of_find? hfind, rfl, by simpa using Table.prop_of_find? hfind⟩
  | team organization =>
    dsimp only at h
    split at h
    · cases h
    · rename_i o hfind
      exact ⟨o.account, o, Table.mem_of_find? hfind, by simpa using Table.prop_of_find? hfind, rfl⟩

theorem MintSettles.step {t : ReferralThread} (h : MintSettles s t)
    (hs : RowsStep s s₁) : MintSettles s₁ t := by
  intro k n owner percent hcall hpc hk
  obtain ⟨account, hsettles⟩ := h k n owner percent hcall hpc hk
  exact ⟨account, hsettles.step hs⟩

/-- A call that goes on to make a channel has checked its owner. -/
theorem mintSettles_step {c : ReferralSettings} {s' : ReferralDb} {t t' : ReferralThread}
    {x : ReferralInput} (he : Effect c s t x s' t') (h : MintSettles s t) : MintSettles s' t' := by
  intro k n owner percent hcall hpc hk
  obtain ⟨hs, _, hg⟩ := he.goes (by rw [hpc]; rfl)
  rw [hpc] at hg
  have hsettles : ∃ account, SettlesOn s owner account := by
    cases hg with
    | plain hplain => cases hplain
    | proceeds _ _ _ _ _ _ _ hproceed => cases proceeds_of_ok hproceed
    | takesUser _ _ hattr => cases hattr
    | mints hcall' hk' hfrom =>
      rw [he.call, hcall'] at hcall
      cases hcall
      rw [hk] at hk'
      cases hk'
      rcases hfrom with hchecked | ⟨m, hminting⟩
      · exact settlesOn_of_check hchecked
      · exact h _ _ _ _ hcall' hminting hk
  obtain ⟨account, hsettles⟩ := hsettles
  rw [hs]
  cases owner <;> exact ⟨account, hsettles⟩

theorem AccountsInv.step (h : AccountsInv s) (hs : RowsStep s s₁) : AccountsInv s₁ := by
  refine ⟨?_, ?_, ?_, hs.balances.bounded h.bounded⟩
  · intro a ha
    rcases hs.newAccount a ha with ha | ⟨hpersonal, _⟩
    · exact h.personal a ha
    · exact hpersonal
  · intro o' ho'
    rcases hs.newOrganization o' ho' with ⟨o, ho, _, hacc⟩ | ⟨hnew, _⟩
    · obtain ⟨a, ha, hid, hprops⟩ := h.organization o ho
      exact ⟨a, hs.accounts a ha, hid.trans hacc, hprops⟩
    · exact hnew
  · intro a ha
    rcases hs.newAccount a ha with ha | ⟨_, hbalance⟩
    · obtain ⟨b, hb, hid⟩ := h.balances a ha
      obtain ⟨b', hb', hid'⟩ := hs.balances.rows b hb
      exact ⟨b', hb', hid'.trans hid⟩
    · exact hbalance

/-- No organization has the account of a user. -/
theorem AccountsInv.unlinked (h : AccountsInv s) {a : AccountIdentity} (ha : a ∈ s.accounts)
    {user : UserId} (huser : a.user = some user) {o : Organization}
    (ho : o ∈ s.organizations) : o.account ≠ a.id := by
  intro hacc
  obtain ⟨b, hb, hid, _, hnone⟩ := h.organization o ho
  rw [account_eq hb ha (hid.trans hacc), huser] at hnone
  cases hnone

theorem personalSettlement_iff (h : AccountsInv s) {user : UserId} :
    s.personalSettlementAccount user = .ok id ↔ SettlesOn s (.individual user) id := by
  have hchecks : ∀ a ∈ s.accounts, a.user = some user → s.isOwnerPersonalAccount a user = true := by
    intro a ha huser
    have hkind : a.kind = .personal := h.personal a ha (by rw [huser]; rfl)
    have hnone : s.organizations.find? (·.account = a.id) = none := by
      refine Table.find?_eq_none.2 ?_
      intro o ho hacc
      exact h.unlinked ha huser ho (of_decide_eq_true hacc)
    simp [ReferralDb.isOwnerPersonalAccount, hkind, huser, hnone]
  unfold ReferralDb.personalSettlementAccount
  constructor
  · intro hok
    split at hok
    · cases hok
    rename_i a hfind
    have huser : a.user = some user := by simpa using Table.prop_of_find? hfind
    split at hok
    · cases hok
      exact ⟨a, Table.mem_of_find? hfind, rfl, huser⟩
    · cases hok
  · rintro ⟨a, ha, rfl, huser⟩
    have hfind : s.accounts.find? (·.user = some user) = some a :=
      Table.find?_of_mem ha (by simpa using huser) fun b hb =>
        .inr ⟨by rw [of_decide_eq_true hb]; rfl, (of_decide_eq_true hb).trans huser.symm⟩
    rw [hfind]
    exact if_pos (hchecks a ha huser)

theorem organizationSettlement_iff (h : AccountsInv s) {organization : Uuid} :
    s.organizationSettlementAccount organization = .ok id
      ↔ SettlesOn s (.team organization) id := by
  unfold ReferralDb.organizationSettlementAccount
  constructor
  · intro hok
    split at hok
    · cases hok
    rename_i o hfind
    split at hok
    · cases hok
    rename_i a hacc
    split at hok
    · cases hok
      have hid : a.id = o.account := by simpa using Table.prop_of_find? hacc
      exact ⟨o, Table.mem_of_find? hfind, by simpa using Table.prop_of_find? hfind, hid.symm⟩
    · cases hok
  · rintro ⟨o, ho, rfl, rfl⟩
    obtain ⟨a, ha, hid, hkind, huser⟩ := h.organization o ho
    have horganization : s.organization? o.id = some o :=
      Table.find?_of_mem ho (by simp) fun p hp => .inl (of_decide_eq_true hp)
    have haccount : s.accounts.find? (·.id = o.account) = some a :=
      Table.find?_of_mem ha (by simpa using hid) fun b hb =>
        .inl ((of_decide_eq_true hb).trans hid.symm)
    -- the organization that points at the account is this one
    have hlinked : s.organizations.find? (·.account = a.id) = some o :=
      Table.find?_of_mem ho (by simpa using hid.symm) fun p hp =>
        .inr ((of_decide_eq_true hp).trans hid)
    have hchecks : s.isOrganizationAccount a o = true := by
      simp [ReferralDb.isOrganizationAccount, hkind, huser, hlinked]
    rw [horganization]
    dsimp only
    rw [haccount]
    dsimp only
    rw [if_pos hchecks, hid]

/-- **The settlement account of a channel is read off its owner.** -/
theorem settlementAccount_iff (h : AccountsInv s) :
    s.settlementAccount owner = .ok id ↔ SettlesOn s owner id := by
  cases owner with
  | individual user => exact personalSettlement_iff h
  | team organization => exact organizationSettlement_iff h

end Settlement

end Roamkit.Partner.Proof
