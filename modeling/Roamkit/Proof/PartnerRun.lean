import Roamkit.Proof.PartnerLedger
import Roamkit.Proof.Solvency

/-!
# Grants and accruals in any interleaving

Every step of `partnerProgram` keeps `PartnerInv`, and what a grant has planned stays
what it planned: the account it takes from is the one its channel settles on, whatever
has happened to organizations and channels since. From this: what the ledger says of
grants and of accruals in every reachable state, and what the end of a call means.
-/

namespace Roamkit.Partner.Proof

open Lib Billing Organizations Partner Billing.Proof

/-! ## What a call relies on -/

/-- A grant takes the amount it was asked for from the account of its channel. -/
def GrantLocal (s : ReferralDb) (t : GrantThread) : Prop :=
  ∀ plan, planOf t.pc = some plan → ChannelSettlesOn s t.call.args.partnerChannel plan.source
    ∧ normalizeAmount t.call.args.amount = .ok plan.amount

/-- What a call relies on. -/
def PartnerLocal (s : PartnerDb) : PartnerThread → Prop
  | .rows t => (∀ p, t.call = .post p → Outside p) ∧ MintSettles s.rows t
  | .grant t => GrantLocal s.rows t
  | .accrue _ _ => True

section Calls

variable {s : PartnerDb} {enabled : Bool} {k : PartnerChannel} {plan : GrantPlan}

theorem outside_of_notPartner {p : Posting}
    (h : isPartnerType p.referenceType = false ∧ ¬ IsPartnerKey p.idempotencyKey) : Outside p := by
  obtain ⟨htype, hkey⟩ := h
  simp only [isPartnerType, Bool.or_eq_false_iff, decide_eq_false_iff_not] at htype
  constructor
  · rintro (hgrant | ⟨id, hid | hid⟩)
    · simp only [isGrantType, Bool.or_eq_true, decide_eq_true_eq] at hgrant
      exact hgrant.elim htype.1.2 htype.2
    · exact hkey (.grantOut hid)
    · exact hkey (.grantIn hid)
  · rintro (hmargin | ⟨t, i, hmargin⟩)
    · exact htype.1.1 hmargin
    · exact hkey (.margin hmargin)

theorem outside_of_bonus {p : Posting} (htype : p.referenceType = .partnerInviteBonus)
    {user : UserId} (hkey : p.idempotencyKey = bonusKey user) : Outside p := by
  constructor
  · rintro (hgrant | ⟨id, hid | hid⟩)
    · rw [htype] at hgrant
      cases hgrant
    · exact bonusKey_ne_out user id (hkey.symm.trans hid)
    · exact bonusKey_ne_in user id (hkey.symm.trans hid)
  · rintro (hmargin | ⟨t, i, hmargin⟩)
    · rw [htype] at hmargin
      cases hmargin
    · exact bonusKey_ne_margin user t i (hkey.symm.trans hmargin)

/-- **The source of a grant is the account its channel settles on, however it is found.** -/
theorem plan_settles (h : AccountsInv s.rows) {call : GrantCall} (hk : k ∈ s.rows.channels)
    (hid : k.id = call.args.partnerChannel) (hp : s.grantDb.plan enabled k call = .ok plan) :
    ChannelSettlesOn s.rows call.args.partnerChannel plan.source
      ∧ normalizeAmount call.args.amount = .ok plan.amount := by
  have hargs : ∀ (a : GrantArgs) (amount : Amount), GrantDb.checkArgs enabled a = .ok amount →
      normalizeAmount a.amount = .ok amount := by
    intro a amount hcheck
    unfold GrantDb.checkArgs at hcheck
    split at hcheck
    · cases hcheck
    obtain ⟨quantized, hquantized, hcheck⟩ := bind_ok hcheck
    split at hcheck
    · cases hcheck
      exact hquantized
    · cases hcheck
  cases call with
  | grant a =>
    obtain ⟨amount, hcheck, hp⟩ := bind_ok hp
    split at hp
    · obtain ⟨source, hsource, hp⟩ := bind_ok hp
      cases hp
      refine ⟨⟨k, hk, hid, ?_⟩, hargs a amount hcheck⟩
      unfold GrantDb.organizationAccount at hsource
      split at hsource
      · cases hsource
      rename_i organization howner
      rw [howner]
      split at hsource
      · cases hsource
      rename_i o ho
      cases hsource
      exact ⟨o, Table.mem_of_find? ho, by simpa using Table.prop_of_find? ho, rfl⟩
    · cases hp
  | grantFromAccount a =>
    obtain ⟨source, hsource, hp⟩ := bind_ok hp
    obtain ⟨amount, hcheck, hp⟩ := bind_ok hp
    cases hp
    exact ⟨⟨k, hk, hid, (settlementAccount_iff h).1 hsource⟩, hargs a amount hcheck⟩

end Calls

/-! ## Every step -/

section Step

variable {c : ReferralSettings} {s s' : PartnerDb} {t t' : PartnerThread} {x : PartnerInput}

theorem rowsStep_locks (s : ReferralDb) (locks : List LockedRow) : RowsStep s { s with locks } :=
  rowsStep_of_eq rfl rfl rfl rfl (.refl _)

theorem RowsStep.relock {s₁ s₂ : ReferralDb} {locks : List LockedRow} (h : RowsStep s₁ s₂) :
    RowsStep s₁ { s₂ with locks } :=
  ⟨h.accounts, h.newAccount, h.organizations, h.newOrganization, h.channels, h.newChannel,
    h.links, h.balances⟩

theorem GrantLocal.step {s s₁ : ReferralDb} {t : GrantThread} (h : GrantLocal s t)
    (hs : RowsStep s s₁) :
    GrantLocal s₁ t := by
  intro plan hplan
  obtain ⟨hsettles, hamount⟩ := h plan hplan
  exact ⟨hsettles.step hs, hamount⟩

theorem PartnerLocal.step (h : PartnerLocal s t) (hs : RowsStep s.rows s'.rows) :
    PartnerLocal s' t := by
  cases t with
  | rows t => exact ⟨h.1, h.2.step hs⟩
  | grant t => exact GrantLocal.step h hs
  | accrue k pc => trivial

/-- A step of the organization and referral services. -/
theorem rows_step {t : ReferralThread} {y : ReferralInput} {rows : ReferralDb} {u : ReferralThread}
    (h : PartnerInv s) (hL : ∀ p, t.call = .post p → Outside p) (hmint : MintSettles s.rows t)
    (hs : referralStep c s.rows t y = some (rows, u)) :
    PartnerInv { s with rows } ∧ ((∀ p, u.call = .post p → Outside p) ∧ MintSettles rows u)
      ∧ RowsStep s.rows rows := by
  have heffect := referralStep_effect hs
  obtain ⟨rows₁, hw, hrows⟩ := heffect.write
  obtain ⟨hbooks, hstep⟩ := write_partner hw hmint
  have hout : BooksMove Outside s.rows.books rows.books := by
    rw [hrows]
    have hkind : ∀ p, PostedBy t p → Outside p := by
      rintro p (hcall | ⟨htype, user, hkey⟩)
      · exact hL p hcall
      · exact outside_of_bonus htype hkey
    show BooksMove Outside s.rows.books rows₁.books
    generalize rows₁.books = books at hbooks
    cases hbooks with
    | same => exact .same
    | opens hi => exact .opens hi
    | posts hq ha => exact .posts (hkind _ hq) ha
  have hrelocked : RowsStep s.rows rows := by
    rw [hrows]
    exact hstep.relock
  refine ⟨h.quiet hrelocked hout rfl rfl, ⟨?_, mintSettles_step heffect hmint⟩, hrelocked⟩
  intro p hp
  rw [heffect.call] at hp
  exact hL p hp

/-- A step of a grant. -/
theorem grant_step {t u : GrantThread} {y : GrantInput} {d : GrantDb} (h : PartnerInv s)
    (hL : GrantLocal s.rows t)
    (hs : grantStep c.partnerChannelEnabled s.grantDb t y = some (d, u)) :
    PartnerInv (s.withGrants d) ∧ GrantLocal d.rows u ∧ RowsStep s.rows d.rows := by
  have heffect := grantStep_effect hs
  have hstep : PartnerInv (s.withGrants d) ∧ RowsStep s.rows d.rows := by
    rcases heffect.write with ⟨hgrants, hrows⟩
      | ⟨plan, attribution, d₁, g, hpc, hwritten, hgrants, hrows, _⟩
    · have hlocks : RowsStep s.rows d.rows := by
        rw [hrows]
        exact rowsStep_locks s.rows _
      refine ⟨h.quiet hlocks ?_ hgrants rfl, hlocks⟩
      show BooksMove Outside s.rows.books d.rows.books
      rw [hrows]
      exact .same
    · have hwrite := h.writes hwritten
      have hsource := (hL plan (by rw [hpc]; rfl)).1
      have hinv := h.grant hwrite hsource
      have hrelocked : RowsStep s.rows d.rows := by
        rw [hrows]
        exact hwrite.rows.relock
      refine ⟨hinv.quiet ?_ ?_ hgrants rfl, hrelocked⟩
      · show RowsStep d₁.rows d.rows
        rw [hrows]
        exact rowsStep_locks d₁.rows _
      · show BooksMove Outside d₁.rows.books d.rows.books
        rw [hrows]
        exact .same
  refine ⟨hstep.1, ?_, hstep.2⟩
  intro plan hplan
  rw [heffect.call]
  rcases heffect.plan plan hplan with hold | ⟨k, hk, hp⟩
  · obtain ⟨hsettles, hamount⟩ := hL plan hold
    exact ⟨hsettles.step hstep.2, hamount⟩
  · have hid : k.id = t.call.args.partnerChannel := by simpa using Table.prop_of_find? hk
    obtain ⟨hsettles, hamount⟩ := plan_settles h.accounts (Table.mem_of_find? hk) hid hp
    exact ⟨hsettles.step hstep.2, hamount⟩

theorem accrueStep_run {k : AccrueCall} {id : Uuid} (hs : accrueStep c s k id = some (s', t')) :
    (s' = s ∨ k.run c.partnerChannelEnabled s id = .ok s') ∧ ∃ pc, t' = .accrue k pc := by
  unfold accrueStep at hs
  split at hs
  · split at hs
    · cases hs
      exact ⟨.inl rfl, _, rfl⟩
    · rename_i hrun
      cases hs
      exact ⟨.inr hrun, _, rfl⟩
  · cases hs

/-- An accrual leaves the tables of settlement. -/
theorem rowsStep_accrue {k : AccrueCall} {enabled : Bool} {id : Uuid}
    (hok : k.run enabled s id = .ok s') :
    RowsStep s.rows s'.rows := by
  obtain ⟨m, hm, hok⟩ := bind_ok hok
  cases hok
  refine rowsStep_of_eq rfl rfl rfl rfl ?_
  rcases Spend.Proof.accrue_ok hm with rfl | ⟨src, view, account, share, hpays⟩
  · exact .refl _
  · obtain ⟨p, e, ha, _⟩ := Spend.Proof.pay_cases hpays.pays
    exact apply_balances ha

/-- **Every step keeps the ledger, the grants and the accruals together.** -/
theorem partnerStep_inv (h : PartnerInv s) (hL : PartnerLocal s t)
    (hs : partnerStep c s t x = some (s', t')) :
    PartnerInv s' ∧ PartnerLocal s' t' ∧ RowsStep s.rows s'.rows := by
  unfold partnerStep at hs
  split at hs
  · obtain ⟨⟨rows, u⟩, hstep, hs⟩ := Option.map_eq_some_iff.1 hs
    cases hs
    exact rows_step h hL.1 hL.2 hstep
  · obtain ⟨⟨d, u⟩, hstep, hs⟩ := Option.map_eq_some_iff.1 hs
    cases hs
    exact grant_step h hL hstep
  · obtain ⟨hrun, pc, rfl⟩ := accrueStep_run hs
    rcases hrun with rfl | hrun
    · exact ⟨h, trivial, rowsStep_locks _ _⟩
    · exact ⟨(h.accrue hrun).1, trivial, rowsStep_accrue hrun⟩
  · cases hs
    exact ⟨h, trivial, rowsStep_locks s.rows _⟩
  · cases hs

end Step

/-! ## Every run -/

/-- Sound books with no grants and no accruals, and channels and accounts as they should be. -/
structure FreshPartners (s : PartnerDb) : Prop where
  books : BooksInv s.rows.books
  accounts : AccountsInv s.rows
  links : ∀ k ∈ s.rows.channels, ∃ l ∈ s.rows.links, l.partnerChannel = k.id
  settles : ∀ k ∈ s.rows.channels, ∃ account, SettlesOn s.rows k.owner account
  grants : s.grants = .empty
  accruals : s.accruals = .empty
  entries : ∀ e ∈ s.rows.books.entries, ¬ ClaimsGrant e.referenceType e.idempotencyKey
    ∧ ¬ ClaimsMargin e.referenceType e.idempotencyKey

theorem partnerInv_init {s : PartnerDb} (h : FreshPartners s) : PartnerInv s := by
  refine ⟨h.books, h.accounts, h.links, h.settles, ?_, ?_, ?_, ?_, ?_⟩
  · intro g hg
    rw [h.grants] at hg
    exact absurd hg (Table.not_mem_empty g)
  · exact fun e he hclaims => absurd hclaims (h.entries e he).1
  · have hnone : s.rows.books.entries.rows.filter (fun e => isGrantType e.referenceType) = [] := by
      refine List.filter_eq_nil_iff.2 ?_
      exact fun e he hgrant => (h.entries e he).1 (.inl hgrant)
    unfold flows
    rw [hnone]
    rfl
  · intro a ha
    rw [h.accruals] at ha
    exact absurd ha (Table.not_mem_empty a)
  · exact fun e he hclaims => absurd hclaims (h.entries e he).2

theorem partnerInvariant (c : ReferralSettings) :
    Invariant (partnerProgram c) FreshPartners (fun _ _ _ => True) PartnerInv PartnerLocal
      (fun _ _ => True) where
  init := partnerInv_init
  start := by
    intro s k _
    cases k with
    | rows k =>
        exact ⟨fun p hp => outside_of_notPartner (k.notPartner p hp),
          fun _ _ _ _ _ hpc => by cases hpc⟩
    | grant k =>
      intro plan hplan
      cases hplan
    | accrue k => trivial
  apart_start := fun _ _ => trivial
  symm := fun _ => trivial
  step := fun h hL _ hs => ⟨(partnerStep_inv h hL hs).1, (partnerStep_inv h hL hs).2.1⟩
  frame := fun h hL _ hs hu _ => ⟨hu.step (partnerStep_inv h hL hs).2.2, trivial⟩

/-! ## Grants -/

/-- What the ledger says of the grants. -/
structure GrantsSound (s : PartnerDb) : Prop where
  /-- A key of a channel has one grant. -/
  unique : ∀ g ∈ s.grants, ∀ q ∈ s.grants, g.partnerChannel = q.partnerChannel →
    g.idempotencyKey = q.idempotencyKey → g = q
  /-- A grant has one debit, of its amount, on the settlement account of its channel. -/
  debit : ∀ g ∈ s.grants, ∃ k ∈ s.rows.channels, k.id = g.partnerChannel
    ∧ ∃! e, e ∈ s.rows.books.entries ∧ e.referenceType = .partnerGrantOut ∧ e.referenceId = g.id.str
      ∧ e.delta = -g.amount.micros ∧ s.rows.settlementAccount k.owner = .ok e.account
  /-- And one credit, of its amount, on the personal account of its customer. -/
  credit : ∀ g ∈ s.grants, ∃ a ∈ s.rows.accounts, a.user = some g.customer ∧ a.kind = .personal
    ∧ ∃! e, e ∈ s.rows.books.entries ∧ e.referenceType = .partnerGrantIn ∧ e.referenceId = g.id.str
      ∧ e.delta = g.amount.micros ∧ e.account = a.id
  /-- Every debit and every credit of these kinds is a grant's. -/
  origin : ∀ e ∈ s.rows.books.entries, isGrantType e.referenceType = true → ∃ g ∈ s.grants,
    e.referenceId = g.id.str ∧ (e.idempotencyKey = g.debitEntry ∨ e.idempotencyKey = g.creditEntry)
  /-- The balances add up to what was posted by everyone else. -/
  conserved : holdings s.rows.books = flows s.rows.books fun t => !isGrantType t

section Sound

variable {s : PartnerDb}

theorem grant_eq {g q : PartnerCreditGrant} (hg : g ∈ s.grants) (hq : q ∈ s.grants)
    (h : g.id = q.id) :
    g = q := Table.eq_of_clash hg hq (.inl h)

theorem entry_eq {e f : CreditLedgerEntry} (he : e ∈ s.rows.books.entries)
    (hf : f ∈ s.rows.books.entries) (h : e.idempotencyKey = f.idempotencyKey) : e = f :=
  Table.eq_of_clash he hf h

/-- The entry of a kind that refers to a grant is the one the grant names. -/
theorem PartnerInv.named (h : PartnerInv s) {e : CreditLedgerEntry} (he : e ∈ s.rows.books.entries)
    {g : PartnerCreditGrant} (hg : g ∈ s.grants) (href : e.referenceId = g.id.str) :
    (e.referenceType = .partnerGrantOut → e.idempotencyKey = g.debitEntry)
      ∧ (e.referenceType = .partnerGrantIn → e.idempotencyKey = g.creditEntry) := by
  have hof : ∀ q ∈ s.grants, ∀ key type delta account,
    HasEntry s.rows.books key type q.id.str delta account →
      e.idempotencyKey = key → q = g := by
    rintro q hq key type delta account ⟨f, hf, hfkey, _, hfref, _⟩ hkey
    have hef : e = f := entry_eq he hf (hkey.trans hfkey.symm)
    refine grant_eq hq hg (Uuid.ext ?_)
    rw [← hfref, ← hef, href]
  constructor
  · intro htype
    obtain ⟨q, hq, ⟨hkey, _⟩ | ⟨_, htype'⟩⟩ := h.granted e he (.inl (by rw [htype]; rfl))
    · obtain ⟨account, _, hentry⟩ := (h.grants q hq).debit
      rw [← hof q hq _ _ _ _ hentry hkey]
      exact hkey
    · rw [htype] at htype'
      cases htype'
  · intro htype
    obtain ⟨q, hq, ⟨_, htype'⟩ | ⟨hkey, _⟩⟩ := h.granted e he (.inl (by rw [htype]; rfl))
    · rw [htype] at htype'
      cases htype'
    · obtain ⟨a, _, _, hentry⟩ := (h.grants q hq).credit
      rw [← hof q hq _ _ _ _ hentry hkey]
      exact hkey

theorem PartnerInv.grantsSound (h : PartnerInv s) : GrantsSound s := by
  refine ⟨?_, ?_, ?_, ?_, ?_⟩
  · intro g hg q hq hchannel hkey
    exact Table.eq_of_clash hg hq (.inr (.inl ⟨hchannel, hkey⟩))
  · intro g hg
    obtain ⟨account, ⟨k, hk, hid, hsettles⟩, e, he, hkey, htype, href, hdelta, hacc⟩ :=
      (h.grants g hg).debit
    refine ⟨k, hk, hid, e, ⟨he, htype, href, hdelta, ?_⟩, ?_⟩
    · rw [hacc]
      exact (settlementAccount_iff h.accounts).2 hsettles
    · rintro f ⟨hf, hftype, hfref, _, _⟩
      exact entry_eq hf he (((h.named hf hg hfref).1 hftype).trans hkey.symm)
  · intro g hg
    obtain ⟨a, ha, huser, e, he, hkey, htype, href, hdelta, hacc⟩ := (h.grants g hg).credit
    refine ⟨a, ha, huser, h.accounts.personal a ha (by rw [huser]; rfl), e,
      ⟨he, htype, href, hdelta, hacc⟩, ?_⟩
    rintro f ⟨hf, hftype, hfref, _, _⟩
    exact entry_eq hf he (((h.named hf hg hfref).2 hftype).trans hkey.symm)
  · intro e he htype
    obtain ⟨g, hg, ⟨hkey, _⟩ | ⟨hkey, _⟩⟩ := h.granted e he (.inl htype)
    · obtain ⟨account, _, f, hf, hfkey, _, hfref, _⟩ := (h.grants g hg).debit
      refine ⟨g, hg, ?_, .inl hkey⟩
      rw [entry_eq he hf (hkey.trans hfkey.symm)]
      exact hfref
    · obtain ⟨a, _, _, f, hf, hfkey, _, hfref, _⟩ := (h.grants g hg).credit
      refine ⟨g, hg, ?_, .inr hkey⟩
      rw [entry_eq he hf (hkey.trans hfkey.symm)]
      exact hfref
  · rw [h.books.holdings_eq, flows_split s.rows.books isGrantType, h.balanced, Int.zero_add]

end Sound

/--
**Grants of any channels, actors and customers, crossing each other and everything else, agree with
the ledger and make no money.**
-/
theorem grants_sound {c : ReferralSettings} {g : Config PartnerDb PartnerThread}
    (h : (partnerProgram c).Reach FreshPartners g) : GrantsSound g.store :=
  ((partnerInvariant c).reach h).store.grantsSound

/-! ### What the end of a call means -/

/-- The ledger and the grants are as they were, whatever is locked. -/
structure GrantUnmoved (s s' : PartnerDb) : Prop where
  grants : s'.grants = s.grants
  accruals : s'.accruals = s.accruals
  rows : s'.rows = { s.rows with locks := s'.rows.locks }

/-- What a step of a grant did, read off where the call then is. -/
structure GrantStepSound (s : PartnerDb) (t : GrantThread) (s' : PartnerDb)
    (t' : GrantThread) : Prop where
  /-- No step changes what all accounts hold together. -/
  holdings : holdings s'.rows.books = holdings s.rows.books
  /-- A call that does not return has changed nothing, and above all one that raises. -/
  unreturned : (∀ g, t'.pc ≠ .returned g) → GrantUnmoved s s'
  /-- It returns the grant of its key, for its customer and the amount it was asked for. -/
  returned : ∀ g, t'.pc = .returned g
    → g ∈ s'.grants ∧ g.partnerChannel = t.call.args.partnerChannel
    ∧ g.idempotencyKey = t.call.args.idempotencyKey ∧ g.customer = t.call.args.customer
    ∧ normalizeAmount t.call.args.amount = .ok g.amount
  /-- A grant that was there is returned without a change. -/
  replayed : ∀ g, t'.pc = .returned g → g ∈ s.grants → GrantUnmoved s s'
  /-- A grant that is new comes with its two entries, and nothing else. -/
  made : ∀ g, t'.pc = .returned g → g ∉ s.grants → s.grants.insert? g = some s'.grants
    ∧ ∃ e₁ e₂, s'.rows.books.entries.rows = s.rows.books.entries.rows ++ [e₁, e₂]
      ∧ e₁.idempotencyKey = g.debitEntry ∧ e₁.delta = -g.amount.micros
      ∧ e₂.idempotencyKey = g.creditEntry ∧ e₂.delta = g.amount.micros ∧ e₁.account ≠ e₂.account

theorem grantStep_sound {enabled : Bool} {s : PartnerDb} {t u : GrantThread} {y : GrantInput}
    {d : GrantDb} (h : PartnerInv s) (hL : GrantLocal s.rows t)
    (hs : grantStep enabled s.grantDb t y = some (d, u)) :
    GrantStepSound s t (s.withGrants d) u := by
  have heffect := grantStep_effect hs
  have hreturned : ∀ g, u.pc = .returned g
    → g ∈ d.grants ∧ g.partnerChannel = t.call.args.partnerChannel
      ∧ g.idempotencyKey = t.call.args.idempotencyKey ∧ g.customer = t.call.args.customer
      ∧ normalizeAmount t.call.args.amount = .ok g.amount := by
    intro g hg
    obtain ⟨hmem, plan, hplan, hmatches⟩ := heffect.answer g hg
    refine ⟨hmem, hmatches.channel, hmatches.key, hmatches.customer, ?_⟩
    rw [(hL plan hplan).2, hmatches.amount]
  rcases heffect.write with ⟨hgrants, hrows⟩ | ⟨plan, a, d₁, g, hpc, hwritten, hgrants, hrows, hu⟩
  · have hunmoved : GrantUnmoved s (s.withGrants d) := ⟨hgrants, rfl, hrows⟩
    refine ⟨?_, fun _ => hunmoved, hreturned, fun _ _ _ => hunmoved, ?_⟩
    · show Billing.Proof.holdings d.rows.books = _
      rw [hrows]
      rfl
    · intro g hg hnew
      have hmem := (hreturned g hg).1
      rw [hgrants] at hmem
      exact absurd hmem hnew
  · have hwrite := h.writes hwritten
    have hbooks : d.rows.books = d₁.rows.books := by rw [hrows]
    refine ⟨?_, fun hnot => absurd hu (hnot g), hreturned, ?_, ?_⟩
    · show Billing.Proof.holdings d.rows.books = _
      rw [hbooks]
      exact holdings_grant h hwrite
    · intro q hq hold
      rw [hu] at hq
      cases hq
      exact absurd (.inl rfl) (Table.apart_of_insert hwrite.inserted hold)
    · intro q hq _
      rw [hu] at hq
      cases hq
      obtain ⟨e₁, e₂, hentries, ⟨hkey₁, _, _, hdelta₁, _⟩, ⟨hkey₂, _, _, hdelta₂⟩, hne, _⟩ :=
        hwrite.entries
      refine ⟨?_, e₁, e₂, ?_, hkey₁, hdelta₁, hkey₂, hdelta₂, hne⟩
      · show s.grants.insert? g = some d.grants
        rw [hgrants]
        exact hwrite.inserted
      · show d.rows.books.entries.rows = _
        rw [hbooks]
        exact hentries

/--
**In every reachable state a step of a grant moves nothing unless it returns a new grant, and then
exactly the amount; a replay returns what is stored.**
-/
theorem grant_steps_sound {c : ReferralSettings} {g : Config PartnerDb PartnerThread} {p : Nat}
    {t : GrantThread} {y : GrantInput} {s' : PartnerDb} {t' : PartnerThread}
    (h : (partnerProgram c).Reach FreshPartners g) (ht : g.threads p = some (.grant t))
    (hs : partnerStep c g.store (.grant t) (.grant y) = some (s', t')) :
    ∃ u, t' = .grant u ∧ GrantStepSound g.store t s' u := by
  have hinv := (partnerInvariant c).reach h
  obtain ⟨⟨d, u⟩, hstep, heq⟩ := Option.map_eq_some_iff.1 hs
  cases heq
  exact ⟨u, rfl, grantStep_sound hinv.store (hinv.thread p _ ht) hstep⟩

/-! ### The founder shares with the guest -/

/-- The founder's link was clicked; there are no grants and no accruals. -/
def visited : PartnerDb := ⟨invited, .empty, .empty⟩

theorem freshPartners_visited : FreshPartners visited where
  books := booksInv_init fresh_twoAccounts
  accounts := by constructor <;> decide
  links := by decide
  settles := by
    intro k hk
    rw [List.mem_singleton.1 hk]
    exact ⟨alice, ⟨alice, some 1, .personal⟩, List.mem_cons_self, rfl, rfl⟩
  grants := rfl
  accruals := rfl
  entries e he := absurd he (Table.not_mem_empty e)

/-- The guest registers by the link. -/
def guestRegisters : List (Act PartnerCall PartnerInput) :=
  .call 0
    (.rows ⟨.attribution (.attributeCreated guest.id (some guestVisit)), fun _ h => nomatch h⟩)
    :: List.replicate 4 (.tick 0 (.rows (.go ⟨0, fun i => drawn.getD i alice, fun _ => "", 0⟩)))

/-- The guest's first order leaves a margin of four dollars. -/
def guestBuys : List (Act PartnerCall PartnerInput) :=
  [.call 1
    (.accrue ⟨.order, "1", some (.ofUnits 6 10000000), some (.ofUnits 6 6000000), some guest.id⟩),
    .tick 1 (.accrue company)]

/-- The step of a grant, with the primary keys it draws. -/
def founderStep : PartnerInput := .grant (.go fun i => drawn.getD (i + 1) alice)

/-- The founder grants the guest half a dollar of the share, up to the last step. -/
def founderGrants : List (Act PartnerCall PartnerInput) :=
  .call 2
    (.grant (.grantFromAccount
      ⟨founder.id, founderChannel, guest.id, .decimal (.finite ⟨5, -1⟩), "thanks"⟩))
    :: List.replicate 3 (.tick 2 founderStep)

/-- The last step of the grant. -/
def granted (g : Config PartnerDb PartnerThread) : Option (PartnerDb × PartnerThread) :=
  (g.threads 2).bind fun t => partnerStep referralSettings g.store t founderStep

/-- It makes a grant of half a dollar. -/
def grantsHalf (g : Config PartnerDb PartnerThread) : Bool :=
  match g.threads 2, granted g with
  | some (.grant _), some (s', .grant ⟨_, .returned q, _⟩) =>
    q.amount.micros = 500000 && s'.grants.rows = [q] && g.store.grants.rows.isEmpty
  | _, _ => false

theorem grants_sound_half : ∃ g : Config PartnerDb PartnerThread,
    g.store.grants.rows.any (·.amount.micros = 500000) = true
    ∧ holdings g.store.rows.books = flows g.store.rows.books fun t => !isGrantType t := by
  obtain ⟨g, hr, hf⟩ := Program.run_check (partnerProgram referralSettings) visited
    (guestRegisters ++ guestBuys ++ founderGrants ++ [.tick 2 founderStep])
    (fun g => g.store.grants.rows.any (·.amount.micros = 500000)) (by decide)
  exact ⟨g, hf, (grants_sound (Program.reach_run freshPartners_visited hr)).conserved⟩

theorem grant_steps_sound_half : ∃ s t s' t' q, GrantStepSound s t s' t' ∧ t'.pc = .returned q
    ∧ q ∉ s.grants ∧ q.amount.micros = 500000 := by
  obtain ⟨g, hr, hf⟩ := Program.run_check (partnerProgram referralSettings) visited
    (guestRegisters ++ guestBuys ++ founderGrants) grantsHalf (by decide)
  unfold grantsHalf at hf
  split at hf
  · rename_i t s' c q held ht hgranted
    rw [granted, ht] at hgranted
    obtain ⟨u, hu, hsound⟩ :=
      grant_steps_sound (Program.reach_run freshPartners_visited hr) ht hgranted
    cases hu
    obtain ⟨⟨hamount, _⟩, hnone⟩ := by simpa using hf
    refine ⟨_, _, _, _, q, hsound, rfl, ?_, hamount⟩
    rw [Table.mem_def, hnone]
    exact List.not_mem_nil
  · cases hf

end Roamkit.Partner.Proof

/-!
## Accruals in any interleaving

An accrual is made once for its source, by one entry on the account its channel settles
on, and only while the customer is attributed to an active channel that is not the
customer's own. The share is a part of the margin, which is exact where the prices are
millionths.
-/

namespace Roamkit.Partner.Proof

open Lib Billing Organizations Partner Billing.Proof Pricing.Proof

/-! ### The share -/

/-- The share of a margin between prices in millionths. -/
theorem partnerShare_units {list net percent share : Int} (hlist : list.natAbs < 10 ^ 20)
    (hnet : net.natAbs < 10 ^ 20) (hpercent : 0 ≤ percent) (hpercent' : percent ≤ 10000)
    (h : partnerShare (Dec.ofUnits 6 list) (Dec.ofUnits 6 net) percent = some share) :
    share = halfUp ((list - net) * percent) 10000 := by
  have hmul := natAbs_mul_le (m := list - net) hpercent hpercent'
  have hsmall : ((list - net) * percent).natAbs < 10 ^ precision := by
    unfold precision
    omega
  have hsub : Dec.sub (Dec.ofUnits 6 list) (Dec.ofUnits 6 net) = ⟨list - net, -6⟩ := by
    have hround : Dec.sub (Dec.ofUnits 6 list) (Dec.ofUnits 6 net)
        = Dec.round ⟨list - net, -6⟩ := by
      unfold Dec.sub Dec.ofUnits
      norm_num
    rw [hround]
    refine round_eq ?_
    show (list - net).natAbs < 10 ^ precision
    unfold precision
    omega
  -- no digit is lost before the share is rounded to millionths
  have hprod : Dec.mul ⟨list - net, -6⟩ (Dec.ofUnits 2 percent) = ⟨(list - net) * percent, -8⟩ :=
    round_eq hsmall
  have hdiv : Dec.percent ⟨(list - net) * percent, -8⟩ = ⟨(list - net) * percent, -10⟩ :=
    round_eq hsmall
  unfold partnerShare at h
  rw [hsub, hprod, hdiv] at h
  unfold Dec.quantize at h
  split at h
  · rw [← Option.some.inj h]
    unfold Dec.units
    norm_num [Int.toNat]
  · cases h

/-- A percentage of a margin is no more than the margin. -/
theorem halfUp_percent_le {margin percent : Int} (hmargin : 0 ≤ margin) (hpercent : 0 ≤ percent)
    (hpercent' : percent ≤ 10000) : halfUp (margin * percent) 10000 ≤ margin := by
  have hle : margin * percent ≤ margin * 10000 := Int.mul_le_mul_of_nonneg_left hpercent' hmargin
  rw [halfUp_of_nonneg (Int.mul_nonneg hmargin hpercent)]
  omega

/-- The share of an accrual whose prices are millionths. -/
theorem AccrualPriced.exact {a : PartnerMarginAccrual} {list net : Int}
    (h : AccrualPriced a (.ofUnits 6 list) (.ofUnits 6 net)) :
    a.listPrice = list ∧ a.netPrice = net ∧ a.margin = list - net
      ∧ a.partnerShare.micros = halfUp (a.margin * a.revenueSharePercent) 10000
      ∧ a.partnerShare.micros ≤ a.margin := by
  obtain ⟨hpositive, hpercent⟩ := h.percent
  have hfits : list.natAbs < 10 ^ 20 ∧ net.natAbs < 10 ^ 20 := by
    simpa [fitsNumeric, Dec.units_ofUnits] using h.fits
  have hnet : 0 ≤ net := h.nonneg
  have hordered : net ≤ list := by
    simpa [Dec.lt, Dec.ofUnits] using h.ordered
  have hmargin : a.margin = list - net := by
    have hsub : Dec.sub (Dec.ofUnits 6 list) (Dec.ofUnits 6 net) = Dec.ofUnits 6 (list - net) := by
      have hround : Dec.sub (Dec.ofUnits 6 list) (Dec.ofUnits 6 net)
          = Dec.round (Dec.ofUnits 6 (list - net)) := by
        unfold Dec.sub Dec.ofUnits
        norm_num
      rw [hround]
      refine round_eq ?_
      show (list - net).natAbs < 10 ^ precision
      unfold precision
      omega
    rw [h.margin, hsub, Dec.units_ofUnits]
  have hshare := partnerShare_units hfits.1 hfits.2 (Int.le_of_lt hpositive) hpercent h.share
  refine ⟨by
    rw [h.listPrice, Dec.units_ofUnits], by rw [h.netPrice, Dec.units_ofUnits], hmargin, ?_, ?_⟩
  · rw [hmargin]
    exact hshare
  · rw [hshare, hmargin]
    exact halfUp_percent_le (by omega) (Int.le_of_lt hpositive) hpercent

/-! ### Every reachable state -/

/-- What the ledger says of the accruals. -/
structure AccrualsSound (s : PartnerDb) : Prop where
  /-- A source has one accrual. -/
  unique : ∀ a ∈ s.accruals, ∀ b ∈ s.accruals, a.sourceType = b.sourceType
    → a.sourceId = b.sourceId → a = b
  /-- An accrual has one entry, of its share, on the settlement account of its channel. -/
  entry : ∀ a ∈ s.accruals, ∃ k ∈ s.rows.channels, k.id = a.partnerChannel
    ∧ ∃! e, e ∈ s.rows.books.entries ∧ e.referenceType = .partnerMargin ∧ e.referenceId = a.id.str
      ∧ e.delta = a.partnerShare.micros ∧ s.rows.settlementAccount k.owner = .ok e.account
  /-- Every entry of this kind is an accrual's, under the key of its source. -/
  origin : ∀ e ∈ s.rows.books.entries, e.referenceType = .partnerMargin → ∃ a ∈ s.accruals,
    e.referenceId = a.id.str ∧ e.idempotencyKey = marginKey a.sourceType a.sourceId
  /-- The share is what the prices and the percentage give. -/
  priced : ∀ a ∈ s.accruals, ∃ list net, AccrualPriced a list net
  /-- Where the prices are millionths it is half-up of the percentage, and no more than the
  margin. -/
  exact : ∀ a ∈ s.accruals, ∀ list net, AccrualPriced a (.ofUnits 6 list) (.ofUnits 6 net) →
    a.margin = a.listPrice - a.netPrice
      ∧ a.partnerShare.micros = halfUp (a.margin * a.revenueSharePercent) 10000
      ∧ a.partnerShare.micros ≤ a.margin

section Sound

variable {s : PartnerDb}

/-- The entry of a kind that refers to an accrual is under the key of its source. -/
theorem PartnerInv.namedAccrual (h : PartnerInv s) {e : CreditLedgerEntry}
    (he : e ∈ s.rows.books.entries) (htype : e.referenceType = .partnerMargin) :
    ∃ a ∈ s.accruals, e.referenceId = a.id.str
      ∧ e.idempotencyKey = a.ledgerEntry := by
  obtain ⟨a, ha, hkey, _⟩ := h.accrued e he (.inl htype)
  obtain ⟨account, _, f, hf, hfkey, _, hfref, _⟩ := (h.accruals a ha).entry
  refine ⟨a, ha, ?_, hkey⟩
  rw [entry_eq he hf (hkey.trans hfkey.symm)]
  exact hfref

theorem PartnerInv.accrualsSound (h : PartnerInv s) : AccrualsSound s := by
  refine ⟨?_, ?_, ?_, fun a ha => (h.accruals a ha).priced, ?_⟩
  · intro a ha b hb htype hid
    exact Table.eq_of_clash ha hb (.inr (.inl ⟨htype, hid⟩))
  · intro a ha
    obtain ⟨account, ⟨k, hk, hid, hsettles⟩, e, he, hkey, htype, href, hdelta, hacc⟩ :=
      (h.accruals a ha).entry
    refine ⟨k, hk, hid, e, ⟨he, htype, href, hdelta, ?_⟩, ?_⟩
    · rw [hacc]
      exact (settlementAccount_iff h.accounts).2 hsettles
    · rintro f ⟨hf, hftype, hfref, _, _⟩
      obtain ⟨b, hb, hbref, hbkey⟩ := h.namedAccrual hf hftype
      have hba : b = a := Table.eq_of_clash hb ha (.inl (Uuid.ext (hbref.symm.trans hfref)))
      exact entry_eq hf he (hbkey.trans (hba ▸ hkey.symm))
  · intro e he htype
    obtain ⟨a, ha, href, hkey⟩ := h.namedAccrual he htype
    exact ⟨a, ha, href, hkey.trans (h.accruals a ha).ledgerEntry⟩
  · intro a ha list net hpriced
    obtain ⟨hlist, hnet, hmargin, hshare, hle⟩ := hpriced.exact
    exact ⟨by rw [hmargin, hlist, hnet], hshare, hle⟩

end Sound

/--
**Accruals agree with the ledger, one for each source, whatever happens to attributions and channels
between them.**
-/
theorem accruals_sound {c : ReferralSettings} {g : Config PartnerDb PartnerThread}
    (h : (partnerProgram c).Reach FreshPartners g) : AccrualsSound g.store :=
  ((partnerInvariant c).reach h).store.accrualsSound

/--
**A step of a fulfilment leaves everything as it was, and always when the accrual raises, or makes
one accrual for a customer who is then attributed to an active channel, is not its owner and no
active member of its organization.**
-/
theorem accrual_steps_sound {c : ReferralSettings} {g : Config PartnerDb PartnerThread} {p : Nat}
    {k : AccrueCall} {pc : AccruePc} {x : PartnerInput} {s' : PartnerDb} {t' : PartnerThread}
    (h : (partnerProgram c).Reach FreshPartners g) (ht : g.threads p = some (.accrue k pc))
    (hs : partnerStep c g.store (.accrue k pc) x = some (s', t')) :
    s' = g.store ∨ (t' = .accrue k .returned ∧ ∃ r, AccruesNow g.store k s' r) := by
  have hinv : PartnerInv g.store := ((partnerInvariant c).reach h).store
  cases pc with
  | returned => cases x <;> cases hs
  | raised e => cases x <;> cases hs
  | asked =>
    cases x with
    | rows x => cases hs
    | grant x => cases hs
    | fail =>
      cases hs
      exact .inl rfl
    | accrue id =>
      have hs : accrueStep c g.store k id = some (s', t') := hs
      unfold accrueStep at hs
      split at hs
      · split at hs
        · cases hs
          exact .inl rfl
        · rename_i s₁ hrun
          cases hs
          rcases (hinv.accrue hrun).2 with rfl | hmade
          · exact .inl rfl
          · exact .inr ⟨rfl, hmade⟩
      · cases hs

/-- The order has accrued a fifth of its margin. -/
def accruesFifth (g : Config PartnerDb PartnerThread) : Bool :=
  match g.store.accruals.rows with
  | [a] => a.margin = 4000000 && a.partnerShare.micros = 800000
  | _ => false

theorem accruals_sound_fifth : ∃ g, accruesFifth g = true ∧ AccrualsSound g.store := by
  obtain ⟨g, hr, hf⟩ :=
    Program.run_check (partnerProgram referralSettings) visited (guestRegisters ++ guestBuys)
    accruesFifth (by decide)
  exact ⟨g, hf, accruals_sound (Program.reach_run freshPartners_visited hr)⟩

/-- The order is about to accrue. -/
def accruesNext (g : Config PartnerDb PartnerThread) : Bool :=
  match g.threads 1 with
  | some (.accrue k .asked) =>
    match partnerStep referralSettings g.store (.accrue k .asked) (.accrue company) with
    | some (s', .accrue _ .returned) => g.store.accruals.rows.isEmpty && s'.accruals.rows.length = 1
    | _ => false
  | _ => false

theorem accrual_steps_sound_fifth : ∃ s k s' r, s.accruals.rows = [] ∧ AccruesNow s k s' r := by
  obtain ⟨g, hr, hf⟩ := Program.run_check (partnerProgram referralSettings) visited
    (guestRegisters ++ guestBuys.take 1) accruesNext (by decide)
  unfold accruesNext at hf
  split at hf
  · rename_i k ht
    split at hf
    · rename_i s' k' hs
      obtain ⟨hnone, hone⟩ := by simpa using hf
      rcases accrual_steps_sound (Program.reach_run freshPartners_visited hr) ht hs
        with rfl | ⟨_, r, hmade⟩
      · rw [hnone] at hone
        cases hone
      · exact ⟨_, k, s', r, hnone, hmade⟩
    · cases hf
  · cases hf

end Roamkit.Partner.Proof
