import Roamkit.Proof.Grants
import Roamkit.Proof.Renewals

/-!
# Grants, accruals and their entries

A grant has two entries of the ledger and an accrual one, and each of these entries
belongs to the one row that names it. `PartnerInv` says so, together with what the
settlement accounts are; each of the three kinds of steps keeps it. The entries of
grants come in pairs of opposite amounts, so they add up to nothing.
-/

namespace Roamkit.Partner.Proof

open Lib Billing Organizations Partner Billing.Proof

/-! ## Keys -/

theorem grantOutKey_inj {a b : Uuid} (h : grantOutKey a = grantOutKey b) : a = b :=
  Uuid.ext ((String.append_right_inj "partner-grant-out:").1 h)

theorem grantInKey_inj {a b : Uuid} (h : grantInKey a = grantInKey b) : a = b :=
  Uuid.ext ((String.append_right_inj "partner-grant-in:").1 h)

theorem grantOutKey_ne_in (a b : Uuid) : grantOutKey a ≠ grantInKey b := ne_of_parts (by decide) _ _

theorem marginKey_ne_out (sourceType : SourceType) (sourceId : String) (id : Uuid) :
    marginKey sourceType sourceId ≠ grantOutKey id := by
  rw [marginKey_kind]
  exact ne_of_parts (by decide) _ _

theorem marginKey_ne_in (sourceType : SourceType) (sourceId : String) (id : Uuid) :
    marginKey sourceType sourceId ≠ grantInKey id := by
  rw [marginKey_kind]
  exact ne_of_parts (by decide) _ _

variable (user : UserId) (t : LedgerReferenceType) {b b' : Books} {e : CreditLedgerEntry}

theorem bonusKey_ne_margin (sourceType : SourceType) (sourceId : String) :
    bonusKey user ≠ marginKey sourceType sourceId := by
  rw [marginKey_kind]
  exact ne_of_parts (by decide) _ _

theorem bonusKey_ne_out (id : Uuid) : bonusKey user ≠ grantOutKey id :=
  ne_of_parts (by decide) _ _

theorem bonusKey_ne_in (id : Uuid) : bonusKey user ≠ grantInKey id :=
  ne_of_parts (by decide) _ _

/-- The source of an accrual is read off its key. -/
theorem marginKey_inj {t t' : SourceType} {i i' : String} (h : marginKey t i = marginKey t' i') :
    t = t' ∧ i = i' := by
  rw [marginKey_kind, marginKey_kind, String.append_right_inj] at h
  have happ : t.value ++ (":" ++ i) = t'.value ++ (":" ++ i') := by
    rw [← String.append_assoc, ← String.append_assoc]
    exact h
  have hne : ∀ u u' : SourceType, u ≠ u' → ∀ x y : String, u.value ++ x ≠ u'.value ++ y := by
    intro u u' hne x y
    cases u <;> cases u' <;> first | exact absurd rfl hne | exact ne_of_parts (by decide) _ _
  have ht : t = t' := by
    by_contra hdiff
    exact hne t t' hdiff _ _ happ
  subst ht
  exact ⟨rfl, (String.append_right_inj ":").1 ((String.append_right_inj t.value).1 happ)⟩

/-! ## The invariant -/

/-- The ledger has an entry of a kind under a key, on an account. -/
def HasEntry (b : Books) (key : String) (type : LedgerReferenceType) (reference : String)
    (delta : Int) (account : Uuid) : Prop :=
  ∃ e ∈ b.entries, e.idempotencyKey = key ∧ e.referenceType = type ∧ e.referenceId = reference
    ∧ e.delta = delta ∧ e.account = account

/-- The kinds of the two entries of a grant. -/
def isGrantType : Bool := t = .partnerGrantOut || t = .partnerGrantIn

/-- An entry that says that it is of a grant. -/
def ClaimsGrant (key : String) : Prop :=
  isGrantType t = true ∨ ∃ id, key = grantOutKey id ∨ key = grantInKey id

/-- An entry that says that it is of an accrual. -/
def ClaimsMargin (key : String) : Prop :=
  t = .partnerMargin ∨ ∃ sourceType sourceId, key = marginKey sourceType sourceId

/-- The channel of a row settles on an account. -/
def ChannelSettlesOn (s : ReferralDb) (channel account : Uuid) : Prop :=
  ∃ k ∈ s.channels, k.id = channel ∧ SettlesOn s k.owner account

/-- The two entries of a grant. -/
structure GrantPosted (s : ReferralDb) (g : PartnerCreditGrant) : Prop where
  debitEntry : g.debitEntry = grantOutKey g.id
  creditEntry : g.creditEntry = grantInKey g.id
  /-- The debit is on the account the channel settles on. -/
  debit : ∃ account, ChannelSettlesOn s g.partnerChannel account
    ∧ HasEntry s.books g.debitEntry .partnerGrantOut g.id.str (-g.amount.micros) account
  /-- The credit is on the personal account of the customer. -/
  credit : ∃ a ∈ s.accounts, a.user = some g.customer
    ∧ HasEntry s.books g.creditEntry .partnerGrantIn g.id.str g.amount.micros a.id
  /-- They are on two accounts. -/
  apart : ∃ x y, x ≠ y ∧ HasEntry s.books g.debitEntry .partnerGrantOut g.id.str
    (-g.amount.micros) x
    ∧ HasEntry s.books g.creditEntry .partnerGrantIn g.id.str g.amount.micros y

/-- The prices of an accrual, and the share they give. -/
structure AccrualPriced (a : PartnerMarginAccrual) (list net : Dec) : Prop where
  listPrice : a.listPrice = list.units 6
  netPrice : a.netPrice = net.units 6
  margin : a.margin = (Dec.sub list net).units 6
  /-- The share is a percentage of the margin. -/
  share : partnerShare list net a.revenueSharePercent = some a.partnerShare.micros
  nonneg : 0 ≤ net.coeff
  ordered : list.lt net = false
  percent : 0 < a.revenueSharePercent ∧ a.revenueSharePercent ≤ 10000
  fits : fitsNumeric 20 6 list = true ∧ fitsNumeric 20 6 net = true

/-- The entry of an accrual. -/
structure AccrualPosted (s : ReferralDb) (a : PartnerMarginAccrual) : Prop where
  ledgerEntry : a.ledgerEntry = marginKey a.sourceType a.sourceId
  /-- It is on the account the channel settles on. -/
  entry : ∃ account, ChannelSettlesOn s a.partnerChannel account
    ∧ HasEntry s.books a.ledgerEntry .partnerMargin a.id.str a.partnerShare.micros account
  priced : ∃ list net, AccrualPriced a list net

structure PartnerInv (s : PartnerDb) : Prop where
  books : BooksInv s.rows.books
  accounts : AccountsInv s.rows
  /-- A channel has a link. -/
  links : ∀ k ∈ s.rows.channels, ∃ l ∈ s.rows.links, l.partnerChannel = k.id
  /-- A channel has an account to settle on. -/
  settles : ∀ k ∈ s.rows.channels, ∃ account, SettlesOn s.rows k.owner account
  grants : ∀ g ∈ s.grants, GrantPosted s.rows g
  /-- An entry of a grant has its grant. -/
  granted : ∀ e ∈ s.rows.books.entries, ClaimsGrant e.referenceType e.idempotencyKey →
    ∃ g ∈ s.grants, (e.idempotencyKey = g.debitEntry ∧ e.referenceType = .partnerGrantOut)
      ∨ (e.idempotencyKey = g.creditEntry ∧ e.referenceType = .partnerGrantIn)
  /-- The entries of grants add up to nothing. -/
  balanced : flows s.rows.books isGrantType = 0
  accruals : ∀ a ∈ s.accruals, AccrualPosted s.rows a
  /-- An entry of an accrual has its accrual. -/
  accrued : ∀ e ∈ s.rows.books.entries, ClaimsMargin e.referenceType e.idempotencyKey →
    ∃ a ∈ s.accruals, e.idempotencyKey = a.ledgerEntry ∧ e.referenceType = .partnerMargin

/-! ## What stays -/

section Kept

variable {s s₁ : ReferralDb}

theorem ChannelSettlesOn.step {channel account : Uuid} (h : ChannelSettlesOn s channel account)
    (hs : RowsStep s s₁) : ChannelSettlesOn s₁ channel account := by
  obtain ⟨k, hk, hid, hsettles⟩ := h
  obtain ⟨k', hk', hid', howner⟩ := hs.channels k hk
  exact ⟨k', hk', hid'.trans hid, howner ▸ hsettles.step hs⟩

theorem HasEntry.kept {key : String} {type : LedgerReferenceType} {reference : String}
    {delta : Int} {account : Uuid} (h : HasEntry b key type reference delta account)
    (hkept : ∀ e ∈ b.entries, e ∈ b'.entries) : HasEntry b' key type reference delta account := by
  obtain ⟨e, he, hprops⟩ := h
  exact ⟨e, hkept e he, hprops⟩

theorem GrantPosted.step {g : PartnerCreditGrant} (h : GrantPosted s g) (hs : RowsStep s s₁)
    (hkept : ∀ e ∈ s.books.entries, e ∈ s₁.books.entries) : GrantPosted s₁ g := by
  obtain ⟨account, hchannel, hdebit⟩ := h.debit
  obtain ⟨a, ha, huser, hcredit⟩ := h.credit
  obtain ⟨x, y, hne, hx, hy⟩ := h.apart
  exact {
    debitEntry := h.debitEntry
    creditEntry := h.creditEntry
    debit := ⟨account, hchannel.step hs, hdebit.kept hkept⟩
    credit := ⟨a, hs.accounts a ha, huser, hcredit.kept hkept⟩
    apart := ⟨x, y, hne, hx.kept hkept, hy.kept hkept⟩ }

theorem AccrualPosted.step {a : PartnerMarginAccrual} (h : AccrualPosted s a) (hs : RowsStep s s₁)
    (hkept : ∀ e ∈ s.books.entries, e ∈ s₁.books.entries) : AccrualPosted s₁ a := by
  obtain ⟨account, hchannel, hentry⟩ := h.entry
  exact {
    ledgerEntry := h.ledgerEntry
    entry := ⟨account, hchannel.step hs, hentry.kept hkept⟩
    priced := h.priced }

theorem links_step (h : ∀ k ∈ s.channels, ∃ l ∈ s.links, l.partnerChannel = k.id)
    (hs : RowsStep s s₁) :
    ∀ k ∈ s₁.channels, ∃ l ∈ s₁.links, l.partnerChannel = k.id := by
  intro k' hk'
  rcases hs.newChannel k' hk' with ⟨k, hk, hid, _⟩ | ⟨hlink, _⟩
  · obtain ⟨l, hl, hchannel⟩ := h k hk
    obtain ⟨l', hl', hchannel'⟩ := hs.links l hl
    exact ⟨l', hl', hchannel'.trans (hchannel.trans hid)⟩
  · exact hlink

theorem settles_step (h : ∀ k ∈ s.channels, ∃ account, SettlesOn s k.owner account)
    (hs : RowsStep s s₁) :
    ∀ k ∈ s₁.channels, ∃ account, SettlesOn s₁ k.owner account := by
  intro k' hk'
  rcases hs.newChannel k' hk' with ⟨k, hk, _, howner⟩ | ⟨_, hsettles⟩
  · obtain ⟨account, hsettles⟩ := h k hk
    exact ⟨account, howner ▸ hsettles.step hs⟩
  · exact hsettles

/-- One more entry, and what it adds to the entries of some kinds. -/
theorem flows_append (kind : LedgerReferenceType → Bool)
    (h : b'.entries.rows = b.entries.rows ++ [e]) :
    flows b' kind = flows b kind + if kind e.referenceType then e.delta else 0 := by
  unfold flows
  rw [h, List.filter_append, total_append]
  by_cases hkind : kind e.referenceType = true
  · rw [List.filter_cons_of_pos (by simpa using hkind), List.filter_nil, total_singleton,
      if_pos hkind]
  · rw [List.filter_cons_of_neg (by simpa using hkind), List.filter_nil, total_nil, if_neg hkind]

end Kept

/-! ## Postings of others -/

/-- A posting that is neither of a grant nor of an accrual. -/
def Outside (p : Posting) : Prop :=
  ¬ ClaimsGrant p.referenceType p.idempotencyKey ∧ ¬ ClaimsMargin p.referenceType p.idempotencyKey

section Quiet

variable {s s' : PartnerDb}

theorem flows_outside (h : BooksMove Outside b b') :
    flows b' isGrantType = flows b isGrantType := by
  cases h with
  | same => rfl
  | opens _ => rfl
  | @posts p _ e hout ha =>
    rcases apply_rows ha with ⟨rfl, _⟩ | ⟨hrows, htype, _⟩
    · rfl
    · have hkind : isGrantType e.referenceType = false := by
        rw [htype]
        exact Bool.eq_false_iff.2 fun hgrant => hout.1 (.inl hgrant)
      rw [flows_append isGrantType hrows, hkind]
      exact Int.add_zero _

/-- A step that makes neither a grant nor an accrual. -/
theorem PartnerInv.quiet (h : PartnerInv s) (hrows : RowsStep s.rows s'.rows)
    (hbooks : BooksMove Outside s.rows.books s'.rows.books) (hgrants : s'.grants = s.grants)
    (haccruals : s'.accruals = s.accruals) : PartnerInv s' := by
  have hkept : ∀ e ∈ s.rows.books.entries, e ∈ s'.rows.books.entries := fun e he => hbooks.kept he
  refine ⟨booksInv_move h.books hbooks, h.accounts.step hrows, links_step h.links hrows,
    settles_step h.settles hrows, ?_, ?_, ?_, ?_, ?_⟩
  · intro g hg
    rw [hgrants] at hg
    exact (h.grants g hg).step hrows hkept
  · intro e he hclaims
    rw [hgrants]
    rcases hbooks.made he with he | ⟨p, hout, htype, hkey⟩
    · exact h.granted e he hclaims
    · rw [htype, hkey] at hclaims
      exact absurd hclaims hout.1
  · rw [flows_outside hbooks]
    exact h.balanced
  · intro a ha
    rw [haccruals] at ha
    exact (h.accruals a ha).step hrows hkept
  · intro e he hclaims
    rw [haccruals]
    rcases hbooks.made he with he | ⟨p, hout, htype, hkey⟩
    · exact h.accrued e he hclaims
    · rw [htype, hkey] at hclaims
      exact absurd hclaims hout.2

end Quiet

/-! ## A grant -/

/-- A posting under a key that is not used makes an entry. -/
theorem apply_new {p : Posting} (ha : b.apply p = .ok (b', e))
    (hnew : ∀ f ∈ b.entries, f.idempotencyKey ≠ p.idempotencyKey) :
    b'.entries.rows = b.entries.rows ++ [e] ∧ e.referenceType = p.referenceType
      ∧ e.referenceId = p.referenceId ∧ e.idempotencyKey = p.idempotencyKey ∧ e.account = p.account
      ∧ e.delta = p.delta := by
  rcases apply_rows ha with ⟨_, he, hkey⟩ | hrows
  · exact absurd hkey (hnew e he)
  · exact hrows

section Granting

variable {s : PartnerDb} {s' : GrantDb} {a : GrantArgs} {plan : GrantPlan}
  {attribution : CustomerAttribution} {g : PartnerCreditGrant}

/-- The write of a grant, entry by entry. -/
structure GrantWrite (s : PartnerDb) (a : GrantArgs) (plan : GrantPlan) (s' : GrantDb)
    (g : PartnerCreditGrant) :
    Prop where
  rows : RowsStep s.rows s'.rows
  books : BooksInv s'.rows.books
  inserted : s.grants.insert? g = some s'.grants
  of : g.partnerChannel = a.partnerChannel ∧ g.customer = a.customer ∧ g.amount = plan.amount
    ∧ g.debitEntry = grantOutKey g.id ∧ g.creditEntry = grantInKey g.id
  /-- The two entries, one after the other. -/
  entries : ∃ (e₁ e₂ : CreditLedgerEntry), s'.rows.books.entries.rows
    = s.rows.books.entries.rows ++ [e₁, e₂]
    ∧ (e₁.idempotencyKey = g.debitEntry ∧ e₁.referenceType = .partnerGrantOut
      ∧ e₁.referenceId = g.id.str
      ∧ e₁.delta = -g.amount.micros ∧ e₁.account = plan.source)
    ∧ (e₂.idempotencyKey = g.creditEntry ∧ e₂.referenceType = .partnerGrantIn
      ∧ e₂.referenceId = g.id.str
      ∧ e₂.delta = g.amount.micros) ∧ e₁.account ≠ e₂.account
    ∧ ∃ b ∈ s'.rows.accounts, b.id = e₂.account ∧ b.user = some g.customer

/-- No entry has the keys of a grant that is not there. -/
theorem PartnerInv.ungranted (h : PartnerInv s) {id : Uuid} (hnew : ∀ q ∈ s.grants, q.id ≠ id)
    (he : e ∈ s.rows.books.entries) :
    e.idempotencyKey ≠ grantOutKey id ∧ e.idempotencyKey ≠ grantInKey id := by
  have hclash : ∀ q ∈ s.grants, ∀ key, (key = q.debitEntry ∨ key = q.creditEntry) →
      key ≠ grantOutKey id ∧ key ≠ grantInKey id := by
    rintro q hq key hkey
    have hposted := h.grants q hq
    rcases hkey with rfl | rfl
    · rw [hposted.debitEntry]
      exact ⟨fun heq => hnew q hq (grantOutKey_inj heq), grantOutKey_ne_in _ _⟩
    · rw [hposted.creditEntry]
      exact ⟨(grantOutKey_ne_in _ _).symm, fun heq => hnew q hq (grantInKey_inj heq)⟩
  constructor
  · intro hkey
    obtain ⟨q, hq, hentry⟩ := h.granted e he (.inr ⟨id, .inl hkey⟩)
    exact (hclash q hq _ (hentry.imp And.left And.left)).1 hkey
  · intro hkey
    obtain ⟨q, hq, hentry⟩ := h.granted e he (.inr ⟨id, .inr hkey⟩)
    exact (hclash q hq _ (hentry.imp And.left And.left)).2 hkey

theorem PartnerInv.writes (h : PartnerInv s) (hw : Written s.grantDb a plan attribution s' g) :
    GrantWrite s a plan s' g := by
  obtain ⟨id, hid⟩ := hw.id
  have hinserted : s.grants.insert? g = some s'.grants := hw.inserted
  have hnew : ∀ q ∈ s.grants, q.id ≠ g.id := by
    intro q hq heq
    exact Table.apart_of_insert hinserted hq (.inl heq)
  obtain ⟨rows, destination, debit, credit, b₁, b₂, e₁, e₂, hdest, hb₁, hb₂, hrows, hne,
    ⟨hdacc, hddelta, hdtype, hdref, hdkey⟩, hcacc, hcdelta, hctype, hcref, hckey⟩ := hw.posted
  -- opening the account of the customer makes no entry
  have hentries : rows.books.entries = s.rows.books.entries := by
    have hmove := hdest.books
    generalize rows.books = books at hmove
    cases hmove with
    | same => rfl
    | opens _ => rfl
    | posts hfalse _ => exact hfalse.elim
  have hdebit := apply_new hb₁ fun f hf => by
    rw [hentries] at hf
    rw [hdkey]
    exact (h.ungranted hnew hf).1
  obtain ⟨hrows₁, htype₁, href₁, hkey₁, hacc₁, hdelta₁⟩ := hdebit
  have hcredit := apply_new hb₂ fun f hf => by
    rw [Table.mem_def, hrows₁, hentries] at hf
    rw [hckey]
    rcases List.mem_append.1 hf with hf | hf
    · exact (h.ungranted hnew hf).2
    · rw [List.mem_singleton.1 hf, hkey₁, hdkey]
      exact grantOutKey_ne_in _ _
  obtain ⟨hrows₂, htype₂, href₂, hkey₂, hacc₂, hdelta₂⟩ := hcredit
  obtain ⟨b, hb, hbid, hbuser⟩ := hdest.account
  have hamount : g.amount = plan.amount := by rw [hid]; rfl
  have hcustomer : g.customer = a.customer := by rw [hid]; rfl
  have hbooks : BooksInv s'.rows.books := by
    rw [hrows]
    exact ((booksInv_move h.books hdest.books).apply hb₁).apply hb₂
  refine ⟨?_, hbooks, hinserted, ?_, e₁, e₂, ?_, ?_, ?_, ?_, b, ?_, ?_, ?_⟩
  · -- the rows that the account was opened in are the rows of the end
    have hopened := hdest.step
    rw [hrows]
    have hposted : BalancesKept rows.books b₂ := (apply_balances hb₁).trans (apply_balances hb₂)
    refine ⟨hopened.accounts, ?_, hopened.organizations, hopened.newOrganization, hopened.channels,
      hopened.newChannel, hopened.links, hopened.balances.trans hposted⟩
    intro a ha
    rcases hopened.newAccount a ha with ha | ⟨hpersonal, b, hb, hbid⟩
    · exact .inl ha
    · obtain ⟨b', hb', hid'⟩ := hposted.rows b hb
      exact .inr ⟨hpersonal, b', hb', hid'.trans hbid⟩
  · rw [hid]
    exact ⟨rfl, rfl, rfl, rfl, rfl⟩
  · rw [hrows]
    show b₂.entries.rows = _
    rw [hrows₂, hrows₁, hentries, List.append_assoc]
    rfl
  · refine ⟨?_, htype₁.trans hdtype, href₁.trans hdref, ?_, hacc₁.trans hdacc⟩
    · rw [hkey₁, hdkey, hid]
      rfl
    · rw [hdelta₁, hddelta, hamount]
  · refine ⟨?_, htype₂.trans hctype, href₂.trans hcref, ?_⟩
    · rw [hkey₂, hckey, hid]
      rfl
    · rw [hdelta₂, hcdelta, hamount]
  · rw [hacc₁, hdacc, hacc₂, hcacc]
    exact hne
  · rw [hrows]
    exact hb
  · rw [hbid, hacc₂, hcacc]
  · rw [hbuser, hcustomer]

/-- **A grant keeps the ledger and the grants together.** -/
theorem PartnerInv.grant (h : PartnerInv s) (hw : GrantWrite s a plan s' g)
    (hsource : ChannelSettlesOn s.rows a.partnerChannel plan.source) :
    PartnerInv (s.withGrants s') := by
  obtain ⟨hchannel, _, _, hdebit, hcredit⟩ := hw.of
  obtain ⟨e₁, e₂, hrows, ⟨hkey₁, htype₁, href₁, hdelta₁, hacc₁⟩,
    ⟨hkey₂, htype₂, href₂, hdelta₂⟩, hne, b, hb, hbid, hbuser⟩ := hw.entries
  have hmem : ∀ e, e ∈ s'.rows.books.entries ↔ e ∈ s.rows.books.entries ∨ e = e₁ ∨ e = e₂ := by
    intro e
    rw [Table.mem_def, hrows, List.mem_append, List.mem_cons, List.mem_singleton, Table.mem_def]
  have hkept : ∀ e ∈ s.rows.books.entries, e ∈ s'.rows.books.entries :=
    fun e he => (hmem e).2 (.inl he)
  refine ⟨hw.books, h.accounts.step hw.rows, links_step h.links hw.rows,
    settles_step h.settles hw.rows, ?_, ?_, ?_, ?_, ?_⟩
  · intro q hq
    rcases (Table.mem_insert hw.inserted).1 hq with hq | rfl
    · exact (h.grants q hq).step hw.rows hkept
    · exact {
        debitEntry := hdebit
        creditEntry := hcredit
        debit :=
          ⟨plan.source, hchannel ▸ hsource.step hw.rows, e₁, (hmem e₁).2 (.inr (.inl rfl)),
            hkey₁, htype₁,
          href₁, hdelta₁, hacc₁⟩
        credit :=
          ⟨b, hb, hbuser, e₂, (hmem e₂).2 (.inr (.inr rfl)), hkey₂, htype₂, href₂,
            hdelta₂, hbid.symm⟩
        apart :=
          ⟨_, _, hne, ⟨e₁, (hmem e₁).2 (.inr (.inl rfl)), hkey₁, htype₁, href₁, hdelta₁, rfl⟩,
          e₂, (hmem e₂).2 (.inr (.inr rfl)), hkey₂, htype₂, href₂, hdelta₂, rfl⟩ }
  · intro e he hclaims
    rcases (hmem e).1 he with he | rfl | rfl
    · obtain ⟨q, hq, hentry⟩ := h.granted e he hclaims
      exact ⟨q, (Table.mem_insert hw.inserted).2 (.inl hq), hentry⟩
    · exact ⟨g, (Table.mem_insert hw.inserted).2 (.inr rfl), .inl ⟨hkey₁, htype₁⟩⟩
    · exact ⟨g, (Table.mem_insert hw.inserted).2 (.inr rfl), .inr ⟨hkey₂, htype₂⟩⟩
  · -- what is taken from the one account is put on the other
    have hflows : flows s'.rows.books isGrantType
        = flows s.rows.books isGrantType + (e₁.delta + e₂.delta) := by
      unfold flows
      rw [hrows, List.filter_append, total_append]
      simp [isGrantType, htype₁, htype₂, total]
    show flows s'.rows.books isGrantType = 0
    rw [hflows, h.balanced, hdelta₁, hdelta₂]
    omega
  · intro r hr
    exact (h.accruals r hr).step hw.rows hkept
  · intro e he hclaims
    rcases (hmem e).1 he with he | rfl | rfl
    · exact h.accrued e he hclaims
    · refine absurd hclaims ?_
      rintro (htype | ⟨t, i, hkey⟩)
      · rw [htype₁] at htype
        cases htype
      · exact marginKey_ne_out t i g.id (hkey.symm.trans (hkey₁.trans hdebit))
    · refine absurd hclaims ?_
      rintro (htype | ⟨t, i, hkey⟩)
      · rw [htype₂] at htype
        cases htype
      · exact marginKey_ne_in t i g.id (hkey.symm.trans (hkey₂.trans hcredit))

/-- **A grant moves credits, and makes none.** -/
theorem holdings_grant (h : PartnerInv s) (hw : GrantWrite s a plan s' g) :
    holdings s'.rows.books = holdings s.rows.books := by
  obtain ⟨e₁, e₂, hrows, ⟨_, _, _, hdelta₁, _⟩, ⟨_, _, _, hdelta₂⟩, _⟩ := hw.entries
  have htotal : total CreditLedgerEntry.delta s'.rows.books.entries.rows
      = total CreditLedgerEntry.delta s.rows.books.entries.rows + (e₁.delta + e₂.delta) := by
    rw [hrows, total_append]
    simp [total]
  rw [hw.books.holdings_eq, h.books.holdings_eq, htotal, hdelta₁, hdelta₂]
  omega

end Granting

/-! ## An accrual -/

section Accruing

variable {s s' : PartnerDb} {k : AccrueCall} {enabled : Bool} {id : Uuid}

/-- A step that makes an accrual, and what its customer is then attributed to. -/
structure AccruesNow (s : PartnerDb) (k : AccrueCall) (s' : PartnerDb)
    (r : PartnerMarginAccrual) : Prop where
  source : r.sourceType = k.sourceType ∧ r.sourceId = k.sourceId
  customer : k.customer = some r.customer
  prices : ∃ list net, k.listPrice = some list ∧ k.netPrice = some net ∧ AccrualPriced r list net
  new : r ∉ s.accruals
  inserted : s.accruals.insert? r = some s'.accruals
  rows : s'.rows = { s.rows with books := s'.rows.books }
  posted : ∃ p e, s.rows.books.apply p = .ok (s'.rows.books, e) ∧ p.referenceType = .partnerMargin
    ∧ p.idempotencyKey = r.ledgerEntry
  /-- The customer is attributed to the channel, which is active, and neither owns it nor is a
  member. -/
  channel : ∃ a ∈ s.rows.attributions, a.user = r.customer ∧ a.partnerChannel = r.partnerChannel
    ∧ ∃ c ∈ s.rows.channels, c.id = r.partnerChannel ∧ c.isActive = true
      ∧ c.revenueSharePercent.hundredths = r.revenueSharePercent
        ∧ s.rows.refersToSelf r.customer c = none

/-- A customer who may be accrued for is one who may be attributed. -/
theorem refersToSelf_of_canAccrue {rows : ReferralDb} {customer : UserId} {c : PartnerChannel}
    (h : (rows.channelView customer c).canAccrueFor customer = true) :
    rows.refersToSelf customer c = none := by
  unfold ReferralDb.refersToSelf
  unfold ChannelView.canAccrueFor ReferralDb.channelView at h
  cases howner : c.owner with
  | individual owner =>
    rw [howner] at h
    have hne : ¬ owner = customer := by simpa [ChannelOwner.kind, ChannelOwner.ownerUser] using h
    exact if_neg hne
  | team organization =>
    rw [howner] at h
    have hmember : rows.activeMember organization customer = false := by
      simpa [ChannelOwner.kind, ChannelOwner.organization] using h
    dsimp only
    rw [hmember]
    exact if_neg Bool.false_ne_true

theorem marginView_some {rows : ReferralDb} {customer : UserId} {view : ChannelView}
    (h : rows.marginView customer = some view) :
    ∃ a ∈ rows.attributions, a.user = customer ∧ ∃ c ∈ rows.channels, c.id = a.partnerChannel
      ∧ view = rows.channelView customer c := by
  unfold ReferralDb.marginView at h
  split at h
  · cases h
  rename_i a ha
  obtain ⟨c, hc, rfl⟩ := Option.map_eq_some_iff.1 h
  refine ⟨a, Table.mem_of_find? ha, by
    simpa using Table.prop_of_find? ha, c, Table.mem_of_find? hc, ?_, rfl⟩
  simpa using Table.prop_of_find? hc

/-- **An accrual that is made keeps the ledger and the accruals together.** -/
theorem PartnerInv.accrue (h : PartnerInv s) (hok : k.run enabled s id = .ok s') :
    PartnerInv s' ∧ (s' = s ∨ ∃ r, AccruesNow s k s' r) := by
  obtain ⟨m, hm, hok⟩ := bind_ok hok
  cases hok
  rcases Spend.Proof.accrue_ok hm with rfl | ⟨src, view, account, share, hpays⟩
  · exact ⟨h, .inl rfl⟩
  · obtain ⟨p, e, ha, hpacc, hpcredit, hptype, hpref, hpkey, hpshare, hfits, hinsert⟩ :=
      Spend.Proof.pay_cases hpays.pays
    have ha : s.rows.books.apply p = .ok (m.books, e) := ha
    -- the view is of the channel of the customer's attribution
    have hview : s.rows.marginView src.customer = some view := by
      have hv := hpays.view
      rw [hpays.buyer] at hv
      exact hv
    obtain ⟨a, hattribution, huser, c, hc, hcid, rfl⟩ := marginView_some hview
    have hsettles : SettlesOn s.rows c.owner account :=
      (settlementAccount_iff h.accounts).1 hpays.settles
    -- no entry has the key, since no accrual has the source
    have hnew : ∀ f ∈ s.rows.books.entries, f.idempotencyKey ≠ p.idempotencyKey := by
      intro f hf hkey
      rw [hpkey] at hkey
      obtain ⟨r, hr, hrkey, _⟩ := h.accrued f hf (.inr ⟨_, _, hkey⟩)
      have hsource :=
        marginKey_inj (((h.accruals r hr).ledgerEntry.symm.trans hrkey.symm).trans hkey)
      exact hpays.new r hr ⟨hsource.1.trans hpays.source.1, hsource.2.trans hpays.source.2⟩
    obtain ⟨hrows, htype, href, hkey, hacc, hdelta⟩ := apply_new ha hnew
    have hmem : ∀ f, f ∈ m.books.entries ↔ f ∈ s.rows.books.entries ∨ f = e := by
      intro f
      rw [Table.mem_def, hrows, List.mem_append, List.mem_singleton, Table.mem_def]
    have hkept : ∀ f ∈ s.rows.books.entries, f ∈ m.books.entries := fun f hf => (hmem f).2 (.inl hf)
    have hstep : RowsStep s.rows (s.withMargin m).rows :=
      rowsStep_of_eq rfl rfl rfl rfl (apply_balances ha)
    have hpositive : p.delta = p.amount.micros := by rw [Posting.delta, hpcredit, if_pos rfl]
    obtain ⟨⟨⟨hlist, hnet⟩, _⟩, _⟩ :
      ((fitsNumeric 20 6 src.listPrice = true ∧ fitsNumeric 20 6 src.netPrice = true)
        ∧ fitsNumeric 20 6 src.margin = true) ∧ decide (src.sourceId.length ≤ 64) = true := by
      simpa [MarginSource.fits, and_assoc] using hfits
    have hpriced := hpays.priced
    have hprices : 0 ≤ src.netPrice.coeff ∧ src.listPrice.lt src.netPrice = false
        ∧ 0 < c.revenueSharePercent.hundredths := by
      simp only [priceSkip, Bool.or_eq_false_iff, decide_eq_false_iff_not, not_lt,
        not_le] at hpriced
      exact ⟨hpriced.1.1, hpriced.1.2, hpriced.2⟩
    have hshares : partnerShare src.listPrice src.netPrice c.revenueSharePercent.hundredths
        = some p.amount.micros := by
      rw [hpshare]
      exact hpays.shares
    have hrow : AccrualPriced
      (src.accrual (s.rows.channelView src.customer c) id p.amount e.idempotencyKey)
        src.listPrice src.netPrice :=
      ⟨rfl, rfl, rfl, hshares, hprices.1, hprices.2.1, ⟨hprices.2.2, c.revenueSharePercent.le⟩,
        hlist, hnet⟩
    have hmade : AccruesNow s k (s.withMargin m)
        (src.accrual (s.rows.channelView src.customer c) id p.amount e.idempotencyKey) := {
      source := hpays.source
      customer := hpays.buyer
      prices := ⟨src.listPrice, src.netPrice, hpays.prices.1, hpays.prices.2, hrow⟩
      new := fun hold => hpays.new _ hold hpays.source
      inserted := hinsert
      rows := rfl
      posted := ⟨p, e, ha, hptype, hkey.symm⟩
      channel := ⟨a, hattribution, huser, hcid.symm, c, hc, rfl, hpays.active, rfl,
        refersToSelf_of_canAccrue hpays.allowed⟩ }
    refine ⟨⟨h.books.apply ha, h.accounts.step hstep, links_step h.links hstep,
      settles_step h.settles hstep, ?_, ?_, ?_, ?_, ?_⟩,
      .inr ⟨_, hmade⟩⟩
    · intro g hg
      exact (h.grants g hg).step hstep hkept
    · intro f hf hclaims
      rcases (hmem f).1 hf with hf | rfl
      · exact h.granted f hf hclaims
      · refine absurd hclaims ?_
        rintro (hgrant | ⟨q, hq | hq⟩)
        · rw [htype, hptype] at hgrant
          cases hgrant
        · exact marginKey_ne_out _ _ q (hpkey.symm.trans (hkey.symm.trans hq))
        · exact marginKey_ne_in _ _ q (hpkey.symm.trans (hkey.symm.trans hq))
    · have hflows := flows_append isGrantType hrows
      rw [htype, hptype] at hflows
      show flows m.books isGrantType = 0
      rw [hflows, h.balanced]
      rfl
    · intro r hr
      rcases (Table.mem_insert hinsert).1 hr with hr | rfl
      · exact (h.accruals r hr).step hstep hkept
      · exact ⟨hkey.trans hpkey, ⟨account, ⟨c, hc, rfl, hsettles⟩, e, (hmem e).2 (.inr rfl), rfl,
          htype.trans hptype, href.trans hpref, hdelta.trans hpositive, hacc.trans hpacc⟩,
          src.listPrice, src.netPrice, hrow⟩
    · intro f hf hclaims
      rcases (hmem f).1 hf with hf | rfl
      · obtain ⟨r, hr, hentry⟩ := h.accrued f hf hclaims
        exact ⟨r, (Table.mem_insert hinsert).2 (.inl hr), hentry⟩
      · exact ⟨_, (Table.mem_insert hinsert).2 (.inr rfl), rfl, htype.trans hptype⟩

end Accruing

end Roamkit.Partner.Proof
