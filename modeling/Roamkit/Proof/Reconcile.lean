import Roamkit.Proof.PartnerRun

/-!
# What the reports on partners find

Nothing, in a state that the services can reach. A report that is made while they run
may still name an entry that was made after its accrual or grant was looked for; these
are the only lines it can have. `DriftRun` says which reads come after which.
-/

namespace Roamkit.Partner.Proof

open Lib Billing Organizations Partner Billing.Proof

/-!
## Grants and accruals among the referral services

A grant holds the attribution it is for and an accrual only waits, and both write
nothing but accounts and the ledger. To the referral services they are calls that have
ended and still hold some rows, so what was proved of those services alone holds of
`partnerProgram`: nobody is a customer of their own channel there either.
-/

/-! ### The rows of a grant -/

/-- What a step does to the rows of the referral services, and to the locks on them. -/
structure GrantRows (s : ReferralDb) (held : List LockedRow) (s' : ReferralDb)
    (held' : List LockedRow) : Prop where
  same : s' = { s with accounts := s'.accounts, books := s'.books, locks := s'.locks }
  /-- What it holds then is locked. -/
  taken : (∀ row ∈ held, row ∈ s.locks) → ∀ row ∈ held', row ∈ s'.locks
  /-- It gives back only what it held. -/
  kept : ∀ row ∈ s.locks, row ∉ held → row ∈ s'.locks
  /-- It takes only what is free. -/
  free : ∀ row ∈ held', row ∈ held ∨ row ∉ s.locks

variable {held : List LockedRow} {plan : GrantPlan} {line : String} {e : CreditLedgerEntry}
  {g : Config PartnerDb PartnerThread}

section Rows

variable {enabled : Bool} {s s' : GrantDb} {t t' : GrantThread}

/-- A step that ends the transaction. -/
theorem grantRows_release {rows : ReferralDb}
    (hsame : rows = { s.rows with accounts := rows.accounts, books := rows.books }) :
    GrantRows s.rows held (rows.release held) [] where
  same := by
    rw [hsame]
    rfl
  taken _ row hrow := absurd hrow List.not_mem_nil
  kept row hrow hnot := by
    have hlocks : rows.locks = s.rows.locks := by rw [hsame]
    show row ∈ rows.locks.filter (· ∉ held)
    rw [hlocks]
    exact List.mem_filter.2 ⟨hrow, by simpa using hnot⟩
  free row hrow := absurd hrow List.not_mem_nil

theorem grantRows_raise {e : Exc} (h : s.raise t e = (s', t')) :
    GrantRows s.rows t.held s'.rows t'.held := by
  cases h
  exact grantRows_release rfl

theorem grantRows_goto {pc : GrantPc} (h : s.goto t pc = (s', t')) :
    GrantRows s.rows t.held s'.rows t'.held := by
  cases h
  exact ⟨rfl, fun h => h, fun _ hrow _ => hrow, fun _ hrow => .inl hrow⟩

theorem grantRows_replay {g : PartnerCreditGrant} (h : s.replay t plan g = (s', t')) :
    GrantRows s.rows t.held s'.rows t'.held := by
  unfold GrantDb.replay at h
  split at h
  · exact grantRows_raise h
  · cases h
    exact grantRows_release rfl

/-- The attribution was free when it is locked. -/
theorem grantRows_requireChannel {a : CustomerAttribution}
    (hfree : .attribution a.user ∉ s.rows.locks) (h : s.requireChannel t plan a = (s', t')) :
    GrantRows s.rows t.held s'.rows t'.held := by
  unfold GrantDb.requireChannel at h
  split at h
  · exact grantRows_raise h
  · cases h
    refine ⟨rfl, ?_, fun row hrow _ => List.mem_cons_of_mem _ hrow, ?_⟩
    · intro hlocked row hrow
      rcases List.mem_cons.1 hrow with rfl | hrow
      · exact List.mem_cons_self
      · exact List.mem_cons_of_mem _ (hlocked row hrow)
    · intro row hrow
      rcases List.mem_cons.1 hrow with rfl | hrow
      · exact .inr hfree
      · exact .inl hrow

theorem grantRows_lock (h : s.lock t plan = some (s', t')) :
    GrantRows s.rows t.held s'.rows t'.held := by
  unfold GrantDb.lock at h
  dsimp only at h
  split at h
  · split at h
    · exact grantRows_replay (Option.some.inj h)
    · exact grantRows_raise (Option.some.inj h)
  · split at h
    · cases h
    rename_i hfree
    split at h
    · exact grantRows_replay (Option.some.inj h)
    · exact grantRows_requireChannel hfree (Option.some.inj h)

theorem ensureBillingAccount_rows {customer : UserId} {id destination : Uuid} {s₁ : GrantDb}
    (h : s.ensureBillingAccount customer id = .ok (s₁, destination)) :
    s₁.rows = { s.rows with accounts := s₁.rows.accounts, books := s₁.rows.books } := by
  unfold GrantDb.ensureBillingAccount at h
  split at h
  · cases h
    rfl
  · split at h
    · cases h
      rfl
    · cases h

/-- The transaction writes accounts and the ledger. -/
theorem write_rows_grant {a : GrantArgs} {attribution : CustomerAttribution} {uuid : Nat → Uuid}
    {s₁ : GrantDb} {g : PartnerCreditGrant} (h : s.write a plan attribution uuid = .ok (s₁, g)) :
    s₁.rows = { s.rows with accounts := s₁.rows.accounts, books := s₁.rows.books } := by
  obtain ⟨⟨s₀, destination⟩, hdestination, h⟩ := bind_ok h
  obtain ⟨u, _, h⟩ := bind_ok h
  obtain ⟨books, _, h⟩ := bind_ok h
  dsimp only at h
  split at h
  · cases h
  split at h
  · cases h
  cases h
  show { s₀.rows with books } = _
  rw [ensureBillingAccount_rows hdestination]

theorem grantRows_commit {a : CustomerAttribution} {uuid : Nat → Uuid}
    (h : s.commit t plan a uuid = (s', t')) : GrantRows s.rows t.held s'.rows t'.held := by
  unfold GrantDb.commit at h
  split at h
  · cases h
    exact grantRows_release rfl
  · exact grantRows_raise h
  · rename_i s₁ g hwrite
    cases h
    exact grantRows_release (write_rows_grant hwrite)

/-- **The rows a step of a grant leaves, and the locks it takes and gives back.** -/
theorem grantStep_rows {x : GrantInput} (h : grantStep enabled s t x = some (s', t')) :
    GrantRows s.rows t.held s'.rows t'.held := by
  unfold grantStep at h
  split at h
  · split at h
    · exact grantRows_raise (Option.some.inj h)
    · cases h
  · split at h
    · have h := Option.some.inj h
      unfold GrantDb.begin at h
      split at h
      · exact grantRows_raise h
      · split at h
        · exact grantRows_raise h
        · exact grantRows_goto h
    · have h := Option.some.inj h
      unfold GrantDb.look at h
      split at h
      · exact grantRows_replay h
      · exact grantRows_goto h
    · exact grantRows_lock h
    · exact grantRows_commit (Option.some.inj h)
    · have h := Option.some.inj h
      unfold GrantDb.race at h
      split at h
      · exact grantRows_replay h
      · exact grantRows_raise h
    · cases h
    · cases h

end Rows

/-! ### The referral services inside -/

/-- A call that has ended, and holds some rows. -/
def ended (held : List LockedRow) : ReferralThread :=
  ⟨.organization (.createOrganization "" 0 .active), .raised .operational, held⟩

/-- A call as the referral services see it. -/
def referralView : PartnerThread → ReferralThread
  | .rows t => t
  | .grant t => ended t.held
  | .accrue _ _ => ended []

/-- What is asked of a step of the referral services. -/
def KeepsCustomersApart (s : PartnerDb) : PartnerThread → PartnerInput → Prop
  | .rows t, .rows x => KeepsApart s.rows t x
  | _, _ => True

theorem selfLocal_ended {s : ReferralDb} (h : ∀ row ∈ held, row ∈ s.locks) :
    SelfLocal s (ended held) where
  locked := h
  guard := ownsGuard_of_not rfl
  attribution := ownsAttribution_of_not rfl
  mint := fun _ _ _ _ _ hpc => by cases hpc

/-- A step on accounts and the ledger disturbs nothing. -/
theorem GrantRows.undisturbed {s s' : ReferralDb} {held' : List LockedRow}
    (h : GrantRows s held s' held') (hG : SelfInv s) (hL : SelfLocal s (ended held)) :
    Undisturbed SelfInv SelfLocal ApartRows s (ended held) s' (ended held') := by
  have hk : ReferralKept s (ended held) s' := by
    rw [h.same]
    exact .of_same rfl rfl rfl rfl
  refine ⟨hG.kept hk, selfLocal_ended (h.taken hL.locked), ?_⟩
  intro u hu hR
  have hlocked : Locked s' u :=
    fun row hrow => h.kept row (hu.locked row hrow) fun hheld => hR row hheld hrow
  refine ⟨⟨hlocked, guard_frame hG hk hR hu.guard,
    attribution_frame hG hk hu.locked hR hu.attribution, mint_frame hk hu.mint⟩, ?_⟩
  intro row hrow hother
  rcases h.free row hrow with hheld | hfree
  · exact hR row hheld hother
  · exact hfree (hu.locked row hother)

theorem grantRows_accrue {k : AccrueCall} {enabled : Bool} {s s' : PartnerDb} {id : Uuid}
    (hok : k.run enabled s id = .ok s') : GrantRows s.rows [] s'.rows [] := by
  obtain ⟨m, _, hok⟩ := bind_ok hok
  cases hok
  exact ⟨rfl, fun h => h, fun _ hrow _ => hrow, fun _ hrow => .inl hrow⟩

theorem grantRows_refl (s : ReferralDb) : GrantRows s [] s [] :=
  ⟨rfl, fun h => h, fun _ hrow _ => hrow, fun _ hrow => .inl hrow⟩

/-- **The referral services are a component of the partner services.** -/
theorem referralComponent (c : ReferralSettings) :
    Component (referralProgram c) KeepsApart SelfInv SelfLocal ApartRows
      (partnerProgram c) KeepsCustomersApart PartnerDb.rows referralView where
  start s k hG := by
    cases k with
    | rows k => exact (selfInvariant c).start k.call hG
    | grant k => exact selfLocal_ended fun _ hrow => absurd hrow List.not_mem_nil
    | accrue k => exact selfLocal_ended fun _ hrow => absurd hrow List.not_mem_nil
  apart_start k t := by
    cases k <;> exact fun _ hrow => absurd hrow List.not_mem_nil
  step := by
    intro s t x s' t' hG hL hok hs
    have hs : partnerStep c s t x = some (s', t') := hs
    unfold partnerStep at hs
    split at hs
    · obtain ⟨⟨rows, u⟩, hstep, hs⟩ := Option.map_eq_some_iff.1 hs
      cases hs
      exact .inl ⟨_, hok, hstep⟩
    · obtain ⟨⟨d, u⟩, hstep, hs⟩ := Option.map_eq_some_iff.1 hs
      cases hs
      exact .inr ((grantStep_rows hstep).undisturbed hG hL)
    · obtain ⟨hrun, pc, rfl⟩ := accrueStep_run hs
      rcases hrun with rfl | hrun
      · exact .inr ((grantRows_refl _).undisturbed hG hL)
      · exact .inr ((grantRows_accrue hrun).undisturbed hG hL)
    · cases hs
      exact .inr ((grantRows_refl _).undisturbed hG hL)
    · cases hs

/-- Nobody is a customer of their own channel while credits are granted and margin accrues. -/
theorem customersApart (c : ReferralSettings) :
    Invariant (partnerProgram c) (fun s => SelfInv s.rows) KeepsCustomersApart
      (fun s => SelfInv s.rows)
      (fun s t => SelfLocal s.rows (referralView t))
        (fun t u => ApartRows (referralView t) (referralView u)) :=
  (selfInvariant c).inside (referralComponent c) fun _ h => h

/-! ## What is read -/

section Reads

variable {s : PartnerDb}

theorem flag_false {wrong : Bool} (h : wrong = false) : flag wrong line = [] := by
  rw [h]
  rfl

theorem entry?_of_mem (he : e ∈ s.rows.books.entries) : s.entry? e.idempotencyKey = some e :=
  Table.find?_of_mem he (decide_eq_true rfl) fun _ hkey => of_decide_eq_true hkey

theorem mem_of_entry? {key : String} (h : s.entry? key = some e) :
    e ∈ s.rows.books.entries ∧ e.idempotencyKey = key :=
  ⟨Table.mem_of_find? h, by simpa using Table.prop_of_find? h⟩

/-- The entry that is there under a key is the one that is read. -/
theorem HasEntry.read {key : String} {type : LedgerReferenceType} {reference : String}
    {delta : Int} {account : Uuid} (h : HasEntry s.rows.books key type reference delta account)
    (hread : s.entry? key = some e) :
    e.referenceType = type ∧ e.referenceId = reference ∧ e.delta = delta ∧ e.account = account := by
  obtain ⟨f, hf, hkey, hprops⟩ := h
  obtain ⟨he, hkey'⟩ := mem_of_entry? hread
  rw [entry_eq he hf (hkey'.trans hkey.symm)]
  exact hprops

theorem mem_accrualPairs {a : PartnerMarginAccrual} :
    (a, e) ∈ accrualPairs s ↔ a ∈ s.accruals ∧ s.entry? a.ledgerEntry = some e := by
  unfold accrualPairs
  rw [List.mem_filterMap]
  constructor
  · rintro ⟨b, hb, hread⟩
    obtain ⟨f, hf, heq⟩ := Option.map_eq_some_iff.1 hread
    cases heq
    exact ⟨hb, hf⟩
  · rintro ⟨ha, hread⟩
    exact ⟨a, ha, by rw [hread]; rfl⟩

/-- What a grant is read with. -/
theorem mem_grantReads {r : GrantRead} (h : r ∈ grantReads s) :
    r.grant ∈ s.grants ∧ (r.channel ∈ s.rows.channels ∧ r.channel.id = r.grant.partnerChannel)
      ∧ s.entry? r.grant.debitEntry = some r.debit ∧ s.entry? r.grant.creditEntry = some r.credit
      ∧ r.creditAccount ∈ s.rows.accounts ∧ r.creditAccount.id = r.credit.account := by
  obtain ⟨g, hg, hread⟩ := List.mem_filterMap.1 h
  obtain ⟨channel, hchannel, hread⟩ := Option.bind_eq_some_iff.1 hread
  obtain ⟨debit, hdebit, hread⟩ := Option.bind_eq_some_iff.1 hread
  obtain ⟨credit, hcredit, hread⟩ := Option.bind_eq_some_iff.1 hread
  obtain ⟨account, haccount, hread⟩ := Option.bind_eq_some_iff.1 hread
  cases hread
  exact ⟨hg, ⟨Table.mem_of_find? hchannel, by simpa using Table.prop_of_find? hchannel⟩,
    hdebit, hcredit, Table.mem_of_find? haccount, by simpa using Table.prop_of_find? haccount⟩

/-- A grant whose rows are all there is read. -/
theorem PartnerInv.reads (h : PartnerInv s) {g : PartnerCreditGrant} (hg : g ∈ s.grants) :
    ∃ r ∈ grantReads s, r.grant = g := by
  obtain ⟨account, ⟨k, hk, hid, _⟩, debit, hd, hdkey, _⟩ := (h.grants g hg).debit
  obtain ⟨a, ha, _, credit, hc, hckey, _, _, _, hacc⟩ := (h.grants g hg).credit
  have hchannel : s.rows.channel? g.partnerChannel = some k :=
    Table.find?_of_mem hk (decide_eq_true hid) fun _ hx =>
      .inl ((of_decide_eq_true hx).trans hid.symm)
  have haccount : s.account? credit.account = some a :=
    Table.find?_of_mem ha (decide_eq_true hacc.symm) fun _ hx =>
      .inl ((of_decide_eq_true hx).trans hacc)
  refine ⟨⟨g, k, debit, credit, a⟩, List.mem_filterMap.2 ⟨g, hg, ?_⟩, rfl⟩
  unfold grantRead?
  rw [hchannel, ← hdkey, entry?_of_mem hd, ← hckey, entry?_of_mem hc]
  show ((s.account? credit.account).bind fun b => some _) = _
  rw [haccount]
  rfl

end Reads

/-! ## The rows bear each other out -/

/-- What is settled on stays so. -/
def KeepsSettled (s s' : PartnerDb) : Prop :=
  ∀ owner account, SettlesOn s.rows owner account → SettlesOn s'.rows owner account

section Lines

variable {s : PartnerDb} {pk : CreditLedgerEntry → String}

/-- Nothing is wrong with an accrual. -/
theorem PartnerInv.accrualLines_nil (h : PartnerInv s) {a : PartnerMarginAccrual}
    (hpair : (a, e) ∈ accrualPairs s) : accrualLines pk a e = [] := by
  obtain ⟨ha, hread⟩ := mem_accrualPairs.1 hpair
  obtain ⟨account, _, hentry⟩ := (h.accruals a ha).entry
  obtain ⟨htype, href, hdelta, _⟩ := hentry.read hread
  unfold accrualLines
  rw [flag_false (by simpa using htype), flag_false (by simpa using href),
    flag_false (by simpa using hdelta)]
  rfl

/-- Nothing is wrong with a grant, whenever its settlement account is resolved. -/
theorem PartnerInv.grantLines_nil (h : PartnerInv s) {r : GrantRead} (hr : r ∈ grantReads s)
    {later : PartnerDb} (haccounts : AccountsInv later.rows) (hkept : KeepsSettled s later) :
    grantLines r (later.rows.settlementAccount r.channel.owner) = [] := by
  obtain ⟨hg, ⟨hchannel, hid⟩, hdebit, hcredit, haccount, haid⟩ := mem_grantReads hr
  have hposted := h.grants r.grant hg
  obtain ⟨account, ⟨k, hk, hkid, hsettles⟩, hdentry⟩ := hposted.debit
  obtain ⟨a, ha, huser, hcentry⟩ := hposted.credit
  obtain ⟨hdtype, hdref, hddelta, hdacc⟩ := hdentry.read hdebit
  obtain ⟨hctype, hcref, hcdelta, hcacc⟩ := hcentry.read hcredit
  -- the channel and the account that are joined are those of the invariant
  have hsame : r.channel = k := Table.eq_of_clash hchannel hk (.inl (hid.trans hkid.symm))
  have hsettlement : later.rows.settlementAccount r.channel.owner = .ok account := by
    rw [hsame]
    exact (settlementAccount_iff haccounts).2 (hkept _ _ hsettles)
  have hcustomer : r.creditAccount = a := account_eq haccount ha (haid.trans hcacc)
  have hkind : r.creditAccount.kind = .personal := by
    rw [hcustomer]
    exact h.accounts.personal a ha (by rw [huser]; rfl)
  have hpositive := r.grant.amount.pos
  have hamount :
    (r.debit.delta.natAbs ≠ r.grant.amount.micros || r.credit.delta ≠ r.grant.amount.micros : Bool)
      = false := by
    rw [hddelta, hcdelta]
    simp
    omega
  have hcreditLines : creditAccountLines r = [] := by
    unfold creditAccountLines
    rw [if_neg (not_not.2 hkind), flag_false]
    rw [hcustomer, huser]
    simp
  unfold grantLines
  rw [hsettlement]
  dsimp only
  rw [flag_false (by simpa using hdtype), flag_false (by simpa using hctype),
    flag_false (by simpa using hdacc),
    hcreditLines, flag_false hamount, flag_false (by simp [hdref, hcref])]
  rfl

end Lines

/-! ## A report among the services -/

/-- A state of a run, and a state of it that is no earlier. -/
def Seen (c : ReferralSettings) (s s' : PartnerDb) : Prop :=
  ∃ g g', (partnerProgram c).Reach FreshPartners g
    ∧ (partnerProgram c).LeadsWhere (fun _ _ _ => True) g g'
    ∧ g.store = s ∧ g'.store = s'

/-- The reads of a report among the services: rows that may name an entry are read no later than
it. -/
structure DriftRun (c : ReferralSettings) (r : DriftReads) : Prop where
  accruals : Seen c r.accruals r.marginOrphans
  settlement : ∀ g ∈ r.grants.grants, Seen c r.grants (r.settlement g)
  outOrphans : Seen c r.grants r.outOrphans
  inOrphans : Seen c r.grants r.inOrphans
  channels : Seen c r.channels r.channels

/-- A line about an entry whose accrual or grant was made after those were read. -/
inductive FalseAlarm (pk : CreditLedgerEntry → String) (r : DriftReads) : String → Prop
  | accrual {e : CreditLedgerEntry} {a : PartnerMarginAccrual} :
      e ∈ r.marginOrphans.rows.books.entries → e ∉ r.accruals.rows.books.entries →
      a ∈ r.marginOrphans.accruals → a.ledgerEntry = e.idempotencyKey →
      FalseAlarm pk r ("partner_margin ledger " ++ pk e ++ " has no accrual")
  | debit {e : CreditLedgerEntry} {g : PartnerCreditGrant} :
      e ∈ r.outOrphans.rows.books.entries → e ∉ r.grants.rows.books.entries →
      g ∈ r.outOrphans.grants → g.debitEntry = e.idempotencyKey →
      FalseAlarm pk r ("partner_grant_out ledger " ++ pk e ++ " has no grant")
  | credit {e : CreditLedgerEntry} {g : PartnerCreditGrant} :
      e ∈ r.inOrphans.rows.books.entries → e ∉ r.grants.rows.books.entries →
      g ∈ r.inOrphans.grants → g.creditEntry = e.idempotencyKey →
      FalseAlarm pk r ("partner_grant_in ledger " ++ pk e ++ " has no grant")

section Run

variable {c : ReferralSettings} {s s' : PartnerDb} {r : DriftReads}
  {pk : CreditLedgerEntry → String}

theorem Seen.inv (h : Seen c s s') : PartnerInv s ∧ PartnerInv s' ∧ KeepsSettled s s' := by
  obtain ⟨g, g', hg, hl, rfl, rfl⟩ := h
  refine ⟨((partnerInvariant c).reach hg).store,
    ((partnerInvariant c).reach (hg.leads hl)).store, ?_⟩
  refine hl.keeps hg ?_ ?_ ?_
  · exact fun _ _ _ hsettles => hsettles
  · exact fun _ _ _ h h' owner account hsettles => h' owner account (h owner account hsettles)
  · intro g p t x s₁ t' hr ht _ hs owner account hsettles
    have hinv := (partnerInvariant c).reach hr
    exact hsettles.step (partnerStep_inv hinv.store (hinv.thread p t ht) hs).2.2

theorem Seen.refl (h : (partnerProgram c).Reach FreshPartners g) :
    Seen c g.store g.store := ⟨g, g, h, .refl, rfl, rfl⟩

theorem mem_orphans {type : LedgerReferenceType} {seen : List CreditLedgerEntry} :
    e ∈ orphans s type seen ↔ e ∈ s.rows.books.entries ∧ e.referenceType = type ∧ e ∉ seen := by
  unfold orphans
  rw [List.mem_filter, Table.mem_def]
  simp

theorem accrualDrift_alarm (h : DriftRun c r)
    (hline : line ∈ accrualDrift pk r.accruals r.marginOrphans) : FalseAlarm pk r line := by
  obtain ⟨hinv, hinv', _⟩ := h.accruals.inv
  unfold accrualDrift at hline
  rcases List.mem_append.1 hline with hline | hline
  · obtain ⟨⟨a, e⟩, hpair, hline⟩ := List.mem_flatMap.1 hline
    rw [hinv.accrualLines_nil hpair] at hline
    cases hline
  · obtain ⟨e, he, rfl⟩ := List.mem_map.1 hline
    obtain ⟨hmem, htype, hseen⟩ := mem_orphans.1 he
    obtain ⟨a, ha, hkey, _⟩ := hinv'.accrued e hmem (.inl htype)
    refine .accrual hmem ?_ ha hkey.symm
    -- an entry that was there was read with its accrual
    intro hold
    obtain ⟨b, hb, hbkey, _⟩ := hinv.accrued e hold (.inl htype)
    exact hseen (List.mem_map.2 ⟨(b, e), mem_accrualPairs.2 ⟨hb, hbkey ▸ entry?_of_mem hold⟩, rfl⟩)

/-- The grant of an entry of a kind. -/
theorem PartnerInv.granter (h : PartnerInv s) (he : e ∈ s.rows.books.entries) :
    (e.referenceType = .partnerGrantOut → ∃ g ∈ s.grants, e.idempotencyKey = g.debitEntry)
      ∧ (e.referenceType = .partnerGrantIn → ∃ g ∈ s.grants, e.idempotencyKey = g.creditEntry) := by
  constructor
  · intro htype
    obtain ⟨g, hg, ⟨hkey, _⟩ | ⟨_, htype'⟩⟩ := h.granted e he (.inl (by rw [htype]; rfl))
    · exact ⟨g, hg, hkey⟩
    · rw [htype] at htype'
      cases htype'
  · intro htype
    obtain ⟨g, hg, ⟨_, htype'⟩ | ⟨hkey, _⟩⟩ := h.granted e he (.inl (by rw [htype]; rfl))
    · rw [htype] at htype'
      cases htype'
    · exact ⟨g, hg, hkey⟩

theorem grantDrift_alarm (h : DriftRun c r)
    (hline : line ∈ grantDrift pk r.grants r.settlement r.outOrphans r.inOrphans) :
    FalseAlarm pk r line := by
  obtain ⟨hinv, hout, _⟩ := h.outOrphans.inv
  obtain ⟨_, hin, _⟩ := h.inOrphans.inv
  unfold grantDrift at hline
  rcases List.mem_append.1 hline with hline | hline
  · rcases List.mem_append.1 hline with hline | hline
    · obtain ⟨q, hq, hline⟩ := List.mem_flatMap.1 hline
      obtain ⟨_, hlater, hkept⟩ := (h.settlement _ (mem_grantReads hq).1).inv
      rw [hinv.grantLines_nil hq hlater.accounts hkept] at hline
      cases hline
    · obtain ⟨e, he, rfl⟩ := List.mem_map.1 hline
      obtain ⟨hmem, htype, hseen⟩ := mem_orphans.1 he
      obtain ⟨g, hg, hkey⟩ := (hout.granter hmem).1 htype
      refine .debit hmem ?_ hg hkey.symm
      intro hold
      obtain ⟨g', hg', hkey'⟩ := (hinv.granter hold).1 htype
      obtain ⟨q, hq, rfl⟩ := hinv.reads hg'
      refine hseen (List.mem_map.2 ⟨q, hq, ?_⟩)
      have hread := (mem_grantReads hq).2.2.1
      rw [← hkey', entry?_of_mem hold] at hread
      exact (Option.some.inj hread).symm
  · obtain ⟨e, he, rfl⟩ := List.mem_map.1 hline
    obtain ⟨hmem, htype, hseen⟩ := mem_orphans.1 he
    obtain ⟨g, hg, hkey⟩ := (hin.granter hmem).2 htype
    refine .credit hmem ?_ hg hkey.symm
    intro hold
    obtain ⟨g', hg', hkey'⟩ := (hinv.granter hold).2 htype
    obtain ⟨q, hq, rfl⟩ := hinv.reads hg'
    refine hseen (List.mem_map.2 ⟨q, hq, ?_⟩)
    have hread := (mem_grantReads hq).2.2.2.1
    rw [← hkey', entry?_of_mem hold] at hread
    exact (Option.some.inj hread).symm

theorem PartnerInv.inviteDrift_nil (h : PartnerInv s) : inviteDrift s = [] := by
  unfold inviteDrift
  rw [List.map_eq_nil_iff, List.filter_eq_nil_iff]
  intro k hk
  obtain ⟨l, hl, hchannel⟩ := h.links k hk
  have hany : s.rows.links.rows.any (·.partnerChannel = k.id) = true :=
    List.any_eq_true.2 ⟨l, hl, decide_eq_true hchannel⟩
  simp [hany]

theorem driftRun_at (h : (partnerProgram c).Reach FreshPartners g) :
    DriftRun c (.at g.store) := ⟨.refl h, fun _ _ => .refl h, .refl h, .refl h, .refl h⟩

theorem drift_alarms (h : DriftRun c r) :
    ∀ line ∈ collectPartnerDrift pk r, FalseAlarm pk r line := by
  intro line hline
  unfold collectPartnerDrift at hline
  rcases List.mem_append.1 hline with hline | hline
  · rcases List.mem_append.1 hline with hline | hline
    · exact accrualDrift_alarm h hline
    · exact grantDrift_alarm h hline
  · rw [h.channels.inv.1.inviteDrift_nil] at hline
    cases hline

/-- At one moment there is no later entry to name. -/
theorem collectPartnerDrift_nil (h : (partnerProgram c).Reach FreshPartners g) :
    collectPartnerDrift pk (.at g.store) = [] := by
  refine List.eq_nil_iff_forall_not_mem.2 ?_
  intro line hline
  cases drift_alarms (driftRun_at h) line hline with
  | accrual he hnew _ _ => exact hnew he
  | debit he hnew _ _ => exact hnew he
  | credit he hnew _ _ => exact hnew he

/--
**A line of a drift report is a false alarm: it names an entry that was made, with its accrual or
its grant, after the report had read those.** A report that reads everything at one moment has no
line.
-/
theorem drift_false_alarms (h : DriftRun c r) :
    (∀ line ∈ collectPartnerDrift pk r, FalseAlarm pk r line)
    ∧ ∀ g, (partnerProgram c).Reach FreshPartners g → collectPartnerDrift pk (.at g.store) = [] :=
  ⟨drift_alarms h, fun _ => collectPartnerDrift_nil⟩

/-- A report whose accruals are read before an order accrues, and its entries after. -/
def readAcross (before after : PartnerDb) : DriftReads :=
  ⟨before, after, before, fun _ => before, before, before, before⟩

theorem drift_false_alarms_across : ∃ r line, line ∈ collectPartnerDrift (·.idempotencyKey) r
    ∧ FalseAlarm (·.idempotencyKey) r line := by
  have hruns : ∃ g g', (partnerProgram referralSettings).Reach FreshPartners g
      ∧ (partnerProgram referralSettings).LeadsWhere (fun _ _ _ => True) g g'
      ∧ (!(collectPartnerDrift (·.idempotencyKey) (readAcross g.store g'.store)).isEmpty) = true :=
    Program.leadsWhere_check (fun _ _ _ => true) (fun _ _ _ _ => trivial) freshPartners_visited
      (guestRegisters ++ guestBuys.take 1) (guestBuys.drop 1)
      (fun g g' => !(collectPartnerDrift (·.idempotencyKey) (readAcross g.store g'.store)).isEmpty)
      (by decide)
  obtain ⟨g, g', hg, hl, hf⟩ := hruns
  have hrun : DriftRun referralSettings (readAcross g.store g'.store) :=
    ⟨⟨g, g', hg, hl, rfl, rfl⟩, fun _ _ => .refl hg, .refl hg, .refl hg, .refl hg⟩
  obtain ⟨line, hline⟩ := List.exists_mem_of_ne_nil _ (by simpa using hf)
  exact ⟨_, line, hline, (drift_false_alarms hrun).1 line hline⟩

end Run

/-! ## Integrity -/

section Integrity

variable {c : ReferralSettings} {s : PartnerDb} {pk : CreditLedgerEntry → String}

theorem mapM_nil {α β : Type} {f : α → Except Exc (List β)} {l : List α}
    (h : ∀ a ∈ l, f a = .ok []) :
    ∃ ls, l.mapM f = .ok ls ∧ ls.flatten = [] := by
  induction l with
  | nil => exact ⟨[], rfl, rfl⟩
  | cons a l ih =>
    obtain ⟨ls, hls, hflat⟩ := ih fun b hb => h b (List.mem_cons_of_mem _ hb)
    refine ⟨[] :: ls, ?_, by simpa using hflat⟩
    rw [List.mapM_cons, h a List.mem_cons_self, hls]
    rfl

/-- An account that is settled on has a balance, which is right. -/
theorem PartnerInv.settled (h : PartnerInv s) {owner : ChannelOwner} {account : Uuid}
    (hsettles : SettlesOn s.rows owner account) :
    ∃ row, s.rows.books.accounts.find? (·.id = account) = some row
      ∧ s.rows.books.ledgerSum account = some row.balance := by
  have hidentity : ∃ a ∈ s.rows.accounts, a.id = account := by
    cases owner with
    | individual user =>
      obtain ⟨a, ha, hid, _⟩ := hsettles
      exact ⟨a, ha, hid⟩
    | team organization =>
      obtain ⟨o, ho, _, hacc⟩ := hsettles
      obtain ⟨a, ha, hid, _⟩ := h.accounts.organization o ho
      exact ⟨a, ha, hid.trans hacc⟩
  obtain ⟨a, ha, hid⟩ := hidentity
  obtain ⟨row, hrow, hrid⟩ := h.accounts.balances a ha
  have hfind : s.rows.books.accounts.find? (·.id = account) = some row :=
    Table.find?_of_mem hrow (decide_eq_true (hrid.trans hid)) fun _ hx =>
      (of_decide_eq_true hx).trans (hrid.trans hid).symm
  refine ⟨row, hfind, ?_⟩
  have hsum := h.books.balance_sum row hrow
  have hnonneg := h.books.balance_nonneg row hrow
  have hbounded := h.accounts.bounded row hrow
  unfold Books.ledgerSum Dec.quantize
  rw [Dec.units_ofUnits, ← hid, ← hrid, ← hsum, if_pos]
  unfold maxMoney at hbounded
  unfold precision
  omega

theorem PartnerInv.channelSettlement_nil (h : PartnerInv s) :
    channelSettlement s (fun _ => s) (fun _ => s) = .ok [] := by
  have hone : ∀ k ∈ s.rows.channels.rows.insertionSort fun a b => a.id.str ≤ b.id.str,
      channelSettlementIssue s s k = .ok [] := by
    intro k hk
    obtain ⟨account, hsettles⟩ := h.settles k ((List.mem_insertionSort _).1 hk)
    obtain ⟨row, hfind, hsum⟩ := h.settled hsettles
    unfold channelSettlementIssue
    rw [(settlementAccount_iff h.accounts).2 hsettles]
    dsimp only
    rw [hfind, hsum]
    exact if_neg (not_not.2 rfl)
  obtain ⟨ls, hls, hflat⟩ := mapM_nil hone
  unfold channelSettlement
  dsimp only
  rw [hls, ← hflat]
  rfl

theorem SelfInv.attributionConflicts_nil (h : SelfInv s.rows) : attributionConflicts s s = [] := by
  have hallowed : ∀ r ∈ attributionPairs s, Allowed s.rows r.1.user r.2.owner := by
    intro r hr
    obtain ⟨a, ha, hread⟩ := List.mem_filterMap.1 hr
    obtain ⟨k, hk, rfl⟩ := Option.map_eq_some_iff.1 hread
    exact h.apart a ha k (Table.mem_of_find? hk) (by simpa using Table.prop_of_find? hk)
  unfold attributionConflicts
  rw [List.append_eq_nil_iff, List.map_eq_nil_iff, List.map_eq_nil_iff, List.filter_eq_nil_iff,
    List.filter_eq_nil_iff]
  refine ⟨?_, ?_⟩
  · intro r hr howner
    have hnot := hallowed r hr
    rw [of_decide_eq_true howner] at hnot
    exact hnot rfl
  · intro r hr hmember
    have hnot := hallowed r hr
    cases howner : r.2.owner with
    | individual user =>
      rw [howner] at hmember
      cases hmember
    | team organization =>
      rw [howner] at hmember hnot
      have hfree : s.rows.activeMember organization r.1.user = false := hnot
      have hactive : s.rows.activeMember organization r.1.user = true := hmember
      rw [hfree] at hactive
      cases hactive

theorem PartnerInv.grantShape_nil (h : PartnerInv s) : grantShape s = .ok [] := by
  have hone : ∀ r ∈ grantReads s, grantShapeIssues r = .ok [] := by
    intro r hr
    obtain ⟨hg, _, hdebit, hcredit, _⟩ := mem_grantReads hr
    obtain ⟨x, y, hne, hx, hy⟩ := (h.grants r.grant hg).apart
    have hapart : r.debit.account ≠ r.credit.account := by
      rw [(hx.read hdebit).2.2.2, (hy.read hcredit).2.2.2]
      exact hne
    have hquantize : (Dec.ofUnits 6 r.grant.amount.micros).quantize 6
        = some r.grant.amount.micros := by
      have hpos := r.grant.amount.pos
      have hlt := r.grant.amount.lt
      unfold Dec.quantize
      rw [Dec.units_ofUnits, if_pos]
      unfold maxMoney at hlt
      unfold precision
      omega
    unfold grantShapeIssues
    rw [hquantize]
    dsimp only
    rw [if_neg hapart, if_neg (not_not.2 rfl)]
    rfl
  obtain ⟨ls, hls, hflat⟩ := mapM_nil hone
  unfold grantShape
  rw [hls, ← hflat]
  rfl

/-- Partners as they start, nobody of whom is their own customer. -/
structure FreshApart (s : PartnerDb) : Prop where
  fresh : FreshPartners s
  apart : SelfInv s.rows

/--
**An integrity check finds nothing but blank tokens**, whatever has been granted, accrued,
attributed, moved or saved, where nobody is made an active member of the organization of a channel
without a guard while a customer of it, or about to be one.
-/
theorem integrity_sound {g : Config PartnerDb PartnerThread}
    (h : (partnerProgram c).ReachWhere FreshApart KeepsCustomersApart g) :
    collectPartnerIntegrity pk (.at g.store) = .ok (inviteShape g.store) := by
  have hreach : (partnerProgram c).Reach FreshPartners g := (h.widen fun _ h => h.fresh).reach
  have hinv : PartnerInv g.store := ((partnerInvariant c).reach hreach).store
  have hself : SelfInv g.store.rows := ((customersApart c).reach (h.widen fun _ h => h.apart)).store
  have hdrift : collectPartnerDrift pk (.at g.store) = [] := collectPartnerDrift_nil hreach
  have hsettlement := hinv.channelSettlement_nil
  have hconflicts := hself.attributionConflicts_nil
  have hshape := hinv.grantShape_nil
  unfold collectPartnerIntegrity
  dsimp only [IntegrityReads.at]
  rw [hdrift, hsettlement, hconflicts, hshape]
  rfl

/-- The check of `KeepsCustomersApart`. -/
def keepsCustomersApart? (s : PartnerDb) : PartnerThread → PartnerInput → Bool
  | .rows t, .rows _ => (unguarded s.rows t).all fun j => mayJoin s.rows t j.1 j.2
  | _, _ => true

theorem keepsCustomersApart_of_check {s : PartnerDb} {t : PartnerThread} {x : PartnerInput}
    (h : keepsCustomersApart? s t x = true) : KeepsCustomersApart s t x := by
  cases t with
  | rows t =>
    cases x with
    | rows y => exact List.all_eq_true.1 h
    | _ => trivial
  | _ => trivial

theorem freshApart_visited : FreshApart visited where
  fresh := freshPartners_visited
  apart := by
    refine ⟨fun a ha => absurd ha (Table.not_mem_empty a), ?_,
      fun a ha => absurd ha (Table.not_mem_empty a)⟩
    intro k hk organization howner
    rw [List.mem_singleton.1 hk] at howner
    cases howner

theorem integrity_sound_half : ∃ g : Config PartnerDb PartnerThread,
    g.store.grants.rows.any (·.amount.micros = 500000) = true
    ∧ collectPartnerIntegrity (·.idempotencyKey) (.at g.store) = .ok (inviteShape g.store) := by
  have hrun : ∃ g, (partnerProgram referralSettings).ReachWhere FreshApart KeepsCustomersApart g
      ∧ g.store.grants.rows.any (·.amount.micros = 500000) = true :=
    Program.reachWhere_check keepsCustomersApart?
      (fun _ _ _ => keepsCustomersApart_of_check) freshApart_visited
      (guestRegisters ++ guestBuys ++ founderGrants ++ [.tick 2 founderStep])
      (fun g => g.store.grants.rows.any (·.amount.micros = 500000)) (by decide)
  obtain ⟨g, hg, hf⟩ := hrun
  exact ⟨g, hf, integrity_sound hg⟩

end Integrity

end Roamkit.Partner.Proof
