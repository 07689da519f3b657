import Roamkit.Proof.Settlement

/-!
# What a step of a grant can do

A call of the grant service looks, waits and looks again, and writes once: at its
commit, where one entry goes on the settlement account, one on the account of the
customer, and the grant names both. `GrantEffect` is everything a step can do, and
`Written` is what the one write is made of.
-/

namespace Roamkit.Partner.Proof

open Lib Billing Organizations Partner Billing.Proof

/-- The plan a call goes by. -/
def planOf : GrantPc → Option GrantPlan
  | .looking plan => some plan
  | .locking plan => some plan
  | .writing plan _ => some plan
  | .conflicted plan => some plan
  | _ => none

/-! ## The write -/

/-- The destination of a grant: the account of the customer, which may be new. -/
structure Destination (rows : ReferralDb) (customer : UserId) (rows₁ : ReferralDb)
    (id : Uuid) : Prop where
  books : BooksMove (fun _ => False) rows.books rows₁.books
  step : RowsStep rows rows₁
  account : ∃ a ∈ rows₁.accounts, a.id = id ∧ a.user = some customer

/-- What the transaction of a grant writes. -/
structure Written (s : GrantDb) (a : GrantArgs) (plan : GrantPlan)
    (attribution : CustomerAttribution) (s' : GrantDb) (g : PartnerCreditGrant) : Prop where
  id : ∃ id, g = GrantDb.newGrant a plan attribution id
  inserted : s.grants.insert? g = some s'.grants
  posted : ∃ (rows : ReferralDb) (destination : Uuid) (debit credit : Posting) (b₁ b₂ : Books)
    (e₁ e₂ : CreditLedgerEntry), Destination s.rows a.customer rows destination
      ∧ rows.books.apply debit = .ok (b₁, e₁) ∧ b₁.apply credit = .ok (b₂, e₂)
      ∧ s'.rows = { rows with books := b₂ }
      ∧ plan.source ≠ destination
      ∧ (debit.account = plan.source ∧ debit.delta = -plan.amount.micros
        ∧ debit.referenceType = .partnerGrantOut ∧ debit.referenceId = g.id.str
        ∧ debit.idempotencyKey = grantOutKey g.id)
      ∧ credit.account = destination ∧ credit.delta = plan.amount.micros
        ∧ credit.referenceType = .partnerGrantIn ∧ credit.referenceId = g.id.str
        ∧ credit.idempotencyKey = grantInKey g.id

section Write

variable {s s' : GrantDb} {a : GrantArgs} {plan : GrantPlan} {attribution : CustomerAttribution}
  {g : PartnerCreditGrant}

theorem ensureBillingAccount_destination {customer : UserId} {id destination : Uuid} {s₁ : GrantDb}
    (h : s.ensureBillingAccount customer id = .ok (s₁, destination)) :
    s₁.grants = s.grants ∧ Destination s.rows customer s₁.rows destination := by
  unfold GrantDb.ensureBillingAccount at h
  split at h
  · rename_i account hfind
    cases h
    refine ⟨rfl, .same, rowsStep_of_eq rfl rfl rfl rfl (.refl _), account,
      Table.mem_of_find? hfind, rfl, ?_⟩
    simpa using Table.prop_of_find? hfind
  · split at h
    · rename_i accounts balances haccounts hbalances
      cases h
      refine ⟨rfl, .opens hbalances, ?_, _, (Table.mem_insert haccounts).2 (.inr rfl), rfl, rfl⟩
      refine ⟨?_, ?_, ?_, ?_, ?_, ?_, ?_, balances_opened hbalances⟩
      · exact fun b hb => (Table.mem_insert haccounts).2 (.inl hb)
      · intro b hb
        rcases (Table.mem_insert haccounts).1 hb with hb | rfl
        · exact .inl hb
        · exact .inr ⟨fun _ => rfl, _, (Table.mem_insert hbalances).2 (.inr rfl), rfl⟩
      · exact fun o ho => ⟨o, ho, rfl, rfl⟩
      · exact fun o ho => .inl ⟨o, ho, rfl, rfl⟩
      · exact fun k hk => ⟨k, hk, rfl, rfl⟩
      · exact fun k hk => .inl ⟨k, hk, rfl, rfl⟩
      · exact fun l hl => ⟨l, hl, rfl⟩
    · cases h

theorem lockAccounts_ne {b : Books} {source destination : Uuid} {u : Unit}
    (h : GrantDb.lockAccounts b source destination = .ok u) : source ≠ destination := by
  unfold GrantDb.lockAccounts at h
  split at h
  · cases h
  · rename_i hne
    exact hne

theorem write_written {uuid : Nat → Uuid} (h : s.write a plan attribution uuid = .ok (s', g)) :
    Written s a plan attribution s' g := by
  obtain ⟨⟨s₁, destination⟩, hdestination, h⟩ := bind_ok h
  obtain ⟨hgrants, hdest⟩ := ensureBillingAccount_destination hdestination
  obtain ⟨u, hlock, h⟩ := bind_ok h
  obtain ⟨books, htransfer, h⟩ := bind_ok h
  dsimp only at h
  split at h
  · cases h
  split at h
  · cases h
  rename_i grants hinsert
  cases h
  obtain ⟨debit, hdebit, htransfer⟩ := bind_ok htransfer
  obtain ⟨⟨b₁, e₁⟩, hb₁, htransfer⟩ := bind_ok htransfer
  obtain ⟨credit, hcredit, htransfer⟩ := bind_ok htransfer
  obtain ⟨⟨b₂, e₂⟩, hb₂, htransfer⟩ := bind_ok htransfer
  cases htransfer
  obtain ⟨hdamount, hdacc, hdsign, hdtype, hdref, hdkey⟩ := preparePosting_eq hdebit
  obtain ⟨hcamount, hcacc, hcsign, hctype, hcref, hckey⟩ := preparePosting_eq hcredit
  -- the amount of a column is posted as it is
  have hd : debit.amount = plan.amount :=
    Except.ok.inj (hdamount.symm.trans (normalizeAmount_micros _))
  have hc : credit.amount = plan.amount :=
    Except.ok.inj (hcamount.symm.trans (normalizeAmount_micros _))
  refine ⟨⟨uuid 0, rfl⟩, hgrants ▸ hinsert, s₁.rows, destination, debit, credit, b₁, books,
    e₁, e₂, hdest,
    hb₁, hb₂, rfl, lockAccounts_ne hlock, ⟨hdacc, ?_, hdtype, hdref, hdkey⟩, hcacc, ?_,
      hctype, hcref,
    hckey⟩
  · simp [Posting.delta, hdsign, hd]
  · simp [Posting.delta, hcsign, hc]

end Write

/-! ## The steps -/

/-- The grant a call answers with is the one of its key, for the same customer and amount. -/
structure Matches (a : GrantArgs) (plan : GrantPlan) (g : PartnerCreditGrant) : Prop where
  channel : g.partnerChannel = a.partnerChannel
  key : g.idempotencyKey = a.idempotencyKey
  customer : g.customer = a.customer
  amount : g.amount = plan.amount

/-- Everything a step of a grant can do. -/
structure GrantEffect (enabled : Bool) (s : GrantDb) (t : GrantThread) (s' : GrantDb)
    (t' : GrantThread) :
    Prop where
  call : t'.call = t.call
  /-- Only the commit writes, and the call then returns. -/
  write : (s'.grants = s.grants ∧ s'.rows = { s.rows with locks := s'.rows.locks })
    ∨ ∃ plan attribution s₁ g, t.pc = .writing plan attribution
      ∧ Written s t.call.args plan attribution s₁ g ∧ s'.grants = s₁.grants
      ∧ s'.rows = { s₁.rows with locks := s'.rows.locks } ∧ t'.pc = .returned g
  /-- A call goes on by its plan, or by one it makes. -/
  plan : ∀ plan, planOf t'.pc = some plan → planOf t.pc = some plan
    ∨ ∃ channel, s.rows.channel? t.call.args.partnerChannel = some channel
      ∧ s.plan enabled channel t.call = .ok plan
  /-- It writes for a customer it has found on the channel. -/
  attribution : ∀ plan a, t'.pc = .writing plan a → a ∈ s.rows.attributions
    ∧ a.user = t.call.args.customer ∧ a.partnerChannel = t.call.args.partnerChannel
  /-- What it returns is stored. -/
  answer : ∀ g, t'.pc = .returned g
    → g ∈ s'.grants ∧ ∃ plan, planOf t.pc = some plan ∧ Matches t.call.args plan g
  failed : ∀ e, t'.pc = .raised e
    → s'.grants = s.grants ∧ s'.rows = { s.rows with locks := s'.rows.locks }

section Steps

variable {enabled : Bool} {s s' : GrantDb} {t t' : GrantThread}

/-- A step that raises. -/
theorem effect_grant_raise {e : Exc} (h : s.raise t e = (s', t')) :
    GrantEffect enabled s t s' t' := by
  cases h
  exact {
    call := rfl
    write := .inl ⟨rfl, rfl⟩
    plan := fun _ hplan => by cases hplan
    attribution := fun _ _ hpc => by cases hpc
    answer := fun _ hpc => by cases hpc
    failed := fun _ _ => ⟨rfl, rfl⟩ }

/-- A step that goes on by the plan it has. -/
theorem effect_grant_goto {pc : GrantPc}
    (hplan : ∀ plan, planOf pc = some plan → planOf t.pc = some plan
      ∨ ∃ channel, s.rows.channel? t.call.args.partnerChannel = some channel
        ∧ s.plan enabled channel t.call = .ok plan)
    (hwriting : ∀ plan a, pc ≠ .writing plan a) (hreturned : ∀ g, pc ≠ .returned g)
    (h : s.goto t pc = (s', t')) : GrantEffect enabled s t s' t' := by
  cases h
  exact {
    call := rfl
    write := .inl ⟨rfl, rfl⟩
    plan := hplan
    attribution := fun plan a hpc => absurd hpc (hwriting plan a)
    answer := fun g hpc => absurd hpc (hreturned g)
    failed := fun _ _ => ⟨rfl, rfl⟩ }

theorem existing_mem {channel : Uuid} {key : String} {g : PartnerCreditGrant}
    (h : s.existing? channel key = some g) :
    g ∈ s.grants ∧ g.partnerChannel = channel ∧ g.idempotencyKey = key := by
  have hprop := Table.prop_of_find? h
  rw [Bool.and_eq_true] at hprop
  exact ⟨Table.mem_of_find? h, of_decide_eq_true hprop.1, of_decide_eq_true hprop.2⟩

theorem matching_ok {g g' : PartnerCreditGrant} {customer : UserId} {amount : Amount}
    (h : GrantDb.matching g customer amount = .ok g') :
    g' = g ∧ g.customer = customer ∧ g.amount = amount := by
  unfold GrantDb.matching at h
  split at h
  · cases h
  rename_i hsame
  cases h
  rw [not_or, not_not, not_not] at hsame
  exact ⟨rfl, hsame⟩

/-- **A replay answers with the stored grant and writes nothing.** -/
theorem effect_replay {plan : GrantPlan} {g : PartnerCreditGrant} (hplan : planOf t.pc = some plan)
    (hg : s.existing? t.call.args.partnerChannel t.call.args.idempotencyKey = some g)
    (h : s.replay t plan g = (s', t')) : GrantEffect enabled s t s' t' := by
  obtain ⟨hmem, hchannel, hkey⟩ := existing_mem hg
  unfold GrantDb.replay at h
  split at h
  · exact effect_grant_raise h
  · rename_i g' hmatching
    obtain ⟨rfl, hcustomer, hamount⟩ := matching_ok hmatching
    cases h
    exact {
      call := rfl
      write := .inl ⟨rfl, rfl⟩
      plan := fun _ hpc => by cases hpc
      attribution := fun _ _ hpc => by cases hpc
      answer := fun g hpc => by
        cases hpc
        exact ⟨hmem, plan, hplan, hchannel, hkey, hcustomer, hamount⟩
      failed := fun _ _ => ⟨rfl, rfl⟩ }

theorem effect_begin (h : s.begin t enabled = (s', t')) : GrantEffect enabled s t s' t' := by
  unfold GrantDb.begin at h
  split at h
  · exact effect_grant_raise h
  · rename_i channel hchannel
    split at h
    · exact effect_grant_raise h
    · rename_i plan hplan
      refine effect_grant_goto ?_ ?_ ?_ h
      · intro plan' hplan'
        cases hplan'
        exact .inr ⟨channel, hchannel, hplan⟩
      · exact fun _ _ => GrantPc.noConfusion
      · exact fun _ => GrantPc.noConfusion

theorem effect_look {plan : GrantPlan} (hpc : t.pc = .looking plan) (h : s.look t plan = (s', t')) :
    GrantEffect enabled s t s' t' := by
  have hplan : planOf t.pc = some plan := by rw [hpc]; rfl
  unfold GrantDb.look at h
  split at h
  · rename_i g hg
    exact effect_replay hplan hg h
  · refine effect_grant_goto ?_ (fun _ _ => GrantPc.noConfusion) (fun _ => GrantPc.noConfusion) h
    intro plan' hplan'
    cases hplan'
    exact .inl hplan

theorem effect_race {plan : GrantPlan} (hpc : t.pc = .conflicted plan)
    (h : s.race t plan = (s', t')) :
    GrantEffect enabled s t s' t' := by
  unfold GrantDb.race at h
  split at h
  · rename_i g hg
    exact effect_replay (by rw [hpc]; rfl) hg h
  · exact effect_grant_raise h

theorem effect_requireChannel {plan : GrantPlan} {a : CustomerAttribution}
    (hpc : t.pc = .locking plan) (ha : s.rows.attribution? t.call.args.customer = some a)
    (h : s.requireChannel t plan a = (s', t')) :
    GrantEffect enabled s t s' t' := by
  have huser : a.user = t.call.args.customer := by simpa using Table.prop_of_find? ha
  unfold GrantDb.requireChannel at h
  split at h
  · exact effect_grant_raise h
  · rename_i hchannel
    cases h
    exact {
      call := rfl
      write := .inl ⟨rfl, rfl⟩
      plan := fun plan' hplan' => by
        cases hplan'
        rw [hpc]
        exact .inl rfl
      attribution := fun plan' a' hpc' => by
        cases hpc'
        exact ⟨Table.mem_of_find? ha, huser, not_not.1 hchannel⟩
      answer := fun _ hpc' => by cases hpc'
      failed := fun _ hpc' => by cases hpc' }

theorem effect_lock_grant {plan : GrantPlan} (hpc : t.pc = .locking plan)
    (h : s.lock t plan = some (s', t')) : GrantEffect enabled s t s' t' := by
  have hplan : planOf t.pc = some plan := by rw [hpc]; rfl
  unfold GrantDb.lock at h
  dsimp only at h
  split at h
  · split at h
    · rename_i g hg
      exact effect_replay hplan hg (Option.some.inj h)
    · exact effect_grant_raise (Option.some.inj h)
  · rename_i a ha
    split at h
    · cases h
    split at h
    · rename_i g hg
      exact effect_replay hplan hg (Option.some.inj h)
    · exact effect_requireChannel hpc ha (Option.some.inj h)

theorem effect_commit {plan : GrantPlan} {a : CustomerAttribution} {uuid : Nat → Uuid}
    (hpc : t.pc = .writing plan a) (h : s.commit t plan a uuid = (s', t')) :
    GrantEffect enabled s t s' t' := by
  have hplan : planOf t.pc = some plan := by rw [hpc]; rfl
  unfold GrantDb.commit at h
  split at h
  · -- the transaction met an `IntegrityError`
    cases h
    exact {
      call := rfl
      write := .inl ⟨rfl, rfl⟩
      plan := fun plan' hplan' => by
        cases hplan'
        exact .inl hplan
      attribution := fun _ _ hpc' => by cases hpc'
      answer := fun _ hpc' => by cases hpc'
      failed := fun _ hpc' => by cases hpc' }
  · exact effect_grant_raise h
  · rename_i s₁ g hwrite
    have hwritten := write_written hwrite
    obtain ⟨id, hid⟩ := hwritten.id
    cases h
    exact {
      call := rfl
      write := .inr ⟨plan, a, s₁, g, hpc, hwritten, rfl, rfl, rfl⟩
      plan := fun _ hpc' => by cases hpc'
      attribution := fun _ _ hpc' => by cases hpc'
      answer := fun g' hpc' => by
        cases hpc'
        refine ⟨(Table.mem_insert hwritten.inserted).2 (.inr rfl), plan, hplan, ?_, ?_, ?_, ?_⟩
          <;> rw [hid] <;> rfl
      failed := fun _ hpc' => by cases hpc' }

/-- **Everything a step of a grant can do.** -/
theorem grantStep_effect {x : GrantInput} (h : grantStep enabled s t x = some (s', t')) :
    GrantEffect enabled s t s' t' := by
  unfold grantStep at h
  split at h
  · split at h
    · exact effect_grant_raise (Option.some.inj h)
    · cases h
  · split at h
    · exact effect_begin (Option.some.inj h)
    · rename_i hpc
      exact effect_look hpc (Option.some.inj h)
    · rename_i hpc
      exact effect_lock_grant hpc h
    · rename_i hpc
      exact effect_commit hpc (Option.some.inj h)
    · rename_i hpc
      exact effect_race hpc (Option.some.inj h)
    · cases h
    · cases h

end Steps

end Roamkit.Partner.Proof
