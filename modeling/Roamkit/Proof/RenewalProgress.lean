import Roamkit.Proof.Renewals

/-!
# A batch of renewals goes on

`renew_due` renews one subscription after the other and catches nothing, so that
what one of them raises ends the batch. `Renewable` is the exact condition, at each
step, that the batch goes on and that a subscription that is due is billed or
paused by it.
-/

namespace Roamkit.Billing.Proof

open Lib Billing RenewalDb Spend.Proof

/-! ## What is asked of a step -/

/-- Whether a call is in `renew_one`. -/
def isWorking : RenewalPc → Bool
  | .asked => false
  | pc => pc.isLive

/-- The subscription a call is renewing. -/
def renewing? : RenewalPc → Option Uuid
  | .reading id => some id
  | .cycling current => some current.id
  | .opening current => some current.id
  | .raced current => some current.id
  | .renewing id _ => some id
  | _ => none

/-- The subscriptions a call has answered for, is renewing, and has left. -/
def asked (t : RenewalThread) : List Uuid :=
  t.results.map (·.1) ++
    match renewing? t.pc with
    | some id => id :: t.left
    | none => []

/-- A period is debited, and the date is moved on. -/
structure Billed (s s' : RenewalDb) (id : Uuid) (date : Date) : Prop where
  debit : ∃ e ∈ s'.books.entries, e ∉ s.books.entries ∧ e.referenceType = .subscription
    ∧ e.idempotencyKey = renewalKey id date
  date : ∃ r ∈ s'.subscriptions, r.id = id
    ∧ r.nextBillingDate.days = date.days + subscriptionPeriodDays

/-- A subscription is paused. -/
def Paused (s : RenewalDb) (id : Uuid) : Prop :=
  ∃ r ∈ s.subscriptions, r.id = id ∧ r.status = .paused

/-- A step of `renew_one` goes on, and bills or pauses what it finds due. -/
structure RenewsOn (s : RenewalDb) (t : RenewalThread) (s' : RenewalDb) (t' : RenewalThread) :
    Prop where
  goes : ∀ e, t'.pc ≠ .raised e
  /-- Nothing that was asked for is lost. -/
  asked : asked t' = asked t
  bills : ∀ id date, t.pc = .renewing id date → ∀ r ∈ s.subscriptions, r.id = id →
    r.status = .active → r.nextBillingDate = date → Billed s s' id date ∨ Paused s' id

/-! ## The condition -/

/-- The debit of the date a subscription stands at. -/
def debitOf (r : Subscription) : Posting where
  account := r.account
  amount := r.pricePerPeriod
  credit := false
  referenceType := .subscription
  referenceId := r.id.str
  idempotencyKey := renewalKey r.id r.nextBillingDate
  keyed := by
    intro h
    have hkind := congrArg String.length ((renewalKey_kind _ _).symm.trans h)
    rw [String.length_append] at hkind
    exact absurd hkind (by simp)

/-- What comes after the debit does not raise: the date has a successor, and the share is paid. -/
def Settles (c : RenewalSettings) (s : RenewalDb) (cycle : SubscriptionRenewalCycle)
    (r : Subscription) (v : AccrualView) : Prop :=
  (cycle.billingDate.addDays? subscriptionPeriodDays).isSome = true ∧
    ∀ b e, s.books.apply (debitOf r) = .ok (b, e) → ∃ m,
      (MarginBooks.mk b s.accruals).accrue c.partnerChannelEnabled .subscription
        (renewalSourceId r.id cycle.billingDate) (some cycle.renewalListPrice)
        cycle.renewalNetPrice v.customer v.attribution v.accrualId = .ok m

/--
What a due subscription is billed or paused under: its date has no renewed cycle
and no entry, and its account lacks the price, or has it and nothing after the
debit raises.
-/
def CanBill (c : RenewalSettings) (s : RenewalDb) (r : Subscription) (v : AccrualView) : Prop :=
  ∀ cycle, s.cycleOf r.id r.nextBillingDate = some cycle →
    cycle.status ≠ .renewed ∧
    (∀ e ∈ s.books.entries, e.idempotencyKey ≠ renewalKey r.id r.nextBillingDate) ∧
    ∃ a ∈ s.books.accounts, a.id = r.account ∧
      (a.balance < r.pricePerPeriod.micros ∨
        (((debitOf r).entry a.balance).fits = true ∧ a.version + 1 ≤ maxVersion
          ∧ Settles c s cycle r v))

/-- The condition at a step. -/
def Renewable (c : RenewalSettings) (s : RenewalDb) (t : RenewalThread) (x : RenewalInput) : Prop :=
  match t.pc, x with
  | _, .fail => False
  | .raced current, .go => (s.cycleOf current.id current.nextBillingDate).isSome = true
  | .renewing id date, .accrues v => ∀ r ∈ s.subscriptions, r.id = id → r.status = .active →
      r.nextBillingDate = date → CanBill c s r v
  | _, _ => True

/-! ## The money transaction -/

variable {cycle : SubscriptionRenewalCycle} {id : Uuid} {date : Date} {b : Books} {x : RenewalInput}

section Transaction

variable {c : RenewalSettings} {s s' : RenewalDb} {r : Subscription} {v : AccrualView}

theorem prepare_debit (r : Subscription) :
    preparePosting r.account (.decimal (.finite (Dec.ofUnits 6 r.pricePerPeriod.micros)))
      (.member .subscription) r.id.str (renewalKey r.id r.nextBillingDate) false
      = .ok (debitOf r) := by
  unfold preparePosting
  rw [normalizeAmount_micros]
  simp only [normalizeReferenceType, bind, Except.bind]
  rw [dif_neg (show renewalKey r.id r.nextBillingDate ≠ "" from (debitOf r).keyed)]
  rfl

theorem find_subscription (hr : r ∈ s.subscriptions) :
    s.subscriptions.find? (·.id = r.id) = some r := by
  refine Table.find?_of_mem hr (by simp) ?_
  intro x hx
  show x.id = r.id
  simpa using hx

/-- The transaction, on a subscription that is due and whose cycle is not renewed. -/
theorem renew_due (hr : r ∈ s.subscriptions) (hactive : r.status = .active)
    (hcycle : s.cycleOf r.id r.nextBillingDate = some cycle) (hopen : cycle.status ≠ .renewed) :
    s.renew c r.id r.nextBillingDate v =
      match s.books.apply (debitOf r) with
      | .error (.insufficientFunds _ _) => (·, .paused) <$> s.pause cycle r
      | .error e => .error e
      | .ok (books, _) => (·, .renewed) <$> s.settle c cycle r books v := by
  unfold renew
  rw [hcycle, find_subscription hr]
  dsimp only
  rw [if_neg hopen, if_neg (not_not.2 hactive), if_neg (not_not.2 rfl), prepare_debit]
  rfl

/-- A transaction that finds nothing due changes nothing, and raises nothing. -/
theorem renew_idle (hcycle : s.cycleOf id date = some cycle)
    (h : cycle.status = .renewed ∨ ∀ r ∈ s.subscriptions, r.id = id →
      ¬ (r.status = .active ∧ r.nextBillingDate = date)) :
    ∃ o, s.renew c id date v = .ok (s, o) := by
  unfold renew
  rw [hcycle]
  dsimp only
  split
  · exact ⟨_, rfl⟩
  · rename_i locked hlocked
    split
    · exact ⟨_, rfl⟩
    · rename_i hopen
      split
      · exact ⟨_, rfl⟩
      · rename_i hactive
        split
        · exact ⟨_, rfl⟩
        · rename_i hdate
          rcases h with h | h
          · exact absurd h hopen
          · exact absurd ⟨not_not.1 hactive, not_not.1 hdate⟩
              (h locked (Table.mem_of_find? hlocked) (by simpa using Table.prop_of_find? hlocked))

/-- A cycle that is out of funds. -/
def pausedRow (c : SubscriptionRenewalCycle) :
    SubscriptionRenewalCycle := { c with status := .paused }

/-- A cycle that is not finished may be paused. -/
theorem pause_ok (hc : cycle ∈ s.cycles) (hopen : cycle.status ≠ .renewed) :
    ∃ s', s.pause cycle r = .ok s' := by
  have hunfinished : cycle.status.isUnfinished = true := by
    unfold CycleStatus.isUnfinished
    exact decide_eq_true hopen
  have hone : ∀ a ∈ s.cycles, a.status.isUnfinished = true
      ∨ rewrite (·.id = cycle.id) pausedRow a = a := by
    intro a ha
    by_cases hid : a.id = cycle.id
    · rw [Table.eq_of_clash ha hc (.inl hid)]
      exact .inl hunfinished
    · exact .inr (rewrite_neg _ (by simpa using hid))
  have hsame : ∀ a, (rewrite (·.id = cycle.id) pausedRow a).id = a.id
      ∧ (rewrite (·.id = cycle.id) pausedRow a).subscription
        = a.subscription
      ∧ (rewrite (·.id = cycle.id) pausedRow a).billingDate
        = a.billingDate := by
    intro a
    unfold rewrite
    split <;> exact ⟨rfl, rfl, rfl⟩
  have hpairs : (s.cycles.rows.map (rewrite (·.id = cycle.id) pausedRow)).Pairwise fun a b =>
      ¬ Constraint.clash a b := by
    rw [List.pairwise_map]
    refine s.cycles.apart.imp_of_mem ?_
    intro a b ha hb hapart hclash
    apply hapart
    rcases hclash with h | ⟨hsub, h | ⟨hua, hub⟩⟩
    · exact .inl ((hsame a).1.symm.trans (h.trans (hsame b).1))
    · exact .inr ⟨(hsame a).2.1.symm.trans (hsub.trans (hsame b).2.1),
        .inl ((hsame a).2.2.symm.trans (h.trans (hsame b).2.2))⟩
    · refine .inr ⟨(hsame a).2.1.symm.trans (hsub.trans (hsame b).2.1), .inr ⟨?_, ?_⟩⟩
      · rcases hone a ha with h | h
        · exact h
        · rwa [h] at hua
      · rcases hone b hb with h | h
        · exact h
        · rwa [h] at hub
  have hupdate : ∃ cycles, s.cycles.update? (·.id = cycle.id) pausedRow = some cycles :=
    ⟨_, dif_pos hpairs⟩
  obtain ⟨cycles, hcycles⟩ := hupdate
  unfold pausedRow at hcycles
  unfold pause
  rw [hcycles]
  exact ⟨_, rfl⟩

/-- The row of a paused subscription. -/
theorem paused_pause (hr : r ∈ s.subscriptions)
    (h : s.pause cycle r = .ok s') : Paused s' r.id := by
  unfold pause at h
  split at h
  · cases h
  · cases h
    exact ⟨_, List.mem_map.2 ⟨r, hr, rewrite_pos _ (by simp)⟩, rfl, rfl⟩

/-- The rows of a billed one. -/
theorem billed_settle {e : CreditLedgerEntry} (hr : r ∈ s.subscriptions)
    (hcycle : s.cycleOf r.id r.nextBillingDate = some cycle)
    (hunused : ∀ e ∈ s.books.entries, e.idempotencyKey ≠ renewalKey r.id r.nextBillingDate)
    (ha : s.books.apply (debitOf r) = .ok (b, e)) (h : s.settle c cycle r b v = .ok s') :
    Billed s s' r.id r.nextBillingDate := by
  obtain ⟨next, s₁, hnext, rfl, hsubs, _, hbooks⟩ := settle_cases h
  obtain ⟨_, _, hdate⟩ := cycleOf_mem hcycle
  refine ⟨⟨e, ?_, ?_, ?_⟩, ⟨{ r with nextBillingDate := next }, ?_, rfl, ?_⟩⟩
  · rcases apply_rows ha with ⟨_, he, hkey⟩ | ⟨hrows, _⟩
    · exact absurd hkey (hunused e he)
    · have hmem : e ∈ b.entries := by
        rw [Table.mem_def, hrows]
        exact List.mem_append.2 (.inr (List.mem_singleton.2 rfl))
      rcases hbooks with hsame | ⟨p, f, hp, _⟩
      · exact hsame ▸ hmem
      · rcases apply_rows hp with ⟨hsame, _⟩ | ⟨hmore, _⟩
        · exact hsame ▸ hmem
        · rw [Table.mem_def, hmore]
          exact List.mem_append.2 (.inl hmem)
  · intro he
    rcases apply_rows ha with ⟨_, he, hkey⟩ | ⟨_, _, _, hkey, _⟩
    · exact hunused e he hkey
    · exact hunused e he hkey
  · rcases apply_rows ha with ⟨_, he, hkey⟩ | ⟨_, htype, _, hkey, _⟩
    · exact absurd hkey (hunused e he)
    · exact ⟨htype, hkey⟩
  · rw [hsubs]
    exact List.mem_map.2 ⟨r, hr, rewrite_pos _ (by simp)⟩
  · rw [← hdate]
    exact Date.days_addDays hnext

theorem active_not_paused (hr : r ∈ s.subscriptions) (hactive : r.status = .active) :
    ¬ Paused s r.id := by
  rintro ⟨q, hq, hid, hstatus⟩
  rw [Table.eq_of_clash hq hr hid, hactive] at hstatus
  cases hstatus

/-- What is debited is not paused. -/
theorem settle_not_paused (hr : r ∈ s.subscriptions) (hactive : r.status = .active)
    (h : s.settle c cycle r b v = .ok s') : ¬ Paused s' r.id := by
  obtain ⟨next, s₁, _, rfl, hsubs, _⟩ := settle_cases h
  refine active_not_paused (r := { r with nextBillingDate := next }) ?_ hactive
  rw [hsubs]
  exact List.mem_map.2 ⟨r, hr, rewrite_pos _ (by simp)⟩

/-- What is settled has a next date, and its share is paid. -/
theorem settle_ok (h : s.settle c cycle r b v = .ok s') :
    (cycle.billingDate.addDays? subscriptionPeriodDays).isSome = true ∧ ∃ m,
      (MarginBooks.mk b s.accruals).accrue c.partnerChannelEnabled .subscription
        (renewalSourceId r.id cycle.billingDate) (some cycle.renewalListPrice)
        cycle.renewalNetPrice v.customer v.attribution v.accrualId = .ok m := by
  unfold settle at h
  split at h
  · cases h
  rename_i next hnext
  obtain ⟨m, hm, _⟩ := bind_ok h
  exact ⟨by rw [hnext]; rfl, m, hm⟩

/-- Under a key that has an entry nothing is debited. -/
theorem settle_not_billed (h : s.settle c cycle r s.books v = .ok s') : ¬ Billed s s' id date := by
  obtain ⟨next, s₁, _, rfl, _, _, hbooks⟩ := settle_cases h
  intro hbilled
  obtain ⟨e, he, hnew, htype, _⟩ := hbilled.debit
  rcases hbooks with hsame | ⟨p, f, hp, hptype, _⟩
  · rw [hsame] at he
    exact hnew he
  · rcases apply_rows hp with ⟨hsame, _⟩ | ⟨hrows, hftype, _⟩
    · rw [hsame] at he
      exact hnew he
    · rw [Table.mem_def, hrows, List.mem_append, List.mem_singleton] at he
      rcases he with he | rfl
      · exact hnew he
      · rw [hftype, hptype] at htype
        cases htype

/-! ## The condition is what it takes -/

/-- What `_apply` does under a key without an entry. -/
theorem apply_unused {a : Account} {p : Posting} (ha : a ∈ b.accounts) (hid : a.id = p.account)
    (hunused : ∀ e ∈ b.entries, e.idempotencyKey ≠ p.idempotencyKey) :
    b.apply p =
      if a.balance + p.delta < 0 then .error (.insufficientFunds a.balance p.amount.micros)
      else if ¬ (p.entry a.balance).fits then .error .data
      else
        match b.post a (p.entry a.balance) with
        | none => .error .integrity
        | some b' =>
            if maxVersion < a.version + 1 then .error .data else .ok (b', p.entry a.balance) := by
  have hfind : b.accounts.find? (·.id = p.account) = some a := by
    refine Table.find?_of_mem ha (by simpa using hid) ?_
    intro x hx
    show x.id = a.id
    rw [hid]
    simpa using hx
  have hnone : b.entries.find? (·.idempotencyKey = p.idempotencyKey) = none :=
    Table.find?_eq_none.2 fun e he => by simpa using hunused e he
  unfold Books.apply
  rewrite [hfind, hnone]
  rfl

/-- A due subscription that can be billed is billed, or paused. -/
theorem renews_of_canBill (hr : r ∈ s.subscriptions) (hactive : r.status = .active)
    (hcycle : s.cycleOf r.id r.nextBillingDate = some cycle) (h : CanBill c s r v) :
    ∃ s' o, s.renew c r.id r.nextBillingDate v = .ok (s', o)
      ∧ (Billed s s' r.id r.nextBillingDate ∨ Paused s' r.id) := by
  obtain ⟨hopen, hunused, a, ha, hid, hfunds⟩ := h cycle hcycle
  rw [renew_due hr hactive hcycle hopen]
  have happly := apply_unused (p := debitOf r) ha hid hunused
  have hdelta : (debitOf r).delta = -r.pricePerPeriod.micros := rfl
  rcases hfunds with hpoor | ⟨hfits, hversion, hnext, haccrue⟩
  · rw [if_pos (by omega)] at happly
    rw [happly]
    obtain ⟨s', hs'⟩ := pause_ok (r := r) (cycleOf_mem hcycle).1 hopen
    dsimp only
    rw [hs']
    exact ⟨s', .paused, rfl, .inr (paused_pause hr hs')⟩
  · by_cases hpoor : a.balance < r.pricePerPeriod.micros
    · rw [if_pos (by omega)] at happly
      rw [happly]
      obtain ⟨s', hs'⟩ := pause_ok (r := r) (cycleOf_mem hcycle).1 hopen
      dsimp only
      rw [hs']
      exact ⟨s', .paused, rfl, .inr (paused_pause hr hs')⟩
    · obtain ⟨b, hb⟩ : ∃ b, s.books.post a ((debitOf r).entry a.balance) = some b :=
        post_isSome hunused
      rw [if_neg (by omega), if_neg (not_not.2 hfits), hb] at happly
      dsimp only at happly
      rw [if_neg (by omega)] at happly
      obtain ⟨m, hm⟩ := haccrue _ _ happly
      obtain ⟨next, hnext⟩ := Option.isSome_iff_exists.1 hnext
      have hsettle : ∃ s', s.settle c cycle r b v = .ok s' := by
        unfold settle
        rw [hnext]
        dsimp only
        show ∃ s', ((MarginBooks.mk b s.accruals).accrue _ _ _ _ _ _ _ _ >>= _) = _
        rw [hm]
        exact ⟨_, rfl⟩
      obtain ⟨s', hs'⟩ := hsettle
      rw [happly]
      dsimp only
      rw [hs']
      exact ⟨s', .renewed, rfl, .inl (billed_settle hr hcycle hunused happly hs')⟩

/-- A due subscription that is billed or paused could be. -/
theorem canBill_of_renews {o : RenewalOutcome} (hr : r ∈ s.subscriptions)
    (hactive : r.status = .active) (h : s.renew c r.id r.nextBillingDate v = .ok (s', o))
    (hdone : Billed s s' r.id r.nextBillingDate ∨ Paused s' r.id) : CanBill c s r v := by
  have hsame : s' = s → False := by
    rintro rfl
    rcases hdone with hbilled | hpaused
    · obtain ⟨e, he, hnew, _⟩ := hbilled.debit
      exact hnew he
    · exact active_not_paused hr hactive hpaused
  intro cycle hcycle
  have hopen : cycle.status ≠ .renewed := by
    intro hrenewed
    unfold renew at h
    rw [hcycle, find_subscription hr] at h
    dsimp only at h
    rw [if_pos hrenewed] at h
    cases h
    exact hsame rfl
  rw [renew_due hr hactive hcycle hopen] at h
  have hsettled : ∀ {b s₁}, s.settle c cycle r b v = .ok s₁ → s₁ = s' →
      Billed s s' r.id r.nextBillingDate := by
    rintro b s₁ hs₁ rfl
    rcases hdone with hbilled | hpaused
    · exact hbilled
    · exact absurd hpaused (settle_not_paused hr hactive hs₁)
  have hunused : ∀ e ∈ s.books.entries, e.idempotencyKey ≠ renewalKey r.id r.nextBillingDate := by
    intro e he hkey
    cases happly : s.books.apply (debitOf r) with
    | error err =>
      -- a used key is replayed, so only the account can be missing
      unfold Books.apply at happly
      split at happly
      · cases happly
        rw [show s.books.apply (debitOf r) = .error (.doesNotExist "Account") by
          unfold Books.apply
          simp_all] at h
        cases h
      · split at happly
        · cases happly
        · rename_i hnone
          exact Table.not_of_find? hnone he (decide_eq_true hkey)
    | ok pair =>
      obtain ⟨b, f⟩ := pair
      rw [happly] at h
      dsimp only at h
      cases hsettle : s.settle c cycle r b v with
      | error err => rw [hsettle] at h; cases h
      | ok s₁ =>
        rw [hsettle] at h
        cases h
        rcases apply_cases happly with ⟨rfl, _⟩ | ⟨_, _, _, rfl, _, _, hpost⟩
        · exact settle_not_billed hsettle (hsettled hsettle rfl)
        · exact (post_cases hpost).2.1 e he hkey
  refine ⟨hopen, hunused, ?_⟩
  cases hfind : s.books.accounts.find? (·.id = r.account) with
  | none =>
    have hmissing : s.books.apply (debitOf r) = .error (.doesNotExist "Account") := by
      unfold Books.apply
      rw [show s.books.accounts.find? (·.id = (debitOf r).account) = none from hfind]
    rw [hmissing] at h
    cases h
  | some a =>
    have ha := Table.mem_of_find? hfind
    have hid : a.id = r.account := by simpa using Table.prop_of_find? hfind
    refine ⟨a, ha, hid, ?_⟩
    have happly := apply_unused (p := debitOf r) ha hid hunused
    have hdelta : (debitOf r).delta = -r.pricePerPeriod.micros := rfl
    by_cases hpoor : a.balance < r.pricePerPeriod.micros
    · exact .inl hpoor
    rw [if_neg (by omega)] at happly
    right
    by_cases hfits : ((debitOf r).entry a.balance).fits = true
    · rw [if_neg (not_not.2 hfits)] at happly
      obtain ⟨b, hb⟩ : ∃ b, s.books.post a ((debitOf r).entry a.balance) = some b :=
        post_isSome hunused
      rw [hb] at happly
      dsimp only at happly
      by_cases hversion : maxVersion < a.version + 1
      · rw [if_pos hversion] at happly
        rw [happly] at h
        cases h
      · rw [if_neg hversion] at happly
        rw [happly] at h
        dsimp only at h
        cases hsettle : s.settle c cycle r b v with
        | error err => rw [hsettle] at h; cases h
        | ok s₁ =>
          obtain ⟨hnext, haccrue⟩ := settle_ok hsettle
          refine ⟨hfits, by omega, hnext, ?_⟩
          intro b' e' hb'
          rw [happly] at hb'
          cases hb'
          exact haccrue
    · rw [if_pos hfits] at happly
      rw [happly] at h
      cases h

end Transaction

/-! ## One step -/

/-- A call that is about to renew has a cycle to renew. -/
def HasCycle (s : RenewalDb) (t : RenewalThread) : Prop :=
  ∀ id date, t.pc = .renewing id date → (s.cycleOf id date).isSome = true

section Step

variable {c : RenewalSettings} {s s' : RenewalDb} {t t' : RenewalThread}

theorem asked_next (t : RenewalThread) : asked t.next = t.results.map (·.1) ++ t.left := by
  unfold RenewalThread.next
  split
  · rename_i hleft
    rw [hleft]
    rfl
  · rename_i id left hleft
    rw [hleft]
    rfl

theorem asked_renewing (h : renewing? t.pc = some id) :
    asked t = t.results.map (·.1) ++ id :: t.left := by
  unfold asked
  rw [h]

theorem asked_answer (t : RenewalThread) (id : Uuid) (o : RenewalOutcome) :
    asked (t.answer id o) = t.results.map (·.1) ++ id :: t.left := by
  unfold RenewalThread.answer
  rw [asked_next, List.map_append, List.append_assoc]
  rfl

theorem next_goes (t : RenewalThread) (e : Exc) : t.next.pc ≠ .raised e := by
  unfold RenewalThread.next
  split
  · intro h
    cases h
  · intro h
    cases h

theorem cycleOf_isSome {d : Date} :
    (s.cycleOf id d).isSome = true ↔ ∃ c ∈ s.cycles, c.subscription = id ∧ c.billingDate = d := by
  constructor
  · intro h
    obtain ⟨cycle, hcycle⟩ := Option.isSome_iff_exists.1 h
    exact ⟨cycle, cycleOf_mem hcycle⟩
  · rintro ⟨cycle, hc, hsub, hdate⟩
    cases hfind : s.cycleOf id d with
    | some _ => rfl
    | none =>
      refine absurd ?_ (Table.not_of_find? hfind hc)
      rw [Bool.and_eq_true]
      exact ⟨decide_eq_true hsub, decide_eq_true hdate⟩

/-- No cycle goes, and none comes to be another's. -/
theorem cycleOf_move {d : Date} (hm : RenewalMove c s t s') (h : (s.cycleOf id d).isSome = true) :
    (s'.cycleOf id d).isSome = true := by
  obtain ⟨cycle, hc, hsub, hdate⟩ := cycleOf_isSome.1 h
  rw [cycleOf_isSome]
  cases hm with
  | stays => exact ⟨cycle, hc, hsub, hdate⟩
  | edits _ => exact ⟨cycle, hc, hsub, hdate⟩
  | posts _ => exact ⟨cycle, hc, hsub, hdate⟩
  | opens hi => exact ⟨cycle, (Table.mem_insert hi).2 (.inl hc), hsub, hdate⟩
  | pauses _ _ hu =>
    refine ⟨_, (Table.mem_update? hu).2 ⟨cycle, hc, rfl⟩, ?_, ?_⟩
    · rw [← hsub]
      unfold rewrite
      split <;> rfl
    · rw [← hdate]
      unfold rewrite
      split <;> rfl
  | @settles done _ _ _ _ _ _ _ _ _ _ _ _ _ hs =>
    obtain ⟨next, s₁, _, rfl, _, hcycles, _⟩ := settle_cases hs
    rw [hcycles]
    by_cases hid : cycle.id = done.id
    · exact ⟨finished cycle, mem_saveRenewed.2 (.inl ⟨cycle, hc, hid, rfl⟩), hsub, hdate⟩
    · exact ⟨cycle, mem_saveRenewed.2 (.inr ⟨hc, hid⟩), hsub, hdate⟩

theorem next_ne_renewing (t : RenewalThread) (id : Uuid) (date : Date) :
    t.next.pc ≠ .renewing id date := by
  unfold RenewalThread.next
  split
  · intro h
    cases h
  · intro h
    cases h

/-- What a step makes of its thread. -/
inductive RenewalTurn (s' : RenewalDb) (t : RenewalThread) : RenewalThread → Prop
  | goes {pc : RenewalPc} : pc ≠ .asked → (∀ id date, pc ≠ .renewing id date) →
      RenewalTurn s' t { t with pc }
  | nexts (u : RenewalThread) : RenewalTurn s' t u.next
  | renews {current : Subscription} :
      (s'.cycleOf current.id current.nextBillingDate).isSome = true →
      RenewalTurn s' t (t.renewing current)

theorem renewalStep_turn (h : renewalStep c s t x = some (s', t')) :
    RenewalTurn s' t t' := by
  unfold renewalStep at h
  split at h
  · split at h
    · cases h
      exact .goes (fun h => by cases h) fun _ _ h => by cases h
    · cases h
  · obtain h := Option.some.inj h
    unfold beginRenewal at h
    split at h
    · split at h <;> cases h <;> exact .goes (fun h => by cases h) fun _ _ h => by cases h
    · split at h
      · cases h
        exact .goes (fun h => by cases h) fun _ _ h => by cases h
      · cases h
        exact .nexts _
    · cases h
      exact .goes (fun h => by cases h) fun _ _ h => by cases h
    · split at h <;> cases h <;> exact .goes (fun h => by cases h) fun _ _ h => by cases h
  · obtain ⟨today, _, h⟩ := Option.map_eq_some_iff.1 h
    cases h
    unfold readSubscription
    split
    · exact .nexts _
    · exact .goes (fun h => by cases h) fun _ _ h => by cases h
  · cases h
    unfold lookForCycle
    split
    · rename_i hcycle
      exact .renews (by rw [hcycle]; rfl)
    · exact .goes (fun h => by cases h) fun _ _ h => by cases h
  · rename_i current id prices _
    obtain h := Option.some.inj h
    unfold openCycle at h
    split at h
    · cases h
      exact .goes (fun h => by cases h) fun _ _ h => by cases h
    · rename_i cycles hi
      cases h
      exact .renews (cycleOf_isSome.2
        ⟨pendingCycle id current prices, (Table.mem_insert hi).2 (.inr rfl), rfl, rfl⟩)
  · cases h
    unfold lookAgain
    split
    · rename_i hcycle
      exact .renews (by rw [hcycle]; rfl)
    · exact .goes (fun h => by cases h) fun _ _ h => by cases h
  · obtain h := Option.some.inj h
    unfold renewStep at h
    split at h
    · cases h
      exact .goes (fun h => by cases h) fun _ _ h => by cases h
    · cases h
      exact .nexts _
  · cases h

theorem RenewalTurn.hasCycle (h : RenewalTurn s' t t') : HasCycle s' t' := by
  cases h with
  | goes _ hne => exact fun id date hpc => absurd hpc (hne id date)
  | nexts u => exact fun id date hpc => absurd hpc (next_ne_renewing u id date)
  | renews hsome =>
    rintro id date hpc
    cases hpc
    exact hsome

/-- No step takes a call back to its beginning. -/
theorem RenewalTurn.not_asked (h : RenewalTurn s' t t') : t'.pc ≠ .asked := by
  cases h with
  | goes hne _ => exact hne
  | nexts u =>
    unfold RenewalThread.next
    split
    · intro h
      cases h
    · intro h
      cases h
  | renews _ =>
    intro h
    cases h

/-- A step at which nothing is billed, that raises nothing and loses nothing. -/
theorem renewsOn_of_ne (hgoes : ∀ e, t'.pc ≠ .raised e) (hasked : asked t' = asked t)
    (hpc : ∀ id date, t.pc ≠ .renewing id date) : RenewsOn s t s' t' :=
  ⟨hgoes, hasked, fun id date h => absurd h (hpc id date)⟩

theorem pick_id {today : Date} {current : Subscription}
    (h : s.pick id today = some current) : current.id = id := by
  unfold pick at h
  split at h
  · cases h
  rename_i q hq
  split at h
  · cases h
  split at h
  · cases h
  · cases h
    simpa using Table.prop_of_find? hq

/-- The last step of `renew_one`. -/
theorem renewStep_goes {v : AccrualView} (hL : HasCycle s t) (hpc : t.pc = .renewing id date)
    (h : renewStep c s t id date v = (s', t')) :
    RenewsOn s t s' t' ↔ ∀ r ∈ s.subscriptions, r.id = id → r.status = .active →
      r.nextBillingDate = date → CanBill c s r v := by
  obtain ⟨cycle, hcycle⟩ := Option.isSome_iff_exists.1 (hL id date hpc)
  have hasked := asked_renewing (congrArg renewing? hpc)
  unfold renewStep at h
  constructor
  · rintro hgo r hr rfl hactive rfl
    split at h
    · cases h
      exact absurd rfl (hgo.goes _)
    · rename_i s₁ o hrenew
      cases h
      exact canBill_of_renews hr hactive hrenew (hgo.bills _ _ hpc r hr rfl hactive rfl)
  · intro hcan
    by_cases hdue : ∃ r ∈ s.subscriptions, r.id = id ∧ r.status = .active ∧ r.nextBillingDate = date
    · obtain ⟨r, hr, rfl, hactive, rfl⟩ := hdue
      obtain ⟨s₁, o, hrenew, hdone⟩ :=
        renews_of_canBill hr hactive hcycle (hcan r hr rfl hactive rfl)
      rw [hrenew] at h
      cases h
      refine ⟨next_goes _, (asked_answer t r.id o).trans hasked.symm, ?_⟩
      intro id' date' hpc' q _ _ _ _
      rw [hpc] at hpc'
      cases hpc'
      exact hdone
    · obtain ⟨o, hidle⟩ := renew_idle (c := c) (v := v) hcycle
        (.inr fun r hr hid hboth => hdue ⟨r, hr, hid, hboth⟩)
      rw [hidle] at h
      cases h
      refine ⟨next_goes _, (asked_answer t id o).trans hasked.symm, ?_⟩
      intro id' date' hpc' q hq hid hactive hdate
      rw [hpc] at hpc'
      cases hpc'
      exact absurd ⟨q, hq, hid, hactive, hdate⟩ hdue

/-- **A step of `renew_one` goes on, and bills or pauses what it finds due, exactly if it can.** -/
theorem renewsOn_iff (hL : HasCycle s t) (hw : isWorking t.pc = true)
    (h : renewalStep c s t x = some (s', t')) : RenewsOn s t s' t' ↔ Renewable c s t x := by
  unfold renewalStep at h
  split at h
  · split at h
    · cases h
      exact ⟨fun hgo => hgo.goes _ rfl, fun hno => by unfold Renewable at hno; exact hno.elim⟩
    · cases h
  · rename_i hpc
    rw [hpc] at hw
    cases hw
  · rename_i id hpc
    have hne : ∀ id' date, t.pc ≠ .renewing id' date := fun _ _ h => by
      rw [hpc] at h
      cases h
    obtain ⟨today, _, h⟩ := Option.map_eq_some_iff.1 h
    cases h
    have hasked := asked_renewing (congrArg renewing? hpc)
    refine iff_of_true ?_ (by unfold Renewable; rw [hpc]; trivial)
    unfold readSubscription
    split
    · exact renewsOn_of_ne (next_goes _) ((asked_answer t id _).trans hasked.symm) hne
    · rename_i current hpick
      refine renewsOn_of_ne (fun e h => by cases h) ?_ hne
      rw [hasked, ← pick_id hpick]
      rfl
  · rename_i current hpc
    cases h
    have hasked := asked_renewing (congrArg renewing? hpc)
    refine iff_of_true ?_ (by unfold Renewable; rw [hpc]; trivial)
    have hne : ∀ id' date, t.pc ≠ .renewing id' date := fun _ _ h => by
      rw [hpc] at h
      cases h
    unfold lookForCycle
    split
    · exact renewsOn_of_ne (fun e h => by cases h) hasked.symm hne
    · exact renewsOn_of_ne (fun e h => by cases h) hasked.symm hne
  · rename_i current id prices hpc
    have hasked := asked_renewing (congrArg renewing? hpc)
    have hne : ∀ id' date, t.pc ≠ .renewing id' date := fun _ _ h => by
      rw [hpc] at h
      cases h
    refine iff_of_true ?_ (by unfold Renewable; rw [hpc]; trivial)
    obtain h := Option.some.inj h
    unfold openCycle at h
    split at h
    · cases h
      exact renewsOn_of_ne (fun e h => by cases h) hasked.symm hne
    · cases h
      exact renewsOn_of_ne (fun e h => by cases h) hasked.symm hne
  · rename_i current hpc
    cases h
    have hasked := asked_renewing (congrArg renewing? hpc)
    have hne : ∀ id' date, t.pc ≠ .renewing id' date := fun _ _ h => by
      rw [hpc] at h
      cases h
    unfold lookAgain Renewable
    rw [hpc]
    dsimp only
    cases hcycle : s.cycleOf current.id current.nextBillingDate with
    | none => exact ⟨fun hgo => absurd rfl (hgo.goes _), fun hsome => by cases hsome⟩
    | some cycle =>
      exact iff_of_true (renewsOn_of_ne (fun e h => by cases h) hasked.symm hne) rfl
  · rename_i id date v hpc
    have hiff := renewStep_goes hL hpc (Option.some.inj h)
    unfold Renewable
    rw [hpc]
    exact hiff
  · cases h

end Step

/-! ## Every run -/

theorem renewalProgress (c : RenewalSettings) (init : RenewalDb → Prop) :
    Invariant (renewalProgram c) init (fun _ _ _ => True) (fun _ => True) HasCycle
      (fun _ _ => True) where
  init := fun _ => trivial
  start := fun _ _ _ _ h => by cases h
  apart_start := fun _ _ => trivial
  symm := fun _ => trivial
  step := fun _ _ _ h => ⟨trivial, (renewalStep_turn h).hasCycle⟩
  frame := fun _ _ _ h hu _ =>
    ⟨fun id date hpc => cycleOf_move (t := _) (renewalStep_move h) (hu id date hpc), trivial⟩

section Runs

variable {c : RenewalSettings} {init : RenewalDb → Prop} {g g₁ g₂ : Config RenewalDb RenewalThread}

/-- The condition, at the steps of the renewals. -/
def Renews (c : RenewalSettings) (s : RenewalDb) (t : RenewalThread) (x : RenewalInput) : Prop :=
  isWorking t.pc = true → Renewable c s t x

/-- A call that renews, or that has renewed what it was asked to. -/
def GoesOn (ids : List Uuid) (t : RenewalThread) : Prop :=
  asked t = ids ∧ (isWorking t.pc = true ∨ t.pc = .returned)

/-- A call that goes on is still at work, or has returned. -/
theorem working_or_returned {s s' : RenewalDb} {t t' : RenewalThread}
    (h : renewalStep c s t x = some (s', t')) (hgo : ∀ e, t'.pc ≠ .raised e) :
    isWorking t'.pc = true ∨ t'.pc = .returned := by
  cases hpc : t'.pc with
  | asked => exact absurd hpc (renewalStep_turn h).not_asked
  | returned => exact .inr rfl
  | raised e => exact absurd hpc (hgo e)
  | _ => exact .inl rfl

theorem goesOn_step {s s' : RenewalDb} {t t' : RenewalThread} {ids : List Uuid}
    (hL : HasCycle s t) (hgo : GoesOn ids t) (hok : Renews c s t x)
    (h : renewalStep c s t x = some (s', t')) : GoesOn ids t' := by
  obtain ⟨hasked, hw | hret⟩ := hgo
  · have hgo := (renewsOn_iff hL hw h).2 (hok hw)
    exact ⟨hgo.asked.trans hasked, working_or_returned h hgo.goes⟩
  · unfold renewalStep at h
    rw [hret] at h
    split at h <;> simp_all [RenewalPc.isLive]

/-- **A call loses nothing it was asked for, in a run whose steps meet the condition.** -/
theorem goesOn_run {p : Nat} {ids : List Uuid} (hg : (renewalProgram c).Reach init g₁)
    (hl : (renewalProgram c).LeadsWhere (Renews c) g₁ g₂)
    (h : ∃ t, g₁.threads p = some t ∧ GoesOn ids t) :
    ∃ t, g₂.threads p = some t ∧ GoesOn ids t := by
  suffices (renewalProgram c).Reach init g₂ ∧ ∃ t, g₂.threads p = some t ∧ GoesOn ids t from this.2
  induction hl with
  | refl => exact ⟨hg, h⟩
  | @tail g g' a _ hok he ih =>
    obtain ⟨hreach, t, ht, hgo⟩ := ih
    refine ⟨hreach.exec he, ?_⟩
    cases a with
    | call q k =>
      obtain ⟨hq, _, hthreads⟩ := Program.exec_call he
      have hpq : p ≠ q := by
        rintro rfl
        rw [hq] at ht
        cases ht
      exact ⟨t, by rw [hthreads, Function.update_of_ne hpq, ht], hgo⟩
    | tick q x =>
      obtain ⟨u, u', hu, hs, hthreads⟩ := Program.exec_tick he
      by_cases hpq : p = q
      · subst hpq
        obtain rfl : t = u := Option.some.inj (ht.symm.trans hu)
        refine ⟨u', by rw [hthreads, Function.update_self], ?_⟩
        exact goesOn_step (((renewalProgress c init).reach hreach).thread p t ht) hgo
          (hok t ht) hs
      · exact ⟨t, by rw [hthreads, Function.update_of_ne hpq, ht], hgo⟩

/-- What `renew_due` begins with, `goesOn_run` keeps. -/
theorem goesOn_begin {p : Nat} {today : Date} (hopen : c.requireEnabled = .ok ())
    (hp : g.threads p = some ((renewalProgram c).start (.renewDue today)))
    (he : (renewalProgram c).exec g (.tick p .go) = some g₁) :
    ∃ t, g₁.threads p = some t ∧ GoesOn (g.store.dueIds today) t := by
  obtain ⟨t, t', ht, hs, hthreads⟩ := Program.exec_tick he
  obtain rfl : _ = t := Option.some.inj (hp.symm.trans ht)
  have hbegin :
      t' = (RenewalThread.mk (.renewDue today) [] (g.store.dueIds today) .asked).next := by
    have hs : some (beginRenewal c g.store ⟨.renewDue today, [], [], .asked⟩)
        = some (g₁.store, t') := hs
    obtain hs := Option.some.inj hs
    unfold beginRenewal at hs
    dsimp only at hs
    rw [hopen] at hs
    exact ((Prod.mk.inj hs).2).symm
  refine ⟨t', by rw [hthreads, Function.update_self], ?_⟩
  subst hbegin
  refine ⟨asked_next _, ?_⟩
  unfold RenewalThread.next
  split
  · exact .inr rfl
  · exact .inl rfl

/--
**A batch of renewals goes on exactly as far as each renewal can.** In any state, a
step of `renew_one` raises nothing, loses nothing and bills or pauses what it finds
due if and only if the condition is met. In a run whose steps all meet it,
`renew_due` has answered for every subscription that was due when it has returned.
-/
theorem renewals_go_on (hg : (renewalProgram c).Reach init g) :
    (∀ p t x s' t', g.threads p = some t → isWorking t.pc = true →
        renewalStep c g.store t x = some (s', t') →
        (RenewsOn g.store t s' t' ↔ Renewable c g.store t x))
      ∧ ∀ p today, c.requireEnabled = .ok () →
        g.threads p = some ((renewalProgram c).start (.renewDue today)) →
        (renewalProgram c).exec g (.tick p .go) = some g₁ →
        (renewalProgram c).LeadsWhere (Renews c) g₁ g₂ →
        ∃ t, g₂.threads p = some t ∧ (∀ e, t.pc ≠ .raised e)
          ∧ (t.pc = .returned → t.results.map (·.1) = g.store.dueIds today) := by
  refine ⟨?_, ?_⟩
  · intro p t x s' t' ht hw h
    exact renewsOn_iff (((renewalProgress c init).reach hg).thread p t ht) hw h
  · intro p today hopen hp he hl
    obtain ⟨t, ht, hasked, hends⟩ := goesOn_run (hg.exec he) hl (goesOn_begin hopen hp he)
    refine ⟨t, ht, ?_, ?_⟩
    · intro e hraised
      rw [hraised] at hends
      rcases hends with h | h
      · cases h
      · cases h
    · intro hret
      unfold asked at hasked
      rw [hret] at hasked
      exact (List.append_nil _).symm.trans hasked

end Runs

/-! ## A batch of two -/

/-- A check of the condition of a debit. -/
def canBill? (c : RenewalSettings) (s : RenewalDb) (r : Subscription) (v : AccrualView) : Bool :=
  (s.cycleOf r.id r.nextBillingDate).all fun cycle =>
    cycle.status ≠ .renewed
      && s.books.entries.rows.all (·.idempotencyKey ≠ renewalKey r.id r.nextBillingDate)
      && s.books.accounts.rows.any fun a => a.id = r.account
        && (a.balance < r.pricePerPeriod.micros
          || ((debitOf r).entry a.balance).fits && a.version + 1 ≤ maxVersion
            && (cycle.billingDate.addDays? subscriptionPeriodDays).isSome
            && (s.books.apply (debitOf r)).toOption.all fun w =>
              ((MarginBooks.mk w.1 s.accruals).accrue c.partnerChannelEnabled .subscription
                (renewalSourceId r.id cycle.billingDate) (some cycle.renewalListPrice)
                cycle.renewalNetPrice v.customer v.attribution v.accrualId).isOk)

theorem canBill_of_check {c : RenewalSettings} {s : RenewalDb} {r : Subscription} {v : AccrualView}
    (h : canBill? c s r v = true) : CanBill c s r v := by
  intro cycle hcycle
  unfold canBill? at h
  rw [hcycle, Option.all_some] at h
  simp only [Bool.and_eq_true, Bool.or_eq_true, List.all_eq_true, List.any_eq_true,
    decide_eq_true_eq] at h
  obtain ⟨⟨hopen, hunused⟩, a, ha, hid, hfunds⟩ := h
  refine ⟨hopen, hunused, a, ha, hid, hfunds.imp_right ?_⟩
  rintro ⟨⟨⟨hfits, hversion⟩, hnext⟩, haccrues⟩
  refine ⟨hfits, hversion, hnext, fun b e happly => ?_⟩
  rw [happly] at haccrues
  cases haccrue : (MarginBooks.mk b s.accruals).accrue c.partnerChannelEnabled .subscription
      (renewalSourceId r.id cycle.billingDate) (some cycle.renewalListPrice)
      cycle.renewalNetPrice v.customer v.attribution v.accrualId with
  | ok m => exact ⟨m, rfl⟩
  | error e =>
    have hok : Except.isOk _ = true := haccrues
    rw [haccrue] at hok
    cases hok

/-- A check of the condition of a step. -/
def renews? (c : RenewalSettings) (s : RenewalDb) (t : RenewalThread) (x : RenewalInput) : Bool :=
  match t.pc, x with
  | _, .fail => false
  | .raced _, _ => false
  | .renewing _ _, .accrues v => s.subscriptions.rows.all fun r => canBill? c s r v
  | _, _ => true

theorem renews_of_check {c : RenewalSettings} {s : RenewalDb} {t : RenewalThread}
    (h : renews? c s t x = true) : Renews c s t x := by
  intro _
  unfold renews? at h
  unfold Renewable
  split
  · cases h
  · rename_i hpc
    rw [hpc] at h
    cases h
  · rename_i hpc
    rw [hpc] at h
    intro r hr _ _ _
    exact canBill_of_check (List.all_eq_true.1 h r hr)
  · trivial

/-- Another subscription of the same price, that comes later. -/
def later : Subscription :=
  { monthly with id := ⟨"00000000-0000-4000-8000-0000000000dd", by decide⟩ }

/-- Two subscriptions of one account. -/
def twoSubscriptions : RenewalDb :=
  { oneSubscription with subscriptions := ⟨[monthly, later], by decide⟩ }

/-- What one period costs, credited. -/
def onePeriod : BalancePosting :=
  { twoPeriods with posting := { twoPeriods.posting with amount := fiveDollars } }

/-- It has returned: the first subscription is renewed, and the second out of funds. -/
def hasBilled (g : Config RenewalDb RenewalThread) : Bool :=
  match g.threads 1 with
  | some ⟨_, results, _, .returned⟩ => results = [(monthly.id, .renewed), (later.id, .paused)]
  | _ => false

/-- One period is credited, then what is due is renewed. -/
theorem renewals_go_on_billed :
    ∃ g₁ g₂ : Config RenewalDb RenewalThread, g₁.store.dueIds august = [monthly.id, later.id]
      ∧ hasBilled g₂ = true
      ∧ ∃ t, g₂.threads 1 = some t ∧ (∀ e, t.pc ≠ .raised e)
        ∧ (t.pc = .returned → t.results.map (·.1) = g₁.store.dueIds august) := by
  have hrun : ((renewalProgram renewalSettings).run (Config.idle twoSubscriptions)
      [.call 0 (.post onePeriod), .tick 0 .go]).any (fun g =>
        ((renewalProgram renewalSettings).exec g (.call 1 (.renewDue august))).any fun g₀ =>
          decide (g₀.store.dueIds august = [monthly.id, later.id])
            && ((renewalProgram renewalSettings).exec g₀ (.tick 1 .go)).any fun g₁ =>
              ((renewalProgram renewalSettings).runChecked (renews? renewalSettings) g₁
                [.tick 1 .go, .tick 1 .go, .tick 1 (.opens alice noShare),
                  .tick 1 (.accrues noView),
                  .tick 1 .go, .tick 1 .go, .tick 1 (.opens bob noShare),
                    .tick 1 (.accrues noView)]).any
                hasBilled) = true := by decide +kernel
  obtain ⟨g, hposted, hrest⟩ := (Option.any_eq_true _ _).1 hrun
  obtain ⟨g₀, hcall, hrest⟩ := (Option.any_eq_true _ _).1 hrest
  obtain ⟨hdue, hrest⟩ := Bool.and_eq_true_iff.1 hrest
  obtain ⟨g₁, hbegin, hrest⟩ := (Option.any_eq_true _ _).1 hrest
  obtain ⟨g₂, hrest, hbilled⟩ := (Option.any_eq_true _ _).1 hrest
  have hreach : (renewalProgram renewalSettings).Reach (· = twoSubscriptions) g :=
    .run (.idle rfl) hposted
  obtain ⟨_, _, hthreads⟩ := Program.exec_call hcall
  have hleads : (renewalProgram renewalSettings).LeadsWhere (Renews renewalSettings) g₁ g₂ :=
    .runChecked (fun _ _ _ => renews_of_check) .refl hrest
  exact ⟨g₀, g₂, of_decide_eq_true hdue, hbilled,
    (renewals_go_on (hreach.exec hcall)).2 1 august rfl
    (by rw [hthreads, Function.update_self]) hbegin hleads⟩

/-! ## Dates that were edited -/

/-- The first is due, and was debited once. -/
def isDueAgain (s : RenewalDb) : Bool :=
  monthly ∈ s.subscriptions.rows && debits s monthly.id = 1

/-- A batch of the first subscription, for which it was answered that it is renewed. -/
def answersRenewed (g : Config RenewalDb RenewalThread) (p : Nat) : Bool :=
  match g.threads p with
  | some ⟨.renewDue _, results, _, .returned⟩ => results = [(monthly.id, .renewed)]
  | _ => false

/-- A batch that a constraint ended, after nothing was answered for. -/
def isAborted (g : Config RenewalDb RenewalThread) (p : Nat) : Bool :=
  match g.threads p with
  | some ⟨.renewDue _, results, left, .raised .integrity⟩ => results = [] && left = [later.id]
  | _ => false

/-- A month before. -/
def july : Date := ⟨20647, by decide, by decide⟩

/-- A batch of subscriptions one of which is answered for without a debit. -/
def batchRenewed (p : Nat) : List (Act RenewalCall RenewalInput) :=
  [.call p (.renewDue august), .tick p .go, .tick p .go, .tick p .go, .tick p (.accrues noView)]

/-- A batch that opens a cycle and meets an unfinished one. -/
def batchAborted (p : Nat) : List (Act RenewalCall RenewalInput) :=
  [.call p (.renewDue august), .tick p .go, .tick p .go, .tick p .go, .tick p (.opens bob noShare),
    .tick p .go]

/--
Both ways a subscription that is due is neither billed nor paused: moved back to a
date that is renewed, it is answered for as renewed on every run; activated on
another date than the one it was paused on, it ends every batch before the next
subscription is reached.
-/
theorem renewal_stuck :
    (∃ g, (renewalProgram renewalSettings).Reach FreshRenewals g
      ∧ answersRenewed g 3 = true ∧ answersRenewed g 4 = true ∧ isDueAgain g.store = true)
    ∧ ∃ g, (renewalProgram renewalSettings).Reach FreshRenewals g
      ∧ isAborted g 2 = true ∧ isAborted g 3 = true ∧ later ∈ g.store.subscriptions := by
  refine ⟨?_, ?_⟩
  · obtain ⟨g, hr, hg⟩ := Program.run_check (renewalProgram renewalSettings) oneSubscription
      ([.call 0 (.post twoPeriods), .tick 0 .go, .call 1 (.renewDue august)] ++ renewedBy 1
        ++ [.call 2 (.edit monthly), .tick 2 .go] ++ batchRenewed 3 ++ batchRenewed 4)
      (fun g => answersRenewed g 3 && answersRenewed g 4 && isDueAgain g.store) (by decide +kernel)
    rw [Bool.and_eq_true, Bool.and_eq_true] at hg
    exact ⟨g, Program.reach_run fresh_oneSubscription hr, hg.1.1, hg.1.2, hg.2⟩
  · obtain ⟨g, hr, hg⟩ := Program.run_check (renewalProgram renewalSettings) twoSubscriptions
      ([.call 0 (.renewOne monthly.id august)] ++ renewedBy 0
        ++ [.call 1 (.edit { monthly with nextBillingDate := july }), .tick 1 .go]
        ++ batchAborted 2 ++ batchAborted 3)
      (fun g => isAborted g 2 && isAborted g 3 && later ∈ g.store.subscriptions.rows) (by decide)
    rw [Bool.and_eq_true, Bool.and_eq_true, decide_eq_true_eq] at hg
    exact ⟨g, Program.reach_run ⟨fresh_twoAccounts, rfl⟩ hr, hg.1.1, hg.1.2, hg.2⟩

end Roamkit.Billing.Proof
