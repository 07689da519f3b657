import Roamkit.Billing.Subscription
import Roamkit.Proof.SpendOps

/-!
# A period is debited once

The date of a subscription moves on in the transaction that debits it, so that a
date it stands at has no renewed cycle, and the key of that date has no entry. The
debits of a subscription are then as many as its renewed cycles, and its date is as
many periods past the one it began with.
-/

namespace Roamkit.Billing.Proof

open Lib Billing RenewalDb Spend.Proof

/-! ## Keys -/

variable {id : Uuid} {cycle : SubscriptionRenewalCycle} {e : CreditLedgerEntry}

theorem renewalKey_inj {id' : Uuid} {d d' : Date} (h : renewalKey id d = renewalKey id' d') :
    id = id' ∧ d = d' := by
  have hlist :=
    (toList_colon _ _ _).symm.trans ((congrArg String.toList h).trans (toList_colon _ _ _))
  obtain ⟨hfront, hdate⟩ :=
    append_cons_inj d.not_colon_isoformat d'.not_colon_isoformat hlist
  have hid := List.append_cancel_left hfront
  exact ⟨Uuid.ext (String.toList_injective hid), Date.isoformat_inj (String.toList_injective hdate)⟩

theorem renewalKey_kind (id : Uuid) (d : Date) :
    renewalKey id d = "subscription-renew:" ++ (id.str ++ ":" ++ d.isoformat) := append_kind _ _ _ _

theorem marginKey_kind (type : SourceType) (source : String) :
    marginKey type source = "partner-margin:" ++ (type.value ++ ":" ++ source) :=
      append_kind _ _ _ _

/-- A margin is under no renewal's key. -/
theorem marginKey_ne_renewalKey (type : SourceType) (source : String) (id : Uuid) (d : Date) :
    marginKey type source ≠ renewalKey id d := by
  intro h
  exact ne_of_parts (by decide) _ _
    ((marginKey_kind type source).symm.trans (h.trans (renewalKey_kind id d)))

/-! ## What a step does -/

/-- Everything a step can do to the rows. -/
inductive RenewalMove (c : RenewalSettings) (s : RenewalDb) (t : RenewalThread) : RenewalDb → Prop
  | stays : RenewalMove c s t s
  | edits {row : Subscription} : t.call = .edit row → RenewalMove c s t (s.edit row)
  | posts {p : BalancePosting} {b : Books} {e : CreditLedgerEntry} :
      s.books.apply p.posting = .ok (b, e) → RenewalMove c s t { s with books := b }
  | opens {current : Subscription} {id : Uuid} {prices : PackagePrices}
      {cycles : Table SubscriptionRenewalCycle} :
      s.cycles.insert? (pendingCycle id current prices) = some cycles →
      RenewalMove c s t { s with cycles }
  | pauses {cycle : SubscriptionRenewalCycle} {locked : Subscription}
      {cycles : Table SubscriptionRenewalCycle} :
      cycle ∈ s.cycles → cycle.status ≠ .renewed →
      s.cycles.update? (·.id = cycle.id) (fun c => { c with status := .paused }) = some cycles →
      RenewalMove c s t ({ s with cycles }.saveStatus locked.id .paused)
  | settles {cycle : SubscriptionRenewalCycle} {locked : Subscription} {p : Posting} {b : Books}
      {e : CreditLedgerEntry} {v : AccrualView} {s' : RenewalDb} :
      cycle ∈ s.cycles → cycle.status ≠ .renewed → cycle.subscription = locked.id →
      locked ∈ s.subscriptions → locked.nextBillingDate = cycle.billingDate →
      preparePosting locked.account
        (.decimal (.finite (Dec.ofUnits 6 locked.pricePerPeriod.micros))) (.member .subscription)
        locked.id.str (renewalKey locked.id cycle.billingDate) false = .ok p →
      s.books.apply p = .ok (b, e) → s.settle c cycle locked b v = .ok s' →
      RenewalMove c s t s'

section Moves

variable {c : RenewalSettings} {s s' : RenewalDb} {t t' : RenewalThread}

theorem cycleOf_mem {d : Date} (h : s.cycleOf id d = some cycle) :
    cycle ∈ s.cycles ∧ cycle.subscription = id ∧ cycle.billingDate = d := by
  have hprop := Table.prop_of_find? h
  simp only [Bool.and_eq_true, decide_eq_true_eq] at hprop
  exact ⟨Table.mem_of_find? h, hprop⟩

/-- What the money transaction does. -/
theorem renew_move {d : Date} {v : AccrualView} {o : RenewalOutcome}
    (h : s.renew c id d v = .ok (s', o)) : RenewalMove c s t s' := by
  unfold renew at h
  split at h
  · cases h
  rename_i cycle hcycle
  obtain ⟨hcmem, hcsub, hcdate⟩ := cycleOf_mem hcycle
  split at h
  · cases h
    exact .stays
  · rename_i locked hlocked
    have hlmem := Table.mem_of_find? hlocked
    have hlid : locked.id = id := by simpa using Table.prop_of_find? hlocked
    split at h
    · cases h
      exact .stays
    · rename_i hopen
      split at h
      · cases h
        exact .stays
      · split at h
        · cases h
          exact .stays
        · rename_i hdate
          obtain ⟨p, hp, h⟩ := bind_ok h
          split at h
          · obtain ⟨s₁, hpause, h⟩ := bind_ok h
            cases h
            unfold pause at hpause
            split at hpause
            · cases hpause
            rename_i cycles hu
            cases hpause
            exact .pauses hcmem hopen hu
          · cases h
          · rename_i books e happly
            obtain ⟨s₁, hsettle, h⟩ := bind_ok h
            cases h
            have hdate : locked.nextBillingDate = cycle.billingDate :=
              (not_not.1 hdate).trans hcdate.symm
            exact .settles hcmem hopen (hcsub.trans hlid.symm) hlmem hdate (hcdate ▸ hp) happly
              hsettle

/-- **Every step of a call is one of the moves.** -/
theorem renewalStep_move {x : RenewalInput} (h : renewalStep c s t x = some (s', t')) :
    RenewalMove c s t s' := by
  unfold renewalStep at h
  split at h
  · split at h
    · cases h
      exact .stays
    · cases h
  · obtain h := Option.some.inj h
    unfold beginRenewal at h
    split at h
    · split at h <;> cases h <;> exact .stays
    · split at h <;> cases h <;> exact .stays
    · rename_i row hcall
      cases h
      exact .edits hcall
    · split at h
      · cases h
        exact .stays
      · rename_i books e happly
        cases h
        exact .posts happly
  · obtain ⟨_, _, h⟩ := Option.map_eq_some_iff.1 h
    cases h
    exact .stays
  · cases h
    exact .stays
  · obtain h := Option.some.inj h
    unfold openCycle at h
    split at h
    · cases h
      exact .stays
    · rename_i cycles hi
      cases h
      exact .opens hi
  · cases h
    exact .stays
  · obtain h := Option.some.inj h
    unfold renewStep at h
    split at h
    · cases h
      exact .stays
    · rename_i s₁ o hrenew
      cases h
      exact renew_move hrenew
  · cases h

end Moves

/-! ## Debits and renewed cycles -/

/-- An entry that is a debit of a subscription. -/
def isDebitOf (id : Uuid) (e : CreditLedgerEntry) : Bool :=
  e.referenceType = .subscription && e.referenceId = id.str

/-- A cycle of a subscription that is renewed. -/
def isRenewalOf (id : Uuid) (c : SubscriptionRenewalCycle) : Bool :=
  c.subscription = id && c.status = .renewed

/-- The number of debits of a subscription. -/
def debits (s : RenewalDb) (id : Uuid) : Nat := s.books.entries.rows.countP (isDebitOf id)

/-- The number of its renewed cycles. -/
def renewals (s : RenewalDb) (id : Uuid) : Nat := s.cycles.rows.countP (isRenewalOf id)

structure RenewalInv (s₀ s : RenewalDb) : Prop where
  books : BooksInv s.books
  counts : ∀ id, debits s id = renewals s id
  /-- The date is as many periods past the first one as there are renewed cycles. -/
  date : ∀ r ∈ s.subscriptions, ∃ r₀ ∈ s₀.subscriptions, r₀.id = r.id ∧
    r.nextBillingDate.days = r₀.nextBillingDate.days + subscriptionPeriodDays * renewals s r.id
  /-- The date of a renewed cycle is past. -/
  past : ∀ r ∈ s.subscriptions, ∀ c ∈ s.cycles, c.subscription = r.id → c.status = .renewed →
    c.billingDate.days < r.nextBillingDate.days
  origin : ∀ e ∈ s.books.entries, e.referenceType = .subscription ∨
      (∃ id d, e.idempotencyKey = renewalKey id d) →
    ∃ c ∈ s.cycles, c.status = .renewed ∧ e.idempotencyKey = renewalKey c.subscription c.billingDate
      ∧ e.referenceId = c.subscription.str

section Preserved

variable {c : RenewalSettings} {s₀ s s' : RenewalDb} {t t' : RenewalThread}

/-- Rows that are as they were, where the invariant looks. -/
theorem RenewalInv.of_same (h : RenewalInv s₀ s) (hbooks : s'.books = s.books)
    (hcycles : ∀ id, renewals s' id = renewals s id)
    (hrenewed : ∀ c ∈ s'.cycles, c.status = .renewed → c ∈ s.cycles)
    (hkept : ∀ c ∈ s.cycles, c.status = .renewed → c ∈ s'.cycles)
    (hdate : ∀ r' ∈ s'.subscriptions, ∃ r ∈ s.subscriptions, r.id = r'.id
      ∧ r.nextBillingDate = r'.nextBillingDate) : RenewalInv s₀ s' := by
  refine ⟨hbooks ▸ h.books, ?_, ?_, ?_, ?_⟩
  · intro id
    rw [hcycles, ← h.counts, debits, hbooks, debits]
  · intro r' hr'
    obtain ⟨r, hr, hid, hsame⟩ := hdate r' hr'
    obtain ⟨r₀, hr₀, hid₀, hdays⟩ := h.date r hr
    refine ⟨r₀, hr₀, hid₀.trans hid, ?_⟩
    rw [hcycles, ← hsame, ← hid]
    exact hdays
  · intro r' hr' cycle hc hsub hstatus
    obtain ⟨r, hr, hid, hsame⟩ := hdate r' hr'
    rw [← hsame]
    exact h.past r hr cycle (hrenewed cycle hc hstatus) (hsub.trans hid.symm) hstatus
  · intro e he hof
    rw [hbooks] at he
    obtain ⟨cycle, hc, hstatus, hrest⟩ := h.origin e he hof
    exact ⟨cycle, hkept cycle hc hstatus, hstatus, hrest⟩

/-- A posting that is no renewal's. -/
theorem RenewalInv.foreign {p : Posting} {b : Books} (h : RenewalInv s₀ s)
    (ha : s.books.apply p = .ok (b, e)) (htype : p.referenceType ≠ .subscription)
    (hkey : ∀ id d, p.idempotencyKey ≠ renewalKey id d) : RenewalInv s₀ { s with books := b } := by
  rcases apply_rows ha with ⟨rfl, _, _⟩ | ⟨hrows, hetype, _, hekey, _⟩
  · exact h
  · refine ⟨h.books.apply ha, ?_, h.date, h.past, ?_⟩
    · intro id
      have hno : isDebitOf id e = false := by
        unfold isDebitOf
        rw [hetype, decide_eq_false htype, Bool.false_and]
      rw [debits, hrows, List.countP_append, List.countP_singleton, if_neg (by simp [hno])]
      exact h.counts id
    · intro f hf hof
      rw [Table.mem_def, hrows, List.mem_append, List.mem_singleton] at hf
      rcases hf with hf | rfl
      · exact h.origin f hf hof
      · rcases hof with hof | ⟨id, d, hof⟩
        · exact absurd (hetype.symm.trans hof) htype
        · exact absurd (hekey.symm.trans hof) (hkey id d)

theorem RenewalInv.edit {row : Subscription} (h : RenewalInv s₀ s)
    (hsame : ∀ q ∈ s.subscriptions, q.id = row.id → row.nextBillingDate = q.nextBillingDate) :
    RenewalInv s₀ (s.edit row) := by
  refine h.of_same rfl (fun _ => rfl) (fun _ hc _ => hc) (fun _ hc _ => hc) ?_
  intro r' hr'
  obtain ⟨r, hr, rfl⟩ := List.mem_map.1 hr'
  by_cases hid : r.id = row.id
  · rw [rewrite_pos _ (by simpa using hid)]
    exact ⟨r, hr, rfl, (hsame r hr hid).symm⟩
  · rw [rewrite_neg _ (by simpa using hid)]
    exact ⟨r, hr, rfl, rfl⟩

theorem RenewalInv.open {current : Subscription} {prices : PackagePrices}
    {cycles : Table SubscriptionRenewalCycle} (h : RenewalInv s₀ s)
    (hi : s.cycles.insert? (pendingCycle id current prices) = some cycles) :
    RenewalInv s₀ { s with cycles } := by
  refine h.of_same rfl ?_ ?_ (fun c hc _ => (Table.mem_insert hi).2 (.inl hc))
    (fun r hr => ⟨r, hr, rfl, rfl⟩)
  · intro id'
    have hno : isRenewalOf id' (pendingCycle id current prices) = false := by
      unfold isRenewalOf
      rw [Bool.and_eq_false_iff]
      exact .inr rfl
    rw [renewals, Table.rows_insert hi, List.countP_append, List.countP_singleton,
      if_neg (by simp [hno])]
    rfl
  · intro cycle hc hstatus
    rcases (Table.mem_insert hi).1 hc with hc | rfl
    · exact hc
    · cases hstatus

theorem RenewalInv.pause {cycles : Table SubscriptionRenewalCycle} (h : RenewalInv s₀ s)
    (hcycle : cycle ∈ s.cycles) (hopen : cycle.status ≠ .renewed)
    (hu : s.cycles.update? (·.id = cycle.id) (fun c => { c with status := .paused })
      = some cycles) :
    RenewalInv s₀ ({ s with cycles }.saveStatus id .paused) := by
  have hrows := Table.rows_update? hu
  -- the row that is written was not renewed, and is not
  have hone : ∀ c ∈ s.cycles, c.id = cycle.id → c.status ≠ .renewed := by
    intro c hc hid
    rwa [Table.eq_of_clash hc hcycle (.inl hid)]
  refine h.of_same rfl ?_ ?_ ?_ ?_
  · intro id'
    refine (congrArg (List.countP (isRenewalOf id')) hrows).trans (Table.countP_rewrite_same ?_)
    intro c hc
    by_cases hid : c.id = cycle.id
    · have hne := hone c hc hid
      rw [rewrite_pos _ (by simpa using hid)]
      simp [isRenewalOf, hne]
    · rw [rewrite_neg _ (by simpa using hid)]
  · intro c' hc' hstatus
    obtain ⟨c, hc, hcc⟩ := (Table.mem_update? hu).1 hc'
    by_cases hid : c.id = cycle.id
    · rw [rewrite_pos _ (by simpa using hid)] at hcc
      subst hcc
      cases hstatus
    · rw [rewrite_neg _ (by simpa using hid)] at hcc
      exact hcc ▸ hc
  · intro c hc hstatus
    refine (Table.mem_update? hu).2 ⟨c, hc, rewrite_neg _ ?_⟩
    intro hid
    exact hone c hc (by simpa using hid) hstatus
  · intro r' hr'
    obtain ⟨r, hr, rfl⟩ := List.mem_map.1 hr'
    refine ⟨r, hr, ?_, ?_⟩ <;>
      · unfold Lib.rewrite
        split <;> rfl

/-- The key of a date a subscription stands at is unused. -/
theorem RenewalInv.unused {r : Subscription} (h : RenewalInv s₀ s) (hr : r ∈ s.subscriptions)
    (he : e ∈ s.books.entries) :
    e.idempotencyKey ≠ renewalKey r.id r.nextBillingDate := by
  intro hkey
  obtain ⟨cycle, hc, hstatus, hckey, _⟩ := h.origin e he (.inr ⟨_, _, hkey⟩)
  obtain ⟨hsub, hdate⟩ := renewalKey_inj (hckey.symm.trans hkey)
  have hpast := h.past r hr cycle hc hsub hstatus
  rw [hdate] at hpast
  exact Int.lt_irrefl _ hpast

/-- The rows of the cycles after one is finished. -/
theorem mem_saveRenewed {c' : SubscriptionRenewalCycle} :
    c' ∈ (s.saveRenewed id).cycles
      ↔ (∃ c ∈ s.cycles, c.id = id ∧ c' = finished c) ∨ (c' ∈ s.cycles ∧ c'.id ≠ id) := by
  have hmem := @Table.mem_update _ _ s.cycles (·.id = id) finished finished_keeps c'
  refine hmem.trans ⟨?_, ?_⟩
  · rintro ⟨c, hc, rfl⟩
    by_cases hid : c.id = id
    · rw [rewrite_pos _ (by simpa using hid)]
      exact .inl ⟨c, hc, hid, rfl⟩
    · rw [rewrite_neg _ (by simpa using hid)]
      exact .inr ⟨hc, hid⟩
  · rintro (⟨c, hc, hid, rfl⟩ | ⟨hc, hid⟩)
    · exact ⟨c, hc, rewrite_pos _ (by simpa using hid)⟩
    · exact ⟨c', hc, rewrite_neg _ (by simpa using hid)⟩

/-- One more renewed cycle of a subscription, and of no other. -/
theorem renewals_saveRenewed (hc : cycle ∈ s.cycles) (hopen : cycle.status ≠ .renewed) (id : Uuid) :
    renewals (s.saveRenewed cycle.id) id
      = renewals s id + if id = cycle.subscription then 1 else 0 := by
  by_cases hid : id = cycle.subscription
  · rw [if_pos hid]
    refine Table.countP_rewrite (r := cycle) hc (by simp) ?_ ?_ ?_
    · intro x hx
      exact .inl (by simpa using hx)
    · simp [isRenewalOf, hopen]
    · simp [isRenewalOf, finished, hid]
  · rw [if_neg hid, Nat.add_zero]
    refine Table.countP_rewrite_same ?_
    intro c hcmem
    by_cases hcid : c.id = cycle.id
    · obtain rfl := Table.eq_of_clash hcmem hc (.inl hcid)
      rw [rewrite_pos _ (by simp)]
      simp [isRenewalOf, finished, Ne.symm hid]
    · rw [rewrite_neg _ (by simpa using hcid)]

/-- **The debit of a date moves the date on.** -/
theorem RenewalInv.debit {locked : Subscription} {p : Posting} {b : Books} {next : Date}
    (h : RenewalInv s₀ s) (hc : cycle ∈ s.cycles) (hopen : cycle.status ≠ .renewed)
    (hsub : cycle.subscription = locked.id) (hl : locked ∈ s.subscriptions)
    (hdate : locked.nextBillingDate = cycle.billingDate)
    (hp : preparePosting locked.account
      (.decimal (.finite (Dec.ofUnits 6 locked.pricePerPeriod.micros))) (.member .subscription)
      locked.id.str (renewalKey locked.id cycle.billingDate) false = .ok p)
    (ha : s.books.apply p = .ok (b, e))
    (hnext : cycle.billingDate.addDays? subscriptionPeriodDays = some next) :
    RenewalInv s₀ (({ s with books := b }.saveDate locked.id next).saveRenewed cycle.id) := by
  obtain ⟨_, _, _, htype, href, hkey⟩ := preparePosting_eq hp
  have hdays := Date.days_addDays hnext
  rcases apply_rows ha with ⟨rfl, he, hused⟩ | ⟨hrows, hetype, heref, hekey, _⟩
  · -- the key is unused, so the debit is a new entry
    exact absurd (hused.trans (hkey.trans (by rw [hdate]))) (h.unused hl he)
  have hcount : ∀ id, debits { s with books := b } id
      = debits s id + if id = cycle.subscription then 1 else 0 := by
    intro id
    rw [debits, hrows, List.countP_append, List.countP_singleton]
    refine congrArg (debits s id + ·) ?_
    have hof : isDebitOf id e = true ↔ id = cycle.subscription := by
      unfold isDebitOf
      rw [hetype, htype, heref, href, hsub]
      simp only [decide_true, Bool.true_and, decide_eq_true_eq]
      exact ⟨fun hstr => Uuid.ext hstr.symm, fun hid => by rw [hid]⟩
    by_cases hid : id = cycle.subscription
    · rw [if_pos hid, if_pos (hof.2 hid)]
    · rw [if_neg hid, if_neg (fun hd => hid (hof.1 hd))]
  have hrenewals := renewals_saveRenewed hc hopen
  -- the subscriptions are as they were but for the date of the locked one
  have hsubs : ∀ r' ∈ (s.saveDate locked.id next).subscriptions,
      ∃ r ∈ s.subscriptions, r.id = r'.id ∧ ((r.id = locked.id ∧ r'.nextBillingDate = next)
        ∨ (r.id ≠ locked.id ∧ r'.nextBillingDate = r.nextBillingDate)) := by
    intro r' hr'
    obtain ⟨r, hr, rfl⟩ := List.mem_map.1 hr'
    by_cases hid : r.id = locked.id
    · rw [rewrite_pos _ (by simpa using hid)]
      exact ⟨r, hr, rfl, .inl ⟨hid, rfl⟩⟩
    · rw [rewrite_neg _ (by simpa using hid)]
      exact ⟨r, hr, rfl, .inr ⟨hid, rfl⟩⟩
  refine ⟨h.books.apply ha, ?_, ?_, ?_, ?_⟩
  · intro id
    exact (hcount id).trans ((congrArg (· + _) (h.counts id)).trans (hrenewals id).symm)
  · intro r' hr'
    obtain ⟨r, hr, hid, hcases⟩ := hsubs r' hr'
    obtain ⟨r₀, hr₀, hid₀, hstand⟩ := h.date r hr
    refine ⟨r₀, hr₀, hid₀.trans hid, ?_⟩
    have hnew := hrenewals r'.id
    rw [← hid] at hnew ⊢
    refine Eq.trans ?_
      (congrArg (fun n : Nat => r₀.nextBillingDate.days + subscriptionPeriodDays * n) hnew.symm)
    rcases hcases with ⟨hlocked, hmoved⟩ | ⟨hother, hstays⟩
    · obtain rfl : r = locked := Table.eq_of_clash hr hl hlocked
      rw [hmoved, hdays, ← hdate, hstand, if_pos hsub.symm]
      push_cast
      ring
    · rw [hstays, hstand, if_neg (fun h => hother (h.trans hsub)), Nat.add_zero]
  · intro r' hr' c' hc' hcsub hstatus
    obtain ⟨r, hr, hid, hcases⟩ := hsubs r' hr'
    have hbefore : c' ∈ s.cycles → c'.billingDate.days < r.nextBillingDate.days :=
      fun hold => h.past r hr c' hold (hcsub.trans hid.symm) hstatus
    have hmoves : r.id = locked.id → r.nextBillingDate = cycle.billingDate := by
      intro hlocked
      rw [Table.eq_of_clash hr hl hlocked, hdate]
    rcases mem_saveRenewed.1 hc' with ⟨c, hcmem, hcid, rfl⟩ | ⟨hold, _⟩
    · obtain rfl := Table.eq_of_clash hcmem hc (.inl hcid)
      rcases hcases with ⟨_, hmoved⟩ | ⟨hother, _⟩
      · rw [hmoved, hdays]
        exact Int.lt_add_of_pos_right _ (by decide)
      · exact absurd (hid.trans (hcsub.symm.trans hsub)) hother
    · rcases hcases with ⟨hlocked, hmoved⟩ | ⟨_, hstays⟩
      · have hlt := hbefore hold
        rw [hmoves hlocked] at hlt
        rw [hmoved, hdays]
        exact Int.lt_trans hlt (Int.lt_add_of_pos_right _ (by decide))
      · rw [hstays]
        exact hbefore hold
  · intro f hf hof
    have hf : f ∈ b.entries := hf
    rw [Table.mem_def, hrows, List.mem_append, List.mem_singleton] at hf
    rcases hf with hf | rfl
    · obtain ⟨c, hcmem, hstatus, hrest⟩ := h.origin f hf hof
      refine ⟨c, mem_saveRenewed.2 (.inr ⟨hcmem, ?_⟩), hstatus, hrest⟩
      intro hcid
      rw [Table.eq_of_clash hcmem hc (.inl hcid)] at hstatus
      exact hopen hstatus
    · refine ⟨finished cycle, mem_saveRenewed.2 (.inl ⟨cycle, hc, rfl, rfl⟩), rfl, ?_, ?_⟩
      · exact hekey.trans (hkey.trans (by rw [← hsub]; rfl))
      · exact heref.trans (href.trans (by rw [← hsub]; rfl))

/-- What `settle` does after the debit. -/
theorem settle_cases {locked : Subscription} {b : Books} {v : AccrualView}
    (hs : s.settle c cycle locked b v = .ok s') :
    ∃ next s₁, cycle.billingDate.addDays? subscriptionPeriodDays = some next
      ∧ s₁ = ({ s with books := b }.saveDate locked.id next).saveRenewed cycle.id
      ∧ s'.subscriptions = s₁.subscriptions ∧ s'.cycles = s₁.cycles
      ∧ (s'.books = s₁.books ∨ ∃ p e, s₁.books.apply p = .ok (s'.books, e)
        ∧ p.referenceType = .partnerMargin
        ∧ p.idempotencyKey = marginKey .subscription
          (renewalSourceId locked.id cycle.billingDate)) := by
  unfold settle at hs
  split at hs
  · cases hs
  rename_i next hnext
  obtain ⟨m, hm, hs⟩ := bind_ok hs
  cases hs
  refine ⟨next, _, hnext, rfl, rfl, rfl, ?_⟩
  rcases accrue_cases hm with rfl | ⟨p, e, ha, htype, hkey⟩
  · exact .inl rfl
  · exact .inr ⟨p, e, ha, htype, hkey⟩

/-- The invariant is about the ledger, the subscriptions and the cycles. -/
theorem RenewalInv.congr {s₁ : RenewalDb} (h : RenewalInv s₀ s₁) (hbooks : s'.books = s₁.books)
    (hsubs : s'.subscriptions = s₁.subscriptions) (hcycles : s'.cycles = s₁.cycles) :
    RenewalInv s₀ s' := by
  refine h.of_same hbooks ?_ ?_ ?_ ?_
  · intro id
    rw [renewals, hcycles, renewals]
  · intro cycle hc _
    rwa [← hcycles]
  · intro cycle hc _
    rwa [hcycles]
  · intro r hr
    rw [hsubs] at hr
    exact ⟨r, hr, rfl, rfl⟩

/-- An edit leaves the date as it is. -/
def KeepsDates (s : RenewalDb) (t : RenewalThread) : Prop :=
  ∀ row, t.call = .edit row → ∀ q ∈ s.subscriptions, q.id = row.id →
    row.nextBillingDate = q.nextBillingDate

theorem renewalInv_step (h : RenewalInv s₀ s) (hk : KeepsDates s t) (hm : RenewalMove c s t s') :
    RenewalInv s₀ s' := by
  cases hm with
  | stays => exact h
  | edits hcall => exact h.edit (hk _ hcall)
  | @posts p b e ha => exact h.foreign ha p.notSubscription p.notRenewalKey
  | opens hi => exact h.open hi
  | pauses hc hopen hu => exact h.pause hc hopen hu
  | settles hc hopen hsub hl hdate hp ha hs =>
    obtain ⟨next, s₁, hnext, rfl, hsubs, hcycles, hbooks⟩ := settle_cases hs
    have hdebit := h.debit hc hopen hsub hl hdate hp ha hnext
    rcases hbooks with hbooks | ⟨q, f, hq, hqtype, hqkey⟩
    · exact hdebit.congr hbooks hsubs hcycles
    · have hforeign := hdebit.foreign hq (by rw [hqtype]; decide)
        (fun id d => hqkey ▸ marginKey_ne_renewalKey _ _ id d)
      exact hforeign.congr rfl hsubs hcycles

end Preserved

/-! ## Every run -/

/-- Accounts without entries, and no renewal yet. -/
structure FreshRenewals (s : RenewalDb) : Prop where
  books : Books.Fresh s.books
  cycles : s.cycles.rows = []

theorem renewalInv_init {s₀ s : RenewalDb} (hs : s = s₀ ∧ FreshRenewals s) : RenewalInv s₀ s := by
  obtain ⟨rfl, h⟩ := hs
  have hnone : ∀ id, renewals s id = 0 := by
    intro id
    rw [renewals, h.cycles]
    rfl
  refine ⟨booksInv_init h.books, ?_, ?_, ?_, ?_⟩
  · intro id
    rw [hnone, debits, h.books.entries]
    rfl
  · intro r hr
    exact ⟨r, hr, rfl, by rw [hnone]; simp⟩
  · intro r _ cycle hc
    rw [Table.mem_def, h.cycles] at hc
    cases hc
  · intro e he
    rw [Table.mem_def, h.books.entries] at he
    cases he

theorem renewalInvariant (c : RenewalSettings) (s₀ : RenewalDb) :
    Invariant (renewalProgram c) (fun s => s = s₀ ∧ FreshRenewals s) (fun s t _ => KeepsDates s t)
      (RenewalInv s₀) (fun _ _ => True) (fun _ _ => True) where
  init := renewalInv_init
  start := fun _ _ => trivial
  apart_start := fun _ _ => trivial
  symm := fun _ => trivial
  step := fun h _ hk hs => ⟨renewalInv_step h hk (renewalStep_move hs), trivial⟩
  frame := fun _ _ _ _ _ _ => ⟨trivial, trivial⟩

/-- The subscriptions are billed as the ledger says, from the dates `s₀` has. -/
structure RenewalsSound (s₀ s : RenewalDb) : Prop where
  /-- A subscription is debited at most once for a date. -/
  once : ∀ id d, ∀ e ∈ s.books.entries, ∀ f ∈ s.books.entries,
    e.idempotencyKey = renewalKey id d → f.idempotencyKey = renewalKey id d → e = f
  /-- A debit is for the date of a renewed cycle of its subscription. -/
  cycle : ∀ e ∈ s.books.entries, e.referenceType = .subscription →
    ∃ c ∈ s.cycles, c.status = .renewed ∧ e.referenceId = c.subscription.str
      ∧ e.idempotencyKey = renewalKey c.subscription c.billingDate
  /-- There are as many debits as renewed cycles. -/
  counts : ∀ id, debits s id = renewals s id
  /-- The date is as many periods past the first one. -/
  date : ∀ r ∈ s.subscriptions, ∃ r₀ ∈ s₀.subscriptions, r₀.id = r.id ∧
    r.nextBillingDate.days = r₀.nextBillingDate.days + subscriptionPeriodDays * renewals s r.id

/--
**A subscription is debited once for each period.** This holds in every state of
every run in which no edit moves a date, whatever becomes of the balances.
-/
theorem renewals_sound {c : RenewalSettings} {s₀ : RenewalDb}
    {g : Config RenewalDb RenewalThread}
    (h : (renewalProgram c).ReachWhere (fun s => s = s₀ ∧ FreshRenewals s)
      (fun s t _ => KeepsDates s t) g) : RenewalsSound s₀ g.store := by
  have hG := ((renewalInvariant c s₀).reach h).store
  refine ⟨?_, ?_, hG.counts, hG.date⟩
  · intro id d e he f hf hekey hfkey
    exact Table.eq_of_clash he hf (hekey.trans hfkey.symm)
  · intro e he htype
    obtain ⟨cycle, hc, hstatus, hkey, href⟩ := hG.origin e he (.inl htype)
    exact ⟨cycle, hc, hstatus, href, hkey⟩

/-! ## A subscription that is renewed -/

def renewalSettings : RenewalSettings := ⟨true, true, true⟩

/-- The thirteenth of August 2026. -/
def august : Date := ⟨20678, by decide, by decide⟩

def monthly : Subscription where
  id := ⟨"00000000-0000-4000-8000-0000000000d0", by decide⟩
  account := alice
  pricePerPeriod := fiveDollars
  nextBillingDate := august
  status := .active

/-- A subscription of an account with nothing on it. -/
def oneSubscription : RenewalDb where
  books := twoAccounts
  accruals := .empty
  subscriptions := ⟨[monthly], by decide⟩
  cycles := .empty

theorem fresh_oneSubscription : FreshRenewals oneSubscription := ⟨fresh_twoAccounts, rfl⟩

/-- Two periods' price, credited. -/
def twoPeriods : BalancePosting where
  posting :=
    ⟨alice, ⟨10000000, by decide, by decide⟩, true, .deposit, "deposit", "deposit:0", by decide⟩
  notSubscription := by decide
  notRenewalKey := fun id date h => ne_of_parts (p := "deposit:0") (q := "subscription-renew:")
    (by decide) "" _ (h.trans (renewalKey_kind id date))

/-- What a package costs that has no net price, so that nothing is shared. -/
def noShare : PackagePrices := ⟨⟨500, -2⟩, none⟩

def noView : AccrualView := ⟨none, none, bob⟩

/-- The steps of a call that renews one subscription, with a cycle to be opened. -/
def renewedBy (p : Nat) : List (Act RenewalCall RenewalInput) :=
  [.tick p .go, .tick p .go, .tick p .go, .tick p (.opens alice noShare), .tick p (.accrues noView)]

/-- A call that is no edit. -/
def RenewalCall.isRenewal : RenewalCall → Bool
  | .edit _ => false
  | _ => true

theorem keepsDates_of_isRenewal {s : RenewalDb} {t : RenewalThread}
    (h : RenewalCall.isRenewal t.call = true) : KeepsDates s t := by
  intro row hcall
  rw [hcall] at h
  cases h

theorem renewals_sound_renewed :
    ∃ g, (renewalProgram renewalSettings).ReachWhere
        (fun s => s = oneSubscription ∧ FreshRenewals s) (fun s t _ => KeepsDates s t) g
      ∧ (debits g.store monthly.id = 1 ∧ renewals g.store monthly.id = 1)
      ∧ RenewalsSound oneSubscription g.store := by
  have hrun : ∃ g, (renewalProgram renewalSettings).ReachWhere
        (fun s => s = oneSubscription ∧ FreshRenewals s) (fun s t _ => KeepsDates s t) g
      ∧ decide (debits g.store monthly.id = 1 ∧ renewals g.store monthly.id = 1) = true :=
    Program.reachWhere_check (fun _ t _ => RenewalCall.isRenewal t.call)
      (fun _ _ _ => keepsDates_of_isRenewal) ⟨rfl, fresh_oneSubscription⟩
      ([.call 0 (.post twoPeriods), .tick 0 .go, .call 1 (.renewDue august)] ++ renewedBy 1)
      (fun g => decide (debits g.store monthly.id = 1 ∧ renewals g.store monthly.id = 1))
      (by decide +kernel)
  obtain ⟨g, hg, hend⟩ := hrun
  exact ⟨g, hg, of_decide_eq_true hend, renewals_sound hg⟩

end Roamkit.Billing.Proof
