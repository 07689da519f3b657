import Roamkit.Proof.SpendOps

/-!
# Each transaction keeps ledger and purchases in agreement

Opening a purchase debits it, failing one refunds it, and fulfilling one posts
nothing for it. Here the transactions of the two services are shown to be of these
kinds, and to leave every row but their own as it is.
-/

namespace Roamkit.Spend.Proof

open Lib Billing Billing.Proof

/-! ## Opening, failing and settling a purchase -/

variable {v : Purchase} {o : Order} {t : Topup} {row : Row} {package : Airalo.TopupPackage}
  {d : PersistDraw}

section Transfers

variable {s s' : SpendDb} {src : Source} {u : Purchase}

theorem movements_some (h : s.purchase? src = some u) : s.movements src = u.movements src := by
  rw [SpendDb.movements, h]

theorem movements_none (h : s.purchase? src = none) : s.movements src = [] := by
  rw [SpendDb.movements, h]

theorem movements_of_purchase? (h : s'.purchase? src = s.purchase? src) :
    s'.movements src = s.movements src := by
  rw [SpendDb.movements, h, SpendDb.movements]

/-- A purchase that is not failed calls for its debit, if it is charged. -/
theorem movements_open (hs : u.status ≠ .failed) :
    u.movements src = (u.charge.map (Purchase.debit src u.account)).toList := by
  unfold Purchase.movements
  cases u.charge with
  | none => rfl
  | some m => simp [hs]

theorem transfer_opens_free (hb : BooksInv s.books) (hnone : s.purchase? src = none)
    (hsome : s'.purchase? src = some u) (hfree : u.charge = none) (hbooks : s'.books = s.books)
    (hother : ∀ src', src' ≠ src → s'.purchase? src' = s.purchase? src') : Transfer s s' := by
  refine .aside (hbooks ▸ hb) (fun src' => by rw [hbooks]) ?_
  intro src'
  by_cases heq : src' = src
  · subst heq
    rw [movements_some hsome, movements_none hnone, Purchase.movements, hfree]
  · exact movements_of_purchase? (hother src' heq)

theorem transfer_opens {m : Int} {p : Posting} {e : CreditLedgerEntry}
    (ha : s.books.apply p = .ok (s'.books, e)) (hnone : s.purchase? src = none)
    (hsome : s'.purchase? src = some u) (hcharge : u.charge = some m) (hs : u.status ≠ .failed)
    (hp : movementOf p = Purchase.debit src u.account m)
    (hother : ∀ src', src' ≠ src → s'.purchase? src' = s.purchase? src') : Transfer s s' := by
  refine .posts ha (hp ▸ makes_debit src _ _) ?_ ?_ fun src' hne =>
    movements_of_purchase? (hother src' hne)
  · rw [movements_none hnone]
    intro m' hm'
    cases hm'
  · rw [movements_none hnone, movements_some hsome, movements_open hs, hcharge, hp]
    rfl

theorem transfer_settles (hb : BooksInv s.books) (hsome : s.purchase? src = some u)
    (hs : u.status ≠ .failed) (hsome' : s'.purchase? src = some v) (hs' : v.status ≠ .failed)
    (hacc : v.account = u.account) (hcharge : v.charge = u.charge) (hbooks : s'.books = s.books)
    (hother : ∀ src', src' ≠ src → s'.purchase? src' = s.purchase? src') : Transfer s s' := by
  refine .aside (hbooks ▸ hb) (fun src' => by rw [hbooks]) ?_
  intro src'
  by_cases heq : src' = src
  · subst heq
    rw [movements_some hsome, movements_some hsome', movements_open hs, movements_open hs', hacc,
      hcharge]
  · exact movements_of_purchase? (hother src' heq)

theorem transfer_fails {m : Int} {p : Posting} {e : CreditLedgerEntry}
    (ha : s.books.apply p = .ok (s'.books, e)) (hsome : s.purchase? src = some u)
    (hs : u.status ≠ .failed) (hsome' : s'.purchase? src = some v) (hs' : v.status = .failed)
    (hacc : v.account = u.account) (hcharge : v.charge = u.charge) (hm : u.charge = some m)
    (hp : movementOf p = Purchase.refund src u.account m)
    (hother : ∀ src', src' ≠ src → s'.purchase? src' = s.purchase? src') : Transfer s s' := by
  refine .posts ha (hp ▸ makes_refund src _ _) ?_ ?_ fun src' hne =>
    movements_of_purchase? (hother src' hne)
  · rw [movements_some hsome, movements_open hs, hm]
    intro m' hm'
    have hkey : p.idempotencyKey = src.refundKey := congrArg Movement.idempotencyKey hp
    rw [Option.map_some, Option.toList_some, List.mem_singleton] at hm'
    rw [hm', hkey]
    exact debitKey_ne_refundKey src src
  · rw [movements_some hsome, movements_some hsome', movements_open hs, hm, Purchase.movements,
      hcharge, hm, hacc, hp]
    simp [hs']

theorem transfer_fails_free (hb : BooksInv s.books) (hsome : s.purchase? src = some u)
    (hsome' : s'.purchase? src = some v) (hcharge : v.charge = u.charge) (hm : u.charge = none)
    (hbooks : s'.books = s.books)
    (hother : ∀ src', src' ≠ src → s'.purchase? src' = s.purchase? src') : Transfer s s' := by
  refine .aside (hbooks ▸ hb) (fun src' => by rw [hbooks]) ?_
  intro src'
  by_cases heq : src' = src
  · subst heq
    rw [movements_some hsome, movements_some hsome', Purchase.movements,
      Purchase.movements, hcharge, hm]
  · exact movements_of_purchase? (hother src' heq)

end Transfers

/-! ## Rows in their tables -/

/-- The row is in its table. -/
def Stored (s : SpendDb) : Row → Prop
  | .order o => o ∈ s.orders
  | .topup t => t ∈ s.topups

theorem stored_order {s : SpendDb} : Stored s (.order o) ↔ o ∈ s.orders := Iff.rfl

theorem stored_topup {s : SpendDb} : Stored s (.topup t) ↔ t ∈ s.topups := Iff.rfl

theorem Stored.purchase? {s : SpendDb} (h : Stored s row) :
    s.purchase? row.source = some row.purchase := by
  cases row with
  | order o => exact purchase?_order h
  | topup t => exact purchase?_topup h

/-- Two rows of one source are one row. -/
theorem Stored.eq {s : SpendDb} {row' : Row} (h : Stored s row) (h' : Stored s row')
    (hsrc : row.source = row'.source) : row = row' := by
  cases row with
  | order o =>
    cases row' with
    | order o' =>
      have hid : o.id = o'.id := Source.order.inj hsrc
      rw [Table.eq_of_clash (r := o) (q := o') h h' (.inl hid)]
    | topup t' => cases hsrc
  | topup t =>
    cases row' with
    | order o' => cases hsrc
    | topup t' =>
      have hid : t.id = t'.id := Source.topup.inj hsrc
      rw [Table.eq_of_clash (r := t) (q := t') h h' (.inl hid)]

/-- What a transaction writes: its row, and initial credits of the row's account. -/
structure Writes (s s' : SpendDb) (row : Row) : Prop where
  stored : Stored s' row
  /-- The rows of all other sources stay. -/
  kept : ∀ r, Stored s r → r.source ≠ row.source → Stored s' r
  /-- Nothing else is new. -/
  only : ∀ r, Stored s' r → r = row ∨ (Stored s r ∧ r.source ≠ row.source)
    ∨ ∃ t, r = .topup t ∧ IsCredit row.purchase.account t
  provider : s'.provider = s.provider
  now : s'.now = s.now
  esims : ∀ e ∈ s.esims, e ∈ s'.esims

theorem Side.stored {account : Uuid} {s s' : SpendDb} (h : Side account s s')
    (hr : Stored s row) : Stored s' row := by
  cases row with
  | order o =>
    rw [stored_order] at hr ⊢
    rwa [h.orders]
  | topup t => exact h.topups t hr

/-- What a transaction does beside its row writes no more. -/
theorem Writes.side {s s' s'' : SpendDb} (h : Writes s s' row)
    (hs : Side row.purchase.account s' s'') : Writes s s'' row := by
  refine ⟨hs.stored h.stored, fun r hr hne => hs.stored (h.kept r hr hne), ?_,
    hs.provider.trans h.provider, hs.now.trans h.now, fun e he => hs.esims e (h.esims e he)⟩
  intro r hr
  cases r with
  | order o =>
    rw [stored_order, hs.orders] at hr
    exact h.only (.order o) hr
  | topup t =>
    by_cases ht : t ∈ s'.topups
    · exact h.only (.topup t) ht
    · exact .inr (.inr ⟨t, rfl, hs.credits t hr ht⟩)

section Writes

variable {s s' : SpendDb}

theorem writes_insertOrder (hi : s.orders.insert? o = some s'.orders)
    (htopups : s'.topups = s.topups) (hesims : s'.esims = s.esims)
    (hprov : s'.provider = s.provider) (hnow : s'.now = s.now) : Writes s s' (.order o) := by
  refine ⟨(Table.mem_insert hi).2 (.inr rfl), ?_, ?_, hprov, hnow, fun e he => hesims ▸ he⟩
  · intro r hr _
    cases r with
    | order o' => exact (Table.mem_insert hi).2 (.inl hr)
    | topup t => rw [stored_topup] at hr ⊢; rwa [htopups]
  · intro r hr
    cases r with
    | order o' =>
      rcases (Table.mem_insert hi).1 hr with hmem | rfl
      · refine .inr (.inl ⟨hmem, ?_⟩)
        exact fun hsrc => Table.apart_of_insert hi hmem (.inl (Source.order.inj hsrc))
      · exact .inl rfl
    | topup t =>
      rw [stored_topup, htopups] at hr
      exact .inr (.inl ⟨hr, nofun⟩)

theorem writes_insertTopup (hi : s.topups.insert? t = some s'.topups)
    (horders : s'.orders = s.orders) (hesims : s'.esims = s.esims)
    (hprov : s'.provider = s.provider) (hnow : s'.now = s.now) : Writes s s' (.topup t) := by
  refine ⟨(Table.mem_insert hi).2 (.inr rfl), ?_, ?_, hprov, hnow, fun e he => hesims ▸ he⟩
  · intro r hr _
    cases r with
    | topup t' => exact (Table.mem_insert hi).2 (.inl hr)
    | order o => rw [stored_order] at hr ⊢; rwa [horders]
  · intro r hr
    cases r with
    | topup t' =>
      rcases (Table.mem_insert hi).1 hr with hmem | rfl
      · refine .inr (.inl ⟨hmem, ?_⟩)
        exact fun hsrc => Table.apart_of_insert hi hmem (.inl (Source.topup.inj hsrc))
      · exact .inl rfl
    | order o =>
      rw [stored_order, horders] at hr
      exact .inr (.inl ⟨hr, nofun⟩)

theorem writes_saveOrder {f : Order → Order} (hf : Table.Keeps f) (ho : o ∈ s.orders)
    (hid : ∀ r, (f r).id = r.id) (horders : s'.orders = s.orders.update (·.id = o.id) f hf)
    (htopups : s'.topups = s.topups) (hesims : s'.esims = s.esims)
    (hprov : s'.provider = s.provider) (hnow : s'.now = s.now) : Writes s s' (.order (f o)) := by
  refine ⟨?_, ?_, ?_, hprov, hnow, fun e he => hesims ▸ he⟩
  · rw [stored_order, horders, Table.mem_update]
    exact ⟨o, ho, rewrite_pos f (by simp)⟩
  · intro r hr hne
    cases r with
    | topup t => rw [stored_topup] at hr ⊢; rwa [htopups]
    | order o' =>
      rw [stored_order, horders, Table.mem_update]
      refine ⟨o', hr, rewrite_neg f ?_⟩
      intro heq
      refine hne (congrArg Source.order ?_)
      rw [hid]
      exact of_decide_eq_true heq
  · intro r hr
    cases r with
    | topup t =>
      rw [stored_topup, htopups] at hr
      exact .inr (.inl ⟨hr, nofun⟩)
    | order o' =>
      rw [stored_order, horders, Table.mem_update] at hr
      obtain ⟨o₁, ho₁, rfl⟩ := hr
      by_cases heq : o₁.id = o.id
      · obtain rfl : o₁ = o := Table.eq_of_clash ho₁ ho (.inl heq)
        rw [rewrite_pos f (by simp)]
        exact .inl rfl
      · rw [rewrite_neg f (by simpa using heq)]
        refine .inr (.inl ⟨ho₁, fun hsrc => heq ?_⟩)
        exact (Source.order.inj hsrc).trans (hid o)

theorem writes_saveTopup {f : Topup → Topup} (hf : Table.Keeps f) (ht : t ∈ s.topups)
    (hid : ∀ r, (f r).id = r.id) (htopups : s'.topups = s.topups.update (·.id = t.id) f hf)
    (horders : s'.orders = s.orders) (hesims : s'.esims = s.esims)
    (hprov : s'.provider = s.provider) (hnow : s'.now = s.now) : Writes s s' (.topup (f t)) := by
  refine ⟨?_, ?_, ?_, hprov, hnow, fun e he => hesims ▸ he⟩
  · rw [stored_topup, htopups, Table.mem_update]
    exact ⟨t, ht, rewrite_pos f (by simp)⟩
  · intro r hr hne
    cases r with
    | order o => rw [stored_order] at hr ⊢; rwa [horders]
    | topup t' =>
      rw [stored_topup, htopups, Table.mem_update]
      refine ⟨t', hr, rewrite_neg f ?_⟩
      intro heq
      refine hne (congrArg Source.topup ?_)
      rw [hid]
      exact of_decide_eq_true heq
  · intro r hr
    cases r with
    | order o =>
      rw [stored_order, horders] at hr
      exact .inr (.inl ⟨hr, nofun⟩)
    | topup t' =>
      rw [stored_topup, htopups, Table.mem_update] at hr
      obtain ⟨t₁, ht₁, rfl⟩ := hr
      by_cases heq : t₁.id = t.id
      · obtain rfl : t₁ = t := Table.eq_of_clash ht₁ ht (.inl heq)
        rw [rewrite_pos f (by simp)]
        exact .inl rfl
      · rw [rewrite_neg f (by simpa using heq)]
        refine .inr (.inl ⟨ht₁, fun hsrc => heq ?_⟩)
        exact (Source.topup.inj hsrc).trans (hid t)

end Writes

/-! ## The transactions -/

/-- The row a call goes on with is the one its arguments made. -/
def Charged : Spending → Prop
  | .order a o => o.account = a.spendAccount ∧ o.skipPayment = a.skipPayment
  | .topup a _ t => t.account = a.spendAccount ∧ 0 < t.sequence

section Steps

variable {c : SpendSettings} {s s' : SpendDb}

/-- A transaction keeps the invariant, and writes its row. -/
structure Effect (s s' : SpendDb) (row : Row) : Prop where
  inv : SpendInv s'
  writes : Writes s s' row

theorem effect_openOrder {a : FulfillArgs} {d : Draw Nat} (h : SpendInv s)
    (hr : reserveOrder c s a d = .ok (s', .fresh o)) :
    Effect s s' (.order o) ∧ s.purchase? (.order o.id) = none ∧ Charged (.order a o)
      ∧ o.status = .fulfilling := by
  obtain ⟨orders, hi, hacc, hstatus, hskip, hpaid⟩ := reserveOrder_fresh hr
  have hnone := purchase?_newOrder hi
  have hmem : o ∈ orders := (Table.mem_insert hi).2 (.inr rfl)
  have hother : ∀ src, src ≠ .order o.id
      → ({ s with orders } : SpendDb).purchase? src = s.purchase? src :=
    fun src hne => purchase?_insertOrder hi hne
  have hopen : o.purchase.status ≠ .failed := by
    show o.status ≠ .failed
    rw [hstatus]
    decide
  refine ⟨?_, hnone, ⟨hacc, hskip⟩, hstatus⟩
  rcases hpaid with ⟨hfree, rfl⟩ | ⟨hpays, p, books, e, rfl, ha, hp⟩
  · refine ⟨h.transfer (transfer_opens_free h.books hnone (u := o.purchase) ?_ ?_ rfl hother),
      writes_insertOrder hi rfl rfl rfl rfl⟩
    · exact purchase?_order hmem
    · simp [Order.purchase, Order.charge, hskip, hfree]
  · have hsame : ∀ src, ({ s with orders, books } : SpendDb).purchase? src
        = ({ s with orders } : SpendDb).purchase? src := by
      intro src
      cases src <;> rfl
    refine ⟨h.transfer (transfer_opens ha hnone (u := o.purchase) (m := o.retailPriceUsd * 10000)
      ?_ ?_ hopen hp ?_), writes_insertOrder hi rfl rfl rfl rfl⟩
    · exact (hsame _).trans (purchase?_order (s := { s with orders }) hmem)
    · simp [Order.purchase, Order.charge, hskip, hpays]
    · exact fun src hne => (hsame src).trans (hother src hne)

theorem effect_openTopup {a : PurchaseArgs} {d : Draw Uuid} (h : SpendInv s)
    (hr : reserveTopup c s a package d = .ok (s', .fresh t)) :
    Effect s s' (.topup t) ∧ s.purchase? (.topup t.id) = none ∧ Charged (.topup a package t)
      ∧ t.status = .fulfilling := by
  obtain ⟨topups, p, books, e, hi, rfl, ha, hp, hacc, hstatus, hseq, _, _⟩ := reserveTopup_fresh hr
  have hnone := purchase?_newTopup hi
  have hmem : t ∈ topups := (Table.mem_insert hi).2 (.inr rfl)
  have hsame : ∀ src, ({ s with topups, books } : SpendDb).purchase? src
      = ({ s with topups } : SpendDb).purchase? src := by
    intro src
    cases src <;> rfl
  have hopen : t.purchase.status ≠ .failed := by
    show t.status.toOrder ≠ .failed
    rw [hstatus]
    decide
  refine ⟨⟨h.transfer (transfer_opens ha hnone (u := t.purchase) (m := t.amount.micros)
    ?_ ?_ hopen hp ?_), writes_insertTopup hi rfl rfl rfl rfl⟩, hnone, ⟨hacc, hseq⟩, hstatus⟩
  · exact (hsame _).trans (purchase?_topup (s := { s with topups }) hmem)
  · simp [Topup.purchase, Topup.charge, Nat.ne_of_gt hseq]
  · exact fun src hne => (hsame src).trans (purchase?_insertTopup hi hne)

theorem effect_persistOrder {user : UserId} {package : Package} {r : Airalo.OrderResult}
    (h : SpendInv s) (ho : o ∈ s.orders) (hs : o.status = .fulfilling)
    (hp : persistOrder c s o user package r d = .ok s') :
    Effect s s' (.order (fulfilledOrder r.externalOrderId o)) := by
  have hside := persistOrder_cases hp
  have hinv : SpendInv (s.saveOrder o.id (fulfilledOrder r.externalOrderId) (fun _ _ h => h)) := by
    refine h.transfer (transfer_settles (v := (fulfilledOrder r.externalOrderId o).purchase) h.books
      (purchase?_order ho) ?_ (purchase?_savedOrder (fun _ => rfl) ho) ?_ rfl rfl rfl ?_)
    · show o.status ≠ .failed
      rw [hs]
      decide
    · exact nofun
    · exact fun src hne => purchase?_saveOrder (fun _ => rfl) hne
  have hwrites : Writes s (s.saveOrder o.id (fulfilledOrder r.externalOrderId) (fun _ _ h => h))
      (.order (fulfilledOrder r.externalOrderId o)) :=
    writes_saveOrder (f := fulfilledOrder _) (fun _ _ h => h) ho (fun _ => rfl) rfl rfl rfl rfl rfl
  exact ⟨hinv.transfer (hside.transfer hinv.books), hwrites.side hside⟩

theorem effect_persistTopup {r : Airalo.TopupResult} (h : SpendInv s) (ht : t ∈ s.topups)
    (hs : t.status = .fulfilling) (hp : persistTopup c s t package r d = .ok s') :
    Effect s s' (.topup (fulfilledTopup r.externalOrderId t)) := by
  have hside := persistTopup_cases hp
  have hinv : SpendInv (s.saveTopup t.id (fulfilledTopup r.externalOrderId) (fun _ _ h => h)) := by
    refine h.transfer (transfer_settles (v := (fulfilledTopup r.externalOrderId t).purchase) h.books
      (purchase?_topup ht) ?_ (purchase?_savedTopup (fun _ => rfl) ht) ?_ rfl rfl rfl ?_)
    · show t.status.toOrder ≠ .failed
      rw [hs]
      decide
    · exact nofun
    · exact fun src hne => purchase?_saveTopup (fun _ => rfl) hne
  have hwrites : Writes s (s.saveTopup t.id (fulfilledTopup r.externalOrderId) (fun _ _ h => h))
      (.topup (fulfilledTopup r.externalOrderId t)) :=
    writes_saveTopup (f := fulfilledTopup _) (fun _ _ h => h) ht (fun _ => rfl) rfl rfl rfl rfl rfl
  exact ⟨hinv.transfer (hside.transfer hinv.books), hwrites.side hside⟩

theorem effect_compensateOrder {a : FulfillArgs} (h : SpendInv s) (ho : o ∈ s.orders)
    (hs : o.status = .fulfilling) (hc : Charged (.order a o))
    (hp : compensateOrder s o a.spendAccount a.skipPayment = .ok s') :
    Effect s s' (.order (failedOrder o)) := by
  obtain ⟨hacc, hskip⟩ := hc
  obtain ⟨locked, hlocked, hid, hcases⟩ := compensateOrder_cases hp
  obtain rfl : locked = o := Table.eq_of_clash hlocked ho (.inl hid)
  have hopen : locked.status ≠ .failed := by
    rw [hs]
    decide
  have hother : ∀ src, src ≠ .order locked.id →
      (s.saveOrder locked.id failedOrder (fun _ _ h => h)).purchase? src = s.purchase? src :=
    fun src hne => purchase?_saveOrder (fun _ => rfl) hne
  rcases hcases with ⟨hfailed, _⟩ | ⟨_, hfree, rfl⟩ | ⟨_, hpays, p, books, e, rfl, ha, hmov⟩
  · exact absurd hfailed hopen
  · refine ⟨h.transfer (transfer_fails_free (v := (failedOrder locked).purchase) h.books
      (purchase?_order ho) (purchase?_savedOrder (fun _ => rfl) ho) rfl ?_ rfl hother),
      writes_saveOrder (f := failedOrder) (fun _ _ h => h) ho (fun _ => rfl) rfl rfl rfl rfl rfl⟩
    simp [Order.purchase, Order.charge, hskip, hfree]
  · have hsame :
      ∀ src, ({ s.saveOrder locked.id failedOrder (fun _ _ h => h) with books }).purchase? src
        = (s.saveOrder locked.id failedOrder (fun _ _ h => h)).purchase? src := by
      intro src
      cases src <;> rfl
    refine ⟨h.transfer (transfer_fails (v := (failedOrder locked).purchase)
      (m := locked.retailPriceUsd * 10000) ha (purchase?_order ho) hopen
      ((hsame _).trans (purchase?_savedOrder (fun _ => rfl) ho)) rfl rfl rfl ?_ ?_
      fun src hne => (hsame src).trans (hother src hne)),
      writes_saveOrder (f := failedOrder) (fun _ _ h => h) ho (fun _ => rfl) rfl rfl rfl rfl rfl⟩
    · simp [Order.purchase, Order.charge, hskip, hpays]
    · rw [hmov, ← hacc]
      rfl

theorem effect_compensateTopup {a : PurchaseArgs} (h : SpendInv s) (ht : t ∈ s.topups)
    (hs : t.status = .fulfilling) (hc : Charged (.topup a package t))
    (hp : compensateTopup s t a.spendAccount = .ok s') :
    Effect s s' (.topup (failedTopup t)) := by
  obtain ⟨hacc, hseq⟩ := hc
  obtain ⟨locked, hlocked, hid, hcases⟩ := compensateTopup_cases hp
  obtain rfl : locked = t := Table.eq_of_clash hlocked ht (.inl hid)
  have hopen : locked.purchase.status ≠ .failed := by
    show locked.status.toOrder ≠ .failed
    rw [hs]
    decide
  rcases hcases with ⟨hfailed, _⟩ | ⟨_, p, books, e, rfl, ha, hmov⟩
  · rw [hs] at hfailed
    cases hfailed
  · have hsame :
      ∀ src, ({ s.saveTopup locked.id failedTopup (fun _ _ h => h) with books }).purchase? src
        = (s.saveTopup locked.id failedTopup (fun _ _ h => h)).purchase? src := by
      intro src
      cases src <;> rfl
    refine ⟨h.transfer (transfer_fails (v := (failedTopup locked).purchase)
      (m := locked.amount.micros) ha (purchase?_topup ht) hopen
      ((hsame _).trans (purchase?_savedTopup (fun _ => rfl) ht)) rfl rfl rfl ?_ ?_
      fun src hne => (hsame src).trans (purchase?_saveTopup (fun _ => rfl) hne)),
      writes_saveTopup (f := failedTopup) (fun _ _ h => h) ht (fun _ => rfl) rfl rfl rfl rfl rfl⟩
    · simp [Topup.purchase, Topup.charge, Nat.ne_of_gt hseq]
    · rw [hmov, ← hacc]
      rfl

/-- A fulfilment settles the row its call reserved. -/
theorem effect_persist {w : Spending} {sale : Sale} (h : SpendInv s) (hw : Stored s w.row)
    (hs : w.row.purchase.status = .fulfilling) (hp : w.persist c s d sale = .ok (s', row)) :
    Effect s s' row ∧ row.source = w.source
      ∧ row.purchase = { w.row.purchase with status := .fulfilled } := by
  cases w with
  | order a o =>
    cases sale with
    | topup r => cases hp
    | order r =>
      obtain ⟨s₁, hpersist, hp⟩ := bind_ok hp
      cases hp
      exact ⟨effect_persistOrder h hw hs hpersist, rfl, rfl⟩
  | topup a package t =>
    cases sale with
    | order r => cases hp
    | topup r =>
      obtain ⟨s₁, hpersist, hp⟩ := bind_ok hp
      cases hp
      have ht : t.status = .fulfilling := by
        cases hstatus : t.status with
        | fulfilling => rfl
        | _ => simp [Spending.row, Row.purchase, Topup.purchase, hstatus, TopupStatus.toOrder] at hs
      exact ⟨effect_persistTopup h hw ht hpersist, rfl, rfl⟩

/-- A compensation fails the row its call reserved, and refunds it. -/
theorem effect_compensate {w : Spending} (h : SpendInv s) (hw : Stored s w.row)
    (hs : w.row.purchase.status = .fulfilling) (hc : Charged w)
    (hp : w.compensate s = .ok (s', row)) :
    Effect s s' row ∧ row.source = w.source
      ∧ row.purchase = { w.row.purchase with status := .failed } := by
  cases w with
  | order a o =>
    obtain ⟨s₁, hcompensate, hp⟩ := bind_ok hp
    cases hp
    exact ⟨effect_compensateOrder h hw hs hc hcompensate, rfl, rfl⟩
  | topup a package t =>
    obtain ⟨s₁, hcompensate, hp⟩ := bind_ok hp
    cases hp
    have ht : t.status = .fulfilling := by
      cases hstatus : t.status with
      | fulfilling => rfl
      | _ => simp [Spending.row, Row.purchase, Topup.purchase, hstatus, TopupStatus.toOrder] at hs
    exact ⟨effect_compensateTopup h hw ht hc hcompensate, rfl, rfl⟩

end Steps

end Roamkit.Spend.Proof
