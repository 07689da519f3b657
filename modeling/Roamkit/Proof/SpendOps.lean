import Roamkit.Proof.Purchase

/-!
# What each transaction does

One lemma for each transaction of `OrderService` and `TopupService`, said of its
success: which row it found, inserted or saved, and which movement it posted.
Nothing after this module unfolds a transaction.

A fulfilment does more than settle its own row: it creates eSIMs with their initial
credits and may pay a partner. `Side` is the whole of that, and to the ledger of
purchases it is nothing.
-/

namespace Roamkit.Spend.Proof

open Lib Billing Billing.Proof

/-! ## The movements that are posted -/

theorem units_cents (n : Int) : (Dec.ofUnits 2 n).units 6 = n * 10000 := by
  simp [Dec.ofUnits, Dec.units]

/-- A posting of a price makes a movement of the price. -/
theorem movementOf_price {account : Uuid} {d : Dec} {type : LedgerReferenceType}
    {referenceId key : String} {credit : Bool} {p : Posting}
    (h : preparePosting account (.decimal (.finite d))
      (.member type) referenceId key credit = .ok p) :
    movementOf p = ⟨account, if credit then d.units 6 else -d.units 6, type, referenceId, key⟩ := by
  obtain ⟨hamount, hacc, hcredit, htype, href, hkey⟩ := preparePosting_eq h
  have hmicros : p.amount.micros = d.units 6 := normalizeAmount_units hamount
  rw [movementOf, Posting.delta, hcredit, hmicros, hacc, htype, href, hkey]

/-! ## Beside the row itself -/

/-- An initial credit of an account: fulfilled, and no purchase. -/
def IsCredit (account : Uuid) (t : Topup) : Prop :=
  t.sequence = 0 ∧ t.account = account ∧ t.status = .fulfilled
    ∧ ∃ esim, t.idempotencyKey = initialCreditKey esim

/-- Everything a fulfilment does besides settling its row, for the account of the row. -/
structure Side (account : Uuid) (s s' : SpendDb) : Prop where
  orders : s'.orders = s.orders
  provider : s'.provider = s.provider
  now : s'.now = s.now
  books : BooksInv s.books → BooksInv s'.books
  /-- No movement is made for any purchase. -/
  movements : ∀ src, movementsOf s'.books src = movementsOf s.books src
  topups : ∀ t ∈ s.topups, t ∈ s'.topups
  esims : ∀ e ∈ s.esims, e ∈ s'.esims
  /-- What is new is an initial credit. -/
  credits : ∀ t ∈ s'.topups, t ∉ s.topups → IsCredit account t

namespace Side

variable {account : Uuid} {s s' s'' : SpendDb}

theorem refl (account : Uuid) (s : SpendDb) : Side account s s :=
  ⟨rfl, rfl, rfl, id, fun _ => rfl, fun _ => id, fun _ => id, fun _ h hn => absurd h hn⟩

theorem trans (h : Side account s s') (h' : Side account s' s'') : Side account s s'' := by
  refine ⟨h'.orders.trans h.orders, h'.provider.trans h.provider, h'.now.trans h.now,
    fun hb => h'.books (h.books hb), fun src => (h'.movements src).trans (h.movements src),
    fun t ht => h'.topups t (h.topups t ht), fun e he => h'.esims e (h.esims e he), ?_⟩
  intro t ht hn
  by_cases hmem : t ∈ s'.topups
  · exact h.credits t hmem hn
  · exact h'.credits t ht hmem

/-- The purchases that were there stay as they are. -/
theorem purchase? (h : Side account s s') {src : Source} {p : Purchase}
    (hp : s.purchase? src = some p) : s'.purchase? src = some p := by
  cases src with
  | order n =>
    rw [SpendDb.purchase?, h.orders]
    exact hp
  | topup u =>
    obtain ⟨t, ht, rfl⟩ := Option.map_eq_some_iff.1 hp
    have hid : t.id = u := by simpa using Table.prop_of_find? ht
    rw [← hid]
    exact purchase?_topup (h.topups t (Table.mem_of_find? ht))

/-- And call for what they called for. -/
theorem movements_eq (h : Side account s s') (src : Source) :
    s'.movements src = s.movements src := by
  unfold SpendDb.movements
  cases hp : s.purchase? src with
  | some p => rw [h.purchase? hp]
  | none =>
    cases src with
    | order n =>
      have : s'.purchase? (.order n) = none := by
        rw [SpendDb.purchase?, h.orders]
        exact hp
      rw [this]
    | topup u =>
      cases hq : s'.topups.find? (·.id = u) with
      | none => simp [SpendDb.purchase?, hq]
      | some t =>
        -- a top-up that was not there is an initial credit, and free
        have hnew : t ∉ s.topups := by
          intro ht
          have hid : t.id = u := by simpa using Table.prop_of_find? hq
          rw [← hid, purchase?_topup ht] at hp
          cases hp
        have hzero := (h.credits t (Table.mem_of_find? hq) hnew).1
        simp [SpendDb.purchase?, hq, Topup.purchase, Topup.charge, hzero, Purchase.movements]

theorem transfer (h : Side account s s') (hb : BooksInv s.books) : Transfer s s' :=
  .aside (h.books hb) h.movements h.movements_eq

end Side

/-! ## Partner margin -/

/-- A partner's share is no purchase's movement. -/
theorem owns_margin {p : Posting} {sourceType : SourceType} {sourceId : String} (src : Source)
    (htype : p.referenceType = .partnerMargin)
    (hkey : p.idempotencyKey = marginKey sourceType sourceId) :
    src.owns (movementOf p) = false := by
  have hd : marginKey sourceType sourceId ≠ src.debitKey := by
    rw [marginKey, String.append_assoc, String.append_assoc]
    cases src <;> exact ne_of_parts (by decide) _ _
  have hr : marginKey sourceType sourceId ≠ src.refundKey := by
    rw [marginKey, String.append_assoc, String.append_assoc]
    cases src <;> exact ne_of_parts (by decide) _ _
  simp [Source.owns, movementOf, htype, hkey, hd, hr, isSpendType]

/-- A share that is paid: its posting, and the accrual that is recorded with it. -/
theorem pay_cases {m m' : MarginBooks} {src : MarginSource} {channel : ChannelView} {account : Uuid}
    {share : Int} {accrualId : Uuid} (h : m.pay src channel account share accrualId = .ok m') :
    ∃ p e, m.books.apply p = .ok (m'.books, e) ∧ p.account = account ∧ p.credit = true
      ∧ p.referenceType = .partnerMargin ∧ p.referenceId = accrualId.str
      ∧ p.idempotencyKey = marginKey src.sourceType src.sourceId ∧ p.amount.micros = share
      ∧ src.fits = true
      ∧ m.accruals.insert? (src.accrual channel accrualId p.amount e.idempotencyKey)
        = some m'.accruals := by
  unfold MarginBooks.pay at h
  obtain ⟨p, hp, h⟩ := bind_ok h
  obtain ⟨⟨books, entry⟩, ha, h⟩ := bind_ok h
  obtain ⟨hamount, hacc, hcredit, htype, href, hkey⟩ := preparePosting_eq hp
  have hmicros : p.amount.micros = share := by
    rw [normalizeAmount_units hamount, Dec.units_ofUnits]
  dsimp only at h
  split at h
  · cases h
  rename_i hfits
  split at h
  · cases h
  rename_i accruals hi
  cases h
  exact ⟨p, entry, ha, hacc, hcredit, htype, href, hkey, hmicros, not_not.1 hfits, hi⟩

/-- What an accrual that pays has checked. -/
structure Accrues (m m' : MarginBooks) (sourceType : SourceType) (sourceId : String)
    (list net : Option Dec) (customer : Option UserId) (attribution : Option ChannelView)
    (accrualId : Uuid) (src : MarginSource) (channel : ChannelView) (account : Uuid) (share : Int) :
    Prop where
  source : src.sourceType = sourceType ∧ src.sourceId = sourceId
  prices : list = some src.listPrice ∧ net = some src.netPrice
  buyer : customer = some src.customer
  view : attribution = some channel
  /-- No accrual has the source. -/
  new : ∀ a ∈ m.accruals, ¬ (a.sourceType = sourceType ∧ a.sourceId = sourceId)
  active : channel.isActive = true
  allowed : channel.canAccrueFor src.customer = true
  priced : priceSkip (some src.listPrice) (some src.netPrice) channel.revenueSharePercent = false
  shares : partnerShare src.listPrice src.netPrice channel.revenueSharePercent = some share
  nonzero : share ≠ 0
  settles : channel.settlement = .ok account
  pays : m.pay src channel account share accrualId = .ok m'

section Accruals

variable {m m' : MarginBooks} {enabled : Bool} {sourceType : SourceType} {sourceId : String}
  {list net : Option Dec} {customer : Option UserId} {attribution : Option ChannelView}
  {accrualId : Uuid}

/-- An accrual skips, or pays. -/
theorem accrue_ok
    (h : m.accrue enabled sourceType sourceId list net customer attribution accrualId = .ok m') :
    m' = m ∨ ∃ src channel account share,
      Accrues m m' sourceType sourceId list net customer attribution
      accrualId src channel account share := by
  unfold MarginBooks.accrue at h
  split at h
  · cases h; exact .inl rfl
  · split at h
    · cases h; exact .inl rfl
    · cases h; exact .inl rfl
    · rename_i user channel
      split at h
      · cases h; exact .inl rfl
      · rename_i hnew
        split at h
        · cases h; exact .inl rfl
        · rename_i hactive
          split at h
          · cases h; exact .inl rfl
          · rename_i hallowed
            split at h
            · cases h; exact .inl rfl
            · rename_i hpriced
              split at h
              · rename_i l n
                split at h
                · cases h
                rename_i share hshare
                split at h
                · cases h; exact .inl rfl
                · rename_i hnonzero
                  split at h
                  · cases h
                  rename_i account hsettles
                  refine .inr ⟨⟨sourceType, sourceId, user, l, n⟩, channel, account,
                    share, ⟨rfl, rfl⟩,
                    ⟨rfl, rfl⟩, rfl, rfl, ?_, not_not.1 hactive, not_not.1 hallowed,
                    Bool.not_eq_true _ ▸ hpriced, hshare, hnonzero, hsettles, h⟩
                  rintro a ha ⟨htype, hid⟩
                  rw [Bool.not_eq_true, Option.isSome_eq_false_iff,
                    Option.isNone_iff_eq_none] at hnew
                  have hnone := Table.find?_eq_none.1 hnew a ha
                  simp [htype, hid] at hnone
              · cases h; exact .inl rfl

/-- An accrual leaves the books, or posts one share. -/
theorem accrue_cases
    (h : m.accrue enabled sourceType sourceId list net customer attribution accrualId = .ok m') :
    m' = m ∨ ∃ p e, m.books.apply p = .ok (m'.books, e) ∧ p.referenceType = .partnerMargin
      ∧ p.idempotencyKey = marginKey sourceType sourceId := by
  rcases accrue_ok h with rfl | ⟨src, channel, account, share, hpays⟩
  · exact .inl rfl
  · obtain ⟨p, e, ha, _, _, htype, _, hkey, _⟩ := pay_cases hpays.pays
    rw [hpays.source.1, hpays.source.2] at hkey
    exact .inr ⟨p, e, ha, htype, hkey⟩

end Accruals

theorem accrue_side {c : SpendSettings} {s s' : SpendDb} {sourceType : SourceType}
    {sourceId : String} {list net : Option Dec} {customer : Option UserId} {d : PersistDraw}
    (account : Uuid) (h : s.accrue c sourceType sourceId list net customer d = .ok s') :
    Side account s s' := by
  unfold SpendDb.accrue at h
  obtain ⟨m, hm, h⟩ := bind_ok h
  cases h
  rcases accrue_cases hm with rfl | ⟨p, e, ha, htype, hkey⟩
  · exact Side.refl account s
  · exact ⟨rfl, rfl, rfl, fun hb => hb.apply ha,
      fun src => movementsOf_foreign ha (owns_margin src htype hkey), fun _ => id, fun _ => id,
      fun _ ht hn => absurd ht hn⟩

/-! ## The eSIMs of an order -/

theorem ensureInitialCredit_side {s s' : SpendDb} {esim : Esim} {o : Order} {package : Package}
    {pk : Uuid} (h : ensureInitialCredit s esim o package pk = .ok s') :
    Side esim.account s s' := by
  unfold ensureInitialCredit at h
  split at h
  · cases h; exact Side.refl _ s
  · split at h
    · cases h
    split at h
    · cases h
    split at h
    · cases h
    rename_i amount _ topups hi
    cases h
    refine ⟨rfl, rfl, rfl, id, fun _ => rfl, fun t ht => (Table.mem_insert hi).2 (.inl ht),
      fun _ => id, ?_⟩
    intro t ht hn
    rcases (Table.mem_insert hi).1 ht with ht | rfl
    · exact absurd ht hn
    · exact ⟨rfl, rfl, rfl, esim.id, rfl⟩

theorem createPurchased_side {s s' : SpendDb} {o : Order} {user : UserId} {package : Package}
    {guide : String} {sim : Airalo.OrderedSimDTO} {pk : Nat} {topupId : Uuid}
    (h : createPurchased s o user package guide sim pk topupId = .ok s') : Side o.account s s' := by
  unfold createPurchased at h
  split at h
  · cases h
  dsimp only at h
  split at h
  · cases h
  rename_i esims hi
  have hesim : Side o.account s { s with esims } :=
    ⟨rfl, rfl, rfl, id, fun _ => rfl, fun _ => id,
      fun e he => (Table.mem_insert hi).2 (.inl he), fun _ ht hn => absurd ht hn⟩
  exact hesim.trans (ensureInitialCredit_side h)

theorem createSims_side {s s' : SpendDb} {o : Order} {user : UserId} {package : Package}
    {guide : String} {d : PersistDraw} {n : Nat} {sims : List Airalo.OrderedSimDTO}
    (h : createSims s o user package guide d n sims = .ok s') : Side o.account s s' := by
  induction sims generalizing s n with
  | nil =>
    obtain rfl : s = s' := by simpa [createSims] using h
    exact Side.refl _ s
  | cons sim sims ih =>
    obtain ⟨s₁, hfirst, hrest⟩ := bind_ok h
    exact (createPurchased_side hfirst).trans (ih hrest)

/-! ## `OrderService` -/

section Orders

variable {c : SpendSettings} {s s' : SpendDb} {a : FulfillArgs} {d : Draw Nat} {o : Order}

/-- A replay gives back the row the look-up found, and it is settled. -/
theorem reserveOrder_replay (h : reserveOrder c s a d = .ok (s', .replay o)) :
    s' = s ∧ (if d.raced then none else s.orderOfKey (nonempty a.idempotencyKey)) = some o
      ∧ o.status ≠ .fulfilling := by
  unfold reserveOrder at h
  split at h
  · rename_i existing hfind
    split at h
    · cases h
    rename_i hstatus
    cases h
    exact ⟨rfl, hfind, hstatus⟩
  · obtain ⟨⟨charge, list⟩, _, h⟩ := bind_ok h
    dsimp only at h
    split at h
    · cases h
    split at h
    · cases h
    split at h
    · split at h <;> cases h
    · split at h
      · cases h
      obtain ⟨p, _, h⟩ := bind_ok h
      obtain ⟨⟨books, e⟩, _, h⟩ := bind_ok h
      cases h

/-- A reservation inserts a fulfilling row, and debits it unless it is free. -/
theorem reserveOrder_fresh (h : reserveOrder c s a d = .ok (s', .fresh o)) :
    ∃ orders, s.orders.insert? o = some orders ∧ o.account = a.spendAccount
      ∧ o.status = .fulfilling ∧ o.skipPayment = a.skipPayment
      ∧ ((a.skipPayment = true ∧ s' = { s with orders })
        ∨ (a.skipPayment = false ∧ ∃ p books e, s' = { s with orders, books }
            ∧ s.books.apply p = .ok (books, e)
            ∧ movementOf p = Purchase.debit (.order o.id) o.account
              (o.retailPriceUsd * 10000))) := by
  unfold reserveOrder at h
  split at h
  · split at h <;> cases h
  · obtain ⟨⟨charge, list⟩, _, h⟩ := bind_ok h
    dsimp only at h
    split at h
    · cases h
    split at h
    · cases h
    rename_i orders hi
    split at h
    · rename_i hskip
      split at h
      · cases h
      · cases h
        exact ⟨orders, hi, rfl, rfl, rfl, .inl ⟨hskip, rfl⟩⟩
    · rename_i hskip
      split at h
      · cases h
      obtain ⟨p, hp, h⟩ := bind_ok h
      obtain ⟨⟨books, e⟩, ha, h⟩ := bind_ok h
      cases h
      refine ⟨orders, hi, rfl, rfl, rfl, .inr ⟨by simpa using hskip, p, books, e, rfl, ha, ?_⟩⟩
      rw [movementOf_price hp, units_cents]
      rfl

/-- A compensation finds the row failed, or fails it and refunds it unless it is free. -/
theorem compensateOrder_cases {account : Uuid} {skip : Bool}
    (h : compensateOrder s o account skip = .ok s') :
    ∃ locked ∈ s.orders, locked.id = o.id
      ∧ ((locked.status = .failed ∧ s' = s)
        ∨ (locked.status ≠ .failed ∧ skip = true
          ∧ s' = s.saveOrder o.id failedOrder (fun _ _ h => h))
        ∨ (locked.status ≠ .failed ∧ skip = false ∧ ∃ p books e,
            s' = { s.saveOrder o.id failedOrder (fun _ _ h => h) with books }
            ∧ s.books.apply p = .ok (books, e)
            ∧ movementOf p
                = Purchase.refund (.order o.id) account (locked.retailPriceUsd * 10000))) := by
  unfold compensateOrder at h
  split at h
  · cases h
  rename_i locked hfind
  have hid : locked.id = o.id := by simpa using Table.prop_of_find? hfind
  refine ⟨locked, Table.mem_of_find? hfind, hid, ?_⟩
  split at h
  · rename_i hfailed
    cases h
    exact .inl ⟨hfailed, rfl⟩
  · rename_i hopen
    dsimp only at h
    split at h
    · rename_i hskip
      cases h
      exact .inr (.inl ⟨hopen, hskip, rfl⟩)
    · rename_i hskip
      obtain ⟨p, hp, h⟩ := bind_ok h
      obtain ⟨⟨books, e⟩, ha, h⟩ := bind_ok h
      cases h
      refine .inr (.inr ⟨hopen, by simpa using hskip, p, books, e, rfl, ha, ?_⟩)
      rw [movementOf_price hp, units_cents, hid]
      rfl

/-- A fulfilment saves its row, and the rest is beside it. -/
theorem persistOrder_cases {user : UserId} {package : Package} {r : Airalo.OrderResult}
    {d : PersistDraw} (h : persistOrder c s o user package r d = .ok s') :
    Side o.account (s.saveOrder o.id (fulfilledOrder r.externalOrderId) (fun _ _ h => h)) s' := by
  unfold persistOrder at h
  split at h
  · cases h
  · obtain ⟨s₂, hsims, h⟩ := bind_ok h
    exact (createSims_side hsims).trans (accrue_side o.account h)

end Orders

/-! ## `TopupService` -/

section Topups

variable {c : SpendSettings} {s s' : SpendDb} {a : PurchaseArgs} {package : Airalo.TopupPackage}
  {d : Draw Uuid} {t : Topup}

/-- A replay gives back the row the look-up found, and it is settled. -/
theorem reserveTopup_replay (h : reserveTopup c s a package d = .ok (s', .replay t)) :
    s' = s
      ∧ (if d.raced then none else s.topups.find? (·.idempotencyKey = a.idempotencyKey)) = some t
      ∧ t.status ≠ .fulfilling := by
  unfold reserveTopup at h
  split at h
  · cases h
  split at h
  · rename_i existing hfind
    split at h
    · cases h
    rename_i hstatus
    cases h
    exact ⟨rfl, hfind, hstatus⟩
  · split at h
    · cases h
    split at h
    · cases h
    obtain ⟨amount, _, h⟩ := bind_ok h
    obtain ⟨stored, _, h⟩ := bind_ok h
    split at h
    · cases h
    dsimp only at h
    split at h
    · cases h
    obtain ⟨p, _, h⟩ := bind_ok h
    obtain ⟨⟨books, e⟩, _, h⟩ := bind_ok h
    cases h

theorem one_le_nextSequence (s : SpendDb) (esim : Nat) : 1 ≤ nextSequence s esim := by
  unfold nextSequence
  induction s.topups.rows with
  | nil => exact Nat.le_refl 1
  | cons t ts ih =>
    rw [List.foldr_cons]
    split <;> omega

/-- The amount that is stored is the one that is debited. -/
theorem storedAmount_units {d : Dec} {a : Amount} (h : storedAmount d = some a) :
    a.micros = d.units 6 := by
  unfold storedAmount at h
  split at h
  · cases h
    rfl
  · cases h

theorem columns_stored {amount : PyDecimal} {stored : Amount}
    (h : a.columns package amount = .ok (some stored)) :
    ∃ d, amount = .finite d ∧ stored.micros = d.units 6 := by
  unfold PurchaseArgs.columns at h
  split at h
  · rename_i amount' _ _ hamount _ _
    split at h
    · refine ⟨amount', ?_, storedAmount_units (Except.ok.inj h)⟩
      cases amount with
      | finite d => rw [Option.some.inj hamount]
      | infinity _ => cases hamount
      | nan _ => cases hamount
    · cases h
  · cases h

theorem reserveTopup_fresh (h : reserveTopup c s a package d = .ok (s', .fresh t)) :
    ∃ topups p books e, s.topups.insert? t = some topups ∧ s' = { s with topups, books }
      ∧ s.books.apply p = .ok (books, e)
      ∧ movementOf p = Purchase.debit (.topup t.id) t.account t.amount.micros
      ∧ t.account = a.spendAccount ∧ t.status = .fulfilling ∧ 0 < t.sequence
      ∧ t.idempotencyKey = a.idempotencyKey ∧ t.createdAt = s.now := by
  unfold reserveTopup at h
  split at h
  · cases h
  split at h
  · split at h <;> cases h
  · split at h
    · cases h
    split at h
    · cases h
    obtain ⟨amount, _, h⟩ := bind_ok h
    obtain ⟨stored, hstored, h⟩ := bind_ok h
    split at h
    · cases h
    rename_i stored'
    dsimp only at h
    split at h
    · cases h
    rename_i topups hi
    obtain ⟨p, hp, h⟩ := bind_ok h
    obtain ⟨⟨books, e⟩, ha, h⟩ := bind_ok h
    obtain ⟨dec, hdec, hunits⟩ := columns_stored hstored
    rw [hdec] at hp
    cases h
    refine ⟨topups, p, books, e, hi, rfl, ha, ?_, rfl, rfl, one_le_nextSequence s _, rfl, rfl⟩
    rw [movementOf_price hp, ← hunits]
    rfl

theorem compensateTopup_cases {account : Uuid} (h : compensateTopup s t account = .ok s') :
    ∃ locked ∈ s.topups, locked.id = t.id
      ∧ ((locked.status = .failed ∧ s' = s)
        ∨ (locked.status ≠ .failed ∧ ∃ p books e,
            s' = { s.saveTopup t.id failedTopup (fun _ _ h => h) with books }
            ∧ s.books.apply p = .ok (books, e)
            ∧ movementOf p = Purchase.refund (.topup t.id) account locked.amount.micros)) := by
  unfold compensateTopup at h
  split at h
  · cases h
  rename_i locked hfind
  have hid : locked.id = t.id := by simpa using Table.prop_of_find? hfind
  refine ⟨locked, Table.mem_of_find? hfind, hid, ?_⟩
  split at h
  · rename_i hfailed
    cases h
    exact .inl ⟨hfailed, rfl⟩
  · rename_i hopen
    obtain ⟨p, hp, h⟩ := bind_ok h
    obtain ⟨⟨books, e⟩, ha, h⟩ := bind_ok h
    cases h
    refine .inr ⟨hopen, p, books, e, rfl, ha, ?_⟩
    rw [movementOf_price hp, Dec.units_ofUnits, hid]
    rfl

theorem persistTopup_cases {r : Airalo.TopupResult} {d : PersistDraw}
    (h : persistTopup c s t package r d = .ok s') :
    Side t.account (s.saveTopup t.id (fulfilledTopup r.externalOrderId) (fun _ _ h => h)) s' := by
  unfold persistTopup at h
  split at h
  · cases h
  · exact accrue_side t.account h

end Topups

end Roamkit.Spend.Proof
