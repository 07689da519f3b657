import Roamkit.Proof.Spend

/-!
# Purchases are conserved

What a customer can rely on, read off the invariant of concurrent purchases, and
two things a customer might expect and cannot: that a refund means the provider
did not sell, and that no row is left fulfilling.
-/

namespace Roamkit.Spend.Proof

open Lib Billing Billing.Proof

variable (g : Config SpendDb SpendThread) {c : SpendSettings} {s : SpendDb} {row : Row}

theorem spend_holds {g : Config SpendDb SpendThread} (h : (spendProgram c).Reach FreshSpend g) :
    g.Holds (fun s => SpendInv s ∧ ProviderInv c s) (fun s t => SpendLocal s t ∧ Answered c s t)
      SpendApart := (spendInvariant c).reach h

/-! ## The ledger -/

/-- The ledger holds for every row what its status says, and nothing else. -/
structure SpendSound (s : SpendDb) : Prop where
  /-- A paid order has one debit of its price, and one refund of the same exactly when it failed. -/
  paid : ∀ o ∈ s.orders, o.skipPayment = false →
    movementsOf s.books (.order o.id) =
      ⟨o.account, -(o.retailPriceUsd * 10000), .order, toString o.id,
        "order-debit:" ++ toString o.id⟩ ::
        if o.status = .failed then
          [⟨o.account, o.retailPriceUsd * 10000, .refund, toString o.id,
            "order-refund:" ++ toString o.id⟩]
        else []
  /-- A free order has no entry. -/
  free : ∀ o ∈ s.orders, o.skipPayment = true → movementsOf s.books (.order o.id) = []
  /-- A purchased top-up has one debit of its amount, and one refund exactly when it failed. -/
  topup : ∀ t ∈ s.topups, 0 < t.sequence →
    movementsOf s.books (.topup t.id) =
      ⟨t.account, -t.amount.micros, .topup, t.id.str, "topup-debit:" ++ t.id.str⟩ ::
        if t.status = .failed then
          [⟨t.account, t.amount.micros, .refund, t.id.str, "topup-refund:" ++ t.id.str⟩]
        else []
  /-- Nothing that is fulfilled is refunded. -/
  unrefunded : ∀ row, Stored s row → row.purchase.status = .fulfilled → ∀ e ∈ s.books.entries,
    e.referenceType = .refund → e.referenceId ≠ row.source.reference

theorem failed_iff {t : TopupStatus} : t.toOrder = .failed ↔ t = .failed := by
  cases t <;> simp [TopupStatus.toOrder]

/-- The movements of a row that did not fail hold no refund. -/
theorem no_refund (h : SpendInv s) (hrow : Stored s row) (hs : row.purchase.status ≠ .failed) :
    ∀ m ∈ movementsOf s.books row.source, m.referenceType ≠ .refund := by
  intro m hm
  rw [h.conserved, movements_some hrow.purchase?, movements_open hs] at hm
  obtain ⟨charge, _, rfl⟩ := Option.map_eq_some_iff.1 (Option.mem_toList.1 hm)
  cases row <;> exact nofun

/-- The movements of a row that failed hold its refund, if it was charged. -/
theorem has_refund (h : SpendInv s) (hrow : Stored s row) (hs : row.purchase.status = .failed)
    {charge : Int} (hc : row.purchase.charge = some charge) :
    Purchase.refund row.source row.purchase.account charge ∈ movementsOf s.books row.source := by
  rw [h.conserved, movements_some hrow.purchase?, Purchase.movements, hc]
  simp [hs]

/-- An entry under the reference of a row is among its movements. -/
theorem mem_movementsOf {b : Books} {src : Source} {e : CreditLedgerEntry} (he : e ∈ b.entries)
    (htype : isSpendType e.referenceType = true) (href : e.referenceId = src.reference) :
    movement e ∈ movementsOf b src := by
  refine List.mem_filter.2 ⟨List.mem_map_of_mem he, ?_⟩
  simp [Source.owns, movement, htype, href]

theorem SpendInv.sound (h : SpendInv s) : SpendSound s := by
  refine ⟨?_, ?_, ?_, ?_⟩
  · intro o ho hpaid
    rw [h.conserved, movements_some (purchase?_order ho), Purchase.movements]
    simp [Order.purchase, Order.charge, hpaid, Purchase.debit, Purchase.refund,
      Source.referenceType, Source.reference, Source.debitKey, Source.refundKey]
  · intro o ho hfree
    rw [h.conserved, movements_some (purchase?_order ho), Purchase.movements]
    simp [Order.purchase, Order.charge, hfree]
  · intro t ht hseq
    rw [h.conserved, movements_some (purchase?_topup ht), Purchase.movements]
    simp [Topup.purchase, Topup.charge, Nat.ne_of_gt hseq, Purchase.debit, Purchase.refund,
      Source.referenceType, Source.reference, Source.debitKey, Source.refundKey, failed_iff]
  · intro row hrow hs e he htype href
    refine no_refund h hrow ?_ (movement e) (mem_movementsOf he (by rw [htype]; rfl) href) htype
    rw [hs]
    decide

/--
**Every purchase is conserved.** After any run of concurrent purchases, with
failures and crashes at any step, the ledger holds for each paid order and each
purchased top-up one debit of the stored charge on its account, and one refund of
the same exactly when it failed; for a free order it holds nothing.
-/
theorem spend_sound {c : SpendSettings} {g : Config SpendDb SpendThread}
    (h : (spendProgram c).Reach FreshSpend g) : SpendSound g.store := (spend_holds h).store.1.sound

/-! ## An order that times out -/

/-- No float, list or object is written in what follows. -/
def plainWriter : Json.Writer := ⟨fun _ => "", fun _ => "", fun _ => ""⟩

def spendSettings : SpendSettings := ⟨true, false, true, plainWriter⟩

/-- Two accounts, and nothing sold yet. -/
def noPurchases : SpendDb := ⟨twoAccounts, .empty, .empty, .empty, .empty, fun _ => none, 0⟩

theorem freshSpend_noPurchases : FreshSpend noPurchases := ⟨fresh_twoAccounts, rfl, rfl⟩

theorem voucher_key_ne (code : String) : "voucher:" ++ code ≠ "" := by
  intro h
  have hlen := congrArg String.length h
  have hbegins : "voucher:".length = 8 := by decide
  have hempty : "".length = 0 := rfl
  rw [String.length_append] at hlen
  omega

/-- A voucher of a hundred for an account. -/
def voucher (account : Uuid) (code : String) : ForeignPosting where
  posting := ⟨account, ⟨100000000, by decide, by decide⟩, true, .voucher, code, "voucher:" ++ code,
    voucher_key_ne code⟩
  notSpend := rfl
  notKey := by
    intro src
    cases src <;> exact ⟨ne_of_parts (by decide) _ _, ne_of_parts (by decide) _ _⟩

/-- Alice has a hundred. -/
def funded : List (Act SpendCall SpendInput) := [.call 0 (.post (voucher alice "v")), .tick 0 .go]

/-- An order of twenty-five for Alice. -/
def aliceOrder : SpendCall :=
  .fulfill ⟨7, alice, ⟨"pkg", 2500, some 500⟩, none, false, some "key", none⟩

/-- The provider takes the order, and the connection times out before it says so. -/
def timedOut : List (Act SpendCall SpendInput) :=
  funded ++ [.call 1 aliceOrder, .tick 1 (.order ⟨1, false, none⟩),
    .tick 1 (.answer ⟨true, .urlError "timed out"⟩), .tick 1 .go]

/-- Alice's order is failed, its debit refunded, and the provider had accepted it. -/
def isRefunded : Bool :=
  g.store.orders.rows.any (fun o => o.status = .failed && o.id = 1 && o.account = alice
    && !o.skipPayment && o.retailPriceUsd = 2500)
    && (g.store.provider (.order 1)).any fun x => x.accepted

theorem timedOut_refunded :
    ∃ g, (spendProgram spendSettings).Reach FreshSpend g ∧ isRefunded g = true := by
  obtain ⟨g, hr, hg⟩ :=
    Program.run_check (spendProgram spendSettings) noPurchases timedOut isRefunded (by decide)
  exact ⟨g, Program.reach_run freshSpend_noPurchases hr, hg⟩

theorem spend_sound_timedOut :
    ∃ g, (spendProgram spendSettings).Reach FreshSpend g ∧ isRefunded g = true
      ∧ SpendSound g.store := by
  obtain ⟨g, hr, hg⟩ := timedOut_refunded
  exact ⟨g, hr, hg, spend_sound hr⟩

/-! ## Refunds and the provider -/

/-- No purchase that the provider accepted is failed and refunded. -/
def RefundMeansUnsold (s : SpendDb) : Prop :=
  ∀ row x, Stored s row → s.provider row.source = some x → x.accepted = true →
    ¬ (row.purchase.status = .failed
      ∧ ∃ m ∈ movementsOf s.books row.source, m.referenceType = .refund)

/-- An order that timed out is refunded though the provider had accepted it. -/
theorem timedOut_sold :
    ¬ ∀ c g, (spendProgram c).Reach FreshSpend g → RefundMeansUnsold g.store := by
  intro h
  obtain ⟨g, hr, hg⟩ := timedOut_refunded
  rw [isRefunded, Bool.and_eq_true] at hg
  obtain ⟨o, ho, hcheck⟩ := List.any_eq_true.1 hg.1
  obtain ⟨x, hx, hacc⟩ := (Option.any_eq_true _ _).1 hg.2
  simp only [Bool.and_eq_true, decide_eq_true_eq, Bool.not_eq_true'] at hcheck
  obtain ⟨⟨⟨⟨hstatus, hid⟩, _⟩, hpaid⟩, _⟩ := hcheck
  rw [← hid] at hx
  have hrow : Stored g.store (.order o) := ho
  have hcharge : (Row.order o).purchase.charge = some (o.retailPriceUsd * 10000) := by
    simp [Row.purchase, Order.purchase, Order.charge, hpaid]
  exact h _ g hr (.order o) x hrow hx hacc
    ⟨hstatus, _, has_refund (spend_holds hr).store.1 hrow hstatus hcharge, rfl⟩

/-- The client accepts an empty body and a JSON object, and nothing else. -/
theorem request_ok {method path : String} {r : Airalo.HttpReply} {payload : Json}
    (h : Airalo.request method path r = .ok payload) :
    r = .empty ∨ ∃ kvs, r = .json (.dict kvs) := by
  cases r with
  | empty => exact .inl rfl
  | json body =>
    cases body with
    | dict kvs => exact .inr ⟨kvs, rfl⟩
    | _ => cases h
  | _ => cases h

theorem readable_object {src : Source} {r : Airalo.HttpReply} (h : Readable c src r) :
    r = .empty ∨ ∃ kvs, r = .json (.dict kvs) := by
  cases src with
  | order n =>
    obtain ⟨_, h⟩ := h
    obtain ⟨_, h, _⟩ := bind_ok h
    obtain ⟨_, h, _⟩ := bind_ok h
    exact request_ok h
  | topup u =>
    obtain ⟨_, h⟩ := h
    obtain ⟨_, h, _⟩ := bind_ok h
    obtain ⟨_, h, _⟩ := bind_ok h
    exact request_ok h

/--
**A refund implies the reply could not be read.** A row is failed only when the
client or the mapper raised on the reply to its request; a purchase whose reply
they accept is neither failed nor refunded; and the client accepts nothing but an
empty body and a JSON object.
-/
theorem refund_only_unreadable {c : SpendSettings} {g : Config SpendDb SpendThread}
    (h : (spendProgram c).Reach FreshSpend g) {row : Row} (hrow : Stored g.store row) :
    (row.purchase.status = .failed →
        ∃ x, g.store.provider row.source = some x ∧ ¬ Readable c row.source x.reply)
      ∧ (∀ x, g.store.provider row.source = some x → Readable c row.source x.reply →
        row.purchase.status ≠ .failed
          ∧ ∀ m ∈ movementsOf g.store.books row.source, m.referenceType ≠ .refund)
      ∧ ∀ r, Readable c row.source r → r = .empty ∨ ∃ kvs, r = .json (.dict kvs) := by
  obtain ⟨hinv, hprov⟩ := (spend_holds h).store
  refine ⟨(hprov row hrow).1, ?_, fun r => readable_object⟩
  intro x hx hread
  have hopen : row.purchase.status ≠ .failed := by
    intro hf
    obtain ⟨y, hy, hunread⟩ := (hprov row hrow).1 hf
    rw [hx] at hy
    cases hy
    exact hunread hread
  exact ⟨hopen, no_refund hinv hrow hopen⟩

theorem refund_only_unreadable_timedOut :
    ∃ g o x, (spendProgram spendSettings).Reach FreshSpend g ∧ o ∈ g.store.orders
      ∧ o.status = .failed
      ∧ g.store.provider (.order o.id) = some x
      ∧ ¬ Readable spendSettings (.order o.id) x.reply := by
  obtain ⟨g, hr, hg⟩ := timedOut_refunded
  rw [isRefunded, Bool.and_eq_true] at hg
  obtain ⟨o, ho, hcheck⟩ := List.any_eq_true.1 hg.1
  simp only [Bool.and_eq_true, decide_eq_true_eq] at hcheck
  have hstatus : o.status = .failed := hcheck.1.1.1.1
  have hrow : Stored g.store (.order o) := ho
  obtain ⟨x, hx, hunread⟩ := (refund_only_unreadable hr hrow).1 hstatus
  exact ⟨g, o, x, hr, ho, hstatus, hx, hunread⟩

/-! ## Rows that are settled, and rows that are not -/

/-- The call has returned or raised, and not just vanished. -/
def Ended : SpendPc → Prop
  | .fulfilled _ => True
  | .refunded _ _ => True
  | .abandoned _ _ => True
  | _ => False

/-- Fulfilled, or failed and, if it was charged, refunded. -/
def Settled (s : SpendDb) (row : Row) : Prop :=
  row.purchase.status = .fulfilled
    ∨ (row.purchase.status = .failed ∧ ∀ charge, row.purchase.charge = some charge →
      Purchase.refund row.source row.purchase.account charge ∈ movementsOf s.books row.source)

/-- No call that returned or raised has left its row fulfilling. -/
def NothingStuck : Prop :=
  ∀ p t row, g.threads p = some t → Ended t.pc → own t.pc = some row →
    ∃ r, Stored g.store r ∧ r.source = row.source ∧ Settled g.store r

/-- The transaction a call is at raises: the database fails it, or one of its checks does. -/
def Raises (c : SpendSettings) (s : SpendDb) (pc : SpendPc) (x : SpendInput) : Prop :=
  match pc with
  | .persisting w sale => x = .fail ∨ ∃ d e, x = .persist d ∧ w.persist c s d sale = .error e
  | .compensating w _ => x = .fail ∨ (x = .go ∧ ∃ e, w.compensate s = .error e)
  | _ => False

/-- A step abandons a row exactly when the transaction that was to settle it raises. -/
theorem abandons_iff {s' : SpendDb} {t t' : SpendThread} {x : SpendInput}
    (hs : spendStep c s t x = some (s', t')) :
    (∃ row e, t'.pc = .abandoned row e) ↔ Raises c s t.pc x := by
  constructor
  · intro ⟨row, e, hpc'⟩
    obtain ⟨hm, _⟩ := spendStep_move hs
    rw [hpc'] at hm
    cases hm with
    | abandons hfrom =>
      obtain ⟨call, pc⟩ := t
      rcases hfrom with ⟨sale, hpc⟩ | ⟨e', hpc⟩
      · obtain rfl : pc = .persisting _ sale := hpc
        cases x with
        | fail => exact .inl rfl
        | persist d =>
          simp only [spendStep] at hs
          split at hs
          · rename_i herr
            exact .inr ⟨d, _, rfl, herr⟩
          · cases hs
            cases hpc'
        | crash => cases hs; cases hpc'
        | _ => cases hs
      · obtain rfl : pc = .compensating _ e' := hpc
        cases x with
        | fail => exact .inl rfl
        | go =>
          simp only [spendStep] at hs
          split at hs
          · rename_i herr
            exact .inr ⟨rfl, _, herr⟩
          · cases hs
            cases hpc'
        | crash => cases hs; cases hpc'
        | _ => cases hs
  · intro hr
    obtain ⟨call, pc⟩ := t
    cases pc with
    | persisting w sale =>
      rcases hr with rfl | ⟨d, e, rfl, herr⟩
      · cases hs
        exact ⟨_, _, rfl⟩
      · simp only [spendStep, herr] at hs
        cases hs
        exact ⟨_, _, rfl⟩
    | compensating w e' =>
      rcases hr with rfl | ⟨rfl, e, herr⟩
      · cases hs
        exact ⟨_, _, rfl⟩
      · simp only [spendStep, herr] at hs
        cases hs
        exact ⟨_, _, rfl⟩
    | _ => cases hr

/-- A call that ended by raising from the transaction that was to settle its row. -/
def Abandons : SpendPc → Prop
  | .abandoned _ _ => True
  | _ => False

/-- The row of a call that ended is settled, or the call abandoned it as it was reserved. -/
theorem ended_row {t : SpendThread} (h : SpendInv s) (hL : SpendLocal s t) (hend : Ended t.pc)
    (hown : own t.pc = some row) :
    Stored s row ∧ ((¬ Abandons t.pc ∧ Settled s row)
      ∨ (Abandons t.pc ∧ row.purchase.status = .fulfilling)) := by
  have hrow := hL.stored row hown
  have hphase := hL.phase
  refine ⟨hrow, ?_⟩
  obtain ⟨call, pc⟩ := t
  cases pc with
  | fulfilled r =>
    cases hown
    exact .inl ⟨fun h => h, .inl hphase⟩
  | refunded r e =>
    cases hown
    exact .inl ⟨fun h => h, .inr ⟨hphase, fun charge hc => has_refund h hrow hphase hc⟩⟩
  | abandoned r e =>
    cases hown
    exact .inr ⟨trivial, hphase⟩
  | _ => cases hend

/-- Where no settling transaction raises, no call abandons its row. -/
theorem abandons_invariant (c : SpendSettings) :
    Invariant (spendProgram c) FreshSpend (fun s t x => ¬ Raises c s t.pc x) (fun _ => True)
      (fun _ t => ¬ Abandons t.pc) (fun _ _ => True) where
  init := fun _ => trivial
  start := fun _ _ h => h
  apart_start := fun _ _ => trivial
  symm := fun _ => trivial
  step := by
    intro s t x s' t' _ _ hok hs
    refine ⟨trivial, fun habandons => hok ((abandons_iff hs).1 ?_)⟩
    obtain ⟨call, pc⟩ := t'
    cases pc with
    | abandoned row e => exact ⟨row, e, rfl⟩
    | _ => cases habandons
  frame := fun _ _ _ _ hu _ => ⟨hu, trivial⟩

/--
**Only the settling transaction leaves a row fulfilling.** A call that returned or
raised has left its row settled, but for one whose persisting or compensating
transaction raised: its row is fulfilling, debited and not refunded. In a run in
which no such transaction raises, nothing is stuck.
-/
theorem stuck_only_if_raised {c : SpendSettings} {g : Config SpendDb SpendThread}
    (h : (spendProgram c).Reach FreshSpend g) :
    (∀ p t row, g.threads p = some t → Ended t.pc → own t.pc = some row →
        Stored g.store row ∧ ((¬ Abandons t.pc ∧ Settled g.store row)
          ∨ (Abandons t.pc ∧ row.purchase.status = .fulfilling
            ∧ ∀ m ∈ movementsOf g.store.books row.source, m.referenceType ≠ .refund)))
      ∧ (∀ s t x s' t', spendStep c s t x = some (s', t') →
        ((∃ row e, t'.pc = .abandoned row e) ↔ Raises c s t.pc x))
      ∧ ((spendProgram c).ReachWhere FreshSpend (fun s t x => ¬ Raises c s t.pc x) g →
        NothingStuck g) := by
  have hold := spend_holds h
  refine ⟨?_, fun s t x s' t' hs => abandons_iff hs, ?_⟩
  · intro p t row ht hend hown
    obtain ⟨hrow, hcases⟩ := ended_row hold.store.1 (hold.thread p t ht).1 hend hown
    refine ⟨hrow, ?_⟩
    rcases hcases with hsettled | ⟨habandons, hstatus⟩
    · exact .inl hsettled
    · refine .inr ⟨habandons, hstatus, no_refund hold.store.1 hrow ?_⟩
      rw [hstatus]
      decide
  · intro hwhere p t row ht hend hown
    obtain ⟨hrow, hcases⟩ := ended_row hold.store.1 (hold.thread p t ht).1 hend hown
    have hnot : ¬ Abandons t.pc := ((abandons_invariant c).reach hwhere).thread p t ht
    rcases hcases with ⟨_, hsettled⟩ | ⟨habandons, _⟩
    · exact ⟨row, hrow, rfl, hsettled⟩
    · exact absurd habandons hnot

/-- A fulfilment for a customer of a partner whose settlement account cannot be told. -/
def unsettledPartner : PersistDraw where
  sim n := (n, alice)
  accountUser := none
  attribution := some ⟨bob, .individual, some 9, none, true, 5000, false,
    .error (.partnerSettlement "Individual PartnerChannel has no personal settlement Account")⟩
  accrualId := alice

/-- The provider sells, and the fulfilment raises on the partner's margin. -/
def marginRaises : List (Act SpendCall SpendInput) :=
  funded ++ [.call 1 aliceOrder, .tick 1 (.order ⟨1, false, none⟩),
    .tick 1 (.answer ⟨true, .empty⟩), .tick 1 (.persist unsettledPartner)]

/-- The call has raised, and the order it reserved is fulfilling. -/
def isStuck : Bool :=
  match g.threads 1 with
  | some ⟨_, .abandoned (.order o) _⟩ => o.status = .fulfilling && o.id = 1
  | _ => false

theorem marginRaises_isStuck :
    ∃ g, (spendProgram spendSettings).Reach FreshSpend g ∧ isStuck g = true := by
  obtain ⟨g, hr, hg⟩ :=
    Program.run_check (spendProgram spendSettings) noPurchases marginRaises isStuck (by decide)
  exact ⟨g, Program.reach_run freshSpend_noPurchases hr, hg⟩

/-- The call of `isStuck`. -/
theorem thread_of_isStuck {g : Config SpendDb SpendThread} (h : isStuck g = true) :
    ∃ call o e, g.threads 1 = some ⟨call, .abandoned (.order o) e⟩ ∧ o.status = .fulfilling := by
  unfold isStuck at h
  split at h
  · rename_i call o e ht
    simp only [Bool.and_eq_true, decide_eq_true_eq] at h
    exact ⟨call, o, e, ht, h.1⟩
  · cases h

/-- An order whose fulfilment raised stays fulfilling. -/
theorem marginRaises_stuck :
    ¬ ∀ c g, (spendProgram c).Reach FreshSpend g → NothingStuck g := by
  intro h
  obtain ⟨g, hr, hg⟩ := marginRaises_isStuck
  obtain ⟨call, o, e, ht, hstatus⟩ := thread_of_isStuck hg
  obtain ⟨r, hrow, hsrc, hsettled⟩ := h _ g hr 1 _ (.order o) ht trivial rfl
  have hstored := ((spend_holds hr).thread 1 _ ht).1.stored (.order o) rfl
  obtain rfl := hrow.eq hstored hsrc
  have hopen : (Row.order o).purchase.status = .fulfilling := hstatus
  rcases hsettled with hf | ⟨hf, _⟩
  · rw [hopen] at hf
    cases hf
  · rw [hopen] at hf
    cases hf

theorem stuck_only_if_raised_marginRaises :
    ∃ g t o, (spendProgram spendSettings).Reach FreshSpend g ∧ g.threads 1 = some t ∧ Abandons t.pc
      ∧ own t.pc = some (.order o) ∧ o.status = .fulfilling ∧ o ∈ g.store.orders
      ∧ ∀ m ∈ movementsOf g.store.books (.order o.id), m.referenceType ≠ .refund := by
  obtain ⟨g, hr, hg⟩ := marginRaises_isStuck
  obtain ⟨call, o, e, ht, hstatus⟩ := thread_of_isStuck hg
  obtain ⟨hrow, hcases⟩ := (stuck_only_if_raised hr).1 1 _ (.order o) ht trivial rfl
  rcases hcases with ⟨hnot, _⟩ | ⟨_, _, hunrefunded⟩
  · exact absurd trivial hnot
  · exact ⟨g, _, o, hr, ht, trivial, rfl, hstatus, hrow, hunrefunded⟩

end Roamkit.Spend.Proof
