import Roamkit.Lib.Fields
import Roamkit.Proof.Credit
import Roamkit.Spend.Program

/-!
# The ledger agrees with the purchases

To the ledger an order and a top-up are the same thing: a `Purchase` under a
`Source`. `SpendInv` says that the movements made for a source are the ones its
purchase calls for: nothing when there is none or it is free, the debit of its
charge, and the refund of the same once it has failed.

What a transaction may do to purchases and ledger together is little. It posts
for no purchase, it opens a purchase and debits it, it settles one for good, or it
fails one and refunds it. Each of these keeps the invariant, and each transaction
of the two services is one of them.
-/

namespace Roamkit.Spend.Proof

open Lib Billing Billing.Proof

/-! ## Keys and references -/

theorem order_reference_ne (n : Nat) (u : Uuid) : toString n ≠ u.str := by
  intro h
  have hdash := u.dash_mem
  rw [← h] at hdash
  exact absurd (isDigit_of_mem_toString hdash) (by decide)

variable {a b src : Source} {b' : Books} {e : CreditLedgerEntry} {o : Order} {orders : Table Order}
  {t : Topup} {topups : Table Topup}

theorem reference_inj (h : a.reference = b.reference) : a = b := by
  cases a with
  | order m =>
    cases b with
    | order n => rw [toString_nat_inj h]
    | topup u => exact absurd h (order_reference_ne m u)
  | topup u =>
    cases b with
    | order n => exact absurd h.symm (order_reference_ne n u)
    | topup v => rw [Uuid.ext h]

theorem debitKey_inj (h : a.debitKey = b.debitKey) : a = b := by
  cases a with
  | order m =>
    cases b with
    | order n => rw [toString_nat_inj ((String.append_right_inj _).1 h)]
    | topup u => exact absurd h (ne_of_parts (by decide) _ _)
  | topup u =>
    cases b with
    | order n => exact absurd h (ne_of_parts (by decide) _ _)
    | topup v => rw [Uuid.ext ((String.append_right_inj _).1 h)]

theorem refundKey_inj (h : a.refundKey = b.refundKey) : a = b := by
  cases a with
  | order m =>
    cases b with
    | order n => rw [toString_nat_inj ((String.append_right_inj _).1 h)]
    | topup u => exact absurd h (ne_of_parts (by decide) _ _)
  | topup u =>
    cases b with
    | order n => exact absurd h (ne_of_parts (by decide) _ _)
    | topup v => rw [Uuid.ext ((String.append_right_inj _).1 h)]

theorem debitKey_ne_refundKey (a b : Source) : a.debitKey ≠ b.refundKey := by
  cases a <;> cases b <;> exact ne_of_parts (by decide) _ _

/-- A movement of a source: its reference, and one of its two keys. -/
def Makes (src : Source) (m : Movement) : Prop :=
  (m.idempotencyKey = src.debitKey ∨ m.idempotencyKey = src.refundKey)
    ∧ m.referenceId = src.reference

theorem makes_debit (src : Source) (account : Uuid) (charge : Int) :
    Makes src (Purchase.debit src account charge) := ⟨.inl rfl, rfl⟩

theorem makes_refund (src : Source) (account : Uuid) (charge : Int) :
    Makes src (Purchase.refund src account charge) := ⟨.inr rfl, rfl⟩

/-- A movement of a source is for that source and no other. -/
theorem owns_iff {src' : Source} {m : Movement} (h : Makes src m) :
    src'.owns m = true ↔ src' = src := by
  obtain ⟨hkey, href⟩ := h
  unfold Source.owns
  simp only [Bool.or_eq_true, Bool.and_eq_true, decide_eq_true_eq]
  constructor
  · rintro ((h | h) | ⟨_, h⟩)
    · rcases hkey with hk | hk
      · exact debitKey_inj (h.symm.trans hk)
      · exact absurd (h.symm.trans hk) (debitKey_ne_refundKey _ _)
    · rcases hkey with hk | hk
      · exact absurd (hk.symm.trans h) (debitKey_ne_refundKey _ _)
      · exact refundKey_inj (h.symm.trans hk)
    · exact reference_inj (h.symm.trans href)
  · rintro rfl
    exact .inl hkey

/-! ## The movements of the books -/

/-- The movement a posting makes. -/
def movementOf (p : Posting) : Movement :=
  ⟨p.account, p.delta, p.referenceType, p.referenceId, p.idempotencyKey⟩

/-- A posting either replays, or adds its movement. -/
theorem movementsOf_apply {b : Books} {p : Posting} (src : Source) (h : b.apply p = .ok (b', e)) :
    movementsOf b' src = movementsOf b src
      ∨ movementsOf b' src = movementsOf b src ++ [movementOf p].filter src.owns := by
  rcases apply_cases h with ⟨rfl, _, _⟩ | ⟨row, _, _, rfl, _, _, hpost⟩
  · exact .inl rfl
  · right
    unfold movementsOf
    rw [(post_cases hpost).1, List.map_append, List.filter_append]
    rfl

/-- A posting for no purchase makes no purchase's movement. -/
theorem movementsOf_foreign {b : Books} {p : Posting} (h : b.apply p = .ok (b', e))
    (hp : src.owns (movementOf p) = false) :
    movementsOf b' src = movementsOf b src := by
  rcases movementsOf_apply src h with heq | heq
  · exact heq
  · rw [heq, List.filter_cons_of_neg (by simp [hp]), List.filter_nil, List.append_nil]

/-- A posting under an unused key of a source adds its movement. -/
theorem movementsOf_own {b : Books} {p : Posting} (h : b.apply p = .ok (b', e))
    (hp : src.owns (movementOf p) = true)
    (hnew : ∀ m ∈ movementsOf b src, m.idempotencyKey ≠ p.idempotencyKey)
    (hkey : p.idempotencyKey = src.debitKey ∨ p.idempotencyKey = src.refundKey) :
    movementsOf b' src = movementsOf b src ++ [movementOf p] := by
  rcases apply_cases h with ⟨_, he, hk⟩ | ⟨row, _, _, rfl, _, _, hpost⟩
  · -- the entry a replay gives back would be among the movements of the source
    refine absurd hk (hnew (movement e) ?_)
    refine List.mem_filter.2 ⟨List.mem_map_of_mem he, ?_⟩
    rcases hkey with hk' | hk' <;> simp [Source.owns, movement, hk, hk']
  · unfold movementsOf
    rw [(post_cases hpost).1, List.map_append, List.filter_append]
    exact congrArg _ (List.filter_cons_of_pos hp)

/-! ## The purchases of the database -/

section Purchases

variable {s : SpendDb}

theorem purchase?_insertOrder (h : s.orders.insert? o = some orders) (hsrc : src ≠ .order o.id) :
    ({ s with orders } : SpendDb).purchase? src = s.purchase? src := by
  cases src with
  | topup u => rfl
  | order n =>
    have hne : o.id ≠ n := fun heq => hsrc (by rw [heq])
    simp [SpendDb.purchase?, Table.find?_insert h, hne]

theorem purchase?_insertTopup (h : s.topups.insert? t = some topups) (hsrc : src ≠ .topup t.id) :
    ({ s with topups } : SpendDb).purchase? src = s.purchase? src := by
  cases src with
  | order n => rfl
  | topup u =>
    have hne : t.id ≠ u := fun heq => hsrc (by rw [heq])
    simp [SpendDb.purchase?, Table.find?_insert h, hne]

/-- An order is found by its id. -/
theorem findOrder (h : o ∈ orders) :
    orders.find? (·.id = o.id) = some o :=
  Table.find?_of_mem h (by simp) fun _ hx => .inl (by simpa using hx)

theorem findTopup (h : t ∈ topups) :
    topups.find? (·.id = t.id) = some t :=
  Table.find?_of_mem h (by simp) fun _ hx => .inl (by simpa using hx)

theorem purchase?_order (h : o ∈ s.orders) :
    s.purchase? (.order o.id) = some o.purchase := by
  rw [SpendDb.purchase?, findOrder h, Option.map_some]

theorem purchase?_topup (h : t ∈ s.topups) :
    s.purchase? (.topup t.id) = some t.purchase := by
  rw [SpendDb.purchase?, findTopup h, Option.map_some]

/-- A row that could be inserted was not there. -/
theorem purchase?_newOrder (h : s.orders.insert? o = some orders) :
    s.purchase? (.order o.id) = none := by
  have hnone : s.orders.find? (·.id = o.id) = none := by
    rw [Table.find?_eq_none]
    intro r hr hid
    exact Table.apart_of_insert h hr (.inl (by simpa using hid))
  rw [SpendDb.purchase?, hnone, Option.map_none]

theorem purchase?_newTopup (h : s.topups.insert? t = some topups) :
    s.purchase? (.topup t.id) = none := by
  have hnone : s.topups.find? (·.id = t.id) = none := by
    rw [Table.find?_eq_none]
    intro r hr hid
    exact Table.apart_of_insert h hr (.inl (by simpa using hid))
  rw [SpendDb.purchase?, hnone, Option.map_none]

theorem purchase?_saveOrder {id : Nat} {f : Order → Order} {hf : Table.Keeps f}
    (hid : ∀ o, (f o).id = o.id) (hsrc : src ≠ .order id) :
    (s.saveOrder id f hf).purchase? src = s.purchase? src := by
  cases src with
  | topup u => rfl
  | order n =>
    have hne : n ≠ id := fun heq => hsrc (by rw [heq])
    rw [SpendDb.purchase?, SpendDb.saveOrder,
      Table.find?_update _ _ _ _ _ (fun o => by rw [hid]), SpendDb.purchase?]
    cases hfind : s.orders.find? (·.id = n) with
    | none => rfl
    | some o =>
      have ho : o.id = n := by simpa using Table.prop_of_find? hfind
      rw [Option.map_some, rewrite_neg f (by simp [ho, hne])]

theorem purchase?_saveTopup {id : Uuid} {f : Topup → Topup} {hf : Table.Keeps f}
    (hid : ∀ t, (f t).id = t.id) (hsrc : src ≠ .topup id) :
    (s.saveTopup id f hf).purchase? src = s.purchase? src := by
  cases src with
  | order n => rfl
  | topup u =>
    have hne : u ≠ id := fun heq => hsrc (by rw [heq])
    rw [SpendDb.purchase?, SpendDb.saveTopup,
      Table.find?_update _ _ _ _ _ (fun t => by rw [hid]), SpendDb.purchase?]
    cases hfind : s.topups.find? (·.id = u) with
    | none => rfl
    | some t =>
      have ht : t.id = u := by simpa using Table.prop_of_find? hfind
      rw [Option.map_some, rewrite_neg f (by simp [ht, hne])]

theorem purchase?_savedOrder {f : Order → Order} {hf : Table.Keeps f} (hid : ∀ o, (f o).id = o.id)
    (h : o ∈ s.orders) :
    (s.saveOrder o.id f hf).purchase? (.order o.id) = some (f o).purchase := by
  rw [SpendDb.purchase?, SpendDb.saveOrder,
    Table.find?_update _ _ _ _ _ (fun r => by rw [hid]), findOrder h, Option.map_some,
    rewrite_pos f (by simp), Option.map_some]

theorem purchase?_savedTopup {f : Topup → Topup} {hf : Table.Keeps f} (hid : ∀ t, (f t).id = t.id)
    (h : t ∈ s.topups) :
    (s.saveTopup t.id f hf).purchase? (.topup t.id) = some (f t).purchase := by
  rw [SpendDb.purchase?, SpendDb.saveTopup,
    Table.find?_update _ _ _ _ _ (fun r => by rw [hid]), findTopup h, Option.map_some,
    rewrite_pos f (by simp), Option.map_some]

end Purchases

/-! ## The invariant -/

/-- The books are sound, and hold for each source what its purchase calls for. -/
structure SpendInv (s : SpendDb) : Prop where
  books : BooksInv s.books
  conserved : ∀ src, movementsOf s.books src = s.movements src

/-- What a transaction may do to the purchases and the ledger; `src` is the purchase it is about. -/
inductive Transfer (s s' : SpendDb) : Prop
  /-- Nothing, or postings for no purchase. -/
  | aside : BooksInv s'.books → (∀ src, movementsOf s'.books src = movementsOf s.books src) →
      (∀ src, s'.movements src = s.movements src) → Transfer s s'
  /-- One posting, which the purchase of its source now calls for. -/
  | posts {src : Source} {p : Posting} {e : CreditLedgerEntry} :
      s.books.apply p = .ok (s'.books, e) → Makes src (movementOf p) →
      (∀ m ∈ s.movements src, m.idempotencyKey ≠ p.idempotencyKey) →
      s'.movements src = s.movements src ++ [movementOf p] →
      (∀ src', src' ≠ src → s'.movements src' = s.movements src') → Transfer s s'

/-- **A transaction keeps the ledger and the purchases in agreement.** -/
theorem SpendInv.transfer {s s' : SpendDb} (h : SpendInv s) (ht : Transfer s s') : SpendInv s' := by
  cases ht with
  | aside hbooks hmov hpur =>
    refine ⟨hbooks, ?_⟩
    intro src
    rw [hmov, hpur, h.conserved]
  | @posts src p e happly hmakes hnew hsrc hother =>
    refine ⟨h.books.apply happly, ?_⟩
    intro src'
    by_cases heq : src' = src
    · subst heq
      rw [movementsOf_own happly ((owns_iff hmakes).2 rfl) ?_ hmakes.1, h.conserved, hsrc]
      rw [h.conserved]
      exact hnew
    · rw [movementsOf_foreign happly ?_, h.conserved, hother src' heq]
      rw [Bool.eq_false_iff]
      exact fun ho => heq ((owns_iff hmakes).1 ho)

end Roamkit.Spend.Proof
