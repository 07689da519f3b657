import Roamkit.Proof.SpendRun

/-!
# What holds of every run of purchases

Three things. The ledger is conserved: for each purchase there is its debit, and
its refund exactly when it failed. No refund is made on a reply the service could
read. And a call that returns or raises leaves its row settled, unless it was the
settling transaction itself that raised.
-/

namespace Roamkit.Spend.Proof

open Lib Billing Billing.Proof

/-! ## Replies that can be read -/

/-- The client and the mapper accept the reply to the request for a purchase. -/
def Readable (c : SpendSettings) (src : Source) (r : Airalo.HttpReply) : Prop :=
  match src with
  | .order _ => ∃ result, Airalo.placeOrder c.writer "" r = .ok result
  | .topup _ => ∃ result, Airalo.placeTopup c.writer "" r = .ok result

variable {w : Json.Writer} {payload : Json} {c : SpendSettings} {s s' : SpendDb} {row : Row}
  {t : SpendThread}

/-- A default that is a text is never what makes a field unreadable. -/
theorem textOr_default {key d : String} (d' : String) {x : String}
    (h : Airalo.textOr w payload key d = .ok x) :
    ∃ x', Airalo.textOr w payload key d' = .ok x' := by
  unfold Airalo.textOr Json.orElse at *
  by_cases ht : (payload.get key).truthy
  · rw [if_pos ht] at h ⊢
    exact ⟨x, h⟩
  · rw [if_neg ht]
    exact ⟨d', rfl⟩

/-- Whether an order can be read does not depend on the reference it was made under. -/
theorem mapOrder_ref {ref : String} (ref' : String) {r : Airalo.OrderResult}
    (h : Airalo.mapOrder w payload ref = .ok r) :
    ∃ r', Airalo.mapOrder w payload ref' = .ok r' := by
  unfold Airalo.mapOrder at h
  obtain ⟨u, h₁, h⟩ := bind_ok h
  obtain ⟨guide, h₂, h⟩ := bind_ok h
  obtain ⟨items, h₃, h⟩ := bind_ok h
  obtain ⟨sims, h₄, h⟩ := bind_ok h
  obtain ⟨external, h₅, h⟩ := bind_ok h
  obtain ⟨code, h₆, h⟩ := bind_ok h
  obtain ⟨package, h₇, h⟩ := bind_ok h
  obtain ⟨_, h₈, h⟩ := bind_ok h
  obtain ⟨x', h₈⟩ := textOr_default ref' h₈
  obtain ⟨currency, h₉, h⟩ := bind_ok h
  obtain ⟨price, h₁₀, h⟩ := bind_ok h
  obtain ⟨manual, h₁₁, h⟩ := bind_ok h
  obtain ⟨qrcode, h₁₂, h⟩ := bind_ok h
  unfold Airalo.mapOrder
  simp only [h₁, h₂, h₃, h₄, h₅, h₆, h₇, h₈, h₉, h₁₀, h₁₁, h₁₂, bind, Except.bind, pure,
    Except.pure]
  exact ⟨_, rfl⟩

/-- Whether a top-up can be read does not depend on the eSIM it is for. -/
theorem mapTopupResult_iccid {iccid : String} (iccid' : String) {r : Airalo.TopupResult}
    (h : Airalo.mapTopupResult w payload iccid = .ok r) :
    ∃ r', Airalo.mapTopupResult w payload iccid' = .ok r' := by
  unfold Airalo.mapTopupResult at h
  obtain ⟨u, h₁, h⟩ := bind_ok h
  obtain ⟨external, h₂, h⟩ := bind_ok h
  obtain ⟨code, h₃, h⟩ := bind_ok h
  obtain ⟨package, h₄, h⟩ := bind_ok h
  obtain ⟨currency, h₅, h⟩ := bind_ok h
  obtain ⟨price, h₆, h⟩ := bind_ok h
  obtain ⟨ref, h₇, h⟩ := bind_ok h
  unfold Airalo.mapTopupResult
  simp only [h₁, h₂, h₃, h₄, h₅, h₆, h₇, bind, Except.bind, pure, Except.pure]
  exact ⟨_, rfl⟩

/-- What a service reads of a reply, it reads exactly when the reply can be read. -/
theorem read_ok {w : Spending} {r : Airalo.HttpReply} :
    (∃ sale, w.read c r = .ok sale) ↔ Readable c w.source r := by
  cases w with
  | order a o =>
    constructor
    · intro ⟨sale, h⟩
      obtain ⟨result, h, _⟩ := bind_ok (f := fun r => .ok (Sale.order r)) h
      obtain ⟨payload, hp, hmap⟩ := bind_ok h
      obtain ⟨result', hmap'⟩ := mapOrder_ref "" hmap
      exact ⟨result', by rw [Airalo.placeOrder, hp]; exact hmap'⟩
    · intro ⟨result, h⟩
      obtain ⟨payload, hp, hmap⟩ := bind_ok h
      obtain ⟨result', hmap'⟩ := mapOrder_ref o.customerRef hmap
      have hplace : Airalo.placeOrder c.writer o.customerRef r = .ok result' := by
        rw [Airalo.placeOrder, hp]
        exact hmap'
      exact ⟨.order result', by rw [Spending.read, hplace]; rfl⟩
  | topup a package t =>
    constructor
    · intro ⟨sale, h⟩
      obtain ⟨result, h, _⟩ := bind_ok (f := fun r => .ok (Sale.topup r)) h
      obtain ⟨payload, hp, hmap⟩ := bind_ok h
      obtain ⟨result', hmap'⟩ := mapTopupResult_iccid "" hmap
      exact ⟨result', by rw [Airalo.placeTopup, hp]; exact hmap'⟩
    · intro ⟨result, h⟩
      obtain ⟨payload, hp, hmap⟩ := bind_ok h
      obtain ⟨result', hmap'⟩ := mapTopupResult_iccid a.esim.iccid hmap
      have hplace : Airalo.placeTopup c.writer a.esim.iccid r = .ok result' := by
        rw [Airalo.placeTopup, hp]
        exact hmap'
      exact ⟨.topup result', by rw [Spending.read, hplace]; rfl⟩

theorem unreadable_of_error {w : Spending} {r : Airalo.HttpReply} {e : Exc}
    (h : w.read c r = .error e) : ¬ Readable c w.source r := by
  intro hr
  obtain ⟨sale, hs⟩ := read_ok.2 hr
  rw [h] at hs
  cases hs

/-! ## The provider's book -/

/-- A row that was bought, unlike an initial credit. -/
def Bought : Row → Prop
  | .order _ => True
  | .topup t => 0 < t.sequence

/-- The status of a row is one its provider's reply allows. -/
def Backed (c : SpendSettings) (s : SpendDb) (row : Row) : Prop :=
  (row.purchase.status = .failed →
      ∃ x, s.provider row.source = some x ∧ ¬ Readable c row.source x.reply)
    ∧ (row.purchase.status = .fulfilled → Bought row →
      ∃ x, s.provider row.source = some x ∧ Readable c row.source x.reply)

theorem backed_of_fulfilling (h : row.purchase.status = .fulfilling) : Backed c s row := by
  refine ⟨?_, ?_⟩
  · intro hf
    rw [h] at hf
    cases hf
  · intro hf
    rw [h] at hf
    cases hf

theorem backed_of_credit {account : Uuid} {t : Topup} (h : IsCredit account t) :
    Backed c s (.topup t) := by
  obtain ⟨hzero, _, hstatus, _⟩ := h
  refine ⟨?_, ?_⟩
  · intro hf
    simp [Row.purchase, Topup.purchase, hstatus, TopupStatus.toOrder] at hf
  · intro _ hb
    simp [Bought, hzero] at hb

theorem Backed.congr (h : Backed c s row)
    (hp : s'.provider row.source = s.provider row.source) : Backed c s' row := by
  unfold Backed
  rw [hp]
  exact h

/-- What a call knows of the provider's reply. -/
def Answered (c : SpendSettings) (s : SpendDb) (t : SpendThread) : Prop :=
  match t.pc with
  | .persisting w _ => ∃ x, s.provider w.source = some x ∧ Readable c w.source x.reply
  | .compensating w _ => ∃ x, s.provider w.source = some x ∧ ¬ Readable c w.source x.reply
  | _ => True

/-- A step writes the provider's book only where it asks for its own row. -/
theorem provider_of_move {pc : SpendPc} (h : SpendInv s) (hL : SpendLocal s t)
    (hm : SpendMove c s t s' pc) :
    s'.provider = s.provider ∨ ∃ w x, t.pc = .requesting w ∧ s' = s.record w.source x := by
  have hphase := hL.phase
  cases hm with
  | transfers _ _ ht =>
    rcases transferEsim_cases ht with rfl | ⟨_, rfl⟩
    · exact .inl rfl
    · exact .inl rfl
  | replaysOrder _ _ hr =>
    obtain ⟨rfl, _⟩ := reserveOrder_replay hr
    exact .inl rfl
  | replaysTopup _ hr =>
    obtain ⟨rfl, _⟩ := reserveTopup_replay hr
    exact .inl rfl
  | opensOrder _ _ hr => exact .inl (effect_openOrder h hr).1.writes.provider
  | opensTopup _ hr => exact .inl (effect_openTopup h hr).1.writes.provider
  | sells hpc _ => exact .inr ⟨_, _, hpc, rfl⟩
  | fails hpc _ => exact .inr ⟨_, _, hpc, rfl⟩
  | @persists w _ _ _ _ hpc hp =>
    rw [hpc] at hphase
    exact .inl (effect_persist h (hL.stored w.row (by rw [hpc]; rfl)) hphase.2 hp).1.writes.provider
  | @compensates w _ _ _ hpc hp =>
    rw [hpc] at hphase
    exact .inl (effect_compensate h (hL.stored w.row (by rw [hpc]; rfl)) hphase.2 hphase.1
      hp).1.writes.provider
  | _ => exact .inl rfl

/-- The provider's book at the sources of the other calls stays as it is. -/
theorem provider_kept {pc : SpendPc} (h : SpendInv s) (hL : SpendLocal s t)
    (hm : SpendMove c s t s' pc) {src : Source} (hne : ∀ r, own t.pc = some r → r.source ≠ src) :
    s'.provider src = s.provider src := by
  rcases provider_of_move h hL hm with heq | ⟨w, x, hpc, rfl⟩
  · rw [heq]
  · refine Function.update_of_ne ?_ _ _
    exact Ne.symm (hne w.row (by rw [hpc]; rfl))

/-- The row a step comes to own has a status its provider's reply allows. -/
theorem backed_own {t' : SpendThread} (h : SpendInv s) (hL : SpendLocal s t) (hA : Answered c s t)
    (hm : SpendMove c s t s' t'.pc) (he : StepEffect s t s' t')
    (hown : own t'.pc = some row) : Backed c s' row := by
  have hphase := hL.phase
  have hphase' := he.local'.phase
  obtain ⟨call, pc⟩ := t'
  dsimp only at hm hown hphase'
  have hbook := provider_of_move h hL hm
  cases hm with
  | @persists w sale d row' _ hpc hp =>
    cases hown
    rw [hpc] at hphase
    obtain ⟨_, hsrc, hpur⟩ := effect_persist h (hL.stored w.row (by rw [hpc]; rfl)) hphase.2 hp
    unfold Answered at hA
    rw [hpc] at hA
    refine ⟨?_, ?_⟩
    · intro hf
      rw [hpur] at hf
      cases hf
    · intro _ _
      rcases hbook with hbook | ⟨_, _, hpc', _⟩
      · rw [hbook, hsrc]
        exact hA
      · rw [hpc] at hpc'
        cases hpc'
  | @compensates w e row' _ hpc hp =>
    cases hown
    rw [hpc] at hphase
    obtain ⟨_, hsrc, hpur⟩ :=
      effect_compensate h (hL.stored w.row (by rw [hpc]; rfl)) hphase.2 hphase.1 hp
    unfold Answered at hA
    rw [hpc] at hA
    refine ⟨?_, ?_⟩
    · intro _
      rcases hbook with hbook | ⟨_, _, hpc', _⟩
      · rw [hbook, hsrc]
        exact hA
      · rw [hpc] at hpc'
        cases hpc'
    · intro hf
      rw [hpur] at hf
      cases hf
  | opensOrder _ _ _ => cases hown; exact backed_of_fulfilling hphase'.2
  | opensTopup _ _ => cases hown; exact backed_of_fulfilling hphase'.2
  | sells _ _ => cases hown; exact backed_of_fulfilling hphase'.2
  | fails _ _ => cases hown; exact backed_of_fulfilling hphase'.2
  | crashes _ => cases hown; exact backed_of_fulfilling hphase'
  | abandons _ => cases hown; exact backed_of_fulfilling hphase'
  | _ => cases hown

/-- Every row has a status its provider's reply allows. -/
def ProviderInv (c : SpendSettings) (s : SpendDb) : Prop := ∀ row, Stored s row → Backed c s row

theorem providerInv_step {t' : SpendThread} (h : SpendInv s) (hp : ProviderInv c s)
    (hL : SpendLocal s t) (hA : Answered c s t) (hm : SpendMove c s t s' t'.pc)
    (he : StepEffect s t s' t') :
    ProviderInv c s' ∧ Answered c s' t' := by
  refine ⟨?_, ?_⟩
  · intro row hrow
    rcases he.only row hrow with hold | hown | ⟨_, u, _, rfl, hcredit⟩
    · by_cases hown : own t'.pc = some row
      · exact backed_own h hL hA hm he hown
      · rcases provider_of_move h hL hm with heq | ⟨w, x, hpc, rfl⟩
        · exact (hp row hold).congr (by rw [heq])
        · -- the book is written for the row in flight, which is still fulfilling
          by_cases hsrc : row.source = w.source
          · have hw := hL.stored w.row (by rw [hpc]; rfl)
            have hphase := hL.phase
            rw [hpc] at hphase
            rw [hold.eq hw hsrc]
            exact backed_of_fulfilling hphase.2
          · exact (hp row hold).congr (Function.update_of_ne hsrc _ _)
    · exact backed_own h hL hA hm he hown
    · exact backed_of_credit hcredit
  · obtain ⟨call, pc⟩ := t'
    cases hm with
    | @sells w x sale _ hread => exact ⟨x, Function.update_self _ _ _, read_ok.1 ⟨sale, hread⟩⟩
    | @fails w x e _ hread => exact ⟨x, Function.update_self _ _ _, unreadable_of_error hread⟩
    | _ => trivial

/-- What a call knows of its reply is not disturbed by another call. -/
theorem Answered.frame {u : SpendThread} (hA : Answered c s u)
    (hkept : ∀ row, own u.pc = some row → s'.provider row.source = s.provider row.source) :
    Answered c s' u := by
  obtain ⟨call, pc⟩ := u
  cases pc with
  | persisting w sale =>
    unfold Answered at hA ⊢
    dsimp only at hA ⊢
    rw [show s'.provider w.source = s.provider w.source from hkept w.row rfl]
    exact hA
  | compensating w e =>
    unfold Answered at hA ⊢
    dsimp only at hA ⊢
    rw [show s'.provider w.source = s.provider w.source from hkept w.row rfl]
    exact hA
  | _ => trivial

/-! ## Every run -/

/-- Accounts without entries; no order and no top-up. -/
structure FreshSpend (s : SpendDb) : Prop where
  books : Books.Fresh s.books
  orders : s.orders.rows = []
  topups : s.topups.rows = []

theorem not_stored_fresh (h : FreshSpend s) (row : Row) : ¬ Stored s row := by
  intro hrow
  cases row with
  | order o =>
    rw [stored_order, Table.mem_def, h.orders] at hrow
    cases hrow
  | topup t =>
    rw [stored_topup, Table.mem_def, h.topups] at hrow
    cases hrow

theorem spendInv_init (h : FreshSpend s) : SpendInv s := by
  refine ⟨booksInv_init h.books, ?_⟩
  intro src
  have hnone : s.purchase? src = none := by
    cases src with
    | order n => simp [SpendDb.purchase?, Table.find?, h.orders]
    | topup u => simp [SpendDb.purchase?, Table.find?, h.topups]
  rw [movements_none hnone, movementsOf, h.books.entries]
  rfl

theorem spendLocal_start (s : SpendDb) (call : SpendCall) : SpendLocal s ⟨call, .asked⟩ := by
  refine ⟨?_, trivial, trivial, ?_⟩
  · intro row hrow
    cases hrow
  · intro row hrow
    cases hrow

/-- **The invariant of concurrent purchases.** -/
theorem spendInvariant (c : SpendSettings) :
    Invariant (spendProgram c) FreshSpend (fun _ _ _ => True)
      (fun s => SpendInv s ∧ ProviderInv c s)
      (fun s t => SpendLocal s t ∧ Answered c s t) SpendApart where
  init := fun h => ⟨spendInv_init h, fun row hrow => absurd hrow (not_stored_fresh h row)⟩
  start := fun call _ => ⟨spendLocal_start _ call, trivial⟩
  apart_start := by
    intro call t row row' hrow
    cases hrow
  symm := fun h row row' hr hr' => Ne.symm (h row' row hr' hr)
  step := by
    intro s t x s' t' ⟨h, hp⟩ ⟨hL, hA⟩ _ hs
    obtain ⟨hm, hcall⟩ := spendStep_move hs
    have he := stepEffect h hL hm hcall
    obtain ⟨hp', hA'⟩ := providerInv_step h hp hL hA hm he
    exact ⟨⟨he.inv, hp'⟩, he.local', hA'⟩
  frame := by
    intro s t x s' t' u ⟨h, hp⟩ ⟨hL, hA⟩ _ hs ⟨hLu, hAu⟩ hR
    obtain ⟨hm, hcall⟩ := spendStep_move hs
    have he := stepEffect h hL hm hcall
    refine ⟨⟨⟨?_, hLu.phase, hLu.call, hLu.account⟩, ?_⟩, ?_⟩
    · intro row hrow
      exact he.kept row (hLu.stored row hrow) fun r hr => hR r row hr hrow
    · exact hAu.frame fun row hrow => provider_kept h hL hm fun r hr => hR r row hr hrow
    · -- a row that is newly owned was not in the table, where the other's row is
      intro row' row hrow' hrow hsrc
      rcases he.owns row' hrow' with ⟨r, hr, hsame⟩ | hnone
      · exact hR r row hr hrow (hsame.trans hsrc)
      · rw [hsrc, (hLu.stored row hrow).purchase?] at hnone
        cases hnone

end Roamkit.Spend.Proof
