import Roamkit.Proof.Isolation

/-!
# Who owns the eSIM of a top-up

A top-up is reserved while the account it is for owns the eSIM, and an eSIM is not
handed on while one of its top-ups is fulfilling. So whatever is debited for a
top-up is debited to the owner, and the owner stays while the purchase is in flight.
-/

namespace Roamkit.Spend.Proof

open Lib Billing Billing.Proof

/-! ## What a step does to a row in hand, and to the eSIMs -/

variable {c : SpendSettings} {s s' : SpendDb} {t t' : SpendThread}

/-- A reservation is for the account that owns the eSIM. -/
theorem reserveTopup_owner {a : PurchaseArgs} {package : Airalo.TopupPackage} {d : Draw Uuid}
    {u : Topup} (h : reserveTopup c s a package d = .ok (s', .fresh u)) :
    s'.esims = s.esims ∧ u.account = a.spendAccount ∧ u.esim = a.esim.id
      ∧ ∃ e ∈ s.esims, e.id = u.esim ∧ e.account = u.account := by
  unfold reserveTopup at h
  split at h
  · cases h
  split at h
  · split at h <;> cases h
  · split at h
    · cases h
    rename_i locked hfind
    split at h
    · cases h
    rename_i howner
    obtain ⟨amount, _, h⟩ := bind_ok h
    obtain ⟨stored, _, h⟩ := bind_ok h
    split at h
    · cases h
    dsimp only at h
    split at h
    · cases h
    obtain ⟨p, _, h⟩ := bind_ok h
    obtain ⟨⟨books, e⟩, _, h⟩ := bind_ok h
    cases h
    have hid : locked.id = a.esim.id := by simpa using Table.prop_of_find? hfind
    exact ⟨rfl, rfl, rfl, locked, Table.mem_of_find? hfind, hid, not_not.1 howner⟩

/-- The row a step leaves in hand: the same, settled, or newly reserved. -/
inductive OwnMove (c : SpendSettings) (s : SpendDb) (t : SpendThread) (s' : SpendDb) : Row → Prop
  | same {row : Row} : own t.pc = some row → OwnMove c s t s' row
  | settles {row row' : Row} :
      own t.pc = some row → row.source = row'.source → row'.purchase.status ≠ .fulfilling →
      row'.purchase.account = row.purchase.account → row'.purchase.charge = row.purchase.charge →
      OwnMove c s t s' row'
  | order {o : Order} : OwnMove c s t s' (.order o)
  | topup {a : PurchaseArgs} {package : Airalo.TopupPackage} {d : Draw Uuid} {u : Topup} :
      t.pc = .reserving a package → reserveTopup c s a package d = .ok (s', .fresh u) →
      OwnMove c s t s' (.topup u)

theorem own_of_move {pc : SpendPc} {row : Row} (h : SpendInv s) (hL : SpendLocal s t)
    (hm : SpendMove c s t s' pc) (hown : own pc = some row) :
    OwnMove c s t s' row := by
  have hphase := hL.phase
  cases hm with
  | opensOrder _ _ _ => cases hown; exact .order
  | opensTopup hpc hr => cases hown; exact .topup hpc hr
  | crashes hpc =>
    cases hown
    rcases hpc with hpc | ⟨sale, hpc⟩ | ⟨e, hpc⟩ <;> exact .same (by rw [hpc]; rfl)
  | sells hpc _ => cases hown; exact .same (by rw [hpc]; rfl)
  | fails hpc _ => cases hown; exact .same (by rw [hpc]; rfl)
  | abandons hpc =>
    cases hown
    rcases hpc with ⟨sale, hpc⟩ | ⟨e, hpc⟩ <;> exact .same (by rw [hpc]; rfl)
  | @persists w sale d row' _ hpc hp =>
    cases hown
    rw [hpc] at hphase
    have hw : own t.pc = some w.row := by rw [hpc]; rfl
    obtain ⟨_, hsrc, hpur⟩ := effect_persist h (hL.stored w.row hw) hphase.2 hp
    exact .settles hw hsrc.symm (by rw [hpur]; nofun) (by rw [hpur]) (by rw [hpur])
  | @compensates w e row' _ hpc hp =>
    cases hown
    rw [hpc] at hphase
    have hw : own t.pc = some w.row := by rw [hpc]; rfl
    obtain ⟨_, hsrc, hpur⟩ := effect_compensate h (hL.stored w.row hw) hphase.2 hphase.1 hp
    exact .settles hw hsrc.symm (by rw [hpur]; nofun) (by rw [hpur]) (by rw [hpur])
  | _ => cases hown

/-- Only a transfer writes an eSIM that is there. -/
theorem esims_of_move {pc : SpendPc} (h : SpendInv s) (hL : SpendLocal s t)
    (hm : SpendMove c s t s' pc) :
    (∀ e ∈ s.esims, e ∈ s'.esims)
      ∨ (t.pc = .asked ∧ ∃ esim account user, t.call = .transfer esim account user
        ∧ transferEsim s esim account user = .ok s') := by
  have hphase := hL.phase
  cases hm with
  | transfers hpc hcall ht => exact .inr ⟨hpc, _, _, _, hcall, ht⟩
  | replaysOrder _ _ hr =>
    obtain ⟨rfl, _⟩ := reserveOrder_replay hr
    exact .inl fun _ => id
  | replaysTopup _ hr =>
    obtain ⟨rfl, _⟩ := reserveTopup_replay hr
    exact .inl fun _ => id
  | opensOrder _ _ hr => exact .inl (effect_openOrder h hr).1.writes.esims
  | opensTopup _ hr => exact .inl (effect_openTopup h hr).1.writes.esims
  | @persists w _ _ _ _ hpc hp =>
    rw [hpc] at hphase
    exact .inl (effect_persist h (hL.stored w.row (by rw [hpc]; rfl)) hphase.2 hp).1.writes.esims
  | @compensates w _ _ _ hpc hp =>
    rw [hpc] at hphase
    exact .inl (effect_compensate h (hL.stored w.row (by rw [hpc]; rfl)) hphase.2 hphase.1
      hp).1.writes.esims
  | _ => exact .inl fun _ => id

/-- A transfer moves an eSIM that no top-up is fulfilling for, and nothing else. -/
theorem transferEsim_esims {esim : Nat} {account : Uuid} {user : UserId}
    (h : transferEsim s esim account user = .ok s') :
    s'.topups = s.topups ∧ (∀ e ∈ s.esims, e.id ≠ esim → e ∈ s'.esims)
      ∧ (∀ e ∈ s'.esims, e ∈ s.esims ∨ (e.id = esim ∧ ∀ v ∈ s.topups, v.esim = esim →
        v.status ≠ .fulfilling)) ∧ ((∀ v ∈ s.topups, v.esim = esim → v.status ≠ .fulfilling)
          ∨ s' = s) := by
  rcases transferEsim_cases h with rfl | ⟨hnone, rfl⟩
  · exact ⟨rfl, fun _ he _ => he, fun _ he => .inl he, .inr rfl⟩
  · have hmem := @Table.mem_update _ _ s.esims (·.id = esim) (transferred account user)
      (fun _ _ h => h)
    refine ⟨rfl, ?_, ?_, .inl hnone⟩
    · intro e he hne
      exact hmem.2 ⟨e, he, rewrite_neg _ (by simpa using hne)⟩
    · intro e he
      obtain ⟨e₀, he₀, rfl⟩ := hmem.1 he
      by_cases hid : e₀.id = esim
      · rw [rewrite_pos _ (by simpa using hid)]
        exact .inr ⟨hid, hnone⟩
      · rw [rewrite_neg _ (by simpa using hid)]
        exact .inl he₀

/-! ## The invariant -/

/-- The eSIM of a top-up that is fulfilling is on the account of the top-up. -/
def Owned (s : SpendDb) : Prop :=
  ∀ v ∈ s.topups, v.status = .fulfilling → ∃ e ∈ s.esims, e.id = v.esim ∧ e.account = v.account

/-- The top-ups that are fulfilling after a step were, or one was just reserved. -/
theorem fulfilling_of_step (h : SpendInv s) (hL : SpendLocal s t) (hm : SpendMove c s t s' t'.pc)
    (hcall : t'.call = t.call) {v : Topup} (hv : v ∈ s'.topups) (hs : v.status = .fulfilling) :
    v ∈ s.topups ∨ ∃ a package d, t.pc = .reserving a package
      ∧ reserveTopup c s a package d = .ok (s', .fresh v) := by
  have he := stepEffect h hL hm hcall
  have hrow : Stored s' (.topup v) := hv
  rcases he.only _ hrow with hold | hown | ⟨_, u, _, heq, hcredit⟩
  · exact .inl hold
  · have hmove := own_of_move h hL hm hown
    cases hmove with
    | same hsame => exact .inl (hL.stored _ hsame)
    | settles _ _ hstatus _ _ => exact absurd (fulfilling_iff.2 hs) hstatus
    | topup hpc hr => exact .inr ⟨_, _, _, hpc, hr⟩
  · cases heq
    rw [hcredit.2.2.1] at hs
    cases hs

theorem owned_step (h : SpendInv s) (ho : Owned s) (hL : SpendLocal s t)
    (hm : SpendMove c s t s' t'.pc) (hcall : t'.call = t.call) :
    Owned s' := by
  intro v hv hs
  rcases fulfilling_of_step h hL hm hcall hv hs with hold | ⟨a, package, d, _, hr⟩
  · obtain ⟨e, he, hid, hacc⟩ := ho v hold hs
    rcases esims_of_move h hL hm with hkept | ⟨_, esim, account, user, _, ht⟩
    · exact ⟨e, hkept e he, hid, hacc⟩
    · obtain ⟨_, hkept, _, hfree | rfl⟩ := transferEsim_esims ht
      · refine ⟨e, hkept e he ?_, hid, hacc⟩
        intro heq
        exact hfree v hold (hid.symm.trans heq) hs
      · exact ⟨e, he, hid, hacc⟩
  · obtain ⟨hesims, _, _, e, he, hid, hacc⟩ := reserveTopup_owner hr
    exact ⟨e, by rw [hesims]; exact he, hid, hacc⟩

theorem ownedInvariant (c : SpendSettings) :
    Invariant (spendProgram c) FreshSpend (fun _ _ _ => True)
      (fun s => (SpendInv s ∧ ProviderInv c s) ∧ Owned s)
      (fun s t => SpendLocal s t ∧ Answered c s t) SpendApart where
  init := by
    intro s h
    refine ⟨(spendInvariant c).init h, ?_⟩
    intro v hv
    rw [Table.mem_def, h.topups] at hv
    cases hv
  start := fun call h => (spendInvariant c).start call h.1
  apart_start := (spendInvariant c).apart_start
  symm := (spendInvariant c).symm
  step := by
    intro s t x s' t' ⟨h, ho⟩ hL hok hs
    obtain ⟨hG, hL'⟩ := (spendInvariant c).step h hL hok hs
    obtain ⟨hm, hcall⟩ := spendStep_move hs
    exact ⟨⟨hG, owned_step h.1 ho hL.1 hm hcall⟩, hL'⟩
  frame := fun h hL hok hs hu hR => (spendInvariant c).frame h.1 hL hok hs hu hR

theorem owned_holds {g : Config SpendDb SpendThread}
    (h : (spendProgram c).Reach FreshSpend g) : Owned g.store :=
  ((ownedInvariant c).reach h).store.2

/-! ## Debits and transfers -/

/-- What one step of a call for an account does with the eSIMs of top-ups. -/
structure OwnerSafe (s : SpendDb) (call : SpendCall) (s' : SpendDb) : Prop where
  /-- What is debited for a top-up is debited to the owner of its eSIM, which the call is for. -/
  debited : ∀ id m, m ∈ movementsOf s'.books (.topup id) → m ∉ movementsOf s.books (.topup id) →
    m.delta < 0 → callAccount call = some m.account
      ∧ ∃ v ∈ s'.topups, v.id = id ∧ v.account = m.account
        ∧ ∃ e ∈ s'.esims, e.id = v.esim ∧ e.account = m.account
  /-- An eSIM that changes hands has no top-up fulfilling. -/
  transferred : ∀ e ∈ s.esims, ∀ e' ∈ s'.esims, e'.id = e.id → e'.account ≠ e.account →
    ∀ v ∈ s'.topups, v.esim = e.id → v.status ≠ .fulfilling

theorem OwnerSafe.idle (s : SpendDb) (call : SpendCall) : OwnerSafe s call s := by
  refine ⟨fun id m hm hn _ => absurd hm hn, ?_⟩
  intro e he e' he' hid hne
  obtain rfl : e' = e := Table.eq_of_clash he' he (.inl hid)
  exact absurd rfl hne

/-- A debit among the movements of a top-up is that of its amount. -/
theorem debit_of_movements {id : Uuid} {m : Movement} (h : m ∈ s.movements (.topup id))
    (hneg : m.delta < 0) : ∃ v ∈ s.topups, v.id = id ∧ ∃ charge, v.charge = some charge
      ∧ m = Purchase.debit (.topup id) v.account charge := by
  unfold SpendDb.movements at h
  split at h
  · cases h
  rename_i u hu
  obtain ⟨v, hv, rfl⟩ := Option.map_eq_some_iff.1 hu
  have hid : v.id = id := by simpa using Table.prop_of_find? hv
  refine ⟨v, Table.mem_of_find? hv, hid, ?_⟩
  unfold Purchase.movements at h
  split at h
  · cases h
  rename_i charge hcharge
  refine ⟨charge, hcharge, ?_⟩
  rcases List.mem_cons.1 h with hm | h
  · exact hm
  · -- a refund is of a positive amount
    split at h
    · rw [List.mem_singleton] at h
      subst h
      have hpos : 0 < charge := by
        unfold Topup.purchase Topup.charge at hcharge
        dsimp only at hcharge
        split at hcharge
        · cases hcharge
        · cases hcharge
          exact v.amount.pos
      have hlt : charge < 0 := hneg
      omega
    · cases h

theorem mem_movements_topup {v : Topup} (hv : v ∈ s.topups) {charge : Int}
    (hc : v.charge = some charge) :
    Purchase.debit (.topup v.id) v.account charge ∈ s.movements (.topup v.id) := by
  rw [movements_some (purchase?_topup hv), Purchase.movements]
  unfold Topup.purchase
  dsimp only
  rw [hc]
  exact List.mem_cons_self

/-- **Each step is safe for the owners of eSIMs.** -/
theorem ownerSafe_step (h : SpendInv s) (hL : SpendLocal s t) (hm : SpendMove c s t s' t'.pc)
    (hcall : t'.call = t.call) :
    OwnerSafe s t.call s' := by
  have he := stepEffect h hL hm hcall
  refine ⟨?_, ?_⟩
  · intro id m hm' hn hneg
    rw [he.inv.conserved] at hm'
    rw [h.conserved] at hn
    obtain ⟨v, hv, rfl, charge, hcharge, rfl⟩ := debit_of_movements hm' hneg
    have hrow : Stored s' (.topup v) := hv
    rcases he.only _ hrow with hold | hown | ⟨_, u, _, heq, hcredit⟩
    · exact absurd (mem_movements_topup hold hcharge) hn
    · cases own_of_move h hL hm hown with
      | same hsame => exact absurd (mem_movements_topup (hL.stored _ hsame) hcharge) hn
      | @settles row _ hsame hsrc _ hacc hch =>
        -- the row was debited when it was reserved
        cases row with
        | order o => cases hsrc
        | topup u =>
          have hid : u.id = v.id := Source.topup.inj hsrc
          have hu : u ∈ s.topups := hL.stored _ hsame
          have hucharge : u.charge = some charge := hch.symm.trans hcharge
          have huacc : v.account = u.account := hacc
          rw [← hid, huacc] at hn
          exact absurd (mem_movements_topup hu hucharge) hn
      | topup hpc hr =>
        obtain ⟨hesims, hacc, _, e, hmem, hid, heacc⟩ := reserveTopup_owner hr
        have hfrom := hL.call
        unfold FromCall at hfrom
        rw [hpc] at hfrom
        refine ⟨?_, v, hv, rfl, rfl, e, by rw [hesims]; exact hmem, hid, heacc⟩
        rw [show t.call = _ from hfrom]
        exact congrArg some hacc.symm
    · cases heq
      rw [Topup.charge, if_pos hcredit.1] at hcharge
      cases hcharge
  · intro e hmem e' hmem' hid hne v hv hesim
    rcases esims_of_move h hL hm with hkept | ⟨_, esim, account, user, _, ht⟩
    · obtain rfl : e' = e := Table.eq_of_clash hmem' (hkept e hmem) (.inl hid)
      exact absurd rfl hne
    · obtain ⟨htopups, _, honly, _⟩ := transferEsim_esims ht
      rcases honly e' hmem' with hold | ⟨hid', hfree⟩
      · obtain rfl : e' = e := Table.eq_of_clash hold hmem (.inl hid)
        exact absurd rfl hne
      · rw [htopups] at hv
        exact hfree v hv (hesim.trans (hid.symm.trans hid'))

end Roamkit.Spend.Proof
