import Roamkit.Proof.SpendEffect
import Roamkit.Proof.SpendMove

/-!
# Purchases under concurrent calls

A row is the business of the call that reserved it: no other call writes it. So
the copy a call goes on with is the row in the table, it is still fulfilling when
the call settles it, and the transaction that settles it is one the ledger and the
purchases allow. From this, whatever interleaving of calls, crashes and failures
there was, the ledger holds for each purchase what its status says.
-/

namespace Roamkit.Spend.Proof

open Lib Billing Billing.Proof

/-! ## What a call relies on -/

/-- The account a call is made for. -/
def callAccount : SpendCall → Option Uuid
  | .fulfill a => some a.spendAccount
  | .purchase a => some a.spendAccount
  | _ => none

/-- The status of the row a call has reserved. -/
def InPhase : SpendPc → Prop
  | .requesting w => Charged w ∧ w.row.purchase.status = .fulfilling
  | .persisting w _ => Charged w ∧ w.row.purchase.status = .fulfilling
  | .compensating w _ => Charged w ∧ w.row.purchase.status = .fulfilling
  | .fulfilled row => row.purchase.status = .fulfilled
  | .refunded row _ => row.purchase.status = .failed
  | .abandoned row _ => row.purchase.status = .fulfilling
  | .crashed (some row) => row.purchase.status = .fulfilling
  | _ => True

/-- The arguments a call goes on with are its own. -/
def FromCall (t : SpendThread) : Prop :=
  match t.pc with
  | .listing a => t.call = .purchase a
  | .reserving a _ => t.call = .purchase a
  | .requesting (.order a _) => t.call = .fulfill a
  | .requesting (.topup a _ _) => t.call = .purchase a
  | .persisting (.order a _) _ => t.call = .fulfill a
  | .persisting (.topup a _ _) _ => t.call = .purchase a
  | .compensating (.order a _) _ => t.call = .fulfill a
  | .compensating (.topup a _ _) _ => t.call = .purchase a
  | _ => True

/-- What a call may rely on. -/
structure SpendLocal (s : SpendDb) (t : SpendThread) : Prop where
  /-- Its own row is the one in the table. -/
  stored : ∀ row, own t.pc = some row → Stored s row
  phase : InPhase t.pc
  call : FromCall t
  account : ∀ row, own t.pc = some row → callAccount t.call = some row.purchase.account

/-- Two calls reserved different rows. -/
def SpendApart (t u : SpendThread) : Prop :=
  ∀ row row', own t.pc = some row → own u.pc = some row' → row.source ≠ row'.source

/-! ## One step -/

variable {s s' : SpendDb}

/-- A step leaves the purchases and the ledger of purchases alone. -/
theorem SpendInv.same (h : SpendInv s) (hbooks : BooksInv s'.books)
    (hmov : ∀ src, movementsOf s'.books src = movementsOf s.books src)
    (horders : s'.orders = s.orders) (htopups : s'.topups = s.topups) : SpendInv s' := by
  refine h.transfer (.aside hbooks hmov fun src => movements_of_purchase? ?_)
  cases src with
  | order n => rw [SpendDb.purchase?, horders, SpendDb.purchase?]
  | topup u => rw [SpendDb.purchase?, htopups, SpendDb.purchase?]

theorem transferEsim_cases {esim : Nat} {account : Uuid} {user : UserId}
    (h : transferEsim s esim account user = .ok s') :
    s' = s ∨ ((∀ t ∈ s.topups, t.esim = esim → t.status ≠ .fulfilling)
      ∧ s' = { s with
        esims := s.esims.update (·.id = esim) (transferred account user) (fun _ _ h => h) }) := by
  unfold transferEsim at h
  split at h
  · cases h
  split at h
  · cases h; exact .inl rfl
  · split at h
    · cases h
    rename_i hnone
    cases h
    refine .inr ⟨?_, rfl⟩
    intro t ht hesim hstatus
    exact hnone (List.any_eq_true.2 ⟨t, ht, by simp [hesim, hstatus]⟩)

/-- What is posted by another service is no purchase's movement. -/
theorem owns_foreign (p : ForeignPosting) (src : Source) :
    src.owns (movementOf p.posting) = false := by
  obtain ⟨hd, hr⟩ := p.notKey src
  simp [Source.owns, movementOf, hd, hr, p.notSpend]

/--
What a step of a call does to the rows: its own is stored, the others are left
alone, and a row it newly owns was not there.
-/
structure StepEffect (s : SpendDb) (t : SpendThread) (s' : SpendDb) (t' : SpendThread) : Prop where
  inv : SpendInv s'
  local' : SpendLocal s' t'
  /-- The rows of other calls stay. -/
  kept : ∀ row, Stored s row → (∀ r, own t.pc = some r → r.source ≠ row.source) → Stored s' row
  /-- The row it owns was its own, or nobody's. -/
  owns : ∀ row', own t'.pc = some row' →
    (∃ row, own t.pc = some row ∧ row.source = row'.source) ∨ s.purchase? row'.source = none
  /-- What is new is its own row, or an initial credit of the row's account. -/
  only : ∀ row, Stored s' row → Stored s row ∨ own t'.pc = some row
    ∨ ∃ r u, own t'.pc = some r ∧ row = .topup u ∧ IsCredit r.purchase.account u

/-- A step that writes no row and reserves none. -/
theorem StepEffect.idle {s s' : SpendDb} {t t' : SpendThread} (hinv : SpendInv s')
    (hL : SpendLocal s t) (hsame : t'.call = t.call) (horders : s'.orders = s.orders)
    (htopups : s'.topups = s.topups) (hown : own t'.pc = own t.pc) (hphase : InPhase t'.pc)
    (hcall : FromCall t') : StepEffect s t s' t' := by
  have hstored : ∀ row, Stored s' row ↔ Stored s row := by
    intro row
    cases row with
    | order o => rw [stored_order, stored_order, horders]
    | topup u => rw [stored_topup, stored_topup, htopups]
  refine ⟨hinv, ⟨?_, hphase, hcall, ?_⟩, fun row hrow _ => (hstored row).2 hrow, ?_, ?_⟩
  · intro row hrow
    exact (hstored row).2 (hL.stored row (hown ▸ hrow))
  · intro row hrow
    rw [hsame]
    exact hL.account row (hown ▸ hrow)
  · intro row' hrow
    exact .inl ⟨row', hown ▸ hrow, rfl⟩
  · intro row hrow
    exact .inl ((hstored row).1 hrow)

/-- A step that reserves or settles a row. -/
theorem StepEffect.of_effect {t t' : SpendThread} {row : Row} (he : Effect s s' row)
    (hown : own t'.pc = some row) (hphase : InPhase t'.pc) (hcall : FromCall t')
    (hacc : callAccount t'.call = some row.purchase.account)
    (howns : (∃ r, own t.pc = some r ∧ r.source = row.source) ∨ s.purchase? row.source = none) :
    StepEffect s t s' t' := by
  refine ⟨he.inv, ⟨?_, hphase, hcall, ?_⟩, ?_, ?_, ?_⟩
  · intro r hr
    rw [hown] at hr
    cases hr
    exact he.writes.stored
  · intro r hr
    rw [hown] at hr
    cases hr
    exact hacc
  · intro r hr hne
    refine he.writes.kept r hr ?_
    intro hsrc
    rcases howns with ⟨r', hr', hsrc'⟩ | hnone
    · exact hne r' hr' (hsrc'.trans hsrc.symm)
    · rw [← hsrc, hr.purchase?] at hnone
      cases hnone
  · intro r hr
    rw [hown] at hr
    cases hr
    exact howns
  · intro r hr
    rcases he.writes.only r hr with rfl | ⟨hr, _⟩ | ⟨u, rfl, hu⟩
    · exact .inr (.inl hown)
    · exact .inl hr
    · exact .inr (.inr ⟨row, u, hown, rfl, hu⟩)

theorem stepEffect {c : SpendSettings} {t t' : SpendThread} (h : SpendInv s) (hL : SpendLocal s t)
    (hm : SpendMove c s t s' t'.pc) (hcall : t'.call = t.call) :
    StepEffect s t s' t' := by
  obtain ⟨call, pc⟩ := t'
  obtain ⟨call', pc'⟩ := t
  dsimp only at hcall
  subst hcall
  have hphase := hL.phase
  have hfrom := hL.call
  cases hm with
  | refuses hown => exact .idle h hL rfl rfl rfl hown.symm trivial trivial
  | ends hown => exact .idle h hL rfl rfl rfl hown.symm trivial trivial
  | vanishes hown => exact .idle h hL rfl rfl rfl hown.symm trivial trivial
  | crashes hpc =>
    rcases hpc with hpc | ⟨sale, hpc⟩ | ⟨e, hpc⟩
    · subst hpc
      exact .idle h hL rfl rfl rfl rfl hphase.2 trivial
    · subst hpc
      exact .idle h hL rfl rfl rfl rfl hphase.2 trivial
    · subst hpc
      exact .idle h hL rfl rfl rfl rfl hphase.2 trivial
  | posts hpc ha =>
    subst hpc
    refine .idle (h.same (h.books.apply ha) ?_ rfl rfl) hL rfl rfl rfl rfl trivial trivial
    exact fun src => movementsOf_foreign ha (owns_foreign _ src)
  | transfers hpc _ ht =>
    subst hpc
    rcases transferEsim_cases ht with rfl | ⟨_, rfl⟩
    · exact .idle h hL rfl rfl rfl rfl trivial trivial
    · exact .idle (h.same h.books (fun _ => rfl) rfl rfl) hL rfl rfl rfl rfl trivial
        trivial
  | waits hpc =>
    subst hpc
    exact .idle (h.same h.books (fun _ => rfl) rfl rfl) hL rfl rfl rfl rfl trivial
      trivial
  | checks hpc hc _ =>
    subst hpc
    exact .idle h hL rfl rfl rfl rfl trivial hc
  | resolves hpc =>
    subst hpc
    exact .idle h hL rfl rfl rfl rfl trivial hfrom
  | replaysOrder hpc _ hr =>
    subst hpc
    obtain ⟨rfl, _⟩ := reserveOrder_replay hr
    exact .idle h hL rfl rfl rfl rfl trivial trivial
  | replaysTopup hpc hr =>
    subst hpc
    obtain ⟨rfl, _⟩ := reserveTopup_replay hr
    exact .idle h hL rfl rfl rfl rfl trivial trivial
  | @opensOrder a d o _ hpc hc hr =>
    subst hpc
    obtain ⟨he, hnone, hcharged, hstatus⟩ := effect_openOrder h hr
    have hacc : callAccount call = some o.account := by
      rw [show call = SpendCall.fulfill a from hc, hcharged.1]
      rfl
    exact .of_effect he rfl ⟨hcharged, hstatus⟩ hc hacc (.inr hnone)
  | @opensTopup a package d u _ hpc hr =>
    subst hpc
    obtain ⟨he, hnone, hcharged, hstatus⟩ := effect_openTopup h hr
    have hacc : callAccount call = some u.account := by
      rw [show call = SpendCall.purchase a from hfrom, hcharged.1]
      rfl
    refine .of_effect he rfl ⟨hcharged, ?_⟩ hfrom hacc (.inr hnone)
    show u.status.toOrder = .fulfilling
    rw [hstatus]
    rfl
  | @sells w x sale hpc _ =>
    subst hpc
    refine .idle (h.same h.books (fun _ => rfl) rfl rfl) hL rfl rfl rfl rfl hphase ?_
    cases w <;> exact hfrom
  | @fails w x e hpc _ =>
    subst hpc
    refine .idle (h.same h.books (fun _ => rfl) rfl rfl) hL rfl rfl rfl rfl hphase ?_
    cases w <;> exact hfrom
  | @persists w sale d row _ hpc hp =>
    subst hpc
    obtain ⟨he, hsrc, hpur⟩ := effect_persist h (hL.stored _ rfl) hphase.2 hp
    refine .of_effect he rfl (congrArg Purchase.status hpur) trivial ?_ (.inl ⟨_, rfl, hsrc.symm⟩)
    rw [hpur]
    exact hL.account _ rfl
  | @compensates w e row _ hpc hp =>
    subst hpc
    obtain ⟨he, hsrc, hpur⟩ := effect_compensate h (hL.stored _ rfl) hphase.2 hphase.1 hp
    refine .of_effect he rfl (congrArg Purchase.status hpur) trivial ?_ (.inl ⟨_, rfl, hsrc.symm⟩)
    rw [hpur]
    exact hL.account _ rfl
  | @abandons w e hpc =>
    rcases hpc with ⟨sale, hpc⟩ | ⟨e', hpc⟩
    · subst hpc
      exact .idle h hL rfl rfl rfl rfl hphase.2 trivial
    · subst hpc
      exact .idle h hL rfl rfl rfl rfl hphase.2 trivial

end Roamkit.Spend.Proof
