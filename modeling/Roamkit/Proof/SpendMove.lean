import Roamkit.Proof.SpendOps

/-!
# What a step of a purchase can do

`SpendMove` lists every outcome of one step of `fulfill`, of `purchase`, or of
what goes on beside them: what was found, which transaction committed, and where
the call goes on. What holds over any run of purchases is read off it.
-/

namespace Roamkit.Spend.Proof

open Lib Billing Billing.Proof

/-- The row a call has reserved, as it stands in its table. -/
def own : SpendPc → Option Row
  | .requesting w => some w.row
  | .persisting w _ => some w.row
  | .compensating w _ => some w.row
  | .fulfilled row => some row
  | .refunded row _ => some row
  | .abandoned row _ => some row
  | .crashed row => row
  | _ => none

/-- A call has reserved a row, and not settled it yet. -/
def InFlight (pc : SpendPc) (w : Spending) : Prop :=
  pc = .requesting w ∨ (∃ sale, pc = .persisting w sale) ∨ ∃ e, pc = .compensating w e

/-- Everything a step of a call can do to the database, and the point it comes to. -/
inductive SpendMove (c : SpendSettings) (s : SpendDb) (t : SpendThread) : SpendDb → SpendPc → Prop
  | refuses {e : Exc} : own t.pc = none → SpendMove c s t s (.refused e)
  | ends {e : Option Exc} : own t.pc = none → SpendMove c s t s (.done e)
  | vanishes : own t.pc = none → SpendMove c s t s (.crashed none)
  | crashes {w : Spending} : InFlight t.pc w → SpendMove c s t s (.crashed (some w.row))
  -- what goes on beside the purchases
  | posts {p : ForeignPosting} {b : Books} {e : CreditLedgerEntry} :
      t.pc = .asked → s.books.apply p.posting = .ok (b, e) →
      SpendMove c s t { s with books := b } (.done none)
  | transfers {esim : Nat} {account : Uuid} {user : UserId} {s' : SpendDb} :
      t.pc = .asked → t.call = .transfer esim account user →
      transferEsim s esim account user = .ok s' → SpendMove c s t s' (.done none)
  | waits {d : Nat} : t.pc = .asked → SpendMove c s t { s with now := s.now + d } (.done none)
  -- the reservation
  | checks {a : PurchaseArgs} :
      t.pc = .asked → t.call = .purchase a → a.check s = .ok () → SpendMove c s t s (.listing a)
  | resolves {a : PurchaseArgs} {package : Airalo.TopupPackage} :
      t.pc = .listing a → SpendMove c s t s (.reserving a package)
  | replaysOrder {a : FulfillArgs} {d : Draw Nat} {o : Order} {s' : SpendDb} :
      t.pc = .asked → t.call = .fulfill a → reserveOrder c s a d = .ok (s', .replay o) →
      SpendMove c s t s' (.replayed (.order o))
  | replaysTopup {a : PurchaseArgs} {package : Airalo.TopupPackage} {d : Draw Uuid} {u : Topup}
      {s' : SpendDb} :
      t.pc = .reserving a package → reserveTopup c s a package d = .ok (s', .replay u) →
      SpendMove c s t s' (.replayed (.topup u))
  | opensOrder {a : FulfillArgs} {d : Draw Nat} {o : Order} {s' : SpendDb} :
      t.pc = .asked → t.call = .fulfill a → reserveOrder c s a d = .ok (s', .fresh o) →
      SpendMove c s t s' (.requesting (.order a o))
  | opensTopup {a : PurchaseArgs} {package : Airalo.TopupPackage} {d : Draw Uuid} {u : Topup}
      {s' : SpendDb} :
      t.pc = .reserving a package → reserveTopup c s a package d = .ok (s', .fresh u) →
      SpendMove c s t s' (.requesting (.topup a package u))
  -- the exchange with the provider
  | sells {w : Spending} {x : Exchange} {sale : Sale} :
      t.pc = .requesting w → w.read c x.reply = .ok sale →
      SpendMove c s t (s.record w.source x) (.persisting w sale)
  | fails {w : Spending} {x : Exchange} {e : Exc} :
      t.pc = .requesting w → w.read c x.reply = .error e →
      SpendMove c s t (s.record w.source x) (.compensating w e)
  -- the last transaction
  | persists {w : Spending} {sale : Sale} {d : PersistDraw} {row : Row} {s' : SpendDb} :
      t.pc = .persisting w sale → w.persist c s d sale = .ok (s', row) →
      SpendMove c s t s' (.fulfilled row)
  | compensates {w : Spending} {e : Exc} {row : Row} {s' : SpendDb} :
      t.pc = .compensating w e → w.compensate s = .ok (s', row) →
      SpendMove c s t s' (.refunded row (w.raised e))
  | abandons {w : Spending} {e : Exc} :
      (∃ sale, t.pc = .persisting w sale) ∨ (∃ e', t.pc = .compensating w e') →
      SpendMove c s t s (.abandoned w.row e)

theorem spendStep_move {c : SpendSettings} {s s' : SpendDb} {t t' : SpendThread} {x : SpendInput}
    (h : spendStep c s t x = some (s', t')) : SpendMove c s t s' t'.pc ∧ t'.call = t.call := by
  obtain ⟨call, pc⟩ := t
  cases pc with
  | asked =>
    cases x with
    | crash => cases h; exact ⟨.vanishes rfl, rfl⟩
    | fail => cases h; exact ⟨.refuses rfl, rfl⟩
    | go =>
      cases call with
      | fulfill a =>
        simp only [spendStep] at h
        split at h
        · cases h; exact ⟨.refuses rfl, rfl⟩
        · cases h
      | purchase a =>
        simp only [spendStep] at h
        split at h
        · cases h; exact ⟨.refuses rfl, rfl⟩
        · rename_i hcheck
          cases h
          exact ⟨.checks rfl rfl hcheck, rfl⟩
      | post p =>
        simp only [spendStep] at h
        split at h
        · cases h; exact ⟨.ends rfl, rfl⟩
        · rename_i happly
          cases h
          exact ⟨.posts rfl happly, rfl⟩
      | transfer esim account user =>
        simp only [spendStep] at h
        split at h
        · cases h; exact ⟨.ends rfl, rfl⟩
        · rename_i htransfer
          cases h
          exact ⟨.transfers rfl rfl htransfer, rfl⟩
      | wait d => cases h; exact ⟨.waits rfl, rfl⟩
    | order d =>
      cases call with
      | fulfill a =>
        simp only [spendStep] at h
        split at h
        · cases h
        split at h
        · cases h; exact ⟨.refuses rfl, rfl⟩
        · rename_i hreserve
          cases h
          exact ⟨.replaysOrder rfl rfl hreserve, rfl⟩
        · rename_i hreserve
          cases h
          exact ⟨.opensOrder rfl rfl hreserve, rfl⟩
      | _ => cases h
    | _ => cases h
  | listing a =>
    cases x with
    | crash => cases h; exact ⟨.vanishes rfl, rfl⟩
    | answer r =>
      simp only [spendStep] at h
      split at h
      · cases h; exact ⟨.refuses rfl, rfl⟩
      · cases h; exact ⟨.resolves rfl, rfl⟩
    | _ => cases h
  | reserving a package =>
    cases x with
    | crash => cases h; exact ⟨.vanishes rfl, rfl⟩
    | fail => cases h; exact ⟨.refuses rfl, rfl⟩
    | topup d =>
      simp only [spendStep] at h
      split at h
      · cases h; exact ⟨.refuses rfl, rfl⟩
      · rename_i hreserve
        cases h
        exact ⟨.replaysTopup rfl hreserve, rfl⟩
      · rename_i hreserve
        cases h
        exact ⟨.opensTopup rfl hreserve, rfl⟩
    | _ => cases h
  | requesting w =>
    cases x with
    | crash => cases h; exact ⟨.crashes (.inl rfl), rfl⟩
    | answer r =>
      simp only [spendStep] at h
      split at h
      · rename_i hread
        cases h
        exact ⟨.fails rfl hread, rfl⟩
      · rename_i hread
        cases h
        exact ⟨.sells rfl hread, rfl⟩
    | _ => cases h
  | persisting w sale =>
    cases x with
    | crash => cases h; exact ⟨.crashes (.inr (.inl ⟨sale, rfl⟩)), rfl⟩
    | fail => cases h; exact ⟨.abandons (.inl ⟨sale, rfl⟩), rfl⟩
    | persist d =>
      simp only [spendStep] at h
      split at h
      · cases h; exact ⟨.abandons (.inl ⟨sale, rfl⟩), rfl⟩
      · rename_i hpersist
        cases h
        exact ⟨.persists rfl hpersist, rfl⟩
    | _ => cases h
  | compensating w e =>
    cases x with
    | crash => cases h; exact ⟨.crashes (.inr (.inr ⟨e, rfl⟩)), rfl⟩
    | fail => cases h; exact ⟨.abandons (.inr ⟨e, rfl⟩), rfl⟩
    | go =>
      simp only [spendStep] at h
      split at h
      · cases h; exact ⟨.abandons (.inr ⟨e, rfl⟩), rfl⟩
      · rename_i hcompensate
        cases h
        exact ⟨.compensates rfl hcompensate, rfl⟩
    | _ => cases h
  | replayed row => cases h
  | fulfilled row => cases h
  | refused e => cases h
  | refunded row e => cases h
  | abandoned row e => cases h
  | crashed row => cases h
  | done e => cases h

end Roamkit.Spend.Proof
