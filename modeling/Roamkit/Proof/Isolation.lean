import Roamkit.Proof.DepositIsolation
import Roamkit.Proof.SpendSound

/-!
# Idempotency keys and accounts

A client chooses its idempotency keys, and two clients may choose the same. The
services look a key up among the rows of all accounts, and the row that is found
is taken for the caller's own. What a call reserves itself is on its account, and
nothing else is written by it; so the look-ups are the only places where one
account can get hold of a row of another.
-/

namespace Roamkit.Spend.Proof

open Lib Billing Billing.Proof

/-- The row a call works on or returns: one it reserved, or one it replays. -/
def workedRow : SpendPc → Option Row
  | .replayed row => some row
  | pc => own pc

variable (s : SpendDb) (account : Uuid)

/-- The row a reservation finds when it looks its key up. -/
def foundRow (t : SpendThread) (x : SpendInput) : Option Row :=
  match t.pc, t.call, x with
  | .asked, .fulfill a, .order d =>
    (if d.raced then none else s.orderOfKey (nonempty a.idempotencyKey)).map .order
  | .reserving a _, _, .topup d =>
    (if d.raced then none else s.topups.find? (·.idempotencyKey = a.idempotencyKey)).map .topup
  | _, _, _ => none

/-- The row that is found is the caller's, or is still fulfilling. -/
def OwnSpendKey (t : SpendThread) (x : SpendInput) : Prop :=
  ∀ row, foundRow s t x = some row →
    row.purchase.status = .fulfilling ∨ callAccount t.call = some row.purchase.account

theorem fulfilling_iff {t : TopupStatus} : t.toOrder = .fulfilling ↔ t = .fulfilling := by
  cases t <;> simp [TopupStatus.toOrder]

/-- A call replays the row it found, and that row is settled. -/
theorem replayed_found {c : SpendSettings} {s s' : SpendDb} {t t' : SpendThread} {x : SpendInput}
    {row : Row} (hs : spendStep c s t x = some (s', t')) (hpc : t'.pc = .replayed row) :
    foundRow s t x = some row ∧ row.purchase.status ≠ .fulfilling := by
  obtain ⟨hm, _⟩ := spendStep_move hs
  obtain ⟨call, pc⟩ := t
  rw [hpc] at hm
  cases hm with
  | replaysOrder hasked hcall _ =>
    dsimp only at hasked hcall
    subst hasked hcall
    cases x with
    | order d =>
      simp only [spendStep] at hs
      split at hs
      · cases hs
      split at hs
      · cases hs; cases hpc
      · rename_i hreserve
        cases hs
        cases hpc
        obtain ⟨_, hfound, hstatus⟩ := reserveOrder_replay hreserve
        exact ⟨congrArg (Option.map Row.order) hfound, hstatus⟩
      · cases hs; cases hpc
    | go => simp only [spendStep] at hs; split at hs <;> cases hs; cases hpc
    | fail => cases hs; cases hpc
    | crash => cases hs; cases hpc
    | _ => cases hs
  | replaysTopup hreserving _ =>
    dsimp only at hreserving
    subst hreserving
    cases x with
    | topup d =>
      simp only [spendStep] at hs
      split at hs
      · cases hs; cases hpc
      · rename_i hreserve
        cases hs
        cases hpc
        obtain ⟨_, hfound, hstatus⟩ := reserveTopup_replay hreserve
        refine ⟨congrArg (Option.map Row.topup) hfound, ?_⟩
        exact fun h => hstatus (fulfilling_iff.1 h)
      · cases hs; cases hpc
    | fail => cases hs; cases hpc
    | crash => cases hs; cases hpc
    | _ => cases hs

/-- A replayed row is the caller's. -/
def OwnReplay (t : SpendThread) : Prop :=
  ∀ row, t.pc = .replayed row → callAccount t.call = some row.purchase.account

theorem ownReplayInvariant (c : SpendSettings) :
    Invariant (spendProgram c) FreshSpend OwnSpendKey (fun _ => True) (fun _ t => OwnReplay t)
      (fun _ _ => True) where
  init := fun _ => trivial
  start := by
    intro s call _ row h
    cases h
  apart_start := fun _ _ => trivial
  symm := fun _ => trivial
  step := by
    intro s t x s' t' _ _ hkey hs
    refine ⟨trivial, ?_⟩
    intro row hpc
    obtain ⟨hfound, hstatus⟩ := replayed_found hs hpc
    rw [(spendStep_move hs).2]
    rcases hkey row hfound with hopen | hacc
    · exact absurd hopen hstatus
    · exact hacc
  frame := fun _ _ _ _ hu _ => ⟨hu, trivial⟩

/-- No call of `fulfill` or `purchase` is at work on, or returns, or writes a row of another
account. -/
structure SpendsIsolated (c : SpendSettings) (g : Config SpendDb SpendThread) : Prop where
  held : ∀ p t account row, g.threads p = some t → callAccount t.call = some account →
    workedRow t.pc = some row → row.purchase.account = account
  untouched : ∀ p t account x s' t', g.threads p = some t → callAccount t.call = some account →
    spendStep c g.store t x = some (s', t') → ∀ row, Stored g.store row →
      row.purchase.account ≠ account → Stored s' row

/-- Where every look-up by key finds a row of the caller's account, so does every call. -/
theorem spendsIsolated_of_ownKey {c : SpendSettings} {g : Config SpendDb SpendThread}
    (h : (spendProgram c).ReachWhere FreshSpend OwnSpendKey g) : SpendsIsolated c g := by
  have hold := spend_holds h.reach
  refine ⟨?_, ?_⟩
  · intro p t account row ht hacc hrow
    have hreplay : OwnReplay t := ((ownReplayInvariant c).reach h).thread p t ht
    have hown := (hold.thread p t ht).1.account
    obtain ⟨call, pc⟩ := t
    dsimp only at hacc
    cases pc with
    | replayed r =>
      cases hrow
      exact Option.some.inj ((hreplay _ rfl).symm.trans hacc)
    | _ => exact Option.some.inj ((hown row hrow).symm.trans hacc)
  · intro p t account x s' t' ht hacc hs row hrow hne
    have hL := (hold.thread p t ht).1
    obtain ⟨hm, hcall⟩ := spendStep_move hs
    refine (stepEffect hold.store.1 hL hm hcall).kept row hrow ?_
    -- the row the call owns is on its account, so it is not this one
    intro r hr hsrc
    have heq := (hL.stored r hr).eq hrow hsrc
    have hacc' := hL.account r hr
    rw [hacc, heq] at hacc'
    exact hne (Option.some.inj hacc').symm

/-! ## The three services -/

/--
**Accounts are isolated where look-ups by key are.** In every run in which each
look-up of an idempotency key finds, if it finds a settled row at all, a row of
the account the call is made for, no call of `verify`, `fulfill` or `purchase`
works on, returns or writes a row of another account.
-/
theorem keys_isolated (c : DepositSettings) (c' : SpendSettings) :
    (∀ g, (depositProgram c).ReachWhere FreshDeposits (fun s t _ => OwnDepositKey c s t) g →
        DepositsIsolated c g)
      ∧ ∀ g, (spendProgram c').ReachWhere FreshSpend OwnSpendKey g → SpendsIsolated c' g :=
  ⟨fun _ h => depositsIsolated_of_ownKey h, fun _ h => spendsIsolated_of_ownKey h⟩

/-! ## One account that repeats its key -/

/-- The check of `OwnDepositKey` at one step. -/
def isOwnDepositKey (s : DepositDb) (t : DepositThread) : Bool :=
  match t.pc, t.call with
  | .asked, .verify a => s.deposits.rows.all fun d =>
    d.idempotencyKey ≠ a.idempotencyKey || d.account = a.account
  | .racedByKey v, _ => s.deposits.rows.all fun d =>
    d.idempotencyKey ≠ v.idempotencyKey || d.account = v.account
  | _, _ => true

theorem ownDepositKey_of_check {c : DepositSettings} {s : DepositDb} {t : DepositThread}
    (h : isOwnDepositKey s t = true) : OwnDepositKey c s t := by
  obtain ⟨call, pc⟩ := t
  cases pc with
  | asked =>
    cases call with
    | verify a =>
      intro v hv d hd hkey
      obtain ⟨hacc, hsame⟩ := normalize_own hv
      have := List.all_eq_true.1 h d hd
      simpa [hkey.trans hsame, hacc] using this
    | _ => trivial
  | racedByKey v =>
    intro d hd hkey
    have := List.all_eq_true.1 h d hd
    simpa [hkey] using this
  | _ => trivial

/-- The check of `OwnSpendKey` at one step. -/
def isOwnSpendKey (t : SpendThread) (x : SpendInput) : Bool :=
  (foundRow s t x).all fun row =>
    row.purchase.status = .fulfilling || callAccount t.call = some row.purchase.account

theorem ownSpendKey_of_check {s : SpendDb} {t : SpendThread} {x : SpendInput}
    (h : isOwnSpendKey s t x = true) : OwnSpendKey s t x := by
  intro row hfound
  rw [isOwnSpendKey, hfound] at h
  simpa using h

/-- Alice's deposit is completed, and she asks for it again. -/
def aliceDepositTwice : List (Act DepositCall DepositInput) :=
  [.call 0 (aliceVerify "10"), .tick 0 .go, .tick 0 .go, .tick 0 .go, .tick 0 (.uuid depositId),
    .tick 0 tenOnChain, .tick 0 .go, .tick 0 .go, .call 1 (aliceVerify "10"), .tick 1 .go]

/-- Alice's order is fulfilled. -/
def aliceOrders : List (Act SpendCall SpendInput) :=
  funded ++ [.call 1 aliceOrder, .tick 1 (.order ⟨1, false, none⟩),
    .tick 1 (.answer ⟨true, .empty⟩), .tick 1 (.persist ⟨fun n => (n, alice), none, none, alice⟩)]

/-- The call returned a deposit of the account. -/
def returnsDeposit (g : Config DepositDb DepositThread) : Bool :=
  match g.threads 1 with
  | some ⟨.verify _, .returned d⟩ => d.account = account && d.status = .completed
  | _ => false

/-- The call returned an order of the account. -/
def replaysOrder (g : Config SpendDb SpendThread) : Bool :=
  match g.threads 2 with
  | some ⟨.fulfill _, .replayed (.order o)⟩ => o.account = account
  | _ => false

theorem keys_isolated_twice :
    ∃ g g', returnsDeposit alice g = true ∧ DepositsIsolated settings g
      ∧ replaysOrder alice g' = true ∧ SpendsIsolated spendSettings g' := by
  obtain ⟨g, hr, hg⟩ := Program.reachWhere_check (P := depositProgram settings)
    (fun s t _ => isOwnDepositKey s t) (fun _ _ _ h => ownDepositKey_of_check h)
    freshDeposits_noDeposits aliceDepositTwice (returnsDeposit alice) (by decide)
  obtain ⟨g', hr', hg'⟩ := Program.reachWhere_check (P := spendProgram spendSettings)
    isOwnSpendKey (fun _ _ _ h => ownSpendKey_of_check h) freshSpend_noPurchases
    (aliceOrders ++ [.call 2 aliceOrder, .tick 2 (.order ⟨2, false, none⟩)]) (replaysOrder alice)
    (by decide)
  obtain ⟨hdeposits, hspends⟩ := keys_isolated settings spendSettings
  exact ⟨g, g', hg, hdeposits g hr, hg', hspends g' hr'⟩

/-! ## Two accounts with one key -/

/-- Another transaction than Alice's. -/
def otherTx : String := String.ofList (List.replicate 64 'b')

/-- Bob uses the key of Alice's pending deposit, with a transaction of his own. -/
def bobVerify : DepositCall := .verify ⟨bob, otherTx, "cex_manual", .str "20", "key"⟩

def bobOnAliceDeposit : List (Act DepositCall DepositInput) :=
  [.call 0 (aliceVerify "10"), .tick 0 .go, .tick 0 .go, .tick 0 .go, .tick 0 (.uuid depositId),
    .call 1 bobVerify, .tick 1 .go, .tick 1 tenOnChain, .tick 1 .go, .tick 1 .go]

/-- Bob uses the key of Alice's order. -/
def bobOrder : SpendCall :=
  .fulfill ⟨8, bob, ⟨"pkg", 2500, some 500⟩, none, false, some "key", none⟩

def isVerifyOf (g : Config DepositDb DepositThread) : Bool :=
  match g.threads 1 with
  | some ⟨.verify a, _⟩ => a.account = account
  | _ => false

/-- Bob gets hold of Alice's deposit, and of Alice's order. -/
theorem key_crosses_accounts :
    (¬ ∀ c g, (depositProgram c).Reach FreshDeposits g → DepositsIsolated c g)
      ∧ ¬ ∀ c g, (spendProgram c).Reach FreshSpend g → SpendsIsolated c g := by
  constructor
  · intro h
    obtain ⟨g, hr, hg⟩ := Program.run_check (depositProgram settings) noDeposits bobOnAliceDeposit
      (fun g => returnsDeposit alice g && isVerifyOf bob g) (by decide)
    have hiso := h settings g (Program.reach_run freshDeposits_noDeposits hr)
    rw [Bool.and_eq_true, returnsDeposit, isVerifyOf] at hg
    obtain ⟨hreturned, hcall⟩ := hg
    split at hreturned
    · rename_i a d ht
      rw [ht] at hcall
      simp only [Bool.and_eq_true, decide_eq_true_eq] at hreturned hcall
      have hacc := hiso.held 1 _ a d ht rfl rfl
      rw [hreturned.1, hcall] at hacc
      exact absurd hacc (by decide)
    · cases hreturned
  · intro h
    obtain ⟨g, hr, hg⟩ := Program.run_check (spendProgram spendSettings) noPurchases
      (aliceOrders ++ [.call 2 bobOrder, .tick 2 (.order ⟨2, false, none⟩)])
      (fun g => replaysOrder alice g && (g.threads 2).any fun t => callAccount t.call = some bob)
      (by decide)
    have hiso := h spendSettings g (Program.reach_run freshSpend_noPurchases hr)
    rw [Bool.and_eq_true, replaysOrder] at hg
    obtain ⟨hreplayed, hcall⟩ := hg
    split at hreplayed
    · rename_i a o ht
      rw [ht] at hcall
      have hbob : callAccount (.fulfill a) = some bob := of_decide_eq_true hcall
      have halice : o.account = alice := of_decide_eq_true hreplayed
      have hacc : o.account = bob := hiso.held 2 _ bob (.order o) ht hbob rfl
      rw [halice] at hacc
      exact absurd hacc (by decide)
    · cases hreplayed

end Roamkit.Spend.Proof
