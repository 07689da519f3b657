import Roamkit.Proof.Ownership
import Roamkit.Spend.Locks

/-!
# The row lock of an eSIM makes its transactions single steps

While a transaction holds the row lock of an eSIM, nobody else changes who owns the
eSIM, and nobody else reserves a top-up for it. So when the transaction commits, what
it read after it took the lock still holds, and its commit is the step `spendProgram`
takes in one go. Every run with row locks is in this way a run of `spendProgram`.
-/

namespace Roamkit.Spend.Proof

open Lib Billing Billing.Proof

/-! ## What a step can do -/

/-- A step that is neither a transfer nor a reservation. -/
def Ordinary (call : SpendCall) (pc : SpendPc) (x : SpendInput) : Prop :=
  (∀ esim account user, call = .transfer esim account user → pc = .asked → x ≠ .go)
    ∧ ∀ a package d, pc = .reserving a package → x ≠ .topup d

/-- How a transaction ends that has written nothing. -/
inductive Quits : SpendPc → SpendInput → SpendPc → Prop
  | crash {pc : SpendPc} : Quits pc .crash (.crashed none)
  | fail {pc : SpendPc} : Quits pc .fail (.refused .operational)

/-- Everything a step of a call can do to the database and to itself. -/
inductive LockMove (c : SpendSettings) (s : LockDb) (t : LockThread) : LockDb → LockPc → Prop
  | spends {pc : SpendPc} {x : SpendInput} {db : SpendDb} {u : SpendThread} :
      t.pc = .atomic pc → Ordinary t.call pc x → spendStep c s.spend ⟨t.call, pc⟩ x = some (db, u) →
      LockMove c s t { s with spend := db } (.atomic u.pc)
  -- a reservation
  | raises {a : PurchaseArgs} {package : Airalo.TopupPackage} {e : Exc} :
      t.pc = .atomic (.reserving a package) → lookUpTopup c s.spend a = .error e →
      LockMove c s t s (.atomic (.refused e))
  | replays {a : PurchaseArgs} {package : Airalo.TopupPackage} {u : Topup} :
      t.pc = .atomic (.reserving a package) → lookUpTopup c s.spend a = .ok (some u) →
      LockMove c s t s (.atomic (.replayed (.topup u)))
  | misses {a : PurchaseArgs} {package : Airalo.TopupPackage} :
      t.pc = .atomic (.reserving a package) → lookUpTopup c s.spend a = .ok none →
      LockMove c s t s (.unlocked a package)
  | turnsAway {a : PurchaseArgs} {package : Airalo.TopupPackage} {e : Exc} :
      t.pc = .unlocked a package →
      (s.spend.esims.find? (·.id = a.esim.id) = none ∧ e = .doesNotExist "Esim")
        ∨ (∃ locked, s.spend.esims.find? (·.id = a.esim.id) = some locked
          ∧ locked.account ≠ a.spendAccount
          ∧ e = .esimOwnershipChanged "Resolved Account does not own this eSIM") →
      LockMove c s t s (.atomic (.refused e))
  | locks {a : PurchaseArgs} {package : Airalo.TopupPackage} {locked : Esim} :
      t.pc = .unlocked a package → s.held a.esim.id = false →
      s.spend.esims.find? (·.id = a.esim.id) = some locked → locked.account = a.spendAccount →
      LockMove c s t (s.lock a.esim.id true) (.locked a package)
  | aborts {a : PurchaseArgs} {package : Airalo.TopupPackage} {d : Draw Uuid} {e : Exc} :
      t.pc = .locked a package → insertTopup c s.spend a package d = .error e →
      LockMove c s t (s.lock a.esim.id false) (.atomic (.refused e))
  | reserves {a : PurchaseArgs} {package : Airalo.TopupPackage} {d : Draw Uuid} {db : SpendDb}
      {u : Topup} :
      t.pc = .locked a package → insertTopup c s.spend a package d = .ok (db, u) →
      LockMove c s t ({ s with spend := db }.lock a.esim.id false)
        (.atomic (.requesting (.topup a package u)))
  -- a transfer
  | declines {esim : Nat} {account : Uuid} {user : UserId} {e : Option Exc} :
      t.pc = .atomic .asked → t.call = .transfer esim account user →
      (s.spend.esims.find? (·.id = esim) = none ∧ e = some (.doesNotExist "Esim"))
        ∨ (∃ locked, s.spend.esims.find? (·.id = esim) = some locked ∧ locked.account = account
          ∧ e = none) →
      LockMove c s t s (.atomic (.done e))
  | begins {esim : Nat} {account : Uuid} {user : UserId} {locked : Esim} :
      t.pc = .atomic .asked → t.call = .transfer esim account user → s.held esim = false →
      s.spend.esims.find? (·.id = esim) = some locked → locked.account ≠ account →
      LockMove c s t (s.lock esim true) (.checking esim account user)
  | gives {esim : Nat} {account : Uuid} {user : UserId} :
      t.pc = .checking esim account user →
      (s.spend.topups.rows.any fun t => t.esim = esim && t.status = .fulfilling) = true →
      LockMove c s t (s.lock esim false)
        (.atomic (.done (some (.esimTransfer "A top-up is still fulfilling for this eSIM"))))
  | passes {esim : Nat} {account : Uuid} {user : UserId} :
      t.pc = .checking esim account user →
      (s.spend.topups.rows.any fun t => t.esim = esim && t.status = .fulfilling) = false →
      LockMove c s t s (.moving esim account user)
  | transfers {esim : Nat} {account : Uuid} {user : UserId} :
      t.pc = .moving esim account user →
      LockMove c s t ({ s with spend := handOver s.spend esim account user }.lock esim false)
        (.atomic (.done none))
  -- the connection or the process is gone
  | quits {x : SpendInput} {pc : SpendPc} :
      (∃ a package, t.pc = .unlocked a package) → Quits .asked x pc →
      LockMove c s t s (.atomic pc)
  | releases {x : SpendInput} {esim : Nat} {pc : SpendPc} :
      (∃ a package, t.pc = .locked a package ∧ esim = a.esim.id)
        ∨ (∃ account user, t.pc = .checking esim account user ∨ t.pc = .moving esim account user) →
      Quits .asked x pc → LockMove c s t (s.lock esim false) (.atomic pc)

variable (d : Draw Uuid) {t t' : LockThread} {pc : SpendPc} {x : SpendInput} {esim : Nat}

theorem spendAt_move {c : SpendSettings} {s s' : LockDb} (hpc : t.pc = .atomic pc)
    (hord : Ordinary t.call pc x) (h : spendAt c s t pc x = some (s', t')) :
    LockMove c s t s' t'.pc ∧ t'.call = t.call := by
  unfold spendAt at h
  split at h
  · cases h
  rename_i hs
  cases h
  exact ⟨.spends hpc hord hs, rfl⟩

theorem lookUpStep_move {c : SpendSettings} {s s' : LockDb} {a : PurchaseArgs}
    {package : Airalo.TopupPackage} (hpc : t.pc = .atomic (.reserving a package))
    (h : lookUpStep c s t a package = (s', t')) : LockMove c s t s' t'.pc ∧ t'.call = t.call := by
  unfold lookUpStep at h
  split at h
  · rename_i hfind
    cases h
    exact ⟨.raises hpc hfind, rfl⟩
  · rename_i hfind
    cases h
    exact ⟨.replays hpc hfind, rfl⟩
  · rename_i hfind
    cases h
    exact ⟨.misses hpc hfind, rfl⟩

theorem lockTransferStep_move {c : SpendSettings} {s s' : LockDb} {account : Uuid} {user : UserId}
    (hpc : t.pc = .atomic .asked) (hcall : t.call = .transfer esim account user)
    (h : lockTransferStep s t esim account user = some (s', t')) :
    LockMove c s t s' t'.pc ∧ t'.call = t.call := by
  unfold lockTransferStep at h
  split at h
  · cases h
  rename_i hheld
  split at h
  · rename_i hfind
    cases h
    exact ⟨.declines hpc hcall (.inl ⟨hfind, rfl⟩), rfl⟩
  · rename_i locked hfind
    split at h
    · rename_i hacc
      cases h
      exact ⟨.declines hpc hcall (.inr ⟨locked, hfind, hacc, rfl⟩), rfl⟩
    · rename_i hacc
      cases h
      exact ⟨.begins hpc hcall (by simpa using hheld) hfind hacc, rfl⟩

theorem atomicStep_move {c : SpendSettings} {s s' : LockDb} (hpc : t.pc = .atomic pc)
    (h : atomicStep c s t pc x = some (s', t')) :
    LockMove c s t s' t'.pc ∧ t'.call = t.call := by
  unfold atomicStep at h
  split at h
  · exact lookUpStep_move hpc (Option.some.inj h)
  · cases h
  · rename_i hcall
    exact lockTransferStep_move hpc hcall h
  · rename_i hgo htopup htransfer
    refine spendAt_move hpc ⟨?_, ?_⟩ h
    · intro esim account user hcall hasked hx
      exact htransfer esim account user hasked hcall hx
    · intro a package d hreserving hx
      exact htopup a package d hreserving hx

theorem lockStep_move {c : SpendSettings} {s s' : LockDb} (h : lockStep c s t x = some (s', t')) :
    LockMove c s t s' t'.pc ∧ t'.call = t.call := by
  unfold lockStep at h
  split at h
  · rename_i hpc
    exact atomicStep_move hpc h
  · rename_i a package hpc
    cases h
    exact ⟨.quits ⟨a, package, hpc⟩ .crash, rfl⟩
  · rename_i a package hpc
    cases h
    exact ⟨.quits ⟨a, package, hpc⟩ .fail, rfl⟩
  · rename_i hpc
    unfold lockOwnedStep at h
    split at h
    · cases h
    rename_i hheld
    split at h
    · rename_i hfind
      cases h
      exact ⟨.turnsAway hpc (.inl ⟨hfind, rfl⟩), rfl⟩
    · rename_i locked hfind
      split at h
      · rename_i hacc
        cases h
        exact ⟨.turnsAway hpc (.inr ⟨locked, hfind, hacc, rfl⟩), rfl⟩
      · rename_i hacc
        cases h
        exact ⟨.locks hpc (by simpa using hheld) hfind (not_not.1 hacc), rfl⟩
  · rename_i a package hpc
    cases h
    exact ⟨.releases (.inl ⟨a, package, hpc, rfl⟩) .crash, rfl⟩
  · rename_i a package hpc
    cases h
    exact ⟨.releases (.inl ⟨a, package, hpc, rfl⟩) .fail, rfl⟩
  · rename_i hpc
    unfold reserveStep at h
    split at h
    · rename_i hinsert
      cases h
      exact ⟨.aborts hpc hinsert, rfl⟩
    · rename_i hinsert
      cases h
      exact ⟨.reserves hpc hinsert, rfl⟩
  · rename_i account user hpc
    cases h
    exact ⟨.releases (.inr ⟨account, user, .inl hpc⟩) .crash, rfl⟩
  · rename_i account user hpc
    cases h
    exact ⟨.releases (.inr ⟨account, user, .inl hpc⟩) .fail, rfl⟩
  · rename_i hpc
    unfold checkStep at h
    split at h
    · rename_i hany
      cases h
      exact ⟨.gives hpc hany, rfl⟩
    · rename_i hany
      cases h
      exact ⟨.passes hpc (by simpa using hany), rfl⟩
  · rename_i account user hpc
    cases h
    exact ⟨.releases (.inr ⟨account, user, .inr hpc⟩) .crash, rfl⟩
  · rename_i account user hpc
    cases h
    exact ⟨.releases (.inr ⟨account, user, .inr hpc⟩) .fail, rfl⟩
  · rename_i hpc
    cases h
    exact ⟨.transfers hpc, rfl⟩
  · cases h

/-! ## The steps of `spendStep` -/

/-- The point of `spendStep` a call is at, for all that others can see. -/
def view : LockPc → SpendPc
  | .atomic pc => pc
  | .unlocked a package => .reserving a package
  | .locked a package => .reserving a package
  | .checking _ _ _ => .asked
  | .moving _ _ _ => .asked

/-- A call as a call of `spendProgram`. -/
def viewThread (t : LockThread) : SpendThread := ⟨t.call, view t.pc⟩

/-- The eSIM whose row a call has locked. -/
def holding : LockPc → Option Nat
  | .locked a _ => some a.esim.id
  | .checking esim _ _ => some esim
  | .moving esim _ _ => some esim
  | _ => none

/-- What a call may rely on. -/
structure LockLocal (c : SpendSettings) (s : LockDb) (t : LockThread) : Prop where
  held : ∀ esim, holding t.pc = some esim → s.held esim = true
  billing : ∀ a package, t.pc = .unlocked a package ∨ t.pc = .locked a package →
    c.billingEnabled = true
  /-- The eSIM that is locked for a reservation is on the account that pays. -/
  owner : ∀ a package, t.pc = .locked a package →
    ∃ e ∈ s.spend.esims, e.id = a.esim.id ∧ e.account = a.spendAccount
  /-- The eSIM that is locked for a transfer is on another account. -/
  other : ∀ esim account user, t.pc = .checking esim account user
    ∨ t.pc = .moving esim account user →
    t.call = .transfer esim account user ∧ ∃ e ∈ s.spend.esims, e.id = esim ∧ e.account ≠ account
  /-- And no top-up is fulfilling for it, once that was looked for. -/
  free : ∀ esim account user, t.pc = .moving esim account user → ∀ v ∈ s.spend.topups,
    v.esim = esim → v.status ≠ .fulfilling

/-- Two calls have not locked one eSIM. -/
def LockApart (t u : LockThread) : Prop :=
  ∀ esim, holding t.pc = some esim → holding u.pc ≠ some esim

section Reserving

variable {c : SpendSettings} {s : SpendDb} {a : PurchaseArgs} {package : Airalo.TopupPackage}

theorem reserveTopup_of_raises {e : Exc} (hd : d.raced = false) (h : lookUpTopup c s a = .error e) :
    reserveTopup c s a package d = .error e := by
  unfold lookUpTopup at h
  unfold reserveTopup
  split at h
  · rename_i hb
    cases h
    rw [if_pos hb]
  · rename_i hb
    rw [if_neg hb, hd]
    split at h
    · rename_i existing hfind
      split at h
      · rename_i hstatus
        cases h
        simp [hfind, hstatus]
      · cases h
    · cases h

theorem reserveTopup_of_replays {u : Topup} (hd : d.raced = false)
    (h : lookUpTopup c s a = .ok (some u)) : reserveTopup c s a package d = .ok (s, .replay u) := by
  unfold lookUpTopup at h
  unfold reserveTopup
  split at h
  · cases h
  rename_i hb
  rw [if_neg hb, hd]
  split at h
  · rename_i existing hfind
    split at h
    · cases h
    rename_i hstatus
    cases h
    simp [hfind, hstatus]
  · cases h

theorem billing_of_lookUp {r : Option Topup} (h : lookUpTopup c s a = .ok r) :
    c.billingEnabled = true := by
  unfold lookUpTopup at h
  split at h
  · cases h
  · rename_i hb
    exact not_not.1 hb

/-- What a reservation does after a look-up that found nothing: the lock, and the rest. -/
theorem reserveTopup_raced (hb : c.billingEnabled = true) :
    reserveTopup c s a package { d with raced := true } =
      match s.esims.find? (·.id = a.esim.id) with
      | none => .error (.doesNotExist "Esim")
      | some locked =>
        if locked.account ≠ a.spendAccount then
          .error (.esimOwnershipChanged "Resolved Account does not own this eSIM")
        else
          match insertTopup c s a package d with
          | .error e => .error e
          | .ok (db, u) => .ok (db, .fresh u) := by
  unfold reserveTopup
  rw [if_neg (not_not.2 hb)]
  simp only [if_true]
  cases s.esims.find? (·.id = a.esim.id) with
  | none => rfl
  | some locked =>
    dsimp only
    by_cases hacc : locked.account ≠ a.spendAccount
    · rw [if_pos hacc, if_pos hacc]
    · rw [if_neg hacc, if_neg hacc]
      unfold insertTopup
      cases resolveTopupCharge c s a.spendAccount package d.profile with
      | error e => rfl
      | ok amount =>
        simp only [bind, Except.bind]
        cases a.columns package amount with
        | error e => rfl
        | ok stored =>
          cases stored with
          | none => rfl
          | some stored =>
            dsimp only
            cases s.topups.insert? (a.newTopup s package d.id stored) with
            | none => rfl
            | some topups =>
              dsimp only
              generalize preparePosting _ _ _ _ _ _ = posting
              cases posting with
              | error e => rfl
              | ok p =>
                dsimp only
                cases s.books.apply p <;> rfl

end Reserving

theorem find?_esim {s : SpendDb} {e : Esim} (he : e ∈ s.esims) :
    s.esims.find? (·.id = e.id) = some e :=
  Table.find?_of_mem he (by simp) fun _ hx => .inl (of_decide_eq_true hx)

theorem transferEsim_handOver {s : SpendDb} {e : Esim} {account : Uuid} {user : UserId}
    (he : e ∈ s.esims) (hne : e.account ≠ account)
    (hfree : ∀ v ∈ s.topups, v.esim = e.id → v.status ≠ .fulfilling) :
    transferEsim s e.id account user = .ok (handOver s e.id account user) := by
  unfold transferEsim
  rw [find?_esim he]
  dsimp only
  rw [if_neg hne, if_neg]
  · rfl
  · intro hany
    obtain ⟨v, hv, hcheck⟩ := List.any_eq_true.1 hany
    simp only [Bool.and_eq_true, decide_eq_true_eq] at hcheck
    exact hfree v hv hcheck.1 hcheck.2

/-- A step is a step of `spendStep`, or nothing as far as others can see. -/
theorem lockMove_view {c : SpendSettings} {s s' : LockDb} (hL : LockLocal c s t)
    (hm : LockMove c s t s' t'.pc) (hcall : t'.call = t.call) :
    (s'.spend = s.spend ∧ viewThread t' = viewThread t)
      ∨ ∃ y, spendStep c s.spend (viewThread t) y = some (s'.spend, viewThread t') := by
  obtain ⟨call, pc'⟩ := t'
  obtain ⟨call', pc⟩ := t
  obtain rfl : call = call' := hcall
  dsimp only at hm
  cases hm with
  | @spends pc₀ x db u hpc _ hs =>
    obtain rfl : pc = .atomic pc₀ := hpc
    obtain ⟨_, hsame⟩ := spendStep_move hs
    refine .inr ⟨x, ?_⟩
    obtain ⟨ucall, upc⟩ := u
    obtain rfl : ucall = call := hsame
    exact hs
  | @raises a package e hpc h =>
    obtain rfl : pc = .atomic (.reserving a package) := hpc
    refine .inr ⟨.topup ⟨a.spendAccount, false, none⟩, ?_⟩
    simp only [viewThread, view, spendStep,
      reserveTopup_of_raises ⟨a.spendAccount, false, none⟩ rfl h]
  | @replays a package u hpc h =>
    obtain rfl : pc = .atomic (.reserving a package) := hpc
    refine .inr ⟨.topup ⟨a.spendAccount, false, none⟩, ?_⟩
    simp only [viewThread, view, spendStep,
      reserveTopup_of_replays ⟨a.spendAccount, false, none⟩ rfl h]
  | @misses a package hpc _ =>
    obtain rfl : pc = .atomic (.reserving a package) := hpc
    exact .inl ⟨rfl, rfl⟩
  | @turnsAway a package e hpc h =>
    obtain rfl : pc = .unlocked a package := hpc
    have hraced : reserveTopup c s.spend a package ⟨a.spendAccount, true, none⟩ = _ :=
      reserveTopup_raced ⟨a.spendAccount, false, none⟩ (hL.billing a package (.inl rfl))
    refine .inr ⟨.topup ⟨a.spendAccount, true, none⟩, ?_⟩
    rcases h with ⟨hnone, rfl⟩ | ⟨locked, hsome, hacc, rfl⟩
    · rw [hnone] at hraced
      simp only [viewThread, view, spendStep]
      rw [hraced]
    · rw [hsome] at hraced
      dsimp only at hraced
      rw [if_pos hacc] at hraced
      simp only [viewThread, view, spendStep]
      rw [hraced]
  | @locks a package locked hpc _ _ _ =>
    obtain rfl : pc = .unlocked a package := hpc
    exact .inl ⟨rfl, rfl⟩
  | @aborts a package d e hpc h =>
    obtain rfl : pc = .locked a package := hpc
    obtain ⟨locked, hmem, hid, hacc⟩ := hL.owner a package rfl
    have hraced : reserveTopup c s.spend a package { d with raced := true } = _ :=
      reserveTopup_raced d (hL.billing a package (.inr rfl))
    rw [← hid, find?_esim hmem] at hraced
    dsimp only at hraced
    rw [if_neg (not_not.2 hacc), h] at hraced
    refine .inr ⟨.topup { d with raced := true }, ?_⟩
    simp only [viewThread, view, spendStep]
    rw [hraced]
    rfl
  | @reserves a package d db u hpc h =>
    obtain rfl : pc = .locked a package := hpc
    obtain ⟨locked, hmem, hid, hacc⟩ := hL.owner a package rfl
    have hraced : reserveTopup c s.spend a package { d with raced := true } = _ :=
      reserveTopup_raced d (hL.billing a package (.inr rfl))
    rw [← hid, find?_esim hmem] at hraced
    dsimp only at hraced
    rw [if_neg (not_not.2 hacc), h] at hraced
    refine .inr ⟨.topup { d with raced := true }, ?_⟩
    simp only [viewThread, view, spendStep]
    rw [hraced]
    rfl
  | @declines esim account user e hpc hto h =>
    obtain rfl : pc = .atomic .asked := hpc
    obtain rfl : call = .transfer esim account user := hto
    refine .inr ⟨.go, ?_⟩
    rcases h with ⟨hnone, rfl⟩ | ⟨locked, hsome, hacc, rfl⟩
    · simp only [viewThread, view, spendStep, transferEsim, hnone]
    · simp only [viewThread, view, spendStep, transferEsim, hsome, if_pos hacc]
  | @begins esim account user locked hpc _ _ _ _ =>
    obtain rfl : pc = .atomic .asked := hpc
    exact .inl ⟨rfl, rfl⟩
  | @gives esim account user hpc hany =>
    obtain rfl : pc = .checking esim account user := hpc
    obtain ⟨rfl, e, hmem, rfl, hacc⟩ := hL.other esim account user (.inl rfl)
    refine .inr ⟨.go, ?_⟩
    simp only [viewThread, view, spendStep, transferEsim, find?_esim hmem, if_neg hacc,
      hany, if_true]
    rfl
  | @passes esim account user hpc _ =>
    obtain rfl : pc = .checking esim account user := hpc
    exact .inl ⟨rfl, rfl⟩
  | @transfers esim account user hpc =>
    obtain rfl : pc = .moving esim account user := hpc
    obtain ⟨rfl, e, hmem, rfl, hacc⟩ := hL.other esim account user (.inr rfl)
    refine .inr ⟨.go, ?_⟩
    simp only [viewThread, view, spendStep,
      transferEsim_handOver hmem hacc (hL.free _ _ _ rfl)]
    rfl
  | @quits x pc₀ hpc hquits =>
    obtain ⟨a, package, hpc⟩ := hpc
    obtain rfl : pc = .unlocked a package := hpc
    refine .inr ⟨x, ?_⟩
    cases hquits <;> rfl
  | @releases x esim pc₀ hpc hquits =>
    refine .inr ⟨x, ?_⟩
    rcases hpc with ⟨a, package, hpc, _⟩ | ⟨account, user, hpc | hpc⟩
    · obtain rfl : pc = .locked a package := hpc
      cases hquits <;> rfl
    · obtain rfl : pc = .checking esim account user := hpc
      cases hquits <;> rfl
    · obtain rfl : pc = .moving esim account user := hpc
      cases hquits <;> rfl

/-! ## What is locked stays as it is -/

/-- A step that is neither a transfer nor a reservation moves no eSIM and reserves no top-up. -/
theorem ordinary_keeps {c : SpendSettings} {s db : SpendDb} {t u : SpendThread} (h : SpendInv s)
    (hL : SpendLocal s t) (hord : Ordinary t.call t.pc x) (hs : spendStep c s t x = some (db, u)) :
    (∀ e ∈ s.esims, e ∈ db.esims) ∧ ∀ v ∈ db.topups, v.status = .fulfilling → v ∈ s.topups := by
  obtain ⟨hm, hcall⟩ := spendStep_move hs
  obtain ⟨call, pc⟩ := t
  refine ⟨?_, ?_⟩
  · rcases esims_of_move h hL hm with hkept | ⟨hpc, esim, account, user, hto, _⟩
    · exact hkept
    · obtain rfl : pc = .asked := hpc
      obtain rfl : call = .transfer esim account user := hto
      cases x with
      | go => exact absurd rfl (hord.1 _ _ _ rfl rfl)
      | crash => cases hs; exact fun _ he => he
      | fail => cases hs; exact fun _ he => he
      | _ => cases hs
  · intro v hv hstatus
    rcases fulfilling_of_step h hL hm hcall hv hstatus with hold | ⟨a, package, d, hpc, _⟩
    · exact hold
    · obtain rfl : pc = .reserving a package := hpc
      cases x with
      | topup d => exact absurd rfl (hord.2 _ _ _ rfl)
      | crash => cases hs; exact hv
      | fail => cases hs; exact hv
      | _ => cases hs

/-- What the holder of a row lock relies on is left alone. -/
structure Undisturbed (s s' : LockDb) (esim : Nat) : Prop where
  held : s'.held esim = true
  esims : ∀ e ∈ s.spend.esims, e.id = esim → e ∈ s'.spend.esims
  free : (∀ v ∈ s.spend.topups, v.esim = esim → v.status ≠ .fulfilling) →
    ∀ v ∈ s'.spend.topups, v.esim = esim → v.status ≠ .fulfilling

theorem Undisturbed.same {s s' : LockDb} (hheld : s'.held esim = true)
    (hspend : s'.spend = s.spend) : Undisturbed s s' esim := by
  refine ⟨hheld, ?_, ?_⟩
  · rw [hspend]
    exact fun _ he _ => he
  · rw [hspend]
    exact id

theorem held_of_ne {s : LockDb} {other : Nat} {b : Bool} (hne : esim ≠ other)
    (h : s.held esim = true) : (s.lock other b).held esim = true := by
  exact (Function.update_of_ne hne _ _).trans h

/-- **A row lock keeps other calls away from its eSIM.** -/
theorem undisturbed_step {c : SpendSettings} {s s' : LockDb} (h : SpendInv s.spend)
    (hS : SpendLocal s.spend (viewThread t)) (hL : LockLocal c s t) (hm : LockMove c s t s' t'.pc)
    (hcall : t'.call = t.call) (hheld : s.held esim = true) (hne : holding t.pc ≠ some esim) :
    Undisturbed s s' esim := by
  have hview := lockMove_view hL hm hcall
  obtain ⟨call', pc'⟩ := t'
  dsimp only at hm
  cases hm with
  | @spends pc x db u hpc hord hs =>
    have hviewed : viewThread t = ⟨t.call, pc⟩ := by rw [viewThread, hpc]; rfl
    rw [hviewed] at hS
    obtain ⟨hesims, hfulfilling⟩ := ordinary_keeps h hS hord hs
    refine ⟨hheld, fun e he _ => hesims e he, ?_⟩
    intro hfree v hv hesim hstatus
    exact hfree v (hfulfilling v hv hstatus) hesim hstatus
  | @locks a package locked hpc hfree _ _ =>
    refine .same (held_of_ne ?_ hheld) rfl
    rintro rfl
    rw [hfree] at hheld
    cases hheld
  | @begins other account user locked hpc _ hfree _ _ =>
    refine .same (held_of_ne ?_ hheld) rfl
    rintro rfl
    rw [hfree] at hheld
    cases hheld
  | @aborts a package d e hpc _ =>
    rw [hpc] at hne
    exact .same (held_of_ne (fun heq => hne (congrArg some heq.symm)) hheld) rfl
  | @gives other account user hpc _ =>
    rw [hpc] at hne
    exact .same (held_of_ne (fun heq => hne (congrArg some heq.symm)) hheld) rfl
  | @reserves a package d db u hpc _ =>
    have hholding : holding t.pc = some a.esim.id := by rw [hpc]; rfl
    have hother : esim ≠ a.esim.id := fun heq => hne (heq ▸ hholding)
    rcases hview with ⟨_, hsame⟩ | ⟨y, hy⟩
    · rw [viewThread, viewThread, hpc] at hsame
      cases hsame
    · obtain ⟨hsm, hscall⟩ := spendStep_move hy
      have hviewed : (viewThread t).pc = .reserving a package := by rw [viewThread, hpc]; rfl
      refine ⟨held_of_ne hother hheld, ?_, ?_⟩
      · rcases esims_of_move h hS hsm with hkept | ⟨hasked, _⟩
        · exact fun e he _ => hkept e he
        · rw [hviewed] at hasked
          cases hasked
      · intro hfree v hv hesim hstatus
        rcases fulfilling_of_step h hS hsm hscall hv hstatus with hold | ⟨a', _, _, hpc', hr⟩
        · exact hfree v hold hesim hstatus
        · rw [hviewed] at hpc'
          cases hpc'
          obtain ⟨_, _, hid, _⟩ := reserveTopup_owner hr
          exact hother (hesim.symm.trans hid)
  | @transfers other account user hpc =>
    have hother : esim ≠ other := by
      rintro rfl
      rw [hpc] at hne
      exact hne rfl
    have hmem := @Table.mem_update _ _ s.spend.esims (·.id = other) (transferred account user)
      (fun _ _ h => h)
    refine ⟨held_of_ne hother hheld, ?_, id⟩
    intro e he hid
    refine hmem.2 ⟨e, he, rewrite_neg _ ?_⟩
    simpa [hid] using hother
  | @releases x other pc hpc _ =>
    refine .same (held_of_ne ?_ hheld) rfl
    rintro rfl
    rcases hpc with ⟨a, package, hpc, rfl⟩ | ⟨account, user, hpc | hpc⟩ <;> rw [hpc] at hne <;>
      exact hne rfl
  | _ => exact .same hheld rfl

theorem lockLocal_idle {c : SpendSettings} {s : LockDb} {call : SpendCall} :
    LockLocal c s ⟨call, .atomic pc⟩ := by
  refine ⟨?_, ?_, ?_, ?_, ?_⟩
  · intro esim h
    cases h
  · intro a package h
    rcases h with h | h <;> cases h
  · intro a package h
    cases h
  · intro esim account user h
    rcases h with h | h <;> cases h
  · intro esim account user h
    cases h

theorem lockLocal_step {c : SpendSettings} {s s' : LockDb} (hL : LockLocal c s t)
    (hm : LockMove c s t s' t'.pc) (hcall : t'.call = t.call) :
    LockLocal c s' t' := by
  obtain ⟨call', pc'⟩ := t'
  dsimp only at hm hcall
  subst hcall
  cases hm with
  | @misses a package hpc h =>
    refine ⟨?_, fun _ _ _ => billing_of_lookUp h, ?_, ?_, ?_⟩
    · intro esim hesim
      cases hesim
    · intro a' package' hpc'
      cases hpc'
    · intro esim account user hpc'
      rcases hpc' with hpc' | hpc' <;> cases hpc'
    · intro esim account user hpc'
      cases hpc'
  | @locks a package locked hpc _ hfind hacc =>
    have hmem := Table.mem_of_find? hfind
    have hid : locked.id = a.esim.id := by simpa using Table.prop_of_find? hfind
    refine ⟨?_, fun _ _ _ => hL.billing a package (.inl hpc), ?_, ?_, ?_⟩
    · intro esim hesim
      cases hesim
      exact Function.update_self _ _ _
    · intro a' package' hpc'
      cases hpc'
      exact ⟨locked, hmem, hid, hacc⟩
    · intro esim account user hpc'
      rcases hpc' with hpc' | hpc' <;> cases hpc'
    · intro esim account user hpc'
      cases hpc'
  | @begins esim account user locked hpc hto _ hfind hacc =>
    have hmem := Table.mem_of_find? hfind
    have hid : locked.id = esim := by simpa using Table.prop_of_find? hfind
    refine ⟨?_, ?_, ?_, ?_, ?_⟩
    · intro esim' hesim
      cases hesim
      exact Function.update_self _ _ _
    · intro a package hpc'
      rcases hpc' with hpc' | hpc' <;> cases hpc'
    · intro a package hpc'
      cases hpc'
    · intro esim' account' user' hpc'
      rcases hpc' with hpc' | hpc' <;> cases hpc'
      exact ⟨hto, locked, hmem, hid, hacc⟩
    · intro esim' account' user' hpc'
      cases hpc'
  | @passes esim account user hpc hany =>
    refine ⟨?_, ?_, ?_, ?_, ?_⟩
    · intro esim' hesim
      cases hesim
      exact hL.held esim (by rw [hpc]; rfl)
    · intro a package hpc'
      rcases hpc' with hpc' | hpc' <;> cases hpc'
    · intro a package hpc'
      cases hpc'
    · intro esim' account' user' hpc'
      rcases hpc' with hpc' | hpc' <;> cases hpc'
      exact hL.other esim account user (.inl hpc)
    · intro esim' account' user' hpc' v hv hesim hstatus
      cases hpc'
      rw [List.any_eq_false] at hany
      exact hany v hv (by simp [hesim, hstatus])
  | _ => exact lockLocal_idle

theorem LockLocal.frame {c : SpendSettings} {s s' : LockDb} {u : LockThread} (hu : LockLocal c s u)
    (hkept : ∀ esim, holding u.pc = some esim → Undisturbed s s' esim) : LockLocal c s' u := by
  refine ⟨fun esim hesim => (hkept esim hesim).held, hu.billing, ?_, ?_, ?_⟩
  · intro a package hpc
    obtain ⟨e, he, hid, hacc⟩ := hu.owner a package hpc
    exact ⟨e, (hkept a.esim.id (by rw [hpc]; rfl)).esims e he hid, hid, hacc⟩
  · intro esim account user hpc
    obtain ⟨hto, e, he, hid, hacc⟩ := hu.other esim account user hpc
    have hholding : holding u.pc = some esim := by
      rcases hpc with hpc | hpc <;> rw [hpc] <;> rfl
    exact ⟨hto, e, (hkept esim hholding).esims e he hid, hid, hacc⟩
  · intro esim account user hpc
    exact (hkept esim (by rw [hpc]; rfl)).free (hu.free esim account user hpc)

/-- The row a call comes to lock was not locked. -/
theorem holding_step {c : SpendSettings} {s s' : LockDb} (hm : LockMove c s t s' t'.pc)
    (h : holding t'.pc = some esim) :
    holding t.pc = some esim ∨ s.held esim = false := by
  obtain ⟨call', pc'⟩ := t'
  dsimp only at hm h
  cases hm with
  | locks _ hfree _ _ => cases h; exact .inr hfree
  | begins _ _ hfree _ _ => cases h; exact .inr hfree
  | passes hpc _ => cases h; exact .inl (by rw [hpc]; rfl)
  | _ => cases h

/-! ## Every run -/

/-- A fresh ledger, and no row locked. -/
structure FreshLocks (s : LockDb) : Prop where
  spend : FreshSpend s.spend
  held : ∀ esim, s.held esim = false

/-- **The invariant of transactions with row locks.** -/
theorem lockInvariant (c : SpendSettings) :
    Invariant (lockProgram c) FreshLocks (fun _ _ _ => True)
      (fun s => SpendInv s.spend ∧ ProviderInv c s.spend)
      (fun s t => (SpendLocal s.spend (viewThread t) ∧ Answered c s.spend (viewThread t))
        ∧ LockLocal c s t)
      (fun t u => SpendApart (viewThread t) (viewThread u) ∧ LockApart t u) where
  init := fun h => (spendInvariant c).init h.spend
  start := fun call h => ⟨(spendInvariant c).start call h, lockLocal_idle⟩
  apart_start :=
    fun call t => ⟨(spendInvariant c).apart_start call (viewThread t), fun _ h => by cases h⟩
  symm := by
    intro t u ⟨h, hlock⟩
    refine ⟨(spendInvariant c).symm h, ?_⟩
    intro esim hu ht
    exact hlock esim ht hu
  step := by
    intro s t x s' t' h ⟨hS, hL⟩ _ hs
    obtain ⟨hm, hcall⟩ := lockStep_move hs
    have hL' := lockLocal_step hL hm hcall
    rcases lockMove_view hL hm hcall with ⟨hspend, hsame⟩ | ⟨y, hy⟩
    · rw [hspend, hsame]
      exact ⟨h, hS, hL'⟩
    · obtain ⟨h', hS'⟩ := (spendInvariant c).step h hS trivial hy
      exact ⟨h', hS', hL'⟩
  frame := by
    intro s t x s' t' u h ⟨hS, hL⟩ _ hs ⟨hSu, hLu⟩ ⟨hR, hlock⟩
    obtain ⟨hm, hcall⟩ := lockStep_move hs
    have hLu' : LockLocal c s' u := by
      refine hLu.frame ?_
      intro esim hesim
      exact undisturbed_step h.1 hS.1 hL hm hcall (hLu.held esim hesim) fun ht =>
        hlock esim ht hesim
    have hlock' : LockApart t' u := by
      intro esim ht' hu
      rcases holding_step hm ht' with ht | hfree
      · exact hlock esim ht hu
      · rw [hLu.held esim hu] at hfree
        cases hfree
    rcases lockMove_view hL hm hcall with ⟨hspend, hsame⟩ | ⟨y, hy⟩
    · rw [hspend, hsame]
      exact ⟨⟨hSu, hLu'⟩, hR, hlock'⟩
    · obtain ⟨hSu', hR'⟩ := (spendInvariant c).frame h hS trivial hy hSu hR
      exact ⟨⟨hSu', hLu'⟩, hR', hlock'⟩

theorem lock_holds {c : SpendSettings} {g : Config LockDb LockThread}
    (h : (lockProgram c).Reach FreshLocks g) {p : Nat} (ht : g.threads p = some t) :
    SpendInv g.store.spend ∧ SpendLocal g.store.spend (viewThread t) ∧ LockLocal c g.store t := by
  have hold := (lockInvariant c).reach h
  exact ⟨hold.store.1, (hold.thread p t ht).1.1, (hold.thread p t ht).2⟩

/-- **Row locks refine single steps.** Every run with row locks is a run of `spendProgram`. -/
theorem lockProgram_refines {c : SpendSettings} {g : Config LockDb LockThread}
    (h : (lockProgram c).Reach FreshLocks g) :
    (spendProgram c).Reach FreshSpend (g.view LockDb.spend viewThread) := by
  refine Program.reach_view (fun _ hs => hs.spend) (fun _ => rfl) ?_ h
  intro g p t x s' t' hg ht hs
  obtain ⟨hm, hcall⟩ := lockStep_move hs
  exact lockMove_view (lock_holds hg ht).2.2 hm hcall

/-! ## Owners -/

/-- What holds of a database, and of every step from it, about the owners of eSIMs. -/
structure OwnershipSound (c : SpendSettings) (g : Config LockDb LockThread) : Prop where
  /-- An eSIM with a top-up fulfilling is on the account the top-up was debited to. -/
  owned : ∀ v ∈ g.store.spend.topups, v.status = .fulfilling → ∀ e ∈ g.store.spend.esims,
    e.id = v.esim → e.account = v.account
  /-- Debits go to the owner the call was prepared for, and transfers wait for top-ups. -/
  safe : ∀ p t x s' t', g.threads p = some t → lockStep c g.store t x = some (s', t') →
    OwnerSafe g.store.spend t.call s'.spend

/--
**A top-up is debited to the owner of its eSIM, and the owner stays while it is
fulfilling.** This holds in every interleaving of the statements of purchases and
transfers that the row locks allow.
-/
theorem ownership_sound {c : SpendSettings} {g : Config LockDb LockThread}
    (h : (lockProgram c).Reach FreshLocks g) : OwnershipSound c g := by
  refine ⟨?_, ?_⟩
  · intro v hv hstatus e he hid
    obtain ⟨e', he', hid', hacc⟩ := owned_holds (lockProgram_refines h) v hv hstatus
    have hclash : e = e' := Table.eq_of_clash (t := g.store.spend.esims) he he'
      (.inl (hid.trans hid'.symm))
    rw [hclash, hacc]
  · intro p t x s' t' ht hs
    obtain ⟨hinv, hS, hL⟩ := lock_holds h ht
    obtain ⟨hm, hcall⟩ := lockStep_move hs
    rcases lockMove_view hL hm hcall with ⟨hspend, _⟩ | ⟨y, hy⟩
    · rw [hspend]
      exact .idle _ _
    · obtain ⟨hsm, hscall⟩ := spendStep_move hy
      exact ownerSafe_step hinv hS hsm hscall

/-- An eSIM of Alice's. -/
def aliceEsim : Esim := ⟨1, alice, 7, 1, "8910", "", .blank, none, 0⟩

def lockedOnce : LockDb :=
  ⟨{ noPurchases with esims := ⟨[aliceEsim], List.pairwise_singleton _ _⟩ }, fun _ => false⟩

theorem freshLocks_lockedOnce : FreshLocks lockedOnce :=
  ⟨⟨fresh_twoAccounts, rfl, rfl⟩, fun _ => rfl⟩

/-- The provider lists a package for ten. -/
def listsTopup : SpendInput :=
  .answer ⟨true, .json (.dict [("data", .list [.dict [("id", .str "topup"), ("price", .int 10)]])])⟩

/-- A purchase of Alice's has locked the eSIM when a transfer to Bob begins. -/
def transferMeetsPurchase : List (Act SpendCall SpendInput) :=
  [.call 0 (.post (voucher alice "v")), .tick 0 .go,
    .call 1 (.purchase ⟨aliceEsim, "topup", "key", none⟩), .tick 1 .go, .tick 1 listsTopup,
      .tick 1 .go,
    .tick 1 .go, .call 2 (.transfer 1 bob 8)]

/-- The transfer has to wait. -/
def isBlocked (g : Config LockDb LockThread) : Bool :=
  (g.threads 2).any fun t => (lockStep spendSettings g.store t .go).isNone

theorem ownership_sound_blocked :
    ∃ g, (lockProgram spendSettings).Reach FreshLocks g ∧ isBlocked g = true
      ∧ OwnershipSound spendSettings g := by
  obtain ⟨g, hr, hg⟩ := Program.run_check (lockProgram spendSettings) lockedOnce
    transferMeetsPurchase isBlocked (by decide +kernel)
  have hreach := Program.reach_run freshLocks_lockedOnce hr
  exact ⟨g, hreach, hg, ownership_sound hreach⟩

end Roamkit.Spend.Proof
