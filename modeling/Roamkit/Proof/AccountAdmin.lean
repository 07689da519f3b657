import Roamkit.Billing.AccountAdmin
import Roamkit.Proof.CreditRun

/-!
# What an edit of an account does to its balance

A save writes the balance and the version that were loaded. While these are still those
of the row, that writes nothing, and the calls of the service never notice; where a
credit or a debit came in between, its movement is lost from the balance.
-/

namespace Roamkit.Billing.Proof

open Lib Billing

/-- The row that was loaded is still the one in the table. -/
def CurrentRow (s : LedgerDb) (row : Account) : Prop :=
  ∀ a ∈ s.books.accounts, a.id = row.id → a.balance = row.balance ∧ a.version = row.version

/-- A submission that saves its row finds it as it was loaded. -/
def SavesCurrent (s : LedgerDb) (t : AccountThread) (go : Bool) : Prop :=
  ∀ account row, t = .edit account (.loaded row) → go = true → CurrentRow s row

/-- Balances and versions are what the ledger says. -/
def Balanced (b : Books) : Prop :=
  ∀ a ∈ b.accounts, a.balance = total CreditLedgerEntry.delta (b.entriesOf a.id)
    ∧ a.version = (b.entriesOf a.id).length

theorem BooksInv.balanced {b : Books} (h : BooksInv b) : Balanced b :=
  fun a ha => ⟨h.balance_sum a ha, h.version_count a ha⟩

/-! ## One save -/

section Save

variable {s : LedgerDb} {row : Account}

theorem table_ext {ρ : Type*} [Constraint ρ] {t t' : Table ρ} (h : t.rows = t'.rows) : t = t' := by
  cases t
  cases t'
  cases h
  rfl

/-- **The save of a row that is current writes nothing.** -/
theorem saveRow_current (h : CurrentRow s row) : s.saveRow row = s := by
  have hrows : s.books.accounts.rows.map (rewrite (·.id = row.id)
      fun a => { a with balance := row.balance, version := row.version })
        = s.books.accounts.rows := by
    refine (List.map_congr_left ?_).trans (List.map_id _)
    intro a ha
    by_cases hid : a.id = row.id
    · obtain ⟨hbalance, hversion⟩ := h a ha hid
      rw [rewrite_pos _ (by simpa using hid), ← hbalance, ← hversion]
      rfl
    · rw [rewrite_neg _ (by simpa using hid)]
      rfl
  have htable := table_ext (t := s.books.accounts.update (·.id = row.id)
    (fun a => { a with balance := row.balance, version := row.version }) (fun _ _ h => h)) hrows
  unfold LedgerDb.saveRow
  rw [htable]

/-- A save that leaves the balances right was of a current row. -/
theorem current_of_balanced (hs : Balanced s.books)
    (h : Balanced (s.saveRow row).books) : CurrentRow s row := by
  intro a ha hid
  have hmem : { a with balance := row.balance, version := row.version }
      ∈ (s.saveRow row).books.accounts := by
    refine List.mem_map.2 ⟨a, ha, ?_⟩
    rw [rewrite_pos _ (by simpa using hid)]
  obtain ⟨hbalance, hversion⟩ := hs a ha
  obtain ⟨hbalance', hversion'⟩ := h _ hmem
  -- the entries are the same before and after
  exact ⟨hbalance.trans hbalance'.symm, hversion.trans hversion'.symm⟩

end Save

/-! ## Runs -/

/-- What a thread relies on: a call of the service, what it relies on without the form. -/
def AccountLocal (s : LedgerDb) : AccountThread → Prop
  | .service t => CreditLocal s t
  | .edit _ _ => True

def AccountApart : AccountThread → AccountThread → Prop
  | .service t, .service u => CreditApart t u
  | _, _ => True

/-- A submission that meets the condition changes nothing. -/
theorem editStep_same {s s' : LedgerDb} {account : Uuid} {pc pc' : EditPc} {go : Bool}
    (hok : SavesCurrent s (.edit account pc) go)
    (h : editStep s account pc go = some (s', pc')) : s' = s := by
  unfold editStep at h
  split at h
  · split at h
    · cases h; rfl
    · split at h <;> cases h <;> rfl
  · rename_i row
    split at h
    · cases h; rfl
    · rename_i hgo
      split at h
      · cases h
      · cases h
        exact saveRow_current (hok account row rfl (by simpa using hgo))
  · cases h
  · cases h

theorem accountInvariant :
    Invariant accountProgram FreshDb SavesCurrent
      (fun s => BooksInv s.books) AccountLocal AccountApart where
  init hs := creditInvariant.init hs
  start k hG := by
    cases k with
    | service call => exact creditInvariant.start call hG
    | edit account => trivial
  apart_start k t := by
    cases k with
    | service call =>
      cases t with
      | service t => exact creditInvariant.apart_start call t
      | edit account pc => trivial
    | edit account => trivial
  symm := by
    intro t u h
    cases t with
    | service t =>
      cases u with
      | service u => exact creditInvariant.symm h
      | edit account pc => trivial
    | edit account pc => cases u <;> trivial
  step := by
    intro s t go s' t' hG hL hok h
    cases t with
    | service t =>
      obtain ⟨⟨s₁, t₁⟩, hstep, heq⟩ := Option.map_eq_some_iff.1 h
      cases heq
      exact creditInvariant.step hG hL trivial hstep
    | edit account pc =>
      obtain ⟨⟨s₁, pc₁⟩, hstep, heq⟩ := Option.map_eq_some_iff.1 h
      cases heq
      rw [editStep_same hok hstep]
      exact ⟨hG, trivial⟩
  frame := by
    intro s t go s' t' u hG hL hok h hu hapart
    cases t with
    | service t =>
      obtain ⟨⟨s₁, t₁⟩, hstep, heq⟩ := Option.map_eq_some_iff.1 h
      cases heq
      cases u with
      | service u => exact creditInvariant.frame hG hL trivial hstep hu hapart
      | edit account pc => exact ⟨trivial, trivial⟩
    | edit account pc =>
      obtain ⟨⟨s₁, pc₁⟩, hstep, heq⟩ := Option.map_eq_some_iff.1 h
      cases heq
      rw [editStep_same hok hstep]
      exact ⟨hu, trivial⟩

/--
**Edits that save what is current leave every balance the sum of its deltas.** And a
save leaves the balances and versions right exactly when the row it saves is current.
-/
theorem account_edits_sound {g : Config LedgerDb AccountThread}
    (h : accountProgram.ReachWhere FreshDb SavesCurrent g) :
    Balanced g.store.books
      ∧ ∀ p account row g', g.threads p = some (.edit account (.loaded row)) →
          accountProgram.exec g (.tick p true) = some g' →
          (Balanced g'.store.books ↔ CurrentRow g.store row) := by
  have hG : BooksInv g.store.books := (accountInvariant.reach h).store
  refine ⟨hG.balanced, ?_⟩
  intro p account row g' hp he
  obtain ⟨t, t', ht, hs, _⟩ := Program.exec_tick he
  rw [hp] at ht
  cases ht
  have hsave : g'.store = g.store.saveRow row := by
    obtain ⟨⟨s₁, pc₁⟩, hstep, heq⟩ := Option.map_eq_some_iff.1 hs
    cases heq
    unfold editStep at hstep
    dsimp only at hstep
    rw [if_neg (by simp)] at hstep
    split at hstep
    · cases hstep
    · exact (Prod.mk.inj (Option.some.inj hstep)).1.symm
  rw [hsave]
  constructor
  · exact current_of_balanced hG.balanced
  · intro hcurrent
    rw [saveRow_current hcurrent]
    exact hG.balanced

/-! ## A credit between the load and the save -/

/-- An account is loaded, credited with 5, and saved. -/
def creditedWhileEdited : List (Act AccountCall Bool) :=
  [.call 0 (.edit alice), .tick 0 true,
    .call 1 (.service (.credit alice (.str "5") (.str "voucher") "v" "key")),
    .tick 1 true, .tick 1 true, .tick 1 true, .tick 1 true, .tick 1 true, .tick 0 true]

/-- An account is edited and then credited. -/
def creditedAfterEdit : List (Act AccountCall Bool) :=
  [.call 0 (.edit alice), .tick 0 true, .tick 0 true,
    .call 1 (.service (.credit alice (.str "5") (.str "voucher") "v" "key")),
    .tick 1 true, .tick 1 true, .tick 1 true, .tick 1 true, .tick 1 true]

/-- The check of `SavesCurrent`. -/
def savesCurrent? (s : LedgerDb) (t : AccountThread) (go : Bool) : Bool :=
  match t with
  | .edit _ (.loaded row) =>
    !go || s.books.accounts.rows.all fun a =>
      a.id ≠ row.id || (a.balance = row.balance && a.version = row.version)
  | _ => true

theorem savesCurrent_of_check {s : LedgerDb} {t : AccountThread} {go : Bool}
    (h : savesCurrent? s t go = true) : SavesCurrent s t go := by
  rintro account row rfl rfl a ha hid
  have hall : s.books.accounts.rows.all (fun a =>
      a.id ≠ row.id || (a.balance = row.balance && a.version = row.version)) = true := by
    simpa [savesCurrent?] using h
  have hrow := List.all_eq_true.1 hall a ha
  simpa [hid] using hrow

/-- Alice's balance and the sum of her deltas. -/
def aliceBalance (g : Config LedgerDb AccountThread) (balance sum : Int) : Bool :=
  (g.store.books.accounts.find? (·.id = alice)).any (·.balance = balance)
    && total CreditLedgerEntry.delta (g.store.books.entriesOf alice) = sum

theorem account_edits_sound_credited : ∃ g, aliceBalance g 5000000 5000000 = true
    ∧ Balanced g.store.books := by
  have hrun : ∃ g, accountProgram.ReachWhere FreshDb SavesCurrent g
      ∧ aliceBalance g 5000000 5000000 = true :=
    Program.reachWhere_check savesCurrent? (fun _ _ _ => savesCurrent_of_check) freshDb_twoAccounts
      creditedAfterEdit (aliceBalance · 5000000 5000000) (by decide)
  obtain ⟨g, hg, hf⟩ := hrun
  exact ⟨g, hf, (account_edits_sound hg).1⟩

/-- **A credit that commits while a form is open is lost from the balance.** -/
theorem credit_lost_by_edit : ∃ g, accountProgram.Reach FreshDb g ∧ ¬ Balanced g.store.books := by
  obtain ⟨g, hr, hf⟩ :=
    Program.run_check accountProgram (LedgerDb.ofBooks twoAccounts) creditedWhileEdited
    (aliceBalance · 0 5000000) (by decide)
  refine ⟨g, Program.reach_run freshDb_twoAccounts hr, ?_⟩
  intro hbalanced
  obtain ⟨hany, hsum⟩ := Bool.and_eq_true_iff.1 hf
  obtain ⟨a, ha, hbalance⟩ := (Option.any_eq_true _ _).1 hany
  have hid : a.id = alice := by simpa using Table.prop_of_find? ha
  have hright := (hbalanced a (Table.mem_of_find? ha)).1
  rw [hid, of_decide_eq_true hbalance, of_decide_eq_true hsum] at hright
  omega

end Roamkit.Billing.Proof
