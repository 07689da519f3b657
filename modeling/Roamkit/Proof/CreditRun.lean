import Roamkit.Proof.Credit

/-!
# The ledger under concurrent calls

Two things keep concurrent calls apart: the lock on the account's row, and the
unique index on the key, which makes a second insert of a key wait for the first
one's transaction to end. With them, the row a thread read under its lock is
still the committed one when it saves it, and the key it inserts is still unused
when it commits. So a commit is a posting the invariant allows, and it is what
`_apply` does when it runs on its own.
-/

namespace Roamkit.Billing.Proof

open Lib Billing CreditThread

/-! ## What a step can do -/

/-- An outcome that is reached without writing anything. -/
def Quiet (b : Books) (t : CreditThread) : CreditOutcome → Prop
  | .applied _ => False
  | .replayed e => ∃ p, t.posting = some p ∧ e ∈ b.entries ∧ e.idempotencyKey = p.idempotencyKey
  | .rebuilt balance => ∃ row, t = rebuilding row ∧ row.balance = balance
  | .raised _ => True

/-- Everything a step of a call can do. -/
inductive CreditMove (s : LedgerDb) : CreditThread → LedgerDb → CreditThread → Prop
  | ends {t : CreditThread} {o : CreditOutcome} :
      Quiet s.books t o → CreditMove s t (s.release t) (finished o)
  | locks {call : CreditCall} {p : Posting} {row : Account} :
      s.locked row.id = false → row ∈ s.books.accounts → row.id = p.account →
      CreditMove s (asked call) (s.lock row.id) (locked p row)
  | begins {call : CreditCall} {row : Account} :
      s.locked row.id = false → row ∈ s.books.accounts →
      CreditMove s (asked call) (s.lock row.id) (rebuilding row)
  | clears {p : Posting} {row : Account} :
      0 ≤ row.balance + p.delta → CreditMove s (locked p row) s (cleared p row)
  | conflicts {p : Posting} {row : Account} :
      CreditMove s (cleared p row) (s.release (cleared p row)) (conflicted p)
  | inserts {p : Posting} {row : Account} :
      s.inserting p.idempotencyKey = false →
      (∀ e ∈ s.books.entries, e.idempotencyKey ≠ p.idempotencyKey) →
      (p.entry row.balance).fits →
      CreditMove s (cleared p row) (s.reserve p.idempotencyKey) (inserted p row)
  | saves {p : Posting} {row : Account} :
      row.version + 1 ≤ maxVersion → CreditMove s (inserted p row) s (saved p row)
  | commits {p : Posting} {row : Account} {books : Books} :
      s.books.post row (p.entry row.balance) = some books →
      CreditMove s (saved p row) { s.release (saved p row) with books }
        (finished (.applied (p.entry row.balance)))
  | repairs {row : Account} {expected : Int} :
      s.books.ledgerSum row.id = some expected → row.balance ≠ expected →
      CreditMove s (rebuilding row) s (repaired row expected)
  | mends {row : Account} {expected : Int} {s' : LedgerDb} :
      CreditMove s (repaired row expected) s' (finished (.rebuilt expected))

variable {s s' : LedgerDb} {t t' u : CreditThread} {row : Account}

theorem creditStep_move {go : Bool} (h : creditStep s t go = some (s', t')) :
    CreditMove s t s' t' := by
  cases t with
  | finished o => simp [creditStep] at h
  | asked call =>
    simp only [creditStep] at h
    split at h
    · cases h; exact .ends trivial
    · split at h
      · cases h; exact .ends trivial
      · rename_i p _
        split at h
        · cases h
        rename_i hfree
        split at h
        · cases h; exact .ends trivial
        · rename_i row hrow
          cases h
          have hid : row.id = p.account := by simpa using Table.prop_of_find? hrow
          exact .locks (by rw [hid]; simpa using hfree) (Table.mem_of_find? hrow) hid
      · rename_i account _
        split at h
        · cases h
        rename_i hfree
        split at h
        · cases h; exact .ends trivial
        · rename_i row hrow
          cases h
          have hid : row.id = account := by simpa using Table.prop_of_find? hrow
          exact .begins (by rw [hid]; simpa using hfree) (Table.mem_of_find? hrow)
  | locked p row =>
    simp only [creditStep] at h
    split at h
    · cases h; exact .ends trivial
    · split at h
      · rename_i e he
        cases h
        exact .ends ⟨p, rfl, Table.mem_of_find? he, by simpa using Table.prop_of_find? he⟩
      · split at h
        · cases h; exact .ends trivial
        · cases h
          exact .clears (by omega)
  | cleared p row =>
    simp only [creditStep] at h
    split at h
    · cases h; exact .ends trivial
    · split at h
      · cases h; exact .ends trivial
      · rename_i hfits
        split at h
        · cases h
        rename_i hfree
        split at h
        · cases h; exact .conflicts
        · rename_i hnone
          cases h
          refine .inserts (by simpa using hfree) ?_ (by simpa using hfits)
          intro e he
          simpa using Table.not_of_find? hnone he
  | inserted p row =>
    simp only [creditStep] at h
    split at h
    · cases h; exact .ends trivial
    · split at h
      · cases h; exact .ends trivial
      · cases h
        exact .saves (by omega)
  | saved p row =>
    simp only [creditStep] at h
    split at h
    · cases h; exact .ends trivial
    · split at h
      · cases h; exact .ends trivial
      · rename_i books hpost
        cases h
        exact .commits hpost
  | conflicted p =>
    simp only [creditStep] at h
    split at h
    · cases h; exact .ends trivial
    · split at h
      · rename_i e he
        cases h
        exact .ends ⟨p, rfl, Table.mem_of_find? he, by simpa using Table.prop_of_find? he⟩
      · cases h; exact .ends trivial
  | rebuilding row =>
    simp only [creditStep] at h
    split at h
    · cases h; exact .ends trivial
    · split at h
      · cases h; exact .ends trivial
      · rename_i expected hsum
        split at h
        · rename_i heq
          cases h
          exact .ends ⟨row, rfl, heq⟩
        · rename_i hne
          split at h
          · cases h; exact .ends trivial
          · split at h
            · cases h; exact .ends trivial
            · cases h
              exact .repairs hsum hne
  | repaired row expected =>
    simp only [creditStep] at h
    split at h
    · cases h; exact .ends trivial
    · cases h
      exact .mends

/-! ## What a thread relies on -/

/-- What a thread has checked about the row it read; a balance is never found wrong. -/
def Checked : CreditThread → Prop
  | cleared p row => 0 ≤ row.balance + p.delta
  | inserted p row => 0 ≤ row.balance + p.delta ∧ (p.entry row.balance).fits
  | saved p row => 0 ≤ row.balance + p.delta ∧ (p.entry row.balance).fits
      ∧ row.version + 1 ≤ maxVersion
  | repaired _ _ => False
  | _ => True

/-- What a call in flight relies on about the database. -/
structure CreditLocal (s : LedgerDb) (t : CreditThread) : Prop where
  /-- The lock on the row it read is set. -/
  lock : ∀ row, t.row = some row → s.locked row.id
  /-- The row it read is still the committed one. -/
  current : ∀ row, t.row = some row → row ∈ s.books.accounts
  /-- The row is that of the account it posts to. -/
  account : ∀ row p, t.row = some row → t.posting = some p → row.id = p.account
  /-- The key it inserted is reserved. -/
  reserved : ∀ k, t.key = some k → s.inserting k
  /-- No committed entry has the key it inserted. -/
  unused : ∀ k, t.key = some k → ∀ e ∈ s.books.entries, e.idempotencyKey ≠ k
  /-- The checks it has passed hold. -/
  checked : Checked t

/-- No two calls hold one row or insert one key. -/
def CreditApart (t u : CreditThread) : Prop :=
  (∀ a, t.held = some a → u.held ≠ some a) ∧ ∀ k, t.key = some k → u.key ≠ some k

/-- A thread without a transaction relies on nothing. -/
theorem creditLocal_idle (hrow : t.row = none) (hkey : t.key = none)
    (hf : Checked t) : CreditLocal s t := by
  refine ⟨?_, ?_, ?_, ?_, ?_, hf⟩
  · intro row h; rw [hrow] at h; cases h
  · intro row h; rw [hrow] at h; cases h
  · intro row p h; rw [hrow] at h; cases h
  · intro k h; rw [hkey] at h; cases h
  · intro k h; rw [hkey] at h; cases h

theorem creditApart_idle (hrow : t.row = none) (hkey : t.key = none) :
    CreditApart t u := by
  refine ⟨?_, ?_⟩
  · intro a h
    rw [held, hrow] at h
    cases h
  · intro k h
    rw [hkey] at h
    cases h

theorem creditApart_symm (h : CreditApart t u) : CreditApart u t :=
  ⟨fun a hu ht => h.1 a ht hu, fun k hu ht => h.2 k ht hu⟩

theorem held_of_row (h : t.row = some row) :
    t.held = some row.id := by
  rw [held, h, Option.map_some]

/-- A balance that is right is found right. -/
theorem ledgerSum_eq {b : Books} {expected : Int} (hG : BooksInv b) (hrow : row ∈ b.accounts)
    (h : b.ledgerSum row.id = some expected) : row.balance = expected := by
  rw [Books.ledgerSum, Dec.quantize, Dec.units_ofUnits] at h
  split at h
  · rw [hG.balance_sum row hrow]
    exact Option.some.inj h
  · cases h

/-- A commit is what `_apply` does when it runs on its own. -/
theorem commit_eq_apply {p : Posting} {books : Books} (hL : CreditLocal s (saved p row))
    (hpost : s.books.post row (p.entry row.balance) = some books) :
    s.books.apply p = .ok (books, p.entry row.balance) := by
  obtain ⟨hfunds, hfits, hversion⟩ := hL.checked
  have hrow : s.books.accounts.find? (·.id = p.account) = some row := by
    refine Table.find?_of_mem (hL.current row rfl) ?_ ?_
    · simpa using hL.account row p rfl rfl
    · intro x hx
      exact (by simpa using hx : x.id = p.account).trans (hL.account row p rfl rfl).symm
  have hkey : s.books.entries.find? (·.idempotencyKey = p.idempotencyKey) = none := by
    rw [Table.find?_eq_none]
    intro e he
    simpa using hL.unused p.idempotencyKey rfl e he
  unfold Books.apply
  simp [hrow, hkey, Int.not_lt.2 hfunds, hfits, hpost, Nat.not_lt.2 hversion]

/-! ## The step of the thread itself -/

theorem creditLocal_step (hG : BooksInv s.books) (hL : CreditLocal s t)
    (hm : CreditMove s t s' t') : BooksInv s'.books ∧ CreditLocal s' t' := by
  cases hm with
  | ends _ => exact ⟨hG, creditLocal_idle rfl rfl trivial⟩
  | @locks _ p row _ hrow hid =>
    refine ⟨hG, ?_, ?_, ?_, ?_, ?_, trivial⟩
    · intro r hr
      cases hr
      exact Function.update_self _ _ _
    · intro r hr
      cases hr
      exact hrow
    · intro r q hr hq
      cases hr
      cases hq
      exact hid
    · intro k hk
      cases hk
    · intro k hk
      cases hk
  | @begins _ row _ hrow =>
    refine ⟨hG, ?_, ?_, ?_, ?_, ?_, trivial⟩
    · intro r hr
      cases hr
      exact Function.update_self _ _ _
    · intro r hr
      cases hr
      exact hrow
    · intro r q _ hq
      cases hq
    · intro k hk
      cases hk
    · intro k hk
      cases hk
  | clears hfunds => exact ⟨hG, hL.lock, hL.current, hL.account, hL.reserved, hL.unused, hfunds⟩
  | conflicts => exact ⟨hG, creditLocal_idle rfl rfl trivial⟩
  | @inserts p row _ hnew hfits =>
    refine ⟨hG, hL.lock, hL.current, hL.account, ?_, ?_, hL.checked, hfits⟩
    · intro k hk
      cases hk
      exact Function.update_self _ _ _
    · intro k hk
      cases hk
      exact hnew
  | saves hversion =>
    exact ⟨hG, hL.lock, hL.current, hL.account, hL.reserved, hL.unused,
      hL.checked.1, hL.checked.2, hversion⟩
  | commits hpost =>
    exact ⟨hG.apply (commit_eq_apply hL hpost), creditLocal_idle rfl rfl trivial⟩
  | @repairs row expected hsum hne => exact absurd (ledgerSum_eq hG (hL.current row rfl) hsum) hne
  | mends => exact hL.checked.elim

/-! ## The other threads -/

/-- A step leaves a thread's part alone when it keeps what the thread relies on. -/
theorem CreditLocal.frame (h : CreditLocal s u)
    (hlock : ∀ a, u.held = some a → s.locked a → s'.locked a)
    (hkey : ∀ k, u.key = some k → s.inserting k → s'.inserting k)
    (hrow : ∀ row, u.row = some row → row ∈ s'.books.accounts)
    (hnew : ∀ k, u.key = some k → ∀ e ∈ s'.books.entries, e.idempotencyKey ≠ k) :
    CreditLocal s' u :=
  ⟨fun row hr => hlock _ (held_of_row hr) (h.lock row hr), hrow, h.account,
    fun k hk => hkey k hk (h.reserved k hk), hnew, h.checked⟩

/-- The end of a thread's transaction leaves the locks of the others. -/
theorem CreditLocal.frame_release (h : CreditLocal s u) (hR : CreditApart t u) :
    CreditLocal (s.release t) u := by
  refine h.frame ?_ ?_ h.current h.unused
  · intro a hu hs
    have hne : t.held ≠ some a := fun ht => hR.1 a ht hu
    simp [LedgerDb.release, hs, hne]
  · intro k hu hs
    have hne : t.key ≠ some k := fun ht => hR.2 k ht hu
    simp [LedgerDb.release, hs, hne]

theorem CreditLocal.frame_lock (h : CreditLocal s u) (account : Uuid) :
    CreditLocal (s.lock account) u := by
  refine h.frame ?_ (fun _ _ => id) h.current h.unused
  intro a _ hs
  by_cases ha : a = account
  · rw [ha]
    exact Function.update_self _ _ _
  · simpa [LedgerDb.lock, ha] using hs

theorem CreditLocal.frame_reserve (h : CreditLocal s u) (key : String) :
    CreditLocal (s.reserve key) u := by
  refine h.frame (fun _ _ => id) ?_ h.current h.unused
  intro k _ hs
  by_cases hk : k = key
  · rw [hk]
    exact Function.update_self _ _ _
  · simpa [LedgerDb.reserve, hk] using hs

/-- A lock that was free is no other thread's. -/
theorem CreditLocal.not_held (h : CreditLocal s u) {a : Uuid}
    (hfree : s.locked a = false) : u.held ≠ some a := by
  intro hu
  rw [held, Option.map_eq_some_iff] at hu
  obtain ⟨row, hrow, rfl⟩ := hu
  have := h.lock row hrow
  rw [hfree] at this
  cases this

theorem CreditLocal.not_key (h : CreditLocal s u) {k : String}
    (hfree : s.inserting k = false) : u.key ≠ some k := by
  intro hu
  have := h.reserved k hu
  rw [hfree] at this
  cases this

/-- A commit changes no row another thread holds and uses no key another thread inserts. -/
theorem CreditLocal.frame_commit {p : Posting} {books : Books} (h : CreditLocal s u)
    (hR : CreditApart (saved p row) u)
    (hpost : s.books.post row (p.entry row.balance) = some books) :
    CreditLocal { s.release (saved p row) with books } u := by
  have hu := h.frame_release hR
  refine hu.frame (fun _ _ => id) (fun _ _ => id) ?_ ?_
  · intro r hr
    refine mem_accounts_of_post hpost (h.current r hr) ?_
    intro hid
    exact hR.1 r.id (by rw [hid]; rfl) (held_of_row hr)
  · intro k hk e he
    rcases (mem_entries_post hpost).1 he with he | rfl
    · exact h.unused k hk e he
    · intro hkey
      exact hR.2 k (by rw [← hkey]; rfl) hk

theorem creditLocal_frame (hL : CreditLocal s t) (hm : CreditMove s t s' t')
    (hu : CreditLocal s u) (hR : CreditApart t u) :
    CreditLocal s' u ∧ CreditApart t' u := by
  cases hm with
  | ends _ => exact ⟨hu.frame_release hR, creditApart_idle rfl rfl⟩
  | locks hfree _ _ =>
    refine ⟨hu.frame_lock _, ?_, ?_⟩
    · intro a ha
      cases ha
      exact hu.not_held hfree
    · intro k hk
      cases hk
  | begins hfree _ =>
    refine ⟨hu.frame_lock _, ?_, ?_⟩
    · intro a ha
      cases ha
      exact hu.not_held hfree
    · intro k hk
      cases hk
  | clears _ => exact ⟨hu, hR⟩
  | conflicts => exact ⟨hu.frame_release hR, creditApart_idle rfl rfl⟩
  | inserts hfree _ _ =>
    refine ⟨hu.frame_reserve _, hR.1, ?_⟩
    intro k hk
    cases hk
    exact hu.not_key hfree
  | saves _ => exact ⟨hu, hR⟩
  | commits hpost => exact ⟨hu.frame_commit hR hpost, creditApart_idle rfl rfl⟩
  | repairs _ _ => exact ⟨hu, hR⟩
  | mends => exact hL.checked.elim

/-! ## Every run -/

/-- A database at rest, whose books hold no entry. -/
def FreshDb (s : LedgerDb) : Prop := ∃ b, Books.Fresh b ∧ s = LedgerDb.ofBooks b

/-- **The invariant of concurrent credit calls.** -/
theorem creditInvariant :
    Invariant creditProgram FreshDb (fun _ _ _ => True) (fun s => BooksInv s.books) CreditLocal
      CreditApart where
  init := by
    rintro s ⟨b, hb, rfl⟩
    exact booksInv_init hb
  start := fun _ _ => creditLocal_idle rfl rfl trivial
  apart_start := fun _ _ => creditApart_idle rfl rfl
  symm := creditApart_symm
  step := fun hG hL _ hs => creditLocal_step hG hL (creditStep_move hs)
  frame := fun _ hL _ hs hu hR => creditLocal_frame hL (creditStep_move hs) hu hR

/-- A step that changes the books is the commit of an applied posting. -/
theorem books_of_step {go : Bool} (hL : CreditLocal s t) (h : creditStep s t go = some (s', t')) :
    s'.books = s.books ∨ ∃ p row, t = saved p row ∧ t' = finished (.applied (p.entry row.balance))
      ∧ s.books.apply p = .ok (s'.books, p.entry row.balance) := by
  have hm := creditStep_move h
  cases hm with
  | commits hpost => exact .inr ⟨_, _, rfl, rfl, commit_eq_apply hL hpost⟩
  | mends => exact hL.checked.elim
  | _ => exact .inl rfl

/-- No step of a call that ends as anything but applied writes the books. -/
theorem books_of_unapplied {post : List (Act CreditCall Bool)}
    {c c₁ c₂ : Config LedgerDb CreditThread} {p : Nat} {go : Bool} {o : CreditOutcome}
    (hc : c₁.Holds (fun s => BooksInv s.books) CreditLocal CreditApart)
    (he : creditProgram.exec c₁ (.tick p go) = some c₂)
    (hr : creditProgram.run c₂ post = some c) (hp : c.threads p = some (finished o))
    (ho : ∀ e, o ≠ .applied e) : c₂.store.books = c₁.store.books := by
  obtain ⟨t, t', ht, hs, hthreads⟩ := Program.exec_tick he
  rcases books_of_step (hc.thread p t ht) hs with heq | ⟨q, row, _, rfl, _⟩
  · exact heq
  · -- the thread is finished as applied, and stays so
    have hdone : c₂.threads p = some (finished (.applied (q.entry row.balance))) := by
      rw [hthreads, Function.update_self]
    have := Program.threads_of_finished (fun _ _ => rfl) hdone hr
    rw [hp] at this
    cases this
    exact absurd rfl (ho _)

/--
**The credit ledger is sound.** After any run of concurrent calls on fresh
accounts, every balance is the sum of the account's deltas and not negative, every
version is the number of its entries, every entry records the sum up to itself and
no key is on two entries; and no step of a call that raised or replayed a used key
changed an account or an entry.
-/
theorem credit_ledger_sound {s : LedgerDb} {as : List (Act CreditCall Bool)}
    {c : Config LedgerDb CreditThread} (hs : FreshDb s)
    (hr : creditProgram.run (Config.idle s) as = some c) :
    (∀ a ∈ c.store.books.accounts,
        a.balance = total CreditLedgerEntry.delta (c.store.books.entriesOf a.id)
          ∧ 0 ≤ a.balance
          ∧ a.version = (c.store.books.entriesOf a.id).length
          ∧ ∀ pre e post, c.store.books.entriesOf a.id = pre ++ e :: post →
              e.balanceAfter = total CreditLedgerEntry.delta pre + e.delta)
      ∧ (∀ pre e mid f post, c.store.books.entries.rows = pre ++ e :: mid ++ f :: post →
          e.idempotencyKey ≠ f.idempotencyKey)
      ∧ ∀ p o, c.threads p = some (finished o) → (∀ e, o ≠ .applied e) →
          ∀ pre go post c₁ c₂, as = pre ++ .tick p go :: post →
            creditProgram.run (Config.idle s) pre = some c₁ →
            creditProgram.exec c₁ (.tick p go) = some c₂ → c₂.store.books = c₁.store.books := by
  have hG : BooksInv c.store.books := (creditInvariant.reach (Program.reach_run hs hr)).store
  refine ⟨?_, ?_, ?_⟩
  · intro a ha
    exact ⟨hG.balance_sum a ha, hG.balance_nonneg a ha, hG.version_count a ha, hG.running a.id⟩
  · intro pre e mid f post heq
    have hapart := c.store.books.entries.apart
    rw [heq, List.append_assoc, List.pairwise_append] at hapart
    exact List.rel_of_pairwise_cons hapart.2.1 (by simp)
  · intro p o hp ho pre go post c₁ c₂ has hpre he
    have hc := creditInvariant.reach (Program.reach_run hs hpre)
    have hpost : creditProgram.run c₂ post = some c := by
      rw [has, Program.run_append, hpre] at hr
      simpa [Program.run, he] using hr
    exact books_of_unapplied hc he hpost hp ho

/-! ## A race for one key -/

theorem freshDb_twoAccounts : FreshDb (LedgerDb.ofBooks twoAccounts) :=
  ⟨twoAccounts, fresh_twoAccounts, rfl⟩

/-- Both accounts are credited under one key; the one that inserts second replays the first. -/
def raceForKey : List (Act CreditCall Bool) :=
  [.call 0 (.credit alice (.str "5") (.str "voucher") "v" "key"),
    .call 1 (.credit bob (.decimal (.finite ⟨7, 0⟩)) (.member .voucher) "v" "key"),
    .tick 0 true, .tick 1 true, .tick 0 true, .tick 1 true, .tick 0 true, .tick 0 true,
    .tick 0 true, .tick 1 true, .tick 1 true]

theorem credit_race_sound :
    ∃ c, creditProgram.run (Config.idle (LedgerDb.ofBooks twoAccounts)) raceForKey = some c
      ∧ c.threads 1 = some (finished (.replayed
          ⟨alice, 5000000, 5000000, .voucher, "v", "key"⟩))
      ∧ ∀ a ∈ c.store.books.accounts,
          a.balance = total CreditLedgerEntry.delta (c.store.books.entriesOf a.id) := by
  obtain ⟨c, hr, hc⟩ := Program.run_check creditProgram (LedgerDb.ofBooks twoAccounts) raceForKey
    (fun c => (c.threads 1).any fun
      | finished o => o = .replayed ⟨alice, 5000000, 5000000, .voucher, "v", "key"⟩
      | _ => false) (by decide)
  refine ⟨c, hr, ?_, fun a ha => ((credit_ledger_sound freshDb_twoAccounts hr).1 a ha).1⟩
  obtain ⟨t, ht, hf⟩ := (Option.any_eq_true _ _).1 hc
  rw [ht]
  cases t with
  | finished o => simpa using hf
  | _ => cases hf

end Roamkit.Billing.Proof
