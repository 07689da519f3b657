import Roamkit.Billing.Credit

/-!
# The books are sound

`Account.balance` is a cache of the ledger and `Account.version` counts its
entries. `BooksInv` says the cache is right: every balance is the sum of the
account's deltas, no balance is below zero, every version is the number of
entries, and each entry records the balance it left.

`apply_cases` says once what a call of `_apply` can do to the books: give back
the entry of a used key, or append one entry and save the row it was made for.
Everything else here is derived from it.
-/

namespace Roamkit.Billing.Proof

open Lib Billing

/-! ## What a posting does to the books -/

variable {b b' : Books} {row : Account} {e : CreditLedgerEntry} {p : Posting}

/-- What `post` does: one more entry, and the balance and the version of one row. -/
theorem post_cases (h : b.post row e = some b') :
    b'.entries.rows = b.entries.rows ++ [e]
      ∧ (∀ f ∈ b.entries, f.idempotencyKey ≠ e.idempotencyKey)
      ∧ b'.accounts.rows = b.accounts.rows.map (rewrite (·.id = row.id)
          fun a => { a with balance := e.balanceAfter, version := row.version + 1 }) := by
  unfold Books.post at h
  cases hq : b.entries.insert? e with
  | none => rw [hq] at h; cases h
  | some entries =>
    rw [hq] at h
    cases h
    exact ⟨Table.rows_insert hq, fun f hf => Table.apart_of_insert hq hf, rfl⟩

theorem post_isSome (h : ∀ f ∈ b.entries, f.idempotencyKey ≠ e.idempotencyKey) :
    ∃ b', b.post row e = some b' := by
  unfold Books.post
  cases hq : b.entries.insert? e with
  | none =>
    obtain ⟨f, hf, hc⟩ := Table.clash_of_insert_none hq
    exact absurd hc (h f hf)
  | some entries => exact ⟨_, rfl⟩

/-- The accounts after a posting: the row it was made for, and all others as they were. -/
theorem mem_accounts_post {a : Account} (h : b.post row e = some b') (ha : a ∈ b'.accounts) :
    a = ⟨row.id, e.balanceAfter, row.version + 1⟩ ∨ (a ∈ b.accounts ∧ a.id ≠ row.id) := by
  obtain ⟨_, _, hacc⟩ := post_cases h
  rw [Table.mem_def, hacc, List.mem_map] at ha
  obtain ⟨r, hr, rfl⟩ := ha
  by_cases hid : r.id = row.id
  · left
    rw [rewrite_pos _ (by simpa using hid), hid]
  · right
    rw [rewrite_neg _ (by simpa using hid)]
    exact ⟨hr, hid⟩

theorem mem_accounts_of_post {a : Account} (h : b.post row e = some b') (ha : a ∈ b.accounts)
    (hid : a.id ≠ row.id) : a ∈ b'.accounts := by
  obtain ⟨_, _, hacc⟩ := post_cases h
  rw [Table.mem_def, hacc, List.mem_map]
  exact ⟨a, ha, rewrite_neg _ (by simpa using hid)⟩

/-- No account appears or goes. -/
theorem exists_account_post {id : Uuid} (h : b.post row e = some b') :
    (∃ a ∈ b'.accounts, a.id = id) ↔ ∃ a ∈ b.accounts, a.id = id := by
  obtain ⟨_, _, hacc⟩ := post_cases h
  have hid : ∀ r : Account, (rewrite (·.id = row.id)
      (fun a => { a with balance := e.balanceAfter, version := row.version + 1 }) r).id = r.id := by
    intro r
    unfold rewrite
    split <;> rfl
  constructor
  · rintro ⟨a, ha, rfl⟩
    rw [Table.mem_def, hacc, List.mem_map] at ha
    obtain ⟨r, hr, rfl⟩ := ha
    exact ⟨r, hr, (hid r).symm⟩
  · rintro ⟨a, ha, rfl⟩
    refine ⟨_, ?_, hid a⟩
    rw [Table.mem_def, hacc]
    exact List.mem_map_of_mem ha

theorem mem_entries_post {f : CreditLedgerEntry} (h : b.post row e = some b') :
    f ∈ b'.entries ↔ f ∈ b.entries ∨ f = e := by
  rw [Table.mem_def, (post_cases h).1, List.mem_append, List.mem_singleton, Table.mem_def]

theorem entriesOf_post {account : Uuid} (h : b.post row e = some b') :
    b'.entriesOf account =
      if e.account = account then b.entriesOf account ++ [e] else b.entriesOf account := by
  unfold Books.entriesOf
  rw [(post_cases h).1, List.filter_append]
  by_cases he : e.account = account
  · rw [if_pos he, List.filter_cons_of_pos (by simpa using he), List.filter_nil]
  · rw [if_neg he, List.filter_cons_of_neg (by simpa using he), List.filter_nil, List.append_nil]

/-! ## What a posting is made of -/

/-- A decimal is posted as the millionths it rounds to. -/
theorem normalizeAmount_units {d : Dec} {a : Amount}
    (h : normalizeAmount (.decimal (.finite d)) = .ok a) : a.micros = d.units 6 := by
  simp only [normalizeAmount, toDecimal, Dec.quantize] at h
  split at h
  · cases h
  rename_i n hq
  split at hq
  · cases hq
    split at h
    · split at h
      · cases h
        rfl
      · cases h
    · cases h
  · cases hq

/-- A decimal that rounds to an amount is posted as that amount. -/
theorem normalizeAmount_of_units {d : Dec} {a : Amount} (h : d.units 6 = a.micros) :
    normalizeAmount (.decimal (.finite d)) = .ok a := by
  have hfit : a.micros.natAbs < 10 ^ precision := by
    have hlt := a.lt
    have hpos := a.pos
    unfold maxMoney at hlt
    unfold precision
    omega
  have hq : d.quantize 6 = some a.micros := by
    unfold Dec.quantize
    rw [h]
    exact if_pos hfit
  unfold normalizeAmount toDecimal
  dsimp only
  rw [hq]
  dsimp only
  rw [dif_pos a.pos, dif_pos a.lt]

/-- An amount of a column is posted as it is. -/
theorem normalizeAmount_micros (a : Amount) :
    normalizeAmount (.decimal (.finite (Dec.ofUnits 6 a.micros))) = .ok a :=
  normalizeAmount_of_units (Dec.units_ofUnits _ _)

theorem preparePosting_eq {account : Uuid} {amount : RawAmount} {type : LedgerReferenceType}
    {referenceId key : String} {credit : Bool}
    (h : preparePosting account amount (.member type) referenceId key credit = .ok p) :
    normalizeAmount amount = .ok p.amount ∧ p.account = account ∧ p.credit = credit
      ∧ p.referenceType = type ∧ p.referenceId = referenceId ∧ p.idempotencyKey = key := by
  unfold preparePosting at h
  cases hn : normalizeAmount amount with
  | error e => rw [hn] at h; cases h
  | ok a =>
    rw [hn] at h
    simp only [normalizeReferenceType, bind, Except.bind] at h
    split at h
    · cases h
    · cases h
      exact ⟨rfl, rfl, rfl, rfl, rfl, rfl⟩

/-! ## The invariant -/

/-- The balances, versions and running balances of the books are right. -/
structure BooksInv (b : Books) : Prop where
  /-- A balance is the sum of the deltas. -/
  balance_sum : ∀ a ∈ b.accounts, a.balance = total CreditLedgerEntry.delta (b.entriesOf a.id)
  /-- No account is overdrawn. -/
  balance_nonneg : ∀ a ∈ b.accounts, 0 ≤ a.balance
  /-- A version is the number of entries. -/
  version_count : ∀ a ∈ b.accounts, a.version = (b.entriesOf a.id).length
  /-- Each entry records the sum of the deltas up to itself. -/
  running : ∀ account, Running CreditLedgerEntry.delta CreditLedgerEntry.balanceAfter
    (b.entriesOf account)
  /-- No entry recorded a balance below zero. -/
  after_nonneg : ∀ e ∈ b.entries, 0 ≤ e.balanceAfter
  /-- Every entry is on an account. -/
  known : ∀ e ∈ b.entries, ∃ a ∈ b.accounts, a.id = e.account

/-- Books before any entry was made. -/
structure Books.Fresh (b : Books) : Prop where
  balance : ∀ a ∈ b.accounts, a.balance = 0
  version : ∀ a ∈ b.accounts, a.version = 0
  entries : b.entries.rows = []

theorem booksInv_init (h : Books.Fresh b) : BooksInv b := by
  have hof : ∀ account, b.entriesOf account = [] := by
    intro account
    unfold Books.entriesOf
    rw [h.entries, List.filter_nil]
  have hnone : ∀ e, e ∉ b.entries := by
    intro e he
    rw [Table.mem_def, h.entries] at he
    cases he
  refine ⟨?_, ?_, ?_, ?_, ?_, ?_⟩
  · intro a ha
    rw [h.balance a ha, hof, total_nil]
  · intro a ha
    exact Int.le_of_eq (h.balance a ha).symm
  · intro a ha
    rw [h.version a ha, hof, List.length_nil]
  · intro account
    rw [hof]
    exact running_nil _ _
  · exact fun e he => absurd he (hnone e)
  · exact fun e he => absurd he (hnone e)

/-- **A posting that the locked balance can bear keeps the books sound.** -/
theorem BooksInv.post (h : BooksInv b) (hrow : row ∈ b.accounts) (hacc : e.account = row.id)
    (hafter : e.balanceAfter = row.balance + e.delta) (hpos : 0 ≤ e.balanceAfter)
    (hp : b.post row e = some b') : BooksInv b' := by
  have hold : ∀ a : Account, a.id ≠ row.id → b'.entriesOf a.id = b.entriesOf a.id := by
    intro a hne
    rw [entriesOf_post hp, if_neg]
    rw [hacc]
    exact Ne.symm hne
  have hnew : b'.entriesOf row.id = b.entriesOf row.id ++ [e] := by
    rw [entriesOf_post hp, if_pos hacc]
  refine ⟨?_, ?_, ?_, ?_, ?_, ?_⟩
  · intro a ha
    rcases mem_accounts_post hp ha with rfl | ⟨ha', hne⟩
    · dsimp only
      rw [hnew, total_append, total_singleton, ← h.balance_sum row hrow, hafter]
    · rw [hold a hne, ← h.balance_sum a ha']
  · intro a ha
    rcases mem_accounts_post hp ha with rfl | ⟨ha', _⟩
    · exact hpos
    · exact h.balance_nonneg a ha'
  · intro a ha
    rcases mem_accounts_post hp ha with rfl | ⟨ha', hne⟩
    · dsimp only
      rw [hnew, List.length_append, List.length_singleton, ← h.version_count row hrow]
    · rw [hold a hne, ← h.version_count a ha']
  · intro account
    rw [entriesOf_post hp]
    by_cases he : e.account = account
    · rw [if_pos he]
      refine running_snoc (h.running account) ?_
      rw [← he, hacc, ← h.balance_sum row hrow]
      exact hafter
    · rw [if_neg he]
      exact h.running account
  · intro f hf
    rcases (mem_entries_post hp).1 hf with hf | rfl
    · exact h.after_nonneg f hf
    · exact hpos
  · intro f hf
    rw [exists_account_post hp]
    rcases (mem_entries_post hp).1 hf with hf | rfl
    · exact h.known f hf
    · exact ⟨row, hrow, hacc.symm⟩

/-! ## `_apply` on its own -/

/-- What a successful `_apply` does: replay the entry of a used key, or post one entry. -/
theorem apply_cases (h : b.apply p = .ok (b', e)) :
    (b' = b ∧ e ∈ b.entries ∧ e.idempotencyKey = p.idempotencyKey)
      ∨ ∃ row ∈ b.accounts, row.id = p.account ∧ e = p.entry row.balance
          ∧ 0 ≤ row.balance + p.delta ∧ row.version + 1 ≤ maxVersion
          ∧ b.post row e = some b' := by
  unfold Books.apply at h
  cases hrow : b.accounts.find? (·.id = p.account) with
  | none => rw [hrow] at h; cases h
  | some row =>
    rw [hrow] at h
    dsimp only at h
    cases hkey : b.entries.find? (·.idempotencyKey = p.idempotencyKey) with
    | some existing =>
      rw [hkey] at h
      cases h
      exact .inl ⟨rfl, Table.mem_of_find? hkey, by simpa using Table.prop_of_find? hkey⟩
    | none =>
      rw [hkey] at h
      dsimp only at h
      split at h
      · cases h
      rename_i hfunds
      split at h
      · cases h
      split at h
      · cases h
      rename_i b₁ hpost
      split at h
      · cases h
      rename_i hversion
      cases h
      exact .inr ⟨row, Table.mem_of_find? hrow, by simpa using Table.prop_of_find? hrow,
        rfl, by omega, by omega, hpost⟩

/-- What a successful `_apply` does to the entries. -/
theorem apply_rows (h : b.apply p = .ok (b', e)) :
    (b' = b ∧ e ∈ b.entries ∧ e.idempotencyKey = p.idempotencyKey)
      ∨ (b'.entries.rows = b.entries.rows ++ [e] ∧ e.referenceType = p.referenceType
        ∧ e.referenceId = p.referenceId ∧ e.idempotencyKey = p.idempotencyKey
        ∧ e.account = p.account ∧ e.delta = p.delta) := by
  rcases apply_cases h with h | ⟨row, _, _, rfl, _, _, hpost⟩
  · exact .inl h
  · exact .inr ⟨(post_cases hpost).1, rfl, rfl, rfl, rfl, rfl⟩

/-- **`_apply` keeps the books sound.** -/
theorem BooksInv.apply (h : BooksInv b) (ha : b.apply p = .ok (b', e)) : BooksInv b' := by
  rcases apply_cases ha with ⟨rfl, _, _⟩ | ⟨row, hrow, hid, rfl, hpos, _, hpost⟩
  · exact h
  · exact h.post hrow hid.symm rfl hpos hpost

/-! ## Two accounts -/

def alice : Uuid := ⟨"00000000-0000-4000-8000-00000000000a", by decide⟩

def bob : Uuid := ⟨"00000000-0000-4000-8000-00000000000b", by decide⟩

def fiveDollars : Amount := ⟨5000000, by decide, by decide⟩

/-- The two accounts, nothing on them. -/
def twoAccounts : Books where
  accounts := ⟨[⟨alice, 0, 0⟩, ⟨bob, 0, 0⟩], by decide⟩
  entries := .empty

theorem fresh_twoAccounts : Books.Fresh twoAccounts := ⟨by decide, by decide, rfl⟩

end Roamkit.Billing.Proof
