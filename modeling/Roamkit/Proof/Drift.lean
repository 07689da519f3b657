import Roamkit.Billing.Reconcile
import Roamkit.Lib.Serial
import Roamkit.Proof.CreditRun

/-!
# Repairing a balance

Suppose the balances of a database are wrong: not what the entries sum up to. How far an
account's balance is off is its *drift*. A posting adds the same delta to the balance and
to the sum, so it leaves every drift as it is, and a rebuild makes one drift zero. The
lock on the row is what makes this true with any calls at the same time: between the sum
and the save of a rebuild no entry of the account can be made.

So a drift is kept until its account is rebuilt, and is zero ever after.
-/

namespace Roamkit.Billing.Proof

open Lib Billing CreditThread

/-- How far a balance is off. -/
def drift (b : Books) (a : Account) : Int :=
  a.balance - total CreditLedgerEntry.delta (b.entriesOf a.id)

/-! ## What a posting and a rebuild do to the drifts -/

/-- The drifts of some books, after others. -/
structure DriftsAfter (b b' : Books) : Prop where
  /-- Entries are only added. -/
  entries : b.entries.rows <+: b'.entries.rows
  /-- An account keeps its drift, or has none any more. -/
  drifts : ∀ a' ∈ b'.accounts, ∃ a ∈ b.accounts, a.id = a'.id ∧ a.version ≤ a'.version
    ∧ (drift b' a' = drift b a ∨ drift b' a' = 0)
  /-- No account goes away. -/
  accounts : ∀ a ∈ b.accounts, ∃ a' ∈ b'.accounts, a'.id = a.id

theorem DriftsAfter.refl (b : Books) : DriftsAfter b b where
  entries := List.prefix_rfl
  drifts := fun a ha => ⟨a, ha, rfl, Nat.le_refl _, .inl rfl⟩
  accounts := fun a ha => ⟨a, ha, rfl⟩

variable {b b' : Books} {account : Uuid} {a' row : Account} {p : Posting} {n : Int}
  {s s' : LedgerDb} {t t' : CreditThread} {go : Bool} {call : CreditCall}
  {act : Act CreditCall Bool} {acts : List (Act CreditCall Bool)}

theorem DriftsAfter.trans {b'' : Books} (h : DriftsAfter b b') (h' : DriftsAfter b' b'') :
    DriftsAfter b b'' := by
  refine ⟨h.entries.trans h'.entries, ?_, ?_⟩
  · intro a'' ha''
    obtain ⟨a', ha', hid', hver', hdrift'⟩ := h'.drifts a'' ha''
    obtain ⟨a, ha, hid, hver, hdrift⟩ := h.drifts a' ha'
    refine ⟨a, ha, hid.trans hid', hver.trans hver', ?_⟩
    rcases hdrift' with hdrift' | hdrift'
    · rwa [hdrift']
    · exact .inr hdrift'
  · intro a ha
    obtain ⟨a', ha', hid'⟩ := h.accounts a ha
    obtain ⟨a'', ha'', hid''⟩ := h'.accounts a' ha'
    exact ⟨a'', ha'', hid''.trans hid'⟩

/-- An account without drift never drifts. -/
theorem DriftsAfter.clean (h : DriftsAfter b b')
    (hb : ∀ a ∈ b.accounts, a.id = account → drift b a = 0) :
    ∀ a' ∈ b'.accounts, a'.id = account → drift b' a' = 0 := by
  intro a' ha' hid'
  obtain ⟨a, ha, hid, _, hdrift | hdrift⟩ := h.drifts a' ha'
  · rw [hdrift]
    exact hb a ha (hid.trans hid')
  · exact hdrift

theorem total_of_post (h : b.post row (p.entry row.balance) = some b') (account : Uuid) :
    total CreditLedgerEntry.delta (b'.entriesOf account)
      = total CreditLedgerEntry.delta (b.entriesOf account)
        + if p.account = account then p.delta else 0 := by
  rw [entriesOf_post h]
  by_cases hp : p.account = account
  · have he : (p.entry row.balance).account = account := hp
    rw [if_pos he, if_pos hp, total_append, total_singleton]
    rfl
  · have he : (p.entry row.balance).account ≠ account := hp
    rw [if_neg he, if_neg hp, Int.add_zero]

/-- **A posting leaves every drift as it is**, on its own account too. -/
theorem drift_post (hrow : row ∈ b.accounts) (hid : row.id = p.account)
    (h : b.post row (p.entry row.balance) = some b') (ha' : a' ∈ b'.accounts) :
    ∃ a ∈ b.accounts, a.id = a'.id ∧ a.version ≤ a'.version ∧ drift b' a' = drift b a := by
  rcases mem_accounts_post h ha' with rfl | ⟨ha, hne⟩
  · refine ⟨row, hrow, rfl, Nat.le_succ _, ?_⟩
    have hsum := total_of_post h row.id
    rw [if_pos hid.symm] at hsum
    unfold drift
    dsimp only [Posting.entry]
    rw [hsum]
    omega
  · refine ⟨a', ha, rfl, Nat.le_refl _, ?_⟩
    have hsum := total_of_post h a'.id
    rw [if_neg (by rw [← hid]; exact Ne.symm hne)] at hsum
    unfold drift
    rw [hsum, Int.add_zero]

theorem driftsAfter_post (hrow : row ∈ b.accounts) (hid : row.id = p.account)
    (h : b.post row (p.entry row.balance) = some b') :
    DriftsAfter b b' where
  entries := ⟨_, (post_cases h).1.symm⟩
  drifts := by
    intro a' ha'
    obtain ⟨a, ha, hida, hver, hdrift⟩ := drift_post hrow hid h ha'
    exact ⟨a, ha, hida, hver, .inl hdrift⟩
  accounts := by
    intro a ha
    exact (exists_account_post h).2 ⟨a, ha, rfl⟩

theorem mem_mend :
    a' ∈ (b.mend row n).accounts ↔ ∃ a ∈ b.accounts,
      rewrite (fun x => x.id = row.id)
        (fun x : Account => { x with balance := n, version := row.version + 1 }) a = a' := by
  rw [Table.mem_def]
  exact List.mem_map

theorem mem_accounts_mend (hrow : row ∈ b.accounts) (ha' : a' ∈ (b.mend row n).accounts) :
    a' = { row with balance := n, version := row.version + 1 }
      ∨ a' ∈ b.accounts ∧ a'.id ≠ row.id := by
  obtain ⟨a, ha, rfl⟩ := mem_mend.1 ha'
  by_cases hid : a.id = row.id
  · left
    obtain rfl : a = row := Table.eq_of_clash ha hrow hid
    rw [rewrite_pos _ (by simp)]
  · right
    rw [rewrite_neg _ (by simpa using hid)]
    exact ⟨ha, hid⟩

/-- **A rebuild leaves its account without drift and the drifts of the others as they are.** -/
theorem drift_mend (hrow : row ∈ b.accounts)
    (hn : n = total CreditLedgerEntry.delta (b.entriesOf row.id))
    (ha' : a' ∈ (b.mend row n).accounts) :
    (a'.id = row.id → a'.balance = n ∧ drift (b.mend row n) a' = 0) ∧
      (a'.id ≠ row.id → a' ∈ b.accounts ∧ drift (b.mend row n) a' = drift b a') := by
  rcases mem_accounts_mend hrow ha' with rfl | ⟨ha, hne⟩
  · refine ⟨fun _ => ⟨rfl, ?_⟩, fun hne => absurd rfl hne⟩
    rw [drift, hn]
    exact Int.sub_self _
  · exact ⟨fun h => absurd h hne, fun _ => ⟨ha, rfl⟩⟩

theorem driftsAfter_mend (hrow : row ∈ b.accounts)
    (hn : n = total CreditLedgerEntry.delta (b.entriesOf row.id)) :
    DriftsAfter b (b.mend row n) where
  entries := List.prefix_rfl
  drifts := by
    intro a' ha'
    have hd := drift_mend hrow hn ha'
    rcases mem_accounts_mend hrow ha' with rfl | ⟨ha, hne⟩
    · exact ⟨row, hrow, rfl, Nat.le_succ _, .inr (hd.1 rfl).2⟩
    · exact ⟨a', ha, rfl, Nat.le_refl _, .inl (hd.2 hne).2⟩
  accounts := by
    intro a ha
    refine ⟨_, mem_mend.2 ⟨a, ha, rfl⟩, ?_⟩
    by_cases hid : a.id = row.id
    · rw [rewrite_pos _ (by simpa using hid)]
    · rw [rewrite_neg _ (by simpa using hid)]

theorem total_of_ledgerSum (h : b.ledgerSum account = some n) :
    n = total CreditLedgerEntry.delta (b.entriesOf account) := by
  rw [Books.ledgerSum, Dec.quantize, Dec.units_ofUnits] at h
  split at h
  · exact (Option.some.inj h).symm
  · cases h

/-! ## What a thread relies on when balances may be wrong -/

/-- A rebuild as if it had not yet found the balance wrong. -/
def unmended : CreditThread → CreditThread
  | repaired row _ => rebuilding row
  | t => t

@[simp] theorem row_unmended (t : CreditThread) : (unmended t).row = t.row := by cases t <;> rfl

@[simp] theorem key_unmended (t : CreditThread) : (unmended t).key = t.key := by cases t <;> rfl

/-- What a rebuild has found before it saves. -/
structure Judged (b : Books) (row : Account) (n : Int) : Prop where
  /-- The balance it is about to save is what the entries sum up to. -/
  sum : b.ledgerSum row.id = some n
  wrong : row.balance ≠ n
  version : row.version + 1 ≤ maxVersion
  nonneg : 0 ≤ n
  lt : n < maxMoney

/-- What a call in flight relies on, whether balances are right or not. -/
structure RepairLocal (s : LedgerDb) (t : CreditThread) : Prop where
  /-- The row it holds is the committed one. -/
  holds : CreditLocal s (unmended t)
  judged : ∀ row n, t = repaired row n → Judged s.books row n

theorem RepairLocal.current (h : RepairLocal s t) (hrow : t.row = some row) :
    row ∈ s.books.accounts :=
  h.holds.current row (by rw [row_unmended]; exact hrow)

theorem RepairLocal.of_idle (hrow : t.row = none) (hkey : t.key = none)
    (hf : Checked (unmended t)) : RepairLocal s t := by
  refine ⟨creditLocal_idle (by rw [row_unmended, hrow]) (by rw [key_unmended, hkey]) hf, ?_⟩
  rintro row n rfl
  cases hrow

/-- The save of a rebuild. -/
theorem mends_eq (h : creditStep s (repaired row n) go = some (s', t')) :
    (s' = s.release (repaired row n) ∧ t' = finished (.raised .operational))
      ∨ s' = { s.release (repaired row n) with books := s.books.mend row n }
        ∧ t' = finished (.rebuilt n) := by
  simp only [creditStep] at h
  split at h
  · cases h
    exact .inl ⟨rfl, rfl⟩
  · cases h
    exact .inr ⟨rfl, rfl⟩

/-- The answer of a rebuild that finds nothing to do is the sum. -/
theorem rebuilding_eq (h : creditStep s (rebuilding row) go = some (s', t')) :
    s'.books = s.books ∧
      ((∃ e, t' = finished (.raised e))
        ∨ (∃ n, t' = finished (.rebuilt n) ∧ s.books.ledgerSum row.id = some n ∧ row.balance = n)
        ∨ ∃ n, t' = repaired row n ∧ Judged s.books row n) := by
  simp only [creditStep] at h
  split at h
  · cases h
    exact ⟨rfl, .inl ⟨_, rfl⟩⟩
  · split at h
    · cases h
      exact ⟨rfl, .inl ⟨_, rfl⟩⟩
    · rename_i n hsum
      split at h
      · rename_i heq
        cases h
        exact ⟨rfl, .inr (.inl ⟨n, rfl, hsum, heq⟩)⟩
      · rename_i hne
        split at h
        · cases h
          exact ⟨rfl, .inl ⟨_, rfl⟩⟩
        · rename_i hfits
          split at h
          · cases h
            exact ⟨rfl, .inl ⟨_, rfl⟩⟩
          · cases h
            exact ⟨rfl, .inr (.inr ⟨n, rfl, hsum, hne, by omega, by omega, by omega⟩)⟩

/-- What a step does to the books. -/
inductive BooksMove (b : Books) : CreditThread → Books → Prop
  | same {t : CreditThread} : BooksMove b t b
  | posts {p : Posting} {row : Account} {b' : Books} : row ∈ b.accounts → row.id = p.account →
      b.post row (p.entry row.balance) = some b' → BooksMove b (saved p row) b'
  | mends {row : Account} {n : Int} : row ∈ b.accounts →
      n = total CreditLedgerEntry.delta (b.entriesOf row.id) →
      BooksMove b (repaired row n) (b.mend row n)

theorem booksMove (hL : RepairLocal s t) (h : creditStep s t go = some (s', t')) :
    BooksMove s.books t s'.books := by
  have hm := creditStep_move h
  cases hm with
  | commits hpost => exact .posts (hL.current rfl) (hL.holds.account _ _ rfl rfl) hpost
  | @mends row n _ =>
    rcases mends_eq h with ⟨rfl, he⟩ | ⟨rfl, _⟩
    · cases he
    · exact .mends (hL.current rfl) (total_of_ledgerSum (hL.judged row n rfl).sum)
  | _ => exact .same

theorem BooksMove.drifts (h : BooksMove b t b') :
    DriftsAfter b b' := by
  cases h with
  | same => exact .refl b
  | posts hrow hid hpost => exact driftsAfter_post hrow hid hpost
  | mends hrow hn => exact driftsAfter_mend hrow hn

/-- A step leaves the entries of an account another thread holds. -/
theorem BooksMove.entriesOf (h : BooksMove b t b') (hheld : t.held ≠ some account) :
    b'.entriesOf account = b.entriesOf account := by
  cases h with
  | same => rfl
  | mends _ _ => rfl
  | @posts p row _ _ hid hpost =>
    rw [entriesOf_post hpost, if_neg]
    intro he
    refine hheld ?_
    rw [held_of_row rfl, hid]
    exact congrArg some he

/-! ## The invariant -/

theorem repairLocal_step (hL : RepairLocal s t) (h : creditStep s t go = some (s', t')) :
    RepairLocal s' t' := by
  have hc := hL.holds
  have hm := creditStep_move h
  cases hm with
  | ends _ => exact .of_idle rfl rfl trivial
  | @locks _ p row _ hrow hid =>
    refine ⟨⟨?_, ?_, ?_, ?_, ?_, trivial⟩, nofun⟩
    · intro r hr
      cases hr
      exact Function.update_self _ _ _
    · intro r hr
      cases hr
      exact hrow
    · intro r q hr hq
      cases hr
      cases hq
      exact hid
    · intro k hk
      cases hk
    · intro k hk
      cases hk
  | @begins _ row _ hrow =>
    refine ⟨⟨?_, ?_, ?_, ?_, ?_, trivial⟩, nofun⟩
    · intro r hr
      cases hr
      exact Function.update_self _ _ _
    · intro r hr
      cases hr
      exact hrow
    · intro r q _ hq
      cases hq
    · intro k hk
      cases hk
    · intro k hk
      cases hk
  | clears hfunds =>
    exact ⟨⟨hc.lock, hc.current, hc.account, hc.reserved, hc.unused, hfunds⟩, nofun⟩
  | conflicts => exact .of_idle rfl rfl trivial
  | @inserts p row _ hnew hfits =>
    refine ⟨⟨hc.lock, hc.current, hc.account, ?_, ?_, hc.checked, hfits⟩, nofun⟩
    · intro k hk
      cases hk
      exact Function.update_self _ _ _
    · intro k hk
      cases hk
      exact hnew
  | saves hversion =>
    exact ⟨⟨hc.lock, hc.current, hc.account, hc.reserved, hc.unused,
      hc.checked.1, hc.checked.2, hversion⟩, nofun⟩
  | commits _ => exact .of_idle rfl rfl trivial
  | @repairs row n _ _ =>
    refine ⟨hc, ?_⟩
    rintro r m he
    cases he
    obtain ⟨_, ⟨e, he⟩ | ⟨k, he, _⟩ | ⟨k, he, hjudged⟩⟩ := rebuilding_eq h
    · cases he
    · cases he
    · cases he
      exact hjudged
  | mends => exact .of_idle rfl rfl trivial

/-- The save of a rebuild leaves the rows the others hold. -/
theorem creditLocal_frame_mends {u : CreditThread} (hu : CreditLocal s u)
    (hR : CreditApart (repaired row n) u) :
    CreditLocal { s.release (repaired row n) with books := s.books.mend row n } u := by
  have hfree := hu.frame_release hR
  refine hfree.frame (fun _ _ => id) (fun _ _ => id) ?_ hfree.unused
  intro r hr
  have hne : r.id ≠ row.id := by
    intro hid
    refine hR.1 row.id rfl ?_
    rw [← hid]
    exact held_of_row hr
  refine mem_mend.2 ⟨r, hu.current r hr, ?_⟩
  rw [rewrite_neg _ (by simpa using hne)]

theorem repairLocal_frame {u : CreditThread} (hL : RepairLocal s t)
    (h : creditStep s t go = some (s', t')) (hu : RepairLocal s u) (hR : CreditApart t u) :
    RepairLocal s' u ∧ CreditApart t' u := by
  have hbooks := booksMove hL h
  -- the sum another rebuild has taken is of an account this thread does not hold
  have hjudged : ∀ row n, u = repaired row n → Judged s'.books row n := by
    rintro row n rfl
    have hj := hu.judged row n rfl
    refine ⟨?_, hj.wrong, hj.version, hj.nonneg, hj.lt⟩
    rw [Books.ledgerSum, hbooks.entriesOf fun ht => hR.1 row.id ht rfl]
    exact hj.sum
  have hview : CreditApart t (unmended u) := by simpa [CreditApart, held] using hR
  cases t with
  | repaired row n =>
    rcases mends_eq h with ⟨rfl, rfl⟩ | ⟨rfl, rfl⟩
    · exact ⟨⟨hu.holds.frame_release hview, hjudged⟩, creditApart_idle rfl rfl⟩
    · exact ⟨⟨creditLocal_frame_mends hu.holds hview, hjudged⟩,
        creditApart_idle rfl rfl⟩
  | _ =>
    obtain ⟨hlocal, hapart⟩ := creditLocal_frame hL.holds (creditStep_move h) hu.holds hview
    exact ⟨⟨hlocal, hjudged⟩, by simpa [CreditApart, held] using hapart⟩

/-- A database at rest, its balances right or wrong. -/
def AtRest (s : LedgerDb) : Prop := ∃ b, s = LedgerDb.ofBooks b

/-- **What concurrent calls rely on holds whatever the balances were.** -/
theorem repairInvariant :
    Invariant creditProgram AtRest (fun _ _ _ => True) (fun _ => True) RepairLocal CreditApart where
  init := fun _ => trivial
  start := fun _ _ => .of_idle rfl rfl trivial
  apart_start := fun _ _ => creditApart_idle rfl rfl
  symm := creditApart_symm
  step := fun _ hL _ hs => ⟨trivial, repairLocal_step hL hs⟩
  frame := fun _ hL _ hs hu hR => repairLocal_frame hL hs hu hR

/-! ## Every run -/

/-- The account a call is to rebuild. -/
def rebuilds : CreditThread → Option Uuid
  | asked (.rebuild account) => some account
  | rebuilding row => some row.id
  | repaired row _ => some row.id
  | _ => none

theorem rebuilds_asked (h : rebuilds (asked call) = some account) : call = .rebuild account := by
  cases call <;> cases h
  rfl

/-- A rebuild that finds nothing to do does the same on its own. -/
theorem rebuild_of_right (hrow : row ∈ b.accounts) (hsum : b.ledgerSum row.id = some n)
    (hbal : row.balance = n) :
    b.rebuild row.id = .ok (b, n) := by
  have hfind : b.accounts.find? (·.id = row.id) = some row := by
    refine Table.find?_of_mem hrow (by simp) ?_
    intro x hx
    exact (by simpa using hx : x.id = row.id)
  have hexpected : b.expected row.id = .ok n := by rw [Books.expected, hsum]
  unfold Books.rebuild
  rw [hfind]
  dsimp only
  rw [hexpected]
  exact if_pos hbal

/-- The save of a rebuild is what the rebuild does on its own. -/
theorem rebuild_of_judged (hrow : row ∈ b.accounts) (hj : Judged b row n) :
    b.rebuild row.id = .ok (b.mend row n, n) := by
  have hfind : b.accounts.find? (·.id = row.id) = some row := by
    refine Table.find?_of_mem hrow (by simp) ?_
    intro x hx
    exact (by simpa using hx : x.id = row.id)
  have hexpected : b.expected row.id = .ok n := by rw [Books.expected, hj.sum]
  have hversion := hj.version
  have hnonneg := hj.nonneg
  have hlt := hj.lt
  unfold Books.rebuild
  rw [hfind]
  dsimp only
  rw [hexpected]
  dsimp only
  rw [if_neg hj.wrong, if_neg (by omega), if_neg (by omega)]

/--
**A call rebuilds what it was asked to, and answers with the step that does what the
rebuild does on its own.** Its account is then without drift.
-/
theorem rebuilds_step (hL : RepairLocal s t) (h : creditStep s t go = some (s', t'))
    (ht : rebuilds t = some account) :
    rebuilds t' = some account ∨ (∃ e, t' = finished (.raised e))
      ∨ ∃ n, t' = finished (.rebuilt n) ∧ s.books.rebuild account = .ok (s'.books, n)
        ∧ ∀ a ∈ s'.books.accounts, a.id = account → drift s'.books a = 0 := by
  cases t with
  | asked call =>
    obtain rfl := rebuilds_asked ht
    simp only [creditStep, CreditCall.prepare] at h
    split at h
    · cases h
      exact .inr (.inl ⟨_, rfl⟩)
    · split at h
      · cases h
      split at h
      · cases h
        exact .inr (.inl ⟨_, rfl⟩)
      · rename_i row hrow
        cases h
        left
        have hid : row.id = account := by simpa using Table.prop_of_find? hrow
        exact congrArg some hid
  | rebuilding row =>
    cases ht
    obtain ⟨hbooks, ⟨e, rfl⟩ | ⟨n, rfl, hsum, hbal⟩ | ⟨n, rfl, _⟩⟩ := rebuilding_eq h
    · exact .inr (.inl ⟨e, rfl⟩)
    · -- the balance was right
      right; right
      have hrow : row ∈ s.books.accounts := hL.current rfl
      refine ⟨n, rfl, by rw [hbooks, rebuild_of_right hrow hsum hbal], ?_⟩
      intro a ha hid
      rw [hbooks] at ha ⊢
      obtain rfl : a = row := Table.eq_of_clash ha hrow hid
      rw [drift, hbal, ← total_of_ledgerSum hsum, Int.sub_self]
    · exact .inl rfl
  | repaired row n =>
    cases ht
    rcases mends_eq h with ⟨rfl, rfl⟩ | ⟨rfl, rfl⟩
    · exact .inr (.inl ⟨_, rfl⟩)
    · right; right
      have hjudged := hL.judged row n rfl
      refine ⟨n, rfl, rebuild_of_judged (hL.current rfl) hjudged, ?_⟩
      intro a ha hid
      exact ((drift_mend (hL.current rfl) (total_of_ledgerSum hjudged.sum) ha).1 hid).2
  | locked _ _ => cases ht
  | cleared _ _ => cases ht
  | inserted _ _ => cases ht
  | saved _ _ => cases ht
  | conflicted _ => cases ht
  | finished _ => cases ht

theorem prepare_rebuild (h : call.prepare = .ok (.rebuild account)) : call = .rebuild account := by
  have hpost : ∀ x : Except Exc Posting, CreditTask.post <$> x ≠ .ok (.rebuild account) := by
    intro x hx
    cases x <;> cases hx
  cases call with
  | credit _ _ _ _ _ => exact absurd h (hpost _)
  | debit _ _ _ _ _ => exact absurd h (hpost _)
  | adminAdjust _ _ _ _ _ _ _ _ =>
    simp only [CreditCall.prepare] at h
    split at h
    · cases h
    · exact absurd h (hpost _)
  | rebuild asked =>
    cases h
    rfl

/-- A call that is not a rebuild of an account does not become one. -/
theorem rebuilds_of_step (h : creditStep s t go = some (s', t')) (ht : rebuilds t' = some account) :
    rebuilds t = some account := by
  cases t with
  | asked call =>
    simp only [creditStep] at h
    split at h
    · cases h
      cases ht
    · split at h
      · cases h
        cases ht
      · split at h
        · cases h
        · split at h <;> cases h <;> cases ht
      · rename_i asked hprepare
        obtain rfl := prepare_rebuild hprepare
        split at h
        · cases h
        split at h
        · cases h
          cases ht
        · rename_i row hrow
          cases h
          have hid : row.id = asked := by simpa using Table.prop_of_find? hrow
          rw [← ht]
          exact congrArg some hid.symm
  | rebuilding row =>
    obtain ⟨_, ⟨e, rfl⟩ | ⟨n, rfl, _⟩ | ⟨n, rfl, _⟩⟩ := rebuilding_eq h
    · cases ht
    · cases ht
    · exact ht
  | _ =>
    cases creditStep_move h <;> cases ht

/-- A step changes no drift of an account its call does not rebuild. -/
theorem BooksMove.keeps (h : BooksMove b t b') (ht : rebuilds t ≠ some account)
    (ha' : a' ∈ b'.accounts) (hid : a'.id = account) :
    ∃ a ∈ b.accounts, a.id = account ∧ drift b' a' = drift b a := by
  cases h with
  | same => exact ⟨a', ha', hid, rfl⟩
  | posts hrow hida hpost =>
    obtain ⟨a, ha, haid, _, hdrift⟩ := drift_post hrow hida hpost ha'
    exact ⟨a, ha, haid.trans hid, hdrift⟩
  | @mends row n hrow hn =>
    have hne : a'.id ≠ row.id := by
      intro he
      refine ht ?_
      rw [← hid, he]
      rfl
    obtain ⟨ha, hdrift⟩ := (drift_mend hrow hn ha').2 hne
    exact ⟨a', ha, hid, hdrift⟩

variable {c c' : Config LedgerDb CreditThread}

theorem drifts_exec (h : creditProgram.Reach AtRest c) (he : creditProgram.exec c act = some c') :
    DriftsAfter c.store.books c'.store.books := by
  cases act with
  | call p call =>
    rw [(Program.exec_call he).2.1]
    exact .refl _
  | tick p go =>
    obtain ⟨t, t', ht, hs, _⟩ := Program.exec_tick he
    exact (booksMove ((repairInvariant.reach h).thread p t ht) hs).drifts

/-- **No run makes an account drift**, or drift otherwise than before. -/
theorem drifts_run (h : creditProgram.Reach AtRest c) (hr : creditProgram.run c acts = some c') :
    DriftsAfter c.store.books c'.store.books := by
  induction acts generalizing c with
  | nil =>
    obtain rfl : c = c' := by simpa [Program.run] using hr
    exact .refl _
  | cons act acts ih =>
    rw [Program.run] at hr
    split at hr
    · cases hr
    · rename_i c₁ he
      exact (drifts_exec h he).trans (ih (h.exec he) hr)

/-- What a thread that is to rebuild an account has come to after an action. -/
theorem rebuilds_exec {p : Nat} (h : creditProgram.Reach AtRest c)
    (he : creditProgram.exec c act = some c') (ht : c.threads p = some t)
    (hre : rebuilds t = some account) :
    (∃ t', c'.threads p = some t' ∧ rebuilds t' = some account)
      ∨ (∃ e, c'.threads p = some (finished (.raised e)))
      ∨ ∃ n, c'.threads p = some (finished (.rebuilt n))
        ∧ c.store.books.rebuild account = .ok (c'.store.books, n)
        ∧ ∀ a ∈ c'.store.books.accounts, a.id = account → drift c'.store.books a = 0 := by
  cases act with
  | call q call =>
    obtain ⟨hq, _, hthreads⟩ := Program.exec_call he
    have hpq : p ≠ q := by
      rintro rfl
      rw [ht] at hq
      cases hq
    left
    exact ⟨t, by rw [hthreads, Function.update_of_ne hpq, ht], hre⟩
  | tick q go =>
    obtain ⟨u, u', hu, hs, hthreads⟩ := Program.exec_tick he
    by_cases hpq : p = q
    · subst hpq
      obtain rfl : t = u := by
        rw [ht] at hu
        exact Option.some.inj hu
      have hself : c'.threads p = some u' := by rw [hthreads, Function.update_self]
      rcases rebuilds_step ((repairInvariant.reach h).thread p t ht) hs hre with
        hre' | ⟨e, rfl⟩ | ⟨n, rfl, halone, hclean⟩
      · exact .inl ⟨u', hself, hre'⟩
      · exact .inr (.inl ⟨e, hself⟩)
      · exact .inr (.inr ⟨n, hself, halone, hclean⟩)
    · left
      exact ⟨t, by rw [hthreads, Function.update_of_ne hpq, ht], hre⟩

/--
**A rebuild answers what it would answer on its own at some moment of the run, and does
then what it would do.** Its account is without drift from there on.
-/
theorem rebuilt_run {p : Nat} (h : creditProgram.Reach AtRest c)
    (hr : creditProgram.run c acts = some c') (ht : c.threads p = some t)
    (hre : rebuilds t = some account) (ht' : c'.threads p = some (finished (.rebuilt n))) :
    (∃ b b', DriftsAfter c.store.books b ∧ b.rebuild account = .ok (b', n)
        ∧ DriftsAfter b' c'.store.books)
      ∧ ∀ a ∈ c'.store.books.accounts, a.id = account → drift c'.store.books a = 0 := by
  induction acts generalizing c t with
  | nil =>
    obtain rfl : c = c' := by simpa [Program.run] using hr
    rw [ht] at ht'
    cases ht'
    cases hre
  | cons act acts ih =>
    rw [Program.run] at hr
    split at hr
    · cases hr
    rename_i c₁ he
    have h₁ := h.exec he
    rcases rebuilds_exec h he ht hre with ⟨t₁, ht₁, hre₁⟩ | ⟨e, ht₁⟩ | ⟨m, ht₁, halone, hclean⟩
    · obtain ⟨⟨b, b', hb, halone, hb'⟩, hclean⟩ := ih h₁ hr ht₁ hre₁
      exact ⟨⟨b, b', (drifts_exec h he).trans hb, halone, hb'⟩, hclean⟩
    · -- a call that has raised does not answer later
      rw [Program.threads_of_finished (fun _ _ => rfl) ht₁ hr] at ht'
      cases ht'
    · have hafter := drifts_run h₁ hr
      rw [Program.threads_of_finished (fun _ _ => rfl) ht₁ hr] at ht'
      cases ht'
      exact ⟨⟨_, _, .refl _, halone, hafter⟩, hafter.clean hclean⟩

/-- No thread of a configuration is to rebuild an account. -/
def LeftAlone (c : Config LedgerDb CreditThread) (account : Uuid) : Prop :=
  ∀ p t, c.threads p = some t → rebuilds t ≠ some account

theorem leftAlone_exec (he : creditProgram.exec c act = some c') (hc : LeftAlone c account)
    (hact : ∀ p, act ≠ .call p (.rebuild account)) : LeftAlone c' account := by
  intro p t' ht' hre
  cases act with
  | call q call =>
    obtain ⟨_, _, hthreads⟩ := Program.exec_call he
    rw [hthreads] at ht'
    by_cases hpq : p = q
    · subst hpq
      rw [Function.update_self] at ht'
      cases ht'
      obtain rfl := rebuilds_asked hre
      exact hact p rfl
    · rw [Function.update_of_ne hpq] at ht'
      exact hc p t' ht' hre
  | tick q go =>
    obtain ⟨u, u', hu, hs, hthreads⟩ := Program.exec_tick he
    rw [hthreads] at ht'
    by_cases hpq : p = q
    · subst hpq
      rw [Function.update_self] at ht'
      cases ht'
      exact hc p u hu (rebuilds_of_step hs hre)
    · rw [Function.update_of_ne hpq] at ht'
      exact hc p t' ht' hre

/-- **Postings alone neither repair a drift nor make one.** -/
theorem kept_run (h : creditProgram.Reach AtRest c) (hr : creditProgram.run c acts = some c')
    (hc : LeftAlone c account) (hacts : ∀ p, .call p (.rebuild account) ∉ acts) :
    ∀ a' ∈ c'.store.books.accounts, a'.id = account →
      ∃ a ∈ c.store.books.accounts, a.id = account
        ∧ drift c'.store.books a' = drift c.store.books a := by
  induction acts generalizing c with
  | nil =>
    obtain rfl : c = c' := by simpa [Program.run] using hr
    exact fun a' ha' hid => ⟨a', ha', hid, rfl⟩
  | cons act acts ih =>
    rw [Program.run] at hr
    split at hr
    · cases hr
    rename_i c₁ he
    intro a' ha' hid
    have hact : ∀ p, act ≠ .call p (.rebuild account) := by
      rintro p rfl
      exact hacts p (List.mem_cons_self ..)
    obtain ⟨a₁, ha₁, hid₁, hdrift₁⟩ := ih (h.exec he) hr (leftAlone_exec he hc hact)
      (fun p hp => hacts p (List.mem_cons_of_mem _ hp)) a' ha' hid
    rw [hdrift₁]
    cases act with
    | call p call =>
      rw [(Program.exec_call he).2.1] at ha₁ ⊢
      exact ⟨a₁, ha₁, hid₁, rfl⟩
    | tick p go =>
      obtain ⟨t, t', ht, hs, _⟩ := Program.exec_tick he
      have hmove := booksMove ((repairInvariant.reach h).thread p t ht) hs
      exact hmove.keeps (hc p t ht) ha₁ hid₁

/--
**Repairing a balance is safe at any time.** Start from a database whose balances may be
wrong. In every run of concurrent credits, debits, adjustments and rebuilds, entries are
only added and a balance is off by what it was off before, or not at all any more. It is
off by what it was off before as long as its account is not rebuilt. A rebuild answers
and does what it would on its own at some moment of the run, and from then on the balance
is right for good.
-/
theorem repair_sound {acts : List (Act CreditCall Bool)} (h : creditProgram.Reach AtRest c)
    (hr : creditProgram.run c acts = some c') :
    DriftsAfter c.store.books c'.store.books
      ∧ (∀ account, LeftAlone c account → (∀ p, .call p (.rebuild account) ∉ acts) →
          ∀ a' ∈ c'.store.books.accounts, a'.id = account →
            ∃ a ∈ c.store.books.accounts, a.id = account
              ∧ drift c'.store.books a' = drift c.store.books a)
      ∧ ∀ p t account n, c.threads p = some t → rebuilds t = some account →
          c'.threads p = some (finished (.rebuilt n)) →
          (∃ b b', DriftsAfter c.store.books b ∧ b.rebuild account = .ok (b', n)
              ∧ DriftsAfter b' c'.store.books)
            ∧ ∀ a ∈ c'.store.books.accounts, a.id = account → drift c'.store.books a = 0 := by
  refine ⟨drifts_run h hr, ?_, ?_⟩
  · intro account hc hacts
    exact kept_run h hr hc hacts
  · intro p t account n ht hre ht'
    exact rebuilt_run h hr ht hre ht'

/-! ## A balance that is off -/

/-- Alice has five dollars no entry accounts for, and Bob has nothing. -/
def offByFive : Books where
  accounts := ⟨[⟨alice, 5000000, 0⟩, ⟨bob, 0, 0⟩], by decide⟩
  entries := .empty

/-- A call is to rebuild Alice's account, another is to credit her three dollars. -/
def askedBoth : List (Act CreditCall Bool) :=
  [.call 0 (.rebuild alice), .call 1 (.credit alice (.int 3) (.member .deposit) "d" "deposit:d")]

/-- The rebuild takes the five dollars off, the credit comes after it. -/
def mendedFirst : List (Act CreditCall Bool) :=
  [.tick 0 true, .tick 0 true, .tick 0 true, .tick 1 true, .tick 1 true, .tick 1 true, .tick 1 true,
    .tick 1 true]

def asksRebuild (c : Config LedgerDb CreditThread) : Bool :=
  match c.threads 0 with
  | some (.asked (.rebuild account)) => account = alice
  | _ => false

/-- The rebuild has answered and the credit is made. -/
def answersZero (c : Config LedgerDb CreditThread) : Bool :=
  match c.threads 0 with
  | some (.finished (.rebuilt n)) => n = 0 && c.store.books.entries.rows.length = 1
  | _ => false

theorem repair_sound_five : ∃ c c' : Config LedgerDb CreditThread,
    c.store.books.accounts.rows.map (drift c.store.books) = [5000000, 0]
      ∧ c'.store.books.entries.rows.length = 1
      ∧ ∀ a ∈ c'.store.books.accounts, a.id = alice → drift c'.store.books a = 0 := by
  obtain ⟨c, hc, hcheck⟩ := Program.run_check creditProgram (LedgerDb.ofBooks offByFive) askedBoth
    (fun c => asksRebuild c && (creditProgram.run c mendedFirst).any answersZero
      && c.store.books.accounts.rows.map (drift c.store.books) = [5000000, 0]) (by decide +kernel)
  obtain ⟨hcheck, hdrift⟩ := Bool.and_eq_true_iff.1 hcheck
  obtain ⟨hask, hrun⟩ := Bool.and_eq_true_iff.1 hcheck
  obtain ⟨c', hr, hanswer⟩ := (Option.any_eq_true _ _).1 hrun
  unfold asksRebuild at hask
  unfold answersZero at hanswer
  split at hask
  · rename_i account ht
    split at hanswer
    · rename_i n ht'
      obtain ⟨_, hlength⟩ := by simpa using hanswer
      have hreach : creditProgram.Reach AtRest c := Program.reach_run ⟨_, rfl⟩ hc
      have hsound := (repair_sound hreach hr).2.2 0 _ account n ht rfl ht'
      obtain rfl : account = alice := by simpa using hask
      exact ⟨c, c', by simpa using hdrift, hlength, hsound.2⟩
    · cases hanswer
  · cases hask

/-! ## The calls are served one after another -/

/-- A thread that serves a call. -/
structure ForCall (s : LedgerDb) (call : CreditCall) (t : CreditThread) : Prop where
  asked : ∀ k, t = asked k → k = call
  /-- It posts what the call asks for, to an account that is there. -/
  posts : ∀ p, t.posting = some p
    → call.prepare = .ok (.post p) ∧ ∃ a ∈ s.books.accounts, a.id = p.account
  rebuilds : ∀ account, rebuilds t = some account → call = .rebuild account

/-- The entry of a used key is what a posting answers on its own. -/
theorem apply_replayed {e : CreditLedgerEntry} (ha : ∃ a ∈ b.accounts, a.id = p.account)
    (he : e ∈ b.entries) (hkey : e.idempotencyKey = p.idempotencyKey) : b.apply p = .ok (b, e) := by
  obtain ⟨a, ha, hid⟩ := ha
  have hfind : b.entries.find? (·.idempotencyKey = p.idempotencyKey) = some e := by
    refine Table.find?_of_mem he (by simpa using hkey) ?_
    intro f hf
    exact (by simpa using hf : f.idempotencyKey = p.idempotencyKey).trans hkey.symm
  unfold Books.apply
  cases hrow : b.accounts.find? (·.id = p.account) with
  | none => exact absurd hid (by simpa using Table.not_of_find? hrow ha)
  | some row =>
    rw [hfind]

theorem asked_posts {k : CreditCall} (h : creditStep s (asked k) go = some (s', t'))
    (hp : t'.posting = some p) :
    k.prepare = .ok (.post p) ∧ ∃ a ∈ s'.books.accounts, a.id = p.account := by
  simp only [creditStep] at h
  split at h
  · cases h
    cases hp
  · split at h
    · cases h
      cases hp
    · rename_i q hprepare
      split at h
      · cases h
      split at h
      · cases h
        cases hp
      · rename_i row hrow
        cases h
        cases hp
        exact ⟨hprepare, row, Table.mem_of_find? hrow, by simpa using Table.prop_of_find? hrow⟩
    · split at h
      · cases h
      · split at h <;> cases h <;> cases hp

theorem forCall_step (hF : ForCall s call t) (h : creditStep s t go = some (s', t')) :
    ForCall s' call t' := by
  refine ⟨?_, ?_, fun account ht' => hF.rebuilds account (rebuilds_of_step h ht')⟩
  · rintro k rfl
    cases creditStep_move h
  · intro p hp
    have hm := creditStep_move h
    cases hm with
    | @locks k _ _ _ _ _ =>
      obtain rfl := hF.asked k rfl
      exact asked_posts h hp
    | clears _ => exact hF.posts p hp
    | conflicts => exact hF.posts p hp
    | inserts _ _ _ => exact hF.posts p hp
    | saves _ => exact hF.posts p hp
    | _ => cases hp

/-- **The step that ends a call does what the call does on its own**, and no other writes. -/
theorem serves_step (hL : RepairLocal s t) (hF : ForCall s call t)
    (h : creditStep s t go = some (s', t')) :
    t'.answer = none ∧ s'.books = s.books
      ∨ ∃ a, t'.answer = some a ∧ call.serve s.books = .ok (s'.books, a) := by
  -- a rebuild that answers
  have hrebuilt : ∀ account n, rebuilds t = some account → t' = finished (.rebuilt n) →
      call.serve s.books = .ok (s'.books, .balance n) := by
    rintro account n ht rfl
    obtain rfl := hF.rebuilds account ht
    rcases rebuilds_step hL h ht with hre | ⟨e, he⟩ | ⟨m, he, halone, _⟩
    · cases hre
    · cases he
    · cases he
      rw [CreditCall.serve, CreditCall.prepare]
      dsimp only
      rw [halone]
      rfl
  have hm := creditStep_move h
  cases hm with
  | @ends _ o hquiet =>
    cases o with
    | applied e => exact hquiet.elim
    | replayed e =>
      obtain ⟨p, hp, he, hkey⟩ := hquiet
      obtain ⟨hprepare, haccount⟩ := hF.posts p hp
      refine .inr ⟨_, rfl, ?_⟩
      rw [CreditCall.serve, hprepare]
      dsimp only
      rw [apply_replayed haccount he hkey]
      rfl
    | rebuilt n =>
      obtain ⟨row, rfl, _⟩ := hquiet
      exact .inr ⟨_, rfl, hrebuilt row.id n rfl rfl⟩
    | raised e => exact .inl ⟨rfl, rfl⟩
  | @commits p row books hpost =>
    refine .inr ⟨_, rfl, ?_⟩
    rw [CreditCall.serve, (hF.posts p rfl).1]
    dsimp only
    rw [commit_eq_apply hL.holds hpost]
    rfl
  | @mends row n => exact .inr ⟨_, rfl, hrebuilt row.id n rfl rfl⟩
  | _ => exact .inl ⟨rfl, rfl⟩

theorem creditServes :
    Serves creditProgram RepairLocal LedgerDb.books CreditThread.answer CreditCall.serve
      ForCall where
  start s k := by
    refine ⟨⟨fun k' h => ?_, fun p h => (nomatch h), fun _ h => rebuilds_asked h⟩, rfl⟩
    exact (asked.inj h).symm
  ended s t go h := by
    cases t with
    | finished o => rfl
    | _ => exact absurd rfl h
  step hL hF h := ⟨forCall_step hF h, serves_step hL hF h⟩
  frame hL h hF := by
    refine ⟨hF.asked, fun p hp => ?_, hF.rebuilds⟩
    obtain ⟨hprepare, a, ha, hid⟩ := hF.posts p hp
    obtain ⟨a', ha', hid'⟩ := (booksMove hL h).drifts.accounts a ha
    exact ⟨hprepare, a', ha', hid'.trans hid⟩

/--
**The credit service is linearizable.** Whatever the balances were at first and whatever
the interleaving, there is one order of the calls that answered such that, at each moment of
the run, serving those that have answered by then one after another gives each of them its
answer, and the accounts and the ledger as they are. A call that raised has left no trace.
-/
theorem credit_linearizable {b : Books} {acts : List (Act CreditCall Bool)}
    (hr : creditProgram.run (Config.idle (LedgerDb.ofBooks b)) acts = some c) :
    ∃ log : List (Served CreditCall CreditAnswer), ∀ pre post c₁, acts = pre ++ post →
      creditProgram.run (Config.idle (LedgerDb.ofBooks b)) pre = some c₁ →
        ∃ n, InOrder LedgerDb.books CreditThread.answer CreditCall.serve b pre c₁ (log.take n) :=
  creditServes.inOrder (fun _ _ hpre =>
    (repairInvariant.reach (Program.reach_run ⟨b, rfl⟩ hpre)).thread) hr

/-- The credit of three dollars was served after the rebuild. -/
theorem credit_linearizable_five :
    ∃ (c : Config LedgerDb CreditThread) (log : List (Served CreditCall CreditAnswer)),
    c.store.books.entries.rows.length = 1
      ∧ InOrder LedgerDb.books CreditThread.answer CreditCall.serve offByFive
        (askedBoth ++ mendedFirst) c log := by
  obtain ⟨c, hr, hcheck⟩ :=
    Program.run_check creditProgram (LedgerDb.ofBooks offByFive) (askedBoth ++ mendedFirst)
    (fun c => c.store.books.entries.rows.length = 1) (by decide +kernel)
  obtain ⟨log, hlog⟩ := credit_linearizable hr
  obtain ⟨n, hin⟩ := hlog _ [] c (List.append_nil _).symm hr
  exact ⟨c, log.take n, of_decide_eq_true hcheck, hin⟩

end Roamkit.Billing.Proof
