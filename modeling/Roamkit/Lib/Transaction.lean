import Mathlib.Tactic.Common

/-!
# Transactions with savepoints

A statement that fails breaks the transaction it is in: every later statement of
it fails too, until the transaction or a savepoint taken before is rolled back. A
`Stmt` is a piece of a transaction. It reads and writes the transaction's own view
of the database, and what it raises does not undo what it did; only `savepoint` and
`atomic` do.

The two rules about a failed insert that is caught say what the place of the
handler decides: without a savepoint around the insert, whatever the handler asks
fails; with one, the handler finds the transaction as it was.
-/

namespace Roamkit.Lib

/-- The errors the rules are about. -/
class DbError (ε : Type) where
  /-- A row violates a unique constraint. -/
  integrity : ε
  /-- A statement in a transaction that is broken. -/
  broken : ε

/-- A transaction: its view of the database, and whether a statement has failed. -/
structure Tx (σ : Type) where
  db : σ
  broken : Bool

/-- A piece of a transaction. -/
def Stmt (σ ε α : Type) : Type := Tx σ → Except ε α × Tx σ

namespace Stmt

variable {σ ε α β : Type}

instance : Monad (Stmt σ ε) where
  pure a := fun tx => (.ok a, tx)
  bind m f := fun tx =>
    match m tx with
    | (.ok a, tx') => f a tx'
    | (.error e, tx') => (.error e, tx')

/-- `raise` -/
def raise (e : ε) : Stmt σ ε α := fun tx => (.error e, tx)

/-- A nested `atomic` block: what it raises rolls it back. -/
def savepoint (m : Stmt σ ε α) : Stmt σ ε α := fun tx =>
  match m tx with
  | (.ok a, tx') => (.ok a, tx')
  | (.error e, _) => (.error e, tx)

/-- The outermost `atomic` block: it commits, unless something was raised or a statement failed. -/
def atomic (m : Stmt σ ε α) (db : σ) : Except ε α × σ :=
  match m ⟨db, false⟩ with
  | (.ok a, tx) => (.ok a, if tx.broken then db else tx.db)
  | (.error e, _) => (.error e, db)

theorem bind_eq (m : Stmt σ ε α) (f : α → Stmt σ ε β) (tx : Tx σ) :
    (m >>= f) tx =
      match m tx with
      | (.ok a, tx') => f a tx'
      | (.error e, tx') => (.error e, tx') := rfl

theorem atomic_ok {m : Stmt σ ε α} {db db' : σ} {a : α}
    (h : m ⟨db, false⟩ = (.ok a, ⟨db', false⟩)) :
    atomic m db = (.ok a, db') := by
  rw [atomic, h]
  rfl

theorem atomic_error {m : Stmt σ ε α} {db : σ} {e : ε} {tx : Tx σ}
    (h : m ⟨db, false⟩ = (.error e, tx)) : atomic m db = (.error e, db) := by
  rw [atomic, h]

theorem atomic_congr {m m' : Stmt σ ε α} {db : σ} (h : m ⟨db, false⟩ = m' ⟨db, false⟩) :
    atomic m db = atomic m' db := by
  rw [atomic, h, atomic]

/-! ## Statements -/

variable [DbError ε]

/-- A statement that reads; what the program raises on it breaks nothing. -/
def read (f : σ → Except ε α) : Stmt σ ε α := fun tx =>
  if tx.broken then (.error DbError.broken, tx) else (f tx.db, tx)

/-- A statement that writes, and breaks the transaction when it fails. -/
def write (f : σ → Except ε σ) : Stmt σ ε Unit := fun tx =>
  if tx.broken then (.error DbError.broken, tx)
  else
    match f tx.db with
    | .error e => (.error e, { tx with broken := true })
    | .ok db => (.ok (), { tx with db })

@[simp] theorem read_open (f : σ → Except ε α) (db : σ) :
    read f ⟨db, false⟩ = (f db, ⟨db, false⟩) := rfl

/-- **In a broken transaction every query fails.** -/
@[simp] theorem read_broken (f : σ → Except ε α) (db : σ) :
    read f ⟨db, true⟩ = (.error DbError.broken, ⟨db, true⟩) := rfl

theorem write_ok {f : σ → Except ε σ} {db db' : σ} (h : f db = .ok db') :
    write f ⟨db, false⟩ = (.ok (), ⟨db', false⟩) := by
  simp [write, h]

theorem write_error {f : σ → Except ε σ} {db : σ} {e : ε} (h : f db = .error e) :
    write f ⟨db, false⟩ = (.error e, ⟨db, true⟩) := by
  simp [write, h]

/-! ## An insert that is caught -/

variable [DecidableEq ε]

/-- `try: m except IntegrityError: h else: k` -/
def tryInsert (m : Stmt σ ε α) (h : Stmt σ ε β) (k : α → Stmt σ ε β) : Stmt σ ε β := fun tx =>
  match m tx with
  | (.ok a, tx') => k a tx'
  | (.error e, tx') => if e = DbError.integrity then h tx' else (.error e, tx')

variable {f : σ → Except ε σ} {h : Stmt σ ε β} {k : Unit → Stmt σ ε β} {db db' : σ}

theorem tryInsert_ok (hf : f db = .ok db') :
    tryInsert (write f) h k ⟨db, false⟩ = k () ⟨db', false⟩ := by
  rw [tryInsert, write_ok hf]

/-- **The handler of an insert that fails in the open finds a broken transaction.** -/
theorem tryInsert_integrity (hf : f db = .error DbError.integrity) :
    tryInsert (write f) h k ⟨db, false⟩ = h ⟨db, true⟩ := by
  rw [tryInsert, write_error hf]
  exact if_pos rfl

theorem tryInsert_error {e : ε} (hf : f db = .error e) (he : e ≠ DbError.integrity) :
    tryInsert (write f) h k ⟨db, false⟩ = (.error e, ⟨db, true⟩) := by
  rw [tryInsert, write_error hf]
  exact if_neg he

theorem tryInsert_savepoint_ok (hf : f db = .ok db') :
    tryInsert (savepoint (write f)) h k ⟨db, false⟩ = k () ⟨db', false⟩ := by
  rw [tryInsert, savepoint, write_ok hf]

/-- **The handler of an insert that fails in a savepoint finds the transaction as it was.** -/
theorem tryInsert_savepoint_integrity (hf : f db = .error DbError.integrity) :
    tryInsert (savepoint (write f)) h k ⟨db, false⟩ = h ⟨db, false⟩ := by
  rw [tryInsert, savepoint, write_error hf]
  exact if_pos rfl

/--
**The outcome of an insert in the open, whatever query its handler makes.** The
handler's query is never answered.
-/
theorem atomic_tryInsert (g : σ → Except ε σ) (q : σ → Except ε β) (b : β) :
    (tryInsert (write f) (read q) fun _ => do write g; return b).atomic db =
      match f db with
      | .error e => (.error (if e = DbError.integrity then DbError.broken else e), db)
      | .ok db' =>
        match g db' with
        | .error e => (.error e, db)
        | .ok db'' => (.ok b, db'') := by
  cases hf : f db with
  | error e =>
    by_cases he : e = DbError.integrity
    · dsimp only
      rw [if_pos he]
      rw [he] at hf
      exact atomic_error ((tryInsert_integrity hf).trans (read_broken q db))
    · dsimp only
      rw [if_neg he]
      exact atomic_error (tryInsert_error hf he)
  | ok db' =>
    dsimp only
    cases hg : g db' with
    | error e =>
      have hk : (do write g; return b : Stmt σ ε β) ⟨db', false⟩ = (.error e, ⟨db', true⟩) := by
        rw [bind_eq, write_error hg]
      exact atomic_error ((tryInsert_ok hf).trans hk)
    | ok db'' =>
      refine atomic_ok ((tryInsert_ok hf).trans ?_)
      rw [bind_eq, write_ok hg]
      rfl

end Stmt

end Roamkit.Lib
