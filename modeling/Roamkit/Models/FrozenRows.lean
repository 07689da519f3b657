import Roamkit.Models.Schema

/-!
# Rows that may not change

Five models declare their rows append-only, immutable or write-once, and each
protects them in its own way: in `save` and `delete`, in the manager, or not at
all. An `Operation` is what the ORM can be asked to do to these rows or to those
they hang on. `run` is what it does: the exception it raises, or the `Change` it
makes, which says of every stored row what becomes of it.
-/

namespace Roamkit.Models

open Lib Lib.Constraint

inductive FrozenModel where
  | creditLedgerEntry
  | inviteVisit
  | partnerMarginAccrual
  | partnerCreditGrant
  | subscriptionRenewalCycle
deriving DecidableEq

variable (m : FrozenModel) (s : Table Row)

namespace FrozenModel

def model : FrozenModel → Model
  | creditLedgerEntry => .creditLedgerEntry
  | inviteVisit => .inviteVisit
  | partnerMarginAccrual => .partnerMarginAccrual
  | partnerCreditGrant => .partnerCreditGrant
  | subscriptionRenewalCycle => .subscriptionRenewalCycle

/-- The columns that keep the value a row was inserted with: all of them, but for the
links to a user that are `SET_NULL` and the status of a renewal cycle. -/
def frozen : FrozenModel → List String
  | creditLedgerEntry =>
    ["id", "account_id", "delta", "balance_after", "reference_type", "reference_id",
      "idempotency_key", "created_at"]
  | inviteVisit =>
    ["id", "invite_link_id", "utm_source", "utm_medium", "utm_campaign", "utm_content",
      "created_at"]
  | partnerMarginAccrual =>
    ["id", "partner_channel_id", "customer_user_id_snapshot", "customer_attribution_id",
      "source_type", "source_id", "list_price", "net_price", "margin",
      "revenue_share_percent", "partner_share", "ledger_entry_id", "created_at"]
  | partnerCreditGrant =>
    ["id", "partner_channel_id", "customer_user_id_snapshot", "customer_attribution_id",
      "granted_by_user_id_snapshot", "amount", "idempotency_key", "debit_ledger_entry_id",
      "credit_ledger_entry_id", "created_at"]
  | subscriptionRenewalCycle =>
    ["id", "subscription_id", "billing_date", "renewal_list_price_usd",
      "renewal_net_price_usd", "created_at"]

/-- The other columns. -/
def open_ : FrozenModel → List String
  | creditLedgerEntry | inviteVisit => []
  | partnerMarginAccrual => ["customer_user_id"]
  | partnerCreditGrant => ["customer_user_id", "granted_by_id"]
  | subscriptionRenewalCycle => ["status"]

/-- `_meta.concrete_fields`, by attribute name. -/
def columns : List String := m.frozen ++ m.open_

/-- `_meta.get_field(name)`: a column by its attribute name, or by the name of the
relation it stores. -/
def getField (name : String) : Except Exc String :=
  if name ∈ m.columns then .ok name
  else
    match foreignKeys.find? fun fk => fk.model == m.model && fk.field == name with
    | some fk => .ok fk.attname
    | none => .error (.fieldDoesNotExist m.model.name name)

end FrozenModel

/-! ## Changes -/

/-- What a statement does to the rows of a database: what becomes of each stored row,
and which rows come to them. No two rows are left with one primary key. -/
structure Change (s : Table Row) where
  fate : Row → Option Row
  added : List Row
  apart : (s.rows.filterMap fate ++ added).Pairwise fun r r' => ¬ clash r r'

/-- The rows after it. -/
def Change.store {s : Table Row} (w : Change s) : Table Row := ⟨_, w.apart⟩

/-- The constraints of the database other than its primary keys. -/
structure Database where
  accepts : List Row → Bool

variable (db : Database)

/-- The database takes these rows for its own. -/
def Database.Takes (rows : List Row) : Prop :=
  (rows.Pairwise fun r r' => ¬ clash r r') ∧ db.accepts rows

/-- Make a change, unless a constraint is against it. -/
def Database.commit (s : Table Row) (fate : Row → Option Row) (added : List Row) :
    Except Exc (Change s) :=
  if h : (s.rows.filterMap fate ++ added).Pairwise fun r r' => ¬ clash r r' then
    if db.accepts (s.rows.filterMap fate ++ added) then .ok ⟨fate, added, h⟩
    else .error .integrity
  else .error .integrity

/-- A statement that changes nothing. -/
def unchanged : Change s :=
  ⟨some, [], by simpa using s.apart⟩

/-! ## `QuerySet.update` and `bulk_update` -/

/-- The value an assignment gives a column of a row. -/
abbrev Assignments := List (String × (Row → Value))

/-- The row with its columns set. -/
def assign (sets : Assignments) (r : Row) : Row :=
  { r with
    values := fun c =>
      match sets.find? fun set => set.1 == c with
      | some set => set.2 r
      | none => r.values c }

/-- The rows a query set of a model matches. -/
def matched (m : Model) (filter : Row → Bool) (r : Row) : Bool := r.model == m && filter r

/-- `_RENEWAL_IMMUTABLE_FIELDS` -/
def renewalImmutableFields : List String :=
  ["subscription", "subscription_id", "billing_date", "renewal_list_price_usd",
    "renewal_net_price_usd", "id", "created_at"]

/-- What `update` of a model's manager raises before it makes a query. -/
def updateRefusal (m : FrozenModel) (filter : Row → Bool) (names : List String) : Except Exc Unit :=
  match m with
  | .creditLedgerEntry | .inviteVisit => .ok ()
  | .partnerMarginAccrual | .partnerCreditGrant =>
    .error (.appendOnlyViolation (m.model.name ++ " is immutable"))
  | .subscriptionRenewalCycle =>
    if names.any (· ∈ renewalImmutableFields) then
      .error (.appendOnlyViolation
        "SubscriptionRenewalCycle prices and identity are write-once")
    else if "status" ∈ names ∧ (s.rows.any fun r =>
        matched m.model filter r && r.values "status" == .text "renewed") then
      .error (.appendOnlyViolation "A renewed SubscriptionRenewalCycle is terminal")
    else .ok ()

/-- The columns that keyword arguments name, with what each is set to. -/
def resolve (kwargs : Assignments) : Except Exc Assignments := do
  let columns ← kwargs.mapM fun set => m.getField set.1
  if columns.Nodup then .ok (columns.zip (kwargs.map Prod.snd)) else .error .programming

/-- `objects.filter(filter).update(**kwargs)` -/
def queryUpdate (s : Table Row) (m : FrozenModel) (filter : Row → Bool) (kwargs : Assignments) :
    Except Exc (Change s) :=
  do
  updateRefusal s m filter (kwargs.map Prod.fst)
  let sets ← resolve m kwargs
  db.commit s (fun r => some (rewrite (matched m.model filter) (assign sets) r)) []

/-- The `Case` over the primary keys of the objects. -/
def caseOf (objs : List Row) (column : String) (r : Row) : Value :=
  match objs.find? fun o => o.values "id" == r.values "id" with
  | some o => o.values column
  | none => .null

/-- The rows of a query set that objects are to be written to. -/
def listed (filter : Row → Bool) (objs : List Row) (r : Row) : Bool :=
  filter r && objs.any fun o => o.values "id" == r.values "id"

/-- `objects.filter(filter).bulk_update(objs, fields)` -/
def bulkUpdate (s : Table Row) (m : FrozenModel) (filter : Row → Bool) (objs : List Row)
    (fields : List String) : Except Exc (Change s) :=
  if fields.isEmpty ∨ (objs.any fun o => o.values "id" == .null) then .error .valueError
  else do
    let columns ← fields.mapM m.getField
    if "id" ∈ columns then .error .valueError
    else if objs.isEmpty then .ok (unchanged s)
    else
      queryUpdate db s m (listed filter objs) (columns.dedup.map fun c => (c, caseOf objs c))

/-! ## `save` -/

/-- The stored row with the primary key of an instance. -/
def sameRow (instance_ : Row) : Row → Bool :=
  matched m.model fun r => r.values "id" == instance_.values "id"

/-- The values of an instance in these columns. -/
def valuesOf (instance_ : Row) (columns : List String) : Assignments :=
  columns.map fun c => (c, fun _ => instance_.values c)

/-- The arguments of `save`. -/
structure SaveOptions where
  forceInsert : Bool
  forceUpdate : Bool
  updateFields : Option (List String)

/-- The columns of a cycle that its `save` compares with the stored ones. -/
def comparedColumns : List String :=
  ["subscription_id", "billing_date", "renewal_list_price_usd", "renewal_net_price_usd"]

/-- What `save` of a model raises before it saves; `adding` is `_state.adding`, and
`instance_` has a primary key. -/
def saveRefusal (m : FrozenModel) (instance_ : Row) (adding : Bool) :
    Except Exc Unit :=
  if adding then .ok ()
  else
    match m with
    | .creditLedgerEntry =>
      .error (.appendOnlyViolation "CreditLedgerEntry is append-only; updates are forbidden")
    | .inviteVisit | .partnerMarginAccrual | .partnerCreditGrant =>
      .error (.appendOnlyViolation (m.model.name ++ " is immutable"))
    | .subscriptionRenewalCycle =>
      match s.find? (sameRow m instance_) with
      | none => .error (.appendOnlyViolation "SubscriptionRenewalCycle does not exist")
      | some previous =>
        if previous.values "status" = .text "renewed" then
          .error (.appendOnlyViolation "A renewed SubscriptionRenewalCycle is terminal")
        else if comparedColumns.any fun c => previous.values c != instance_.values c then
          .error (.appendOnlyViolation
            "SubscriptionRenewalCycle prices and identity are write-once")
        else .ok ()

/-- The columns `save` writes when it updates. -/
def savedColumns (options : SaveOptions) : Except Exc (List String) :=
  match options.updateFields with
  | none => .ok (m.columns.erase "id")
  | some fields => do
    let columns ← (fields.mapM m.getField).mapError fun _ => .valueError
    if "id" ∈ columns then .error .valueError
    else .ok (m.columns.filter (· ∈ columns))

/-- `instance.save(…)`; `now` is the time an insert stamps the row with. -/
def save (s : Table Row) (m : FrozenModel) (instance_ : Row) (adding : Bool)
    (options : SaveOptions) (now : Value) : Except Exc (Change s) := do
  saveRefusal s m instance_ adding
  if options.forceInsert ∧ (options.forceUpdate ∨ options.updateFields.any (! ·.isEmpty)) then
    .error .valueError
  else if options.updateFields = some [] then .ok (unchanged s)
  else do
    let columns ← savedColumns m options
    let fresh : Row :=
      ⟨m.model, fun c => if c = "created_at" then now else instance_.values c⟩
    -- every primary key has a default, so a fresh instance is inserted unless told otherwise
    if options.forceInsert ∨ (adding ∧ ¬ options.forceUpdate) then
      db.commit s some [fresh]
    else if s.rows.any (sameRow m instance_) then
      db.commit s
        (fun r => some (rewrite (sameRow m instance_) (assign (valuesOf instance_ columns)) r)) []
    else if options.forceUpdate ∨ options.updateFields.isSome then .error .noRowUpdated
    else db.commit s some [fresh]

/-! ## `delete` -/

/-- The rows that go when these go. -/
def collected (roots : List Key) : List Key :=
  collect Row.key (refers .cascade) s.rows.length s.rows roots

/-- The row once the rows with these keys have gone: what it referred to them by is null. -/
def unlink (gone : List Key) (r : Row) : Row :=
  { r with
    values := fun c =>
      if foreignKeys.any (fun fk => fk.onDelete == .setNull && fk.attname == c
          && gone.any (fk.refers r)) then .null
      else r.values c }

/-- What becomes of a row when the rows with these keys go. -/
def survivor (gone : List Key) (r : Row) : Option Row :=
  if r.key ∈ gone then none else some (unlink gone r)

/-- `Collector.collect` and `Collector.delete` -/
def deleteRows (s : Table Row) (roots : List Key) : Except Exc (Change s) :=
  let gone := collected s roots
  match s.rows.find? fun r => gone.any (refers .protect r) with
  | some r => .error (.protectedRows r.model.name)
  | none => db.commit s (survivor gone) []

/-- `instance.delete()` -/
def instanceDelete (s : Table Row) (k : Key) : Except Exc (Change s) :=
  match deleteRefusal k.model with
  | some e => .error e
  | none => deleteRows db s [k]

/-- `objects.filter(filter).delete()` -/
def queryDelete (s : Table Row) (m : Model) (filter : Row → Bool) :
    Except Exc (Change s) :=
  match queryDeleteRefusal m with
  | some e => .error e
  | none => deleteRows db s ((s.rows.filter (matched m filter)).map Row.key)

/-! ## Operations -/

inductive Operation where
  | save (m : FrozenModel) (instance_ : Row) (adding : Bool) (options : SaveOptions)
      (now : Value)
  | update (m : FrozenModel) (filter : Row → Bool) (kwargs : Assignments)
  | bulkUpdate (m : FrozenModel) (filter : Row → Bool) (objs : List Row)
      (fields : List String)
  | delete (k : Key)
  | queryDelete (m : Model) (filter : Row → Bool)
  /-- Rows of the other models are saved or updated, by whatever their own guards let through. -/
  | elsewhere (change : Row → Row) (added : List Row)

/-- The rows of this model may not change. -/
def isFrozen (m : Model) : Bool :=
  [FrozenModel.creditLedgerEntry, .inviteVisit, .partnerMarginAccrual, .partnerCreditGrant,
    .subscriptionRenewalCycle].any fun f => f.model == m

/-- Saves and updates of the other models write to no row of these five. -/
def writeElsewhere (s : Table Row) (change : Row → Row) (added : List Row) :
    Except Exc (Change s) :=
  db.commit s
    (fun r => some (if isFrozen r.model then r else { change r with model := r.model }))
    (added.filter fun r => ¬ isFrozen r.model)

/-- What an operation does to the rows that are stored. -/
def run (s : Table Row) : Operation → Except Exc (Change s)
  | .save m instance_ adding options now => save db s m instance_ adding options now
  | .update m filter kwargs => queryUpdate db s m filter kwargs
  | .bulkUpdate m filter objs fields => bulkUpdate db s m filter objs fields
  | .delete k => instanceDelete db s k
  | .queryDelete m filter => queryDelete db s m filter
  | .elsewhere change added => writeElsewhere db s change added

/-- The rows after an operation; one that raises leaves them as they were. -/
def after (s : Table Row) (op : Operation) : Table Row :=
  match run db s op with
  | .ok w => w.store
  | .error _ => s

end Roamkit.Models
