import Roamkit.Lib.Isoformat
import Roamkit.Lib.Json
import Roamkit.Lib.Merge
import Roamkit.Billing.Credit

/-!
# Timelines

The activity feed of the dashboard and the timeline of one customer. Both read six
kinds of rows, the newest of each, make an event of every row and merge the events.
What kinds a row can have is the text of its column here, as these functions read it.
-/

namespace Roamkit.Ops

open Lib Billing

/-! ## The rows -/

structure OpsUser where
  id : Nat
  email : String
  createdAt : Time
deriving DecidableEq

/-- The account of a person, or of an organization, which has no user. -/
structure OpsAccount where
  id : Uuid
  user : Option Nat
deriving DecidableEq

structure OpsEsim where
  id : Nat
  iccid : String
deriving DecidableEq

structure OpsVoucher where
  id : Uuid
  code : String
deriving DecidableEq

instance : Constraint OpsUser where
  clash u v := u.id = v.id
  symm h := h.symm
  decClash _ _ := inferInstance

/-- The primary key, and the one account of a user. -/
instance : Constraint OpsAccount where
  clash a b := a.id = b.id ∨ (a.user.isSome ∧ a.user = b.user)
  symm := by
    intro a b h
    rcases h with hid | ⟨hsome, huser⟩
    · exact .inl hid.symm
    · exact .inr ⟨huser ▸ hsome, huser.symm⟩
  decClash _ _ := inferInstance

instance : Constraint OpsEsim where
  clash e e' := e.id = e'.id
  symm h := h.symm
  decClash _ _ := inferInstance

instance : Constraint OpsVoucher where
  clash v v' := v.id = v'.id
  symm h := h.symm
  decClash _ _ := inferInstance

/-- A ledger entry; amounts in micros. -/
structure LedgerRow where
  id : Uuid
  account : Uuid
  delta : Int
  balanceAfter : Int
  referenceType : String
  createdAt : Time
deriving DecidableEq

/-- An order; its price in cents. -/
structure OrderRow where
  id : Nat
  account : Uuid
  status : String
  packageTitle : String
  retailPriceUsd : Option Int
  updatedAt : Time
deriving DecidableEq

structure DepositRow where
  id : Uuid
  account : Uuid
  status : String
  paymentMethod : String
  amountRequested : Int
  amountCredited : Option Int
  updatedAt : Time
deriving DecidableEq

structure TopupRow where
  id : Uuid
  account : Uuid
  esim : Nat
  status : String
  amount : Int
  updatedAt : Time
deriving DecidableEq

structure LifecycleRow where
  id : Uuid
  esim : Nat
  user : Nat
  eventType : String
  createdAt : Time
deriving DecidableEq

structure RedemptionRow where
  id : Uuid
  account : Uuid
  voucher : Option Uuid
  amount : Int
  redeemedAt : Time
deriving DecidableEq

structure OpsDb where
  users : Table OpsUser
  accounts : Table OpsAccount
  esims : Table OpsEsim
  vouchers : Table OpsVoucher
  ledger : List LedgerRow
  orders : List OrderRow
  deposits : List DepositRow
  topups : List TopupRow
  lifecycle : List LifecycleRow
  redemptions : List RedemptionRow

variable (db : OpsDb)

namespace OpsDb

def userById (id : Nat) : Option OpsUser := db.users.find? (·.id = id)

/-- `account.user`, of the account of a row. -/
def accountUser (account : Uuid) : Option OpsUser :=
  ((db.accounts.find? (·.id = account)).bind OpsAccount.user).bind db.userById

/-- `user.billing_account` -/
def billingAccount (user : OpsUser) : Option OpsAccount := db.accounts.find? (·.user = some user.id)

/-- `esim.iccid` -/
def iccid (esim : Nat) : String := ((db.esims.find? (·.id = esim)).map OpsEsim.iccid).getD ""

/-- The code of the voucher of a redemption, if it has one. -/
def voucherCode (voucher : Option Uuid) : String :=
  (voucher.bind fun id => (db.vouchers.find? (·.id = id)).map OpsVoucher.code).getD ""

end OpsDb

/-! ## Events -/

def opsEventSchemaVersion : Nat := 1

/-- An item of a timeline; the icon is the one of its group. -/
structure OpsEvent where
  schemaVersion : Nat := opsEventSchemaVersion
  type : String
  timestamp : Time
  title : String
  subtitle : String := ""
  referenceId : String := ""
  severity : String := "info"
  eventGroup : String
  icon : String := eventGroup
  userId : Option Nat := none
  userEmail : Option String := none
deriving DecidableEq

/-- `timestamp.isoformat().replace("+00:00", "Z")` -/
def isoZ (t : Time) : String :=
  let text := (Isoformat.isoformat t).toList
  String.ofList (text.take (text.length - 6) ++ ['Z'])

example : isoZ 1786524601123456 = "2026-08-12T08:50:01.123456Z" := by decide

/-- `OpsEvent.to_dict` -/
def OpsEvent.toDict (e : OpsEvent) : Json :=
  .dict [("schema_version", .int e.schemaVersion), ("type", .str e.type),
    ("timestamp", .str (isoZ e.timestamp)),
    ("title", .str e.title), ("subtitle", .str e.subtitle), ("reference_id", .str e.referenceId),
    ("severity", .str e.severity), ("event_group", .str e.eventGroup), ("icon", .str e.icon),
    ("user_id", (e.userId.map fun id => Json.int id).getD .null),
    ("user_email", (e.userEmail.map Json.str).getD .null)]

/-- `text.rstrip(c)` -/
def rstrip (c : Char) (text : List Char) : List Char := (text.reverse.dropWhile (· = c)).reverse

/-- `_money` of an amount in micros: six places without the zeros at the end. -/
def money (amount : Int) : String :=
  let text := String.ofList (rstrip '.' (rstrip '0' (Dec.fixed 6 amount).toList))
  if text = "" then "0" else text

example : [money 0, money 1500000, money (-100000000)] = ["0", "1.5", "-100"] := by decide

/-- `text.replace(c, " ")` -/
def spaced (c : Char) (text : String) : String :=
  String.ofList (text.toList.map fun d => if d = c then ' ' else d)

/-- `_severity_for_status` -/
def severityForStatus (status : String) : String :=
  if status ∈ ["failed", "cancelled", "exhausted", "expired"] then "error"
  else if status ∈ ["pending", "pending_payment", "paid", "fulfilling", "draft", "purchased",
      "installation_started", "unknown"] then "warning"
  else "info"

variable (user : Option OpsUser)

/-- `_user_fields`, put into an event. -/
def OpsEvent.about (e : OpsEvent) : OpsEvent :=
  { e with userId := user.map OpsUser.id, userEmail := user.map OpsUser.email }

/-- The titles of what the ledger is written for; the others are named as they are. -/
def ledgerTitles : List (String × String) :=
  [(LedgerReferenceType.deposit.value, "Deposit credited"),
    (LedgerReferenceType.order.value, "Order spend"),
    (LedgerReferenceType.topup.value, "Top-up spend"),
    (LedgerReferenceType.subscription.value, "Subscription charge"),
      (LedgerReferenceType.refund.value, "Refund"),
    (LedgerReferenceType.adminAdjustment.value, "Admin adjustment"), ("voucher", "Voucher credit")]

/-- `event_from_ledger` -/
def eventFromLedger (entry : LedgerRow) : OpsEvent :=
  let ref := entry.referenceType
  OpsEvent.about user
    { type := "ledger." ++ ref
      timestamp := entry.createdAt
      title := (ledgerTitles.lookup ref).getD ("Ledger (" ++ ref ++ ")")
      subtitle := (if 0 ≤ entry.delta then "+" else "") ++ money entry.delta ++ " · balance "
        ++ money entry.balanceAfter
      referenceId := entry.id.str
      severity := if ref = LedgerReferenceType.refund.value then "warning" else "info"
      eventGroup := if ref = "voucher" then "voucher" else "billing" }

/-- `event_from_order` -/
def eventFromOrder (order : OrderRow) : OpsEvent :=
  let title := if order.packageTitle = "" then "Package" else order.packageTitle
  OpsEvent.about user
    { type := "order." ++ order.status
      timestamp := order.updatedAt
      title := "Order " ++ spaced '_' order.status
      subtitle := " · ".intercalate
        (title :: (order.retailPriceUsd.map fun cents => "$" ++ Dec.fixed 2 cents).toList)
      referenceId := toString order.id
      severity := severityForStatus order.status
      eventGroup := "order" }

/-- `event_from_deposit` -/
def eventFromDeposit (deposit : DepositRow) : OpsEvent :=
  -- an amount of zero is false
  let amount := match deposit.amountCredited with
    | some credited => if credited = 0 then deposit.amountRequested else credited
    | none => deposit.amountRequested
  OpsEvent.about user
    { type := "deposit." ++ deposit.status
      timestamp := deposit.updatedAt
      title := "Deposit " ++ deposit.status
      subtitle := money amount ++ " · " ++ deposit.paymentMethod
      referenceId := deposit.id.str
      severity := severityForStatus deposit.status
      eventGroup := "billing" }

/-- A text, and what follows it when there is something. -/
def followedBy (text more : String) : String := if more = "" then text else text ++ " · " ++ more

/-- `event_from_topup` -/
def eventFromTopup (user : Option OpsUser) (topup : TopupRow) : OpsEvent :=
  OpsEvent.about user
    { type := "topup." ++ topup.status
      timestamp := topup.updatedAt
      title := "Top-up " ++ topup.status
      subtitle := followedBy (money topup.amount) (db.iccid topup.esim)
      referenceId := topup.id.str
      severity := severityForStatus topup.status
      eventGroup := "billing" }

/-- `event_from_lifecycle` -/
def eventFromLifecycle (ev : LifecycleRow) : OpsEvent :=
  OpsEvent.about (db.userById ev.user)
    { type := "esim." ++ ev.eventType
      timestamp := ev.createdAt
      title := spaced '_' (spaced '.' ev.eventType)
      subtitle := db.iccid ev.esim
      referenceId := ev.id.str
      eventGroup := "esim" }

/-- `event_from_redemption` -/
def eventFromRedemption (user : Option OpsUser) (redemption : RedemptionRow) : OpsEvent :=
  OpsEvent.about user
    { type := "voucher.redeemed"
      timestamp := redemption.redeemedAt
      title := "Voucher redeemed"
      subtitle := followedBy (money redemption.amount) (db.voucherCode redemption.voucher)
      referenceId := redemption.id.str
      eventGroup := "voucher" }

/-- `event_from_user_created` -/
def eventFromUserCreated (user : OpsUser) : OpsEvent :=
  OpsEvent.about user
    { type := "user.created"
      timestamp := user.createdAt
      title := "Account created"
      subtitle := user.email
      referenceId := toString user.id
      eventGroup := "account" }

/-! ## Queries and timelines -/

/-- `order_by("-column")`: the newest first. Rows of one time come in an order of the database's
own. -/
structure OrderBy (column : α → Time) where
  run : List α → List α
  perm : ∀ rows, (run rows).Perm rows
  falls : ∀ rows, Falls column (run rows)

/-- The order of a sort that is stable. -/
def OrderBy.stable (column : α → Time) : OrderBy column :=
  ⟨newestFirst column, newestFirst_perm column, newestFirst_falls column⟩

/-- The orderings of the six queries. -/
structure Orderings where
  ledger : OrderBy LedgerRow.createdAt
  orders : OrderBy OrderRow.updatedAt
  deposits : OrderBy DepositRow.updatedAt
  topups : OrderBy TopupRow.updatedAt
  lifecycle : OrderBy LifecycleRow.createdAt
  redemptions : OrderBy RedemptionRow.redeemedAt

def Orderings.stable : Orderings :=
    ⟨.stable _, .stable _, .stable _, .stable _, .stable _, .stable _⟩

/-- The newest of the events, before they are written out. -/
def newestEvents (events : List OpsEvent) (limit : Nat) : List OpsEvent :=
  (newestFirst OpsEvent.timestamp events).take limit

/-- `_merge_events` -/
def mergeEvents (events : List OpsEvent) (limit : Nat) : List Json :=
  (newestEvents events limit).map OpsEvent.toDict

/-- The events that `build_global_activity` merges. -/
def globalEvents (o : Orderings) (fetch : Nat) : List OpsEvent :=
  ((o.ledger.run db.ledger).take fetch).map (fun e => eventFromLedger (db.accountUser e.account) e)
    ++ ((o.orders.run db.orders).take fetch).map
      (fun r => eventFromOrder (db.accountUser r.account) r)
    ++ ((o.deposits.run db.deposits).take fetch).map
      (fun d => eventFromDeposit (db.accountUser d.account) d)
    ++ ((o.topups.run db.topups).take fetch).map
      (fun t => eventFromTopup db (db.accountUser t.account) t)
    ++ ((o.lifecycle.run db.lifecycle).take fetch).map (eventFromLifecycle db)
    ++ ((o.redemptions.run db.redemptions).take fetch).map
      (fun r => eventFromRedemption db (db.accountUser r.account) r)

/-- `build_global_activity` -/
def buildGlobalActivity (o : Orderings) (limit : Nat) : List Json :=
  mergeEvents (globalEvents db o (max limit 50)) limit

/-- The events of the rows of the user's account, each attached to the user. -/
def accountEvents (o : Orderings) (user : OpsUser) (account : OpsAccount)
    (fetch : Nat) : List OpsEvent :=
  ((o.ledger.run (db.ledger.filter (·.account = account.id))).take fetch).map (eventFromLedger user)
    ++ ((o.orders.run (db.orders.filter (·.account = account.id))).take fetch).map
      (eventFromOrder user)
    ++ ((o.deposits.run (db.deposits.filter (·.account = account.id))).take fetch).map
      (eventFromDeposit user)
    ++ ((o.topups.run (db.topups.filter (·.account = account.id))).take fetch).map
      (eventFromTopup db user)
    ++ ((o.redemptions.run (db.redemptions.filter (·.account = account.id))).take fetch).map
      (eventFromRedemption db user)

/-- The events that `build_user_timeline` merges. -/
def userEvents (o : Orderings) (user : OpsUser) (fetch : Nat) : List OpsEvent :=
  let ofAccount := match db.billingAccount user with
    | some account => accountEvents db o user account fetch
    | none => []
  eventFromUserCreated user :: ofAccount
    ++ ((o.lifecycle.run (db.lifecycle.filter (·.user = user.id))).take fetch).map
      (eventFromLifecycle db)

/-- `build_user_timeline` -/
def buildUserTimeline (o : Orderings) (user : OpsUser) (limit : Nat) : List Json :=
  mergeEvents (userEvents db o user (max limit 100)) limit

end Roamkit.Ops
