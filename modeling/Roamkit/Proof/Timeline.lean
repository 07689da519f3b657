import Roamkit.Ops.Timeline

/-!
# What a timeline shows

Every source is cut before the merge. The cut loses nothing, because a source is
ordered by the very column its events carry as their time and is never cut to fewer
rows than the timeline has: a row behind the cut has as many events in front of it
as are shown.
-/

namespace Roamkit.Ops

open Lib

variable {α : Type*} {column : α → Time}

/-! ## The full lists -/

variable (db : OpsDb) {limit : Nat}

/-- An event for each row of the six sources. -/
def allEvents : List OpsEvent :=
  db.ledger.map (fun e => eventFromLedger (db.accountUser e.account) e)
    ++ db.orders.map (fun r => eventFromOrder (db.accountUser r.account) r)
    ++ db.deposits.map (fun d => eventFromDeposit (db.accountUser d.account) d)
    ++ db.topups.map (fun t => eventFromTopup db (db.accountUser t.account) t)
    ++ db.lifecycle.map (eventFromLifecycle db)
    ++ db.redemptions.map (fun r => eventFromRedemption db (db.accountUser r.account) r)

/-- An event for each row of the account. -/
def allAccountEvents (user : OpsUser) (account : OpsAccount) : List OpsEvent :=
  (db.ledger.filter (·.account = account.id)).map (eventFromLedger user)
    ++ (db.orders.filter (·.account = account.id)).map (eventFromOrder user)
    ++ (db.deposits.filter (·.account = account.id)).map (eventFromDeposit user)
    ++ (db.topups.filter (·.account = account.id)).map (eventFromTopup db user)
    ++ (db.redemptions.filter (·.account = account.id)).map (eventFromRedemption db user)

/-- The registration of the user, and an event for each row of the user and of the user's
account. -/
def allUserEvents (user : OpsUser) : List OpsEvent :=
  let ofAccount := match db.billingAccount user with
    | some account => allAccountEvents db user account
    | none => []
  eventFromUserCreated user :: ofAccount
    ++ (db.lifecycle.filter (·.user = user.id)).map (eventFromLifecycle db)

/-! ## Sources -/

/-- A source that is cut at `fetch` rows or later keeps the newest `limit` events of its rows. -/
theorem OrderBy.keeps (o : OrderBy column) {f : α → OpsEvent}
    (htime : ∀ row, (f row).timestamp = column row) {fetch : Nat} (hfetch : limit ≤ fetch)
    (rows : List α) :
    KeepsNewest OpsEvent.timestamp limit (rows.map f) (((o.run rows).take fetch).map f) := by
  apply KeepsNewest.map
  have hcolumn : (fun row => (f row).timestamp) = column := funext htime
  rw [hcolumn]
  exact IsNewest.keeps hfetch ⟨o.run rows, o.perm rows, o.falls rows, rfl⟩

/-- Of these events a timeline shows the newest `limit` of all that there are. -/
def Shows (events : List OpsEvent) (limit : Nat) (all : List OpsEvent) : Prop :=
  ∃ full : List OpsEvent, full.Perm all ∧ Falls OpsEvent.timestamp full
    ∧ newestEvents events limit = full.take limit
    ∧ mergeEvents events limit = (full.take limit).map OpsEvent.toDict

theorem mergeEvents_shows {all kept : List OpsEvent}
    (h : KeepsNewest OpsEvent.timestamp limit all kept) : Shows kept limit all := by
  obtain ⟨full, hperm, hfalls, htake⟩ :=
    h.newest (newestFirst_perm _ kept) (newestFirst_falls _ kept)
  refine ⟨full, hperm, hfalls, htake, ?_⟩
  unfold mergeEvents newestEvents
  rw [htake]

theorem accountEvents_keeps (o : Orderings) (user : OpsUser) (account : OpsAccount) {fetch : Nat}
    (hfetch : limit ≤ fetch) :
    KeepsNewest OpsEvent.timestamp limit (allAccountEvents db user account)
      (accountEvents db o user account fetch) :=
  (((((o.ledger.keeps (fun _ => rfl) hfetch _).append
    (o.orders.keeps (fun _ => rfl) hfetch _)).append
    (o.deposits.keeps (fun _ => rfl) hfetch _)).append
    (o.topups.keeps (fun _ => rfl) hfetch _)).append
    (o.redemptions.keeps (fun _ => rfl) hfetch _))

/-! ## The timelines -/

theorem globalEvents_shows (o : Orderings) (limit : Nat) :
    Shows (globalEvents db o (max limit 50)) limit (allEvents db) := by
  have hfetch : limit ≤ max limit 50 := le_max_left _ _
  exact mergeEvents_shows
    ((((((o.ledger.keeps (fun _ => rfl) hfetch _).append
      (o.orders.keeps (fun _ => rfl) hfetch _)).append
      (o.deposits.keeps (fun _ => rfl) hfetch _)).append
      (o.topups.keeps (fun _ => rfl) hfetch _)).append
      (o.lifecycle.keeps (fun _ => rfl) hfetch _)).append
      (o.redemptions.keeps (fun _ => rfl) hfetch _))

theorem userEvents_shows (o : Orderings) (user : OpsUser) (limit : Nat) :
    Shows (userEvents db o user (max limit 100)) limit (allUserEvents db user) := by
  have hfetch : limit ≤ max limit 100 := le_max_left _ _
  have hcreated := KeepsNewest.refl OpsEvent.timestamp limit [eventFromUserCreated user]
  have hlife := o.lifecycle.keeps (f := eventFromLifecycle db) (fun _ => rfl) hfetch
    (db.lifecycle.filter (·.user = user.id))
  apply mergeEvents_shows
  unfold allUserEvents userEvents
  -- a user without an account has no other rows
  cases db.billingAccount user with
  | none => exact hcreated.append hlife
  | some account =>
      exact (hcreated.append (accountEvents_keeps db o user account hfetch)).append hlife

/--
**Cutting each source to `limit` rows before the merge loses nothing.**

The feed and the timeline of a customer are the first `limit` events of a list of
the events of *all* rows, newest first, whatever the limit and the order in which
the database gives rows of one time.
-/
theorem timelines_newest (db : OpsDb) (o : Orderings) (limit : Nat) :
    (∃ full : List OpsEvent, full.Perm (allEvents db) ∧ Falls OpsEvent.timestamp full
      ∧ newestEvents (globalEvents db o (max limit 50)) limit = full.take limit
      ∧ buildGlobalActivity db o limit = (full.take limit).map OpsEvent.toDict)
    ∧ ∀ user : OpsUser, ∃ full : List OpsEvent,
      full.Perm (allUserEvents db user) ∧ Falls OpsEvent.timestamp full
      ∧ newestEvents (userEvents db o user (max limit 100)) limit = full.take limit
      ∧ buildUserTimeline db o user limit = (full.take limit).map OpsEvent.toDict :=
  ⟨globalEvents_shows db o limit, fun user => userEvents_shows db o user limit⟩

/-- Sixty orders, a second after one another. -/
def busyOrders : OpsDb where
  users := .empty
  accounts := .empty
  esims := .empty
  vouchers := .empty
  ledger := []
  orders := (List.range 60).map fun n =>
    ⟨n, ⟨"00000000-0000-4000-8000-000000000001", by decide⟩, "fulfilled", "1 GB",
    some 450, 1786524601000000 + n * 1000000⟩
  deposits := []
  topups := []
  lifecycle := []
  redemptions := []

/-- Ten of them are cut off, and the feed still shows the newest of all. -/
theorem timelines_newest_busy :
    (globalEvents busyOrders .stable 50).length = 50 ∧ (allEvents busyOrders).length = 60
      ∧ ∃ full : List OpsEvent, full.Perm (allEvents busyOrders) ∧ Falls OpsEvent.timestamp full
        ∧ newestEvents (globalEvents busyOrders .stable 50) 20 = full.take 20
        ∧ buildGlobalActivity busyOrders .stable 20 = (full.take 20).map OpsEvent.toDict := by
  refine ⟨?_, ?_, (timelines_newest busyOrders .stable 20).1⟩
  · have hsorted : (newestFirst OrderRow.updatedAt busyOrders.orders).length = 60 :=
      (newestFirst_perm _ _).length_eq.trans (by simp [busyOrders])
    simp [globalEvents, Orderings.stable, OrderBy.stable, hsorted]
    simp [busyOrders, newestFirst]
  · simp [allEvents, busyOrders]

end Roamkit.Ops
