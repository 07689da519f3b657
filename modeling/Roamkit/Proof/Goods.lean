import Roamkit.Proof.Esims
import Roamkit.Proof.SpendSound

/-!
# What a fulfilled purchase was charged for

The client unwraps a reply with defaults, the mapper skips SIMs without an ICCID
and writes out as a text whatever else stands in its place, and the transaction
that persists the result writes what is left, or raises. A reply without goods can
pass all three, and then the purchase is fulfilled; and goods that cannot be
written are paid for and not delivered. Here is what a reply and the rows that are
there must be for a purchase to end well, and that it is no more and no less.
-/

namespace Roamkit.Spend.Proof

open Lib Billing Billing.Proof

/-! ## Replies with goods -/

variable {w : Json.Writer} {r : Airalo.HttpReply} {c : SpendSettings} {s s' : SpendDb}
  {t : SpendThread} {d : PersistDraw} {src : Source} {account : Uuid}

/-- What a call goes on with is what it read of the reply in the provider's book. -/
def Read (c : SpendSettings) (s : SpendDb) (t : SpendThread) : Prop :=
  match t.pc with
  | .persisting w sale => ∃ x, s.provider w.source = some x ∧ w.read c x.reply = .ok sale
  | .compensating w e => ∃ x, s.provider w.source = some x ∧ w.read c x.reply = .error e
  | _ => True

theorem Read.frame {u : SpendThread} (h : Read c s u)
    (hkept : ∀ row, own u.pc = some row → s'.provider row.source = s.provider row.source) :
    Read c s' u := by
  obtain ⟨call, pc⟩ := u
  cases pc with
  | persisting w sale =>
    obtain ⟨x, hx, hread⟩ := h
    exact ⟨x, (hkept w.row rfl).trans hx, hread⟩
  | compensating w e =>
    obtain ⟨x, hx, hread⟩ := h
    exact ⟨x, (hkept w.row rfl).trans hx, hread⟩
  | _ => trivial

/-- What is to be written of a sale fits, and the partner's share of it is paid. -/
def Storable (c : SpendSettings) (s : SpendDb) (d : PersistDraw) : Spending → Sale → Prop
  | .order a o, .order r =>
    r.externalOrderId.length ≤ 64
      ∧ SimsFit s (fulfilledOrder r.externalOrderId o) a.user a.package r.installationGuideUrl d 0
        r.sims
      ∧ ∃ s', s.accrue c .order (toString o.id) (some (Dec.ofUnits 2 o.listPriceUsd))
        (o.netPriceUsd.map (Dec.ofUnits 2)) (some a.user) d = .ok s'
  | .topup _ package t, .topup r =>
    r.externalOrderId.length ≤ 64
      ∧ ∃ s', s.accrue c .topup t.id.str (finite? package.priceUsd)
        (package.netPriceUsd.bind finite?) d.accountUser d = .ok s'
  | _, _ => False

/-- The refund of an amount, as it is posted. -/
def refundOf (src : Source) (account : Uuid) (amount : Amount) : Posting where
  account
  amount
  credit := true
  referenceType := .refund
  referenceId := src.reference
  idempotencyKey := src.refundKey
  keyed := by
    intro h
    have hlen := congrArg String.length h
    cases src <;> simp [Source.refundKey] at hlen

/-- What was charged can be given back: the balance and the version have room for it. -/
def Refundable (s : SpendDb) (row : Row) : Prop :=
  ∀ charge, row.purchase.charge = some charge → ∃ amount : Amount, amount.micros = charge
    ∧ ∃ a ∈ s.books.accounts, a.id = row.purchase.account
      ∧ ((refundOf row.source a.id amount).entry a.balance).fits = true ∧ a.version < maxVersion

/-- The transaction that is to settle a row can store what it writes. -/
def Settles (c : SpendSettings) (s : SpendDb) (pc : SpendPc) (x : SpendInput) : Prop :=
  match pc, x with
  | .persisting w sale, .persist d => Storable c s d w sale
  | .compensating w _, .go => Refundable s w.row
  | _, _ => False

end Roamkit.Spend.Proof
