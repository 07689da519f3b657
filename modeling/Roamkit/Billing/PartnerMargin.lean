import Roamkit.Billing.Credit

/-!
# Partner margin

`PartnerMarginService.accrue` runs in the transaction that fulfils a purchase. It
skips, or it credits a share of the margin to the partner of the customer and
records the accrual; whatever it raises rolls the fulfilment back.

The attribution of the customer and its channel are other components' rows: what
`accrue` reads of them is a `ChannelView`.
-/

namespace Roamkit.Billing

open Lib

/-- Primary keys of users. -/
abbrev UserId := Nat

inductive SourceType where
  | order
  | topup
  | subscription
deriving DecidableEq

def SourceType.value : SourceType → String
  | order => "order"
  | topup => "topup"
  | subscription => "subscription"

/-- An accrual; prices and margin in millionths, as the columns round them. -/
structure PartnerMarginAccrual where
  id : Uuid
  partnerChannel : Uuid
  /-- `customer_user_id_snapshot` -/
  customer : UserId
  sourceType : SourceType
  sourceId : String
  listPrice : Int
  netPrice : Int
  margin : Int
  /-- In hundredths. -/
  revenueSharePercent : Int
  partnerShare : Amount
  /-- The key of the entry that paid the share. -/
  ledgerEntry : String
deriving DecidableEq

instance : Constraint PartnerMarginAccrual where
  clash a b := a.id = b.id ∨ (a.sourceType = b.sourceType ∧ a.sourceId = b.sourceId)
    ∨ a.ledgerEntry = b.ledgerEntry
  symm := by
    intro a b h
    rcases h with h | ⟨h, h'⟩ | h
    · exact .inl h.symm
    · exact .inr (.inl ⟨h.symm, h'.symm⟩)
    · exact .inr (.inr h.symm)
  decClash _ _ := inferInstance

inductive ChannelKind where
  | individual
  | team
deriving DecidableEq

/-- What `accrue` reads of the channel a customer is attributed to. -/
structure ChannelView where
  id : Uuid
  kind : ChannelKind
  ownerUser : Option UserId
  organization : Option Uuid
  isActive : Bool
  /-- In hundredths. -/
  revenueSharePercent : Int
  /-- The customer is an active member of the owning organization. -/
  activeMember : Bool
  /-- What `resolve_partner_settlement_account` answers. -/
  settlement : Except Exc Uuid

/-- `partner_channel_can_accrue_for_customer` -/
def ChannelView.canAccrueFor (channel : ChannelView) (customer : UserId) : Bool :=
  match channel.kind with
  | .individual => channel.ownerUser ≠ some customer
  | .team => channel.organization.isNone || !channel.activeMember

/-- `_price_skip`, as whether there is a reason to skip. -/
def priceSkip (listPrice netPrice : Option Dec) (percent : Int) : Bool :=
  match netPrice, listPrice with
  | none, _ => true
  | some _, none => true
  | some net, some list => net.coeff < 0 || list.lt net || percent ≤ 0

/-- `(margin * percent / 100).quantize(MONEY_QUANT)`, in millionths. -/
def partnerShare (listPrice netPrice : Dec) (percent : Int) : Option Int :=
  (Dec.percent (Dec.mul (Dec.sub listPrice netPrice) (Dec.ofUnits 2 percent))).quantize 6

/-- `f"partner-margin:{source_type}:{source_id}"` -/
def marginKey (sourceType : SourceType) (sourceId : String) : String :=
  "partner-margin:" ++ sourceType.value ++ ":" ++ sourceId

/-- The ledger and the accruals made on it. -/
structure MarginBooks where
  books : Books
  accruals : Table PartnerMarginAccrual

/-- The commercial event an accrual is for. -/
structure MarginSource where
  sourceType : SourceType
  sourceId : String
  customer : UserId
  listPrice : Dec
  netPrice : Dec

namespace MarginSource

/-- `list_price - net_price` -/
def margin (src : MarginSource) : Dec := Dec.sub src.listPrice src.netPrice

/-- The values fit the columns of the accrual. -/
def fits (src : MarginSource) : Bool :=
  fitsNumeric 20 6 src.listPrice && fitsNumeric 20 6 src.netPrice && fitsNumeric 20 6 src.margin
    && src.sourceId.length ≤ 64

/-- The row that is inserted. -/
def accrual (src : MarginSource) (channel : ChannelView) (id : Uuid) (share : Amount)
    (ledgerEntry : String) : PartnerMarginAccrual where
  id
  partnerChannel := channel.id
  customer := src.customer
  sourceType := src.sourceType
  sourceId := src.sourceId
  listPrice := src.listPrice.units 6
  netPrice := src.netPrice.units 6
  margin := src.margin.units 6
  revenueSharePercent := channel.revenueSharePercent
  partnerShare := share
  ledgerEntry

end MarginSource

/-- The share is credited and the accrual recorded. -/
def MarginBooks.pay (s : MarginBooks) (src : MarginSource) (channel : ChannelView)
    (account : Uuid) (share : Int) (accrualId : Uuid) : Except Exc MarginBooks := do
  let p ← preparePosting account (.decimal (.finite (Dec.ofUnits 6 share))) (.member .partnerMargin)
    accrualId.str (marginKey src.sourceType src.sourceId) true
  let (books, entry) ← s.books.apply p
  if ¬ src.fits then .error .data
  else
    match s.accruals.insert? (src.accrual channel accrualId p.amount entry.idempotencyKey) with
    | none => .error .integrity
    | some accruals => .ok { books, accruals }

/-- `PartnerMarginService.accrue` -/
def MarginBooks.accrue (s : MarginBooks) (partnerChannelEnabled : Bool) (sourceType : SourceType)
    (sourceId : String) (listPrice netPrice : Option Dec) (customer : Option UserId)
    (attribution : Option ChannelView) (accrualId : Uuid) : Except Exc MarginBooks :=
  if ¬ partnerChannelEnabled then .ok s
  else
    match customer, attribution with
    | none, _ => .ok s
    | some _, none => .ok s
    | some user, some channel =>
      if (s.accruals.find? fun a => a.sourceType = sourceType && a.sourceId = sourceId).isSome then
        .ok s
      else if ¬ channel.isActive then .ok s
      else if ¬ channel.canAccrueFor user then .ok s
      else if priceSkip listPrice netPrice channel.revenueSharePercent then .ok s
      else
        match listPrice, netPrice with
        | some list, some net =>
          match partnerShare list net channel.revenueSharePercent with
          | none => .error .invalidOperation
          | some share =>
            if share = 0 then .ok s
            else
              match channel.settlement with
              | .error e => .error e
              | .ok account =>
                s.pay ⟨sourceType, sourceId, user, list, net⟩ channel account share accrualId
        | _, _ => .ok s

end Roamkit.Billing
