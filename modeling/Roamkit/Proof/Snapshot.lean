import Roamkit.Pricing.Snapshot
import Roamkit.Proof.Fingerprint
import Roamkit.Proof.Prices

/-!
# Quotes that come back from a row

Whether a quote of a stored profile fits the row is up to its two prices alone. What was
stored is read back, but for a slug or a name that is empty: the row has no other text for
one that is missing.
-/

namespace Roamkit.Pricing.Proof

open Lib

/-- The columns of a profile that is stored. -/
structure NamedProfile.Stored (p : NamedProfile) : Prop where
  range : p.toPricingProfile.InRange
  version : p.version ≤ 2147483647
  slug : p.slug.length ≤ 128
  name : p.name.length ≤ 128

/-- A quote is of the profile it names and states its discount, or it states none. -/
theorem resolve_profile {flagEnabled : Bool} {ctx : PricingContext} {q : PricingQuote}
    (h : resolve flagEnabled ctx = .ok q) :
    (q.profile = none ∧ q.discountPercent = 0)
      ∨ ∃ p, ctx.profile = some p ∧ q.profile = some (p.id, p.version)
        ∧ (q.discountPercent = 0 ∨ q.discountPercent = p.discountPercent) := by
  unfold resolve at h
  obtain ⟨list, -, h⟩ := bind_ok h
  obtain ⟨net?, -, h⟩ := bind_ok h
  cases hprofile : ctx.profile with
  | none =>
    rw [hprofile] at h
    cases h
    exact .inl ⟨rfl, rfl⟩
  | some p =>
    rw [hprofile] at h
    dsimp only at h
    by_cases hforce : ¬ flagEnabled = true ∨ ¬ p.isEffective ctx.timestamp = true
    · rw [if_pos hforce] at h
      cases h
      exact .inl ⟨rfl, rfl⟩
    rw [if_neg hforce] at h
    by_cases hfree : p.discountPercent ≤ 0
    · rw [if_pos hfree] at h
      cases h
      exact .inr ⟨p, rfl, rfl, .inl rfl⟩
    rw [if_neg hfree] at h
    by_cases hfloor : p.floorPolicy = .none
    · rw [if_pos hfloor] at h
      obtain ⟨customer, -, hq⟩ := bind_ok h
      cases hq
      exact .inr ⟨p, rfl, rfl, .inr rfl⟩
    rw [if_neg hfloor] at h
    cases hnet : ctx.netPrice with
    | none =>
      rw [hnet] at h
      cases h
      exact .inl ⟨rfl, rfl⟩
    | some net =>
      rw [hnet] at h
      obtain ⟨cents, -, h⟩ := bind_ok h
      by_cases hlt : list < cents
      · rw [if_pos hlt] at h
        cases h
        exact .inl ⟨rfl, rfl⟩
      · rw [if_neg hlt] at h
        obtain ⟨customer, -, hq⟩ := bind_ok h
        cases hq
        exact .inr ⟨p, rfl, rfl, .inr rfl⟩

/-! ## What is stored -/

section Row

variable {sha256 : String → String} {flagEnabled : Bool} {ctx : QuoteContext} {q : Quote}

/-- What a quote has beside its prices fits the columns it is stored in. -/
structure Quote.Storable (q : Quote) : Prop where
  discount : fitsNumeric 5 2 (Dec.ofUnits 2 q.discountPercent) = true
  version : q.data.pricingProfileVersion.all (· ≤ 2147483647) = true
  slug : (q.data.profileSlug.getD "").length ≤ 128
  name : (q.data.profileName.getD "").length ≤ 128
  hash : q.pricingContextHash.length = 64
  schema : q.snapshotSchemaVersion = snapshotSchemaVersion

theorem fits_discount {discount : Int} (h : 0 ≤ discount) (hle : discount ≤ 10000) :
    fitsNumeric 5 2 (Dec.ofUnits 2 discount) = true := by
  unfold fitsNumeric
  rw [Dec.units_ofUnits]
  exact decide_eq_true (by omega)

/-- **A quote of a stored profile is storable, whatever its prices.** -/
theorem resolveQuote_storable (hhex : ∀ payload, (sha256 payload).length = 64)
    (hstored : ∀ p, ctx.resolvedProfile = some p → NamedProfile.Stored p)
    (h : resolveQuote sha256 flagEnabled ctx = .ok q) : Quote.Storable q := by
  obtain ⟨contextHash, hhash, h⟩ := bind_ok h
  obtain ⟨quote, hquote, h⟩ := bind_ok h
  have hlength : contextHash.length = 64 := by
    obtain ⟨list, -, hhash⟩ := bind_ok hhash
    obtain ⟨net, -, hhash⟩ := bind_ok hhash
    cases hhash
    exact hhex _
  cases h
  rcases resolve_profile hquote with ⟨hnone, hdiscount⟩ | ⟨p, hp, hsome, hdiscount⟩
  · refine ⟨?_, ?_, ?_, ?_, hlength, rfl⟩
    · dsimp only
      rw [hdiscount]
      exact fits_discount (by omega) (by omega)
    · show (quote.profile.map Prod.snd).all _ = true
      rw [hnone]
      rfl
    · show ((quote.profile.bind fun _ => ctx.resolvedProfile).map NamedProfile.slug |>.getD
        "").length ≤ 128
      rw [hnone]
      exact Nat.zero_le 128
    · show ((quote.profile.bind fun _ => ctx.resolvedProfile).map NamedProfile.name |>.getD
        "").length ≤ 128
      rw [hnone]
      exact Nat.zero_le 128
  · obtain ⟨named, hnamed, rfl⟩ := Option.map_eq_some_iff.1 hp
    have hrow := hstored named hnamed
    obtain ⟨hnonneg, hle⟩ := hrow.range
    refine ⟨?_, ?_, ?_, ?_, hlength, rfl⟩
    · dsimp only
      rcases hdiscount with hzero | heq
      · rw [hzero]
        exact fits_discount (by omega) (by omega)
      · rw [heq]
        exact fits_discount hnonneg hle
    · show (quote.profile.map Prod.snd).all _ = true
      rw [hsome]
      exact decide_eq_true hrow.version
    · show ((quote.profile.bind fun _ => ctx.resolvedProfile).map NamedProfile.slug |>.getD
        "").length ≤ 128
      rw [hsome, Option.bind_some, hnamed]
      exact hrow.slug
    · show ((quote.profile.bind fun _ => ctx.resolvedProfile).map NamedProfile.name |>.getD
        "").length ≤ 128
      rw [hsome, Option.bind_some, hnamed]
      exact hrow.name

theorem fits_iff (hq : Quote.Storable q) :
    (snapshotKwargs q.data).fits = true ↔ q.listPrice.natAbs < 10 ^ 10 := by
  have hreason : ∀ r : PricingReason, r.str.length ≤ 32 := by
    intro r
    cases r <;> decide
  have hfloor : ∀ r : FloorReason, r.str.length ≤ 32 := by
    intro r
    cases r <;> decide
  have hhash : q.pricingContextHash.length ≤ 64 := hq.hash.le
  have hschema : q.snapshotSchemaVersion ≤ 32767 := by
    rw [hq.schema]
    decide
  have hlist : fitsNumeric 10 2 (Dec.ofUnits 2 q.listPrice)
      = decide (q.listPrice.natAbs < 10 ^ 10) := by
    unfold fitsNumeric
    rw [Dec.units_ofUnits]
  show (fitsNumeric 10 2 (Dec.ofUnits 2 q.listPrice)
    && fitsNumeric 5 2 (Dec.ofUnits 2 q.discountPercent)
    && decide (q.pricingReason.str.length ≤ 32) && decide (q.floorReason.str.length ≤ 32)
    && q.data.pricingProfileVersion.all (· ≤ 2147483647)
      && decide ((q.data.profileSlug.getD "").length ≤ 128)
    && decide ((q.data.profileName.getD "").length ≤ 128)
      && decide (q.pricingContextHash.length ≤ 64)
    && decide (q.snapshotSchemaVersion ≤ 32767)) = true ↔ _
  rw [hlist, hq.discount, hq.version, decide_eq_true (hreason _), decide_eq_true (hfloor _),
    decide_eq_true hq.slug, decide_eq_true hq.name, decide_eq_true hhash, decide_eq_true hschema]
  simp only [Bool.and_true, decide_eq_true_eq]

/-! ## What is read back -/

/-- A text of a row that has no text for a missing one. -/
def nonblank : Option String → Option String
  | some "" => none
  | text => text

/-- A quote as a row gives it back. -/
def Quote.restored (q : Quote) : QuoteData :=
  { q.data with profileSlug := nonblank q.profileSlug, profileName := nonblank q.profileName }

theorem nonblank_getD (text : Option String) :
    (if text.getD "" = "" then none else some (text.getD "")) = nonblank text := by
  cases text with
  | none => rfl
  | some s =>
    rw [Option.getD_some]
    by_cases hs : s = ""
    · rw [if_pos hs, hs]
      rfl
    · rw [if_neg hs]
      unfold nonblank
      split
      · rename_i hblank
        exact absurd (Option.some.inj hblank) hs
      · rfl

theorem nonblank_eq_self {text : Option String} : nonblank text = text ↔ text ≠ some "" := by
  unfold nonblank
  split
  · simp
  · rename_i hne
    exact ⟨fun _ => hne, fun _ => rfl⟩

/-- **Nothing but an empty slug or an empty name is lost.** -/
theorem restored_iff : Quote.restored q = q.data
    ↔ q.profileSlug ≠ some "" ∧ q.profileName ≠ some "" := by
  rw [← nonblank_eq_self, ← nonblank_eq_self]
  constructor
  · intro h
    exact ⟨congrArg QuoteData.profileSlug h, congrArg QuoteData.profileName h⟩
  · rintro ⟨hslug, hname⟩
    unfold Quote.restored
    rw [hslug, hname]
    rfl

theorem moneyRound_ofUnits {n : Int} (h : n.natAbs < 10 ^ precision) :
    moneyRound (cents n) = .ok n := by
  unfold cents
  rw [moneyRound_eq]
  · rw [Dec.units_ofUnits]
  · rw [Dec.units_ofUnits]
    exact h

/-- The columns of a quote are read back, given the column with the customer's price. -/
theorem quoteFromSnapshot_columns (hq : Quote.Storable q) (hlist : q.listPrice.natAbs < 10 ^ 10)
    {price : Dec} (hprice : moneyRound (.finite price) = .ok q.customerPrice) :
    quoteFromSnapshot (snapshotKwargs q.data).columns (some price) = .ok (Quote.restored q) := by
  have hhash : (snapshotKwargs q.data).columns.pricingContextHash ≠ "" := by
    intro hempty
    have hlength := hq.hash
    have hsame : q.pricingContextHash = "" := hempty
    rw [hsame] at hlength
    cases hlength
  have hlistRound : moneyRound (cents (snapshotKwargs q.data).listPriceUsd) = .ok q.listPrice :=
    moneyRound_ofUnits (hlist.trans (by decide : 10 ^ 10 < 10 ^ precision))
  have hdiscount :
      moneyRound (cents ((snapshotKwargs q.data).columns.discountPercent.getD 0))
        = .ok q.discountPercent := by
    have hfits := of_decide_eq_true hq.discount
    rw [Dec.units_ofUnits] at hfits
    exact moneyRound_ofUnits (hfits.trans (by decide : 10 ^ 5 < 10 ^ precision))
  have hreason : ∀ r : PricingReason, (if r.str = "" then "retail" else r.str) = r.str := by
    intro r
    cases r <;> decide
  have hfloor : ∀ r : FloorReason, (if r.str = "" then "none" else r.str) = r.str := by
    intro r
    cases r <;> decide
  unfold quoteFromSnapshot
  show (if _ then _ else _) = _
  rw [if_neg hhash, hlistRound, hprice, hdiscount]
  unfold Quote.restored
  rw [← nonblank_getD q.profileSlug, ← nonblank_getD q.profileName]
  refine congrArg Except.ok ?_
  refine (QuoteData.mk.injEq ..).mpr
    ⟨rfl, rfl, rfl, hreason _, hfloor _, rfl, rfl, rfl, rfl, rfl, ?_⟩
  show _ = q.snapshotSchemaVersion
  have hversion : (snapshotKwargs q.data).columns.snapshotSchemaVersion
      = some snapshotSchemaVersion :=
    congrArg some hq.schema
  rw [hversion, hq.schema]
  rfl

/-- The prices of a quote fit an order. -/
def FitsOrder (q : Quote) : Prop := q.listPrice.natAbs < 10 ^ 10 ∧ q.customerPrice.natAbs < 10 ^ 10

/-- The prices of a quote fit a top-up. -/
def FitsTopup (q : Quote) : Prop := q.listPrice.natAbs < 10 ^ 10 ∧ q.customerPrice.natAbs < 10 ^ 16

theorem storeOrder_ok (hq : Quote.Storable q) (h : FitsOrder q) :
    ∃ row, storeOrder (quoteToOrderSnapshotKwargs q.data) = .ok row
      ∧ quoteFromOrder row = .ok (Quote.restored q) := by
  obtain ⟨hlist, hcustomer⟩ := h
  have hprice : fitsNumeric 10 2 (Dec.ofUnits 2 q.customerPrice) = true := by
    unfold fitsNumeric
    rw [Dec.units_ofUnits]
    exact decide_eq_true hcustomer
  refine ⟨_, if_pos (Bool.and_eq_true _ _ ▸ ⟨(fits_iff hq).2 hlist, hprice⟩), ?_⟩
  exact quoteFromSnapshot_columns hq hlist
    (moneyRound_ofUnits (hcustomer.trans (by decide : 10 ^ 10 < 10 ^ precision)))

theorem storeOrder_refused (hq : Quote.Storable q) (h : ¬ FitsOrder q) :
    storeOrder (quoteToOrderSnapshotKwargs q.data) = .error .data := by
  refine if_neg ?_
  rw [Bool.and_eq_true]
  rintro ⟨hfits, hprice⟩
  have hcustomer := of_decide_eq_true hprice
  rw [Dec.units_ofUnits] at hcustomer
  exact h ⟨(fits_iff hq).1 hfits, hcustomer⟩

theorem units_cents_six (n : Int) : (Dec.ofUnits 2 n).units 6 = n * 10 ^ 4 := by
  unfold Dec.units Dec.ofUnits
  norm_num [Int.toNat]

/-- An amount of whole cents is rounded to those cents. -/
theorem moneyRound_amount {n : Int} (h : n.natAbs < 10 ^ precision) :
    moneyRound (.finite (Dec.ofUnits 6 (n * 10 ^ 4))) = .ok n := by
  have hunits : (Dec.ofUnits 6 (n * 10 ^ 4)).units 2 = n := by
    have hsix : Dec.ofUnits 6 (n * 10 ^ 4) = ⟨n * 10 ^ 4, -6⟩ := rfl
    have hround := halfUp_mul n (by omega : 0 < 10000)
    rw [hsix, units_micros]
    exact hround
  rw [moneyRound_eq, hunits]
  rw [hunits]
  exact h

theorem storeTopup_ok (hq : Quote.Storable q) (h : FitsTopup q) (hpositive : 0 < q.customerPrice) :
    ∃ row, storeTopup (quoteToTopupSnapshotKwargs q.data) = .ok row
      ∧ quoteFromTopup row = .ok (Quote.restored q) := by
  obtain ⟨hlist, hcustomer⟩ := h
  have hprice : fitsNumeric 20 6 (Dec.ofUnits 2 q.customerPrice) = true := by
    unfold fitsNumeric
    rw [units_cents_six]
    exact decide_eq_true (by omega)
  have hstored : storeTopup (quoteToTopupSnapshotKwargs q.data)
      = .ok { (snapshotKwargs q.data).columns with
        amount := (Dec.ofUnits 2 q.customerPrice).units 6 } := by
    unfold storeTopup
    rw [if_pos (Bool.and_eq_true _ _ ▸ ⟨(fits_iff hq).2 hlist, hprice⟩)]
    exact if_pos hpositive
  refine ⟨_, hstored, ?_⟩
  refine quoteFromSnapshot_columns hq hlist ?_
  dsimp only
  rw [units_cents_six]
  exact moneyRound_amount (hcustomer.trans (by decide : 10 ^ 16 < 10 ^ precision))

theorem storeTopup_refused (hq : Quote.Storable q) (h : ¬ FitsTopup q) :
    storeTopup (quoteToTopupSnapshotKwargs q.data) = .error .data := by
  refine if_neg ?_
  rw [Bool.and_eq_true]
  rintro ⟨hfits, hprice⟩
  have hamount : (Dec.ofUnits 2 q.customerPrice |>.units 6).natAbs < 10 ^ 20 :=
    of_decide_eq_true hprice
  rw [units_cents_six] at hamount
  exact h ⟨(fits_iff hq).1 hfits, by omega⟩

theorem storeTopup_free (hq : Quote.Storable q) (h : FitsTopup q) (hfree : q.customerPrice ≤ 0) :
    storeTopup (quoteToTopupSnapshotKwargs q.data) = .error .integrity := by
  obtain ⟨hlist, hcustomer⟩ := h
  have hprice : fitsNumeric 20 6 (Dec.ofUnits 2 q.customerPrice) = true := by
    unfold fitsNumeric
    rw [units_cents_six]
    exact decide_eq_true (by omega)
  unfold storeTopup
  rw [if_pos (Bool.and_eq_true _ _ ▸ ⟨(fits_iff hq).2 hlist, hprice⟩)]
  exact if_neg (Int.not_lt.2 hfree)

/-- **A quote comes back from a row as it was stored**, but for a slug or a name that is empty;
a row whose price columns do not take its prices is refused. -/
theorem snapshot_round_trip (hhex : ∀ payload, (sha256 payload).length = 64)
    (hstored : ∀ p, ctx.resolvedProfile = some p → NamedProfile.Stored p)
    (h : resolveQuote sha256 flagEnabled ctx = .ok q) :
    (FitsOrder q → ∃ row, storeOrder (quoteToOrderSnapshotKwargs q.data) = .ok row
        ∧ quoteFromOrder row = .ok (Quote.restored q))
      ∧ (¬ FitsOrder q → storeOrder (quoteToOrderSnapshotKwargs q.data) = .error .data)
      ∧ (FitsTopup q → 0 < q.customerPrice → ∃ row,
          storeTopup (quoteToTopupSnapshotKwargs q.data) = .ok row
          ∧ quoteFromTopup row = .ok (Quote.restored q))
      ∧ (FitsTopup q → q.customerPrice ≤ 0 →
          storeTopup (quoteToTopupSnapshotKwargs q.data) = .error .integrity)
      ∧ (¬ FitsTopup q → storeTopup (quoteToTopupSnapshotKwargs q.data) = .error .data)
      ∧ (Quote.restored q = q.data ↔ q.profileSlug ≠ some "" ∧ q.profileName ≠ some "") := by
  have hq := resolveQuote_storable hhex hstored h
  exact ⟨storeOrder_ok hq, storeOrder_refused hq, storeTopup_ok hq, storeTopup_free hq,
    storeTopup_refused hq, restored_iff⟩

end Row

/-! ## Rows of one profile -/

/-- A top-up of the size or the price that is given, under the profile. -/
def topupContext (list net : Int) (profile : NamedProfile) : QuoteContext :=
  { familyContext profile with
    listPrice := cents list, netPrice := some (cents net), orderType := "topup" }

/-- The digests of the payloads below. -/
def snapshotSha256 (payload : String) : String :=
  if payload
    = "v1|1|7b0de1f2-94a3-4c58-8d16-2f6e0a9b3c71|3f1c9a52-0b7d-4e6a-9c41-5d2e8f70ab13|3|100000000.00|5.00|topup|2026-08-12T08:50:01.123456+00:00" then
    "f597a24ef051fcccf0424aa88f4d6ed9f3e7c1bb5a475e2f7cdbb573f229612a"
  else if payload
    = "v1|1|7b0de1f2-94a3-4c58-8d16-2f6e0a9b3c71|3f1c9a52-0b7d-4e6a-9c41-5d2e8f70ab13|3|10.00|0.00|topup|2026-08-12T08:50:01.123456+00:00" then
    "3cfd812744c105aef0b8b2bfddf46697b97f0749b9d6d9245df58a79513f0151"
  else familyDigest

theorem snapshotSha256_length (payload : String) : (snapshotSha256 payload).length = 64 := by
  unfold snapshotSha256
  split
  · decide
  · split
    · decide
    · decide

theorem familyShare_stored : NamedProfile.Stored familyShare :=
  ⟨⟨by decide, by decide⟩, by decide, by decide, by decide⟩

/-- A quote of half the margin, stored in an order. -/
theorem snapshot_round_trip_family :
    ∃ q row, resolveQuote snapshotSha256 true (familyContext familyShare) = .ok q
      ∧ storeOrder (quoteToOrderSnapshotKwargs q.data) = .ok row
      ∧ quoteFromOrder row = .ok q.data := by
  obtain ⟨q, hq, hvalues⟩ := @of_map_toOption _ _
    (resolveQuote snapshotSha256 true (familyContext familyShare))
    (fun q => ((q.listPrice, q.customerPrice), q.profileSlug, q.profileName))
    ((1000, 750), some "family", some "Family") (by decide)
  obtain ⟨hprices, hnames⟩ := Prod.mk.inj hvalues
  obtain ⟨hlist, hcustomer⟩ := Prod.mk.inj hprices
  obtain ⟨hslug, hname⟩ := Prod.mk.inj hnames
  have hstored : ∀ p, (familyContext familyShare).resolvedProfile = some p
      → NamedProfile.Stored p := by
    intro p hp
    cases hp
    exact familyShare_stored
  obtain ⟨horder, -, -, -, -, hsame⟩ := snapshot_round_trip snapshotSha256_length hstored hq
  have hfits : FitsOrder q := by
    rw [FitsOrder, hlist, hcustomer]
    decide
  obtain ⟨row, hrow, hread⟩ := horder hfits
  refine ⟨q, row, hq, hrow, ?_⟩
  rw [hread, hsame.2]
  rw [hslug, hname]
  decide

/-- What becomes of a quote in an order or in a top-up: the slug before and after, where there is
a row, and else the error of the insert. -/
def slugAfter (topup : Bool) (ctx : QuoteContext) :
    Option ((Option String × Option String) ⊕ Exc) :=
  match resolveQuote snapshotSha256 true ctx with
  | .error _ => none
  | .ok q =>
    let stored := if topup then storeTopup (quoteToTopupSnapshotKwargs q.data) >>= quoteFromTopup
      else storeOrder (quoteToOrderSnapshotKwargs q.data) >>= quoteFromOrder
    match stored with
    | .ok restored => some (.inl (q.profileSlug, restored.profileSlug))
    | .error e => some (.inr e)

/-- An empty slug, as `slugify` makes it of a name outside ASCII, comes back as none; a price of
a hundred million is refused by both tables, and a price of zero by the top-ups. -/
theorem snapshot_not_restored :
    slugAfter false (familyContext { familyShare with slug := "", name := "日本" })
        = some (.inl (some "", none))
      ∧ slugAfter false (topupContext 10000000000 500 { familyShare with discountPercent := 0 })
        = some (.inr .data)
      ∧ slugAfter true (topupContext 10000000000 500 { familyShare with discountPercent := 0 })
        = some (.inr .data)
      ∧ slugAfter true (topupContext 1000 0 { familyShare with discountPercent := 10000 })
        = some (.inr .integrity) := by
  decide +kernel

end Roamkit.Pricing.Proof
