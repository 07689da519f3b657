import Roamkit.Lib.Transaction
import Roamkit.Pricing.Quotes

/-!
# What a fingerprint says of a quote

The payload that is hashed is read back field by field, so equal hashes mean equal prices,
list and net, in the two contexts. What a profile does with these prices depends on columns
that are not in the payload: `Rule` is what it comes to, and two quotes of one fingerprint
are equal where their profiles follow the same rule.
-/

namespace Roamkit.Pricing.Proof

open Lib

/-! ## The rule of a profile -/

/-- What a profile does with a list price and a net price. -/
inductive Rule where
  /-- No profile is in force, or its floor has no net price to hold. -/
  | retail
  /-- The profile is in force without a discount. -/
  | free
  /-- The list price does not cover the floor. -/
  | invalidMargin
  /-- A percentage off the list price. -/
  | percent (discount : Int)
  /-- A percentage of the margin. -/
  | share (discount : Int)
deriving DecidableEq

/-- The rule of a profile at prices in cents. -/
def ruleOf (flagEnabled : Bool) (now : Time) (list : Int) (net : Option Int) :
    Option PricingProfile → Rule
  | none => .retail
  | some p =>
    if ¬ flagEnabled ∨ ¬ p.isEffective now then .retail
    else if p.discountPercent ≤ 0 then .free
    else if p.floorPolicy = .none then .percent p.discountPercent
    else
      match net with
      | none => .retail
      | some net => if list < net then .invalidMargin else .share p.discountPercent

/-- What the customer pays by a rule. -/
def Rule.customerPrice (list : Int) (net : Option Int) : Rule → Except Exc Int
  | retail | free | invalidMargin => .ok list
  | percent discount => legacyPercentOffList list discount
  | share discount => marginShareCustomer list (net.getD 0) discount

/-- The discount and the reasons a quote states. -/
def Rule.stated : Rule → Int × PricingReason × FloorReason
  | retail => (0, .retail, .none)
  | free => (0, .pricingProfile, .none)
  | invalidMargin => (0, .invalidMargin, .none)
  | percent discount | share discount => (discount, .pricingProfile, .discount)

/-- The amount of a price that `money_round` takes. -/
def centsOf : PyDecimal → Int
  | .finite d => d.units 2
  | _ => 0

theorem moneyRound_cents {price : PyDecimal} {n : Int} (h : moneyRound price = .ok n) :
    n = centsOf price := by
  cases price with
  | finite d =>
    unfold moneyRound Dec.quantize at h
    dsimp only at h
    split at h
    · rename_i hsome
      split at hsome
      · cases hsome
        cases h
        rfl
      · cases hsome
    · cases h
  | infinity _ => cases h
  | nan _ => cases h

variable {price : Option PyDecimal} {flagEnabled : Bool} {s : String} {sha256 : String → String}
  {c : QuoteContext}

theorem mapM_moneyRound_cents {n : Option Int} (h : price.mapM moneyRound = .ok n) :
    n = price.map centsOf := by
  cases price with
  | none =>
    cases h
    rfl
  | some price =>
    obtain ⟨cents, hcents, hn⟩ := bind_ok h
    cases hn
    rw [moneyRound_cents hcents]
    rfl

/-- The rule in force in a context. -/
def ruleIn (flagEnabled : Bool) (ctx : PricingContext) : Rule :=
  ruleOf flagEnabled ctx.timestamp (centsOf ctx.listPrice) (ctx.netPrice.map centsOf) ctx.profile

/-- **A quote states what its rule says.** -/
theorem resolve_rule {ctx : PricingContext} {q : PricingQuote}
    (h : resolve flagEnabled ctx = .ok q) :
    q.listPrice = centsOf ctx.listPrice
      ∧ (ruleIn flagEnabled ctx).customerPrice q.listPrice (ctx.netPrice.map centsOf)
        = .ok q.customerPrice
      ∧ (q.discountPercent, q.pricingReason, q.floorReason)
        = (ruleIn flagEnabled ctx).stated := by
  unfold resolve at h
  obtain ⟨list, hlist, h⟩ := bind_ok h
  obtain ⟨net?, hnet?, h⟩ := bind_ok h
  have hlist := moneyRound_cents hlist
  have hnet? := mapM_moneyRound_cents hnet?
  unfold ruleIn
  rw [← hlist]
  cases hprofile : ctx.profile with
  | none =>
    rw [hprofile] at h
    cases h
    exact ⟨rfl, rfl, rfl⟩
  | some p =>
    rw [hprofile] at h
    dsimp only at h
    unfold ruleOf
    dsimp only
    by_cases hforce : ¬ flagEnabled = true ∨ ¬ p.isEffective ctx.timestamp = true
    · rw [if_pos hforce] at h ⊢
      cases h
      exact ⟨rfl, rfl, rfl⟩
    rw [if_neg hforce] at h ⊢
    by_cases hfree : p.discountPercent ≤ 0
    · rw [if_pos hfree] at h ⊢
      cases h
      exact ⟨rfl, rfl, rfl⟩
    rw [if_neg hfree] at h ⊢
    by_cases hfloor : p.floorPolicy = .none
    · rw [if_pos hfloor] at h ⊢
      obtain ⟨customer, hcustomer, hq⟩ := bind_ok h
      cases hq
      exact ⟨rfl, hcustomer, rfl⟩
    rw [if_neg hfloor] at h ⊢
    cases hnet : ctx.netPrice with
    | none =>
      rw [hnet] at h
      cases h
      exact ⟨rfl, rfl, rfl⟩
    | some net =>
      rw [hnet] at h
      obtain ⟨cents, hcents, h⟩ := bind_ok h
      obtain rfl := moneyRound_cents hcents
      rw [Option.map_some]
      dsimp only
      by_cases hlt : list < centsOf net
      · rw [if_pos hlt] at h ⊢
        cases h
        exact ⟨rfl, rfl, rfl⟩
      · rw [if_neg hlt] at h ⊢
        obtain ⟨customer, hcustomer, hq⟩ := bind_ok h
        cases hq
        exact ⟨rfl, hcustomer, rfl⟩

/-! ## The payload -/

/-- A price as `_dec` writes it: its sign, also in front of zero, and its magnitude. -/
theorem dec_text {price : PyDecimal} (h : dec (some price) = .ok s) :
    ∃ minus : Bool, s = (if minus then "-" else "") ++ Dec.magnitudeText 2 (centsOf price).natAbs
      ∧ (minus = true → centsOf price ≤ 0) ∧ (minus = false → 0 ≤ centsOf price) := by
  cases price with
  | infinity _ => cases h
  | nan _ => cases h
  | finite d =>
    obtain ⟨cents, hcents, hs⟩ := bind_ok h
    obtain rfl := moneyRound_cents hcents
    by_cases hzero : d.coeff < 0 ∧ centsOf (.finite d) = 0
    · rw [if_pos hzero, Dec.fixed_eq, if_neg (by omega)] at hs
      cases hs
      refine ⟨true, ?_, fun _ => by omega, fun hc => by cases hc⟩
      rw [if_pos rfl, String.empty_append]
    · rw [if_neg hzero, Dec.fixed_eq] at hs
      cases hs
      refine ⟨decide (centsOf (.finite d) < 0), ?_, ?_, ?_⟩
      · simp only [decide_eq_true_eq]
      · intro hneg
        have := of_decide_eq_true hneg
        omega
      · intro hnonneg
        have := of_decide_eq_false hnonneg
        omega

theorem dec_bar (h : dec price = .ok s) : '|' ∉ s.toList := by
  cases price with
  | none =>
    cases h
    exact List.not_mem_nil
  | some price =>
    obtain ⟨minus, rfl, -, -⟩ := dec_text h
    rw [String.toList_append, List.mem_append]
    rintro (hminus | hmagnitude)
    · cases minus
      · cases hminus
      · exact absurd hminus (by decide)
    · rcases Dec.mem_magnitudeText hmagnitude with hdigit | hpoint
      · exact absurd hdigit (by decide)
      · exact absurd hpoint (by decide)

/-- A price is read off its text. -/
theorem dec_inj {price' : Option PyDecimal} (h : dec price = .ok s) (h' : dec price' = .ok s) :
    price.map centsOf = price'.map centsOf := by
  have hempty : ∀ p : PyDecimal, dec (some p) ≠ .ok "" := by
    intro p hp
    obtain ⟨minus, htext, -, -⟩ := dec_text hp
    have hpoint : '.' ∈ ("" : String).toList := by
      rw [htext, Dec.magnitudeText]
      simp
    cases hpoint
  cases price with
  | none =>
    cases price' with
    | none => rfl
    | some p' =>
      cases h
      exact absurd h' (hempty p')
  | some p =>
    cases price' with
    | none =>
      cases h'
      exact absurd h (hempty p)
    | some p' =>
      obtain ⟨minus, rfl, hneg, hpos⟩ := dec_text h
      obtain ⟨minus', htext, hneg', hpos'⟩ := dec_text h'
      obtain ⟨rfl, habs⟩ := Dec.signed_inj htext
      have hcents : centsOf p = centsOf p' := by
        cases minus with
        | true =>
          have := hneg rfl
          have := hneg' rfl
          omega
        | false =>
          have := hpos rfl
          have := hpos' rfl
          omega
      rw [Option.map_some, Option.map_some, hcents]

theorem uuid_bar (u : Uuid) : '|' ∉ u.str.toList := by
  intro hbar
  have hgroups := u.canonical
  unfold isUuidText at hgroups
  have hjoin : List.intercalate ['-'] (u.str.toList.splitOn '-') = u.str.toList :=
    List.intercalate_splitOn '-'
  rw [← hjoin] at hbar
  rcases mem_intercalate hbar with hdash | ⟨group, hgroup, hmem⟩
  · exact absurd hdash (by decide)
  · rw [Bool.and_eq_true, List.all_eq_true] at hgroups
    have hhex := hgroups.2 group hgroup
    rw [List.all_eq_true] at hhex
    exact absurd (hhex '|' hmem) (by decide)

theorem number_bar (n : Nat) : '|' ∉ (toString n).toList := by
  intro hbar
  exact absurd (isDigit_of_mem_toString hbar) (by decide)

/-- What is hashed: the fields in front of the two prices hold no separator. -/
theorem hash_payload (h : pricingContextHash sha256 c flagEnabled = .ok s) :
    ∃ account profile version list net, dec (some c.listPrice) = .ok list ∧ dec c.netPrice = .ok net
      ∧ s = sha256 ("|".intercalate
        ["v1", if flagEnabled then "1" else "0", account, profile, version, list, net,
          c.orderType, Isoformat.isoformat c.timestamp])
      ∧ '|' ∉ account.toList ∧ '|' ∉ profile.toList ∧ '|' ∉ version.toList := by
  obtain ⟨list, hlist, h⟩ := bind_ok h
  obtain ⟨net, hnet, h⟩ := bind_ok h
  refine ⟨_, _, _, list, net, hlist, hnet, (Except.ok.inj h).symm, ?_, ?_, ?_⟩
  · cases c.account with
    | none => exact List.not_mem_nil
    | some a => exact uuid_bar a.id
  · cases c.resolvedProfile with
    | none => exact List.not_mem_nil
    | some p => exact uuid_bar p.id
  · cases c.resolvedProfile with
    | none => exact List.not_mem_nil
    | some p => exact number_bar p.version

/-- **Equal hashes are of equal prices.** -/
theorem hash_prices (hinjective : Function.Injective sha256) {c' : QuoteContext}
    {flagEnabled' : Bool} (h : pricingContextHash sha256 c flagEnabled = .ok s)
    (h' : pricingContextHash sha256 c' flagEnabled' = .ok s) :
    centsOf c.listPrice = centsOf c'.listPrice
      ∧ c.netPrice.map centsOf = c'.netPrice.map centsOf := by
  obtain ⟨_, _, _, list, net, hlist, hnet, hs, haccount, hprofile, hversion⟩ := hash_payload h
  obtain ⟨_, _, _, list', net', hlist', hnet', hs', haccount', hprofile', hversion'⟩ :=
    hash_payload h'
  have hpayload := hinjective (hs.symm.trans hs')
  have hflag : ∀ flag : Bool, '|' ∉ (if flag then "1" else "0" : String).toList := by decide
  have hcut := (@intercalate_cut _ _ _ _ _ _ '|' (by decide) (by decide) hpayload).2
  have hcut := (@intercalate_cut _ _ _ _ _ _ '|' (hflag _) (hflag _) hcut).2
  have hcut := (@intercalate_cut _ _ _ _ _ _ '|' haccount haccount' hcut).2
  have hcut := (@intercalate_cut _ _ _ _ _ _ '|' hprofile hprofile' hcut).2
  have hcut := (@intercalate_cut _ _ _ _ _ _ '|' hversion hversion' hcut).2
  obtain ⟨hlisted, hrest⟩ := @intercalate_cut _ _ _ _ _ _ '|' (dec_bar hlist) (dec_bar hlist') hcut
  obtain ⟨hnetted, -⟩ := @intercalate_cut _ _ _ _ _ _ '|' (dec_bar hnet) (dec_bar hnet') hrest
  subst hlisted hnetted
  exact ⟨Option.some.inj (dec_inj hlist hlist'), dec_inj hnet hnet'⟩

/-! ## Rules that agree -/

/-- Two rules put the same price and the same reasons on a quote at these prices: they are the
same rule, or the same percentage of the list price and of the margin where it comes to the
same cents. -/
def Alike (list : Int) (net : Option Int) (r r' : Rule) : Prop :=
  r = r'
    ∨ ∃ discount, (r = .percent discount ∧ r' = .share discount
      ∨ r = .share discount ∧ r' = .percent discount)
      ∧ legacyPercentOffList list discount = marginShareCustomer list (net.getD 0) discount

/-- The reasons of a quote tell its rule, but for what the discount was taken off. -/
theorem stated_eq {r r' : Rule} (h : r.stated = r'.stated) :
    r = r' ∨ ∃ discount,
      r = .percent discount ∧ r' = .share discount
        ∨ r = .share discount ∧ r' = .percent discount := by
  cases r <;> cases r' <;> simp_all [Rule.stated]

theorem alike_iff {list : Int} {net : Option Int} {r r' : Rule} :
    Alike list net r r'
      ↔ r.customerPrice list net = r'.customerPrice list net ∧ r.stated = r'.stated := by
  constructor
  · rintro (rfl | ⟨discount, ⟨rfl, rfl⟩ | ⟨rfl, rfl⟩, hprices⟩)
    · exact ⟨rfl, rfl⟩
    · exact ⟨hprices, rfl⟩
    · exact ⟨hprices.symm, rfl⟩
  · rintro ⟨hprices, hstated⟩
    rcases stated_eq hstated with rfl | ⟨discount, ⟨rfl, rfl⟩ | ⟨rfl, rfl⟩⟩
    · exact .inl rfl
    · exact .inr ⟨discount, .inl ⟨rfl, rfl⟩, hprices⟩
    · exact .inr ⟨discount, .inr ⟨rfl, rfl⟩, hprices.symm⟩

/-- The quotes show the same price and the same reasons. -/
def SameTerms (q q' : Quote) : Prop :=
  q.customerPrice = q'.customerPrice ∧ q.listPrice = q'.listPrice
    ∧ q.discountPercent = q'.discountPercent ∧ q.pricingReason = q'.pricingReason
    ∧ q.floorReason = q'.floorReason

theorem resolveQuote_ok {q : Quote} (h : resolveQuote sha256 flagEnabled c = .ok q) :
    pricingContextHash sha256 c flagEnabled = .ok q.pricingContextHash
      ∧ resolve flagEnabled c.pricing = .ok q.toPricingQuote := by
  obtain ⟨contextHash, hhash, h⟩ := bind_ok h
  obtain ⟨quote, hquote, h⟩ := bind_ok h
  cases h
  exact ⟨hhash, hquote⟩

/-- **A fingerprint identifies the terms of a quote exactly where the profiles follow the same
rule**: of its profile the payload holds the key and the version only. -/
theorem fingerprint_sound_iff {sha256 : String → String} (hinjective : Function.Injective sha256)
    {flagEnabled : Bool} {c c' : QuoteContext} {q q' : Quote}
    (h : resolveQuote sha256 flagEnabled c = .ok q)
    (h' : resolveQuote sha256 flagEnabled c' = .ok q')
    (hhash : q.pricingContextHash = q'.pricingContextHash) :
    SameTerms q q'
      ↔ Alike (centsOf c.listPrice) (c.netPrice.map centsOf)
          (ruleIn flagEnabled c.pricing) (ruleIn flagEnabled c'.pricing) := by
  obtain ⟨hhashed, hquote⟩ := resolveQuote_ok h
  obtain ⟨hhashed', hquote'⟩ := resolveQuote_ok h'
  rw [← hhash] at hhashed'
  obtain ⟨hlists, hnets⟩ := hash_prices hinjective hhashed hhashed'
  obtain ⟨hlist, hprice, hstated⟩ := resolve_rule hquote
  obtain ⟨hlist', hprice', hstated'⟩ := resolve_rule hquote'
  have hsame : q'.listPrice = q.listPrice := hlist'.trans (hlists.symm.trans hlist.symm)
  have hnet : c'.pricing.netPrice.map centsOf = c.netPrice.map centsOf := hnets.symm
  have hlistc : q.listPrice = centsOf c.listPrice := hlist
  have hnetc : c.pricing.netPrice.map centsOf = c.netPrice.map centsOf := rfl
  rw [hsame, hnet] at hprice'
  rw [hnetc] at hprice
  rw [← hlistc, alike_iff, hprice, hprice', ← hstated, ← hstated']
  constructor
  · rintro ⟨hcustomer, -, hdiscount, hreason, hfloor⟩
    rw [hcustomer, hdiscount, hreason, hfloor]
    exact ⟨rfl, rfl⟩
  · rintro ⟨hcustomer, hterms⟩
    obtain ⟨hdiscount, hreasons⟩ := Prod.mk.inj hterms
    obtain ⟨hreason, hfloor⟩ := Prod.mk.inj hreasons
    exact ⟨Except.ok.inj hcustomer, hsame.symm, hdiscount, hreason, hfloor⟩

/-! ## One context and two states of its profile -/

/-- Half of the margin for the customer. -/
def familyShare : NamedProfile where
  id := ⟨"3f1c9a52-0b7d-4e6a-9c41-5d2e8f70ab13", by decide⟩
  version := 3
  discountPercent := 5000
  floorPolicy := .wholesale
  isActive := true
  archivedAt := none
  effectiveFrom := some 0
  effectiveUntil := none
  slug := "family"
  name := "Family"

/-- A package of ten dollars that costs five, for an account with a profile. -/
def familyContext (profile : NamedProfile) : QuoteContext where
  listPrice := cents 1000
  netPrice := some (cents 500)
  orderType := "package"
  timestamp := 1786524601123456
  account := some ⟨⟨"7b0de1f2-94a3-4c58-8d16-2f6e0a9b3c71", by decide⟩, some profile⟩
  profile := none

def familyPayload : String :=
  "v1|1|7b0de1f2-94a3-4c58-8d16-2f6e0a9b3c71|3f1c9a52-0b7d-4e6a-9c41-5d2e8f70ab13|3|10.00|5.00|package|2026-08-12T08:50:01.123456+00:00"

def familyDigest : String := "f9b1f16f0b7ce773d1f119c944b2281c38be2346f118516ff1ff23d4bebaceb2"

/-- The digest of that payload, and other texts for other payloads. -/
def familySha256 (payload : String) : String :=
  if payload = familyPayload then familyDigest else "payload " ++ payload

theorem familySha256_injective : Function.Injective familySha256 := by
  have hdigest : ∀ s : String, "payload " ++ s ≠ familyDigest := by
    intro s
    have hne := @ne_of_parts "payload " familyDigest (by decide) s ""
    rwa [String.append_empty] at hne
  intro s t h
  unfold familySha256 at h
  by_cases hs : s = familyPayload
  · by_cases ht : t = familyPayload
    · exact hs.trans ht.symm
    · rw [if_pos hs, if_neg ht] at h
      exact absurd h.symm (hdigest t)
  · by_cases ht : t = familyPayload
    · rw [if_neg hs, if_pos ht] at h
      exact absurd h (hdigest s)
    · rw [if_neg hs, if_neg ht] at h
      have hlist := congrArg String.toList h
      rw [String.toList_append, String.toList_append] at hlist
      exact String.toList_inj.1 (List.append_cancel_left hlist)

/-- The hash and the price of a quote. -/
def hashAndPrice (profile : NamedProfile) : Option (String × Int) :=
  ((resolveQuote familySha256 true (familyContext profile)).map fun q =>
    (q.pricingContextHash, q.customerPrice)).toOption

theorem of_map_toOption {α β : Type} {x : Except Exc α} {f : α → β} {b : β}
    (h : (x.map f).toOption = some b) : ∃ a, x = .ok a ∧ f a = b := by
  cases x with
  | error e => cases h
  | ok a => exact ⟨a, rfl, Option.some.inj h⟩

theorem quote_of_hashAndPrice {profile : NamedProfile} {hash : String} {price : Int}
    (h : hashAndPrice profile = some (hash, price)) :
    ∃ q, resolveQuote familySha256 true (familyContext profile) = .ok q
      ∧ q.pricingContextHash = hash := by
  obtain ⟨q, hq, hvalues⟩ := of_map_toOption h
  exact ⟨q, hq, (Prod.mk.inj hvalues).1⟩

/-- An earlier begin of the profile moves neither the hash nor the terms. -/
theorem fingerprint_sound_earlier :
    ∃ q q', resolveQuote familySha256 true (familyContext familyShare) = .ok q
      ∧ resolveQuote familySha256 true
        (familyContext { familyShare with effectiveFrom := none }) = .ok q'
      ∧ SameTerms q q' := by
  obtain ⟨q, hq, hhash⟩ := @quote_of_hashAndPrice familyShare familyDigest 750 (by decide +kernel)
  obtain ⟨q', hq', hhash'⟩ :=
    @quote_of_hashAndPrice { familyShare with effectiveFrom := none } familyDigest 750
      (by decide +kernel)
  have halike := fingerprint_sound_iff familySha256_injective hq hq' (hhash.trans hhash'.symm)
  exact ⟨q, q', hq, hq', halike.2 (.inl (by decide))⟩

/-- The profile is deactivated, which changes no version: the hash is the same, the price is not. -/
theorem fingerprint_misses_deactivation :
    Function.Injective familySha256
      ∧ hashAndPrice familyShare = some (familyDigest, 750)
      ∧ hashAndPrice { familyShare with isActive := false } = some (familyDigest, 1000) :=
  ⟨familySha256_injective, by decide +kernel, by decide +kernel⟩

end Roamkit.Pricing.Proof
