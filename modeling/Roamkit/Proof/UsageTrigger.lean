import Roamkit.AutoTopup.Policy
import Roamkit.Proof.SpendSound

/-!
# What makes a usage trigger fire

A usage trigger compares the cached number of megabytes with a bound, and does not
fire when no number is cached. But a number is always cached: the mapper reads a
field that is missing, null or empty as zero, a Boolean as zero or one, and rounds
a fraction down to zero. Whether a purchase rests on an amount the provider stated
depends on the payload alone.
-/

namespace Roamkit.AutoTopup.Proof

open Lib Spend Billing

/-! ## From the payload to the cache -/

theorem number_ok {j : Json} {n : Int} (h : Airalo.number j = .ok n) : j.toInt = some n := by
  unfold Airalo.number at h
  split at h
  · rename_i m hm
    cases h
    exact hm
  · cases h
  · cases h
  · cases h

variable {payload : Json} {now : Time} {cache : UsageCache} {c : AutoTopupSettings}

/-- What the mapper makes of the two fields. -/
theorem mapUsage_ok {w : Json.Writer} {usage : Airalo.UsageDTO}
    (h : Airalo.mapUsage w payload = .ok usage) :
    ((payload.get "remaining").orElse (.int 0)).toInt = some usage.remainingMb
      ∧ (usage.isUnlimited = some true ↔ (payload.get "is_unlimited").truthy = true) := by
  obtain ⟨remaining, hremaining, h⟩ := bind_ok h
  obtain ⟨total, _, h⟩ := bind_ok h
  obtain ⟨expired, _, h⟩ := bind_ok h
  obtain ⟨status, _, h⟩ := bind_ok h
  obtain ⟨voice, _, h⟩ := bind_ok h
  obtain ⟨texts, _, h⟩ := bind_ok h
  obtain ⟨totalVoice, _, h⟩ := bind_ok h
  obtain ⟨totalText, _, h⟩ := bind_ok h
  cases h
  refine ⟨number_ok hremaining, ?_⟩
  cases hj : payload.get "is_unlimited" <;> simp [Json.isNull, Json.truthy]

/-- What the cache keeps of them, and its stamp. -/
theorem updateCache_ok {parse : DatetimeParser} {usage : Airalo.UsageDTO}
    (h : updateCache parse now usage = .ok cache) :
    cache.remainingMb = some usage.remainingMb ∧ cache.isUnlimited = usage.isUnlimited
      ∧ cache.syncedAt = some now := by
  obtain ⟨expiredAt, _, h⟩ := bind_ok h
  split at h
  · cases h
    exact ⟨rfl, rfl, rfl⟩
  · cases h

/-- The cache holds the number read for `remaining`, and whether the plan is marked unlimited. -/
def CachedFrom (payload : Json) (cache : UsageCache) : Prop :=
  (∃ n, cache.remainingMb = some n ∧ ((payload.get "remaining").orElse (.int 0)).toInt = some n)
    ∧ (cache.isUnlimited = some true ↔ (payload.get "is_unlimited").truthy = true)

theorem getUsage_cachedFrom {w : Json.Writer} {parse : DatetimeParser} {iccid : String}
    {r : Airalo.HttpReply} (hp : Airalo.getUsage iccid r = .ok payload)
    (hc : getUsage w parse now iccid r = .ok cache) :
    CachedFrom payload cache := by
  obtain ⟨usage, hfetch, hc⟩ := bind_ok hc
  obtain ⟨payload', hp', hmap⟩ := bind_ok hfetch
  obtain rfl : payload' = payload := Except.ok.inj (hp'.symm.trans hp)
  obtain ⟨hremaining, hunlimited⟩ := mapUsage_ok hmap
  obtain ⟨hr, hu, _⟩ := updateCache_ok hc
  exact ⟨⟨_, hr, hremaining⟩, hu ▸ hunlimited⟩

/-! ## From the cache to the purchase -/

/-- What holds when an evaluation decides to buy. -/
theorem prepare_buy {policy : Policy} {esim : Esim} {plan : Plan}
    (h : prepare c policy esim now = .ok (.buy plan)) :
    policy.cooldownUntil.any (now < ·) = false
      ∧ selectFireReason policy esim now = some plan.reason
      ∧ (plan.reason = .expiry → sameExpiryEpisode policy esim = false)
      ∧ idempotencyKey policy esim plan.reason = .ok plan.idempotencyKey
      ∧ plan.esim = esim ∧ plan.account = policy.account := by
  unfold prepare at h
  split at h
  · cases h
  split at h
  · cases h
  rename_i hcooldown
  split at h
  · cases h
  split at h
  · cases h
  split at h
  · cases h
  rename_i reason hreason
  split at h
  · cases h
  rename_i hepisode
  obtain ⟨key, hkey, h⟩ := bind_ok h
  cases h
  exact ⟨by simpa using hcooldown, hreason, by simpa using hepisode, hkey, rfl, rfl⟩

/-- A usage trigger fires on a cached number under its bound, if the plan is not unlimited. -/
theorem fires_usage {policy : Policy} {esim : Esim} {reason : FireReason}
    (h : selectFireReason policy esim now = some reason) (hreason : reason ≠ .expiry) :
    esim.usage.isUnlimited ≠ some true ∧ ∃ n, esim.usage.remainingMb = some n
      ∧ ((policy.usageMode = .zero ∧ n ≤ 0)
        ∨ (policy.usageMode = .threshold ∧ ∃ k : Nat, policy.thresholdMb = some k ∧ n < k)) := by
  unfold selectFireReason at h
  split at h
  · cases h
    exact absurd rfl hreason
  · split at h
    · cases h
    · rename_i hmode
      split at h
      · cases h
      rename_i hlimited
      split at h
      · cases h
      rename_i n hn
      split at h
      · rename_i hlt
        obtain ⟨k, hk⟩ := Option.ne_none_iff_exists'.1 (policy.thresholdRequired hmode)
        rw [hk, Option.getD_some] at hlt
        exact ⟨hlimited, n, hn, .inr ⟨hmode, k, hk, hlt⟩⟩
      · cases h
    · rename_i hmode
      split at h
      · cases h
      rename_i hlimited
      split at h
      · cases h
      rename_i n hn
      split at h
      · rename_i hle
        exact ⟨hlimited, n, hn, .inl ⟨hmode, hle⟩⟩
      · cases h

/-! ## What a purchase rests on -/

/-- The payload states an amount under the bound of the policy, and no unlimited plan. -/
def Justified (payload : Json) (policy : Policy) : Prop :=
  (payload.get "is_unlimited").truthy = false ∧ ∃ q, (payload.get "remaining").amount = some q
    ∧ ((policy.usageMode = .zero ∧ q ≤ 0)
      ∨ (policy.usageMode = .threshold ∧ ∃ k : Nat, policy.thresholdMb = some k ∧ q < k))

/-- Every purchase a usage trigger starts on the cache is justified by the payload. -/
def UsageJustified (c : AutoTopupSettings) (payload : Json) (cache : UsageCache) : Prop :=
  ∀ policy esim now plan, esim.usage = cache → prepare c policy esim now = .ok (.buy plan) →
    plan.reason ≠ .expiry → Justified payload policy

/-- The payload marks the plan unlimited, or states an amount that is not a fraction under one. -/
def StatesUsage (payload : Json) : Prop :=
  (payload.get "is_unlimited").truthy = true
    ∨ ∃ q, (payload.get "remaining").amount = some q ∧ ¬ (0 < q ∧ q < 1)

theorem justified_of_states (hcache : CachedFrom payload cache) (h : StatesUsage payload) :
    UsageJustified c payload cache := by
  obtain ⟨⟨n, hn, hread⟩, hunlimited⟩ := hcache
  intro policy esim now plan husage hbuy hreason
  obtain ⟨_, hfires, _⟩ := prepare_buy hbuy
  obtain ⟨hlimited, m, hm, hbound⟩ := fires_usage hfires hreason
  rw [husage] at hlimited hm
  obtain rfl : n = m := Option.some.inj (hn.symm.trans hm)
  have hlimited' : (payload.get "is_unlimited").truthy = false :=
    Bool.eq_false_iff.2 fun ht => hlimited (hunlimited.2 ht)
  rcases h with hmarked | ⟨q, hq, hwhole⟩
  · rw [hlimited'] at hmarked
    cases hmarked
  · have hbounds := Json.toInt_amount hread
    rw [hq] at hbounds
    refine ⟨hlimited', q, hq, ?_⟩
    rcases hbound with ⟨hmode, hzero⟩ | ⟨hmode, k, hk, hlt⟩
    · -- the number is not positive, so the amount is under one, and no fraction is left above zero
      have hone : q < 1 := by exact_mod_cast hbounds.1 1 (by omega)
      refine .inl ⟨hmode, ?_⟩
      by_contra hpos
      exact hwhole ⟨not_le.1 hpos, hone⟩
    · exact .inr ⟨hmode, k, hk, by exact_mod_cast hbounds.1 k hlt⟩

/-! ## A policy that fires -/

/-- An active policy with one usage trigger. -/
def usagePolicy (mode : UsageMode) (bound : Nat) : Policy where
  id := Billing.Proof.alice
  account := Billing.Proof.alice
  esim := 0
  packageId := "topup"
  enabled := true
  status := .active
  reason := .none
  expiryEnabled := false
  usageMode := mode
  thresholdMb := some bound
  renewMode := .untilFunds
  remainingCount := none
  activeUntil := none
  cooldownUntil := none
  lastTriggeredAt := none
  lastTopup := none
  lastIdempotencyKey := ""
  thresholdRequired := by simp
  countRequired := by simp

/-- An eSIM that is old enough. -/
def oldEsim (c : AutoTopupSettings) (usage : UsageCache) : Esim where
  id := 0
  account := Billing.Proof.alice
  user := 0
  order := 0
  iccid := "8900"
  matchingId := ""
  usage
  setupCompletedAt := none
  createdAt := -seconds c.minimumAgeSeconds

theorem pastMinimumAge_oldEsim (c : AutoTopupSettings) (usage : UsageCache) :
    pastMinimumAge c (oldEsim c usage) 0 = true := by
  simp [pastMinimumAge, oldEsim]

/-- Such a policy buys where its trigger is met. -/
theorem prepare_usagePolicy {usage : UsageCache} {mode : UsageMode} {bound : Nat}
    {reason : FireReason} (hreason : reason ≠ .expiry)
    (h : selectFireReason (usagePolicy mode bound) (oldEsim c usage) 0 = some reason) :
    ∃ plan, prepare c (usagePolicy mode bound) (oldEsim c usage) 0 = .ok (.buy plan)
      ∧ plan.reason = reason := by
  have hkey : ∃ key, idempotencyKey (usagePolicy mode bound) (oldEsim c usage) reason
      = .ok key := by
    unfold idempotencyKey
    rw [if_neg hreason]
    exact ⟨_, rfl⟩
  obtain ⟨key, hkey⟩ := hkey
  refine ⟨⟨oldEsim c usage, "topup", key, reason, Billing.Proof.alice⟩, ?_, rfl⟩
  unfold prepare
  rw [if_neg (by simp [usagePolicy]), if_neg (by simp [usagePolicy]),
    if_neg (by simp [pastMinimumAge_oldEsim]), if_neg (by simp [usagePolicy]), h]
  dsimp only
  rw [if_neg (by simp [hreason]), hkey]
  rfl

theorem states_of_justified (hcache : CachedFrom payload cache)
    (h : UsageJustified c payload cache) : StatesUsage payload := by
  obtain ⟨⟨n, hn, hread⟩, hunlimited⟩ := hcache
  by_contra hstates
  unfold StatesUsage at hstates
  push Not at hstates
  obtain ⟨hmarked, hfraction⟩ := hstates
  have hlimited : cache.isUnlimited ≠ some true := fun ht => hmarked (hunlimited.1 ht)
  have hbounds := Json.toInt_amount hread
  cases hq : (payload.get "remaining").amount with
  | none =>
    -- no amount was stated, and less than two megabytes are cached
    rw [hq] at hbounds
    have hlt : n < 2 := hbounds
    have hfires : selectFireReason (usagePolicy .threshold 2) (oldEsim c cache) 0
        = some .usageThreshold := by
      simp [selectFireReason, usagePolicy, oldEsim, hlimited, hn, hlt]
    obtain ⟨plan, hbuy, hreason⟩ := prepare_usagePolicy (by decide) hfires
    obtain ⟨_, q, hq', _⟩ := h _ _ _ plan rfl hbuy (by rw [hreason]; decide)
    rw [hq] at hq'
    cases hq'
  | some q =>
    -- a fraction was stated, and zero is cached
    rw [hq] at hbounds
    obtain ⟨hpos, hone⟩ := hfraction q hq
    have hzero : n ≤ 0 := hbounds.2 hone
    have hfires : selectFireReason (usagePolicy .zero 0) (oldEsim c cache) 0 = some .usageZero := by
      simp [selectFireReason, usagePolicy, oldEsim, hlimited, hn, hzero]
    obtain ⟨plan, hbuy, hreason⟩ := prepare_usagePolicy (by decide) hfires
    obtain ⟨_, q', hq', hbound⟩ := h _ _ _ plan rfl hbuy (by rw [hreason]; decide)
    obtain rfl : q = q' := Option.some.inj (hq.symm.trans hq')
    rcases hbound with ⟨_, hle⟩ | ⟨hmode, _⟩
    · exact absurd hle (not_le.2 hpos)
    · cases hmode

/--
**A usage trigger rests on what the provider stated exactly when something was
stated.** For a reply that the cache was refreshed from: every purchase a usage
trigger starts on the cache, under any policy and at any time, is justified by the
payload, if and only if the payload marks the plan unlimited or states an amount
that is no fraction between zero and one.
-/
theorem usage_justified_iff {c : AutoTopupSettings} {iccid : String} {now : Time}
    {r : Airalo.HttpReply} {payload : Json} {cache : UsageCache}
    (hp : Airalo.getUsage iccid r = .ok payload)
    (hc : getUsage c.spend.writer c.parseDatetime now iccid r = .ok cache) :
    UsageJustified c payload cache ↔ StatesUsage payload :=
  ⟨states_of_justified (getUsage_cachedFrom hp hc), justified_of_states (getUsage_cachedFrom hp hc)⟩

/-! ## Two replies -/

/-- Auto top-ups for all, with a cooldown of fifteen minutes. -/
def autoSettings : AutoTopupSettings where
  spend := ⟨true, false, false, Spend.Proof.plainWriter⟩
  enabled := true
  cooldownSeconds := 900
  usageMaxAgeSeconds := 600
  minimumAgeSeconds := 0
  rolloutMode := "all"
  allowlist := []
  rolloutPercent := 0
  digest _ := 0
  parseDatetime _ := .ok none

/-- A reply with a usage object. -/
def usageReply (kvs : List (String × Json)) : Airalo.HttpReply :=
  .json (.dict [("data", .dict kvs)])

theorem getUsage_usageReply (iccid : String) (kvs : List (String × Json)) :
    Airalo.getUsage iccid (usageReply kvs) = .ok (.dict kvs) := rfl

/-- Five megabytes are left, and a policy that fires under ten buys. -/
theorem usage_justified_iff_five :
    ∃ cache, getUsage autoSettings.spend.writer autoSettings.parseDatetime 0 "8900"
        (usageReply [("remaining", .int 5)]) = .ok cache
      ∧ UsageJustified autoSettings (.dict [("remaining", .int 5)]) cache := by
  refine ⟨⟨some 5, some 0, "", none, none, some 0⟩, rfl, ?_⟩
  have hp := getUsage_usageReply "8900" [("remaining", .int 5)]
  have hc : getUsage autoSettings.spend.writer autoSettings.parseDatetime 0 "8900"
      (usageReply [("remaining", .int 5)]) = .ok ⟨some 5, some 0, "", none, none, some 0⟩ := rfl
  refine (usage_justified_iff hp hc).2 ?_
  exact .inr ⟨5, rfl, by norm_num⟩

/-- A reply without a remaining amount starts a purchase. -/
theorem missing_usage_buys :
    ¬ ∀ (c : AutoTopupSettings) iccid now r payload cache, Airalo.getUsage iccid r = .ok payload →
      getUsage c.spend.writer c.parseDatetime now iccid r = .ok cache →
      UsageJustified c payload cache := by
  intro h
  have hjust :=
    h autoSettings "8900" 0 (usageReply []) (.dict []) ⟨some 0, some 0, "", none, none, some 0⟩
    rfl rfl
  have hcached := getUsage_cachedFrom (getUsage_usageReply "8900" [])
    (show getUsage autoSettings.spend.writer autoSettings.parseDatetime 0 "8900" (usageReply [])
      = _ from rfl)
  rcases states_of_justified hcached hjust with hmarked | ⟨q, hq, _⟩
  · cases hmarked
  · cases hq

end Roamkit.AutoTopup.Proof
