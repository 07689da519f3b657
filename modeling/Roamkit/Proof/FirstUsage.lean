import Roamkit.Esims.StatusCalls
import Roamkit.Proof.SystemKeys

/-!
# How often first usage is detected

That a payload is the first to report usage is inferred from the status before it alone.
A payload without usage sets that status back, so usage that comes after one is detected
anew; whether it is depends on the payloads and on nothing a client does.
-/

namespace Roamkit.Esims.Proof

open Lib Billing Spend Billing.Proof

variable {s s' : LifecycleDb}

/-! ## The status after a call -/

@[simp] theorem atTime_status (s : LifecycleDb) (now : Time) : (s.atTime now).status = s.status :=
  rfl

theorem record_spend (s : LifecycleDb) (v : LifecycleEvent) : (s.record v).spend = s.spend := by
  unfold LifecycleDb.record
  split
  · rfl
  · split <;> rfl

theorem recordUsage_keeps (s : LifecycleDb) (esim : Nat) (p : ProviderStatus) :
    (s.recordUsage esim p).status = s.status ∧ (s.recordUsage esim p).spend = s.spend := by
  unfold LifecycleDb.recordUsage
  induction p.events esim s.spend.now generalizing s with
  | nil => exact ⟨rfl, rfl⟩
  | cons v vs ih =>
    obtain ⟨hstatus, hspend⟩ := ih (s.record v)
    exact ⟨hstatus.trans (record_status s v), hspend.trans (record_spend s v)⟩

variable {esim : Nat} {copy : Esim} {status : EsimStatus} {eventType : String}

/-- A transition that does not raise changes nothing, or takes an edge of the status it was
shown. -/
theorem transition_cases {current target : EsimStatus}
    (h : s.transition esim current target = .ok s') :
    (current = target ∧ s' = s) ∨ (target ∈ allowed current
      ∧ s'.status = Function.update s.status esim target ∧ s'.spend = s.spend) := by
  unfold LifecycleDb.transition at h
  split at h
  · rename_i heq
    cases h
    exact .inl ⟨heq, rfl⟩
  · split at h
    · cases h
    rename_i hedge
    cases h
    exact .inr ⟨not_not.1 hedge, record_status _ _, record_spend _ _⟩

/-- What a client's event does to the status of the row and to the rows of the eSIMs. -/
structure ClientEffect (s s' : LifecycleDb) (copy : Esim) (status target : EsimStatus) : Prop where
  status : (target = status ∧ s'.status = s.status)
    ∨ (target ∈ allowed status ∧ s'.status = Function.update s.status copy.id target)
  esims : ∀ esim, (s'.spend.esims.find? (·.id = esim)).isSome
    = (s.spend.esims.find? (·.id = esim)).isSome

theorem transition_effect {target : EsimStatus} (hne : status ≠ target)
    (h : s.transition copy.id status target = .ok s') : ClientEffect s s' copy status target := by
  rcases transition_cases h with ⟨heq, _⟩ | ⟨hedge, hstatus, hspend⟩
  · exact absurd heq hne
  · exact ⟨.inr ⟨hedge, hstatus⟩, fun _ => by rw [hspend]⟩

theorem find_confirmed (t : Table Esim) (now : Time) (id esim : Nat) :
    ((t.update (·.id = id) (LifecycleDb.confirmed now) fun _ _ h => h).find? (·.id = esim)).isSome
      = (t.find? (·.id = esim)).isSome := by
  have hkeep : ∀ e : Esim, (rewrite (·.id = id) (LifecycleDb.confirmed now) e).id = e.id := by
    intro e
    unfold rewrite
    split <;> rfl
  unfold Table.find? Table.update
  rw [List.find?_map, Option.isSome_map]
  congr 2
  funext e
  rw [Function.comp_apply, hkeep]

theorem applyClientSideEffects_effect
    (h : s.applyClientSideEffects copy status eventType = .ok s') :
    ClientEffect s s' copy status (clientTarget status eventType) := by
  have hsame : ∀ s₁ : LifecycleDb, s₁.status = s.status →
      (∀ esim, (s₁.spend.esims.find? (·.id = esim)).isSome
        = (s.spend.esims.find? (·.id = esim)).isSome) →
      ClientEffect s s₁ copy status status := fun _ hstatus hesims => ⟨.inl ⟨rfl, hstatus⟩, hesims⟩
  unfold LifecycleDb.applyClientSideEffects at h
  unfold clientTarget
  by_cases hopened : eventType = "install.opened"
  · rw [if_pos hopened] at h
    have hnot : eventType ≠ "install.completed" := by
      rw [hopened]
      decide
    by_cases hpurchased : status = .purchased
    · rw [if_pos hpurchased] at h
      rw [if_pos ⟨hopened, hpurchased⟩]
      exact transition_effect (by rw [hpurchased]; decide) h
    · rw [if_neg hpurchased] at h
      rw [if_neg (fun hc => hpurchased hc.2), if_neg (fun hc => hnot hc.1)]
      cases h
      exact hsame s rfl fun _ => rfl
  · rw [if_neg hopened] at h
    rw [if_neg (fun hc => hopened hc.1)]
    by_cases hcompleted : eventType = "install.completed"
    · rw [if_pos hcompleted] at h
      by_cases hstarted : status = .purchased ∨ status = .installationStarted
      · rw [if_pos hstarted] at h
        rw [if_pos ⟨hcompleted, hstarted⟩]
        refine transition_effect ?_ h
        rcases hstarted with hs | hs <;> rw [hs] <;> decide
      · rw [if_neg hstarted] at h
        rw [if_neg (fun hc => hstarted hc.2)]
        cases h
        exact hsame s rfl fun _ => rfl
    · rw [if_neg hcompleted] at h
      rw [if_neg (fun hc => hcompleted hc.1)]
      split at h
      · split at h
        · cases h
          exact hsame _ rfl (find_confirmed _ _ _)
        · cases h
          exact hsame s rfl fun _ => rfl
      · cases h
        exact hsame s rfl fun _ => rfl

theorem createClientEvent_effect {key : String}
    (h : s.createClientEvent copy status eventType key = .ok s') :
    ClientEffect s s' copy status (clientTarget status eventType) := by
  unfold LifecycleDb.createClientEvent at h
  split at h
  · cases h
  split at h
  · cases h
  · obtain ⟨hstatus, hesims⟩ := applyClientSideEffects_effect h
    exact ⟨hstatus, hesims⟩

/-- An event that is created fits, and none has its key. -/
theorem createClientEvent_fits {key : String}
    (h : s.createClientEvent copy status eventType key = .ok s') :
    key.length ≤ 128 ∧ ∀ e ∈ s.events, ¬ Constraint.clash e
      (LifecycleDb.clientEvent copy.id eventType key) := by
  unfold LifecycleDb.createClientEvent at h
  split at h
  · cases h
  split at h
  · cases h
  · rename_i hshort _ events hi
    exact ⟨by omega, fun e he => Table.apart_of_insert hi he⟩

/-! ## Statuses from which usage is detected -/

/-- The statuses before any usage. -/
def isFresh : EsimStatus → Bool
  | .purchased => true
  | .installationStarted => true
  | .installed => true
  | .unknown => true
  | _ => false

theorem isFresh_clientTarget (status : EsimStatus) (eventType : String) :
    isFresh (clientTarget status eventType) = isFresh status := by
  unfold clientTarget
  split
  · rename_i h
    rw [h.2]
    rfl
  · split
    · rename_i h
      rcases h.2 with hs | hs <;> rw [hs] <;> rfl
    · rfl

theorem clientTarget_activated (h : status ≠ .activated) :
    clientTarget status eventType ≠ .activated := by
  unfold clientTarget
  split
  · decide
  · split
    · decide
    · exact h

/-- A payload that says the eSIM is not in use. -/
def resets : ProviderStatus → Bool
  | .notActive => true
  | .unknown => true
  | .blank => true
  | _ => false

theorem isFresh_target (p : ProviderStatus) : isFresh p.target = resets p := by
  cases p <;> rfl

/-- How often each of the two events is published for a listed payload. -/
def firstUse (fresh : Bool) (p : ProviderStatus) : Nat := if fresh ∧ p = .active then 1 else 0

theorem detections_count {previous : EsimStatus} (p : ProviderStatus)
    (hactivated : previous ≠ .activated) (hne : previous ≠ p.target) :
    (detections previous p.target).count .activated = firstUse (isFresh previous) p
      ∧ (detections previous p.target).count .firstUsageDetected
        = firstUse (isFresh previous) p := by
  revert hactivated hne
  cases previous <;> cases p <;> decide

theorem firstUse_same {previous : EsimStatus} {p : ProviderStatus} (h : previous = p.target) :
    firstUse (isFresh previous) p = 0 := by
  rw [h]
  cases p <;> rfl

/-! ## A sequence of deliveries -/

/--
The reports of usage that come first or directly after a payload without usage. Client
events, and payloads whose status is not listed, count for nothing.
-/
def firstUses (fresh : Bool) : List (Time × Delivery) → Nat
  | [] => 0
  | (_, .client _ _) :: ds => firstUses fresh ds
  | (_, .usage payload) :: ds =>
    match providerStatus? payload with
    | none => firstUses fresh ds
    | some p => firstUse fresh p + firstUses (resets p) ds

/-- What one delivery does: the class of the status, and how often usage is detected. -/
structure Delivered (s s' : LifecycleDb) (esim : Nat) (news : List EsimNews) (fresh : Bool)
    (detected : Nat) :
    Prop where
  there : (s'.spend.esims.find? (·.id = esim)).isSome
  fresh : isFresh (s'.status esim) = fresh
  activated : s'.status esim ≠ .activated
  news : news.count .activated = detected ∧ news.count .firstUsageDetected = detected

theorem clientNews_count (eventType : String) :
    (clientNews eventType).count .activated = 0
      ∧ (clientNews eventType).count .firstUsageDetected = 0 := by
  unfold clientNews
  split <;> exact ⟨rfl, rfl⟩

theorem deliver_client (now : Time) (eventType key : String)
    (hthere : (s.spend.esims.find? (·.id = esim)).isSome)
    (hactivated : s.status esim ≠ .activated) :
    Delivered s (deliver s esim now (.client eventType key)).1 esim
      (deliver s esim now (.client eventType key)).2 (isFresh (s.status esim)) 0 := by
  have hsame : Delivered s s esim [] (isFresh (s.status esim)) 0 :=
    ⟨hthere, rfl, hactivated, rfl, rfl⟩
  unfold deliver
  cases hfind : s.spend.esims.find? (·.id = esim) with
  | none =>
    rw [hfind] at hthere
    cases hthere
  | some copy =>
    have hid : copy.id = esim := by
      have hp := Table.prop_of_find? hfind
      exact of_decide_eq_true hp
    dsimp only
    unfold LifecycleDb.recordClientEvent
    by_cases hlisted : eventType ∈ clientEventAllowlist
    · rw [if_neg (not_not.2 hlisted)]
      cases (s.atTime now).eventOf copy.id key with
      | some existing => exact ⟨hthere, rfl, hactivated, rfl, rfl⟩
      | none =>
        dsimp only
        cases hcreate : (s.atTime now).createClientEvent copy (s.status esim) eventType key with
        | error e => exact hsame
        | ok s₁ =>
          obtain ⟨hstatus, hesims⟩ := createClientEvent_effect hcreate
          have hafter : s₁.status esim = clientTarget (s.status esim) eventType := by
            rcases hstatus with ⟨htarget, hs⟩ | ⟨_, hs⟩
            · rw [hs, htarget, atTime_status]
            · rw [hs, hid, Function.update_self]
          refine ⟨?_, ?_, ?_, clientNews_count eventType⟩
          · dsimp only
            rw [hesims esim]
            exact hthere
          · dsimp only
            rw [hafter, isFresh_clientTarget]
          · dsimp only
            rw [hafter]
            exact clientTarget_activated hactivated
    · rw [if_pos hlisted]
      exact hsame

theorem deliver_usage (now : Time) {payload : String} {p : ProviderStatus}
    (hthere : (s.spend.esims.find? (·.id = esim)).isSome)
    (hactivated : s.status esim ≠ .activated) (hp : providerStatus? payload = some p) :
    Delivered s (deliver s esim now (.usage payload)).1 esim (deliver s esim now (.usage payload)).2
      (resets p) (firstUse (isFresh (s.status esim)) p) := by
  unfold deliver
  cases hfind : s.spend.esims.find? (·.id = esim) with
  | none =>
    rw [hfind] at hthere
    cases hthere
  | some copy =>
    have hid : copy.id = esim := by
      have hp := Table.prop_of_find? hfind
      exact of_decide_eq_true hp
    dsimp only
    unfold LifecycleDb.applyProviderUsage
    rw [hp]
    dsimp only
    by_cases hsame : s.status esim = p.target
    · rw [if_pos hsame, firstUse_same hsame]
      exact ⟨hthere, by rw [atTime_status, hsame, isFresh_target], hactivated, rfl, rfl⟩
    · rw [if_neg hsame]
      obtain ⟨hstatus, hspend⟩ :=
        recordUsage_keeps ((s.atTime now).saveStatus copy.id p.target) copy.id p
      have hafter : (((s.atTime now).saveStatus copy.id p.target).recordUsage copy.id p).status esim
          = p.target := by
        rw [hstatus, hid]
        exact Function.update_self _ _ _
      refine ⟨?_, ?_, ?_, ?_⟩
      · dsimp only
        rw [hspend]
        exact hthere
      · dsimp only
        rw [hafter, isFresh_target]
      · dsimp only
        rw [hafter]
        cases p <;> decide
      · dsimp only
        rw [← hid] at hafter
        rw [hafter]
        exact detections_count p hactivated hsame

theorem deliver_unlisted (s : LifecycleDb) (esim : Nat) (now : Time) {payload : String}
    (hp : providerStatus? payload = none) :
    (deliver s esim now (.usage payload)).1.status = s.status
      ∧ (deliver s esim now (.usage payload)).1.spend.esims = s.spend.esims
      ∧ (deliver s esim now (.usage payload)).2 = [] := by
  unfold deliver
  cases s.spend.esims.find? (·.id = esim) with
  | none => exact ⟨rfl, rfl, rfl⟩
  | some copy =>
    dsimp only
    unfold LifecycleDb.applyProviderUsage
    rw [hp]
    exact ⟨rfl, rfl, rfl⟩

/-- **Both events are published once for every report of usage that is a first one.** -/
theorem deliverAll_count (ds : List (Time × Delivery))
    (hthere : (s.spend.esims.find? (·.id = esim)).isSome)
    (hactivated : s.status esim ≠ .activated) :
    (deliverAll s esim ds).2.count .activated = firstUses (isFresh (s.status esim)) ds
      ∧ (deliverAll s esim ds).2.count .firstUsageDetected
        = firstUses (isFresh (s.status esim)) ds := by
  induction ds generalizing s with
  | nil => exact ⟨rfl, rfl⟩
  | cons head ds ih =>
    obtain ⟨now, d⟩ := head
    unfold deliverAll
    dsimp only
    rw [List.count_append, List.count_append]
    cases d with
    | client eventType key =>
      obtain ⟨hthere', hfresh, hactivated', hnews⟩ :=
        deliver_client now eventType key hthere hactivated
      obtain ⟨ha, hf⟩ := ih hthere' hactivated'
      rw [hfresh] at ha hf
      rw [firstUses]
      exact ⟨by rw [hnews.1, ha, Nat.zero_add], by rw [hnews.2, hf, Nat.zero_add]⟩
    | usage payload =>
      rw [firstUses]
      cases hp : providerStatus? payload with
      | none =>
        obtain ⟨hstatus, hesims, hnews⟩ := deliver_unlisted s esim now hp
        have hrest := ih (s := (deliver s esim now (.usage payload)).1)
          (by rw [hesims]; exact hthere) (by rw [hstatus]; exact hactivated)
        rw [hstatus] at hrest
        dsimp only
        rw [hnews, List.count_nil, List.count_nil, Nat.zero_add, Nat.zero_add]
        exact hrest
      | some p =>
        obtain ⟨hthere', hfresh, hactivated', hnews⟩ :=
          deliver_usage now hthere hactivated hp
        obtain ⟨ha, hf⟩ := ih hthere' hactivated'
        rw [hfresh] at ha hf
        dsimp only
        exact ⟨by rw [hnews.1, ha], by rw [hnews.2, hf]⟩

/--
**Each event is published at most once exactly when at most one report of usage comes first
or directly after a payload without usage.**
-/
theorem detected_once_iff {esim : Nat} (ds : List (Time × Delivery))
    (hthere : (s.spend.esims.find? (·.id = esim)).isSome) (hnew : s.status esim = .purchased) :
    ((deliverAll s esim ds).2.count .activated ≤ 1
      ∧ (deliverAll s esim ds).2.count .firstUsageDetected ≤ 1)
      ↔ firstUses true ds ≤ 1 := by
  have hactivated : s.status esim ≠ .activated := by
    rw [hnew]
    decide
  obtain ⟨ha, hf⟩ := deliverAll_count ds hthere hactivated
  have hfresh : isFresh (s.status esim) = true := by
    rw [hnew]
    rfl
  rw [hfresh] at ha hf
  rw [ha, hf, and_self]

/-! ## An eSIM that is reset -/

/-- The eSIM of an order, just made. -/
def newEsim : Esim := ⟨1, alice, 1, 1, "8988", "", .blank, none, 0⟩

/-- A database with that eSIM only. -/
def withNewEsim : LifecycleDb :=
  ⟨{ books := twoAccounts, accruals := .empty, orders := .empty, topups := .empty,
      esims := ⟨[newEsim], by decide⟩, provider := fun _ => none, now := 0 },
    fun _ => .purchased, .empty, fun _ => false⟩

/-- Usage is reported, then not active, then usage again, with an installation in between. -/
def activeTwice : List (Time × Delivery) :=
  [(1, .usage "ACTIVE"), (2, .usage "NOT_ACTIVE"), (3, .client "install.completed" "done"),
    (4, .usage " active")]

theorem detected_twice : ∃ (s : LifecycleDb) (esim : Nat) (ds : List (Time × Delivery)),
    (s.spend.esims.find? (·.id = esim)).isSome ∧ s.status esim = .purchased
      ∧ (deliverAll s esim ds).2.count .activated = 2
      ∧ (deliverAll s esim ds).2.count .firstUsageDetected = 2 := by
  refine ⟨withNewEsim, 1, activeTwice, ?_, ?_, ?_, ?_⟩
  · decide
  · rfl
  · decide
  · decide

theorem detected_once_iff_reset :
    ((deliverAll withNewEsim 1 activeTwice).2.count .activated ≤ 1
        ∧ (deliverAll withNewEsim 1 activeTwice).2.count .firstUsageDetected ≤ 1)
      ↔ firstUses true activeTwice ≤ 1 :=
  detected_once_iff activeTwice (by decide) rfl

end Roamkit.Esims.Proof
