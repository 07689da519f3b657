import Roamkit.Esims.SystemKeys
import Roamkit.Proof.AutoTopup
import Roamkit.Proof.Credits

/-!
# Keys the system derives

Nothing in the code keeps a client from choosing a key that the system derives.
What follows is what holds as long as no client does: the rows under such keys are
the system's, every eSIM has its initial credit, an evaluation never finds a row
that a client bought, and no event of the system or the provider is lost.
-/

namespace Roamkit.Esims.Proof

open Lib Billing Spend AutoTopup Billing.Proof Spend.Proof AutoTopup.Proof

/-! ## The key spaces -/

/-- A key `_idempotency_key` derives. -/
def IsEvaluationKey (key : String) : Prop :=
  ∃ policy esim reason, idempotencyKey policy esim reason = .ok key

/-- A key of a top-up that the system derives. -/
def IsSystemTopupKey (key : String) : Prop := IsInitialKey key ∨ IsEvaluationKey key

/-- A key of an eSIM's lifecycle event that the system or the provider derives. -/
inductive IsSystemEventKey (esim : Nat) : String → Prop
  | purchased : IsSystemEventKey esim (purchasedKey esim)
  | status (target : EsimStatus) (t : Time) : IsSystemEventKey esim (statusKey esim target t)
  | unknown (t : Time) : IsSystemEventKey esim (usageUnknownKey esim t)

/-- An event the system or the provider records. -/
inductive IsSystemEvent : LifecycleEvent → Prop
  | purchased (esim : Nat) : IsSystemEvent (purchasedEvent esim)
  | status (esim : Nat) (target : EsimStatus) (t : Time) : IsSystemEvent (statusEvent esim target t)
  | unknown (esim : Nat) (t : Time) : IsSystemEvent (usageUnknownEvent esim t)

theorem IsSystemEvent.key {v : LifecycleEvent} (h : IsSystemEvent v) :
    IsSystemEventKey v.esim v.idempotencyKey := by
  cases h with
  | purchased esim => exact .purchased
  | status esim target t => exact .status target t
  | unknown esim t => exact .unknown t

/-- A key of four parts after its first. -/
theorem append_four (a b c d : String) : a ++ b ++ c ++ d = a ++ (b ++ c ++ d) := by
  simp only [String.append_assoc]

/-- A key of six parts after its first, and after its third. -/
theorem append_six (a b c d e f : String) :
    a ++ b ++ c ++ d ++ e ++ f = a ++ (b ++ c ++ d ++ e ++ f) := by
  simp only [String.append_assoc]

theorem append_third (a b c d e f : String) :
    a ++ b ++ c ++ d ++ e ++ f = (a ++ b ++ c) ++ (d ++ e ++ f) := by
  simp only [String.append_assoc]

variable {eventType key : String} {esim : Nat} {status target : EsimStatus} {copy : Esim}
  {x : KeyInput}

theorem evaluationKey_prefix (h : IsEvaluationKey key) :
    ∃ rest, key = "auto-topup:" ++ rest := by
  obtain ⟨policy, esim, reason, h⟩ := h
  have hbegins : ∀ stamp, ∃ rest, keyPrefix policy.id reason ++ stamp = "auto-topup:" ++ rest :=
    fun stamp => ⟨_, append_six "auto-topup:" policy.id.str ":" reason.value ":" stamp⟩
  unfold idempotencyKey at h
  split at h
  · split at h
    · cases h
    · cases h
      exact hbegins _
  · cases h
    exact hbegins _

/-- The credits and the evaluations keep apart. -/
theorem evaluationKey_ne (h : IsEvaluationKey key) : ¬ IsInitialKey key := by
  rintro ⟨esim, rfl⟩
  obtain ⟨rest, hrest⟩ := evaluationKey_prefix h
  exact ne_of_parts (by decide) _ _ hrest

theorem statusKey_eq (esim : Nat) (target : EsimStatus) (t : Time) :
    statusKey esim target t = ("system.status." ++ target.value ++ ":")
      ++ (toString esim ++ ":" ++ Isoformat.isoformat t) := append_third _ _ _ _ _ _

theorem statusKey_prefix (esim : Nat) (target : EsimStatus) (t : Time) :
    ∃ rest, statusKey esim target t = "system.status." ++ rest := ⟨_, append_six _ _ _ _ _ _⟩

theorem usageUnknownKey_prefix (esim : Nat) (t : Time) :
    ∃ rest, usageUnknownKey esim t = "provider.usage_unknown:" ++ rest := ⟨_, append_four _ _ _ _⟩

theorem statusKey_target {target' : EsimStatus} {t t' : Time}
    (h : statusKey esim target t = statusKey esim target' t') : target = target' := by
  have hparts : target ≠ target' →
      parts ("system.status." ++ target.value ++ ":") ("system.status." ++ target'.value ++ ":")
        = true := by
    cases target <;> cases target' <;> decide
  by_contra hne
  rw [statusKey_eq, statusKey_eq] at h
  exact ne_of_parts (hparts hne) _ _ h

theorem purchasedKey_ne_statusKey (esim esim' : Nat) (target : EsimStatus) (t : Time) :
    purchasedKey esim ≠ statusKey esim' target t := by
  obtain ⟨rest, hrest⟩ := statusKey_prefix esim' target t
  intro h
  exact ne_of_parts (by decide) _ _ (h.trans hrest)

theorem purchasedKey_ne_usageUnknownKey (esim esim' : Nat) (t : Time) :
    purchasedKey esim ≠ usageUnknownKey esim' t := by
  obtain ⟨rest, hrest⟩ := usageUnknownKey_prefix esim' t
  intro h
  exact ne_of_parts (by decide) _ _ (h.trans hrest)

theorem statusKey_ne_usageUnknownKey (esim esim' : Nat) (target : EsimStatus) (t t' : Time) :
    statusKey esim target t ≠ usageUnknownKey esim' t' := by
  obtain ⟨rest, hrest⟩ := statusKey_prefix esim target t
  obtain ⟨rest', hrest'⟩ := usageUnknownKey_prefix esim' t'
  rw [hrest, hrest']
  exact ne_of_parts (by decide) _ _

/-- **An event of the system is told by its key.** -/
theorem IsSystemEvent.eq_of_key {v w : LifecycleEvent} (hv : IsSystemEvent v) (hw : IsSystemEvent w)
    (hesim : v.esim = w.esim) (hkey : v.idempotencyKey = w.idempotencyKey) : v = w := by
  cases hv with
  | purchased esim =>
    cases hw with
    | purchased esim' => exact congrArg purchasedEvent hesim
    | status esim' target t => exact absurd hkey (purchasedKey_ne_statusKey _ _ _ _)
    | unknown esim' t => exact absurd hkey (purchasedKey_ne_usageUnknownKey _ _ _)
  | status esim target t =>
    cases hw with
    | purchased esim' => exact absurd hkey.symm (purchasedKey_ne_statusKey _ _ _ _)
    | status esim' target' t' =>
      obtain rfl : esim = esim' := hesim
      obtain rfl := statusKey_target hkey
      have hk : statusKey esim target t = statusKey esim target t' := hkey
      rw [statusEvent, statusEvent, hk]
    | unknown esim' t' => exact absurd hkey (statusKey_ne_usageUnknownKey _ _ _ _ _)
  | unknown esim t =>
    cases hw with
    | purchased esim' => exact absurd hkey.symm (purchasedKey_ne_usageUnknownKey _ _ _)
    | status esim' target t' => exact absurd hkey.symm (statusKey_ne_usageUnknownKey _ _ _ _ _)
    | unknown esim' t' =>
      obtain rfl : esim = esim' := hesim
      have hk : usageUnknownKey esim t = usageUnknownKey esim t' := hkey
      rw [usageUnknownEvent, usageUnknownEvent, hk]

/-! ## The events -/

/-- The events of the system are what the system records, and a client has none of their keys. -/
structure EventsInv (s : LifecycleDb) : Prop where
  system : ∀ v ∈ s.events, v.source ≠ .client → IsSystemEvent v
  client : ∀ v ∈ s.events, v.source = .client → ¬ IsSystemEventKey v.esim v.idempotencyKey

/-- The rows of the events stay. -/
def Keeps (s s' : LifecycleDb) : Prop := ∀ v ∈ s.events, v ∈ s'.events

section Record

variable {s : LifecycleDb} {v : LifecycleEvent}

theorem eventOf_some {w : LifecycleEvent} (h : s.eventOf esim key = some w) :
    w ∈ s.events ∧ w.esim = esim ∧ w.idempotencyKey = key := by
  have hp := Table.prop_of_find? h
  rw [Bool.and_eq_true, decide_eq_true_eq, decide_eq_true_eq] at hp
  exact ⟨Table.mem_of_find? h, hp.1, hp.2⟩

/-- What a get-or-create leaves. -/
structure Recorded (s s' : LifecycleDb) (v : LifecycleEvent) : Prop where
  inv : EventsInv s'
  kept : Keeps s s'
  made : v ∈ s'.events
  spend : s'.spend = s.spend
  manual : s'.manual = s.manual

/-- **What the system records stands afterwards.** -/
theorem record_recorded (h : EventsInv s) (hv : IsSystemEvent v) : Recorded s (s.record v) v := by
  unfold LifecycleDb.record
  cases hfind : s.eventOf v.esim v.idempotencyKey with
  | some w =>
    obtain ⟨hw, hesim, hkey⟩ := eventOf_some hfind
    have hsource : w.source ≠ .client := by
      intro hclient
      refine h.client w hw hclient ?_
      rw [hesim, hkey]
      exact hv.key
    obtain rfl := (h.system w hw hsource).eq_of_key hv hesim hkey
    exact ⟨h, fun _ => id, hw, rfl, rfl⟩
  | none =>
    dsimp only
    cases hi : s.events.insert? v with
    | none =>
      obtain ⟨w, hw, hesim, hkey⟩ := Table.clash_of_insert_none hi
      exact absurd (by simp [hesim, hkey]) (Table.not_of_find? hfind hw)
    | some events =>
      refine ⟨⟨?_, ?_⟩, fun w hw => (Table.mem_insert hi).2 (.inl hw),
        (Table.mem_insert hi).2 (.inr rfl), rfl, rfl⟩
      · intro w hw hsource
        rcases (Table.mem_insert hi).1 hw with hold | rfl
        · exact h.system w hold hsource
        · exact hv
      · intro w hw hsource
        rcases (Table.mem_insert hi).1 hw with hold | rfl
        · exact h.client w hold hsource
        · cases hv <;> cases hsource

theorem notePurchased_recorded (h : EventsInv s) (e : Esim) :
    Recorded s (s.notePurchased e) (purchasedEvent e.id) := by
  have hsave : EventsInv (s.saveStatus e.id .purchased) := ⟨h.system, h.client⟩
  obtain ⟨hinv, hkept, hmade, hspend, hmanual⟩ := record_recorded hsave (.purchased e.id)
  exact ⟨hinv, hkept, hmade, hspend, hmanual⟩

theorem notePurchased_fold {es : List Esim} (h : EventsInv s) :
    EventsInv (es.foldl LifecycleDb.notePurchased s)
      ∧ Keeps s (es.foldl LifecycleDb.notePurchased s)
      ∧ (∀ e ∈ es, purchasedEvent e.id ∈ (es.foldl LifecycleDb.notePurchased s).events)
      ∧ (es.foldl LifecycleDb.notePurchased s).spend = s.spend
      ∧ (es.foldl LifecycleDb.notePurchased s).manual = s.manual := by
  induction es generalizing s with
  | nil => exact ⟨h, fun _ => id, fun e he => absurd he (by simp), rfl, rfl⟩
  | cons e es ih =>
    have hfirst := notePurchased_recorded h e
    obtain ⟨hinv, hkept, hmade, hspend, hmanual⟩ := ih hfirst.inv
    refine ⟨hinv, fun v hv => hkept v (hfirst.kept v hv), ?_, hspend.trans hfirst.spend,
      hmanual.trans hfirst.manual⟩
    intro e' he'
    rcases List.mem_cons.1 he' with rfl | he'
    · exact hkept _ hfirst.made
    · exact hmade e' he'

/-- A client's event under a key of its own leaves the events well. -/
theorem clientEvent_inserted {events : Table LifecycleEvent} (h : EventsInv s)
    (hkey : ¬ IsSystemEventKey esim key)
    (hi : s.events.insert? (LifecycleDb.clientEvent esim eventType key) = some events) :
    EventsInv { s with events } := by
  refine ⟨?_, ?_⟩
  · intro v hv hsource
    rcases (Table.mem_insert hi).1 hv with hold | rfl
    · exact h.system v hold hsource
    · exact absurd rfl hsource
  · intro v hv hsource
    rcases (Table.mem_insert hi).1 hv with hold | rfl
    · exact h.client v hold hsource
    · exact hkey

/-- What a status that is moved on records. -/
def StatusRecorded (s s' : LifecycleDb) (esim : Nat) : Prop :=
  s'.status = s.status ∨ ∃ target, s'.status = Function.update s.status esim target
    ∧ statusEvent esim target s.spend.now ∈ s'.events

theorem record_status (s : LifecycleDb) (v : LifecycleEvent) : (s.record v).status = s.status := by
  unfold LifecycleDb.record
  split
  · rfl
  · split <;> rfl

theorem transition_records {current : EsimStatus} {s' : LifecycleDb} (h : EventsInv s)
    (hs : s.transition esim current target = .ok s') :
    StatusRecorded s s' esim := by
  unfold LifecycleDb.transition at hs
  split at hs
  · cases hs
    exact .inl rfl
  · split at hs
    · cases hs
    cases hs
    have hsave : EventsInv (s.saveStatus esim target) := ⟨h.system, h.client⟩
    have hmade := (record_recorded hsave (.status esim target s.spend.now)).made
    exact .inr ⟨target, record_status _ _, hmade⟩

theorem applyClientSideEffects_records {s' : LifecycleDb} (h : EventsInv s)
    (hs : s.applyClientSideEffects copy status eventType = .ok s') :
    StatusRecorded s s' copy.id := by
  unfold LifecycleDb.applyClientSideEffects at hs
  split at hs
  · split at hs
    · exact transition_records h hs
    · cases hs
      exact .inl rfl
  · split at hs
    · split at hs
      · exact transition_records h hs
      · cases hs
        exact .inl rfl
    · split at hs
      · split at hs <;> cases hs <;> exact .inl rfl
      · cases hs
        exact .inl rfl

/-- A client's event that moves the status on has it recorded. -/
theorem createClientEvent_records {s' : LifecycleDb} (h : EventsInv s)
    (hkey : ¬ IsSystemEventKey copy.id key)
    (hs : s.createClientEvent copy status eventType key = .ok s') :
    StatusRecorded s s' copy.id := by
  unfold LifecycleDb.createClientEvent at hs
  split at hs
  · cases hs
  split at hs
  · cases hs
  rename_i events hi
  have hrecords : StatusRecorded { s with events } s' copy.id :=
    applyClientSideEffects_records (clientEvent_inserted h hkey hi) hs
  exact hrecords

end Record

/-! ## What a step can do -/

/-- Everything a step of a call can do, and the point it comes to. -/
inductive KeyMove (c : AutoTopupSettings) (s : LifecycleDb) (t : KeyThread c) :
    LifecycleDb → KeyPc → Prop
  | spends {u u' : SpendThread} {y : SpendInput} {spend : SpendDb} : t.pc = .spending u →
      spendStep c.spend s.spend u y = some (spend, u') →
      KeyMove c s t (s.spent t.call.isManual u'.pc spend) (.spending u')
  | raises {e : Exc} : KeyMove c s t s (.raised e)
  | dies : KeyMove c s t s .gone
  | loads {esim : Nat} {eventType key : String} {copy : Esim} : t.call = .event esim eventType key →
      copy.id = esim → KeyMove c s t s (.loaded copy (s.status esim))
  | observes {esim : Nat} {copy : Esim} {status : EsimStatus} : t.call = .usage esim →
      KeyMove c s t s (.observing copy status)
  | finds {esim : Nat} {eventType key : String} {copy : Esim} {status : EsimStatus}
      {v : LifecycleEvent} : t.call = .event esim eventType key → t.pc = .loaded copy status →
      s.eventOf copy.id key = some v → KeyMove c s t s (.answered v false)
  | misses {copy : Esim} {status : EsimStatus} : t.pc = .loaded copy status →
      KeyMove c s t s (.missed copy status)
  | creates {esim : Nat} {eventType key : String} {copy : Esim} {status : EsimStatus}
      {s' : LifecycleDb} : t.call = .event esim eventType key → t.pc = .missed copy status →
      s.createClientEvent copy status eventType key = .ok s' →
      KeyMove c s t s' (.answered (LifecycleDb.clientEvent copy.id eventType key) true)
  | caches {esim : Nat} {u : UsageCache} {pc : KeyPc} :
      pc = .recorded [] ∨ (∃ copy status p, pc = .overwriting copy status p) →
      KeyMove c s t { s with spend := saveUsage s.spend esim u } pc
  | overwrites {esim : Nat} {p : ProviderStatus} :
      KeyMove c s t (s.saveStatus esim p.target) (.recording [] (p.events esim s.spend.now))
  | records {v : LifecycleEvent} {recorded left : List LifecycleEvent} :
      t.pc = .recording recorded (v :: left) →
      KeyMove c s t (s.record v) (.recording (recorded ++ [v]) left)
  | ends {recorded : List LifecycleEvent} : t.pc = .recording recorded [] →
      KeyMove c s t s (.recorded recorded)

section Move

variable {c : AutoTopupSettings} {s s' : LifecycleDb} {t : KeyThread c} {pc' : KeyPc}

theorem load_move {pc : KeyPc} (h : load s t.call = some pc) : KeyMove c s t s pc := by
  unfold load at h
  split at h
  · rename_i esim eventType key hcall
    split at h
    · cases h
      exact .raises
    · rename_i copy hfind
      cases h
      exact .loads hcall (by simpa using Table.prop_of_find? hfind)
  · rename_i esim hcall
    split at h
    · cases h
      exact .raises
    · cases h
      exact .observes hcall
  · cases h

theorem lookUpEvent_move (hcall : t.call = .event esim eventType key)
    (hpc : t.pc = .loaded copy status) :
    KeyMove c s t s (s.lookUpEvent copy status eventType key) := by
  unfold LifecycleDb.lookUpEvent
  split
  · exact .raises
  · split
    · rename_i v hfind
      exact .finds hcall hpc hfind
    · exact .misses hpc

theorem eventStep_move {pc : KeyPc} (hpc : t.pc = pc) (h : eventStep s t.call pc = some (s', pc')) :
    KeyMove c s t s' pc' := by
  unfold eventStep at h
  split at h
  · rename_i esim eventType key copy status hcall
    cases h
    exact lookUpEvent_move hcall hpc
  · rename_i esim eventType key copy status hcall
    split at h
    · cases h
      exact .raises
    · rename_i hcreate
      cases h
      exact .creates hcall hpc hcreate
  · cases h

theorem usageStep_move (h : usageStep s t.pc x = some (s', pc')) :
    KeyMove c s t s' pc' := by
  unfold usageStep at h
  split at h
  · split at h
    · cases h
      exact .caches (.inl rfl)
    · cases h
      refine .caches ?_
      split
      · exact .inl rfl
      · exact .inr ⟨_, _, _, rfl⟩
  · cases h
    exact .overwrites
  · rename_i hpc
    cases h
    exact .ends hpc
  · rename_i hpc
    cases h
    exact .records hpc
  · cases h

theorem keyStep_move (h : keyStep c s t x = some (s', pc')) : KeyMove c s t s' pc' := by
  unfold keyStep at h
  split at h
  · rename_i u y hpc
    obtain ⟨⟨spend, u'⟩, hs, hr⟩ := Option.map_eq_some_iff.1 h
    cases hr
    exact .spends hpc hs
  · cases h
  · split at h
    · cases h
      exact .dies
    · cases h
  · split at h
    · cases h
      exact .raises
    · cases h
  · obtain ⟨pc, hload, hr⟩ := Option.map_eq_some_iff.1 h
    cases hr
    exact load_move hload
  · rename_i hpc
    exact eventStep_move hpc h
  · rename_i hpc
    exact eventStep_move hpc h
  · exact usageStep_move h

end Move

/-! ## The invariant -/

structure KeyInv (s : LifecycleDb) : Prop where
  spend : SpendInv s.spend
  credit : CreditInv s.spend
  /-- No client made a top-up under a key the system derives. -/
  manual : ∀ w ∈ s.spend.topups, IsSystemTopupKey w.idempotencyKey → s.manual w.id = false
  /-- What a client made is there. -/
  made : ∀ i, s.manual i = true → ∃ w ∈ s.spend.topups, w.id = i
  events : EventsInv s
  purchased : ∀ e ∈ s.spend.esims, purchasedEvent e.id ∈ s.events

/-- The top-up a call has reserved, or was given. -/
def held : SpendPc → Option Topup
  | .replayed (.topup w) => some w
  | pc =>
    match own pc with
    | some (.topup w) => some w
    | _ => none

/-- A call of `purchase`: whatever it holds has its key, and is in the table. -/
structure Purchases (s : SpendDb) (a : PurchaseArgs) (u : SpendThread) : Prop where
  keyed : Keyed a u
  held : ∀ w, held u.pc = some w →
    w.idempotencyKey = a.idempotencyKey ∧ ∃ w' ∈ s.topups, SameTopup w w'

theorem purchases_start (s : SpendDb) (a : PurchaseArgs) : Purchases s a ⟨.purchase a, .asked⟩ := by
  refine ⟨keyed_start a, ?_⟩
  intro w hw
  cases hw

theorem held_cases {pc : SpendPc} {w : Topup} (h : held pc = some w) :
    pc = .replayed (.topup w) ∨ own pc = some (.topup w) := by
  unfold held at h
  split at h
  · cases h
    exact .inl rfl
  · split at h
    · rename_i hown
      cases h
      exact .inr hown
    · cases h

theorem purchases_step {c : SpendSettings} {s s' : SpendDb} {a : PurchaseArgs} {u u' : SpendThread}
    (h : Purchases s a u) (hL : SpendLocal s u) (hL' : SpendLocal s' u')
    (hm : SpendMove c s u s' u'.pc) (hcall : u'.call = u.call) : Purchases s' a u' := by
  have hkeyed := keyed_step h.keyed hL hm hcall
  refine ⟨hkeyed, ?_⟩
  intro w hw
  rcases held_cases hw with hpc | hown
  · obtain ⟨hmem, _, hkey⟩ := keyed_returns hkeyed hL hL' hm hcall (.inl hpc)
    exact ⟨hkey, w, hmem, .refl w⟩
  · obtain ⟨v, hv, hkey⟩ := hkeyed.own _ hown
    cases hv
    exact ⟨hkey, w, hL'.stored _ hown, .refl w⟩

theorem Purchases.frame {s s' : SpendDb} {a : PurchaseArgs} {u : SpendThread} (h : Purchases s a u)
    (hkept : ∀ w ∈ s.topups, ∃ w' ∈ s'.topups, SameTopup w w') : Purchases s' a u := by
  refine ⟨h.keyed, ?_⟩
  intro w hw
  obtain ⟨hkey, v, hv, hsame⟩ := h.held w hw
  obtain ⟨v', hv', hsame'⟩ := hkept v hv
  exact ⟨hkey, v', hv', hsame.trans hsame'⟩

/-- The purchase a call is, if it is one. -/
def spendCall {c : AutoTopupSettings} : KeyCall c → Option SpendCall
  | .spend call => some call
  | .evaluation e => some (.purchase e.plan.args)
  | _ => none

def ownOf : KeyPc → Option Row
  | .spending u => own u.pc
  | _ => none

/-- The eSIM a recording of a client's event goes on with. -/
def copyOf : KeyPc → Option Esim
  | .loaded copy _ => some copy
  | .missed copy _ => some copy
  | _ => none

/-- The events a call has recorded for the system or the provider. -/
def noted : KeyPc → List LifecycleEvent
  | .recording recorded _ => recorded
  | .recorded events => events
  | _ => []

/-- The events a call has left to record. -/
def owed : KeyPc → List LifecycleEvent
  | .recording _ left => left
  | _ => []

/-- The event a client was answered with. -/
def answer : KeyPc → Option LifecycleEvent
  | .answered v _ => some v
  | _ => none

/-- What a call relies on. -/
structure KeyLocal {c : AutoTopupSettings} (s : LifecycleDb) (t : KeyThread c) : Prop where
  spending : ∀ u, t.pc = .spending u → spendCall t.call = some u.call ∧ SpendLocal s.spend u
    ∧ ∀ a, u.call = .purchase a → Purchases s.spend a u
  /-- A client whose purchase holds a row did not ask for a key of the system. -/
  client : ∀ u a w, t.pc = .spending u → t.call = .spend (.purchase a) → held u.pc = some w →
    ¬ IsSystemTopupKey a.idempotencyKey
  copy : ∀ copy, copyOf t.pc = some copy → ∀ esim eventType key,
    t.call = .event esim eventType key → copy.id = esim
  noted : ∀ v ∈ noted t.pc, v ∈ s.events
  owed : ∀ v ∈ owed t.pc, IsSystemEvent v
  answer : ∀ v, answer t.pc = some v → ¬ IsSystemEventKey v.esim v.idempotencyKey

/-- Two calls have not reserved one row. -/
def KeyApart {c : AutoTopupSettings} (t u : KeyThread c) : Prop :=
  ∀ row row', ownOf t.pc = some row → ownOf u.pc = some row' → row.source ≠ row'.source

/--
A step on which the keys stay reserved: no client asks for a key the system
derives, and the order whose eSIMs are made has a price.
-/
structure Unreserved {c : AutoTopupSettings} (_ : LifecycleDb) (t : KeyThread c) (_ : KeyInput) :
    Prop where
  topup : ∀ a, t.call = .spend (.purchase a) → ¬ IsSystemTopupKey a.idempotencyKey
  event : ∀ esim eventType key, t.call = .event esim eventType key → ¬ IsSystemEventKey esim key
  price : ∀ u a o sale, t.pc = .spending u → u.pc = .persisting (.order a o) sale →
    0 < o.retailPriceUsd

/-- What a step does, to the database and to what other calls rely on. -/
structure KeyEffect {c : AutoTopupSettings} (s : LifecycleDb) (t : KeyThread c) (s' : LifecycleDb)
    (t' : KeyThread c) : Prop where
  inv : KeyInv s'
  local' : KeyLocal s' t'
  events : Keeps s s'
  topups : ∀ w ∈ s.spend.topups, ∃ w' ∈ s'.spend.topups, SameTopup w w'
  kept : ∀ row, Stored s.spend row → (∀ r, ownOf t.pc = some r → r.source ≠ row.source) →
    Stored s'.spend row
  owns : ∀ row', ownOf t'.pc = some row' →
    (∃ row, ownOf t.pc = some row ∧ row.source = row'.source)
      ∨ s.spend.purchase? row'.source = none

/-! ## A step of a purchase -/

section Spending

variable {c : AutoTopupSettings} {s : LifecycleDb} {t : KeyThread c} {u u' : SpendThread}
  {spend : SpendDb}

/-- What a purchase relies on is about its thread. -/
theorem keyLocal_spending (hpc : t.pc = .spending u)
    (hspending : spendCall t.call = some u.call ∧ SpendLocal s.spend u
      ∧ ∀ a, u.call = .purchase a → Purchases s.spend a u)
    (hclient : ∀ a w, t.call = .spend (.purchase a) → held u.pc = some w →
      ¬ IsSystemTopupKey a.idempotencyKey) : KeyLocal s t := by
  refine ⟨?_, ?_, ?_, ?_, ?_, ?_⟩ <;> rw [hpc]
  · intro v hv
    cases hv
    exact hspending
  · intro v a w hv
    cases hv
    exact hclient a w
  · intro copy hcopy
    cases hcopy
  · intro v hv
    cases hv
  · intro v hv
    cases hv
  · intro v hv
    cases hv

/-- The row a step reserves is new, under the key of the call. -/
theorem reserved_of_move {w : Topup} (hL : SpendLocal s.spend u)
    (hm : SpendMove c.spend s.spend u spend u'.pc) (h : LifecycleDb.reservedBy u'.pc = some w) :
    ∃ a, u.call = .purchase a ∧ w.idempotencyKey = a.idempotencyKey ∧ w ∈ spend.topups
      ∧ ∀ v ∈ s.spend.topups, v.id ≠ w.id := by
  have hpc : ∃ a package, u'.pc = .requesting (.topup a package w) := by
    unfold LifecycleDb.reservedBy at h
    split at h
    · rename_i a package v hpc
      cases h
      exact ⟨a, package, hpc⟩
    · cases h
  obtain ⟨a, package, hpc⟩ := hpc
  rw [hpc] at hm
  cases hm with
  | opensTopup hreserving hr =>
    have hfrom := hL.call
    unfold FromCall at hfrom
    rw [hreserving] at hfrom
    obtain ⟨topups, p, books, e, hi, rfl, _, _, _, _, _, hkey, _⟩ := reserveTopup_fresh hr
    exact ⟨a, hfrom, hkey, (Table.mem_insert hi).2 (.inr rfl),
      fun v hv hid => Table.apart_of_insert hi hv (.inl hid)⟩

theorem creditSafe_of_unreserved (hok : Unreserved s t x) (hpc : t.pc = .spending u)
    (hcall : spendCall t.call = some u.call) : CreditSafe u := by
  refine ⟨?_, fun a o sale h => hok.price u a o sale hpc h⟩
  intro a ha hkey
  rw [ha] at hcall
  cases hc : t.call with
  | spend call =>
    rw [hc] at hcall
    cases hcall
    exact hok.topup a hc (.inl hkey)
  | evaluation e =>
    rw [hc] at hcall
    cases hcall
    obtain ⟨_, _, _, hplan, _, _⟩ := prepare_buy e.decided
    exact evaluationKey_ne ⟨_, _, _, hplan⟩ hkey
  | event esim eventType key =>
    rw [hc] at hcall
    cases hcall
  | usage esim =>
    rw [hc] at hcall
    cases hcall

theorem isManual_call (hcall : spendCall t.call = some u.call) (hmanual : t.call.isManual = true) :
    ∃ a, t.call = .spend (.purchase a) ∧ u.call = .purchase a := by
  cases hc : t.call with
  | spend call =>
    rw [hc] at hcall hmanual
    cases hcall
    cases hu : u.call with
    | purchase a => exact ⟨a, rfl, rfl⟩
    | _ =>
      rw [hu] at hmanual
      cases hmanual
  | _ =>
    rw [hc] at hmanual
    cases hmanual

/-- What a step makes manual is the row it reserves, under a client's key. -/
theorem manualAfter_cases (hok : Unreserved s t x) (hL : SpendLocal s.spend u)
    (hcall : spendCall t.call = some u.call) (hm : SpendMove c.spend s.spend u spend u'.pc) :
    s.manualAfter t.call.isManual u'.pc = s.manual
      ∨ ∃ w ∈ spend.topups, (∀ v ∈ s.spend.topups, v.id ≠ w.id)
        ∧ ¬ IsSystemTopupKey w.idempotencyKey
        ∧ s.manualAfter t.call.isManual u'.pc = Function.update s.manual w.id true := by
  unfold LifecycleDb.manualAfter
  cases hreserved : LifecycleDb.reservedBy u'.pc with
  | none => exact .inl rfl
  | some w =>
    dsimp only
    by_cases hmanual : t.call.isManual = true
    · obtain ⟨a, ha, hkey, hmem, hfresh⟩ := reserved_of_move hL hm hreserved
      obtain ⟨a', hclient, ha'⟩ := isManual_call hcall hmanual
      rw [ha] at ha'
      cases ha'
      refine .inr ⟨w, hmem, hfresh, ?_, if_pos hmanual⟩
      rw [hkey]
      exact hok.topup a hclient
    · exact .inl (if_neg hmanual)

theorem effect_spends {y : SpendInput} (h : KeyInv s) (hL : KeyLocal s t) (hok : Unreserved s t x)
    (hpc : t.pc = .spending u) (hs : spendStep c.spend s.spend u y = some (spend, u')) :
    KeyEffect s t (s.spent t.call.isManual u'.pc spend) { t with pc := .spending u' } := by
  obtain ⟨hcall, hLu, hpurchases⟩ := hL.spending u hpc
  obtain ⟨hm, hsame⟩ := spendStep_move hs
  have he := stepEffect h.spend hLu hm hsame
  obtain ⟨hcredit, hx⟩ :=
    credit_step h.credit hLu hm hsame (creditSafe_of_unreserved hok hpc hcall)
  have hevents : EventsInv { s with spend, manual := s.manualAfter t.call.isManual u'.pc } :=
    ⟨h.events.system, h.events.client⟩
  obtain ⟨hinv, hkept, hmade, hspend, hmanual⟩ :=
    @notePurchased_fold _ (s.newEsims spend) hevents
  have hown : ownOf t.pc = own u.pc := by rw [hpc]; rfl
  -- a row that is there has a system's key only if nobody made it by hand
  have hold : ∀ w ∈ spend.topups, IsSystemTopupKey w.idempotencyKey → s.manual w.id = false := by
    intro w hw hkey
    rcases hx.only w hw with ⟨v, hv, hsame⟩ | ⟨_, hfresh⟩
    · rw [hsame.id]
      exact h.manual v hv (hsame.idempotencyKey ▸ hkey)
    · rw [Bool.eq_false_iff]
      intro htrue
      obtain ⟨v, hv, hid⟩ := h.made _ htrue
      exact hfresh v hv hid
  refine ⟨⟨?_, ?_, ?_, ?_, hinv, ?_⟩, keyLocal_spending rfl ?_ ?_, ?_, ?_, ?_, ?_⟩
  · rw [LifecycleDb.spent, hspend]
    exact he.inv
  · rw [LifecycleDb.spent, hspend]
    exact hcredit
  · intro w hw hkey
    rw [LifecycleDb.spent, hspend] at hw
    rw [LifecycleDb.spent, hmanual]
    rcases manualAfter_cases hok hLu hcall hm with heq | ⟨v, hv, _, hclient, heq⟩
    · rw [heq]
      exact hold w hw hkey
    · rw [heq]
      by_cases hid : w.id = v.id
      · obtain rfl : w = v := Table.eq_of_clash hw hv (.inl hid)
        exact absurd hkey hclient
      · dsimp only
        rw [Function.update_of_ne hid]
        exact hold w hw hkey
  · intro i hi
    rw [LifecycleDb.spent, hmanual] at hi
    rw [LifecycleDb.spent, hspend]
    have hsurvives : s.manual i = true → ∃ w ∈ spend.topups, w.id = i := by
      intro htrue
      obtain ⟨v, hv, hid⟩ := h.made i htrue
      obtain ⟨v', hv', hsame⟩ := hx.topups v hv
      exact ⟨v', hv', hsame.id.trans hid⟩
    rcases manualAfter_cases hok hLu hcall hm with heq | ⟨v, hv, _, _, heq⟩
    · rw [heq] at hi
      exact hsurvives hi
    · rw [heq] at hi
      by_cases hid : i = v.id
      · exact ⟨v, hv, hid.symm⟩
      · dsimp only at hi
        rw [Function.update_of_ne hid] at hi
        exact hsurvives hi
  · intro e he'
    rw [LifecycleDb.spent, hspend] at he'
    cases hfind : s.spend.esims.find? (·.id = e.id) with
    | none =>
      refine hmade e (List.mem_filter.2 ⟨he', ?_⟩)
      rw [hfind]
      rfl
    | some e₀ =>
      have hid : e₀.id = e.id := by simpa using Table.prop_of_find? hfind
      have hstands := h.purchased e₀ (Table.mem_of_find? hfind)
      rw [hid] at hstands
      exact hkept _ hstands
  · refine ⟨by rw [hsame]; exact hcall, ?_, ?_⟩
    · rw [LifecycleDb.spent, hspend]
      exact he.local'
    · intro a ha
      rw [LifecycleDb.spent, hspend]
      exact purchases_step (hpurchases a (hsame ▸ ha)) hLu he.local' hm hsame
  · intro a w hclient _
    exact hok.topup a hclient
  · exact hkept
  · rw [LifecycleDb.spent, hspend]
    exact hx.topups
  · intro row hrow hne
    rw [LifecycleDb.spent, hspend]
    exact he.kept row hrow (hown ▸ hne)
  · intro row' hrow'
    rw [hown]
    exact he.owns row' hrow'

end Spending

/-! ## The other steps -/

/-- A step beside the purchases: of the ledger's rows it writes columns of eSIMs at most. -/
structure Aside (s s' : LifecycleDb) : Prop where
  books : s'.spend.books = s.spend.books
  orders : s'.spend.orders = s.spend.orders
  topups : s'.spend.topups = s.spend.topups
  esims : ∀ e ∈ s.spend.esims, ∃ e' ∈ s'.spend.esims, SameEsim e e'
  fresh : NoNewEsim s.spend s'.spend
  manual : s'.manual = s.manual
  inv : EventsInv s'
  events : Keeps s s'

namespace Aside

variable {s s' s'' : LifecycleDb}

/-- A step that leaves the rows of the ledger alone. -/
theorem of_spend (hspend : s'.spend = s.spend) (hmanual : s'.manual = s.manual)
    (hinv : EventsInv s') (hevents : Keeps s s') : Aside s s' := by
  refine ⟨by rw [hspend], by rw [hspend], by rw [hspend], ?_, ?_, hmanual, hinv, hevents⟩
  · exact Extends.sameEsims (by rw [hspend])
  · exact noNewEsim_of_eq (by rw [hspend])

theorem refl (h : EventsInv s) : Aside s s := .of_spend rfl rfl h fun _ => id

theorem trans (h : Aside s s') (h' : Aside s' s'') : Aside s s'' := by
  refine ⟨h'.books.trans h.books, h'.orders.trans h.orders, h'.topups.trans h.topups, ?_, ?_,
    h'.manual.trans h.manual, h'.inv, fun v hv => h'.events v (h.events v hv)⟩
  · intro e he
    obtain ⟨e', he', hsame⟩ := h.esims e he
    obtain ⟨e'', he'', hsame'⟩ := h'.esims e' he'
    exact ⟨e'', he'', hsame'.id.trans hsame.id, hsame'.order.trans hsame.order⟩
  · intro e'' he''
    obtain ⟨e', he', hsame'⟩ := h'.fresh e'' he''
    obtain ⟨e, he, hsame⟩ := h.fresh e' he'
    exact ⟨e, he, hsame'.id.trans hsame.id, hsame'.order.trans hsame.order⟩

theorem saveStatus (h : EventsInv s) (esim : Nat) (target : EsimStatus) :
    Aside s (s.saveStatus esim target) :=
  .of_spend rfl rfl ⟨h.system, h.client⟩ fun _ => id

theorem record (h : EventsInv s) {v : LifecycleEvent} (hv : IsSystemEvent v) :
    Aside s (s.record v) :=
  have hr := record_recorded h hv
  .of_spend hr.spend hr.manual hr.inv hr.kept

theorem updateEsims (h : EventsInv s) {p : Esim → Bool} {f : Esim → Esim} {hf : Table.Keeps f}
    (hsame : ∀ e, SameEsim e (f e)) :
    Aside s { s with spend := { s.spend with esims := s.spend.esims.update p f hf } } := by
  obtain ⟨hx, hfresh⟩ := @extends_updateEsims s.spend p f hf hsame
  exact ⟨rfl, rfl, rfl, hx.esims, hfresh, rfl, ⟨h.system, h.client⟩, fun _ => id⟩

theorem transition {current : EsimStatus} (h : EventsInv s)
    (hs : s.transition esim current target = .ok s') : Aside s s' := by
  unfold LifecycleDb.transition at hs
  split at hs
  · cases hs
    exact .refl h
  · split at hs
    · cases hs
    cases hs
    have hsave := saveStatus h esim target
    exact hsave.trans (.record hsave.inv (.status esim target s.spend.now))

theorem applyClientSideEffects (h : EventsInv s)
    (hs : s.applyClientSideEffects copy status eventType = .ok s') :
    Aside s s' := by
  have hsame : ∀ e, SameEsim e (LifecycleDb.confirmed s.spend.now e) := fun _ => ⟨rfl, rfl⟩
  unfold LifecycleDb.applyClientSideEffects at hs
  split at hs
  · split at hs
    · exact transition h hs
    · cases hs
      exact .refl h
  · split at hs
    · split at hs
      · exact transition h hs
      · cases hs
        exact .refl h
    · split at hs
      · split at hs
        · cases hs
          exact updateEsims h hsame
        · cases hs
          exact .refl h
      · cases hs
        exact .refl h

/-- A client's event under a key of its own. -/
theorem createClientEvent (h : EventsInv s) (hkey : ¬ IsSystemEventKey copy.id key)
    (hs : s.createClientEvent copy status eventType key = .ok s') : Aside s s' := by
  unfold LifecycleDb.createClientEvent at hs
  split at hs
  · cases hs
  split at hs
  · cases hs
  rename_i events hi
  have hinv := clientEvent_inserted h hkey hi
  have hmade : Aside s { s with events } :=
    .of_spend rfl rfl hinv fun v hv => (Table.mem_insert hi).2 (.inl hv)
  exact hmade.trans (applyClientSideEffects hinv hs)

end Aside

section Others

variable {c : AutoTopupSettings} {s s' : LifecycleDb} {t t' : KeyThread c}

/-- A call that is no purchase. -/
def isSpending : KeyPc → Bool
  | .spending _ => true
  | _ => false

theorem keyLocal_beside (hpc : isSpending t.pc = false)
    (hcopy : ∀ copy, copyOf t.pc = some copy → ∀ esim eventType key,
      t.call = .event esim eventType key → copy.id = esim)
    (hnoted : ∀ v ∈ noted t.pc, v ∈ s.events) (howed : ∀ v ∈ owed t.pc, IsSystemEvent v)
    (hans : ∀ v, answer t.pc = some v → ¬ IsSystemEventKey v.esim v.idempotencyKey) :
    KeyLocal s t := by
  refine ⟨?_, ?_, hcopy, hnoted, howed, hans⟩
  · intro u hu
    rw [hu] at hpc
    cases hpc
  · intro u a w hu
    rw [hu] at hpc
    cases hpc

/-- A call that is at its end relies on nothing. -/
theorem keyLocal_ended (hpc : isSpending t.pc = false) (hcopy : copyOf t.pc = none)
    (hnoted : noted t.pc = []) (howed : owed t.pc = []) (hans : answer t.pc = none) :
    KeyLocal s t := by
  refine keyLocal_beside hpc ?_ ?_ ?_ ?_
  · intro copy h
    rw [hcopy] at h
    cases h
  · intro v hv
    rw [hnoted] at hv
    cases hv
  · intro v hv
    rw [howed] at hv
    cases hv
  · intro v hv
    rw [hans] at hv
    cases hv

/-- A call that goes on with an eSIM it has loaded. -/
theorem keyLocal_copy (hpc : isSpending t.pc = false) (hcopy : copyOf t.pc = some copy)
    (hnoted : noted t.pc = []) (howed : owed t.pc = []) (hans : answer t.pc = none)
    (hid : ∀ esim eventType key, t.call = .event esim eventType key → copy.id = esim) :
    KeyLocal s t := by
  refine keyLocal_beside hpc ?_ ?_ ?_ ?_
  · intro copy' h
    rw [hcopy] at h
    cases h
    exact hid
  · intro v hv
    rw [hnoted] at hv
    cases hv
  · intro v hv
    rw [howed] at hv
    cases hv
  · intro v hv
    rw [hans] at hv
    cases hv

/-- A client is answered with an event. -/
theorem keyLocal_answer {v : LifecycleEvent} {created : Bool} (hpc : t.pc = .answered v created)
    (hkey : ¬ IsSystemEventKey v.esim v.idempotencyKey) : KeyLocal s t := by
  refine keyLocal_beside ?_ ?_ ?_ ?_ ?_ <;> rw [hpc]
  · rfl
  · intro copy hcopy
    cases hcopy
  · intro w hw
    cases hw
  · intro w hw
    cases hw
  · intro w hw
    cases hw
    exact hkey

/-- A call that records events. -/
theorem keyLocal_recording (hpc : isSpending t.pc = false) (hcopy : copyOf t.pc = none)
    (hnoted : ∀ v ∈ noted t.pc, v ∈ s.events) (howed : ∀ v ∈ owed t.pc, IsSystemEvent v)
    (hans : answer t.pc = none) : KeyLocal s t := by
  refine keyLocal_beside hpc ?_ hnoted howed ?_
  · intro copy h
    rw [hcopy] at h
    cases h
  · intro v hv
    rw [hans] at hv
    cases hv

/-- A step beside the purchases keeps the invariant. -/
theorem KeyInv.aside (h : KeyInv s) (ha : Aside s s') : KeyInv s' := by
  refine ⟨?_, ?_, ?_, ?_, ha.inv, ?_⟩
  · exact h.spend.same (ha.books ▸ h.spend.books) (fun _ => by rw [ha.books]) ha.orders ha.topups
  · have hx : Extends (fun _ => False) s.spend s'.spend := .of_rows ha.orders ha.topups ha.esims
    exact h.credit.extends hx ha.fresh fun _ hf => hf.elim
  · intro w hw hkey
    rw [ha.topups] at hw
    rw [ha.manual]
    exact h.manual w hw hkey
  · intro i hi
    rw [ha.manual] at hi
    rw [ha.topups]
    exact h.made i hi
  · intro e' he'
    obtain ⟨e, he, hsame⟩ := ha.fresh e' he'
    rw [hsame.id]
    exact ha.events _ (h.purchased e he)

theorem KeyEffect.aside (h : KeyInv s) (ha : Aside s s') (hL : KeyLocal s' t')
    (hnone : ownOf t'.pc = none) : KeyEffect s t s' t' := by
  refine ⟨h.aside ha, hL, ha.events, ?_, ?_, ?_⟩
  · intro w hw
    rw [ha.topups]
    exact ⟨w, hw, .refl w⟩
  · intro row hrow _
    cases row with
    | order o => rw [stored_order] at hrow ⊢; rwa [ha.orders]
    | topup u => rw [stored_topup] at hrow ⊢; rwa [ha.topups]
  · intro row hrow
    rw [hnone] at hrow
    cases hrow

/-- **What a step of a call does.** -/
theorem keyEffect (h : KeyInv s) (hL : KeyLocal s t) (hok : Unreserved s t x) {pc' : KeyPc}
    (hs : keyStep c s t x = some (s', pc')) :
    KeyEffect s t s' { t with pc := pc' } := by
  cases keyStep_move hs with
  | spends hpc hstep => exact effect_spends h hL hok hpc hstep
  | raises => exact .aside h (.refl h.events) (keyLocal_ended rfl rfl rfl rfl rfl) rfl
  | dies => exact .aside h (.refl h.events) (keyLocal_ended rfl rfl rfl rfl rfl) rfl
  | @loads esim eventType key copy hcall hid =>
    refine .aside h (.refl h.events) (keyLocal_copy rfl rfl rfl rfl rfl ?_) rfl
    intro esim' eventType' key' hcall'
    cases hcall.symm.trans hcall'
    exact hid
  | observes _ => exact .aside h (.refl h.events) (keyLocal_ended rfl rfl rfl rfl rfl) rfl
  | @finds esim eventType key copy status v hcall hpc hfind =>
    refine .aside h (.refl h.events) (keyLocal_answer rfl ?_) rfl
    obtain ⟨_, hesim, hkey⟩ := eventOf_some hfind
    rw [hesim, hkey, hL.copy copy (by rw [hpc]; rfl) _ _ _ hcall]
    exact hok.event _ _ _ hcall
  | misses hpc =>
    exact .aside h (.refl h.events)
      (keyLocal_copy rfl rfl rfl rfl rfl (hL.copy _ (by rw [hpc]; rfl))) rfl
  | @creates esim eventType key copy status _ hcall hpc hcreate =>
    have hkey : ¬ IsSystemEventKey copy.id key := by
      rw [hL.copy copy (by rw [hpc]; rfl) _ _ _ hcall]
      exact hok.event _ _ _ hcall
    exact .aside h (.createClientEvent h.events hkey hcreate) (keyLocal_answer rfl hkey) rfl
  | @caches esim u pc hto =>
    have hsame : ∀ e, SameEsim e (cached u e) := fun _ => ⟨rfl, rfl⟩
    rcases hto with rfl | ⟨copy, status, p, rfl⟩
    · exact .aside h (.updateEsims h.events hsame) (keyLocal_ended rfl rfl rfl rfl rfl) rfl
    · exact .aside h (.updateEsims h.events hsame) (keyLocal_ended rfl rfl rfl rfl rfl) rfl
  | @overwrites esim p =>
    refine .aside h (.saveStatus h.events _ _) (keyLocal_recording rfl rfl nofun ?_ rfl) rfl
    intro v hv
    rcases List.mem_cons.1 hv with rfl | hv
    · exact .status _ _ _
    · split at hv
      · obtain rfl := List.mem_singleton.1 hv
        exact .unknown _ _
      · cases hv
  | @records v recorded left hpc =>
    have howed : ∀ w ∈ v :: left, IsSystemEvent w := by
      intro w hw
      refine hL.owed w ?_
      rw [hpc]
      exact hw
    have hr := record_recorded h.events (howed v List.mem_cons_self)
    refine .aside h (.record h.events (howed v List.mem_cons_self))
      (keyLocal_recording rfl rfl ?_ ?_ rfl) rfl
    · intro w hw
      rcases List.mem_append.1 hw with hw | hw
      · exact hr.kept w (hL.noted w (by rw [hpc]; exact hw))
      · obtain rfl := List.mem_singleton.1 hw
        exact hr.made
    · exact fun w hw => howed w (List.mem_cons_of_mem _ hw)
  | @ends recorded hpc =>
    refine .aside h (.refl h.events) (keyLocal_recording rfl rfl ?_ nofun rfl) rfl
    intro w hw
    exact hL.noted w (by rw [hpc]; exact hw)

end Others

end Roamkit.Esims.Proof
