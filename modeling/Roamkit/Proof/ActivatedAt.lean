import Roamkit.Esims.ActivatedAt
import Roamkit.Proof.StatusChanges

/-!
# The first activation is the one that is shown

Only a transition saves `activated`, and it records an event under a key with the time of the
save. As long as no client has such a key, the event stands for that save and no other.
-/

namespace Roamkit.Esims.Proof

open Lib Billing Spend Billing.Proof

variable {s : LifecycleDb} {createdAt : Nat → String → Time} {saves : List StatusSave}

/-- The events of activations are the saves of that status, each under its key and with its time. -/
structure ActivatedInv (s : LifecycleDb) (createdAt : Nat → String → Time)
    (saves : List StatusSave) : Prop where
  events : EventsInv s
  /-- No client says that an eSIM was activated. -/
  clients : ∀ v ∈ s.events, v.source = .client → v.eventType ≠ activatedEventType
  /-- An event of an activation is that of a save, and has its time. -/
  stamped : ∀ v ∈ s.events, v.eventType = activatedEventType →
    ∃ t, v = statusEvent v.esim .activated t ∧ createdAt v.esim v.idempotencyKey = t
      ∧ ⟨v.esim, .activated, t⟩ ∈ saves
  /-- A save of the status has its event. -/
  saved : ∀ w ∈ saves, w.status = .activated → statusEvent w.esim .activated w.time ∈ s.events
  /-- The times are such as a `datetime` holds. -/
  years : ∀ w ∈ saves, Isoformat.InYears w.time
  /-- A row that has the status was given it. -/
  status : ∀ e, s.status e = .activated → ∃ w ∈ saves, w.esim = e ∧ w.status = .activated

/-! ## Keys of activations -/

variable {status target : EsimStatus} {v : LifecycleEvent} {s' : LifecycleDb} {copy : Esim}

theorem statusKey_inj {esim : Nat} {t u : Time} (ht : Isoformat.InYears t)
    (hu : Isoformat.InYears u) (h : statusKey esim target t = statusKey esim target u) : t = u := by
  have cancel : ∀ front a b : String, front ++ a = front ++ b → a = b := by
    intro front a b hab
    have hlist := congrArg String.toList hab
    rw [String.toList_append, String.toList_append] at hlist
    exact String.toList_injective (List.append_cancel_left hlist)
  exact Isoformat.isoformat_inj ht hu (cancel _ _ _ h)

theorem statusEvent_type {esim : Nat} {t : Time}
    (h : (statusEvent esim target t).eventType = activatedEventType) : target = .activated := by
  by_contra hne
  have hvalue : ∀ target : EsimStatus, target ≠ .activated →
      "system.status." ++ target.value ≠ activatedEventType := by
    intro target
    cases target <;> decide
  exact hvalue target hne h

theorem usageUnknownEvent_type (esim : Nat) (t : Time) :
    (usageUnknownEvent esim t).eventType ≠ activatedEventType := by
  show "provider.usage_unknown" ≠ activatedEventType
  decide

/-- The time of a save is that of its event. -/
theorem ActivatedInv.time (h : ActivatedInv s createdAt saves) {w : StatusSave} (hw : w ∈ saves)
    (hstatus : w.status = .activated) :
    createdAt w.esim (statusKey w.esim .activated w.time) = w.time := by
  obtain ⟨t, heq, htime, hmem⟩ := h.stamped _ (h.saved w hw hstatus) rfl
  have hkey : statusKey w.esim .activated w.time = statusKey w.esim .activated t :=
    congrArg LifecycleEvent.idempotencyKey heq
  have hsame := statusKey_inj (h.years w hw) (h.years _ hmem) hkey
  have htime' : createdAt w.esim (statusKey w.esim .activated w.time) = t := htime
  rw [htime', hsame]

/-! ## What a step inserts -/

theorem mem_record {w : LifecycleEvent} (h : w ∈ (s.record v).events) :
    w ∈ s.events ∨ w = v ∧ s.eventOf v.esim v.idempotencyKey = none := by
  unfold LifecycleDb.record at h
  split at h
  · exact .inl h
  · rename_i hnone
    split at h
    · exact .inl h
    · rename_i events hinsert
      rcases (Table.mem_insert hinsert).1 h with hold | rfl
      · exact .inl hold
      · exact .inr ⟨rfl, hnone⟩

theorem eventOf_of_mem (h : v ∈ s.events) : s.eventOf v.esim v.idempotencyKey ≠ none := by
  intro hnone
  refine Table.not_of_find? hnone h ?_
  rw [decide_eq_true rfl, decide_eq_true rfl]
  rfl

/-- What is inserted now has the time of now. -/
def Stamps (s : LifecycleDb) (createdAt : Nat → String → Time) : Prop :=
  ∀ esim key, s.eventOf esim key = none → createdAt esim key = s.spend.now

namespace ActivatedInv

/-- The times of the events that stand are kept. -/
theorem stamp {s : TimedDb} (now : Time) (h : ActivatedInv s.db s.createdAt saves) :
    ActivatedInv s.db (s.stamp now) saves := by
  refine ⟨h.events, h.clients, ?_, h.saved, h.years, h.status⟩
  intro v hv htype
  obtain ⟨t, heq, htime, hmem⟩ := h.stamped v hv htype
  refine ⟨t, heq, ?_, hmem⟩
  unfold TimedDb.stamp
  rw [if_neg (eventOf_of_mem hv)]
  exact htime

/-- The columns the invariant is not about may change. -/
theorem of_same (h : ActivatedInv s createdAt saves) (hevents : s'.events = s.events)
    (hstatus : s'.status = s.status) : ActivatedInv s' createdAt saves := by
  refine ⟨⟨?_, ?_⟩, ?_, ?_, ?_, h.years, ?_⟩
  · rw [hevents]
    exact h.events.system
  · rw [hevents]
    exact h.events.client
  · rw [hevents]
    exact h.clients
  · rw [hevents]
    exact h.stamped
  · rw [hevents]
    exact h.saved
  · rw [hstatus]
    exact h.status

/-- Another status is saved. -/
theorem saveStatus (h : ActivatedInv s createdAt saves) {esim : Nat} {now : Time}
    (hnow : Isoformat.InYears now) (hne : target ≠ .activated) :
    ActivatedInv (s.saveStatus esim target) createdAt (⟨esim, target, now⟩ :: saves) := by
  refine ⟨⟨h.events.system, h.events.client⟩, h.clients, ?_, ?_, ?_, ?_⟩
  · intro v hv htype
    obtain ⟨t, heq, htime, hmem⟩ := h.stamped v hv htype
    exact ⟨t, heq, htime, List.mem_cons_of_mem _ hmem⟩
  · intro w hw hstatus
    rcases List.mem_cons.1 hw with rfl | hw
    · exact absurd hstatus hne
    · exact h.saved w hw hstatus
  · intro w hw
    rcases List.mem_cons.1 hw with rfl | hw
    · exact hnow
    · exact h.years w hw
  · intro e he
    have he' : Function.update s.status esim target e = .activated := he
    by_cases heq : e = esim
    · rw [heq, Function.update_self] at he'
      exact absurd he' hne
    · rw [Function.update_of_ne heq] at he'
      obtain ⟨w, hw, hrest⟩ := h.status e he'
      exact ⟨w, List.mem_cons_of_mem _ hw, hrest⟩

/-- An event of another kind is recorded. -/
theorem record (h : ActivatedInv s createdAt saves) (hv : IsSystemEvent v)
    (hne : v.eventType ≠ activatedEventType) : ActivatedInv (s.record v) createdAt saves := by
  have hrecorded := record_recorded h.events hv
  refine ⟨hrecorded.inv, ?_, ?_, ?_, h.years, ?_⟩
  · intro w hw hsource
    rcases mem_record hw with hold | ⟨rfl, -⟩
    · exact h.clients w hold hsource
    · exact hne
  · intro w hw htype
    rcases mem_record hw with hold | ⟨rfl, -⟩
    · exact h.stamped w hold htype
    · exact absurd htype hne
  · intro w hw hstatus
    exact hrecorded.kept _ (h.saved w hw hstatus)
  · rw [record_status]
    exact h.status

/-- `activated` is saved and recorded. -/
theorem activates (h : ActivatedInv s createdAt saves) {esim : Nat} {now : Time}
    (hnow : Isoformat.InYears now) (hstamp : s.eventOf esim (statusKey esim .activated now) = none →
      createdAt esim (statusKey esim .activated now) = now) :
    ActivatedInv ((s.saveStatus esim .activated).record (statusEvent esim .activated now)) createdAt
      (⟨esim, .activated, now⟩ :: saves) := by
  have hrecorded :=
    @record_recorded (s.saveStatus esim .activated) _ ⟨h.events.system, h.events.client⟩
    (.status esim .activated now)
  refine ⟨hrecorded.inv, ?_, ?_, ?_, ?_, ?_⟩
  · intro w hw hsource
    rcases mem_record hw with hold | ⟨rfl, -⟩
    · exact h.clients w hold hsource
    · cases hsource
  · intro w hw htype
    rcases mem_record hw with hold | ⟨rfl, hnone⟩
    · obtain ⟨t, heq, htime, hmem⟩ := h.stamped w hold htype
      exact ⟨t, heq, htime, List.mem_cons_of_mem _ hmem⟩
    · exact ⟨now, rfl, hstamp hnone, List.mem_cons_self⟩
  · intro w hw hstatus
    rcases List.mem_cons.1 hw with rfl | hw
    · exact hrecorded.made
    · exact hrecorded.kept _ (h.saved w hw hstatus)
  · intro w hw
    rcases List.mem_cons.1 hw with rfl | hw
    · exact hnow
    · exact h.years w hw
  · intro e he
    rw [record_status] at he
    have he' : Function.update s.status esim .activated e = .activated := he
    by_cases heq : e = esim
    · exact ⟨_, List.mem_cons_self, heq.symm, rfl⟩
    · rw [Function.update_of_ne heq] at he'
      obtain ⟨w, hw, hrest⟩ := h.status e he'
      exact ⟨w, List.mem_cons_of_mem _ hw, hrest⟩

/-- A client's event under a key of its own is inserted. -/
theorem client (h : ActivatedInv s createdAt saves) {esim : Nat} {eventType key : String}
    {events : Table LifecycleEvent} (htype : eventType ∈ clientEventAllowlist)
    (hkey : ¬ IsSystemEventKey esim key)
    (hinsert : s.events.insert? (LifecycleDb.clientEvent esim eventType key) = some events) :
    ActivatedInv { s with events } createdAt saves := by
  have hother : eventType ≠ activatedEventType := by
    intro heq
    rw [heq] at htype
    revert htype
    decide
  refine ⟨clientEvent_inserted h.events hkey hinsert, ?_, ?_, ?_, h.years, h.status⟩
  · intro v hv hsource
    rcases (Table.mem_insert hinsert).1 hv with hold | rfl
    · exact h.clients v hold hsource
    · exact hother
  · intro v hv hactivated
    rcases (Table.mem_insert hinsert).1 hv with hold | rfl
    · exact h.stamped v hold hactivated
    · exact absurd hactivated hother
  · intro w hw hstatus
    exact (Table.mem_insert hinsert).2 (.inl (h.saved w hw hstatus))

/-- `transition`, to another status than that of the object. -/
theorem transition (h : ActivatedInv s createdAt saves) (hnow : Isoformat.InYears s.spend.now)
    (hstamp : Stamps s createdAt) {esim : Nat} {current : EsimStatus} (hne : current ≠ target)
    (ht : s.transition esim current target = .ok s') :
    ActivatedInv s' createdAt (⟨esim, s'.status esim, s.spend.now⟩ :: saves) := by
  unfold LifecycleDb.transition at ht
  rw [if_neg hne] at ht
  split at ht
  · cases ht
  cases ht
  have hstatus : ((s.saveStatus esim target).record (statusEvent esim target s.spend.now)).status
      esim = target := by
    rw [record_status]
    exact Function.update_self _ _ _
  rw [hstatus]
  by_cases htarget : target = .activated
  · rw [htarget]
    exact h.activates hnow (hstamp _ _)
  · have hsaved : ActivatedInv (s.saveStatus esim target) createdAt _ := h.saveStatus hnow htarget
    exact hsaved.record (.status _ _ _) fun hc => htarget (statusEvent_type hc)

/-- `_apply_client_side_effects` saves a status when it gives the object another. -/
theorem sideEffects (h : ActivatedInv s createdAt saves) (hnow : Isoformat.InYears s.spend.now)
    (hstamp : Stamps s createdAt) {eventType : String}
    (he : s.applyClientSideEffects copy status eventType = .ok s') :
    ActivatedInv s' createdAt (if clientTarget status eventType = status then saves
      else ⟨copy.id, s'.status copy.id, s.spend.now⟩ :: saves) := by
  have hkept : ∀ {s₁}, s₁.events = s.events → s₁.status = s.status
    → clientTarget status eventType = status →
      ActivatedInv s₁ createdAt (if clientTarget status eventType = status then saves
        else ⟨copy.id, s₁.status copy.id, s.spend.now⟩ :: saves) := by
    intro s₁ hevents hstatus htarget
    rw [if_pos htarget]
    exact h.of_same hevents hstatus
  unfold LifecycleDb.applyClientSideEffects at he
  by_cases hopened : eventType = "install.opened"
  · rw [if_pos hopened] at he
    by_cases hpurchased : status = .purchased
    · rw [if_pos hpurchased] at he
      have htarget : clientTarget status eventType = .installationStarted :=
        if_pos ⟨hopened, hpurchased⟩
      have hne : status ≠ .installationStarted := by
        rw [hpurchased]
        decide
      rw [htarget, if_neg (Ne.symm hne)]
      exact h.transition hnow hstamp hne he
    · rw [if_neg hpurchased] at he
      cases he
      refine hkept rfl rfl ?_
      have hnot : eventType ≠ "install.completed" := by
        rw [hopened]
        decide
      unfold clientTarget
      rw [if_neg (fun hc => hpurchased hc.2), if_neg (fun hc => hnot hc.1)]
  · rw [if_neg hopened] at he
    by_cases hcompleted : eventType = "install.completed"
    · rw [if_pos hcompleted] at he
      by_cases hstarted : status = .purchased ∨ status = .installationStarted
      · rw [if_pos hstarted] at he
        have htarget : clientTarget status eventType = .installed := by
          unfold clientTarget
          rw [if_neg (fun hc => hopened hc.1), if_pos ⟨hcompleted, hstarted⟩]
        have hne : status ≠ .installed := by
          rcases hstarted with hs | hs <;> rw [hs] <;> decide
        rw [htarget, if_neg (Ne.symm hne)]
        exact h.transition hnow hstamp hne he
      · rw [if_neg hstarted] at he
        cases he
        refine hkept rfl rfl ?_
        unfold clientTarget
        rw [if_neg (fun hc => hopened hc.1), if_neg (fun hc => hstarted hc.2)]
    · rw [if_neg hcompleted] at he
      have htarget : clientTarget status eventType = status := by
        unfold clientTarget
        rw [if_neg (fun hc => hopened hc.1), if_neg (fun hc => hcompleted hc.1)]
      split at he
      · split at he <;> cases he <;> exact hkept rfl rfl htarget
      · cases he
        exact hkept rfl rfl htarget

/-- The transaction of `record_client_event`. -/
theorem createClientEvent (h : ActivatedInv s createdAt saves)
    (hnow : Isoformat.InYears s.spend.now) (hstamp : Stamps s createdAt) {eventType key : String}
    (htype : eventType ∈ clientEventAllowlist) (hkey : ¬ IsSystemEventKey copy.id key)
    (he : s.createClientEvent copy status eventType key = .ok s') :
    ActivatedInv s' createdAt (if clientTarget status eventType = status then saves
      else ⟨copy.id, s'.status copy.id, s.spend.now⟩ :: saves) := by
  unfold LifecycleDb.createClientEvent at he
  split at he
  · cases he
  split at he
  · cases he
  rename_i events hinsert
  have hinserted := h.client htype hkey hinsert
  have hstamp' : Stamps { s with events } createdAt := by
    intro e k hnone
    by_cases hold : s.eventOf e k = none
    · exact hstamp e k hold
    · exfalso
      obtain ⟨v, hv⟩ := Option.ne_none_iff_exists'.1 hold
      obtain ⟨hmem, hesim, hkey'⟩ := eventOf_some hv
      have hthere : v ∈ ({ s with events } : LifecycleDb).events :=
        (Table.mem_insert hinsert).2 (.inl hmem)
      refine eventOf_of_mem hthere ?_
      rw [hesim, hkey']
      exact hnone
  exact sideEffects (s := { s with events }) hinserted hnow hstamp' he

/-- The events of a status the provider reported. -/
theorem recordUsage (h : ActivatedInv s createdAt saves) (esim : Nat) (p : ProviderStatus) :
    ActivatedInv (s.recordUsage esim p) createdAt saves := by
  have htarget : p.target ≠ .activated := by cases p <;> decide
  have hrecords : ∀ vs : List LifecycleEvent,
    (∀ v ∈ vs, IsSystemEvent v ∧ v.eventType ≠ activatedEventType) →
      ∀ s₁, ActivatedInv s₁ createdAt saves
        → ActivatedInv (vs.foldl LifecycleDb.record s₁) createdAt saves := by
    intro vs hvs
    induction vs with
    | nil => exact fun _ h₁ => h₁
    | cons v vs ih =>
      intro s₁ h₁
      obtain ⟨hv, hne⟩ := hvs v List.mem_cons_self
      exact ih (fun w hw => hvs w (List.mem_cons_of_mem _ hw)) _ (h₁.record hv hne)
  unfold LifecycleDb.recordUsage
  refine hrecords _ ?_ s h
  intro v hv
  unfold ProviderStatus.events at hv
  rcases List.mem_cons.1 hv with rfl | hv
  · exact ⟨.status _ _ _, fun hc => htarget (statusEvent_type hc)⟩
  · split at hv
    · rw [List.mem_singleton.1 hv]
      exact ⟨.unknown _ _, usageUnknownEvent_type _ _⟩
    · cases hv

end ActivatedInv

/-! ## A step of a request -/

/-- The event a request is about to create is of a type a client may send. -/
def ListedEvent (t : StatusThread) : Prop :=
  ∀ copy status eventType key, t.pc = .missed copy status eventType key
    → eventType ∈ clientEventAllowlist

/-- The clock shows a year of the calendar, and the client's key is none the service derives. -/
def OwnKeys (_ : TimedDb) (t : StatusThread) (x : StatusInput) : Prop :=
  (∀ now, x = .go now → Isoformat.InYears now)
    ∧ ∀ copy status eventType key, t.pc = .missed copy status eventType key
      → ¬ IsSystemEventKey copy.id key

theorem listed_stop (t : StatusThread) (e : Exc) : ListedEvent (t.stop e) :=
  fun _ _ _ _ hpc => nomatch hpc

theorem listed_next (t : StatusThread) (copy : Esim) (status : EsimStatus) :
    ListedEvent (t.next copy status) :=
  fun _ _ _ _ hpc => nomatch hpc

section Step

variable {t t' : StatusThread} {db : LifecycleDb} {now : Time} {esim : Nat}
  {before after : EsimStatus}

/-- The record of a step on an object, from what the object held to what it holds. -/
theorem noteSave_go {s s' : TimedDb} (hloaded : t.pc.loaded? = some (esim, before))
    (hsaved : t'.pc.saved? = some after) :
    noteSave s t (.go now) s' t' saves
      = if after = before then saves else ⟨esim, s'.db.status esim, now⟩ :: saves := by
  unfold noteSave
  rw [hloaded, hsaved]

theorem noteSave_not_loaded {s s' : TimedDb} (hloaded : t.pc.loaded? = none) :
    noteSave s t (.go now) s' t' saves = saves := by
  unfold noteSave
  rw [hloaded]

theorem noteSave_not_saved {s s' : TimedDb} (hsaved : t'.pc.saved? = none) :
    noteSave s t (.go now) s' t' saves = saves := by
  unfold noteSave
  rw [hsaved]
  cases t.pc.loaded? <;> rfl

theorem beginCall_activated {s : TimedDb} {call : StatusCall}
    (h : ActivatedInv (s.db.atTime now) (s.stamp now) saves) (hnow : Isoformat.InYears now)
    (hstamp : Stamps (s.db.atTime now) (s.stamp now)) (hpc : t.pc = .holding copy status)
    (hs : beginCall (s.db.atTime now) t copy status call = (db, t')) :
    ActivatedInv db (s.stamp now) (noteSave s t (.go now) ⟨db, s.stamp now⟩ t' saves)
      ∧ ListedEvent t' := by
  have hloaded : t.pc.loaded? = some (copy.id, status) := by
    rw [hpc]
    rfl
  -- a call that saves nothing leaves the object as it was, or stops
  have hkept : ∀ u : StatusThread, u.pc.saved? = some status ∨ u.pc.saved? = none →
      ActivatedInv (s.db.atTime now) (s.stamp now)
        (noteSave s t (.go now) ⟨s.db.atTime now, s.stamp now⟩ u saves) := by
    intro u hu
    rcases hu with hu | hu
    · rw [noteSave_go hloaded hu, if_pos rfl]
      exact h
    · rw [noteSave_not_saved hu]
      exact h
  cases call with
  | event eventType key =>
    unfold beginCall at hs
    dsimp only at hs
    by_cases hlisted : eventType ∈ clientEventAllowlist
    · rw [if_neg (not_not.2 hlisted)] at hs
      split at hs
      · cases hs
        exact ⟨hkept _ (.inl rfl), listed_next _ _ _⟩
      · cases hs
        refine ⟨hkept _ (.inl rfl), ?_⟩
        intro copy' status' eventType' key' hmissed
        cases hmissed
        exact hlisted
    · rw [if_pos hlisted] at hs
      cases hs
      exact ⟨hkept _ (.inr rfl), listed_stop _ _⟩
  | transition target =>
    unfold beginCall at hs
    dsimp only at hs
    cases hstep : (s.db.atTime now).transition copy.id status target with
    | error e =>
      rw [hstep] at hs
      cases hs
      exact ⟨hkept _ (.inr rfl), listed_stop _ _⟩
    | ok s₁ =>
      rw [hstep] at hs
      cases hs
      refine ⟨?_, listed_next _ _ _⟩
      rw [noteSave_go hloaded rfl]
      by_cases hsame : target = status
      · rw [if_pos hsame]
        rcases transition_cases hstep with ⟨_, rfl⟩ | ⟨hedge, _⟩
        · exact h
        · rw [hsame] at hedge
          exact absurd hedge (not_mem_allowed status)
      · rw [if_neg hsame]
        exact h.transition hnow hstamp (Ne.symm hsame) hstep
  | usage payload =>
    unfold beginCall at hs
    dsimp only at hs
    split at hs
    · cases hs
      exact ⟨hkept _ (.inl rfl), listed_next _ _ _⟩
    · rename_i p _
      split at hs
      · cases hs
        exact ⟨hkept _ (.inl rfl), listed_next _ _ _⟩
      · rename_i hne
        cases hs
        refine ⟨?_, fun _ _ _ _ hmissed => nomatch hmissed⟩
        rw [noteSave_go hloaded rfl, if_neg (Ne.symm hne)]
        have htarget : p.target ≠ .activated := by cases p <;> decide
        have hstatus : ((s.db.atTime now).saveStatus copy.id p.target).status copy.id = p.target :=
          Function.update_self _ _ _
        rw [hstatus]
        exact h.saveStatus hnow htarget

/-- **A step keeps the events of the activations, and its record.** -/
theorem timedStep_activated {s s' : TimedDb} {x : StatusInput}
    (h : ActivatedInv s.db s.createdAt saves) (hlisted : ListedEvent t) (hok : OwnKeys s t x)
    (hs : timedStep s t x = some (s', t')) :
    ActivatedInv s'.db s'.createdAt (noteSave s t x s' t' saves) ∧ ListedEvent t' := by
  unfold timedStep at hs
  cases hstep : statusStep s.db t x with
  | none =>
    rw [hstep] at hs
    cases hs
  | some r =>
    obtain ⟨db, u⟩ := r
    rw [hstep] at hs
    dsimp only at hs
    cases x with
    | fail =>
      cases hs
      unfold statusStep at hstep
      dsimp only at hstep
      split at hstep
      · cases hstep
      · cases hstep
        exact ⟨h, listed_stop _ _⟩
    | go now =>
      cases hs
      have hnow := hok.1 now rfl
      have h₁ : ActivatedInv (s.db.atTime now) (s.stamp now) saves := (h.stamp now).of_same rfl rfl
      have hstamp : Stamps (s.db.atTime now) (s.stamp now) := fun _ _ hnone => if_pos hnone
      unfold statusStep at hstep
      dsimp only at hstep
      cases hpc : t.pc with
      | raised e =>
        rw [hpc] at hstep
        cases hstep
      | asked =>
        rw [hpc] at hstep
        dsimp only at hstep
        rw [noteSave_not_loaded (by rw [hpc]; rfl)]
        split at hstep
        · cases hstep
          exact ⟨h.stamp now, listed_stop _ _⟩
        · cases hstep
          exact ⟨h.stamp now, fun _ _ _ _ hmissed => nomatch hmissed⟩
      | holding copy status =>
        rw [hpc] at hstep
        dsimp only at hstep
        split at hstep
        · cases hstep
        · exact beginCall_activated h₁ hnow hstamp hpc (Option.some.inj hstep)
      | missed copy status eventType key =>
        rw [hpc] at hstep
        dsimp only at hstep
        cases hcreate : (s.db.atTime now).createClientEvent copy status eventType key with
        | error e =>
          rw [hcreate] at hstep
          cases hstep
          refine ⟨?_, listed_stop _ _⟩
          rw [noteSave_not_saved rfl]
          exact h.stamp now
        | ok s₁ =>
          rw [hcreate] at hstep
          cases hstep
          refine ⟨?_, listed_next _ _ _⟩
          have hloaded : t.pc.loaded? = some (copy.id, status) := by
            rw [hpc]
            rfl
          rw [noteSave_go hloaded rfl]
          exact h₁.createClientEvent hnow hstamp (hlisted _ _ _ _ hpc) (hok.2 _ _ _ _ hpc) hcreate
      | overwritten copy previous p =>
        rw [hpc] at hstep
        cases hstep
        rw [noteSave_not_loaded (by rw [hpc]; rfl)]
        exact ⟨h₁.recordUsage copy.id p, listed_next _ _ _⟩

end Step

/-! ## Runs -/

/-- A database in which no eSIM was activated yet, with the events the service records. -/
structure Unactivated (s : TimedDb) : Prop where
  events : EventsInv s.db
  unrecorded : ∀ v ∈ s.db.events, v.eventType ≠ activatedEventType
  status : ∀ e, s.db.status e ≠ .activated

theorem activatedInv_init {s : TimedDb} (h : Unactivated s) : ActivatedInv s.db s.createdAt [] where
  events := h.events
  clients := fun v hv _ => h.unrecorded v hv
  stamped := fun v hv htype => absurd htype (h.unrecorded v hv)
  saved := fun _ hw => nomatch hw
  years := fun _ hw => nomatch hw
  status := fun e he => absurd he (h.status e)

/-- The events of the activations, in every run. -/
theorem activated_invariant :
    Invariant (timedProgram.recorded noteSave) (fun s => Unactivated s.1 ∧ s.2 = [])
    (fun s => OwnKeys s.1) (fun s => ActivatedInv s.1.db s.1.createdAt s.2) (fun _ => ListedEvent)
    fun _ _ => True where
  init := by
    rintro ⟨s, saves⟩ ⟨h, rfl⟩
    exact activatedInv_init h
  start := fun k _ _ _ _ _ hmissed => nomatch hmissed
  apart_start := fun _ _ => trivial
  symm := fun _ => trivial
  step := by
    intro s t x s' t' h hlisted hok hs
    obtain ⟨hstep, hnote⟩ := Program.recorded_step.1 hs
    rw [hnote]
    exact timedStep_activated h hlisted hok hstep
  frame := fun _ _ _ _ hu _ => ⟨hu, trivial⟩

theorem getActivatedAt_eq {s : TimedDb} (h : ActivatedInv s.db s.createdAt saves) (esim : Nat)
    (t : Time) :
    (∃ v ∈ s.activatedEvents esim, s.createdAt v.esim v.idempotencyKey = t)
      ↔ ∃ w ∈ saves, w.esim = esim ∧ w.status = .activated ∧ w.time = t := by
  unfold TimedDb.activatedEvents
  constructor
  · rintro ⟨v, hv, rfl⟩
    rw [List.mem_filter, Bool.and_eq_true, decide_eq_true_eq, decide_eq_true_eq] at hv
    obtain ⟨hmem, hesim, htype⟩ := hv
    obtain ⟨t, heq, htime, hsave⟩ := h.stamped v hmem htype
    exact ⟨_, hsave, hesim, rfl, htime.symm⟩
  · rintro ⟨w, hw, hesim, hstatus, rfl⟩
    refine ⟨statusEvent w.esim .activated w.time, ?_, h.time hw hstatus⟩
    rw [List.mem_filter, Bool.and_eq_true, decide_eq_true_eq, decide_eq_true_eq]
    exact ⟨h.saved w hw hstatus, hesim, rfl⟩

/--
**In every run `activated_at` is the time of the first save of `activated`, and null as long
as there is none.**
-/
theorem activated_at_first {g : Config (TimedDb × List StatusSave) StatusThread}
    (hg : timedProgram.RecordedReach noteSave [] Unactivated OwnKeys g) (esim : Nat) :
    ((g.store.1.getActivatedAt esim).isSome
      ↔ ∃ w ∈ g.store.2, w.esim = esim ∧ w.status = .activated)
      ∧ (∀ t, g.store.1.getActivatedAt esim = some t →
        (∃ w ∈ g.store.2, w.esim = esim ∧ w.status = .activated ∧ w.time = t)
          ∧ ∀ w ∈ g.store.2, w.esim = esim → w.status = .activated → t ≤ w.time)
      ∧ (g.store.1.db.status esim = .activated → (g.store.1.getActivatedAt esim).isSome) := by
  have hinv := (activated_invariant.reach hg).store
  have hmin : ∀ t, g.store.1.getActivatedAt esim = some t →
      (∃ w ∈ g.store.2, w.esim = esim ∧ w.status = .activated ∧ w.time = t)
        ∧ ∀ w ∈ g.store.2, w.esim = esim → w.status = .activated → t ≤ w.time := by
    intro t ht
    obtain ⟨hmem, hleast⟩ := List.min?_eq_some_iff.1 ht
    constructor
    · obtain ⟨v, hv, hvt⟩ := List.mem_map.1 hmem
      exact (getActivatedAt_eq hinv esim t).1 ⟨v, hv, hvt⟩
    · intro w hw hesim hstatus
      obtain ⟨v, hv, hvt⟩ := (getActivatedAt_eq hinv esim w.time).2 ⟨w, hw, hesim, hstatus, rfl⟩
      exact hleast _ (List.mem_map.2 ⟨v, hv, hvt⟩)
  have hsome : (g.store.1.getActivatedAt esim).isSome
      ↔ ∃ w ∈ g.store.2, w.esim = esim ∧ w.status = .activated := by
    constructor
    · intro h
      obtain ⟨t, ht⟩ := Option.isSome_iff_exists.1 h
      obtain ⟨⟨w, hw, hesim, hstatus, -⟩, -⟩ := hmin t ht
      exact ⟨w, hw, hesim, hstatus⟩
    · rintro ⟨w, hw, hesim, hstatus⟩
      obtain ⟨v, hv, -⟩ := (getActivatedAt_eq hinv esim w.time).2 ⟨w, hw, hesim, hstatus, rfl⟩
      rw [Option.isSome_iff_ne_none]
      intro hnone
      rw [List.min?_eq_none_iff.1 hnone |> List.map_eq_nil_iff.1] at hv
      cases hv
  refine ⟨hsome, hmin, ?_⟩
  intro hstatus
  exact hsome.2 (hinv.status esim hstatus)

/-- The database with the new eSIM only, which has no events yet. -/
def timedNewEsim : TimedDb := ⟨withNewEsim, fun _ _ => 0⟩

theorem unactivated_newEsim : Unactivated timedNewEsim where
  events := ⟨fun _ hv => (nomatch hv), fun _ hv => (nomatch hv)⟩
  unrecorded := fun _ hv => nomatch hv
  status := fun _ => by
    show EsimStatus.purchased ≠ .activated
    decide

/-- The provider reports that the new eSIM is in use. -/
def usedAtOnce : List (Act StatusRequest StatusInput) :=
  [.call 0 ⟨1, [.usage "ACTIVE"]⟩, .tick 0 (.go 1), .tick 0 (.go 2), .tick 0 (.go 3)]

/-- The new eSIM is installed and activated, runs out, and is activated again. -/
def activatedTwice : List (Act StatusRequest StatusInput) :=
  [.call 0 ⟨1, [.transition .installed, .transition .activated, .transition .exhausted,
    .transition .activated]⟩,
    .tick 0 (.go 1), .tick 0 (.go 2), .tick 0 (.go 3), .tick 0 (.go 4), .tick 0 (.go 5)]

/-- The check of `OwnKeys`, of a run without client events. -/
def ownKeys? (t : StatusThread) (x : StatusInput) : Bool :=
  (match t.pc with
    | .missed _ _ _ _ => false
    | _ => true)
  && match x with
    | .go now => decide (Isoformat.InYears now)
    | .fail => true

theorem ownKeys_of_check {s : TimedDb} {t : StatusThread} {x : StatusInput}
    (h : ownKeys? t x = true) :
    OwnKeys s t x := by
  unfold ownKeys? at h
  obtain ⟨hevent, hclock⟩ := Bool.and_eq_true_iff.1 h
  constructor
  · rintro now rfl
    exact of_decide_eq_true hclock
  · intro copy status eventType key hpc
    rw [hpc] at hevent
    cases hevent

/-- An eSIM in use, whose `activated_at` is null. -/
theorem used_not_activated : ∃ g : Config (TimedDb × List StatusSave) StatusThread,
    timedProgram.RecordedReach noteSave [] Unactivated OwnKeys g
      ∧ g.store.1.db.status 1 = .inUse ∧ g.store.2 = [⟨1, .inUse, 2⟩]
        ∧ g.store.1.getActivatedAt 1 = none := by
  have hrun : ∃ g, timedProgram.RecordedReach noteSave [] Unactivated OwnKeys g
      ∧ decide (g.store.1.db.status 1 = .inUse ∧ g.store.2 = [⟨1, .inUse, 2⟩]
        ∧ g.store.1.getActivatedAt 1 = none) = true :=
    Program.reachWhere_check (P := timedProgram.recorded noteSave) (fun _ t x => ownKeys? t x)
      (fun _ _ _ => ownKeys_of_check) (s := (timedNewEsim, []))
        ⟨unactivated_newEsim, rfl⟩ usedAtOnce
      (fun g => g.store.1.db.status 1 = .inUse ∧ g.store.2 = [⟨1, .inUse, 2⟩]
        ∧ g.store.1.getActivatedAt 1 = none)
      (by decide)
  obtain ⟨g, hg, hcheck⟩ := hrun
  exact ⟨g, hg, of_decide_eq_true hcheck⟩

theorem activated_at_first_twice : ∃ g : Config (TimedDb × List StatusSave) StatusThread,
    g.store.1.getActivatedAt 1 = some 3 ∧ g.store.2.length = 4
      ∧ ∀ w ∈ g.store.2, w.esim = 1 → w.status = .activated → 3 ≤ w.time := by
  have hrun : ∃ g, timedProgram.RecordedReach noteSave [] Unactivated OwnKeys g
      ∧ decide (g.store.1.getActivatedAt 1 = some 3 ∧ g.store.2.length = 4) = true :=
    Program.reachWhere_check (P := timedProgram.recorded noteSave) (fun _ t x => ownKeys? t x)
      (fun _ _ _ => ownKeys_of_check) (s := (timedNewEsim, []))
        ⟨unactivated_newEsim, rfl⟩ activatedTwice
      (fun g => g.store.1.getActivatedAt 1 = some 3 ∧ g.store.2.length = 4) (by decide)
  obtain ⟨g, hg, hcheck⟩ := hrun
  obtain ⟨hshown, hlength⟩ := of_decide_eq_true hcheck
  exact ⟨g, hshown, hlength, ((activated_at_first hg 1).2.1 3 hshown).2⟩

end Roamkit.Esims.Proof
