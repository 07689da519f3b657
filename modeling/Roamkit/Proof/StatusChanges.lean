import Roamkit.Proof.FirstUsage

/-!
# Changes of a status by requests of their own objects

`transition` looks the edge up from the status its object holds, and the row is written
without a look at it. So a change is along an edge as long as the row still has that
status, or one from which the edge there leads to the same target.
-/

namespace Roamkit.Esims.Proof

open Lib Billing Spend Billing.Proof

variable {s s' : LifecycleDb} {t t' : StatusThread}

/-! ## What a step does to the statuses -/

/-- The status an object holds, and the one its request would give the row next by `transition`. -/
def StatusThread.moves? (t : StatusThread) : Option (EsimStatus × EsimStatus) :=
  match t.pc, t.left with
  | .missed _ status eventType _, _ => some (status, clientTarget status eventType)
  | .holding _ status, .transition target :: _ => some (status, target)
  | _, _ => none

/-- The event a request is about to create can be stored. -/
def EventFits (s : LifecycleDb) (t : StatusThread) : Prop :=
  match t.pc with
  | .missed copy _ eventType key =>
    key.length ≤ 128
      ∧ ∀ e ∈ s.events, ¬ Constraint.clash e (LifecycleDb.clientEvent copy.id eventType key)
  | _ => True

inductive StatusMove (s : LifecycleDb) (t : StatusThread) (x : StatusInput)
    (s' : LifecycleDb) : Prop
  /-- No status is written. -/
  | keeps : s'.status = s.status → StatusMove s t x s'
  /-- By `transition`, along an edge from the status of the object. -/
  | client {copy : Esim} {held target : EsimStatus} : x ≠ .fail → EventFits s t →
      t.pc.copy? = some copy → t.writer = .client →
      StatusThread.moves? t = some (held, target) → target ∈ allowed held →
      s'.status = Function.update s.status copy.id target → StatusMove s t x s'
  /-- By `_overwrite_provider_status`. -/
  | provider {copy : Esim} {target : EsimStatus} : t.pc.copy? = some copy → t.writer = .provider →
      s'.status = Function.update s.status copy.id target → StatusMove s t x s'

theorem beginCall_move {copy : Esim} {status : EsimStatus} {call : StatusCall}
    {left : List StatusCall} {now : Time} (hpc : t.pc = .holding copy status)
    (hleft : t.left = call :: left) (h : beginCall (s.atTime now) t copy status call = (s', t')) :
    StatusMove s t (.go now) s' := by
  have hfits : EventFits s t := by
    rw [EventFits, hpc]
    trivial
  have hcopy : t.pc.copy? = some copy := by
    rw [hpc]
    rfl
  cases call with
  | event eventType key =>
    unfold beginCall at h
    dsimp only at h
    split at h
    · exact .keeps (by rw [← (Prod.mk.inj h).1, atTime_status])
    · split at h
      · exact .keeps (by rw [← (Prod.mk.inj h).1, atTime_status])
      · exact .keeps (by rw [← (Prod.mk.inj h).1, atTime_status])
  | transition target =>
    unfold beginCall at h
    dsimp only at h
    cases hstep : (s.atTime now).transition copy.id status target with
    | error e =>
      rw [hstep] at h
      exact .keeps (by rw [← (Prod.mk.inj h).1, atTime_status])
    | ok s₁ =>
      rw [hstep] at h
      rw [← (Prod.mk.inj h).1]
      rcases transition_cases hstep with ⟨_, heq⟩ | ⟨hedge, hstatus, _⟩
      · exact .keeps (by rw [heq, atTime_status])
      · have hmoves : StatusThread.moves? t = some (status, target) := by
          rw [StatusThread.moves?, hpc, hleft]
        have hwriter : t.writer = .client := by rw [StatusThread.writer, hpc, hleft]
        exact .client nofun hfits hcopy hwriter hmoves hedge hstatus
  | usage payload =>
    unfold beginCall at h
    dsimp only at h
    split at h
    · exact .keeps (by rw [← (Prod.mk.inj h).1, atTime_status])
    · split at h
      · exact .keeps (by rw [← (Prod.mk.inj h).1, atTime_status])
      · rename_i p _ _
        have hwriter : t.writer = .provider := by rw [StatusThread.writer, hpc, hleft]
        refine @StatusMove.provider _ _ _ _ _ p.target hcopy hwriter ?_
        rw [← (Prod.mk.inj h).1]
        rfl

/-- **A step writes no status, or that of its object's row.** -/
theorem statusStep_move {x : StatusInput} (h : statusStep s t x = some (s', t')) :
    StatusMove s t x s' := by
  cases x with
  | fail =>
    unfold statusStep at h
    dsimp only at h
    split at h
    · cases h
    · exact .keeps (by rw [← (Prod.mk.inj (Option.some.inj h)).1])
  | go now =>
    unfold statusStep at h
    dsimp only at h
    cases hpc : t.pc with
    | raised e =>
      rw [hpc] at h
      cases h
    | asked =>
      rw [hpc] at h
      dsimp only at h
      split at h
      · exact .keeps (by rw [← (Prod.mk.inj (Option.some.inj h)).1])
      · exact .keeps (by rw [← (Prod.mk.inj (Option.some.inj h)).1])
    | holding copy status =>
      rw [hpc] at h
      dsimp only at h
      cases hleft : t.left with
      | nil =>
        rw [hleft] at h
        cases h
      | cons call left =>
        rw [hleft] at h
        exact beginCall_move hpc hleft (Option.some.inj h)
    | missed copy status eventType key =>
      rw [hpc] at h
      dsimp only at h
      cases hcreate : (s.atTime now).createClientEvent copy status eventType key with
      | error e =>
        rw [hcreate] at h
        exact .keeps (by rw [← (Prod.mk.inj (Option.some.inj h)).1])
      | ok s₁ =>
        rw [hcreate] at h
        rw [← (Prod.mk.inj (Option.some.inj h)).1]
        rcases (createClientEvent_effect hcreate).status with ⟨_, hstatus⟩ | ⟨hedge, hstatus⟩
        · exact .keeps (by rw [hstatus, atTime_status])
        · have hmoves : StatusThread.moves? t = some (status, clientTarget status eventType) := by
            rw [StatusThread.moves?, hpc]
          refine .client nofun ?_ ?_ ?_ hmoves hedge hstatus
          · obtain ⟨hshort, hunused⟩ := createClientEvent_fits hcreate
            rw [EventFits, hpc]
            exact ⟨hshort, fun e he => hunused e he⟩
          · rw [hpc]
            rfl
          · rw [StatusThread.writer, hpc]
    | overwritten copy previous p =>
      rw [hpc] at h
      refine .keeps ?_
      rw [← (Prod.mk.inj (Option.some.inj h)).1]
      exact (recordUsage_keeps _ _ _).1

/-! ## The record of the changes -/

/-- A change the provider reported, or one along an edge from the status that was stored. -/
def StatusChange.Legal (w : StatusChange) : Prop :=
  w.writer = .provider ∨ w.after ∈ allowed w.before

/-- The recorded changes are legal, and account for the statuses there were at first. -/
structure ChangesInv (s₀ : LifecycleDb) (s : LifecycleDb) (changes : List StatusChange) : Prop where
  legal : ∀ w ∈ changes, StatusChange.Legal w
  status : ∀ esim, s.status esim
    = (newest (changes.map fun w => (w.esim, w.after)) esim).getD (s₀.status esim)

/--
A request that moves a status by `transition`, along an edge from the status its object
holds, finds the row with that status, with the target, or with a status whose edges lead
to the target.
-/
def FindsItsStatus (s : LifecycleDb) (t : StatusThread) (x : StatusInput) : Prop :=
  ∀ copy held target, x ≠ .fail → EventFits s t → t.pc.copy? = some copy →
    StatusThread.moves? t = some (held, target) → target ∈ allowed held →
    s.status copy.id = held ∨ s.status copy.id = target ∨ target ∈ allowed (s.status copy.id)

/-- No status has an edge to itself. -/
theorem not_mem_allowed (status : EsimStatus) : status ∉ allowed status := by
  cases status <;> decide

/-- What is recorded of a write to the row of a request's object. -/
theorem ChangesInv.written {s₀ : LifecycleDb} {changes : List StatusChange} {x : StatusInput}
    {copy : Esim} {target : EsimStatus} (h : ChangesInv s₀ s changes)
    (hcopy : t.pc.copy? = some copy) (hstatus : s'.status = Function.update s.status copy.id target)
    (hlegal : s.status copy.id ≠ target
      → t.writer = .provider ∨ target ∈ allowed (s.status copy.id)) :
    ChangesInv s₀ s' (noteChange s t x s' t' changes) := by
  unfold noteChange
  rw [hcopy]
  dsimp only
  have hafter : s'.status copy.id = target := by rw [hstatus, Function.update_self]
  by_cases hsame : s'.status copy.id = s.status copy.id
  · rw [if_pos hsame]
    refine ⟨h.legal, fun esim => ?_⟩
    rw [← h.status esim, hstatus]
    by_cases hid : esim = copy.id
    · rw [hid, Function.update_self, ← hafter, hsame]
    · rw [Function.update_of_ne hid]
  · rw [if_neg hsame]
    refine ⟨?_, fun esim => ?_⟩
    · intro w hw
      rcases List.mem_cons.1 hw with rfl | hw
      · have hne : s.status copy.id ≠ target := fun heq => hsame (hafter.trans heq.symm)
        rw [StatusChange.Legal, hafter]
        exact hlegal hne
      · exact h.legal w hw
    · rw [List.map_cons]
      by_cases hid : esim = copy.id
      · rw [hid, newest_cons_self]
        rfl
      · rw [newest_cons_other (Ne.symm hid), ← h.status esim, hstatus, Function.update_of_ne hid]

theorem ChangesInv.step {s₀ : LifecycleDb} {changes : List StatusChange} {x : StatusInput}
    (h : ChangesInv s₀ s changes) (hok : FindsItsStatus s t x)
    (hs : statusStep s t x = some (s', t')) :
    ChangesInv s₀ s' (noteChange s t x s' t' changes) := by
  cases statusStep_move hs with
  | keeps hstatus =>
    have hnote : noteChange s t x s' t' changes = changes := by
      unfold noteChange
      split
      · rfl
      · rw [hstatus]
        exact if_pos rfl
    rw [hnote]
    exact ⟨h.legal, fun esim => by rw [hstatus, h.status esim]⟩
  | @client copy held target hgo hfits hcopy _ hmoves hedge hstatus =>
    refine h.written hcopy hstatus fun hne => .inr ?_
    rcases hok copy held target hgo hfits hcopy hmoves hedge with hfound | hfound | hfound
    · -- the check was made on the very status that is stored
      rw [hfound]
      exact hedge
    · exact absurd hfound hne
    · exact hfound
  | provider hcopy hwriter hstatus => exact h.written hcopy hstatus fun _ => .inl hwriter

/-- **When every transition finds its status, every committed change is the provider's or along an
edge.** -/
theorem status_changes_legal {s₀ : LifecycleDb}
    {g : Config (LifecycleDb × List StatusChange) StatusThread}
    (hg : statusProgram.RecordedReach noteChange [] (· = s₀) FindsItsStatus g) :
    (∀ w ∈ g.store.2, StatusChange.Legal w)
      ∧ ∀ esim, g.store.1.status esim
        = (newest (g.store.2.map fun w => (w.esim, w.after)) esim).getD (s₀.status esim) := by
  have hinv : ChangesInv s₀ g.store.1 g.store.2 := by
    induction hg with
    | @idle s hs =>
      obtain ⟨hstore, hrecord⟩ := hs
      unfold Config.idle
      rw [hstore, hrecord]
      exact ⟨fun w hw => absurd hw List.not_mem_nil, fun _ => rfl⟩
    | @tail g g' a _ hok he ih =>
      cases a with
      | call p k =>
        rw [(Program.exec_call he).2.1]
        exact ih
      | tick p x =>
        obtain ⟨t, t', ht, hs, _⟩ := Program.exec_tick he
        obtain ⟨hstep, hnote⟩ := Program.recorded_step.1 hs
        rw [hnote]
        exact ih.step (hok t ht) hstep
  exact ⟨hinv.legal, hinv.status⟩

/-! ## A client that rolls a status back -/

/-- A client loads the eSIM, and usage is reported before its event is created. -/
def overtaken : List (Act StatusRequest StatusInput) :=
  [.call 0 ⟨1, [.event "install.opened" "opened"]⟩, .call 1 ⟨1, [.usage "ACTIVE"]⟩,
    .tick 0 (.go 1), .tick 1 (.go 2), .tick 1 (.go 3), .tick 1 (.go 4), .tick 0 (.go 5),
      .tick 0 (.go 6)]

/-- The same two requests, one after the other. -/
def inTurn : List (Act StatusRequest StatusInput) :=
  [.call 0 ⟨1, [.event "install.opened" "opened"]⟩, .call 1 ⟨1, [.usage "ACTIVE"]⟩,
    .tick 0 (.go 1), .tick 0 (.go 2), .tick 0 (.go 3), .tick 1 (.go 4), .tick 1 (.go 5),
      .tick 1 (.go 6)]

theorem status_rolled_back : ∃ g : Config (LifecycleDb × List StatusChange) StatusThread,
    statusProgram.RecordedReach noteChange [] (· = withNewEsim) (fun _ _ _ => True) g
      ∧ ∃ w ∈ g.store.2, w.writer = .client ∧ w.before = .inUse ∧ w.after = .installationStarted
        ∧ ¬ StatusChange.Legal w := by
  have hrun : ∃ g, (statusProgram.recorded noteChange).ReachWhere
      (fun s => s.1 = withNewEsim ∧ s.2 = []) (fun _ _ _ => True) g
      ∧ decide (g.store.2.head? = some ⟨1, .inUse, .installationStarted, .client⟩) = true :=
    Program.reachWhere_check (P := statusProgram.recorded noteChange) (fun _ _ _ => true)
      (fun _ _ _ _ => trivial) (s := (withNewEsim, [])) ⟨rfl, rfl⟩ overtaken
      (fun g => g.store.2.head? = some ⟨1, .inUse, .installationStarted, .client⟩) (by decide)
  obtain ⟨g, hg, hhead⟩ := hrun
  refine ⟨g, hg, _, List.mem_of_head? (of_decide_eq_true hhead), rfl, rfl, rfl, ?_⟩
  rw [StatusChange.Legal]
  decide

/-- The check of `FindsItsStatus`. -/
def findsItsStatus? (s : LifecycleDb) (t : StatusThread) : Bool :=
  match t.pc.copy?, StatusThread.moves? t with
  | some copy, some (held, target) =>
    !(allowed held).contains target || s.status copy.id = held || s.status copy.id = target
      || (allowed (s.status copy.id)).contains target
  | _, _ => true

theorem findsItsStatus_of_check {x : StatusInput} (h : findsItsStatus? s t = true) :
    FindsItsStatus s t x := by
  intro copy held target _ _ hcopy hmoves hedge
  unfold findsItsStatus? at h
  rw [hcopy, hmoves] at h
  simp only [Bool.or_eq_true, decide_eq_true_eq, List.contains_iff_mem, Bool.not_eq_true'] at h
  rcases h with ((h | h) | h) | h
  · rw [List.contains_iff_mem.2 hedge] at h
    cases h
  · exact .inl h
  · exact .inr (.inl h)
  · exact .inr (.inr h)

theorem status_changes_legal_inTurn : ∃ g : Config (LifecycleDb × List StatusChange) StatusThread,
    g.store.2.length = 2 ∧ (∀ w ∈ g.store.2, StatusChange.Legal w)
      ∧ ∀ esim, g.store.1.status esim
        = (newest (g.store.2.map fun w => (w.esim, w.after)) esim).getD
          (withNewEsim.status esim) := by
  have hrun : ∃ g, statusProgram.RecordedReach noteChange [] (· = withNewEsim) FindsItsStatus g
      ∧ decide (g.store.2.length = 2) = true :=
    Program.reachWhere_check (fun s t _ => findsItsStatus? s.1 t)
      (fun _ _ _ => findsItsStatus_of_check)
      (s := (withNewEsim, [])) ⟨rfl, rfl⟩ inTurn (fun g => g.store.2.length = 2) (by decide)
  obtain ⟨g, hg, hlength⟩ := hrun
  exact ⟨g, of_decide_eq_true hlength, status_changes_legal hg⟩

end Roamkit.Esims.Proof
