import Roamkit.Proof.Versions

/-!
# Disabling a policy

A policy is disabled by its owner or by a transfer of its eSIM, and both set its
status with the flag. An evaluation that was under way may still write: a status
where the schedule has ended, where the funds or the package are missing, and
where a counted purchase was the last. Only the first looks at the flag again, in
`_prepare`. Where no policy is disabled between there and one of the others, the flag
and the status agree in every run; and where none was switched off and on again before
`_prepare` either, no evaluation touches what was disabled since it began.
-/

namespace Roamkit.AutoTopup.Proof

open Lib Spend Billing Billing.Proof

variable {c : AutoTopupSettings}

/-! ## What disabling is -/

/-- The flag and the status of a policy agree. -/
def Agrees (policy : Policy) : Prop := policy.enabled = false ↔ policy.status = .disabled

/-- A write of the owner or of a transfer that leaves the policy disabled. -/
def Disables (id : Uuid) (w : RowWrite PolicyWriter StoredPolicy) : Prop :=
  w.writer ≠ .evaluation ∧ ∃ row, w.after = some row ∧ row.policy.id = id
    ∧ row.policy.enabled = false

/-- The policy was disabled after so many writes. -/
def DisabledSince (s : PolicyDb) (id : Uuid) (since : Nat) : Prop :=
  ∃ w ∈ s.log.drop since, Disables id w.write

/-- Where an evaluation writes the status, the reason or the count and does not look at the flag. -/
inductive Unguarded (row : StoredPolicy) : AutoTopupPc → Prop
  /-- `_on_success`, of a policy that counts. -/
  | count {plan : Plan} {u : Topup} :
      row.policy.renewMode = .fixedCount → Unguarded row (.succeeding plan u)
  /-- `_pause_funds` -/
  | funds : Unguarded row .pausing
  /-- `_block_package` -/
  | package : Unguarded row .blocking

/-- The times at which no policy is disabled under an evaluation. -/
structure HeedsDisabling (s : PolicyDb) (t : PolicyThread) (x : PolicyInput) : Prop where
  /-- Between `_prepare` and a write that does not look at the flag, -/
  outcome : ∀ id e row, t.call = .evaluate id → t.pc = .evaluating e → x = .evaluation .go →
    s.byId id = some row → Unguarded row e.pc → ¬ DisabledSince s id e.prepared
  /-- and before `_prepare`, where the policy is enabled again by then. -/
  before : ∀ id e row, t.call = .evaluate id → t.pc = .evaluating e → x = .evaluation .go →
    e.pc.isPreparing = true → s.byId id = some row → row.policy.enabled = true →
    ¬ DisabledSince s id e.since

/-! ## The invariant -/

/-- A policy is enabled, or was disabled since. -/
def EnabledOr (s : PolicyDb) (id : Uuid) (since : Nat) : Prop :=
  ∀ row ∈ s.policies, row.policy.id = id → row.policy.enabled = true ∨ DisabledSince s id since

/-- What an evaluation relies on. -/
structure Heeds (s : PolicyDb) (id : Uuid) (e : Evaluation) : Prop where
  since : e.since ≤ s.log.length
  prepared : e.prepared ≤ s.log.length
  /-- `_prepare`, or the first read, has found the policy enabled. -/
  enabled : EnabledOr s id e.prepared
  /-- What was disabled since the first read was so since `_prepare`. -/
  after : DisabledSince s id e.since → DisabledSince s id e.prepared

/-- Every evaluation that goes on does. -/
def EvaluationLocal (s : PolicyDb) (t : PolicyThread) : Prop :=
  ∀ id e, t.call = .evaluate id → t.pc = .evaluating e → e.pc.isLive = true → Heeds s id e

variable {s s' : PolicyDb} {id : Uuid} {since : Nat} {writer : PolicyWriter} {e : Evaluation}

theorem DisabledSince.later (h : DisabledSince s id since) (hlog : s.log <+: s'.log) :
    DisabledSince s' id since := by
  obtain ⟨more, hmore⟩ := hlog
  obtain ⟨w, hw, hd⟩ := h
  refine ⟨w, ?_, hd⟩
  rw [← hmore, List.drop_append]
  exact List.mem_append_left _ hw

theorem byId_eq {row : StoredPolicy} (h : row ∈ s.policies) :
    s.byId row.policy.id = some row :=
  Table.find?_of_mem h (by simp) fun _ hx => .inl (of_decide_eq_true hx)

theorem byId_id {row : StoredPolicy} (h : s.byId id = some row) :
    row.policy.id = id :=
  of_decide_eq_true (Table.prop_of_find? (t := s.policies) h)

/-- A row that stands after a step stood before, or is what the step wrote. -/
theorem StepWrites.row (h : StepWrites writer s s') {row : StoredPolicy}
    (hrow : row ∈ s'.policies) :
    row ∈ s.policies ∨ ∃ w, w.write.writer = writer ∧ s'.log = s.log ++ [w]
      ∧ w.write.before = s.policyOf w.esim ∧ w.write.after = some row ∧ Lawful w.write := by
  cases h with
  | none hp _ => exact .inl (hp ▸ hrow)
  | one w hby hl hb ha ho hw =>
    by_cases hesim : row.policy.esim = w.esim
    · refine .inr ⟨w, hby, hl, hb, ?_, hw⟩
      rw [ha, ← hesim]
      exact policyOf_mem.1 hrow
    · refine .inl (policyOf_mem.2 ?_)
      rw [← ho _ hesim]
      exact policyOf_mem.1 hrow

/-- **Only a write that disables makes a policy that was enabled since not so.** -/
theorem EnabledOr.step (h : EnabledOr s id since) (hsince : since ≤ s.log.length)
    (hs : StepWrites writer s s') :
    EnabledOr s' id since := by
  intro row hrow hid
  rcases hs.row hrow with hrow | ⟨w, _, hl, hb, ha, hw⟩
  · exact (h row hrow hid).imp_right (·.later hs.log_prefix)
  · by_cases henabled : row.policy.enabled = true
    · exact .inl henabled
    · rw [Bool.not_eq_true] at henabled
      by_cases hwriter : w.write.writer = .evaluation
      · -- an evaluation leaves the flag as it was
        obtain ⟨esim, write⟩ := w
        dsimp only at hb ha hw hwriter
        cases hw with
        | evaluates policy old hsame =>
          cases ha
          have hold : old ∈ s.policies := Table.mem_of_find? hb.symm
          rcases h old hold hid with hon | hd
          · have hoff : policy.enabled = false := henabled
            rw [hsame, hon] at hoff
            cases hoff
          · exact .inr (hd.later hs.log_prefix)
        | _ => cases hwriter
      · refine .inr ⟨w, ?_, hwriter, row, ha, hid, henabled⟩
        rw [hl, List.drop_append_of_le_length hsince]
        exact List.mem_append_right _ (List.mem_singleton.2 rfl)

/-- A policy that is disabled after a step was so before, or is disabled by the step. -/
theorem DisabledSince.of_step {later : Nat} (h : DisabledSince s' id since)
    (hs : StepWrites writer s s') (hlater : later ≤ s.log.length) :
    DisabledSince s id since ∨ writer ≠ .evaluation ∧ DisabledSince s' id later := by
  obtain ⟨w, hw, hd⟩ := h
  cases hs with
  | none _ hl =>
    rw [hl] at hw
    exact .inl ⟨w, hw, hd⟩
  | one v hby hl _ _ _ _ =>
    rw [hl, List.drop_append] at hw
    rcases List.mem_append.1 hw with hold | hnew
    · exact .inl ⟨w, hold, hd⟩
    · obtain rfl := List.mem_singleton.1 (List.mem_of_mem_drop hnew)
      refine .inr ⟨hby ▸ hd.1, w, ?_, hd⟩
      rw [hl, List.drop_append_of_le_length hlater]
      exact List.mem_append_right _ (List.mem_singleton.2 rfl)

theorem Heeds.step (h : Heeds s id e) (hs : StepWrites writer s s') : Heeds s' id e := by
  refine ⟨h.since.trans hs.log_prefix.length_le, h.prepared.trans hs.log_prefix.length_le,
    h.enabled.step h.prepared hs, ?_⟩
  intro hd
  rcases hd.of_step hs h.prepared with hold | ⟨_, hnew⟩
  · exact (h.after hold).later hs.log_prefix
  · exact hnew

/-- What the owner and a transfer write agrees. -/
theorem Lawful.agrees {w : RowWrite PolicyWriter StoredPolicy} (h : Lawful w)
    (hwriter : w.writer ≠ .evaluation) {row : StoredPolicy} (ha : w.after = some row) :
    Agrees row.policy := by
  cases h with
  | creates cfg =>
    cases ha
    show cfg.enabled = false ↔ cfg.status = .disabled
    unfold PolicyConfig.status
    cases cfg.enabled <;> simp
  | updates cfg =>
    cases ha
    show cfg.enabled = false ↔ cfg.status = .disabled
    unfold PolicyConfig.status
    cases cfg.enabled <;> simp
  | deletes => cases ha
  | transfers =>
    cases ha
    exact ⟨fun _ => rfl, fun _ => rfl⟩
  | evaluates => exact absurd rfl hwriter

theorem succeeded_status {policy : Policy} {now : Time} {u : Topup} {key : String}
    (h : policy.renewMode ≠ .fixedCount) :
    (policy.succeeded c now u key).status = policy.status
      ∧ (policy.succeeded c now u key).reason = policy.reason
      ∧ (policy.succeeded c now u key).remainingCount = policy.remainingCount := by
  refine ⟨?_, ?_, ?_⟩
  · simp [Policy.succeeded, h]
  · simp [Policy.succeeded, h]
  · simp [Policy.succeeded, Policy.countAfter, h]

/-- What an evaluation writes leaves the policy as it was, or has looked at the flag, or has not. -/
theorem Rewrites.restates {s : PolicyDb} {row : StoredPolicy} {pc : AutoTopupPc} {policy : Policy}
    (h : Rewrites c s row pc policy) :
    Unguarded row pc ∨ (pc.isPreparing = true ∧ row.policy.enabled = true)
      ∨ policy.status = row.policy.status ∧ policy.reason = row.policy.reason
        ∧ policy.remainingCount = row.policy.remainingCount := by
  cases h with
  | schedule _ hended =>
    -- `_prepare` pauses only what it has found enabled
    exact .inr (.inl ⟨rfl, prepare_enabled hended fun hp => by cases hp⟩)
  | success =>
    by_cases hcount : row.policy.renewMode = .fixedCount
    · exact .inl (.count hcount)
    · exact .inr (.inr (succeeded_status hcount))
  | funds => exact .inl .funds
  | package => exact .inl .package

/-- A status that is written is never the disabled one. -/
theorem Rewrites.status {row : StoredPolicy} {pc : AutoTopupPc} {policy : Policy}
    (h : Rewrites c s row pc policy) :
    policy.status = row.policy.status ∨ policy.status ≠ .disabled := by
  cases h with
  | schedule => exact .inr fun hdisabled => by cases hdisabled
  | success =>
    by_cases hexhausted : row.policy.renewMode = .fixedCount ∧ row.policy.countAfter = some 0
    · exact .inr (by simp [Policy.succeeded, hexhausted])
    · exact .inl (if_neg hexhausted)
  | funds => exact .inr fun hdisabled => by cases hdisabled
  | package => exact .inr fun hdisabled => by cases hdisabled

theorem firstRead_live {s : AutoTopupDb} {isStaff : Option Bool}
    (h : (firstRead c s isStaff).isLive = true) : s.policy.enabled = true := by
  unfold firstRead at h
  split at h
  · cases h
  rename_i hgo
  rw [not_or, not_not] at hgo
  exact hgo.1

theorem agrees_step {x : AutoTopupInput} (hG : ∀ row ∈ s.policies, Agrees row.policy)
    (hL : EnabledOr s id e.prepared)
    (hok : ∀ row, x = .go → s.byId id = some row → Unguarded row e.pc →
      ¬ DisabledSince s id e.prepared) (hm : EvaluateMove c s id e x s') :
        ∀ row ∈ s'.policies, Agrees row.policy := by
  cases hm with
  | keeps => exact hG
  | @writes old policy spend events hgo hold hw =>
    have hmem : old ∈ s.policies := Table.mem_of_find? hold
    have hid := byId_id hold
    intro row hrow
    obtain ⟨old', hold', rfl⟩ := List.mem_map.1 hrow
    by_cases hesim : old'.policy.esim = old.policy.esim
    · obtain rfl : old' = old := Table.eq_of_clash hold' hmem (.inr hesim)
      rw [rewrite_pos _ (by simp)]
      have hagree := hG old' hmem
      show policy.enabled = false ↔ policy.status = .disabled
      rw [hw.enabled]
      -- a status is written where the policy is enabled, and then it is not the disabled one
      have hon (henabled : old'.policy.enabled = true) :
          old'.policy.enabled = false ↔ policy.status = .disabled := by
        rcases hw.status with hstatus | hstatus
        · rw [hstatus]
          exact hagree
        · simp [henabled, hstatus]
      rcases hw.restates with hr | ⟨_, henabled⟩ | ⟨hstatus, _⟩
      · exact hon ((hL old' hmem hid).resolve_right (hok old' hgo hold hr))
      · exact hon henabled
      · rw [hstatus]
        exact hagree
    · rw [rewrite_neg _ (by simpa using hesim)]
      exact hG old' hold'

/-- A step of an evaluation keeps what it relies on, if `_prepare` has not passed over a
disabling. -/
theorem Heeds.evaluate {e' : Evaluation} {x : AutoTopupInput} (h : Heeds s id e)
    (hstepped : EvaluateStepped c s id e x s' e') (hlive : e'.pc.isLive = true)
    (hbefore : ∀ row, x = .go → e.pc.isPreparing = true → s.byId id = some row →
      row.policy.enabled = true → ¬ DisabledSince s id e.since) : Heeds s' id e' := by
  obtain ⟨hmove, hsince, _, hprepared⟩ := hstepped
  have hw := stepWrites_evaluate hmove
  obtain ⟨hle, hle', hen, hafter⟩ := h.step hw
  rcases hprepared hlive with hsame | ⟨hnow, hgo, hpreparing, row, hrow, henabled⟩
  · rw [← hsince] at hle hafter
    rw [← hsame] at hle' hen hafter
    exact ⟨hle, hle', hen, hafter⟩
  · have hon : EnabledOr s id s.log.length := by
      intro row' hrow' hid'
      have hone := byId_eq hrow'
      rw [hid', hrow] at hone
      exact .inl (Option.some.inj hone ▸ henabled)
    refine ⟨?_, ?_, ?_, fun hd => ?_⟩
    · rw [hsince]
      exact hle
    · rw [hnow]
      exact hw.log_prefix.length_le
    · rw [hnow]
      exact hon.step (Nat.le_refl _) hw
    · -- it was not disabled before `_prepare`, and `_prepare` does not disable it
      rw [hsince] at hd
      rcases hd.of_step hw (Nat.le_refl _) with hold | ⟨hno, _⟩
      · exact absurd hold (hbefore row hgo hpreparing hrow henabled)
      · exact absurd rfl hno

theorem disableInvariant (c : AutoTopupSettings) :
    Invariant (policyProgram c) FreshPolicies HeedsDisabling
      (fun s => ∀ row ∈ s.policies, Agrees row.policy) EvaluationLocal (fun _ _ => True) where
  init h := by
    intro row hrow
    rw [Table.mem_def, h.policies] at hrow
    cases hrow
  start call _ := fun id e _ hpc => by cases hpc
  apart_start _ _ := trivial
  symm _ := trivial
  step := by
    intro s t x s' t' hG hL hok hs
    obtain ⟨writer, hw, hwriter⟩ := policyStep_writes hs
    obtain ⟨hm, hcall⟩ := policyStep_move hs
    generalize hpc : t'.pc = pc at hm
    rw [hpc] at hwriter
    have hother (hnone : pc.evaluation? = none) :
        (∀ row ∈ s'.policies, Agrees row.policy) ∧ EvaluationLocal s' t' := by
      constructor
      · intro row hrow
        rcases hw.row hrow with hrow | ⟨w, hby, _, _, ha, hlawful⟩
        · exact hG row hrow
        · exact hlawful.agrees (fun he => hwriter (hby.symm.trans he) hnone) ha
      · intro id e _ he
        rw [hpc.symm.trans he] at hnone
        cases hnone
    cases hm with
    | idles hnone => exact hother hnone
    | @begins id row isStaff _ hcall' hrow =>
      refine ⟨hG, fun id' e hid he hlive => ?_⟩
      rw [hpc] at he
      cases he
      rw [hcall, hcall'] at hid
      cases hid
      refine ⟨Nat.le_refl _, Nat.le_refl _, fun row' hrow' hid' => .inl ?_, fun hd => hd⟩
      have hsame := byId_eq hrow'
      rw [hid', hrow] at hsame
      cases hsame
      exact firstRead_live hlive
    | @evaluates id e e' y _ hpc' hcall' hx hstep =>
      have hstepped := evaluateStep_move hstep
      have hheeds := hL id e hcall' hpc' hstepped.live
      refine ⟨?_, fun id' e₁ hid he hlive' => ?_⟩
      · refine agrees_step hG hheeds.enabled (fun row hy hrow hr => ?_) hstepped.move
        exact hok.outcome id e row hcall' hpc' (by rw [hx, hy]) hrow hr
      · rw [hpc] at he
        cases he
        rw [hcall, hcall'] at hid
        cases hid
        refine hheeds.evaluate hstepped hlive' fun row hgo hpreparing hrow henabled => ?_
        exact hok.before id e row hcall' hpc' (by rw [hx, hgo]) hpreparing hrow henabled
    | reads => exact hother rfl
    | goesOn _ _ hnone => exact hother hnone
    | upserts => exact hother rfl
    | deletes => exact hother rfl
    | transfers => exact hother rfl
  frame := by
    intro s t x s' t' u _ _ _ hs hLu _
    obtain ⟨writer, hw, _⟩ := policyStep_writes hs
    exact ⟨fun id e hcall hpc hlive => (hLu id e hcall hpc hlive).step hw, trivial⟩

/-! ## Disable wins -/

/-- The flag and the status agree, and an evaluation leaves what was disabled since it began. -/
structure DisableWins (c : AutoTopupSettings) (g : Config PolicyDb PolicyThread) : Prop where
  status : ∀ row ∈ g.store.policies, row.policy.enabled = false ↔ row.policy.status = .disabled
  kept : ∀ p id e t x s' t' row, g.threads p = some t → t.call = .evaluate id →
    t.pc = .evaluating e → HeedsDisabling g.store t x →
    policyStep c g.store t x = some (s', t') → row ∈ g.store.policies → row.policy.id = id →
    DisabledSince g.store id e.since →
    ∃ row' ∈ s'.policies, row'.policy.id = id ∧ row'.policy.status = row.policy.status
      ∧ row'.policy.reason = row.policy.reason
      ∧ row'.policy.remainingCount = row.policy.remainingCount

theorem kept_of_move {x : AutoTopupInput} {row : StoredPolicy} (hheeds : Heeds s id e)
    (houtcome : ∀ row, x = .go → s.byId id = some row → Unguarded row e.pc →
      ¬ DisabledSince s id e.prepared)
    (hbefore : ∀ row, x = .go → e.pc.isPreparing = true → s.byId id = some row →
      row.policy.enabled = true → ¬ DisabledSince s id e.since) (hm : EvaluateMove c s id e x s')
    (hrow : row ∈ s.policies) (hid : row.policy.id = id) (hd : DisabledSince s id e.since) :
    ∃ row' ∈ s'.policies, row'.policy.id = id ∧ row'.policy.status = row.policy.status
      ∧ row'.policy.reason = row.policy.reason
      ∧ row'.policy.remainingCount = row.policy.remainingCount := by
  cases hm with
  | keeps => exact ⟨row, hrow, hid, rfl, rfl, rfl⟩
  | @writes old policy spend events hgo hold hw =>
    obtain rfl : row = old := by
      have hsame := byId_eq hrow
      rw [hid, hold] at hsame
      exact (Option.some.inj hsame).symm
    refine ⟨evaluated policy row, ?_, hid, ?_⟩
    · exact List.mem_map.2 ⟨row, hrow, rewrite_pos _ (by simp)⟩
    · rcases hw.restates with hr | ⟨hpreparing, henabled⟩ | hsame
      · exact absurd (hheeds.after hd) (houtcome row hgo hold hr)
      · exact absurd hd (hbefore row hgo hpreparing hold henabled)
      · exact hsame

/--
**Disabling wins in every run in which no policy is disabled between `_prepare` and a
write that does not look at the flag again, or switched off and on before `_prepare`.**
-/
theorem disable_wins {g : Config PolicyDb PolicyThread}
    (h : (policyProgram c).ReachWhere FreshPolicies HeedsDisabling g) : DisableWins c g := by
  have hholds := (disableInvariant c).reach h
  refine ⟨hholds.store, ?_⟩
  intro p id e t x s' t' row ht hcall hpc hok hs hrow hid hd
  obtain ⟨hm, _⟩ := policyStep_move hs
  generalize t'.pc = pc at hm
  cases hm with
  | @evaluates id' e₁ e' y _ hpc' hcall' hx hstep =>
    rw [hcall] at hcall'
    cases hcall'
    rw [hpc] at hpc'
    cases hpc'
    obtain ⟨hmove, _, hlive, _⟩ := evaluateStep_move hstep
    refine kept_of_move (hholds.thread p t ht id e hcall hpc hlive) ?_ ?_ hmove hrow hid hd
    · intro row hy hrow hr
      exact hok.outcome id e row hcall hpc (by rw [hx, hy]) hrow hr
    · intro row hy hpreparing hrow henabled
      exact hok.before id e row hcall hpc (by rw [hx, hy]) hpreparing hrow henabled
  | begins hasked =>
    rw [hpc] at hasked
    cases hasked
  | reads hasked =>
    rw [hpc] at hasked
    cases hasked
  | upserts hsaving =>
    rw [hpc] at hsaving
    cases hsaving
  | deletes hdeleting =>
    rw [hpc] at hdeleting
    cases hdeleting
  | transfers hasked =>
    rw [hpc] at hasked
    cases hasked
  | idles => exact ⟨row, hrow, hid, rfl, rfl, rfl⟩
  | goesOn => exact ⟨row, hrow, hid, rfl, rfl, rfl⟩

/-! ## An evaluation that wakes a disabled policy -/

/-- Switch the policy off. -/
def switchedOff : UpsertArgs := { twiceOnExpiry with enabled := false }

/-- The owner creates the policy. -/
def creates : List (Act PolicyCall PolicyInput) :=
  reads 1 ++ sends 1 none ++ [.tick 1 (.save firstDraw)]

/-- The owner switches the policy off. -/
def switchesOff (p : Nat) : List (Act PolicyCall PolicyInput) :=
  [.call p (.put switchedOff), .tick p .go] ++ sends p (some 0) ++ [.tick p (.save firstDraw)]

/-- An evaluation decides to buy, and the funds are missing. -/
def runsShort (p : Nat) : List (Act PolicyCall PolicyInput) :=
  .call p (.evaluate alice)
    :: ([.staff none, .go, .go, .spend .go, listsPackage, .spend (.topup ⟨bob, false, none⟩)]
        : List AutoTopupInput).map (.tick p <| .evaluation ·)

/-- A policy that is not enabled is paused, and so not disabled. -/
def isAwake (g : Config PolicyDb PolicyThread) : Bool :=
  g.store.policies.rows.any fun row => !row.policy.enabled && row.policy.status ≠ .disabled

/-- The pause for want of funds takes the place of the owner's. -/
theorem pause_wakes_disabled :
    ¬ ∀ c g, (policyProgram c).Reach FreshPolicies g → DisableWins c g := by
  intro h
  obtain ⟨g, hr, hg⟩ := Program.run_check (policyProgram autoSettings) noPolicies
    (creates ++ runsShort 2 ++ switchesOff 3 ++ [.tick 2 (.evaluation .go)]) isAwake
    (by decide +kernel)
  have hwins := h _ g (Program.reach_run freshPolicies_noPolicies hr)
  obtain ⟨row, hrow, hawake⟩ := List.any_eq_true.1 hg
  rw [Bool.and_eq_true, Bool.not_eq_true'] at hawake
  exact of_decide_eq_true hawake.2 ((hwins.status row hrow).1 hawake.1)

/-- The check of `HeedsDisabling` at one step. -/
def heedsDisabling (s : PolicyDb) (t : PolicyThread) (_ : PolicyInput) : Bool :=
  match t.pc with
  | .evaluating e =>
    (s.log.drop e.since ++ s.log.drop e.prepared).all fun w =>
      w.write.writer = .evaluation || w.write.after.all (·.policy.enabled)
  | _ => true

theorem heedsDisabling_of_check {t : PolicyThread} {x : PolicyInput}
    (h : heedsDisabling s t x = true) : HeedsDisabling s t x := by
  have hnone : ∀ id e w, t.pc = .evaluating e → w ∈ s.log.drop e.since ++ s.log.drop e.prepared →
      ¬ Disables id w.write := by
    rintro id e w hpc hw ⟨hwriter, old, hafter, _, hoff⟩
    unfold heedsDisabling at h
    rw [hpc] at h
    have hone := List.all_eq_true.1 h w hw
    rw [hafter, Option.all_some, hoff] at hone
    simp [hwriter] at hone
  constructor
  · rintro id e row _ hpc _ _ _ ⟨w, hw, hd⟩
    exact hnone id e w hpc (List.mem_append_right _ hw) hd
  · rintro id e row _ hpc _ _ _ _ ⟨w, hw, hd⟩
    exact hnone id e w hpc (List.mem_append_left _ hw) hd

theorem disable_wins_off :
    ∃ g, (policyProgram autoSettings).ReachWhere FreshPolicies HeedsDisabling g
      ∧ (∃ row ∈ g.store.policies, row.policy.status = .disabled) ∧ DisableWins autoSettings g := by
  obtain ⟨g, hr, hg⟩ := Program.reachWhere_check (P := policyProgram autoSettings)
    heedsDisabling (fun _ _ _ h => heedsDisabling_of_check h) freshPolicies_noPolicies
    (creates ++ runsShort 2 ++ [.tick 2 (.evaluation .crash)] ++ switchesOff 3)
    (fun g => g.store.policies.rows.any (·.policy.status = .disabled)) (by decide +kernel)
  obtain ⟨row, hrow, hoff⟩ := List.any_eq_true.1 hg
  exact ⟨g, hr, ⟨row, hrow, of_decide_eq_true hoff⟩, disable_wins hr⟩

end Roamkit.AutoTopup.Proof
