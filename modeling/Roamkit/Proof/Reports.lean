import Roamkit.AutoTopup.Batch
import Roamkit.Proof.Versions

/-!
# What stands of a policy

Between two writes of its owner, or of a transfer, a policy is written by its evaluations
only, and they do not change what was asked for: they stop the policy and count it down. An
evaluation that was under way when its policy was disabled still writes to it, so a policy
that is not enabled may be paused; none that is active is not enabled. So the status pages,
of which one asks for both and one for the status, and the beat agree.
-/

namespace Roamkit.AutoTopup.Proof

open Lib Spend Billing

variable {c : AutoTopupSettings}

/-! ## What was asked for -/

/-- What a policy is asked to do, and the version of it. -/
structure PolicyTerms where
  version : Nat
  id : Uuid
  account : Uuid
  esim : Nat
  packageId : String
  enabled : Bool
  expiryEnabled : Bool
  usageMode : UsageMode
  thresholdMb : Option Nat
  renewMode : RenewMode
  activeUntil : Option Time
deriving DecidableEq

/-- The terms of a row. -/
def termsOf (row : StoredPolicy) : PolicyTerms where
  version := row.version
  id := row.policy.id
  account := row.policy.account
  esim := row.policy.esim
  packageId := row.policy.packageId
  enabled := row.policy.enabled
  expiryEnabled := row.policy.expiryEnabled
  usageMode := row.policy.usageMode
  thresholdMb := row.policy.thresholdMb
  renewMode := row.policy.renewMode
  activeUntil := row.policy.activeUntil

/-- The reasons for which an evaluation stops a policy, each with the status it gives it. -/
inductive StoppedAs : PolicyStatus → PolicyReason → Prop
  | funds : StoppedAs .paused .insufficientFunds
  | count : StoppedAs .paused .countExhausted
  | schedule : StoppedAs .paused .scheduleEnded
  | package : StoppedAs .blocked .packageUnavailable

/-- A count as a later one: there as before, and not more. -/
def CountsDown (before after : Option Nat) : Prop :=
  match before, after with
  | none, none => True
  | some n, some m => m ≤ n
  | _, _ => False

/-- What evaluations make of a row. -/
structure Since (asked row : StoredPolicy) : Prop where
  /-- It does what was asked for. -/
  terms : termsOf row = termsOf asked
  /-- They have stopped it, or left it as it was. -/
  stopped : StoppedAs row.policy.status row.policy.reason
    ∨ row.policy.status = asked.policy.status ∧ row.policy.reason = asked.policy.reason
  count : CountsDown asked.policy.remainingCount row.policy.remainingCount

/-- A row as its owner, or a transfer, leaves it. -/
structure Settled (row : StoredPolicy) : Prop where
  status : row.policy.status = if row.policy.enabled then .active else .disabled
  reason : row.policy.reason = if row.policy.enabled then .none else .manualPause
  /-- What is enabled has something to fire on. -/
  fires : row.policy.enabled = true
    → row.policy.expiryEnabled = true ∨ row.policy.usageMode ≠ .disabled

variable {row : StoredPolicy} {cfg : PolicyConfig} {esim : Nat} {call : PolicyCall}
  {x : PolicyInput} {pc : PolicyPc}

section Since

theorem CountsDown.refl (n : Option Nat) : CountsDown n n := by
  cases n with
  | none => trivial
  | some n => exact Nat.le_refl n

theorem CountsDown.trans {a b d : Option Nat} (h : CountsDown a b)
    (h' : CountsDown b d) : CountsDown a d := by
  cases a with
  | none =>
    cases b with
    | none => exact h'
    | some m => cases h
  | some n =>
    cases b with
    | none => cases h
    | some m =>
      cases d with
      | none => cases h'
      | some k => exact Nat.le_trans h' h

theorem Since.refl (row : StoredPolicy) : Since row row := ⟨rfl, .inr ⟨rfl, rfl⟩, .refl _⟩

theorem Since.trans {a b d : StoredPolicy} (h : Since a b) (h' : Since b d) : Since a d := by
  refine ⟨h'.terms.trans h.terms, ?_, h.count.trans h'.count⟩
  rcases h'.stopped with hstopped | ⟨hstatus, hreason⟩
  · exact .inl hstopped
  · rw [hstatus, hreason]
    exact h.stopped

/-- The count after a success is one less, if there is one. -/
theorem countsDown_after (policy : Policy) :
    CountsDown policy.remainingCount policy.countAfter := by
  unfold Policy.countAfter
  split
  · rename_i hmode
    cases hcount : policy.remainingCount with
    | none => exact absurd hcount (policy.countRequired hmode)
    | some n => exact Nat.sub_le n 1
  · exact .refl _

/-- **An evaluation stops a policy, or counts it down.** -/
theorem Rewrites.since {s : PolicyDb} {pc : AutoTopupPc} {policy : Policy}
    (h : Rewrites c s row pc policy) : Since row (evaluated policy row) := by
  cases h with
  | schedule => exact ⟨rfl, .inl .schedule, .refl _⟩
  | success =>
    refine ⟨rfl, ?_, countsDown_after _⟩
    simp only [evaluated, Policy.succeeded]
    split
    · exact .inl .count
    · exact .inr ⟨rfl, rfl⟩
  | funds => exact ⟨rfl, .inl .funds, .refl _⟩
  | package => exact ⟨rfl, .inl .package, .refl _⟩

end Since

/-! ## Writes -/

/-- An enabled configuration has something to fire on. -/
def Fires (cfg : PolicyConfig) : Prop :=
  cfg.enabled = true → cfg.expiryEnabled = true ∨ cfg.usageMode ≠ .disabled

/-- What each writer does to a policy. -/
inductive PolicyWritten : RowWrite PolicyWriter StoredPolicy → Prop
  | asked {before : Option StoredPolicy} {row : StoredPolicy} :
      Settled row → PolicyWritten ⟨.upsert, before, some row⟩
  | transferred {before row : StoredPolicy} :
      Settled row → row.policy.enabled = false → PolicyWritten ⟨.transfer, some before, some row⟩
  | deleted {before : StoredPolicy} : PolicyWritten ⟨.delete, some before, none⟩
  | evaluated {before row : StoredPolicy} :
      Since before row → PolicyWritten ⟨.evaluation, some before, some row⟩

/-- Every write is what its writer does. -/
def WritesSound (s : PolicyDb) : Prop := ∀ w ∈ s.log, PolicyWritten w.write

/-- The configuration of a request that has passed the checks. -/
def configOf : PolicyPc → Option PolicyConfig
  | .checked _ _ cfg => some cfg
  | .saving _ _ cfg => some cfg
  | _ => none

/-- What a call relies on. -/
def ChecksLocal (_ : PolicyDb) (t : PolicyThread) : Prop :=
  ∀ cfg, configOf t.pc = some cfg → Fires cfg

section Writes

variable {s s' : PolicyDb}

theorem settled_created (h : Fires cfg) (id account : Uuid) (esim : Nat) :
    Settled (cfg.created id account esim) := ⟨rfl, rfl, h⟩

theorem settled_updated (h : Fires cfg) (row : StoredPolicy) : Settled (cfg.updated row) :=
  ⟨rfl, rfl, h⟩

theorem settled_retargeted (account : Uuid) (row : StoredPolicy) :
    Settled (retargeted account row) :=
  ⟨rfl, rfl, fun h => nomatch h⟩

theorem WritesSound.snoc (h : WritesSound s) {w : PolicyWrite} (hw : PolicyWritten w.write)
    (hlog : s'.log = s.log ++ [w]) : WritesSound s' := by
  intro v hv
  rw [hlog] at hv
  rcases List.mem_append.1 hv with hv | hv
  · exact h v hv
  · rw [List.mem_singleton.1 hv]
    exact hw

theorem writesSound_upsert (h : WritesSound s) {a : UpsertArgs} (hcfg : Fires cfg)
    (expected : Option Int) (d : PolicyDraw) : WritesSound (upsertPolicy s a cfg expected d).1 := by
  unfold upsertPolicy
  split
  · split
    · exact h
    · split
      · exact h
      · dsimp only
        split
        · exact h
        · exact h.snoc (.asked (settled_created hcfg _ _ _)) rfl
  · split
    · exact h
    · split
      · exact h
      · exact h.snoc (.asked (settled_updated hcfg _)) rfl

theorem writesSound_delete (h : WritesSound s) (esim : Nat) (expected : Option Int) :
    WritesSound (deletePolicy s esim expected).1 := by
  unfold deletePolicy
  split
  · exact h
  · split
    · exact h
    · exact h.snoc .deleted rfl

theorem writesSound_transfer (h : WritesSound s) {account : Uuid} {user : UserId}
    (htransfer : transferInventory s esim account user = .ok s') : WritesSound s' := by
  unfold transferInventory at htransfer
  split at htransfer
  · cases htransfer
  split at htransfer
  · cases htransfer
    exact h
  · split at htransfer
    · cases htransfer
      exact h
    · cases htransfer
      exact h.snoc (.transferred (settled_retargeted _ _) rfl) rfl

theorem writesSound_evaluate (h : WritesSound s) {id : Uuid} {e : Evaluation} {x : AutoTopupInput}
    (hmove : EvaluateMove c s id e x s') : WritesSound s' := by
  cases hmove with
  | keeps => exact h
  | writes _ _ hw => exact h.snoc (.evaluated hw.since) rfl

/-- The checks let no enabled configuration pass that fires on nothing. -/
theorem fires_of_check {a : UpsertArgs} {isStaff : Option Bool} {now : Time}
    {r : Airalo.HttpReply} (h : a.check c isStaff now r = .ok cfg) : Fires cfg := by
  unfold UpsertArgs.check at h
  split at h
  · cases h
  · cases h
  · split at h
    · cases h
    split at h
    · cases h
    split at h
    · cases h
    split at h
    · cases h
    split at h
    · cases h
    rename_i hfires
    split at h
    · cases h
    split at h
    · cases h
    cases h
    intro henabled
    by_contra hnone
    rw [not_or, not_not] at hnone
    exact hfires ⟨henabled, hnone.1, hnone.2⟩

theorem configOf_begin (h : beginStep c s call x = some (s', pc)) : configOf pc = none := by
  unfold beginStep at h
  split at h
  · split at h
    · cases h
      rfl
    · cases h
      rfl
  · cases h
    rfl
  · cases h
    rfl
  · split at h
    · cases h
      rfl
    · cases h
      rfl
  · split at h
    · cases h
      rfl
    · split at h
      · cases h
        rfl
      · cases h
        rfl
  · cases h
  · split at h
    · cases h
    · cases h
      rfl
  · cases h

theorem configOf_receive {r : Reading} {expected : Option Int}
    (h : receive s call r expected = some pc) : configOf pc = none := by
  unfold receive at h
  split at h
  · cases h
    split <;> rfl
  · cases h
    split <;> rfl
  · cases h

/-- A configuration was there before, or has just passed the checks. -/
theorem configOf_request {pc' : PolicyPc} (h : requestStep c s call pc x = some (s', pc'))
    (hcfg : configOf pc' = some cfg) :
    configOf pc = some cfg ∨ Fires cfg := by
  unfold requestStep at h
  split at h
  · split at h
    · cases h
      cases hcfg
    · obtain ⟨pc₁, hreceive, heq⟩ := Option.map_eq_some_iff.1 h
      cases heq
      rw [configOf_receive hreceive] at hcfg
      cases hcfg
  · split at h
    · split at h
      · cases h
        cases hcfg
      · rename_i hcheck
        cases h
        cases hcfg
        exact .inr (fires_of_check hcheck)
    · cases h
  · split at h
    · cases h
      split at hcfg
      · cases hcfg
      · exact .inl hcfg
    · cases h
  · split at h
    · cases h
      cases hcfg
    · cases h
  · split at h
    · cases h
      cases hcfg
    · cases h
  · cases h

theorem configOf_step {t t' : PolicyThread} (h : policyStep c s t x = some (s', t'))
    (hcfg : configOf t'.pc = some cfg) : configOf t.pc = some cfg ∨ Fires cfg := by
  obtain ⟨call, pc⟩ := t
  unfold policyStep at h
  dsimp only at h
  split at h
  · cases h
    cases hcfg
  · cases h
    cases hcfg
  · obtain ⟨⟨s₁, pc₁⟩, hbegin, heq⟩ := Option.map_eq_some_iff.1 h
    cases heq
    rw [configOf_begin hbegin] at hcfg
    cases hcfg
  · split at h
    · obtain ⟨⟨s₁, e'⟩, _, heq⟩ := Option.map_eq_some_iff.1 h
      cases heq
      cases hcfg
    · cases h
  · obtain ⟨⟨spend, u⟩, _, heq⟩ := Option.map_eq_some_iff.1 h
    cases heq
    cases hcfg
  · split at h
    · cases h
      cases hcfg
    · cases h
  · split at h
    · cases h
      cases hcfg
    · cases h
  · obtain ⟨⟨s₁, pc₁⟩, hrequest, heq⟩ := Option.map_eq_some_iff.1 h
    cases heq
    exact configOf_request hrequest hcfg

/-- **Every write is what its writer does.** -/
theorem writesSound_step {t t' : PolicyThread} (h : WritesSound s) (ht : ChecksLocal s t)
    (hstep : policyStep c s t x = some (s', t')) : WritesSound s' := by
  obtain ⟨hmove, _⟩ := policyStep_move hstep
  generalize t'.pc = pc at hmove
  cases hmove with
  | evaluates _ _ _ heval => exact writesSound_evaluate h (evaluateStep_move heval).move
  | @upserts r expected cfg a d hpc => exact writesSound_upsert h (ht cfg (by rw [hpc]; rfl)) _ _
  | deletes => exact writesSound_delete h _ _
  | transfers _ _ htransfer => exact writesSound_transfer h htransfer
  | _ => exact h

theorem writes_invariant (c : AutoTopupSettings) :
    Invariant (policyProgram c) FreshPolicies (fun _ _ _ => True)
    WritesSound ChecksLocal (fun _ _ => True) where
  init h w hw := by
    rw [h.log] at hw
    cases hw
  start _ _ _ h := nomatch h
  apart_start _ _ := trivial
  symm _ := trivial
  step h ht _ hstep := by
    refine ⟨writesSound_step h ht hstep, fun cfg hcfg => ?_⟩
    rcases configOf_step hstep hcfg with hold | hfires
    · exact ht cfg hold
    · exact hfires
  frame _ _ _ _ hu _ := ⟨hu, trivial⟩

end Writes

/-! ## What stands -/

/-- The owner of an eSIM, and a transfer of it, say what its policy is to do. -/
def Owns (writer : PolicyWriter) : Prop := writer ≠ .evaluation

/-- The last row that the owner of an eSIM, or a transfer, has written for it. -/
def LastAsked (s : PolicyDb) (esim : Nat) (writer : PolicyWriter) (asked : StoredPolicy) : Prop :=
  ∃ before w after, historyOf s.log esim = before ++ w :: after ∧ w.writer = writer
    ∧ w.after = some asked
    ∧ ∀ v ∈ after, v.writer = .evaluation

/-- What is known of the policy of an eSIM. -/
structure PolicyStands (s : PolicyDb) (esim : Nat) (row : StoredPolicy) : Prop where
  /-- It is what the owner last asked for, or what a transfer left, but for what evaluations made of
  it. -/
  asked : ∃ writer asked, LastAsked s esim writer asked ∧ Settled asked ∧ Since asked row
    ∧ (writer = .upsert ∨ writer = .transfer ∧ asked.policy.enabled = false)
  /-- An active one was enabled by its owner, and has something to fire on. -/
  active : row.policy.status = .active → row.policy.enabled = true ∧ row.policy.reason = .none
    ∧ (row.policy.expiryEnabled = true ∨ row.policy.usageMode ≠ .disabled)

/-- Who reads whether an eSIM is topped up reads the same. -/
structure ReadersAgree (s : PolicyDb) : Prop where
  status : ∀ esim, deviceAutoTopup s esim = publicAutoTopup s esim
  beat : ∀ esim, esim ∈ dueEsims s ↔ publicAutoTopup s esim = true
  once : (dueEsims s).Nodup

section Stands

variable {s : PolicyDb}

theorem settled_of_terms {asked : StoredPolicy} (hasked : Settled asked) (h : Since asked row)
    (hactive : row.policy.status = .active) : row.policy.enabled = true ∧ row.policy.reason = .none
      ∧ (row.policy.expiryEnabled = true ∨ row.policy.usageMode ≠ .disabled) := by
  have henabled : row.policy.enabled = asked.policy.enabled := congrArg PolicyTerms.enabled h.terms
  have hexpiry : row.policy.expiryEnabled = asked.policy.expiryEnabled :=
    congrArg PolicyTerms.expiryEnabled h.terms
  have husage : row.policy.usageMode = asked.policy.usageMode :=
    congrArg PolicyTerms.usageMode h.terms
  rw [henabled, hexpiry, husage]
  rcases h.stopped with hstopped | ⟨hstatus, hreason⟩
  · rw [hactive] at hstopped
    cases hstopped
  · have hon : asked.policy.enabled = true := by
      by_contra hoff
      rw [hstatus, hasked.status, if_neg hoff] at hactive
      cases hactive
    refine ⟨hon, ?_, hasked.fires hon⟩
    rw [hreason, hasked.reason, if_pos hon]

theorem policyStands_of_history (hinv : PolicyInv s) (hsound : WritesSound s)
    (hrow : s.policyOf esim = some row) : PolicyStands s esim row := by
  have hwritten : ∀ w ∈ historyOf s.log esim, PolicyWritten w :=
    fun w hw => hsound _ (mem_historyOf.1 hw)
  have hleads := hinv.leads esim
  rw [hrow] at hleads
  obtain ⟨before, w, after, asked, hhistory, howns, hafter, hothers, hsince⟩ :=
    hleads.since_owner Owns Since.refl (fun _ _ _ => Since.trans) (by
      intro w hw hevaluates
      have hw := hwritten w hw
      cases hw with
      | evaluated hsince => exact ⟨_, _, rfl, rfl, hsince⟩
      | asked => exact absurd nofun hevaluates
      | transferred => exact absurd nofun hevaluates
      | deleted => exact absurd nofun hevaluates)
  have hevaluations : ∀ v ∈ after, v.writer = .evaluation :=
    fun v hv => Classical.not_not.1 (hothers v hv)
  have hlast : LastAsked s esim w.writer asked :=
    ⟨before, w, after, hhistory, rfl, hafter, hevaluations⟩
  have hw := hwritten w (by rw [hhistory]; simp)
  have hsettled : Settled asked
      ∧ (w.writer = .upsert ∨ w.writer = .transfer ∧ asked.policy.enabled = false) := by
    cases hw with
    | asked hsettled =>
      cases hafter
      exact ⟨hsettled, .inl rfl⟩
    | transferred hsettled hoff =>
      cases hafter
      exact ⟨hsettled, .inr ⟨rfl, hoff⟩⟩
    | deleted => cases hafter
    | evaluated => exact absurd rfl howns
  exact ⟨⟨w.writer, asked, hlast, hsettled.1, hsince, hsettled.2⟩,
    settled_of_terms hsettled.1 hsince⟩

/-- An eSIM is topped up in the eyes of the public where its policy is active. -/
theorem publicAutoTopup_iff : publicAutoTopup s esim = true
    ↔ ∃ row, s.policyOf esim = some row ∧ row.policy.status = .active := by
  unfold publicAutoTopup
  rw [List.any_eq_true]
  constructor
  · rintro ⟨row, hrow, hactive⟩
    rw [Bool.and_eq_true, decide_eq_true_iff, decide_eq_true_iff] at hactive
    exact ⟨row, hactive.1 ▸ policyOf_mem.1 hrow, hactive.2⟩
  · rintro ⟨row, hrow, hactive⟩
    refine ⟨row, Table.mem_of_find? hrow, ?_⟩
    rw [Bool.and_eq_true, decide_eq_true_iff, decide_eq_true_iff]
    exact ⟨policyOf_esim hrow, hactive⟩

/-- The beat takes up the policies that are enabled and active. -/
theorem mem_dueEsims : esim ∈ dueEsims s
    ↔ ∃ row, s.policyOf esim = some row ∧ row.policy.enabled = true
      ∧ row.policy.status = .active := by
  unfold dueEsims
  rw [List.mem_map]
  constructor
  · rintro ⟨policy, hpolicy, rfl⟩
    obtain ⟨hpolicy, hdue⟩ := List.mem_filter.1 hpolicy
    obtain ⟨row, hrow, rfl⟩ := List.mem_map.1 hpolicy
    rw [Policy.isDue, Bool.and_eq_true, decide_eq_true_iff] at hdue
    exact ⟨row, policyOf_mem.1 hrow, hdue⟩
  · rintro ⟨row, hrow, hdue⟩
    refine ⟨row.policy, List.mem_filter.2 ⟨List.mem_map_of_mem (Table.mem_of_find? hrow), ?_⟩,
      policyOf_esim hrow⟩
    rw [Policy.isDue, Bool.and_eq_true, decide_eq_true_iff]
    exact hdue

/-- No eSIM is taken up twice. -/
theorem nodup_dueEsims : (dueEsims s).Nodup := by
  have hesims : (s.policies.rows.map fun row => row.policy.esim).Nodup := by
    refine List.pairwise_map.2 (s.policies.apart.imp ?_)
    intro r q hclash hsame
    exact hclash (.inr hsame)
  unfold dueEsims
  rw [List.filter_map, List.map_map]
  exact hesims.sublist (List.filter_sublist.map _)

theorem readersAgree
    (h : ∀ esim row, s.policyOf esim = some row → PolicyStands s esim row) : ReadersAgree s := by
  have hdue : ∀ esim, esim ∈ dueEsims s ↔ publicAutoTopup s esim = true := by
    intro esim
    rw [mem_dueEsims, publicAutoTopup_iff]
    constructor
    · rintro ⟨row, hrow, _, hactive⟩
      exact ⟨row, hrow, hactive⟩
    · rintro ⟨row, hrow, hactive⟩
      exact ⟨row, hrow, ((h esim row hrow).active hactive).1, hactive⟩
  refine ⟨fun esim => ?_, hdue, nodup_dueEsims⟩
  -- the status of a device asks for what the beat asks for
  have hdevice : deviceAutoTopup s esim = true ↔ esim ∈ dueEsims s := by
    rw [mem_dueEsims]
    unfold deviceAutoTopup
    cases hrow : s.policyOf esim with
    | none => simp
    | some row => simp
  exact Bool.eq_iff_iff.2 (hdevice.trans (hdue esim))

end Stands

section Runs

variable {g : Config PolicyDb PolicyThread}

theorem stands_of_reach (h : (policyProgram c).Reach FreshPolicies g)
    (hrow : g.store.policyOf esim = some row) : PolicyStands g.store esim row :=
  policyStands_of_history ((policyInvariant c).reach h).store
    ((writes_invariant c).reach h).store hrow

/--
**A policy does what its owner last asked for.**

However its owner, transfers of the eSIM and evaluations write to a policy, what stands of it
is what the last of its owner's writes and the transfers asked for, but for being stopped and
counted down; one that a transfer left is not active, whatever the evaluations under way go
on to write.
-/
theorem policies_stand (h : (policyProgram c).Reach FreshPolicies g) (esim : Nat)
    (row : StoredPolicy) (hrow : g.store.policyOf esim = some row) :
    PolicyStands g.store esim row :=
  stands_of_reach h hrow

/--
**The readers of a policy agree.**

The status of a device asks whether a policy is enabled and active, the public status whether
it is active, and the beat takes up those that are both: at every time of every run they say
the same of every eSIM.
-/
theorem readers_agree (h : (policyProgram c).Reach FreshPolicies g) : ReadersAgree g.store :=
  readersAgree fun _ _ hrow => stands_of_reach h hrow

end Runs

/-- The eSIM's policy is active, with one purchase left. -/
def countedOnce (g : Config PolicyDb PolicyThread) : Bool :=
  (g.store.policyOf expiredEsim.id).any fun row =>
    row.policy.status = .active && row.policy.remainingCount = some 1

/-- A policy was created and has bought a top-up. -/
theorem exists_countedOnce :
    ∃ g, (policyProgram autoSettings).Reach FreshPolicies g ∧ countedOnce g = true := by
  obtain ⟨g, hrun, hcounted⟩ := Program.run_check (policyProgram autoSettings) noPolicies
    (reads 1 ++ sends 1 none ++ [.tick 1 (.save firstDraw)] ++ buys 3) countedOnce
      (by decide +kernel)
  exact ⟨g, Program.reach_run freshPolicies_noPolicies hrun, hcounted⟩

theorem policies_stand_bought : ∃ (g : Config PolicyDb PolicyThread) (row : StoredPolicy),
    g.store.policyOf expiredEsim.id = some row ∧ row.policy.remainingCount = some 1
      ∧ PolicyStands g.store expiredEsim.id row := by
  obtain ⟨g, hreach, hcounted⟩ := exists_countedOnce
  obtain ⟨row, hrow, hcount⟩ := (Option.any_eq_true _ _).1 hcounted
  rw [Bool.and_eq_true, decide_eq_true_iff, decide_eq_true_iff] at hcount
  exact ⟨g, row, hrow, hcount.2, policies_stand hreach _ row hrow⟩

theorem readers_agree_bought :
    ∃ g : Config PolicyDb PolicyThread, countedOnce g = true ∧ ReadersAgree g.store := by
  obtain ⟨g, hreach, hcounted⟩ := exists_countedOnce
  exact ⟨g, hcounted, readers_agree hreach⟩

end Roamkit.AutoTopup.Proof
