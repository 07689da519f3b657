import Roamkit.Proof.PolicyMove

/-!
# The history of a policy

Every write of a policy is in the log, so what stands for an eSIM is what the
writes of its policy lead to, and what an owner has read is what the writes until
then led to. Both hold in every run.
-/

namespace Roamkit.AutoTopup.Proof

open Lib Spend Billing

variable {c : AutoTopupSettings}

/-! ## What a step writes -/

/-- The shapes of the writes of each writer. -/
inductive Lawful : RowWrite PolicyWriter StoredPolicy → Prop
  | creates (cfg : PolicyConfig) (id account : Uuid) (esim : Nat) :
      Lawful ⟨.upsert, none, some (cfg.created id account esim)⟩
  | updates (cfg : PolicyConfig) (row : StoredPolicy) :
      Lawful ⟨.upsert, some row, some (cfg.updated row)⟩
  | deletes (row : StoredPolicy) : Lawful ⟨.delete, some row, none⟩
  | transfers (account : Uuid) (row : StoredPolicy) :
      Lawful ⟨.transfer, some row, some (retargeted account row)⟩
  | evaluates (policy : Policy) (row : StoredPolicy) :
      policy.enabled = row.policy.enabled →
      Lawful ⟨.evaluation, some row, some (evaluated policy row)⟩

/-- A step writes no policy, or one, and who writes it. -/
inductive StepWrites (writer : PolicyWriter) (s s' : PolicyDb) : Prop
  | none (policies : s'.policies = s.policies) (log : s'.log = s.log)
  | one (w : PolicyWrite) (author : w.write.writer = writer) (log : s'.log = s.log ++ [w])
      (before : w.write.before = s.policyOf w.esim) (after : w.write.after = s'.policyOf w.esim)
      (others : ∀ esim, esim ≠ w.esim → s'.policyOf esim = s.policyOf esim)
      (lawful : Lawful w.write)

variable {s s' : PolicyDb} {esim : Nat} {row : StoredPolicy} {writer : PolicyWriter}

theorem policyOf_esim (h : s.policyOf esim = some row) : row.policy.esim = esim :=
  of_decide_eq_true (Table.prop_of_find? (t := s.policies) h)

theorem policyOf_mem :
    row ∈ s.policies ↔ s.policyOf row.policy.esim = some row := by
  constructor
  · intro h
    exact Table.find?_of_mem h (by simp) fun _ hx => .inr (of_decide_eq_true hx)
  · exact Table.mem_of_find?

/-- The policies after a row was saved. -/
theorem policyOf_save {f : StoredPolicy → StoredPolicy} {hf : Table.Keeps f}
    (hrow : row ∈ s.policies) (hesim : ∀ r, (f r).policy.esim = r.policy.esim) (esim : Nat) :
    (s.save writer row f hf).policyOf esim
      = if esim = row.policy.esim then some (f row) else s.policyOf esim := by
  have hsaved : (s.save writer row f hf).policyOf esim
      = (s.policyOf esim).map (rewrite (·.policy.esim = row.policy.esim) f) :=
    Table.find?_update _ _ _ _ hf fun r => by rw [hesim]
  rw [hsaved]
  split
  · rename_i heq
    rw [heq, policyOf_mem.1 hrow, Option.map_some, rewrite_pos _ (by simp)]
  · rename_i hne
    cases hat : s.policyOf esim with
    | none => rfl
    | some r =>
      rw [Option.map_some, rewrite_neg]
      rw [policyOf_esim hat]
      simpa using hne

theorem stepWrites_save (writer : PolicyWriter) (f : StoredPolicy → StoredPolicy)
    (hf : Table.Keeps f) (hrow : row ∈ s.policies)
    (hesim : ∀ r, (f r).policy.esim = r.policy.esim) (h : Lawful ⟨writer, some row, some (f row)⟩)
    (hp : s'.policies = (s.save writer row f hf).policies)
    (hl : s'.log = (s.save writer row f hf).log) : StepWrites writer s s' := by
  have hof (esim : Nat) : s'.policyOf esim = (s.save writer row f hf).policyOf esim := by
    rw [PolicyDb.policyOf, hp, PolicyDb.policyOf]
  refine .one ⟨row.policy.esim, writer, some row, some (f row)⟩ rfl hl (policyOf_mem.1 hrow).symm
    ?_ ?_ h
  · rw [hof, policyOf_save hrow hesim, if_pos rfl]
  · intro esim hne
    rw [hof, policyOf_save hrow hesim, if_neg hne]

theorem Rewrites.enabled {pc : AutoTopupPc} {policy : Policy} (h : Rewrites c s row pc policy) :
    policy.enabled = row.policy.enabled := by
  cases h <;> rfl

theorem stepWrites_evaluate {id : Uuid} {e : Evaluation} {x : AutoTopupInput}
    (h : EvaluateMove c s id e x s') : StepWrites .evaluation s s' := by
  cases h with
  | keeps => exact .none rfl rfl
  | writes hgo hrow hw =>
    exact stepWrites_save .evaluation (evaluated _) (fun _ _ h => h) (Table.mem_of_find? hrow)
      (fun _ => rfl) (.evaluates _ _ hw.enabled) rfl rfl

theorem stepWrites_upsert (s : PolicyDb) (a : UpsertArgs) (cfg : PolicyConfig)
    (expected : Option Int) (d : PolicyDraw) :
    StepWrites .upsert s (upsertPolicy s a cfg expected d).1 := by
  unfold upsertPolicy
  split
  · split
    · exact .none rfl rfl
    · split
      · exact .none rfl rfl
      · dsimp only
        split
        · exact .none rfl rfl
        · rename_i policies hinsert
          have hnone : s.policyOf a.esim.id = none := by
            refine Table.find?_eq_none.2 fun r hr hesim => ?_
            exact Table.apart_of_insert hinsert hr (.inr (of_decide_eq_true hesim))
          have hof (esim : Nat) := Table.find?_insert hinsert (·.policy.esim = esim)
          refine .one ⟨a.esim.id, .upsert, none, some (cfg.created d.id a.account a.esim.id)⟩ rfl
            rfl hnone.symm ?_ ?_ (.creates ..)
          · refine ((hof a.esim.id).trans ?_).symm
            have hnone' : s.policies.find? (·.policy.esim = a.esim.id) = none := hnone
            rw [hnone', if_pos (by simp [PolicyConfig.created])]
            rfl
          · intro esim hne
            refine (hof esim).trans ?_
            rw [if_neg (by simp [PolicyConfig.created, Ne.symm hne]), Option.or_none]
            rfl
  · rename_i existing hfound
    split
    · exact .none rfl rfl
    · split
      · exact .none rfl rfl
      · have hrow : s.policyOf a.esim.id = some existing := by
          split at hfound
          · cases hfound
          · exact hfound
        exact stepWrites_save .upsert cfg.updated (fun _ _ h => h) (Table.mem_of_find? hrow)
          (fun _ => rfl) (.updates cfg existing) rfl rfl

theorem stepWrites_delete (s : PolicyDb) (esim : Nat) (expected : Option Int) :
    StepWrites .delete s (deletePolicy s esim expected).1 := by
  unfold deletePolicy
  split
  · exact .none rfl rfl
  · rename_i existing hrow
    split
    · exact .none rfl rfl
    · have hof (esim' : Nat) := Table.find?_remove s.policies (·.policy.esim = esim)
        (·.policy.esim = esim')
      refine .one ⟨esim, .delete, some existing, none⟩ rfl rfl hrow.symm ?_ ?_ (.deletes existing)
      · refine ((hof esim).trans (List.find?_eq_none.2 fun r _ => ?_)).symm
        simp
      · intro esim' hne
        refine (hof esim').trans ?_
        show List.find? _ _ = List.find? _ _
        congr
        funext r
        by_cases hr : r.policy.esim = esim'
        · simp [hr, hne]
        · simp [hr]

theorem stepWrites_transfer {account : Uuid} {user : UserId}
    (h : transferInventory s esim account user = .ok s') : StepWrites .transfer s s' := by
  unfold transferInventory at h
  split at h
  · cases h
  split at h
  · cases h
    exact .none rfl rfl
  · split at h
    · cases h
      exact .none rfl rfl
    · rename_i row hrow
      cases h
      exact stepWrites_save .transfer (retargeted account) (fun _ _ h => h)
        (Table.mem_of_find? hrow) (fun _ => rfl) (.transfers account row) rfl rfl

/-- **Every step of the program writes no policy, or one, lawfully.** -/
theorem policyStep_writes {t t' : PolicyThread} {x : PolicyInput}
    (h : policyStep c s t x = some (s', t')) :
    ∃ writer, StepWrites writer s s' ∧ (writer = .evaluation → t'.pc.evaluation? ≠ none) := by
  obtain ⟨hm, _⟩ := policyStep_move h
  generalize t'.pc = pc at hm
  cases hm with
  | evaluates _ _ _ hstep =>
    exact ⟨_, stepWrites_evaluate (evaluateStep_move hstep).move, fun _ => by
      simp [PolicyPc.evaluation?]⟩
  | upserts => exact ⟨_, stepWrites_upsert .., by simp⟩
  | deletes => exact ⟨_, stepWrites_delete .., by simp⟩
  | transfers _ _ h => exact ⟨_, stepWrites_transfer h, by simp⟩
  | _ => exact ⟨.upsert, .none rfl rfl, by simp⟩

/-! ## What the log leads to -/

/-- The writes of the policy of an eSIM. -/
def historyOf (log : List PolicyWrite) (esim : Nat) : List (RowWrite PolicyWriter StoredPolicy) :=
  (log.filter (·.esim = esim)).map PolicyWrite.write

theorem historyOf_append (log more : List PolicyWrite) (esim : Nat) :
    historyOf (log ++ more) esim = historyOf log esim ++ historyOf more esim := by
  rw [historyOf, List.filter_append, List.map_append]
  rfl

theorem mem_historyOf {log : List PolicyWrite} {w : RowWrite PolicyWriter StoredPolicy} :
    w ∈ historyOf log esim ↔ ⟨esim, w⟩ ∈ log := by
  unfold historyOf
  rw [List.mem_map]
  constructor
  · rintro ⟨⟨esim', w'⟩, hmem, rfl⟩
    obtain ⟨hlog, hesim⟩ := List.mem_filter.1 hmem
    obtain rfl := of_decide_eq_true hesim
    exact hlog
  · intro h
    exact ⟨⟨esim, w⟩, List.mem_filter.2 ⟨h, by simp⟩, rfl⟩

/-- What is known of the policies at every time. -/
structure PolicyInv (s : PolicyDb) : Prop where
  /-- The writes of a policy lead to what stands. -/
  leads : ∀ esim, Leads none (historyOf s.log esim) (s.policyOf esim)
  /-- Every write has the shape of its writer. -/
  lawful : ∀ w ∈ s.log, Lawful w.write

/-- A reading is what the writes until then led to. -/
structure ReadAt (s : PolicyDb) (esim : Nat) (r : Reading) : Prop where
  since : r.since ≤ s.log.length
  leads : Leads none (historyOf (s.log.take r.since) esim) r.seen

/-- Every call that goes on with a reading made it. -/
def ReadLocal (s : PolicyDb) (t : PolicyThread) : Prop :=
  ∀ r esim, t.pc.reading? = some r → t.call.target = some esim → ReadAt s esim r

theorem PolicyInv.step (h : PolicyInv s) (hs : StepWrites writer s s') : PolicyInv s' := by
  cases hs with
  | none hp hl =>
    refine ⟨fun esim => ?_, by rw [hl]; exact h.lawful⟩
    rw [hl, PolicyDb.policyOf, hp]
    exact h.leads esim
  | one w _ hl hb ha ho hw =>
    refine ⟨fun esim => ?_, ?_⟩
    · rw [hl, historyOf_append]
      by_cases hesim : esim = w.esim
      · subst hesim
        have hone : historyOf [w] w.esim = [w.write] := by simp [historyOf]
        rw [hone, ← ha]
        exact .snoc (hb ▸ h.leads w.esim)
      · have hnone : historyOf [w] esim = [] := by simp [historyOf, Ne.symm hesim]
        rw [hnone, List.append_nil, ho esim hesim]
        exact h.leads esim
    · rw [hl]
      intro v hv
      rcases List.mem_append.1 hv with hv | hv
      · exact h.lawful v hv
      · rw [List.mem_singleton.1 hv]
        exact hw

theorem StepWrites.log_prefix (h : StepWrites writer s s') : s.log <+: s'.log := by
  cases h with
  | none _ hl => exact hl ▸ List.prefix_refl s.log
  | one w _ hl => exact ⟨[w], hl.symm⟩

theorem ReadAt.later {r : Reading} (h : ReadAt s esim r)
    (hlog : s.log <+: s'.log) : ReadAt s' esim r := by
  obtain ⟨more, hmore⟩ := hlog
  refine ⟨?_, ?_⟩
  · rw [← hmore, List.length_append]
    exact Nat.le_add_right_of_le h.since
  · rw [← hmore, List.take_append_of_le_length h.since]
    exact h.leads

/-- Nothing was written yet. -/
structure FreshPolicies (s : PolicyDb) : Prop where
  policies : s.policies.rows = []
  log : s.log = []

theorem policyInvariant (c : AutoTopupSettings) :
    Invariant (policyProgram c) FreshPolicies (fun _ _ _ => True) PolicyInv ReadLocal
      (fun _ _ => True) where
  init h := by
    refine ⟨fun esim => ?_, ?_⟩
    · rw [h.log, PolicyDb.policyOf, Table.find?, h.policies]
      exact .nil _
    · rw [h.log]
      exact fun w hw => absurd hw List.not_mem_nil
  start call _ := fun r esim hr _ => by cases hr
  apart_start _ _ := trivial
  symm _ := trivial
  step := by
    intro s t x s' t' hinv hL _ hs
    obtain ⟨writer, hw, _⟩ := policyStep_writes hs
    obtain ⟨hm, hcall⟩ := policyStep_move hs
    refine ⟨hinv.step hw, fun r esim hr htarget => ?_⟩
    rw [hcall] at htarget
    generalize hpc : t'.pc = pc at hm
    rw [hpc] at hr
    cases hm with
    | idles _ hnone =>
      rw [hnone] at hr
      cases hr
    | @reads esim' _ htarget' =>
      obtain rfl : esim' = esim := Option.some.inj (htarget'.symm.trans htarget)
      cases hr
      refine ⟨Nat.le_refl _, ?_⟩
      rw [List.take_length]
      exact hinv.leads esim'
    | goesOn hbefore hafter =>
      rw [hafter] at hr
      cases hr
      exact hL _ esim hbefore htarget
    | _ => cases hr
  frame := by
    intro s t x s' t' u hinv _ _ hs hLu _
    obtain ⟨writer, hw, _⟩ := policyStep_writes hs
    have hlog := hw.log_prefix
    exact ⟨fun r esim hr htarget => (hLu r esim hr htarget).later hlog, trivial⟩

end Roamkit.AutoTopup.Proof
