import Roamkit.AutoTopup.Versions
import Roamkit.Proof.AutoTopupMove

/-!
# What a step can do to a policy

`PolicyMove` lists every outcome of one step of the writers of policies, and
`StepWrites` what the log says about it: nothing was written, or one policy was,
from what stood there to what stands there now.
-/

namespace Roamkit.AutoTopup.Proof

open Lib Spend Billing

variable {c : AutoTopupSettings}

/-! ## Evaluations -/

/-- What an evaluation makes of the policy it locks, where it writes it. -/
inductive Rewrites (c : AutoTopupSettings) (s : PolicyDb) (row : StoredPolicy) :
    AutoTopupPc → Policy → Prop
  | schedule {esim : Esim} :
      s.spend.esims.find? (·.id = row.policy.esim) = some esim →
      prepare c row.policy esim s.spend.now = .ok .scheduleEnded →
      Rewrites c s row .preparing (row.policy.paused .scheduleEnded)
  | success {plan : Plan} {u : Topup} :
      Rewrites c s row (.succeeding plan u)
        (row.policy.succeeded c s.spend.now u plan.idempotencyKey)
  | funds : Rewrites c s row .pausing (row.policy.paused .insufficientFunds)
  | package : Rewrites c s row .blocking row.policy.blocked

/-- A step of an evaluation writes no policy, or the one it locks. -/
inductive EvaluateMove (c : AutoTopupSettings) (s : PolicyDb) (id : Uuid) (e : Evaluation)
    (x : AutoTopupInput) : PolicyDb → Prop
  | keeps {spend : SpendDb} {events : List AutoTopupSucceeded} :
      EvaluateMove c s id e x { s with spend, events }
  | writes {row : StoredPolicy} {policy : Policy} {spend : SpendDb}
      {events : List AutoTopupSucceeded} :
      x = .go → s.byId id = some row → Rewrites c s row e.pc policy →
      EvaluateMove c s id e x (PolicyDb.save { s with spend, events } .evaluation row
        (evaluated policy) (fun _ _ h => h))

theorem decideTopup_policy {s : PolicyDb} {row : StoredPolicy} :
    (decideTopup c (s.view row.policy)).1 = s.view row.policy
      ∨ ∃ policy, Rewrites c s row .preparing policy
          ∧ (decideTopup c (s.view row.policy)).1 = s.view policy := by
  unfold decideTopup
  split
  · exact .inl rfl
  · rename_i hesim
    split
    · exact .inl rfl
    · exact .inl rfl
    · rename_i hdecision
      exact .inr ⟨_, .schedule hesim hdecision, rfl⟩
    · exact .inl rfl

variable {s s' : PolicyDb} {db : AutoTopupDb} {pc : AutoTopupPc} {x : AutoTopupInput}

/-- A step that locks the policy rewrites it or leaves it. -/
theorem policy_of_locked {row : StoredPolicy} {t : AutoTopupThread}
    (hlock : locksPolicy pc x = true)
    (h : autoTopupStep c (s.view row.policy) ⟨.evaluate, pc⟩ x = some (db, t)) :
    x = .go ∧ (db.policy = row.policy ∨ Rewrites c s row pc db.policy) := by
  cases pc with
  | preparing =>
    cases x with
    | go =>
      cases h
      refine ⟨rfl, ?_⟩
      rcases @decideTopup_policy c s row with heq | ⟨policy, hw, heq⟩
      · rw [heq]
        exact .inl rfl
      · rw [heq]
        exact .inr hw
    | _ => cases hlock
  | succeeding plan u =>
    cases x with
    | go => cases h; exact ⟨rfl, .inr .success⟩
    | _ => cases hlock
  | pausing =>
    cases x with
    | go => cases h; exact ⟨rfl, .inr .funds⟩
    | _ => cases hlock
  | blocking =>
    cases x with
    | go => cases h; exact ⟨rfl, .inr .package⟩
    | _ => cases hlock
  | _ => cases x <;> cases hlock

theorem live_of_locks (h : locksPolicy pc x = true) :
    pc.isLive = true := by
  cases pc with
  | ended o => cases x <;> cases h
  | raised e => cases x <;> cases h
  | crashed => cases x <;> cases h
  | done => cases x <;> cases h
  | _ => rfl

/-- What `_prepare` goes on from is enabled. -/
theorem prepare_enabled {policy : Policy} {esim : Esim} {now : Time} {p : Prepared}
    (h : prepare c policy esim now = .ok p) (hp : p ≠ .skipped) : policy.enabled = true := by
  unfold prepare at h
  split at h
  · cases h
    exact absurd rfl hp
  · rename_i hgo
    rw [not_or, not_not] at hgo
    exact hgo.1

theorem decideTopup_enabled (h : (decideTopup c db).2.isLive = true) :
    db.policy.enabled = true := by
  unfold decideTopup at h
  split at h
  · cases h
  split at h
  · cases h
  · cases h
  · cases h
  · rename_i hdecision
    exact prepare_enabled hdecision fun hp => by cases hp

/-- An evaluation that goes on after `_prepare` has locked a policy that is enabled. -/
theorem enabled_of_prepared {db' : AutoTopupDb} {t : AutoTopupThread}
    (hpc : pc.isPreparing = true) (h : autoTopupStep c db ⟨.evaluate, pc⟩ x = some (db', t))
    (hlive : t.pc.isLive = true) :
    x = .go ∧ locksPolicy pc x = true ∧ db.policy.enabled = true := by
  cases pc with
  | preparing =>
    cases x with
    | go =>
      cases h
      exact ⟨rfl, rfl, decideTopup_enabled hlive⟩
    | fail =>
      cases h
      cases hlive
    | crash =>
      cases h
      cases hlive
    | _ => cases h
  | _ => cases hpc

/-- What a step of an evaluation comes to. -/
structure EvaluateStepped (c : AutoTopupSettings) (s : PolicyDb) (id : Uuid) (e : Evaluation)
    (x : AutoTopupInput) (s' : PolicyDb) (e' : Evaluation) : Prop where
  move : EvaluateMove c s id e x s'
  since : e'.since = e.since
  live : e.pc.isLive = true
  /-- `_prepare` goes on with a policy that is enabled. -/
  prepared : e'.pc.isLive = true → e'.prepared = e.prepared
    ∨ e'.prepared = s.log.length ∧ x = .go ∧ e.pc.isPreparing = true
        ∧ ∃ row, s.byId id = some row ∧ row.policy.enabled = true

theorem goto_prepared {e : Evaluation} (n : Nat) (pc : AutoTopupPc) (h : e.pc.isPreparing ≠ true) :
    (e.goto n pc).prepared = e.prepared := if_neg h

theorem evaluateStep_move {id : Uuid} {e e' : Evaluation}
    (h : evaluateStep c s id e x = some (s', e')) : EvaluateStepped c s id e x s' e' := by
  have hlive {db db' : AutoTopupDb} {pc : AutoTopupPc} {t : AutoTopupThread}
      (h : autoTopupStep c db ⟨.evaluate, pc⟩ x = some (db', t)) : pc.isLive = true := by
    cases pc with
    | ended o => cases x <;> cases h
    | raised e => cases x <;> cases h
    | crashed => cases x <;> cases h
    | done => cases x <;> cases h
    | _ => rfl
  unfold evaluateStep at h
  split at h
  · rename_i hlock
    split at h
    · cases h
      exact ⟨.keeps, rfl, live_of_locks hlock, fun hlive => by cases hlive⟩
    · rename_i row hrow
      split at h
      · cases h
      rename_i db t hstep
      cases h
      refine ⟨?_, rfl, hlive hstep, fun hafter => ?_⟩
      · obtain ⟨hgo, hsame | hw⟩ := policy_of_locked hlock hstep
        · rw [if_pos hsame]
          exact .keeps
        · split
          · exact .keeps
          · exact .writes hgo hrow hw
      · by_cases hpc : e.pc.isPreparing = true
        · obtain ⟨hgo, _, henabled⟩ := enabled_of_prepared hpc hstep hafter
          exact .inr ⟨if_pos hpc, hgo, hpc, row, hrow, henabled⟩
        · exact .inl (goto_prepared _ _ hpc)
  · rename_i hother
    split at h
    · cases h
    rename_i db t hstep
    cases h
    refine ⟨.keeps, rfl, hlive hstep, fun hafter => ?_⟩
    by_cases hpc : e.pc.isPreparing = true
    · exact absurd (enabled_of_prepared hpc hstep hafter).2.1 hother
    · exact .inl (goto_prepared _ _ hpc)

/-! ## Calls -/

/-- Everything a step of a call can do, and the point it comes to. -/
inductive PolicyMove (c : AutoTopupSettings) (s : PolicyDb) (t : PolicyThread) (x : PolicyInput) :
    PolicyDb → PolicyPc → Prop
  -- nothing is written, and no reading is made
  | idles {spend : SpendDb} {pc : PolicyPc} :
      pc.evaluation? = none → pc.reading? = none →
      PolicyMove c s t x { s with spend } pc
  | begins {id : Uuid} {row : StoredPolicy} {isStaff : Option Bool} :
      t.pc = .asked → t.call = .evaluate id → s.byId id = some row →
      PolicyMove c s t x s
        (.evaluating ⟨row.policy, s.log.length, s.log.length,
          firstRead c (s.view row.policy) isStaff⟩)
  | evaluates {id : Uuid} {e e' : Evaluation} {y : AutoTopupInput} {s' : PolicyDb} :
      t.pc = .evaluating e → t.call = .evaluate id → x = .evaluation y →
      evaluateStep c s id e y = some (s', e') → PolicyMove c s t x s' (.evaluating e')
  | reads {esim : Nat} :
      t.pc = .asked → t.call.target = some esim →
      PolicyMove c s t x s (.reading ⟨s.policyOf esim, s.log.length⟩)
  -- a request goes on with what was read
  | goesOn {r : Reading} {pc : PolicyPc} :
      t.pc.reading? = some r → pc.reading? = some r → pc.evaluation? = none →
      PolicyMove c s t x s pc
  -- the writes
  | upserts {r : Reading} {expected : Option Int} {cfg : PolicyConfig} {a : UpsertArgs}
      {d : PolicyDraw} :
      t.pc = .saving r expected cfg → t.call = .put a → x = .save d →
      PolicyMove c s t x (upsertPolicy s a cfg expected d).1
        (.answered (upsertPolicy s a cfg expected d).2)
  | deletes {r : Reading} {expected : Option Int} {esim : Nat} :
      t.pc = .deleting r expected → t.call = .delete esim → x = .go →
      PolicyMove c s t x (deletePolicy s esim expected).1
        (.answered (deletePolicy s esim expected).2)
  | transfers {esim : Nat} {account : Uuid} {user : UserId} {s' : PolicyDb} :
      t.pc = .asked → t.call = .transfer esim account user →
      transferInventory s esim account user = .ok s' → PolicyMove c s t x s' (.done none)

theorem beginStep_move {call : PolicyCall} {x : PolicyInput} {pc : PolicyPc}
    (h : beginStep c s call x = some (s', pc)) : PolicyMove c s ⟨call, .asked⟩ x s' pc := by
  unfold beginStep at h
  split at h
  · split at h
    · cases h
      exact .idles rfl rfl
    · rename_i hrow
      cases h
      exact .begins rfl rfl hrow
  · cases h
    exact .reads rfl rfl
  · cases h
    exact .reads rfl rfl
  · split at h
    · cases h
      exact .idles rfl rfl
    · rename_i htransfer
      cases h
      exact .transfers rfl rfl htransfer
  · split at h
    · cases h
      exact .idles rfl rfl
    · split at h
      · cases h
        exact .idles rfl rfl
      · cases h
        exact .idles rfl rfl
  · cases h
  · split at h
    · cases h
    · cases h
      exact .idles rfl rfl
  · cases h

theorem requestStep_move {call : PolicyCall} {x : PolicyInput} {pc pc' : PolicyPc}
    (h : requestStep c s call pc x = some (s', pc')) : PolicyMove c s ⟨call, pc⟩ x s' pc' := by
  unfold requestStep at h
  split at h
  · rename_i r body ifMatch
    split at h
    · cases h
      exact .idles rfl rfl
    · rename_i expected _
      rw [Option.map_eq_some_iff] at h
      obtain ⟨pc₁, hreceive, heq⟩ := h
      cases heq
      unfold receive at hreceive
      split at hreceive
      · cases hreceive
        split
        · exact .idles rfl rfl
        · exact .goesOn rfl rfl rfl
      · cases hreceive
        split
        · exact .idles rfl rfl
        · exact .goesOn rfl rfl rfl
      · cases hreceive
  · split at h
    · split at h
      · cases h
        exact .idles rfl rfl
      · cases h
        exact .goesOn rfl rfl rfl
    · cases h
  · split at h
    · cases h
      split
      · exact .idles rfl rfl
      · exact .goesOn rfl rfl rfl
    · cases h
  · split at h
    · cases h
      exact .upserts rfl rfl rfl
    · cases h
  · split at h
    · cases h
      exact .deletes rfl rfl rfl
    · cases h
  · cases h

theorem policyStep_move {t t' : PolicyThread} {x : PolicyInput}
    (h : policyStep c s t x = some (s', t')) : PolicyMove c s t x s' t'.pc ∧ t'.call = t.call := by
  obtain ⟨call, pc⟩ := t
  unfold policyStep at h
  dsimp only at h
  split at h
  · cases h
    exact ⟨.idles rfl rfl, rfl⟩
  · cases h
    exact ⟨.idles rfl rfl, rfl⟩
  · rw [Option.map_eq_some_iff] at h
    obtain ⟨⟨s₁, pc₁⟩, hbegin, heq⟩ := h
    cases heq
    exact ⟨beginStep_move hbegin, rfl⟩
  · split at h
    · rename_i id
      rw [Option.map_eq_some_iff] at h
      obtain ⟨⟨s₁, e'⟩, hstep, heq⟩ := h
      cases heq
      exact ⟨.evaluates rfl rfl rfl hstep, rfl⟩
    · cases h
  · rw [Option.map_eq_some_iff] at h
    obtain ⟨⟨spend, u⟩, _, heq⟩ := h
    cases heq
    exact ⟨.idles rfl rfl, rfl⟩
  · split at h
    · cases h
      exact ⟨.idles rfl rfl, rfl⟩
    · cases h
  · split at h
    · cases h
      exact ⟨.idles rfl rfl, rfl⟩
    · cases h
  · rw [Option.map_eq_some_iff] at h
    obtain ⟨⟨s₁, pc₁⟩, hrequest, heq⟩ := h
    cases heq
    exact ⟨requestStep_move hrequest, rfl⟩

end Roamkit.AutoTopup.Proof
