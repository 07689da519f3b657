import Roamkit.AutoTopup.Program
import Roamkit.Proof.UsageTrigger

/-!
# What a step of an evaluation can do

`AutoTopupMove` lists every outcome of one step. Most steps write nothing that
later ones depend on; an evaluation matters where it decides to buy, while its
purchase goes on, and where it records a success.
-/

namespace Roamkit.AutoTopup.Proof

open Lib Spend Billing

/-- An evaluation that neither buys nor records a success. -/
def Quiet : AutoTopupPc → Prop
  | .purchasing _ _ _ => False
  | .succeeding _ _ => False
  | _ => True

/-- A policy that differs from another in its status and its reason at most. -/
structure SameRecord (p q : Policy) : Prop where
  id : p.id = q.id
  renewMode : p.renewMode = q.renewMode
  remainingCount : p.remainingCount = q.remainingCount
  cooldownUntil : p.cooldownUntil = q.cooldownUntil
  lastTriggeredAt : p.lastTriggeredAt = q.lastTriggeredAt
  lastTopup : p.lastTopup = q.lastTopup
  lastIdempotencyKey : p.lastIdempotencyKey = q.lastIdempotencyKey

theorem SameRecord.refl (p : Policy) : SameRecord p p := ⟨rfl, rfl, rfl, rfl, rfl, rfl, rfl⟩

/-- Everything a step of a call can do to the database, and the point it comes to. -/
inductive AutoTopupMove (c : AutoTopupSettings) (s : AutoTopupDb) (t : AutoTopupThread)
    (x : AutoTopupInput) : AutoTopupDb → AutoTopupPc → Prop
  | idles {pc : AutoTopupPc} : Quiet t.pc → Quiet pc → AutoTopupMove c s t x s pc
  | refreshes {pc : AutoTopupPc} {esim : Nat} {usage : UsageCache} :
      Quiet t.pc → Quiet pc →
      AutoTopupMove c s t x { s with spend := saveUsage s.spend esim usage } pc
  | rewrites {pc : AutoTopupPc} {policy : Policy} :
      Quiet t.pc → Quiet pc → SameRecord policy s.policy
        → AutoTopupMove c s t x { s with policy } pc
  | besides {call : SpendCall} {u : SpendThread} {spend : SpendDb} {y : SpendInput} :
      t.pc = .asked → t.call.beside = some call →
      spendStep c.spend s.spend ⟨call, .asked⟩ y = some (spend, u) →
      AutoTopupMove c s t x { s with spend } .done
  -- the purchase
  | plans {esim : Esim} {plan : Plan} :
      t.pc = .preparing → prepare c s.policy esim s.spend.now = .ok (.buy plan) →
      AutoTopupMove c s t x s (.purchasing plan s.events ⟨.purchase plan.args, .asked⟩)
  | spends {plan : Plan} {seen : List AutoTopupSucceeded} {u u' : SpendThread} {spend : SpendDb}
      {y : SpendInput} :
      t.pc = .purchasing plan seen u → x = .spend y →
      spendStep c.spend s.spend u y = some (spend, u') →
      AutoTopupMove c s t x { s with spend } (purchased plan seen u')
  -- and what follows it
  | records {plan : Plan} {u : Topup} :
      t.pc = .succeeding plan u → x = .go →
      AutoTopupMove c s t x (recordSuccess c s plan u) (.ended .success)
  | dies {plan : Plan} {u : Topup} {pc : AutoTopupPc} :
      t.pc = .succeeding plan u → x = .fail ∨ x = .crash → Quiet pc → AutoTopupMove c s t x s pc

theorem quiet_caught (e : Exc) : Quiet (caught e) := by
  cases e <;> trivial

theorem quiet_firstRead (c : AutoTopupSettings) (s : AutoTopupDb) (isStaff : Option Bool) :
    Quiet (firstRead c s isStaff) := by
  unfold firstRead
  split
  · trivial
  · split
    · trivial
    · trivial
    · split <;> trivial

theorem decideTopup_move {c : AutoTopupSettings} {s : AutoTopupDb} {t : AutoTopupThread}
    {x : AutoTopupInput} (hpc : t.pc = .preparing) :
    AutoTopupMove c s t x (decideTopup c s).1 (decideTopup c s).2 := by
  have hquiet : Quiet t.pc := by
    rw [hpc]
    trivial
  unfold decideTopup
  split
  · exact .idles hquiet trivial
  · split
    · exact .idles hquiet trivial
    · exact .idles hquiet trivial
    · exact .rewrites hquiet trivial ⟨rfl, rfl, rfl, rfl, rfl, rfl, rfl⟩
    · rename_i hbuy
      exact .plans hpc hbuy

theorem autoTopupStep_move {c : AutoTopupSettings} {s s' : AutoTopupDb} {t t' : AutoTopupThread}
    {x : AutoTopupInput} (h : autoTopupStep c s t x = some (s', t')) :
    AutoTopupMove c s t x s' t'.pc ∧ t'.call = t.call := by
  obtain ⟨call, pc⟩ := t
  cases pc with
  | purchasing plan seen u =>
    cases x with
    | spend y =>
      simp only [autoTopupStep] at h
      split at h
      · cases h
      rename_i hstep
      cases h
      exact ⟨.spends rfl rfl hstep, rfl⟩
    | _ => cases h
  | succeeding plan u =>
    cases x with
    | go => cases h; exact ⟨.records rfl rfl, rfl⟩
    | fail => cases h; exact ⟨.dies rfl (.inl rfl) trivial, rfl⟩
    | crash => cases h; exact ⟨.dies rfl (.inr rfl) trivial, rfl⟩
    | _ => cases h
  | asked =>
    cases x with
    | fail => cases h; exact ⟨.idles trivial trivial, rfl⟩
    | crash => cases h; exact ⟨.idles trivial trivial, rfl⟩
    | staff isStaff =>
      cases call with
      | evaluate => cases h; exact ⟨.idles trivial (quiet_firstRead c s isStaff), rfl⟩
      | _ => cases h
    | usage r raises =>
      cases call with
      | refresh =>
        simp only [autoTopupStep] at h
        split at h
        · cases h; exact ⟨.idles trivial trivial, rfl⟩
        · split at h
          · cases h; exact ⟨.idles trivial trivial, rfl⟩
          · cases h; exact ⟨.refreshes trivial trivial, rfl⟩
      | _ => cases h
    | spend y =>
      simp only [autoTopupStep] at h
      split at h
      · cases h
      rename_i hbeside
      split at h
      · cases h
      rename_i hstep
      cases h
      exact ⟨.besides rfl hbeside hstep, rfl⟩
    | go => cases h
  | refreshing esim =>
    cases x with
    | crash => cases h; exact ⟨.idles trivial trivial, rfl⟩
    | go =>
      simp only [autoTopupStep] at h
      split at h
      · cases h; exact ⟨.idles trivial trivial, rfl⟩
      · cases h
    | usage r raises =>
      simp only [autoTopupStep] at h
      split at h
      · cases h
      split at h
      · cases h; exact ⟨.idles trivial trivial, rfl⟩
      · cases h
        refine ⟨.refreshes trivial ?_, rfl⟩
        dsimp only
        split <;> trivial
    | _ => cases h
  | rereading esim =>
    cases x with
    | fail => cases h; exact ⟨.idles trivial trivial, rfl⟩
    | crash => cases h; exact ⟨.idles trivial trivial, rfl⟩
    | go =>
      simp only [autoTopupStep] at h
      split at h
      · cases h; exact ⟨.idles trivial trivial, rfl⟩
      · cases h
        refine ⟨.idles trivial ?_, rfl⟩
        dsimp only
        split <;> trivial
    | _ => cases h
  | preparing =>
    cases x with
    | fail => cases h; exact ⟨.idles trivial trivial, rfl⟩
    | crash => cases h; exact ⟨.idles trivial trivial, rfl⟩
    | go => cases h; exact ⟨decideTopup_move rfl, rfl⟩
    | _ => cases h
  | pausing =>
    cases x with
    | fail => cases h; exact ⟨.idles trivial trivial, rfl⟩
    | crash => cases h; exact ⟨.idles trivial trivial, rfl⟩
    | go => cases h; exact ⟨.rewrites trivial trivial ⟨rfl, rfl, rfl, rfl, rfl, rfl, rfl⟩, rfl⟩
    | _ => cases h
  | blocking =>
    cases x with
    | fail => cases h; exact ⟨.idles trivial trivial, rfl⟩
    | crash => cases h; exact ⟨.idles trivial trivial, rfl⟩
    | go => cases h; exact ⟨.rewrites trivial trivial ⟨rfl, rfl, rfl, rfl, rfl, rfl, rfl⟩, rfl⟩
    | _ => cases h
  | ended o => cases x <;> cases h
  | raised e => cases x <;> cases h
  | crashed => cases x <;> cases h
  | done => cases x <;> cases h

end Roamkit.AutoTopup.Proof
