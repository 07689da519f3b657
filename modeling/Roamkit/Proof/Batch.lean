import Roamkit.AutoTopup.Batch
import Roamkit.Proof.AutoTopupSuccess

/-!
# When the beat gets through its policies

`evaluate_due` guards no evaluation, so one that raises ends the batch and the
policies after it wait. `RaisePoint` lists where an evaluation raises: the rows it
reads without expecting them gone, the staff test of an account without a user,
and the exceptions of a purchase that `evaluate_one` does not name. The batch gets
through its policies exactly when none of them meets one.
-/

namespace Roamkit.AutoTopup.Proof

open Lib Spend Billing Billing.Proof

variable {c : AutoTopupSettings} {v : Visit}

/-! ## Where an evaluation raises -/

/-- A read that finds no row, or a transaction that fails. -/
def Missing {α : Type} (r : Except Exc (Option α)) : Prop := ∀ a, r ≠ .ok (some a)

/-- The policy is enabled and active when the evaluation first reads it. -/
structure Taken (v : Visit) (row : PolicyRow) : Prop where
  first : v.first = .ok (some row)
  enabled : row.policy.enabled = true
  active : row.policy.status = .active

/-- The rollout lets the evaluation go on. -/
structure Rolled (c : AutoTopupSettings) (v : Visit) (row : PolicyRow) : Prop
    extends Taken v row where
  rollout : rolloutAllows c row.policy.account row.isStaff = .ok true

/-- The usage is fresh, or a refresh that does not fail makes it so. -/
def UsageReady (c : AutoTopupSettings) (v : Visit) (esim : Esim) : Prop :=
  isFresh c esim.usage.syncedAt v.firstAt = true
    ∨ v.usage = .ok () ∧ ∃ e, v.reread = .ok (some e) ∧ isFresh c e.usage.syncedAt v.rereadAt = true

/-- The evaluation comes to a decision on the rows its second transaction reads. -/
structure Decides (c : AutoTopupSettings) (v : Visit) (row again : PolicyRow) (d : Prepared) :
    Prop extends Rolled c v row where
  ready : UsageReady c v row.esim
  second : v.second = .ok (some again)
  decision : prepare c again.policy again.esim v.secondAt = .ok d

/-- The exceptions of a purchase that `evaluate_one` names. -/
def Named : Exc → Prop
  | .esimOwnershipChanged _ => True
  | .insufficientFunds _ _ => True
  | .topupPackageNotFound _ => True
  | .spendInProgress _ => True
  | .providerFulfillment _ => True
  | _ => False

/-- The exceptions after which the policy is written. -/
def Written : Exc → Prop
  | .insufficientFunds _ _ => True
  | .topupPackageNotFound _ => True
  | _ => False

/-- Where an evaluation raises. -/
inductive RaisePoint (c : AutoTopupSettings) (v : Visit) : Prop where
  /-- The first transaction fails. -/
  | first (e : Exc) (h : v.first = .error e)
  /-- The rollout is for staff, and the account has no user. -/
  | user (row : PolicyRow) (h : Taken v row) (mode : PyText.lower c.rolloutMode = "staff")
      (noUser : row.isStaff = none)
  /-- The eSIM is gone after its usage was refreshed. -/
  | reread (row : PolicyRow) (h : Rolled c v row)
      (stale : isFresh c row.esim.usage.syncedAt v.firstAt = false) (usage : v.usage = .ok ())
      (gone : Missing v.reread)
  /-- The policy is gone at its second read. -/
  | second (row : PolicyRow) (h : Rolled c v row) (ready : UsageReady c v row.esim)
      (gone : Missing v.second)
  /-- The purchase raises something else than what is named. -/
  | purchase (row again : PolicyRow) (plan : Plan) (e : Exc) (h : Decides c v row again (.buy plan))
      (raised : v.purchase plan.args = .error e) (unnamed : ¬ Named e)
  /-- The policy is gone when its schedule has ended. -/
  | ended (row again : PolicyRow) (h : Decides c v row again .scheduleEnded)
      (gone : Missing v.outcome)
  /-- The policy is gone when a purchase was made, or refused for want of funds or a package. -/
  | outcome (row again : PolicyRow) (plan : Plan) (h : Decides c v row again (.buy plan))
      (written : ∀ e, v.purchase plan.args = .error e → Written e) (gone : Missing v.outcome)

theorem get_raises {α : Type} (model : String) {r : Except Exc (Option α)} :
    (∃ e, get model r = .error e) ↔ Missing r := by
  unfold get Missing
  rcases r with e | a | a <;> simp

theorem get_ok {α : Type} {model : String} {r : Except Exc (Option α)} {a : α}
    (h : get model r = .ok a) : r = .ok (some a) := by
  unfold get at h
  split at h
  · cases h
  · cases h
  · cases h
    rfl

theorem conclude_raises {o : Outcome} : (∃ e, v.conclude o = .error e) ↔ Missing v.outcome := by
  rw [← get_raises "EsimAutoTopupPolicy"]
  unfold Visit.conclude
  cases get "EsimAutoTopupPolicy" v.outcome with
  | error e => exact ⟨fun _ => ⟨e, rfl⟩, fun _ => ⟨e, rfl⟩⟩
  | ok policy => exact ⟨nofun, nofun⟩

/-! ## The parts of `_prepare` -/

theorem rollout_raises (hon : c.masterEnabled = true) (account : Uuid) {isStaff : Option Bool} :
    (∃ e, rolloutAllows c account isStaff = .error e)
      ↔ PyText.lower c.rolloutMode = "staff" ∧ isStaff = none := by
  have hmaster : c.enabled = true ∧ c.spend.billingEnabled = true := by
    simpa [AutoTopupSettings.masterEnabled] using hon
  unfold rolloutAllows
  rw [if_neg (not_not.2 hmaster)]
  dsimp only
  by_cases hstaff : PyText.lower c.rolloutMode = "staff"
  · rw [if_neg (by rw [hstaff]; decide), if_neg (by rw [hstaff]; decide), if_pos hstaff]
    cases isStaff <;> simp [hstaff]
  · rw [if_neg hstaff]
    constructor
    · rintro ⟨e, he⟩
      repeat' split at he
      all_goals cases he
    · exact fun h => absurd h.1 hstaff

theorem ensureFreshUsage_ready {esim : Esim} :
    ensureFreshUsage c v esim = .ok true ↔ UsageReady c v esim := by
  unfold ensureFreshUsage UsageReady
  by_cases hfresh : isFresh c esim.usage.syncedAt v.firstAt = true
  · simp [hfresh]
  · rw [if_neg hfresh]
    rcases v.usage with e | ⟨⟩
    · simp [hfresh]
    · rcases v.reread with e | e | e <;> simp [get, hfresh, bind, Except.bind, pure, Except.pure]

theorem ensureFreshUsage_raises {esim : Esim} :
    (∃ e, ensureFreshUsage c v esim = .error e)
      ↔ isFresh c esim.usage.syncedAt v.firstAt = false ∧ v.usage = .ok () ∧ Missing v.reread := by
  unfold ensureFreshUsage Missing
  by_cases hfresh : isFresh c esim.usage.syncedAt v.firstAt = true
  · simp [hfresh]
  · rw [if_neg hfresh]
    rw [Bool.not_eq_true] at hfresh
    rcases v.usage with e | ⟨⟩
    · simp
    · rcases v.reread with e | e | e <;> simp [get, hfresh, bind, Except.bind, pure, Except.pure]

/-- The decision raises nothing: an expiry has a date by the time a key is made of it. -/
theorem prepare_total (policy : Policy) (esim : Esim) (now : Time) :
    ∃ d, prepare c policy esim now = .ok d := by
  unfold prepare
  split
  · exact ⟨_, rfl⟩
  split
  · exact ⟨_, rfl⟩
  split
  · exact ⟨_, rfl⟩
  split
  · exact ⟨_, rfl⟩
  split
  · exact ⟨_, rfl⟩
  rename_i reason hreason
  split
  · exact ⟨_, rfl⟩
  have hkey : ∃ key, idempotencyKey policy esim reason = .ok key := by
    unfold idempotencyKey
    split
    · rename_i hexpiry
      subst hexpiry
      cases hat : esim.usage.expiredAt with
      | some expiredAt => exact ⟨_, rfl⟩
      | none =>
        -- without a date the expiry does not fire, and usage does not fire as expiry
        rw [selectFireReason, if_neg (by simp [expiryMet, hat])] at hreason
        repeat' split at hreason
        all_goals cases hreason
    · exact ⟨_, rfl⟩
  obtain ⟨key, hkey⟩ := hkey
  rw [hkey]
  exact ⟨_, rfl⟩

theorem Taken.prepareVisit_eq {row : PolicyRow} (h : Taken v row) :
    prepareVisit c v =
      match rolloutAllows c row.policy.account row.isStaff with
      | .error e => .error e
      | .ok false => .ok .skipped
      | .ok true =>
        match ensureFreshUsage c v row.esim with
        | .error e => .error e
        | .ok false => .ok .skipped
        | .ok true => get "EsimAutoTopupPolicy" v.second >>= fun row =>
          prepare c row.policy row.esim v.secondAt := by
  unfold prepareVisit
  rw [h.first]
  dsimp only
  exact (if_neg (by simp [h.enabled, h.active])).trans rfl

theorem Decides.prepareVisit_eq {row again : PolicyRow} {d : Prepared}
    (h : Decides c v row again d) : prepareVisit c v = .ok d := by
  rw [h.toTaken.prepareVisit_eq, h.rollout]
  dsimp only
  rw [ensureFreshUsage_ready.2 h.ready, h.second]
  exact h.decision

/-- **What `_prepare` comes to: a skip, a decision, or a point where it raises.** -/
theorem prepareVisit_cases (hon : c.masterEnabled = true) :
    prepareVisit c v = .ok .skipped
      ∨ (∃ row again d, Decides c v row again d)
      ∨ (∃ e, prepareVisit c v = .error e) ∧ RaisePoint c v := by
  rcases hfirst : v.first with e | _ | row
  · exact .inr (.inr ⟨⟨e, by rw [prepareVisit, hfirst]⟩, .first e hfirst⟩)
  · exact .inl (by rw [prepareVisit, hfirst])
  by_cases hskip : ¬ row.policy.enabled = true ∨ row.policy.status ≠ .active
  · exact .inl (by rw [prepareVisit, hfirst]; exact if_pos hskip)
  have htaken : Taken v row :=
    ⟨hfirst, by simpa using fun h => hskip (.inl h), by simpa using fun h => hskip (.inr h)⟩
  rw [htaken.prepareVisit_eq]
  cases hroll : rolloutAllows c row.policy.account row.isStaff with
  | error e =>
    obtain ⟨hmode, hnone⟩ := (rollout_raises hon _).1 ⟨e, hroll⟩
    exact .inr (.inr ⟨⟨e, rfl⟩, .user row htaken hmode hnone⟩)
  | ok allowed =>
    cases allowed with
    | false => exact .inl rfl
    | true =>
      have hrolled : Rolled c v row := { htaken with rollout := hroll }
      dsimp only
      cases husage : ensureFreshUsage c v row.esim with
      | error e =>
        obtain ⟨hstale, husage, hgone⟩ := ensureFreshUsage_raises.1 ⟨e, husage⟩
        exact .inr (.inr ⟨⟨e, rfl⟩, .reread row hrolled hstale husage hgone⟩)
      | ok fresh =>
        cases fresh with
        | false => exact .inl rfl
        | true =>
          have hready := ensureFreshUsage_ready.1 husage
          dsimp only
          cases hget : get "EsimAutoTopupPolicy" v.second with
          | error e =>
            exact .inr (.inr ⟨⟨e, rfl⟩,
              .second row hrolled hready ((get_raises _).1 ⟨e, hget⟩)⟩)
          | ok again =>
            obtain ⟨d, hd⟩ := prepare_total (c := c) again.policy again.esim v.secondAt
            exact .inr (.inl ⟨row, again, d,
              { hrolled with ready := hready, second := get_ok hget, decision := hd }⟩)

/-! ## An evaluation -/

/-- What `evaluate_one` does with what `purchase` raised. -/
theorem caught_cases (e : Exc) :
    (¬ Named e ∧ caught e = .raised e)
      ∨ (Named e ∧ Written e ∧ (caught e = .pausing ∨ caught e = .blocking))
      ∨ (Named e ∧ ¬ Written e ∧ ∃ o, caught e = .ended o) := by
  cases e <;> simp [Named, Written, caught]

/-- **An evaluation raises exactly at a raise point.** -/
theorem evaluateOne_raises (hon : c.masterEnabled = true) :
    (∃ e, evaluateOne c v = .error e) ↔ RaisePoint c v := by
  constructor
  · rintro ⟨e, he⟩
    unfold evaluateOne at he
    rcases prepareVisit_cases (v := v) hon with hskip | ⟨row, again, d, hd⟩ | ⟨_, hpoint⟩
    · rw [hskip] at he
      cases he
    · rw [hd.prepareVisit_eq] at he
      cases d with
      | skipped => cases he
      | scheduleEnded => exact .ended row again hd (conclude_raises.1 ⟨e, he⟩)
      | buy plan =>
        dsimp only at he
        cases hpurchase : v.purchase plan.args with
        | ok topup =>
          rw [hpurchase] at he
          exact .outcome row again plan hd (by rw [hpurchase]; intro _ h; cases h)
            (conclude_raises.1 ⟨e, he⟩)
        | error e₀ =>
          rw [hpurchase] at he
          dsimp only at he
          have hwritten (hw : Written e₀) : ∀ e, v.purchase plan.args = .error e → Written e := by
            rw [hpurchase]
            rintro _ ⟨⟩
            exact hw
          rcases caught_cases e₀ with ⟨hun, _⟩ | ⟨_, hw, hc | hc⟩ | ⟨_, _, o, hc⟩
          · exact .purchase row again plan e₀ hd hpurchase hun
          · rw [hc] at he
            exact .outcome row again plan hd (hwritten hw) (conclude_raises.1 ⟨e, he⟩)
          · rw [hc] at he
            exact .outcome row again plan hd (hwritten hw) (conclude_raises.1 ⟨e, he⟩)
          · rw [hc] at he
            cases he
    · exact hpoint
  · intro hpoint
    have lift (h : ∃ e, prepareVisit c v = .error e) : ∃ e, evaluateOne c v = .error e := by
      obtain ⟨e, he⟩ := h
      exact ⟨e, by rw [evaluateOne, he]⟩
    cases hpoint with
    | first e h => exact lift ⟨e, by rw [prepareVisit, h]⟩
    | user row h mode noUser =>
      obtain ⟨e, he⟩ := (rollout_raises hon row.policy.account).2 ⟨mode, noUser⟩
      exact lift ⟨e, by rw [h.prepareVisit_eq, he]⟩
    | reread row h stale usage gone =>
      obtain ⟨e, he⟩ := ensureFreshUsage_raises.2 ⟨stale, usage, gone⟩
      exact lift ⟨e, by rw [h.toTaken.prepareVisit_eq, h.rollout]; dsimp only; rw [he]⟩
    | second row h ready gone =>
      obtain ⟨e, he⟩ := (get_raises "EsimAutoTopupPolicy").2 gone
      refine lift ⟨e, ?_⟩
      rw [h.toTaken.prepareVisit_eq, h.rollout]
      dsimp only
      rw [ensureFreshUsage_ready.2 ready, he]
      rfl
    | purchase row again plan e h raised unnamed =>
      refine ⟨e, ?_⟩
      rw [evaluateOne, h.prepareVisit_eq]
      dsimp only
      rw [raised]
      rcases caught_cases e with ⟨_, hc⟩ | ⟨hn, _⟩ | ⟨hn, _⟩
      · dsimp only
        rw [hc]
      · exact absurd hn unnamed
      · exact absurd hn unnamed
    | ended row again h gone =>
      obtain ⟨e, he⟩ := conclude_raises (o := .paused).2 gone
      exact ⟨e, by rw [evaluateOne, h.prepareVisit_eq]; exact he⟩
    | outcome row again plan h written gone =>
      rw [evaluateOne, h.prepareVisit_eq]
      dsimp only
      cases hpurchase : v.purchase plan.args with
      | ok topup => exact conclude_raises.2 gone
      | error e =>
        have hw := written e hpurchase
        dsimp only
        rcases caught_cases e with ⟨hun, hc⟩ | ⟨_, _, hc | hc⟩ | ⟨_, hnot, _⟩
        · exact absurd hun (by cases e <;> simp_all [Named, Written])
        · rw [hc]
          exact conclude_raises.2 gone
        · rw [hc]
          exact conclude_raises.2 gone
        · exact absurd hw hnot

/-! ## The batch -/

variable {visit : Uuid → Visit}

/-- A batch none of whose evaluations raises evaluates them all. -/
theorem evaluateEach_returns {ids : List Uuid} (count : Outcome → Nat) (seen : List Uuid)
    (h : ∀ id ∈ ids, ∃ o, evaluateOne c (visit id) = .ok o) :
    (evaluateEach c visit ids count seen).evaluated = seen ++ ids
      ∧ ∃ count', (evaluateEach c visit ids count seen).result = .ok (.counted count') := by
  induction ids generalizing count seen with
  | nil => exact ⟨(List.append_nil seen).symm, count, rfl⟩
  | cons id ids ih =>
    obtain ⟨o, ho⟩ := h id (List.mem_cons_self ..)
    rw [evaluateEach, ho]
    dsimp only
    obtain ⟨hseen, hresult⟩ := ih _ (seen ++ [id]) fun id' hid => h id' (List.mem_cons_of_mem _ hid)
    exact ⟨by rw [hseen, List.append_assoc, List.singleton_append], hresult⟩

/-- A batch that returns had no evaluation raise. -/
theorem evaluateEach_ok {ids : List Uuid} {count : Outcome → Nat} {seen : List Uuid} {stats : Stats}
    (h : (evaluateEach c visit ids count seen).result = .ok stats) :
    ∀ id ∈ ids, ∃ o, evaluateOne c (visit id) = .ok o := by
  induction ids generalizing count seen with
  | nil => exact fun id hid => absurd hid List.not_mem_nil
  | cons id ids ih =>
    rw [evaluateEach] at h
    cases hone : evaluateOne c (visit id) with
    | error e =>
      rw [hone] at h
      cases h
    | ok o =>
      rw [hone] at h
      intro id' hid
      rcases List.mem_cons.1 hid with rfl | hid
      · exact ⟨o, hone⟩
      · exact ih h id' hid

/-- The policies that were due and still stand have been evaluated, and the batch returned. -/
structure BatchIsolated (policies : List Policy) (stands : Uuid → Prop) (b : Batch) : Prop where
  returns : ∃ stats, b.result = .ok stats
  evaluated : ∀ policy ∈ policies, policy.isDue = true → stands policy.id →
    policy.id ∈ b.evaluated

/--
**`evaluate_due` returns with every policy evaluated exactly when none of its
evaluations meets a raise point**, auto top-up being on; where it is off it
evaluates nothing.
-/
theorem batch_isolated_iff (c : AutoTopupSettings) (policies : List Policy)
    (visit : Uuid → Visit) (stands : Uuid → Prop) :
    BatchIsolated policies stands (evaluateDue c policies visit)
      ↔ (c.masterEnabled = true → ∀ policy ∈ policies, policy.isDue = true →
            ¬ RaisePoint c (visit policy.id))
        ∧ (c.masterEnabled = false → ∀ policy ∈ policies, policy.isDue = true →
            ¬ stands policy.id) := by
  have hdue {policy : Policy} (hmem : policy ∈ policies) (h : policy.isDue = true) :
      policy.id ∈ (policies.filter Policy.isDue).map Policy.id :=
    List.mem_map.2 ⟨policy, List.mem_filter.2 ⟨hmem, h⟩, rfl⟩
  cases hon : c.masterEnabled with
  | false =>
    have hoff : evaluateDue c policies visit = ⟨[], .ok .disabled⟩ := by
      rw [evaluateDue, hon]
      rfl
    rw [hoff]
    constructor
    · intro h
      exact ⟨nofun, fun _ policy hmem hd hs =>
        absurd (h.evaluated policy hmem hd hs) List.not_mem_nil⟩
    · intro h
      exact ⟨⟨_, rfl⟩, fun policy hmem hd hs => absurd hs (h.2 rfl policy hmem hd)⟩
  | true =>
    have heach : evaluateDue c policies visit
        = evaluateEach c visit ((policies.filter Policy.isDue).map Policy.id) (fun _ => 0) [] := by
      rw [evaluateDue, hon]
      rfl
    rw [heach]
    constructor
    · rintro ⟨⟨stats, hstats⟩, _⟩
      refine ⟨fun _ policy hmem hd hpoint => ?_, nofun⟩
      obtain ⟨o, ho⟩ := evaluateEach_ok hstats _ (hdue hmem hd)
      obtain ⟨e, he⟩ := (evaluateOne_raises hon).2 hpoint
      rw [ho] at he
      cases he
    · rintro ⟨h, _⟩
      have hall : ∀ id ∈ (policies.filter Policy.isDue).map Policy.id,
          ∃ o, evaluateOne c (visit id) = .ok o := by
        intro id hid
        obtain ⟨policy, hpolicy, rfl⟩ := List.mem_map.1 hid
        obtain ⟨hmem, hd⟩ := List.mem_filter.1 hpolicy
        cases hone : evaluateOne c (visit policy.id) with
        | ok o => exact ⟨o, rfl⟩
        | error e => exact absurd ((evaluateOne_raises hon).1 ⟨e, hone⟩) (h rfl policy hmem hd)
      obtain ⟨hseen, count, hcount⟩ := evaluateEach_returns (fun _ => 0) [] hall
      refine ⟨⟨_, hcount⟩, fun policy hmem hd _ => ?_⟩
      rw [hseen, List.nil_append]
      exact hdue hmem hd

/-! ## An account without a user -/

/-- The rollout is for staff only. -/
def staffOnly : AutoTopupSettings := { autoSettings with rolloutMode := "staff" }

/-- The policy of another eSIM, of Bob's. -/
def bobPolicy : Policy := { expiryPolicy with id := bob, account := bob, esim := 2 }

/-- Alice's account is an organization's and has no user; Bob is staff. -/
def orgVisit (id : Uuid) : Visit where
  first := .ok (some (if id = alice then ⟨expiryPolicy, expiredEsim, none⟩
    else ⟨bobPolicy, { expiredEsim with id := 2 }, some true⟩))
  firstAt := 0
  usage := .ok ()
  reread := .ok none
  rereadAt := 0
  second := .ok (some ⟨bobPolicy, { expiredEsim with id := 2 }, some true⟩)
  secondAt := 0
  purchase _ := .error (.spendInProgress "Top-up request is still in progress")
  outcome := .ok none

/-- The organization's policy keeps the batch from Bob's. -/
theorem account_without_user_ends_batch :
    ¬ ∀ c policies visit stands, AutoTopupSettings.masterEnabled c = true →
      BatchIsolated policies stands (evaluateDue c policies visit) := by
  intro h
  have hb := h staffOnly [expiryPolicy, bobPolicy] orgVisit (fun _ => True) rfl
  obtain ⟨stats, hstats⟩ := hb.returns
  have hraised : (evaluateDue staffOnly [expiryPolicy, bobPolicy] orgVisit).result
      = .error .attributeError := by rfl
  rw [hraised] at hstats
  cases hstats

end Roamkit.AutoTopup.Proof
