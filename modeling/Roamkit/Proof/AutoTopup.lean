import Roamkit.Proof.AutoTopupMove
import Roamkit.Proof.Isolation

/-!
# The purchases of concurrent evaluations

An evaluation runs one call of `purchase`, under the key it derived. While the call
is in flight its row is its own, as in any run of purchases; once the call is over
the row is settled, and a settled row is never written again.
-/

namespace Roamkit.AutoTopup.Proof

open Lib Spend Billing Spend.Proof Billing.Proof

/-! ## A purchase and its key -/

/-- A call of `purchase`, and the row it reserved under its key. -/
structure Keyed (a : PurchaseArgs) (u : SpendThread) : Prop where
  call : u.call = .purchase a
  own : ∀ row, own u.pc = some row → ∃ w, row = .topup w ∧ w.idempotencyKey = a.idempotencyKey

theorem keyed_start (a : PurchaseArgs) : Keyed a ⟨.purchase a, .asked⟩ := by
  refine ⟨rfl, ?_⟩
  intro row hrow
  cases hrow

variable (policy : Uuid) {a : PurchaseArgs} {u u' : SpendThread} {c : SpendSettings} {s' : SpendDb}
  {s : AutoTopupDb} {t t' : AutoTopupThread}

/-- The row a call keeps its hold on is the one it had. -/
theorem Keyed.same (h : Keyed a u) (hcall : u'.call = u.call)
    (hown : Spend.Proof.own u'.pc = Spend.Proof.own u.pc) : Keyed a u' := by
  refine ⟨hcall.trans h.call, ?_⟩
  rw [hown]
  exact h.own

/-- What the last transaction leaves of a top-up's row keeps its key. -/
theorem persist_topup {s : SpendDb} {package : Airalo.TopupPackage} {w : Topup} {sale : Sale}
    {d : PersistDraw} {row : Row}
    (h : (Spending.topup a package w).persist c s d sale = .ok (s', row)) :
    ∃ external, row = .topup (fulfilledTopup external w) := by
  cases sale with
  | order r => cases h
  | topup r =>
    obtain ⟨s₁, _, h⟩ := bind_ok h
    cases h
    exact ⟨_, rfl⟩

theorem compensate_topup {s : SpendDb} {package : Airalo.TopupPackage} {w : Topup} {row : Row}
    (h : (Spending.topup a package w).compensate s = .ok (s', row)) :
    row = .topup (failedTopup w) := by
  obtain ⟨s₁, _, h⟩ := bind_ok h
  cases h
  rfl

theorem keyed_step {s : SpendDb} (h : Keyed a u) (hL : SpendLocal s u)
    (hm : SpendMove c s u s' u'.pc) (hcall : u'.call = u.call) :
    Keyed a u' := by
  have hfrom := hL.call
  obtain ⟨call, pc⟩ := u
  obtain ⟨call', pc'⟩ := u'
  obtain rfl : call' = call := hcall
  obtain rfl : call' = .purchase a := h.call
  dsimp only at hm
  cases hm with
  | opensTopup hpc hr =>
    dsimp only at hpc
    subst hpc
    obtain ⟨_, _, _, _, _, _, _, _, _, _, _, hkey, _⟩ := reserveTopup_fresh hr
    cases hfrom
    refine ⟨rfl, ?_⟩
    intro row hrow
    cases hrow
    exact ⟨_, rfl, hkey⟩
  | opensOrder hpc hc => cases hc
  | crashes hpc =>
    refine h.same rfl ?_
    rcases hpc with hpc | ⟨sale, hpc⟩ | ⟨e, hpc⟩ <;> dsimp only at hpc <;> subst hpc <;> rfl
  | sells hpc =>
    dsimp only at hpc
    subst hpc
    exact h.same rfl rfl
  | fails hpc =>
    dsimp only at hpc
    subst hpc
    exact h.same rfl rfl
  | abandons hpc =>
    refine h.same rfl ?_
    rcases hpc with ⟨sale, hpc⟩ | ⟨e, hpc⟩ <;> dsimp only at hpc <;> subst hpc <;> rfl
  | @persists w sale d row _ hpc hp =>
    dsimp only at hpc
    subst hpc
    obtain ⟨v, hv, hkey⟩ := h.own w.row rfl
    cases w with
    | order b o => cases hv
    | topup b package t =>
      cases hv
      obtain ⟨external, rfl⟩ := persist_topup hp
      refine ⟨rfl, ?_⟩
      intro row hrow
      cases hrow
      exact ⟨_, rfl, hkey⟩
  | @compensates w e row _ hpc hp =>
    dsimp only at hpc
    subst hpc
    obtain ⟨v, hv, hkey⟩ := h.own w.row rfl
    cases w with
    | order b o => cases hv
    | topup b package t =>
      cases hv
      obtain rfl := compensate_topup hp
      refine ⟨rfl, ?_⟩
      intro row hrow
      cases hrow
      exact ⟨_, rfl, hkey⟩
  | _ =>
    refine ⟨rfl, ?_⟩
    intro row hrow
    cases hrow

/-- What a purchase returns is settled, and has its key. -/
theorem keyed_returns {s : SpendDb} {w : Topup} (h : Keyed a u') (hL : SpendLocal s u)
    (hL' : SpendLocal s' u') (hm : SpendMove c s u s' u'.pc) (hcall : u'.call = u.call)
    (hpc : u'.pc = .replayed (.topup w) ∨ u'.pc = .fulfilled (.topup w)) :
    w ∈ s'.topups ∧ w.status ≠ .fulfilling ∧ w.idempotencyKey = a.idempotencyKey := by
  rcases hpc with hpc | hpc
  · rw [hpc] at hm
    cases hm with
    | replaysTopup hreserving hr =>
      obtain ⟨rfl, hfound, hstatus⟩ := reserveTopup_replay hr
      have hfrom := hL.call
      unfold FromCall at hfrom
      rw [hreserving] at hfrom
      dsimp only at hfrom
      rw [← hcall, h.call] at hfrom
      cases hfrom
      split at hfound
      · cases hfound
      · exact ⟨Table.mem_of_find? hfound, hstatus, by simpa using Table.prop_of_find? hfound⟩
  · have hown : Spend.Proof.own u'.pc = some (.topup w) := by rw [hpc]; rfl
    have hphase := hL'.phase
    rw [hpc] at hphase
    obtain ⟨v, hv, hkey⟩ := h.own _ hown
    cases hv
    refine ⟨hL'.stored _ hown, ?_, hkey⟩
    intro hstatus
    rw [InPhase, Row.purchase, Topup.purchase, hstatus] at hphase
    cases hphase

/-! ## What an evaluation relies on -/

/-- `f"auto-topup:{policy.pk}:"` -/
def autoPrefix : String := "auto-topup:" ++ policy.str ++ ":"

/-- The keys of a policy's purchases. -/
def isAutoKey (key : String) : Bool :=
  (autoPrefix policy).toList.isPrefixOf key.toList

theorem isAutoKey_keyPrefix (reason : FireReason) (stamp : String) :
    isAutoKey policy (keyPrefix policy reason ++ stamp) = true := by
  unfold isAutoKey
  rw [List.isPrefixOf_iff_prefix, keyPrefix, String.toList_append, String.toList_append,
    String.toList_append, List.append_assoc, List.append_assoc]
  exact List.prefix_append _ _

theorem isAutoKey_plan {policy : Policy} {esim : Esim} {reason : FireReason} {key : String}
    (h : idempotencyKey policy esim reason = .ok key) : isAutoKey policy.id key = true := by
  unfold idempotencyKey at h
  split at h
  · split at h
    · cases h
    · cases h
      exact isAutoKey_keyPrefix _ _ _
  · cases h
    exact isAutoKey_keyPrefix _ _ _

/-- An initial credit is not a policy's purchase. -/
theorem not_auto_credit {policy account : Uuid} {t : Topup} (h : IsCredit account t) :
    isAutoKey policy t.idempotencyKey = false := by
  obtain ⟨_, _, _, esim, hkey⟩ := h
  rw [Bool.eq_false_iff]
  intro hauto
  unfold isAutoKey at hauto
  rw [List.isPrefixOf_iff_prefix] at hauto
  obtain ⟨rest, hrest⟩ := hauto
  rw [hkey, initialCreditKey, autoPrefix] at hrest
  simp at hrest

/-- The row of a purchase in flight. -/
def inFlight : AutoTopupPc → Option Row
  | .purchasing _ _ u => own u.pc
  | _ => none

/-- What an evaluation may rely on. -/
structure AutoTopupLocal (s : AutoTopupDb) (t : AutoTopupThread) : Prop where
  /-- Its purchase is one of the runs of purchases, and under its key. -/
  purchase : ∀ plan seen u, t.pc = .purchasing plan seen u →
    SpendLocal s.spend u ∧ Keyed plan.args u ∧ isAutoKey s.policy.id plan.idempotencyKey = true
  /-- The row of a purchase in flight is fulfilling. -/
  fulfilling : ∀ row, inFlight t.pc = some row → row.purchase.status = .fulfilling
  /-- What was bought is settled, and in the table. -/
  settled : ∀ plan w, t.pc = .succeeding plan w → w ∈ s.spend.topups ∧ w.status ≠ .fulfilling
    ∧ w.idempotencyKey = plan.idempotencyKey ∧ isAutoKey s.policy.id w.idempotencyKey = true

/-- Two evaluations in flight have reserved different rows. -/
def AutoTopupApart (t u : AutoTopupThread) : Prop :=
  ∀ row row', inFlight t.pc = some row → inFlight u.pc = some row' → row.source ≠ row'.source

theorem autoTopupLocal_quiet (h : Quiet t.pc) :
    AutoTopupLocal s t := by
  refine ⟨?_, ?_, ?_⟩
  · intro plan seen u hpc
    rw [hpc] at h
    cases h
  · intro row hrow
    unfold inFlight at hrow
    split at hrow
    · rename_i hpc
      rw [hpc] at h
      cases h
    · cases hrow
  · intro plan w hpc
    rw [hpc] at h
    cases h

theorem inFlight_quiet {pc : AutoTopupPc} (h : Quiet pc) : inFlight pc = none := by
  cases pc <;> first | rfl | cases h

/-- What a step does to the rows. -/
structure AutoTopupEffect (s : AutoTopupDb) (t : AutoTopupThread) (s' : AutoTopupDb)
    (t' : AutoTopupThread) : Prop where
  inv : SpendInv s'.spend
  local' : AutoTopupLocal s' t'
  policy : s'.policy.id = s.policy.id
  /-- The rows of other calls stay. -/
  kept : ∀ row, Stored s.spend row → (∀ r, inFlight t.pc = some r → r.source ≠ row.source) →
    Stored s'.spend row
  /-- The row it has in flight was its own, or nobody's. -/
  owns : ∀ row', inFlight t'.pc = some row' →
    (∃ row, inFlight t.pc = some row ∧ row.source = row'.source)
      ∨ s.spend.purchase? row'.source = none

/-- A settled row is never written. -/
theorem AutoTopupEffect.settled {s s' : AutoTopupDb} {t t' : AutoTopupThread}
    (h : AutoTopupEffect s t s' t') (hL : AutoTopupLocal s t) {row : Row}
    (hrow : Stored s.spend row) (hs : row.purchase.status ≠ .fulfilling) : Stored s'.spend row := by
  refine h.kept row hrow ?_
  intro r hr hsrc
  cases hpc : t.pc with
  | purchasing plan seen u =>
    have hflight := hL.fulfilling r hr
    rw [hpc] at hr
    have hstored := (hL.purchase plan seen u hpc).1.stored r hr
    rw [hstored.eq hrow hsrc] at hflight
    exact hs hflight
  | _ =>
    rw [hpc] at hr
    cases hr

theorem topup_settled {t : Topup} (h : t.status ≠ .fulfilling) :
    (Row.topup t).purchase.status ≠ .fulfilling := fun hs => h (fulfilling_iff.1 hs)

/-- A step that leaves the rows alone. -/
theorem AutoTopupEffect.same {s' : AutoTopupDb} (hinv : SpendInv s'.spend)
    (horders : s'.spend.orders = s.spend.orders) (htopups : s'.spend.topups = s.spend.topups)
    (hpolicy : s'.policy.id = s.policy.id) (hL : AutoTopupLocal s' t')
    (hnone : inFlight t'.pc = none) :
    AutoTopupEffect s t s' t' := by
  refine ⟨hinv, hL, hpolicy, ?_, ?_⟩
  · intro row hrow _
    cases row with
    | order o => rw [stored_order] at hrow ⊢; rwa [horders]
    | topup u => rw [stored_topup] at hrow ⊢; rwa [htopups]
  · intro row hrow
    rw [hnone] at hrow
    cases hrow

/-- Where an evaluation can be after a step of its purchase. -/
theorem purchased_cases (plan : Plan) (seen : List AutoTopupSucceeded) (u : SpendThread) :
    (∃ w, purchased plan seen u = .succeeding plan w
        ∧ (u.pc = .replayed (.topup w) ∨ u.pc = .fulfilled (.topup w)))
      ∨ Quiet (purchased plan seen u)
      ∨ (purchased plan seen u = .purchasing plan seen u
        ∧ ∀ row, own u.pc = some row
          → (∃ w, InFlight u.pc w ∧ w.row = row) ∨ ∃ o, row = .order o) := by
  obtain ⟨call, pc⟩ := u
  cases pc with
  | replayed row =>
    cases row with
    | topup w => exact .inl ⟨w, rfl, .inl rfl⟩
    | order o => exact .inr (.inr ⟨rfl, fun row hrow => by cases hrow⟩)
  | fulfilled row =>
    cases row with
    | topup w => exact .inl ⟨w, rfl, .inr rfl⟩
    | order o =>
      refine .inr (.inr ⟨rfl, ?_⟩)
      intro row hrow
      cases hrow
      exact .inr ⟨o, rfl⟩
  | refused e => exact .inr (.inl (quiet_caught e))
  | refunded row e => exact .inr (.inl (quiet_caught e))
  | abandoned row e => exact .inr (.inl (quiet_caught e))
  | crashed row => exact .inr (.inl trivial)
  | requesting w =>
    refine .inr (.inr ⟨rfl, ?_⟩)
    intro row hrow
    exact .inl ⟨w, .inl rfl, Option.some.inj hrow⟩
  | persisting w sale =>
    refine .inr (.inr ⟨rfl, ?_⟩)
    intro row hrow
    exact .inl ⟨w, .inr (.inl ⟨sale, rfl⟩), Option.some.inj hrow⟩
  | compensating w e =>
    refine .inr (.inr ⟨rfl, ?_⟩)
    intro row hrow
    exact .inl ⟨w, .inr (.inr ⟨e, rfl⟩), Option.some.inj hrow⟩
  | _ => exact .inr (.inr ⟨rfl, fun row hrow => by cases hrow⟩)

theorem fulfilling_of_inFlight {s : SpendDb} {w : Spending} (hL : SpendLocal s u)
    (h : InFlight u.pc w) : w.row.purchase.status = .fulfilling := by
  have hphase := hL.phase
  rcases h with hpc | ⟨sale, hpc⟩ | ⟨e, hpc⟩ <;> rw [hpc] at hphase <;> exact hphase.2

/-- A step of a purchase is a step of its evaluation. -/
theorem effect_spends {c : AutoTopupSettings} {plan : Plan} {seen : List AutoTopupSucceeded}
    {spend : SpendDb} {y : SpendInput} (h : SpendInv s.spend) (hL : AutoTopupLocal s t)
    (hpc : t.pc = .purchasing plan seen u) (hs : spendStep c.spend s.spend u y = some (spend, u'))
    (hpc' : t'.pc = purchased plan seen u') :
    AutoTopupEffect s t { s with spend } t' := by
  obtain ⟨hLu, hkeyed, hauto⟩ := hL.purchase plan seen u hpc
  obtain ⟨hm, hcall⟩ := spendStep_move hs
  have he := stepEffect h hLu hm hcall
  have hkeyed' := keyed_step hkeyed hLu hm hcall
  have hflight : inFlight t.pc = own u.pc := by rw [hpc]; rfl
  rcases purchased_cases plan seen u' with ⟨w, hto, hw⟩ | hto | ⟨hto, hown⟩
  · -- the purchase returned
    rw [hto] at hpc'
    obtain ⟨hmem, hstatus, hkey⟩ := keyed_returns hkeyed' hLu he.local' hm hcall hw
    refine ⟨he.inv, ⟨?_, ?_, ?_⟩, rfl, fun row hrow hne => he.kept row hrow (hflight ▸ hne), ?_⟩
    · intro plan' seen' u'' hp
      rw [hpc'] at hp
      cases hp
    · intro row hrow
      rw [hpc'] at hrow
      cases hrow
    · intro plan' w' hp
      rw [hpc'] at hp
      cases hp
      exact ⟨hmem, hstatus, hkey, by rw [hkey]; exact hauto⟩
    · intro row hrow
      rw [hpc'] at hrow
      cases hrow
  · -- the purchase raised, or the process is gone
    rw [← hpc'] at hto
    refine ⟨he.inv, autoTopupLocal_quiet hto, rfl,
      fun row hrow hne => he.kept row hrow (hflight ▸ hne), ?_⟩
    intro row hrow
    rw [inFlight_quiet hto] at hrow
    cases hrow
  · -- the purchase goes on
    rw [hto] at hpc'
    have hflight' : inFlight t'.pc = own u'.pc := by rw [hpc']; rfl
    refine ⟨he.inv, ⟨?_, ?_, ?_⟩, rfl, fun row hrow hne => he.kept row hrow (hflight ▸ hne), ?_⟩
    · intro plan' seen' u'' hp
      rw [hpc'] at hp
      cases hp
      exact ⟨he.local', hkeyed', hauto⟩
    · intro row hrow
      rw [hflight'] at hrow
      rcases hown row hrow with ⟨w, hw, rfl⟩ | ⟨o, rfl⟩
      · exact fulfilling_of_inFlight he.local' hw
      · obtain ⟨w, hw, _⟩ := hkeyed'.own _ hrow
        cases hw
    · intro plan' w hp
      rw [hpc'] at hp
      cases hp
    · intro row hrow
      rw [hflight'] at hrow
      rw [hflight]
      exact he.owns row hrow

/-- **What a step of an evaluation does to the rows.** -/
theorem autoTopupEffect {c : AutoTopupSettings} {s' : AutoTopupDb} {x : AutoTopupInput}
    (h : SpendInv s.spend) (hL : AutoTopupLocal s t) (hm : AutoTopupMove c s t x s' t'.pc) :
    AutoTopupEffect s t s' t' := by
  obtain ⟨call', pc'⟩ := t'
  cases hm with
  | idles _ hquiet =>
      exact .same h rfl rfl rfl (autoTopupLocal_quiet hquiet) (inFlight_quiet hquiet)
  | refreshes _ hquiet =>
    exact .same (h.same h.books (fun _ => rfl) rfl rfl) rfl rfl rfl (autoTopupLocal_quiet hquiet)
      (inFlight_quiet hquiet)
  | rewrites _ hquiet hsame =>
    exact .same h rfl rfl hsame.id (autoTopupLocal_quiet hquiet) (inFlight_quiet hquiet)
  | @besides call u spend y hpc hbeside hs =>
    obtain ⟨hsm, hcall⟩ := spendStep_move hs
    have he := stepEffect h (spendLocal_start s.spend call) hsm hcall
    refine ⟨he.inv, autoTopupLocal_quiet trivial, rfl, ?_, fun row hrow => by cases hrow⟩
    exact fun row hrow _ => he.kept row hrow fun r hr => by cases hr
  | @plans esim plan hpc hbuy =>
    obtain ⟨_, _, _, hkey, _, _⟩ := prepare_buy hbuy
    refine .same h rfl rfl rfl ⟨?_, ?_, ?_⟩ rfl
    · intro plan' seen u hp
      cases hp
      exact ⟨spendLocal_start _ _, keyed_start _, isAutoKey_plan hkey⟩
    · intro row hrow
      cases hrow
    · intro plan' w hp
      cases hp
  | spends hpc _ hs => exact effect_spends h hL hpc hs rfl
  | records => exact .same h rfl rfl rfl (autoTopupLocal_quiet trivial) rfl
  | dies _ _ hquiet =>
      exact .same h rfl rfl rfl (autoTopupLocal_quiet hquiet) (inFlight_quiet hquiet)

/-! ## Every run -/

/-- A policy that has not fired yet, and a fresh ledger. -/
structure FreshAutoTopup (s : AutoTopupDb) : Prop where
  spend : FreshSpend s.spend
  cooldownUntil : s.policy.cooldownUntil = none
  lastTriggeredAt : s.policy.lastTriggeredAt = none
  lastTopup : s.policy.lastTopup = none
  lastIdempotencyKey : s.policy.lastIdempotencyKey = ""
  events : s.events = []

/-- What a call relies on is not disturbed by another call. -/
theorem AutoTopupLocal.frame {s' : AutoTopupDb} {u : AutoTopupThread} (hu : AutoTopupLocal s u)
    (hL : AutoTopupLocal s t) (he : AutoTopupEffect s t s' t') (hR : AutoTopupApart t u) :
    AutoTopupLocal s' u ∧ AutoTopupApart t' u := by
  refine ⟨⟨?_, hu.fulfilling, ?_⟩, ?_⟩
  · intro plan seen v hpc
    obtain ⟨hv, hkeyed, hauto⟩ := hu.purchase plan seen v hpc
    refine ⟨⟨?_, hv.phase, hv.call, hv.account⟩, hkeyed, he.policy ▸ hauto⟩
    intro row hrow
    refine he.kept row (hv.stored row hrow) fun r hr => hR r row hr ?_
    rw [hpc]
    exact hrow
  · intro plan w hpc
    obtain ⟨hmem, hstatus, hkey, hauto⟩ := hu.settled plan w hpc
    have hrow : Stored s.spend (.topup w) := hmem
    exact ⟨he.settled hL hrow (topup_settled hstatus), hstatus, hkey, he.policy ▸ hauto⟩
  · -- a row that comes to be in flight was not in the table, where the other's row is
    intro row' row hrow' hrow hsrc
    rcases he.owns row' hrow' with ⟨r, hr, hsame⟩ | hnone
    · exact hR r row hr hrow (hsame.trans hsrc)
    · cases hpc : u.pc with
      | purchasing plan seen v =>
        rw [hpc] at hrow
        have hstored := (hu.purchase plan seen v hpc).1.stored row hrow
        rw [hsrc, hstored.purchase?] at hnone
        cases hnone
      | _ =>
        rw [hpc] at hrow
        cases hrow

/-- **The invariant of concurrent evaluations.** -/
theorem autoTopupInvariant (c : AutoTopupSettings) :
    Invariant (autoTopupProgram c) FreshAutoTopup (fun _ _ _ => True) (fun s => SpendInv s.spend)
      AutoTopupLocal AutoTopupApart where
  init := fun h => spendInv_init h.spend
  start := fun _ _ => autoTopupLocal_quiet trivial
  apart_start := by
    intro call t row row' hrow
    cases hrow
  symm := fun h row row' hr hr' => Ne.symm (h row' row hr' hr)
  step := by
    intro s t x s' t' h hL _ hs
    have he := autoTopupEffect h hL (autoTopupStep_move hs).1
    exact ⟨he.inv, he.local'⟩
  frame := by
    intro s t x s' t' u h hL _ hs hu hR
    exact hu.frame hL (autoTopupEffect h hL (autoTopupStep_move hs).1) hR

end Roamkit.AutoTopup.Proof
