import Roamkit.Proof.AutoTopupSuccess

/-!
# The count of a policy

`_on_success` takes the count down by one for whatever its purchase returned. It does not ask
whether that top-up was counted before, and nothing in front of a purchase asks whether the
count is used up. The count is exact in every run in which each top-up that is bought is
counted once, and none is bought that the count does not cover with those that wait to be
counted.
-/

namespace Roamkit.AutoTopup.Proof

open Lib Spend Billing Spend.Proof Billing.Proof

variable {c : AutoTopupSettings} {s s' : AutoTopupDb} {t t' : AutoTopupThread} {x : AutoTopupInput}
  {n : Nat} {w : Topup}

/-- The fulfilled top-ups of the policy. -/
def bought (s : AutoTopupDb) : List Topup :=
  s.spend.topups.rows.filter fun w =>
    isAutoKey s.policy.id w.idempotencyKey && decide (w.status = .fulfilled)

theorem mem_bought : w ∈ bought s
    ↔ isAutoKey s.policy.id w.idempotencyKey = true ∧ IsFulfilled s w := by
  unfold bought
  rw [List.mem_filter, Bool.and_eq_true, decide_eq_true_iff]
  constructor
  · rintro ⟨hmem, hauto, hstatus⟩
    exact ⟨hauto, hmem, hstatus⟩
  · rintro ⟨hauto, hmem, hstatus⟩
    exact ⟨hmem, hauto, hstatus⟩

theorem bought_nodup (s : AutoTopupDb) : ((bought s).map Topup.id).Nodup := by
  have happart : s.spend.topups.rows.Pairwise fun w w' => w.id ≠ w'.id :=
    s.spend.topups.apart.imp fun hclash hid => hclash (.inl hid)
  exact List.pairwise_map.2 (happart.filter _)

/-- A success was recorded for the top-up. -/
def Recorded (s : AutoTopupDb) (w : Topup) : Prop := ∃ e ∈ s.events, e.topupId = w.id

/-- The top-ups that were bought and are not recorded yet. -/
def waiting (s : AutoTopupDb) : List Topup :=
  (bought s).filter fun w => !s.events.any (·.topupId = w.id)

/-- Each top-up that is bought is counted once, and the count covers what is bought. -/
structure CountsOnce (s : AutoTopupDb) (t : AutoTopupThread) (x : AutoTopupInput) : Prop where
  /-- A purchase is persisted while the count is above the number of those that wait. -/
  sells : ∀ plan seen u v sale d, t.pc = .purchasing plan seen u → u.pc = .persisting v sale →
    x = .spend (.persist d) → ∀ m, s.policy.remainingCount = some m → (waiting s).length < m
  /-- A success is recorded for a fulfilled top-up that has none. -/
  records : ∀ plan w, t.pc = .succeeding plan w → x = .go → w.status = .fulfilled ∧ ¬ Recorded s w
  /-- An evaluation does not fail before it has recorded what it bought. -/
  stays : ∀ plan w, t.pc = .succeeding plan w → w.status = .fulfilled → ¬ Recorded s w →
    x ≠ .fail ∧ x ≠ .crash

/-- A policy with a count, that has not fired yet. -/
structure FreshCount (n : Nat) (s : AutoTopupDb) : Prop where
  fresh : FreshAutoTopup s
  fixed : s.policy.renewMode = .fixedCount
  count : s.policy.remainingCount = some n

/-! ## What a step buys -/

/-- What goes on beside the evaluations writes no top-up. -/
theorem beside_topups {call : AutoTopupCall} {k : SpendCall} {u : SpendThread} {spend : SpendDb}
    {y : SpendInput} (hcall : call.beside = some k)
    (hs : spendStep c.spend s.spend ⟨k, .asked⟩ y = some (spend, u)) :
    spend.topups = s.spend.topups := by
  obtain ⟨hm, _⟩ := spendStep_move hs
  have hkind : (∃ p, k = .post p) ∨ ∃ d, k = .wait d := by
    cases call with
    | post p => exact .inl ⟨p, (Option.some.inj hcall).symm⟩
    | wait d => exact .inr ⟨d, (Option.some.inj hcall).symm⟩
    | _ => cases hcall
  obtain ⟨called, pc⟩ := u
  dsimp only at hm
  cases hm with
  | transfers _ hk =>
    rcases hkind with ⟨_, rfl⟩ | ⟨_, rfl⟩ <;> cases hk
  | replaysOrder _ hk =>
    rcases hkind with ⟨_, rfl⟩ | ⟨_, rfl⟩ <;> cases hk
  | opensOrder _ hk =>
    rcases hkind with ⟨_, rfl⟩ | ⟨_, rfl⟩ <;> cases hk
  | persists hpc => cases hpc
  | compensates hpc => cases hpc
  | opensTopup hpc => cases hpc
  | replaysTopup hpc => cases hpc
  | _ => rfl

/-- A purchase is fulfilled in the transaction that persists it. -/
theorem persist_input {u u' : SpendThread} {db db' : SpendDb} {y : SpendInput} {row : Row}
    (hs : spendStep c.spend db u y = some (db', u')) (hpc : u'.pc = .fulfilled row) :
    ∃ v sale d, u.pc = .persisting v sale ∧ y = .persist d := by
  obtain ⟨hm, _⟩ := spendStep_move hs
  rw [hpc] at hm
  cases hm with
  | @persists v sale d _ _ hat _ =>
    obtain ⟨call, pc⟩ := u
    dsimp only at hat
    subst hat
    cases y with
    | persist d' => exact ⟨v, sale, d', rfl, rfl⟩
    | fail =>
      cases hs
      cases hpc
    | crash =>
      cases hs
      cases hpc
    | _ => cases hs

/-- A fulfilled top-up of a purchase's step was there before, or is the purchase's own. -/
theorem fulfilled_spends {u u' : SpendThread} {db db' : SpendDb} (h : SpendInv db)
    (hL : SpendLocal db u) (hm : SpendMove c.spend db u db' u'.pc) (hcall : u'.call = u.call)
    (hmem : w ∈ db'.topups) (hstatus : w.status = .fulfilled)
    (hcredit : ∀ account, ¬ IsCredit account w) :
    w ∈ db.topups ∨ u'.pc = .fulfilled (.topup w) := by
  have he := stepEffect h hL hm hcall
  have hfulfilled : (Row.topup w).purchase.status = .fulfilled := by
    show w.status.toOrder = .fulfilled
    rw [hstatus]
    rfl
  rcases he.only (.topup w) hmem with hold | hown | ⟨r, v, _, hrow, hv⟩
  · exact .inl hold
  · -- of the rows a call can own, only one that was just fulfilled is
    have hphase := he.local'.phase
    cases hpc : u'.pc with
    | fulfilled row =>
      rw [hpc] at hown
      cases hown
      exact .inr rfl
    | requesting v =>
      rw [hpc] at hown hphase
      rw [← Option.some.inj hown, hphase.2] at hfulfilled
      cases hfulfilled
    | persisting v sale =>
      rw [hpc] at hown hphase
      rw [← Option.some.inj hown, hphase.2] at hfulfilled
      cases hfulfilled
    | compensating v e =>
      rw [hpc] at hown hphase
      rw [← Option.some.inj hown, hphase.2] at hfulfilled
      cases hfulfilled
    | refunded row e =>
      rw [hpc] at hown hphase
      rw [← Option.some.inj hown, show row.purchase.status = _ from hphase] at hfulfilled
      cases hfulfilled
    | abandoned row e =>
      rw [hpc] at hown hphase
      rw [← Option.some.inj hown, show row.purchase.status = _ from hphase] at hfulfilled
      cases hfulfilled
    | crashed row =>
      rw [hpc] at hown hphase
      have hrow : row = some (.topup w) := hown
      subst hrow
      rw [show (Row.topup w).purchase.status = _ from hphase] at hfulfilled
      cases hfulfilled
    | _ =>
      rw [hpc] at hown
      cases hown
  · cases hrow
    exact absurd hv (hcredit _)

/-- What a step buys: nothing, or the top-up it goes on to record. -/
theorem bought_step (h : SpendInv s.spend) (hL : AutoTopupLocal s t)
    (hm : AutoTopupMove c s t x s' t'.pc) (hw : w ∈ bought s') :
    w ∈ bought s ∨ (∃ plan, t'.pc = .succeeding plan w)
      ∧ ∃ plan seen u v sale d, t.pc = .purchasing plan seen u ∧ u.pc = .persisting v sale
        ∧ x = .spend (.persist d) := by
  obtain ⟨call', pc'⟩ := t'
  obtain ⟨hauto, hmem, hstatus⟩ := mem_bought.1 hw
  have hcredit : ∀ account, ¬ IsCredit account w := by
    intro account hcredit
    rw [not_auto_credit hcredit] at hauto
    cases hauto
  cases hm with
  | rewrites _ _ hsame => exact .inl (mem_bought.2 ⟨hsame.id ▸ hauto, hmem, hstatus⟩)
  | @besides call u spend y _ hbeside hs =>
    have hold : w ∈ s.spend.topups := beside_topups hbeside hs ▸ hmem
    exact .inl (mem_bought.2 ⟨hauto, hold, hstatus⟩)
  | @spends plan seen u u' spend y hpc hx hs =>
    obtain ⟨hLu, _, _⟩ := hL.purchase plan seen u hpc
    obtain ⟨hsm, hcall⟩ := spendStep_move hs
    rcases fulfilled_spends h hLu hsm hcall hmem hstatus hcredit with hold | hown
    · exact .inl (mem_bought.2 ⟨hauto, hold, hstatus⟩)
    · obtain ⟨v, sale, d, hat, hy⟩ := persist_input hs hown
      refine .inr ⟨⟨plan, ?_⟩, plan, seen, u, v, sale, d, hpc, hat, hx.trans (congrArg _ hy)⟩
      show purchased plan seen u' = _
      unfold purchased
      rw [hown]
  | _ => exact .inl (mem_bought.2 ⟨hauto, hmem, hstatus⟩)

/-- A step records a success, or leaves the record of the policy as it is. -/
theorem records_or_same {pc : AutoTopupPc} (hm : AutoTopupMove c s t x s' pc) :
    (s'.events = s.events ∧ SameRecord s'.policy s.policy)
      ∨ ∃ plan w, t.pc = .succeeding plan w ∧ x = .go ∧ s' = recordSuccess c s plan w := by
  cases hm with
  | rewrites _ _ hsame => exact .inl ⟨rfl, hsame⟩
  | records hpc hx => exact .inr ⟨_, _, hpc, hx, rfl⟩
  | _ => exact .inl ⟨rfl, .refl _⟩

/-- What an evaluation that has bought a top-up does next. -/
theorem succeeding_step {pc : AutoTopupPc} {plan : Plan} (hpc : t.pc = .succeeding plan w)
    (hm : AutoTopupMove c s t x s' pc) :
    s' = recordSuccess c s plan w ∨ x = .fail ∨ x = .crash := by
  cases hm with
  | records hpc' _ =>
    rw [hpc] at hpc'
    cases hpc'
    exact .inl rfl
  | dies _ hx _ => exact .inr hx
  | besides hpc' =>
    rw [hpc] at hpc'
    cases hpc'
  | plans hpc' =>
    rw [hpc] at hpc'
    cases hpc'
  | spends hpc' =>
    rw [hpc] at hpc'
    cases hpc'
  | idles hquiet =>
    rw [hpc] at hquiet
    cases hquiet
  | refreshes hquiet =>
    rw [hpc] at hquiet
    cases hquiet
  | rewrites hquiet =>
    rw [hpc] at hquiet
    cases hquiet

/-! ## The count in every run -/

/-- The count is what the successes recorded until now have left of it. -/
structure CountInv (n : Nat) (s : AutoTopupDb) : Prop where
  fixed : s.policy.renewMode = .fixedCount
  count : s.policy.remainingCount = some (n - s.events.length)
  within : (bought s).length ≤ n
  /-- No two events are of one top-up. -/
  once : (s.events.map AutoTopupSucceeded.topupId).Nodup
  events : ∀ e ∈ s.events, ∃ w ∈ bought s, w.id = e.topupId

theorem countInv_fresh (h : FreshCount n s) : CountInv n s := by
  have hevents := h.fresh.events
  have hnone : bought s = [] := by
    refine List.eq_nil_iff_forall_not_mem.2 fun w hw => ?_
    obtain ⟨_, hmem, _⟩ := mem_bought.1 hw
    rw [Table.mem_def, h.fresh.spend.topups] at hmem
    cases hmem
  refine ⟨h.fixed, ?_, ?_, ?_, ?_⟩
  · rw [hevents]
    exact h.count
  · rw [hnone]
    exact Nat.zero_le n
  · rw [hevents]
    exact .nil
  · intro e he
    rw [hevents] at he
    cases he

theorem recorded_iff : s.events.any (·.topupId = w.id) = true ↔ Recorded s w := by
  rw [List.any_eq_true]
  exact exists_congr fun e => and_congr_right fun _ => decide_eq_true_iff

/-- What was bought is recorded, or waits. -/
theorem length_bought (hi : CountInv n s) :
    (bought s).length = s.events.length + (waiting s).length := by
  have hnodup := (bought_nodup s).sublist
    (List.Sublist.map Topup.id
      (List.filter_sublist (p := fun w => s.events.any (·.topupId = w.id))))
  have hperm : (((bought s).filter fun w => s.events.any (·.topupId = w.id)).map Topup.id).Perm
      (s.events.map AutoTopupSucceeded.topupId) := by
    refine (List.perm_ext_iff_of_nodup hnodup hi.once).2 fun id => ⟨?_, ?_⟩
    · intro hid
      obtain ⟨w, hw, rfl⟩ := List.mem_map.1 hid
      obtain ⟨e, he, hid⟩ := recorded_iff.1 (List.mem_filter.1 hw).2
      exact List.mem_map.2 ⟨e, he, hid⟩
    · intro hid
      obtain ⟨e, he, rfl⟩ := List.mem_map.1 hid
      obtain ⟨w, hw, hid⟩ := hi.events e he
      exact List.mem_map.2 ⟨w, List.mem_filter.2 ⟨hw, recorded_iff.2 ⟨e, he, hid.symm⟩⟩, hid⟩
  have hlength := hperm.length_eq
  rw [List.length_map, List.length_map] at hlength
  rw [List.length_eq_length_filter_add fun w => s.events.any (·.topupId = w.id), hlength]
  rfl

/-- A step that records no success. -/
theorem CountInv.kept (h : CountInv n s) (hevents : s'.events = s.events)
    (hsame : SameRecord s'.policy s.policy) (hold : ∀ w ∈ bought s, w ∈ bought s')
    (hnew : ∀ w ∈ bought s', w ∈ bought s
      ∨ (∀ m, s.policy.remainingCount = some m → (waiting s).length < m)
      ∧ ∀ v ∈ bought s', v ∉ bought s → v = w) : CountInv n s' := by
  have hnodup : (bought s').Nodup :=
    (List.pairwise_map.1 (bought_nodup s')).imp fun hne heq => hne (congrArg _ heq)
  refine ⟨hsame.renewMode.trans h.fixed, ?_, ?_, ?_, ?_⟩
  · rw [hevents]
    exact hsame.remainingCount.trans h.count
  · by_cases hall : ∀ w ∈ bought s', w ∈ bought s
    · exact (List.subperm_of_subset hnodup hall).length_le.trans h.within
    · -- one top-up is new, and the count covers it
      rw [not_forall₂] at hall
      obtain ⟨w, hw, hfresh⟩ := hall
      obtain ⟨hroom, honly⟩ := (hnew w hw).resolve_left hfresh
      have hlt := hroom _ h.count
      have hsplit := length_bought h
      have hsub : bought s' ⊆ w :: bought s := by
        intro v hv
        by_cases hmem : v ∈ bought s
        · exact List.mem_cons_of_mem _ hmem
        · exact List.mem_cons.2 (.inl (honly v hv hmem))
      have hlength := (List.subperm_of_subset hnodup hsub).length_le
      rw [List.length_cons] at hlength
      omega
  · rw [hevents]
    exact h.once
  · intro e he
    rw [hevents] at he
    obtain ⟨w, hw, hid⟩ := h.events e he
    exact ⟨w, hold w hw, hid⟩

/-- A success that is recorded for the top-up that waited. -/
theorem CountInv.records (h : CountInv n s) (plan : Plan) (hw : w ∈ bought s)
    (hwaits : ¬ Recorded s w) :
    CountInv n (recordSuccess c s plan w) := by
  have hlength : (recordSuccess c s plan w).events.length = s.events.length + 1 :=
    List.length_append
  refine ⟨h.fixed, ?_, h.within, ?_, ?_⟩
  · show s.policy.countAfter = _
    unfold Policy.countAfter
    rw [if_pos h.fixed, h.count, hlength]
    rfl
  · show ((s.events ++ [_]).map AutoTopupSucceeded.topupId).Nodup
    rw [List.map_append]
    refine List.nodup_append.2 ⟨h.once, List.pairwise_singleton _ _, ?_⟩
    intro id hid id' hnew heq
    obtain ⟨e, he, rfl⟩ := List.mem_map.1 hid
    exact hwaits ⟨e, he, heq.trans (List.mem_singleton.1 hnew)⟩
  · intro e he
    rcases List.mem_append.1 he with hmem | hmem
    · exact h.events e hmem
    · rw [List.mem_singleton.1 hmem]
      exact ⟨w, hw, rfl⟩

theorem countInv_step (h : SpendInv s.spend) (hi : CountInv n s) (hL : AutoTopupLocal s t)
    (hok : CountsOnce s t x) (hm : AutoTopupMove c s t x s' t'.pc) : CountInv n s' := by
  have he := autoTopupEffect h hL hm
  rcases records_or_same hm with ⟨hevents, hsame⟩ | ⟨plan, w, hpc, hx, rfl⟩
  · refine hi.kept hevents hsame ?_ ?_
    · intro w hw
      obtain ⟨hauto, hfulfilled⟩ := mem_bought.1 hw
      exact mem_bought.2 ⟨hsame.id ▸ hauto, hfulfilled.kept hL he⟩
    · intro w hw
      rcases bought_step h hL hm hw
        with hmem | ⟨⟨plan, hto⟩, plan', seen, u, v, sale, d, hpc, hat, hx⟩
      · exact .inl hmem
      · refine .inr ⟨hok.sells plan' seen u v sale d hpc hat hx, fun w' hw' hnew => ?_⟩
        -- the step bought both, and goes on to record one top-up
        rcases bought_step h hL hm hw' with hmem' | ⟨⟨plan'', hto'⟩, _⟩
        · exact absurd hmem' hnew
        · rw [hto] at hto'
          cases hto'
          rfl
  · obtain ⟨hstatus, hwaits⟩ := hok.records plan w hpc hx
    obtain ⟨hmem, _, _, hauto⟩ := hL.settled plan w hpc
    exact hi.records plan (mem_bought.2 ⟨hauto, hmem, hstatus⟩) hwaits

theorem countInvariant (c : AutoTopupSettings) (n : Nat) :
    Invariant (autoTopupProgram c) (FreshCount n) CountsOnce
      (fun s => SpendInv s.spend ∧ CountInv n s) AutoTopupLocal AutoTopupApart where
  init h := ⟨(autoTopupInvariant c).init h.fresh, countInv_fresh h⟩
  start _ _ := autoTopupLocal_quiet trivial
  apart_start := (autoTopupInvariant c).apart_start
  symm := (autoTopupInvariant c).symm
  step := by
    intro s t x s' t' ⟨h, hi⟩ hL hok hs
    have hm := (autoTopupStep_move hs).1
    have he := autoTopupEffect h hL hm
    exact ⟨⟨he.inv, countInv_step h hi hL hok hm⟩, he.local'⟩
  frame := by
    intro s t x s' t' u ⟨h, _⟩ hL _ hs hu hR
    exact hu.frame hL (autoTopupEffect h hL (autoTopupStep_move hs).1) hR

/-- A top-up that waits to be recorded is in the hands of an evaluation that records it. -/
theorem waits_inHand {g : Config AutoTopupDb AutoTopupThread}
    (h : (autoTopupProgram c).ReachWhere (FreshCount n) CountsOnce g) (hw : w ∈ bought g.store)
    (hwaits : ¬ Recorded g.store w) :
    ∃ p t, g.threads p = some t ∧ ∃ plan, t.pc = .succeeding plan w := by
  refine h.owed (fun s w => w ∈ bought s ∧ ¬ Recorded s w)
    (fun t w => ∃ plan, t.pc = .succeeding plan w) ?_ ?_ w ⟨hw, hwaits⟩
  · rintro s hs w ⟨hw, _⟩
    obtain ⟨_, hmem, _⟩ := mem_bought.1 hw
    rw [Table.mem_def, hs.fresh.spend.topups] at hmem
    cases hmem
  · rintro g p t x s' t' hr ht hok hs w ⟨hw, hwaits⟩
    have hold := (countInvariant c n).reach hr
    have hL := hold.thread p t ht
    have hm := (autoTopupStep_move hs).1
    rcases bought_step hold.store.1 hL hm hw with hmem | ⟨hto, _⟩
    · have hwaited : ¬ Recorded g.store w := by
        rintro ⟨e, he, hid⟩
        rcases records_or_same hm with ⟨hevents, _⟩ | ⟨plan, v, _, _, rfl⟩
        · exact hwaits ⟨e, hevents ▸ he, hid⟩
        · exact hwaits ⟨e, List.mem_append_left _ he, hid⟩
      refine .inr ⟨⟨hmem, hwaited⟩, ?_⟩
      rintro ⟨plan, hpc⟩
      obtain ⟨_, _, hstatus⟩ := mem_bought.1 hmem
      obtain ⟨hfail, hcrash⟩ := hok.stays plan w hpc hstatus hwaited
      rcases succeeding_step hpc hm with rfl | hx | hx
      · exact hwaits ⟨_, List.mem_append_right _ (List.mem_singleton.2 rfl), rfl⟩
      · exact hfail hx
      · exact hcrash hx
    · exact .inl hto

/-- Every call has ended, or has not begun. -/
def NoneInFlight (g : Config AutoTopupDb AutoTopupThread) : Prop :=
  ∀ p t, g.threads p = some t → t.pc = .asked ∨ t.pc.isLive = false

/-- The count of a policy that began with `n` is kept. -/
structure CountSound (n : Nat) (g : Config AutoTopupDb AutoTopupThread) : Prop where
  /-- At most so many top-ups are bought. -/
  within : (bought g.store).length ≤ n
  /-- What is left is right whenever no evaluation is in flight. -/
  left : NoneInFlight g → g.store.policy.remainingCount = some (n - (bought g.store).length)

/--
**The count of a policy is kept** in every run in which each top-up that is bought is counted
once, and the count covers what is bought.
-/
theorem count_sound {g : Config AutoTopupDb AutoTopupThread}
    (h : (autoTopupProgram c).ReachWhere (FreshCount n) CountsOnce g) : CountSound n g := by
  obtain ⟨_, hi⟩ := ((countInvariant c n).reach h).store
  refine ⟨hi.within, fun hnone => ?_⟩
  have hall : waiting g.store = [] := by
    refine List.filter_eq_nil_iff.2 fun w hw hunrecorded => ?_
    have hwaits : ¬ Recorded g.store w := by
      rw [← recorded_iff]
      simpa using hunrecorded
    obtain ⟨p, t, ht, plan, hpc⟩ := waits_inHand h hw hwaits
    rcases hnone p t ht with hasked | hended
    · rw [hpc] at hasked
      cases hasked
    · rw [hpc] at hended
      cases hended
  rw [length_bought hi, hall]
  exact hi.count

/-! ## Counts that are overrun -/

/-- A policy that fires so many times. -/
def counted (n : Nat) (policy : Policy) : Policy :=
  { policy with
    renewMode := .fixedCount, remainingCount := some n, countRequired := fun _ h => by cases h }

theorem freshCount_oneEsim {n : Nat} (esim : Esim) {policy : Policy} (h : Unfired policy) :
    FreshCount n (oneEsim esim (counted n policy)) :=
  ⟨freshAutoTopup_oneEsim esim
    ⟨h.cooldownUntil, h.lastTriggeredAt, h.lastTopup, h.lastIdempotencyKey⟩, rfl, rfl⟩

/-- One evaluation that buys a top-up, and records it. -/
def buysOne : List (Act AutoTopupCall AutoTopupInput) :=
  fundsAlice ++ evaluates 1 alice ++ providerSells 1 ++ [.tick 1 .go]

/-- An eSIM with no data left. -/
def emptyEsim : Esim := oldEsim autoSettings ⟨some 0, some 1000, "ACTIVE", none, none, some 0⟩

/-- The usage is refreshed a moment later, and there is still no data left. -/
def refreshes : List (Act AutoTopupCall AutoTopupInput) :=
  [.call 3 (.wait 1), .tick 3 (.spend .go), .call 4 .refresh,
    .tick 4 (.usage (usageReply [("remaining", .int 0)]) false)]

/-- The first of two evaluations is not done when the second decides on refreshed usage. -/
def buysTwo : List (Act AutoTopupCall AutoTopupInput) :=
  fundsAlice ++ evaluates 1 alice ++ refreshes ++ evaluates 2 bob ++ providerSells 1
    ++ providerSells 2

/-- A policy with a count of none buys a top-up, and one with a count of one buys two. -/
theorem count_overrun :
    (∃ g, (autoTopupProgram autoSettings).Reach (FreshCount 0) g ∧ ¬ CountSound 0 g)
    ∧ ∃ g, (autoTopupProgram autoSettings).Reach (FreshCount 1) g ∧ ¬ CountSound 1 g := by
  constructor
  · obtain ⟨g, hr, hg⟩ := Program.run_check (autoTopupProgram autoSettings)
      (oneEsim expiredEsim (counted 0 expiryPolicy)) buysOne (fun g => (bought g.store).length = 1)
      (by decide +kernel)
    refine ⟨g, Program.reach_run (freshCount_oneEsim _ unfired_expiryPolicy) hr, fun hsound => ?_⟩
    have hwithin := hsound.within
    rw [of_decide_eq_true hg] at hwithin
    omega
  · obtain ⟨g, hr, hg⟩ := Program.run_check (autoTopupProgram autoSettings)
      (oneEsim emptyEsim (counted 1 (usagePolicy .zero 0))) buysTwo
        (fun g => (bought g.store).length = 2)
      (by decide +kernel)
    refine ⟨g, Program.reach_run (freshCount_oneEsim _ ⟨rfl, rfl, rfl, rfl⟩) hr, fun hsound => ?_⟩
    have hwithin := hsound.within
    rw [of_decide_eq_true hg] at hwithin
    omega

/-- The check of `CountsOnce`. -/
def countsOnce? (s : AutoTopupDb) (t : AutoTopupThread) (x : AutoTopupInput) : Bool :=
  match t.pc, x with
  | .purchasing _ _ u, .spend (.persist _) =>
    match u.pc with
    | .persisting _ _ =>
      s.policy.remainingCount.all fun m => (waiting s).length < m
    | _ => true
  | .succeeding _ w, .go => w.status = .fulfilled && s.events.all (·.topupId ≠ w.id)
  | .succeeding _ w, .fail => w.status ≠ .fulfilled || s.events.any (·.topupId = w.id)
  | .succeeding _ w, .crash => w.status ≠ .fulfilled || s.events.any (·.topupId = w.id)
  | _, _ => true

theorem countsOnce_of_check (h : countsOnce? s t x = true) : CountsOnce s t x := by
  obtain ⟨call, pc⟩ := t
  refine ⟨?_, ?_, ?_⟩
  · rintro plan seen ⟨_, _⟩ v sale d rfl rfl rfl
    intro m hm
    have hroom : s.policy.remainingCount.all (fun m => (waiting s).length < m) = true := h
    rw [hm] at hroom
    exact of_decide_eq_true hroom
  · rintro plan w rfl rfl
    obtain ⟨hstatus, hwaits⟩ := Bool.and_eq_true_iff.1 h
    refine ⟨of_decide_eq_true hstatus, ?_⟩
    rintro ⟨e, he, hid⟩
    exact of_decide_eq_true (List.all_eq_true.1 hwaits e he) hid
  · rintro plan w rfl hstatus hwaits
    have hfails : ¬ (decide (w.status ≠ .fulfilled) || s.events.any (·.topupId = w.id)) = true := by
      intro hor
      rcases Bool.or_eq_true_iff.1 hor with hne | hany
      · exact of_decide_eq_true hne hstatus
      · exact hwaits (recorded_iff.1 hany)
    constructor
    · rintro rfl
      exact hfails h
    · rintro rfl
      exact hfails h

theorem count_sound_once :
    ∃ g, (autoTopupProgram autoSettings).ReachWhere (FreshCount 1) CountsOnce g
    ∧ (bought g.store).length = 1 ∧ CountSound 1 g := by
  obtain ⟨g, hr, hg⟩ := Program.reachWhere_check (P := autoTopupProgram autoSettings) countsOnce?
    (fun _ _ _ h => countsOnce_of_check h)
    (freshCount_oneEsim (n := 1) expiredEsim unfired_expiryPolicy) buysOne
    (fun g => (bought g.store).length = 1) (by decide +kernel)
  exact ⟨g, hr, of_decide_eq_true hg, count_sound hr⟩

end Roamkit.AutoTopup.Proof
