import Roamkit.Proof.AutoTopup

/-!
# What counts as a success

`_on_success` records what `purchase` returned, and `purchase` returns any settled
row of its key: one that was fulfilled, or one that failed and was refunded. An
evaluation that meets its own failed top-up under the key so takes it for bought.
Where no evaluation meets one, successes are recorded for fulfilled top-ups only.
-/

namespace Roamkit.AutoTopup.Proof

open Lib Spend Billing Spend.Proof Billing.Proof

/-- The purchase does not find a failed top-up under its key. -/
def NoFailedReplay (s : AutoTopupDb) (t : AutoTopupThread) (x : AutoTopupInput) : Prop :=
  ∀ plan seen u y, t.pc = .purchasing plan seen u → x = .spend y → ∀ row,
    foundRow s.spend u y = some row → row.purchase.status ≠ .failed

/-- A top-up of the table is fulfilled. -/
def IsFulfilled (s : AutoTopupDb) (w : Topup) : Prop := w ∈ s.spend.topups ∧ w.status = .fulfilled

/-- The policy has recorded no success. -/
structure Unfired (policy : Policy) : Prop where
  cooldownUntil : policy.cooldownUntil = none
  lastTriggeredAt : policy.lastTriggeredAt = none
  lastTopup : policy.lastTopup = none
  lastIdempotencyKey : policy.lastIdempotencyKey = ""

/-- What is recorded and published is a fulfilled top-up's. -/
structure SuccessInv (s : AutoTopupDb) : Prop where
  events : ∀ e ∈ s.events, ∃ w, IsFulfilled s w ∧ w.id = e.topupId
  record : Unfired s.policy ∨ ∃ w, IsFulfilled s w ∧ s.policy.lastTopup = some w.id
    ∧ s.policy.lastIdempotencyKey = w.idempotencyKey

/-- What an evaluation takes for a success is fulfilled. -/
def Succeeds (t : AutoTopupThread) : Prop :=
  ∀ plan w, t.pc = .succeeding plan w → w.status = .fulfilled

variable (p : Nat) {t t' : AutoTopupThread} {s s' : AutoTopupDb}

theorem succeeds_quiet (h : Quiet t.pc) : Succeeds t := by
  intro plan w hpc
  rw [hpc] at h
  cases h

theorem fulfilled_of_settled {t : TopupStatus} (h : t ≠ .fulfilling) (h' : t ≠ .failed) :
    t = .fulfilled := by
  cases t with
  | fulfilling => exact absurd rfl h
  | fulfilled => rfl
  | failed => exact absurd rfl h'

/-! ## One step -/

/-- Fulfilled top-ups stay fulfilled. -/
theorem IsFulfilled.kept {w : Topup} (h : IsFulfilled s w) (hL : AutoTopupLocal s t)
    (he : AutoTopupEffect s t s' t') :
    IsFulfilled s' w := by
  have hrow : Stored s.spend (.topup w) := h.1
  refine ⟨he.settled hL hrow (topup_settled ?_), h.2⟩
  rw [h.2]
  decide

/-- A step that records no success. -/
theorem SuccessInv.kept (h : SuccessInv s) (hL : AutoTopupLocal s t)
    (he : AutoTopupEffect s t s' t') (hevents : s'.events = s.events)
    (hpolicy : SameRecord s'.policy s.policy) : SuccessInv s' := by
  refine ⟨?_, ?_⟩
  · intro e hmem
    rw [hevents] at hmem
    obtain ⟨w, hw, hid⟩ := h.events e hmem
    exact ⟨w, hw.kept hL he, hid⟩
  · rcases h.record with ⟨hcool, htrig, hlast, hkey⟩ | ⟨w, hw, hlast, hkey⟩
    · exact .inl ⟨hpolicy.cooldownUntil.trans hcool, hpolicy.lastTriggeredAt.trans htrig,
        hpolicy.lastTopup.trans hlast, hpolicy.lastIdempotencyKey.trans hkey⟩
    · exact .inr ⟨w, hw.kept hL he, hpolicy.lastTopup.trans hlast,
        hpolicy.lastIdempotencyKey.trans hkey⟩

/-- A purchase that returns a top-up returns a fulfilled one, if it finds no failed one. -/
theorem succeeds_spends {c : AutoTopupSettings} {plan : Plan} {seen : List AutoTopupSucceeded}
    {u u' : SpendThread} {spend : SpendDb} {y : SpendInput} (h : SpendInv s.spend)
    (hL : SpendLocal s.spend u)
    (hok : ∀ row, foundRow s.spend u y = some row → row.purchase.status ≠ .failed)
    (hs : spendStep c.spend s.spend u y = some (spend, u')) {plan' : Plan} {w : Topup}
    (hpc : purchased plan seen u' = .succeeding plan' w) : w.status = .fulfilled := by
  obtain ⟨hm, hcall⟩ := spendStep_move hs
  rcases purchased_cases plan seen u' with ⟨w', hto, hw⟩ | hto | ⟨hto, _⟩
  · rw [hto] at hpc
    cases hpc
    rcases hw with hw | hw
    · obtain ⟨hfound, hopen⟩ := replayed_found hs hw
      have hfailed := hok _ hfound
      refine fulfilled_of_settled (fun hst => hopen (fulfilling_iff.2 hst)) fun hst => hfailed ?_
      exact failed_iff.2 hst
    · have hphase := (stepEffect h hL hm hcall).local'.phase
      rw [hw] at hphase
      refine fulfilled_of_settled ?_ ?_
      · intro hst
        rw [InPhase, Row.purchase, Topup.purchase, hst] at hphase
        cases hphase
      · intro hst
        rw [InPhase, Row.purchase, Topup.purchase, hst] at hphase
        cases hphase
  · rw [hpc] at hto
    cases hto
  · rw [hto] at hpc
    cases hpc

theorem successInv_step {c : AutoTopupSettings} {x : AutoTopupInput} (h : SpendInv s.spend)
    (hi : SuccessInv s) (hL : AutoTopupLocal s t) (hF : Succeeds t) (hok : NoFailedReplay s t x)
    (hm : AutoTopupMove c s t x s' t'.pc) :
    SuccessInv s' ∧ Succeeds t' := by
  have he := autoTopupEffect h hL hm
  obtain ⟨call', pc'⟩ := t'
  dsimp only at hm
  cases hm with
  | idles _ hquiet => exact ⟨hi, succeeds_quiet hquiet⟩
  | refreshes _ hquiet => exact ⟨hi.kept hL he rfl (.refl _), succeeds_quiet hquiet⟩
  | rewrites _ hquiet hsame => exact ⟨hi.kept hL he rfl hsame, succeeds_quiet hquiet⟩
  | besides => exact ⟨hi.kept hL he rfl (.refl _), succeeds_quiet trivial⟩
  | plans =>
    refine ⟨hi, ?_⟩
    intro plan w hpc
    cases hpc
  | @spends plan seen u u' spend y hpc hx hs =>
    refine ⟨hi.kept hL he rfl (.refl _), ?_⟩
    intro plan' w hpc'
    exact succeeds_spends h (hL.purchase plan seen u hpc).1 (hok plan seen u y hpc hx) hs hpc'
  | @records plan w hpc _ =>
    obtain ⟨hmem, _, hkey, _⟩ := hL.settled plan w hpc
    have hw : IsFulfilled s w := ⟨hmem, hF plan w hpc⟩
    refine ⟨⟨?_, .inr ⟨w, hw.kept hL he, rfl, hkey.symm⟩⟩, succeeds_quiet trivial⟩
    intro e hmem
    rcases List.mem_append.1 hmem with hold | hnew
    · obtain ⟨v, hv, hid⟩ := hi.events e hold
      exact ⟨v, hv.kept hL he, hid⟩
    · rw [List.mem_singleton.1 hnew]
      exact ⟨w, hw.kept hL he, rfl⟩
  | dies _ _ hquiet => exact ⟨hi, succeeds_quiet hquiet⟩

/-! ## Every run -/

theorem successInvariant (c : AutoTopupSettings) :
    Invariant (autoTopupProgram c) FreshAutoTopup NoFailedReplay
      (fun s => SpendInv s.spend ∧ SuccessInv s) (fun s t => AutoTopupLocal s t ∧ Succeeds t)
      AutoTopupApart where
  init := by
    intro s h
    refine ⟨spendInv_init h.spend, ?_, .inl ⟨h.cooldownUntil, h.lastTriggeredAt, h.lastTopup,
      h.lastIdempotencyKey⟩⟩
    intro e he
    rw [h.events] at he
    cases he
  start := fun _ _ => ⟨autoTopupLocal_quiet trivial, succeeds_quiet trivial⟩
  apart_start := (autoTopupInvariant c).apart_start
  symm := (autoTopupInvariant c).symm
  step := by
    intro s t x s' t' ⟨h, hi⟩ ⟨hL, hF⟩ hok hs
    have hm := (autoTopupStep_move hs).1
    have he := autoTopupEffect h hL hm
    obtain ⟨hi', hF'⟩ := successInv_step h hi hL hF hok hm
    exact ⟨⟨he.inv, hi'⟩, he.local', hF'⟩
  frame := by
    intro s t x s' t' u ⟨h, _⟩ ⟨hL, _⟩ _ hs ⟨hu, hFu⟩ hR
    obtain ⟨hu', hR'⟩ := hu.frame hL (autoTopupEffect h hL (autoTopupStep_move hs).1) hR
    exact ⟨⟨hu', hFu⟩, hR'⟩

/-- Successes are recorded for fulfilled top-ups only. -/
structure SuccessSound (c : AutoTopupSettings) (g : Config AutoTopupDb AutoTopupThread) : Prop where
  /-- `_on_success` runs with a fulfilled top-up. -/
  called : ∀ p t plan w, g.threads p = some t → t.pc = .succeeding plan w → IsFulfilled g.store w
  /-- A published success is a fulfilled top-up's. -/
  events : ∀ e ∈ g.store.events, ∃ w, IsFulfilled g.store w ∧ w.id = e.topupId
  /-- The policy's record is empty, or a fulfilled top-up's. -/
  record : Unfired g.store.policy
    ∨ ∃ w, IsFulfilled g.store w ∧ g.store.policy.lastTopup = some w.id
    ∧ g.store.policy.lastIdempotencyKey = w.idempotencyKey
  /-- A step that changes the record or publishes is `_on_success` of a fulfilled top-up. -/
  updates : ∀ p t x s' t', g.threads p = some t → autoTopupStep c g.store t x = some (s', t') →
    ¬ (SameRecord s'.policy g.store.policy ∧ s'.events = g.store.events) →
      ∃ plan w, t.pc = .succeeding plan w ∧ IsFulfilled g.store w
  /-- An episode is passed over as bought only if a top-up was fulfilled for it. -/
  episode : ∀ esim, sameExpiryEpisode g.store.policy esim = true → ∃ w, IsFulfilled g.store w
    ∧ g.store.policy.lastIdempotencyKey = w.idempotencyKey

theorem sameExpiryEpisode_empty {policy : Policy} {esim : Esim}
    (h : policy.lastIdempotencyKey = "") : sameExpiryEpisode policy esim = false := by
  unfold sameExpiryEpisode
  split
  · rfl
  · rw [h, if_pos]
    simp [keyPrefix]

/--
**A success is a fulfilled top-up's.** In every run in which no purchase of an
evaluation finds a failed top-up under its key, `_on_success` runs for fulfilled
top-ups only, and so do the cooldown, the count and the events it writes.
-/
theorem success_fulfilled {c : AutoTopupSettings} {g : Config AutoTopupDb AutoTopupThread}
    (h : (autoTopupProgram c).ReachWhere FreshAutoTopup NoFailedReplay g) : SuccessSound c g := by
  have hold := (successInvariant c).reach h
  obtain ⟨_, hi⟩ := hold.store
  have hcalled : ∀ p t plan w, g.threads p = some t → t.pc = .succeeding plan w →
      IsFulfilled g.store w := by
    intro p t plan w ht hpc
    obtain ⟨hL, hF⟩ := hold.thread p t ht
    exact ⟨(hL.settled plan w hpc).1, hF plan w hpc⟩
  refine ⟨hcalled, hi.events, hi.record, ?_, ?_⟩
  · intro p t x s' t' ht hs hchange
    obtain ⟨hm, _⟩ := autoTopupStep_move hs
    obtain ⟨call', pc'⟩ := t'
    dsimp only at hm
    cases hm with
    | records hpc _ => exact ⟨_, _, hpc, hcalled p t _ _ ht hpc⟩
    | rewrites _ _ hsame => exact absurd ⟨hsame, rfl⟩ hchange
    | _ => exact absurd ⟨.refl _, rfl⟩ hchange
  · intro esim hsame
    rcases hi.record with hunfired | ⟨w, hw, _, hkey⟩
    · rw [sameExpiryEpisode_empty hunfired.lastIdempotencyKey] at hsame
      cases hsame
    · exact ⟨w, hw, hkey⟩

/-! ## A failed purchase that counts as bought -/

/-- A policy of Alice's that fires when the usage clock has run out, any number of times. -/
def expiryPolicy : Policy := { usagePolicy .disabled 0 with expiryEnabled := true }

/-- An eSIM whose usage clock has run out. -/
def expiredEsim : Esim :=
    oldEsim autoSettings ⟨some 100, some 1000, "EXPIRED", none, some (-1), some 0⟩

/-- One eSIM, and nothing bought for it yet. -/
def oneEsim (esim : Esim) (policy : Policy) : AutoTopupDb where
  spend := { noPurchases with esims := ⟨[esim], List.pairwise_singleton _ _⟩ }
  policy
  events := []

theorem freshAutoTopup_oneEsim (esim : Esim) {policy : Policy} (h : Unfired policy) :
    FreshAutoTopup (oneEsim esim policy) :=
  ⟨⟨fresh_twoAccounts, rfl, rfl⟩, h.cooldownUntil, h.lastTriggeredAt, h.lastTopup,
    h.lastIdempotencyKey, rfl⟩

theorem unfired_expiryPolicy : Unfired expiryPolicy := ⟨rfl, rfl, rfl, rfl⟩

/-- Alice gets a hundred. -/
def fundsAlice : List (Act AutoTopupCall AutoTopupInput) :=
  [.call 0 (.post (voucher alice "v")), .tick 0 (.spend .go)]

/-- The provider lists the package of the policy for ten. -/
def listsPackage : AutoTopupInput :=
  .spend
    (.answer
      ⟨true, .json (.dict [("data", .list [.dict [("id", .str "topup"), ("price", .int 10)]])])⟩)

/-- An evaluation decides to buy, and looks its key up. -/
def evaluates (p : Nat) (row : Uuid) : List (Act AutoTopupCall AutoTopupInput) :=
  [.call p .evaluate, .tick p (.staff none), .tick p .go, .tick p .go, .tick p (.spend .go),
    .tick p listsPackage, .tick p (.spend (.topup ⟨row, false, none⟩))]

/-- The provider fails, and the purchase is refunded. -/
def providerFails : List (Act AutoTopupCall AutoTopupInput) :=
  [.tick p (.spend (.answer ⟨false, .httpError 500⟩)), .tick p (.spend .go)]

/-- The provider sells, and the purchase is persisted. -/
def providerSells : List (Act AutoTopupCall AutoTopupInput) :=
  [.tick p (.spend (.answer ⟨true, .empty⟩)),
    .tick p (.spend (.persist ⟨fun n => (n, alice), none, none, alice⟩))]

/-- The thread is at `_on_success` with a top-up of the status. -/
def isSucceeding (status : TopupStatus) (g : Config AutoTopupDb AutoTopupThread) : Bool :=
  match g.threads p with
  | some ⟨_, .succeeding _ w⟩ => w.status = status
  | _ => false

/-- The next beat takes the failed purchase of the first for a success. -/
theorem failed_counts_as_success :
    ¬ ∀ c g, (autoTopupProgram c).Reach FreshAutoTopup g → SuccessSound c g := by
  intro h
  obtain ⟨g, hr, hg⟩ := Program.run_check (autoTopupProgram autoSettings)
    (oneEsim expiredEsim expiryPolicy)
    (fundsAlice ++ evaluates 1 alice ++ providerFails 1 ++ evaluates 2 bob)
    (isSucceeding 2 .failed) (by decide +kernel)
  have hs := h _ g (Program.reach_run (freshAutoTopup_oneEsim _ unfired_expiryPolicy) hr)
  unfold isSucceeding at hg
  split at hg
  · rename_i plan w ht
    obtain ⟨_, hstatus⟩ := hs.called 2 _ plan w ht rfl
    rw [of_decide_eq_true hg] at hstatus
    cases hstatus
  · cases hg

/-- The check of `NoFailedReplay` at one step. -/
def isNoFailedReplay (s : AutoTopupDb) (t : AutoTopupThread) (x : AutoTopupInput) : Bool :=
  match t.pc, x with
  | .purchasing _ _ u, .spend y => (foundRow s.spend u y).all (·.purchase.status ≠ .failed)
  | _, _ => true

theorem noFailedReplay_of_check {x : AutoTopupInput} (h : isNoFailedReplay s t x = true) :
    NoFailedReplay s t x := by
  intro plan seen u y hpc hx row hfound
  obtain ⟨call, pc⟩ := t
  dsimp only at hpc
  subst hpc hx
  have hall : (foundRow s.spend u y).all (·.purchase.status ≠ .failed) = true := h
  rw [hfound] at hall
  exact of_decide_eq_true hall

theorem success_fulfilled_once :
    ∃ g, (autoTopupProgram autoSettings).ReachWhere FreshAutoTopup NoFailedReplay g
      ∧ g.store.events.length = 1 ∧ SuccessSound autoSettings g := by
  obtain ⟨g, hr, hg⟩ := Program.reachWhere_check (P := autoTopupProgram autoSettings)
    isNoFailedReplay (fun _ _ _ h => noFailedReplay_of_check h)
    (freshAutoTopup_oneEsim expiredEsim unfired_expiryPolicy)
    (fundsAlice ++ evaluates 1 alice ++ providerSells 1 ++ [.tick 1 .go])
    (fun g => g.store.events.length = 1) (by decide +kernel)
  exact ⟨g, hr, of_decide_eq_true hg, success_fulfilled hr⟩

end Roamkit.AutoTopup.Proof
