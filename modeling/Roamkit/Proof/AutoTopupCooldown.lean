import Roamkit.Proof.AutoTopupCount

/-!
# The cooldown of a policy

The cooldown is written with a success, and read where an evaluation decides to buy. So it
keeps apart a top-up and one that is decided on after the success of the first. It does not
keep apart two whose decisions come before either success, nor a purchase that failed and was
refunded and the one of the next beat.
-/

namespace Roamkit.AutoTopup.Proof

open Lib Spend Billing Spend.Proof Billing.Proof

variable {c : AutoTopupSettings} {s s' : AutoTopupDb} {t t' : AutoTopupThread} {x : AutoTopupInput}
  {w : Topup}

/-! ## When a top-up is debited -/

/-- Two states of one top-up. -/
structure SameDebit (v w : Topup) : Prop where
  id : v.id = w.id
  idempotencyKey : v.idempotencyKey = w.idempotencyKey
  createdAt : v.createdAt = w.createdAt

theorem SameDebit.refl (w : Topup) : SameDebit w w := ⟨rfl, rfl, rfl⟩

section Purchase

variable {a : PurchaseArgs} {u u' : SpendThread} {db db' : SpendDb}

/-- The top-ups of a purchase's step were there before, as old as they were, or are debited now. -/
theorem created_spends (h : SpendInv db) (hL : SpendLocal db u) (hk : Keyed a u)
    (hm : SpendMove c.spend db u db' u'.pc) (hw : w ∈ db'.topups)
    (hcredit : ∀ account, ¬ IsCredit account w) :
    (∃ v ∈ db.topups, SameDebit v w) ∨ w.createdAt = db.now := by
  obtain ⟨call, pc⟩ := u
  obtain rfl : call = .purchase a := hk.call
  obtain ⟨call', pc'⟩ := u'
  dsimp only at hm
  have hphase := hL.phase
  -- what the last transaction of a purchase writes is its row, in its new status
  have hsettles : ∀ v v' : Topup, Writes db db' (.topup v') → own pc = some (.topup v)
    → SameDebit v v' →
      (∃ v ∈ db.topups, SameDebit v w) ∨ w.createdAt = db.now := by
    intro v v' hwrites hown hsame
    rcases hwrites.only (.topup w) hw with hrow | ⟨hold, _⟩ | ⟨_, hrow, hc⟩
    · cases hrow
      exact .inl ⟨v, hL.stored _ hown, hsame⟩
    · exact .inl ⟨w, hold, .refl w⟩
    · cases hrow
      exact absurd hc (hcredit _)
  cases hm with
  | transfers _ hcall => cases hcall
  | replaysOrder _ hcall => cases hcall
  | opensOrder _ hcall => cases hcall
  | replaysTopup _ hr =>
    obtain ⟨rfl, _⟩ := reserveTopup_replay hr
    exact .inl ⟨w, hw, .refl w⟩
  | opensTopup _ hr =>
    obtain ⟨topups, _, _, _, hi, rfl, _, _, _, _, _, _, hcreated⟩ := reserveTopup_fresh hr
    rcases (Table.mem_insert hi).1 hw with hold | rfl
    · exact .inl ⟨w, hold, .refl w⟩
    · exact .inr hcreated
  | @persists v sale d row _ hpc hp =>
    dsimp only at hpc
    subst hpc
    obtain ⟨heffect, _⟩ := effect_persist h (hL.stored _ rfl) hphase.2 hp
    cases v with
    | order b o =>
      obtain ⟨_, hrow, _⟩ := hk.own _ rfl
      cases hrow
    | topup b package v =>
      obtain ⟨external, rfl⟩ := persist_topup hp
      exact hsettles _ _ heffect.writes rfl ⟨rfl, rfl, rfl⟩
  | @compensates v e row _ hpc hp =>
    dsimp only at hpc
    subst hpc
    obtain ⟨heffect, _⟩ := effect_compensate h (hL.stored _ rfl) hphase.2 hphase.1 hp
    cases v with
    | order b o =>
      obtain ⟨_, hrow, _⟩ := hk.own _ rfl
      cases hrow
    | topup b package v =>
      obtain rfl := compensate_topup hp
      exact hsettles _ _ heffect.writes rfl ⟨rfl, rfl, rfl⟩
  | _ => exact .inl ⟨w, hw, .refl w⟩

/-- The clock does not go back. -/
theorem now_spends (h : SpendInv db) (hL : SpendLocal db u)
    (hm : SpendMove c.spend db u db' u'.pc) :
    db.now ≤ db'.now := by
  obtain ⟨call, pc⟩ := u
  obtain ⟨call', pc'⟩ := u'
  dsimp only at hm
  have hphase := hL.phase
  cases hm with
  | waits => exact Int.le_add_of_nonneg_right (Int.natCast_nonneg _)
  | transfers _ _ ht =>
    rcases transferEsim_cases ht with rfl | ⟨_, rfl⟩ <;> exact Int.le_refl _
  | replaysOrder _ _ hr =>
    obtain ⟨rfl, _⟩ := reserveOrder_replay hr
    exact Int.le_refl _
  | opensOrder _ _ hr => exact (effect_openOrder h hr).1.writes.now ▸ Int.le_refl _
  | replaysTopup _ hr =>
    obtain ⟨rfl, _⟩ := reserveTopup_replay hr
    exact Int.le_refl _
  | opensTopup _ hr => exact (effect_openTopup h hr).1.writes.now ▸ Int.le_refl _
  | @persists v sale d row _ hpc hp =>
    dsimp only at hpc
    subst hpc
    exact (effect_persist h (hL.stored _ rfl) hphase.2 hp).1.writes.now ▸ Int.le_refl _
  | @compensates v e row _ hpc hp =>
    dsimp only at hpc
    subst hpc
    exact (effect_compensate h (hL.stored _ rfl) hphase.2 hphase.1 hp).1.writes.now ▸ Int.le_refl _
  | _ => exact Int.le_refl _

end Purchase

/-- What goes on beside the evaluations does not put the clock back. -/
theorem now_step (h : SpendInv s.spend) (hL : AutoTopupLocal s t) {pc : AutoTopupPc}
    (hm : AutoTopupMove c s t x s' pc) : s.spend.now ≤ s'.spend.now := by
  cases hm with
  | besides _ _ hs => exact now_spends h (spendLocal_start s.spend _) (spendStep_move hs).1
  | spends hpc _ hs => exact now_spends h (hL.purchase _ _ _ hpc).1 (spendStep_move hs).1
  | _ => exact Int.le_refl _

theorem events_step {pc : AutoTopupPc} (hm : AutoTopupMove c s t x s' pc) :
    ∀ e ∈ s.events, e ∈ s'.events := by
  intro e he
  rcases records_or_same hm with ⟨hevents, _⟩ | ⟨plan, w, _, _, rfl⟩
  · rwa [hevents]
  · exact List.mem_append_left _ he

/-- The auto top-ups after a step were there before, or are debited now, by a purchase. -/
theorem created_step (h : SpendInv s.spend) (hL : AutoTopupLocal s t) {pc : AutoTopupPc}
    (hm : AutoTopupMove c s t x s' pc) (hw : w ∈ s'.spend.topups)
    (hauto : isAutoKey s.policy.id w.idempotencyKey = true) :
    (∃ v ∈ s.spend.topups, SameDebit v w)
      ∨ w.createdAt = s.spend.now ∧ ∃ plan seen u, t.pc = .purchasing plan seen u := by
  cases hm with
  | besides _ hbeside hs => exact .inl ⟨w, beside_topups hbeside hs ▸ hw, .refl w⟩
  | @spends plan seen u u' spend y hpc _ hs =>
    obtain ⟨hLu, hkeyed, _⟩ := hL.purchase plan seen u hpc
    have hcredit : ∀ account, ¬ IsCredit account w := by
      intro account hcredit
      rw [not_auto_credit hcredit] at hauto
      cases hauto
    rcases created_spends h hLu hkeyed (spendStep_move hs).1 hw hcredit with hold | hnow
    · exact .inl hold
    · exact .inr ⟨hnow, plan, seen, u, hpc⟩
  | _ => exact .inl ⟨w, hw, .refl w⟩

/-! ## The cooldown in every run -/

/-- Debits are in the past, and the cooldown is not over before that of any success. -/
structure CooldownInv (c : AutoTopupSettings) (s : AutoTopupDb) : Prop where
  past : ∀ w ∈ s.spend.topups, isAutoKey s.policy.id w.idempotencyKey = true
    → w.createdAt ≤ s.spend.now
  /-- A success is recorded after the debit of its top-up. -/
  events : ∀ e ∈ s.events, e.createdAt ≤ s.spend.now ∧ ∃ w ∈ s.spend.topups, w.status ≠ .fulfilling
    ∧ w.id = e.topupId ∧ w.createdAt ≤ e.createdAt
  cooling : ∀ e ∈ s.events, ∃ ends, s.policy.cooldownUntil = some ends
    ∧ e.createdAt + seconds c.cooldownSeconds ≤ ends

/-- What an evaluation had seen recorded when it decided to buy is a cooldown ago. -/
def CooledDown (c : AutoTopupSettings) (s : AutoTopupDb) (t : AutoTopupThread) : Prop :=
  ∀ plan seen u, t.pc = .purchasing plan seen u → ∀ e ∈ seen,
    e ∈ s.events ∧ e.createdAt + seconds c.cooldownSeconds ≤ s.spend.now

theorem cooledDown_quiet (h : Quiet t.pc) : CooledDown c s t := by
  intro plan seen u hpc
  rw [hpc] at h
  cases h

/-- Time passes, and events stay. -/
theorem CooledDown.later (h : CooledDown c s t) (hevents : ∀ e ∈ s.events, e ∈ s'.events)
    (hnow : s.spend.now ≤ s'.spend.now) : CooledDown c s' t := by
  intro plan seen u hpc e he
  obtain ⟨hmem, hle⟩ := h plan seen u hpc e he
  exact ⟨hevents e hmem, Int.le_trans hle hnow⟩

theorem cooldownInv_step (h : SpendInv s.spend) (hi : CooldownInv c s) (hL : AutoTopupLocal s t)
    (hm : AutoTopupMove c s t x s' t'.pc) : CooldownInv c s' := by
  have he := autoTopupEffect h hL hm
  have hnow := now_step h hL hm
  have hpast : ∀ w ∈ s'.spend.topups, isAutoKey s'.policy.id w.idempotencyKey = true →
      w.createdAt ≤ s'.spend.now := by
    intro w hw hauto
    rw [he.policy] at hauto
    rcases created_step h hL hm hw hauto with ⟨v, hv, hsame⟩ | ⟨hcreated, _⟩
    · rw [← hsame.createdAt]
      exact Int.le_trans (hi.past v hv (hsame.idempotencyKey ▸ hauto)) hnow
    · rw [hcreated]
      exact hnow
  -- the row of an event is settled, and stays
  have hkept : ∀ e ∈ s.events, e.createdAt ≤ s'.spend.now
    ∧ ∃ w ∈ s'.spend.topups, w.status ≠ .fulfilling
      ∧ w.id = e.topupId ∧ w.createdAt ≤ e.createdAt := by
    intro e hmem
    obtain ⟨hle, w, hw, hstatus, hid, hcreated⟩ := hi.events e hmem
    have hrow : Stored s.spend (.topup w) := hw
    exact ⟨Int.le_trans hle hnow, w, he.settled hL hrow (topup_settled hstatus), hstatus,
      hid, hcreated⟩
  rcases records_or_same hm with ⟨hevents, hsame⟩ | ⟨plan, w, hpc, _, rfl⟩
  · refine ⟨hpast, ?_, ?_⟩
    · rw [hevents]
      exact hkept
    · rw [hevents, hsame.cooldownUntil]
      exact hi.cooling
  · obtain ⟨hmem, hstatus, hkey, hauto⟩ := hL.settled plan w hpc
    refine ⟨hpast, ?_, ?_⟩
    · intro e hmem'
      rcases List.mem_append.1 hmem' with hold | hnew
      · exact hkept e hold
      · rw [List.mem_singleton.1 hnew]
        exact ⟨Int.le_refl _, w, hmem, hstatus, rfl, hi.past w hmem hauto⟩
    · intro e hmem'
      refine ⟨s.spend.now + seconds c.cooldownSeconds, rfl, Int.add_le_add_right ?_ _⟩
      rcases List.mem_append.1 hmem' with hold | hnew
      · exact (hi.events e hold).1
      · rw [List.mem_singleton.1 hnew]
        exact Int.le_refl _

/-- An evaluation decides to buy when the cooldown is over. -/
theorem cooledDown_step (hi : CooldownInv c s) (hT : CooledDown c s t)
    (hnow : s.spend.now ≤ s'.spend.now) (hm : AutoTopupMove c s t x s' t'.pc) :
    CooledDown c s' t' := by
  have hevents := events_step hm
  obtain ⟨call', pc'⟩ := t'
  dsimp only at hm
  cases hm with
  | @plans esim plan _ hbuy =>
    intro plan' seen u hpc e hmem
    cases hpc
    obtain ⟨hcooldown, _⟩ := prepare_buy hbuy
    obtain ⟨ends, hends, hle⟩ := hi.cooling e hmem
    rw [hends, Option.any_some, decide_eq_false_iff_not, Int.not_lt] at hcooldown
    exact ⟨hmem, Int.le_trans hle hcooldown⟩
  | @spends plan seen u u' spend y hpc _ hs =>
    intro plan' seen' v hpc' e hmem
    rcases purchased_cases plan seen u' with ⟨w, hto, _⟩ | hto | ⟨hto, _⟩
    · rw [show purchased plan seen u' = _ from hpc'] at hto
      cases hto
    · rw [show purchased plan seen u' = _ from hpc'] at hto
      cases hto
    · rw [show purchased plan seen u' = _ from hpc'] at hto
      cases hto
      exact hT.later hevents hnow plan seen u hpc e hmem
  | idles _ hquiet => exact cooledDown_quiet hquiet
  | refreshes _ hquiet => exact cooledDown_quiet hquiet
  | rewrites _ hquiet => exact cooledDown_quiet hquiet
  | besides => exact cooledDown_quiet trivial
  | records => exact cooledDown_quiet trivial
  | dies _ _ hquiet => exact cooledDown_quiet hquiet

theorem cooldownInvariant (c : AutoTopupSettings) :
    Invariant (autoTopupProgram c) FreshAutoTopup (fun _ _ _ => True)
      (fun s => SpendInv s.spend ∧ CooldownInv c s)
        (fun s t => AutoTopupLocal s t ∧ CooledDown c s t)
      AutoTopupApart where
  init := by
    intro s h
    refine ⟨(autoTopupInvariant c).init h, ?_, ?_, ?_⟩
    · intro w hw
      rw [Table.mem_def, h.spend.topups] at hw
      cases hw
    · intro e he
      rw [h.events] at he
      cases he
    · intro e he
      rw [h.events] at he
      cases he
  start _ _ := ⟨autoTopupLocal_quiet trivial, cooledDown_quiet trivial⟩
  apart_start := (autoTopupInvariant c).apart_start
  symm := (autoTopupInvariant c).symm
  step := by
    intro s t x s' t' ⟨h, hi⟩ ⟨hL, hT⟩ _ hs
    have hm := (autoTopupStep_move hs).1
    have he := autoTopupEffect h hL hm
    exact ⟨⟨he.inv, cooldownInv_step h hi hL hm⟩, he.local',
      cooledDown_step hi hT (now_step h hL hm) hm⟩
  frame := by
    intro s t x s' t' u ⟨h, _⟩ ⟨hL, _⟩ _ hs ⟨hu, hT⟩ hR
    have hm := (autoTopupStep_move hs).1
    obtain ⟨hu', hR'⟩ := hu.frame hL (autoTopupEffect h hL hm) hR
    exact ⟨⟨hu', hT.later (events_step hm) (now_step h hL hm)⟩, hR'⟩

/-- A top-up is debited a cooldown after every top-up whose success had been recorded when it was
decided on. -/
def CooldownSound (c : AutoTopupSettings) (g : Config AutoTopupDb AutoTopupThread) : Prop :=
  ∀ p t x s' t' w, g.threads p = some t → autoTopupStep c g.store t x = some (s', t')
    → w ∈ s'.spend.topups →
    isAutoKey s'.policy.id w.idempotencyKey = true → (∀ v ∈ g.store.spend.topups, v.id ≠ w.id) →
      ∃ plan seen u, t.pc = .purchasing plan seen u ∧ ∀ e ∈ seen, ∀ v ∈ g.store.spend.topups,
        v.id = e.topupId → v.createdAt + seconds c.cooldownSeconds ≤ w.createdAt

/-- **A success keeps the next purchase off for a cooldown**, in every run. -/
theorem cooldown_sound {g : Config AutoTopupDb AutoTopupThread}
    (h : (autoTopupProgram c).Reach FreshAutoTopup g) : CooldownSound c g := by
  intro p t x s' t' w ht hs hw hauto hnew
  have hold := (cooldownInvariant c).reach h
  obtain ⟨hspend, hi⟩ := hold.store
  obtain ⟨hL, hT⟩ := hold.thread p t ht
  have hm := (autoTopupStep_move hs).1
  rw [(autoTopupEffect hspend hL hm).policy] at hauto
  rcases created_step hspend hL hm hw hauto with ⟨v, hv, hsame⟩ | ⟨hcreated, plan, seen, u, hpc⟩
  · exact absurd hsame.id (hnew v hv)
  · refine ⟨plan, seen, u, hpc, fun e he v hv hid => ?_⟩
    obtain ⟨hmem, hle⟩ := hT plan seen u hpc e he
    obtain ⟨_, v', hv', _, hid', hbefore⟩ := hi.events e hmem
    obtain rfl : v = v' := Table.eq_of_clash hv hv' (.inl (hid.trans hid'.symm))
    rw [hcreated]
    exact Int.le_trans (Int.add_le_add_right hbefore _) hle

/-! ## A purchase that is retried -/

/-- Any two top-ups of the policy are debited a cooldown apart. -/
def Separated (c : AutoTopupSettings) (s : AutoTopupDb) : Prop :=
  ∀ v ∈ s.spend.topups, ∀ w ∈ s.spend.topups, isAutoKey s.policy.id v.idempotencyKey = true →
    isAutoKey s.policy.id w.idempotencyKey = true → v ≠ w
      → seconds c.cooldownSeconds ≤ (v.createdAt - w.createdAt).natAbs

/-- The provider fails, and the next beat buys on usage that was refreshed since. -/
def retriesOne : List (Act AutoTopupCall AutoTopupInput) :=
  fundsAlice ++ evaluates 1 alice ++ providerFails 1 ++ refreshes ++ evaluates 2 bob

/-- A debit of the policy at a time. -/
def debitedAt (id : Uuid) (time : Time) (s : AutoTopupDb) : Bool :=
  s.spend.topups.rows.any fun w =>
    w.id = id && isAutoKey s.policy.id w.idempotencyKey && w.createdAt = time

theorem debitedAt_mem {id : Uuid} {time : Time} (h : debitedAt id time s = true) :
    ∃ w ∈ s.spend.topups, w.id = id ∧ isAutoKey s.policy.id w.idempotencyKey = true
      ∧ w.createdAt = time := by
  obtain ⟨w, hw, hall⟩ := List.any_eq_true.1 h
  simp only [Bool.and_eq_true, decide_eq_true_eq] at hall
  exact ⟨w, hw, hall.1.1, hall.1.2, hall.2⟩

/-- The two purchases are debited a microsecond apart. -/
theorem debits_unseparated :
    ¬ ∀ c g, (autoTopupProgram c).Reach FreshAutoTopup g → Separated c g.store := by
  intro h
  obtain ⟨g, hr, hg⟩ :=
    Program.run_check (autoTopupProgram autoSettings) (oneEsim emptyEsim (usagePolicy .zero 0))
    retriesOne (fun g => debitedAt alice 0 g.store && debitedAt bob 1 g.store) (by decide +kernel)
  obtain ⟨hfirst, hsecond⟩ := Bool.and_eq_true_iff.1 hg
  obtain ⟨v, hv, hidv, hautov, hcreatedv⟩ := debitedAt_mem hfirst
  obtain ⟨w, hw, hidw, hautow, hcreatedw⟩ := debitedAt_mem hsecond
  have hne : v ≠ w := by
    rintro rfl
    rw [hidv] at hidw
    exact absurd hidw (by decide)
  have happart :=
    h _ g (Program.reach_run (freshAutoTopup_oneEsim _ ⟨rfl, rfl, rfl, rfl⟩) hr) v hv w hw hautov
    hautow hne
  rw [hcreatedv, hcreatedw] at happart
  exact absurd happart (by decide)

/-- A top-up is bought, and the next is decided on when the cooldown is over. -/
def buysAgain : List (Act AutoTopupCall AutoTopupInput) :=
  buysOne ++ [.call 3 (.wait 900000000), .tick 3 (.spend .go), .call 2 .evaluate,
    .tick 2 (.staff none),
    .tick 2 (.usage (usageReply [("remaining", .int 0)]) false), .tick 2 .go, .tick 2 .go]

/-- The thread has decided to buy, with so many successes recorded. -/
def decidedAfter (p n : Nat) (g : Config AutoTopupDb AutoTopupThread) : Bool :=
  match g.threads p with
  | some ⟨_, .purchasing _ seen _⟩ => seen.length = n
  | _ => false

theorem cooldown_sound_second : ∃ g, (autoTopupProgram autoSettings).Reach FreshAutoTopup g
    ∧ decidedAfter 2 1 g = true ∧ CooldownSound autoSettings g := by
  obtain ⟨g, hr, hg⟩ :=
    Program.run_check (autoTopupProgram autoSettings) (oneEsim emptyEsim (usagePolicy .zero 0))
    buysAgain (decidedAfter 2 1) (by decide +kernel)
  have hreach := Program.reach_run (freshAutoTopup_oneEsim _ ⟨rfl, rfl, rfl, rfl⟩) hr
  exact ⟨g, hreach, hg, cooldown_sound hreach⟩

end Roamkit.AutoTopup.Proof
