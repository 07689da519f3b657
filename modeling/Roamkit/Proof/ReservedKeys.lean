import Roamkit.Proof.Goods
import Roamkit.Proof.Locks
import Roamkit.Proof.SystemKeys

/-!
# Runs in which the derived keys are the system's

The four writers run at once. As long as no client asks for a key the system
derives, every row under such a key is the system's in every state reached; a
single client that does can leave an eSIM without its initial credit for good.
-/

namespace Roamkit.Esims.Proof

open Lib Billing Spend AutoTopup Billing.Proof Spend.Proof AutoTopup.Proof

/-! ## The invariant of a run -/

/-- Nothing has been sold, and no event recorded. -/
structure FreshKeys (s : LifecycleDb) : Prop where
  spend : FreshSpend s.spend
  esims : s.spend.esims.rows = []
  events : s.events.rows = []
  manual : ∀ i, s.manual i = false

theorem keyInv_init {s : LifecycleDb} (h : FreshKeys s) : KeyInv s := by
  have htopups : ∀ w, w ∉ s.spend.topups := by
    intro w hw
    rw [Table.mem_def, h.spend.topups] at hw
    cases hw
  have hesims : ∀ e, e ∉ s.spend.esims := by
    intro e he
    rw [Table.mem_def, h.esims] at he
    cases he
  have hevents : ∀ v, v ∉ s.events := by
    intro v hv
    rw [Table.mem_def, h.events] at hv
    cases hv
  refine ⟨spendInv_init h.spend, ⟨?_, ?_⟩, ?_, ?_, ⟨?_, ?_⟩, ?_⟩
  · exact fun w hw => absurd hw (htopups w)
  · exact fun e he => absurd he (hesims e)
  · exact fun w hw => absurd hw (htopups w)
  · intro i hi
    rw [h.manual i] at hi
    cases hi
  · exact fun v hv => absurd hv (hevents v)
  · exact fun v hv => absurd hv (hevents v)
  · exact fun e he => absurd he (hesims e)

section Run

variable {c : AutoTopupSettings} {s s' : LifecycleDb}

/-- A purchase starts as one of `spendProgram` does, and any other call before its first query. -/
theorem keyLocal_start (s : LifecycleDb) (call : KeyCall c) :
    KeyLocal s ((keyProgram c).start call) := by
  have hspends : ∀ call : KeyCall c, ∀ spend : SpendCall, spendCall call = some spend →
      KeyLocal s ⟨call, .spending ⟨spend, .asked⟩⟩ := by
    intro call spend hcall
    refine keyLocal_spending rfl ⟨hcall, spendLocal_start _ _, ?_⟩ ?_
    · intro a ha
      obtain rfl : spend = .purchase a := ha
      exact purchases_start _ a
    · intro a w _ hheld
      cases hheld
  cases call with
  | spend spend => exact hspends _ spend rfl
  | evaluation e => exact hspends _ _ rfl
  | event esim eventType key => exact keyLocal_ended rfl rfl rfl rfl rfl
  | usage esim => exact keyLocal_ended rfl rfl rfl rfl rfl

theorem ownOf_start (call : KeyCall c) : ownOf ((keyProgram c).start call).pc = none := by
  cases call <;> rfl

theorem ownOf_spending {pc : KeyPc} {row : Row} (h : ownOf pc = some row) :
    ∃ u, pc = .spending u ∧ own u.pc = some row := by
  unfold ownOf at h
  split at h
  · rename_i u
    exact ⟨u, rfl, h⟩
  · cases h

/-- What a call relies on is not disturbed by another call. -/
theorem KeyLocal.frame {t t' u : KeyThread c} (hu : KeyLocal s u) (he : KeyEffect s t s' t')
    (hR : KeyApart t u) : KeyLocal s' u ∧ KeyApart t' u := by
  refine ⟨⟨?_, hu.client, hu.copy, fun v hv => he.events v (hu.noted v hv), hu.owed, hu.answer⟩, ?_⟩
  · intro v hpc
    obtain ⟨hcall, hv, hpurchases⟩ := hu.spending v hpc
    refine ⟨hcall, ⟨?_, hv.phase, hv.call, hv.account⟩,
      fun a ha => (hpurchases a ha).frame he.topups⟩
    intro row hrow
    refine he.kept row (hv.stored row hrow) fun r hr => hR r row hr ?_
    rw [hpc]
    exact hrow
  · -- a row that comes into hand was not in the table, where the other's row is
    intro row' row hrow' hrow hsrc
    rcases he.owns row' hrow' with ⟨r, hr, hsame⟩ | hnone
    · exact hR r row hr hrow (hsame.trans hsrc)
    · obtain ⟨v, hpc, hown⟩ := ownOf_spending hrow
      obtain ⟨_, hv, _⟩ := hu.spending v hpc
      rw [hsrc, (hv.stored row hown).purchase?] at hnone
      cases hnone

/-- **The invariant of the four writers.** -/
theorem keyInvariant (c : AutoTopupSettings) :
    Invariant (keyProgram c) FreshKeys Unreserved KeyInv KeyLocal KeyApart where
  init := keyInv_init
  start := fun call _ => keyLocal_start _ call
  apart_start := by
    intro call t row row' hrow
    rw [ownOf_start] at hrow
    cases hrow
  symm := fun h row row' hr hr' => Ne.symm (h row' row hr' hr)
  step := by
    intro s t x s' t' h hL hok hs
    obtain ⟨⟨s₁, pc⟩, hstep, hr⟩ := Option.map_eq_some_iff.1 hs
    cases hr
    have he := keyEffect h hL hok hstep
    exact ⟨he.inv, he.local'⟩
  frame := by
    intro s t x s' t' u h hL hok hs hu hR
    obtain ⟨⟨s₁, pc⟩, hstep, hr⟩ := Option.map_eq_some_iff.1 hs
    cases hr
    exact hu.frame (keyEffect h hL hok hstep) hR

end Run

/-! ## What the reservation of the keys means -/

/-- The keys the system derives are reserved, in a configuration of the four writers. -/
structure KeysReserved {c : AutoTopupSettings} (g : Config LifecycleDb (KeyThread c)) : Prop where
  /-- No client made a top-up under a key the system derives. -/
  topups : ∀ w ∈ g.store.spend.topups, IsSystemTopupKey w.idempotencyKey →
    g.store.manual w.id = false
  /-- No purchase of a client holds, or was given, a top-up under such a key. -/
  purchases : ∀ p t u a w, g.threads p = some t → t.call = .spend (.purchase a) →
    t.pc = .spending u → held u.pc = some w → ¬ IsSystemTopupKey w.idempotencyKey
  /-- No evaluation holds, or was given, a top-up that a client made. -/
  evaluations : ∀ p t u e w, g.threads p = some t → t.call = .evaluation e →
    t.pc = .spending u → held u.pc = some w → g.store.manual w.id = false
  /-- Every eSIM has its credit, and no other top-up of number 0. -/
  credits : ∀ e ∈ g.store.spend.esims, ∃ w ∈ g.store.spend.topups, CreditOf g.store.spend e w
    ∧ ∀ v ∈ g.store.spend.topups, v.esim = e.id → v.sequence = 0 → v = w
  /-- No client recorded an event under a key of the system or the provider. -/
  clientEvents : ∀ v ∈ g.store.events, v.source = .client →
    ¬ IsSystemEventKey v.esim v.idempotencyKey
  /-- No client was answered with an event under such a key. -/
  answers : ∀ p t v, g.threads p = some t → answer t.pc = some v →
    ¬ IsSystemEventKey v.esim v.idempotencyKey
  /-- The purchase of every eSIM is recorded. -/
  purchased : ∀ e ∈ g.store.spend.esims, purchasedEvent e.id ∈ g.store.events
  /-- What `get_usage` has recorded is there. -/
  recorded : ∀ p t, g.threads p = some t → ∀ v ∈ noted t.pc, v ∈ g.store.events
  /-- Whatever the system or the provider records next will be there. -/
  records : ∀ v, IsSystemEvent v → v ∈ (g.store.record v).events
  /-- So will the event of a status that a client's event moves the eSIM to. -/
  transitions : ∀ copy status eventType key s', ¬ IsSystemEventKey copy.id key →
    g.store.createClientEvent copy status eventType key = .ok s' →
    StatusRecorded g.store s' copy.id

/--
**The derived keys are the system's.** In every run in which no client asks for a
key the system derives, and the orders whose eSIMs are made have a price, the keys
are reserved in every state reached.
-/
theorem keys_reserved {c : AutoTopupSettings} {g : Config LifecycleDb (KeyThread c)}
    (h : (keyProgram c).ReachWhere FreshKeys Unreserved g) : KeysReserved g := by
  have hold := (keyInvariant c).reach h
  have hinv := hold.store
  -- what a purchase was given stands in the table, under its key
  have hgiven : ∀ p t u a w, g.threads p = some t → t.pc = .spending u →
      spendCall t.call = some (.purchase a) → held u.pc = some w →
      w.idempotencyKey = a.idempotencyKey ∧ ∃ w' ∈ g.store.spend.topups, SameTopup w w' := by
    intro p t u a w ht hpc hcall hheld
    obtain ⟨hcall', _, hpurchases⟩ := (hold.thread p t ht).spending u hpc
    rw [hcall] at hcall'
    exact (hpurchases a (Option.some.inj hcall').symm).held w hheld
  refine ⟨hinv.manual, ?_, ?_, ?_, hinv.events.client,
    fun p t v ht => (hold.thread p t ht).answer v,
    hinv.purchased, fun p t ht => (hold.thread p t ht).noted,
    fun v hv => (record_recorded hinv.events hv).made,
    fun _ _ _ _ _ => createClientEvent_records hinv.events⟩
  · intro p t u a w ht hcall hpc hheld
    obtain ⟨hkey, _⟩ := hgiven p t u a w ht hpc (by rw [hcall]; rfl) hheld
    rw [hkey]
    exact (hold.thread p t ht).client u a w hpc hcall hheld
  · intro p t u e w ht hcall hpc hheld
    obtain ⟨hkey, w', hw', hsame⟩ :=
      hgiven p t u e.plan.args w ht hpc (by rw [hcall]; rfl) hheld
    obtain ⟨_, _, _, hplan, _, _⟩ := prepare_buy e.decided
    rw [← hsame.id]
    refine hinv.manual w' hw' (.inr ?_)
    rw [hsame.idempotencyKey, hkey]
    exact ⟨_, _, _, hplan⟩
  · intro e he
    obtain ⟨w, hw, hcredit⟩ := hinv.credit.made e he
    refine ⟨w, hw, hcredit, ?_⟩
    intro v hv hesim hsequence
    refine Table.eq_of_clash hv hw (.inr (.inr ⟨?_, ?_⟩))
    · rw [hesim, hcredit.esim]
    · rw [hsequence, hcredit.sequence]

/-! ## Two runs -/

/-- Whether a text begins with another. -/
def startsWith (text start : String) : Bool := start.toList.isPrefixOf text.toList

theorem startsWith_append (start rest : String) : startsWith (start ++ rest) start = true := by
  unfold startsWith
  rw [String.toList_append, List.isPrefixOf_iff_prefix]
  exact List.prefix_append _ _

/-- Whether a text begins as the keys of the system's top-ups do. -/
def likeTopupKey (key : String) : Bool :=
  startsWith key "initial-credit:" || startsWith key "auto-topup:"

/-- Whether a text begins as the keys of the system's and the provider's events do. -/
def likeEventKey (key : String) : Bool :=
  startsWith key "system.purchased:" || startsWith key "system.status."
    || startsWith key "provider.usage_unknown:"

/-- A check that a client asks for no derived key, and that an order has a price. -/
def asksOwnKeys {c : AutoTopupSettings} (_ : LifecycleDb) (t : KeyThread c) (_ : KeyInput) : Bool :=
  (match t.call with
    | .spend (.purchase a) => !likeTopupKey a.idempotencyKey
    | .event _ _ key => !likeEventKey key
    | _ => true)
  && match t.pc with
    | .spending ⟨_, .persisting (.order _ o) _⟩ => 0 < o.retailPriceUsd
    | _ => true

theorem likeTopupKey_of_system {key : String} (h : IsSystemTopupKey key) :
    likeTopupKey key = true := by
  rcases h with ⟨esim, rfl⟩ | h
  · simp [likeTopupKey, initialCreditKey, startsWith_append]
  · obtain ⟨rest, rfl⟩ := evaluationKey_prefix h
    simp [likeTopupKey, startsWith_append]

theorem likeEventKey_of_system {esim : Nat} {key : String} (h : IsSystemEventKey esim key) :
    likeEventKey key = true := by
  cases h with
  | purchased => simp [likeEventKey, purchasedKey, startsWith_append]
  | status target t =>
    obtain ⟨rest, hrest⟩ := statusKey_prefix esim target t
    simp [likeEventKey, hrest, startsWith_append]
  | unknown t =>
    obtain ⟨rest, hrest⟩ := usageUnknownKey_prefix esim t
    simp [likeEventKey, hrest, startsWith_append]

theorem unreserved_of_check {c : AutoTopupSettings} {s : LifecycleDb} {t : KeyThread c}
    {x : KeyInput} (h : asksOwnKeys s t x = true) : Unreserved s t x := by
  obtain ⟨hcall, hpc⟩ := (Bool.and_eq_true _ _).mp h
  refine ⟨?_, ?_, ?_⟩
  · intro a ha hkey
    rw [ha] at hcall
    dsimp only at hcall
    rw [likeTopupKey_of_system hkey] at hcall
    cases hcall
  · intro esim eventType key he hkey
    rw [he] at hcall
    dsimp only at hcall
    rw [likeEventKey_of_system hkey] at hcall
    cases hcall
  · rintro ⟨call, pc⟩ a o sale hu hpersisting
    obtain rfl : pc = .persisting (.order a o) sale := hpersisting
    rw [hu] at hpc
    exact of_decide_eq_true hpc

/-- Two accounts, and no eSIM yet. -/
def noEsims : LifecycleDb := ⟨noPurchases, fun _ => .unknown, .empty, fun _ => false⟩

theorem freshKeys_noEsims : FreshKeys noEsims := ⟨freshSpend_noPurchases, rfl, rfl, fun _ => rfl⟩

/-- An order of Alice's, the SIM it brings, and the transaction that persists it. -/
def ordersSim (p order esim : Nat) (credit : Uuid) (iccid : String) :
    List (Act (KeyCall autoSettings) KeyInput) :=
  [.call p (.spend (.fulfill ⟨7, alice, ⟨"pkg", 2500, some 500⟩, none, false, some iccid, none⟩)),
    .tick p (.spend (.order ⟨order, false, none⟩)),
    .tick p (.spend (.answer ⟨true, .json (.dict [("data", .dict [("id", .int 9666),
      ("sims", .list [.dict [("iccid", .str iccid)]])])])⟩)),
    .tick p (.spend (.persist ⟨fun _ => (esim, credit), none, none, alice⟩))]

/-- The key of the client's top-up. -/
def toppedUp : Uuid := ⟨"00000000-0000-4000-8000-0000000000e6", by decide⟩

/-- A purchase of Alice's for her first eSIM, up to its reservation. -/
def reserves (p : Nat) (key : String) : List (Act (KeyCall autoSettings) KeyInput) :=
  [.call p (.spend (.purchase ⟨aliceEsim, "topup", key, none⟩)), .tick p (.spend .go),
    .tick p (.spend listsTopup), .tick p (.spend (.topup ⟨toppedUp, false, none⟩))]

/-- Alice has a hundred and an eSIM, and asks for a top-up under a key; then she orders another
eSIM. -/
def toppedUpUnder (key : String) : List (Act (KeyCall autoSettings) KeyInput) :=
  [.call 0 (.spend (.post (voucher alice "v"))), .tick 0 (.spend .go)]
    ++ ordersSim 1 1 1 alice "8910" ++ reserves 2 key ++ ordersSim 3 2 2 bob "8911"

/-- The number of the second eSIM's top-ups that are its initial credit. -/
def creditsOfSecond (g : Config LifecycleDb (KeyThread autoSettings)) : Nat :=
  (g.store.spend.topups.rows.filter fun w => w.esim = 2 && w.sequence = 0).length

/-- Both eSIMs are there, the client's top-up is reserved, and the second eSIM has so many
credits. -/
def hasCredits (n : Nat) (g : Config LifecycleDb (KeyThread autoSettings)) : Bool :=
  g.store.spend.esims.rows.any (·.id = 2) && g.store.spend.topups.rows.any (g.store.manual ·.id)
    && creditsOfSecond g = n

/-- Under a key of her own, everything is reserved. -/
theorem keys_reserved_ownKey :
    ∃ g, (keyProgram autoSettings).ReachWhere FreshKeys Unreserved g ∧ hasCredits 1 g = true
      ∧ KeysReserved g := by
  obtain ⟨g, hreach, hg⟩ := Program.reachWhere_check (P := keyProgram autoSettings) asksOwnKeys
    (fun _ _ _ h => unreserved_of_check h) freshKeys_noEsims (toppedUpUnder "key") (hasCredits 1)
    (by decide +kernel)
  exact ⟨g, hreach, hg, keys_reserved hreach⟩

/-- Under the key of the second eSIM's credit, that eSIM never gets one. -/
theorem credit_preempted :
    ¬ ∀ c g, (keyProgram c).Reach FreshKeys g → KeysReserved g := by
  intro h
  obtain ⟨g, hr, hg⟩ := Program.run_check (keyProgram autoSettings) noEsims
    (toppedUpUnder "initial-credit:2") (hasCredits 0) (by decide +kernel)
  have hreserved := h autoSettings g (Program.reach_run freshKeys_noEsims hr)
  simp only [hasCredits, Bool.and_eq_true, decide_eq_true_eq, List.any_eq_true] at hg
  obtain ⟨⟨⟨e, he, hid⟩, _⟩, hnone⟩ := hg
  obtain ⟨w, hw, hcredit, _⟩ := hreserved.credits e he
  have hmem : w ∈ g.store.spend.topups.rows.filter fun w => w.esim = 2 && w.sequence = 0 := by
    refine List.mem_filter.2 ⟨hw, ?_⟩
    simp [hcredit.esim, hcredit.sequence, hid]
  rw [List.eq_nil_of_length_eq_zero hnone] at hmem
  cases hmem

end Roamkit.Esims.Proof
