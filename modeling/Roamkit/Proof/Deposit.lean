import Roamkit.Proof.DepositMove

/-!
# A completed deposit is credited once, for what it asked

The ledger key of a deposit is made of its id, so the unique index on the ledger
gives each row at most one credit; the unique index on the transaction gives each
transaction at most one row. `DepositInv` ties the two tables together: the
completed rows are the credited ones, and the credit is on the row's account.

That the credit is also of the amount the row asks for does not follow. The amount
is checked against a copy of the row, and the row may be failed, recovered with
another amount and be pending again when the credit is made. `Current` is the
condition that this has not happened.
-/

namespace Roamkit.Billing.Proof

open Lib Billing DepositDb

theorem depositKey_inj {a b : Uuid} (h : depositKey a = depositKey b) : a = b :=
  Uuid.ext ((String.append_right_inj "deposit:").1 h)

variable {s s' : DepositDb} {d : DepositRequest} {e : CreditLedgerEntry}
  {f : DepositRequest → DepositRequest} {t : DepositThread}

/-- Two rows of one id are one row. -/
theorem deposit_eq {e : DepositRequest} (hd : d ∈ s.deposits) (he : e ∈ s.deposits)
    (h : d.id = e.id) : d = e := Table.eq_of_clash hd he (.inl h)

/-- The rows of the deposits table and the entries of the ledger agree. -/
structure DepositInv (s : DepositDb) : Prop where
  books : BooksInv s.books
  /-- A completed row has its credit, on its account and of its amount. -/
  credited : ∀ d ∈ s.deposits, d.status = .completed →
    ∃ e ∈ s.books.entries, e.idempotencyKey = depositKey d.id ∧ e.account = d.account
      ∧ d.amountCredited = some d.amountRequested ∧ e.delta = d.amountRequested.micros
  /-- An entry for a deposit is the credit of a completed row. -/
  origin : ∀ e ∈ s.books.entries, e.referenceType = .deposit
    ∨ (∃ id, e.idempotencyKey = depositKey id) →
    ∃ d ∈ s.deposits, d.status = .completed ∧ e.idempotencyKey = depositKey d.id
      ∧ e.referenceId = d.id.str

/-- A row that is not completed has no credit. -/
theorem DepositInv.uncredited (h : DepositInv s) (hd : d ∈ s.deposits) (hs : d.status ≠ .completed)
    (he : e ∈ s.books.entries) : e.idempotencyKey ≠ depositKey d.id := by
  intro hkey
  obtain ⟨d', hd', hs', hkey', _⟩ := h.origin e he (.inr ⟨d.id, hkey⟩)
  have hid : d'.id = d.id := depositKey_inj (hkey'.symm.trans hkey)
  rw [deposit_eq hd' hd hid] at hs'
  exact hs hs'

/-! ## Rewriting a row -/

/-- The rows after a rewrite of the row with one id. -/
theorem mem_rewritten {rows : List DepositRequest} {id : Uuid}
    (h : d ∈ rows.map (rewrite (·.id = id) f)) :
    ∃ r ∈ rows, (r.id = id ∧ d = f r) ∨ (r.id ≠ id ∧ d = r) := by
  obtain ⟨r, hr, rfl⟩ := List.mem_map.1 h
  refine ⟨r, hr, ?_⟩
  by_cases hid : r.id = id
  · exact .inl ⟨hid, rewrite_pos f (by simpa using hid)⟩
  · exact .inr ⟨hid, rewrite_neg f (by simpa using hid)⟩

theorem rewritten_mem {rows : List DepositRequest} {i : Uuid} {r : DepositRequest} (h : r ∈ rows) :
    (r.id = i → f r ∈ rows.map (rewrite (·.id = i) f))
      ∧ (r.id ≠ i → r ∈ rows.map (rewrite (·.id = i) f)) := by
  refine ⟨?_, ?_⟩
  · intro hid
    exact List.mem_map.2 ⟨r, h, rewrite_pos f (by simpa using hid)⟩
  · intro hid
    exact List.mem_map.2 ⟨r, h, rewrite_neg f (by simpa using hid)⟩

/-- A rewrite that leaves identity, account, and all of a completed row's money. -/
structure Harmless (s : DepositDb) (pk : Uuid) (f : DepositRequest → DepositRequest) : Prop where
  id : ∀ r, (f r).id = r.id
  account : ∀ r, (f r).account = r.account
  status : ∀ r ∈ s.deposits, r.id = pk → ((f r).status = .completed ↔ r.status = .completed)
  money : ∀ r ∈ s.deposits, r.id = pk → r.status = .completed →
    (f r).amountRequested = r.amountRequested ∧ (f r).amountCredited = r.amountCredited

/-- A rewrite of a row that is not completed, and stays so. -/
theorem Harmless.of_open (hid : ∀ r, (f r).id = r.id) (hacc : ∀ r, (f r).account = r.account)
    (hd : d ∈ s.deposits) (hs : d.status ≠ .completed) (hf : (f d).status ≠ .completed) :
    Harmless s d.id f := by
  refine ⟨hid, hacc, ?_, ?_⟩
  · intro r hr hrid
    rw [deposit_eq hr hd hrid]
    exact ⟨fun h => absurd h hf, fun h => absurd h hs⟩
  · intro r hr hrid hrs
    rw [deposit_eq hr hd hrid] at hrs
    exact absurd hrs hs

theorem DepositInv.rewrite {id : Uuid} (h : DepositInv s) (hf : Harmless s id f)
    (hbooks : s'.books = s.books)
    (hrows : s'.deposits.rows = s.deposits.rows.map (rewrite (·.id = id) f)) : DepositInv s' := by
  refine ⟨hbooks ▸ h.books, ?_, ?_⟩
  · intro d hd hs
    rw [Table.mem_def, hrows] at hd
    rw [hbooks]
    obtain ⟨r, hr, ⟨hid, rfl⟩ | ⟨_, rfl⟩⟩ := mem_rewritten hd
    · have hrs : r.status = .completed := (hf.status r hr hid).1 hs
      obtain ⟨hreq, hcred⟩ := hf.money r hr hid hrs
      rw [hf.id, hf.account, hreq, hcred]
      exact h.credited r hr hrs
    · exact h.credited d hr hs
  · intro e he hdep
    rw [hbooks] at he
    obtain ⟨d, hd, hs, hkey, href⟩ := h.origin e he hdep
    obtain ⟨hsame, hother⟩ := rewritten_mem (i := id) (f := f) hd
    by_cases hid : d.id = id
    · refine ⟨f d, ?_, (hf.status d hd hid).2 hs, by rwa [hf.id], by rwa [hf.id]⟩
      rw [Table.mem_def, hrows]
      exact hsame hid
    · refine ⟨d, ?_, hs, hkey, href⟩
      rw [Table.mem_def, hrows]
      exact hother hid

/-! ## The other writes -/

/-- A new row is not completed, and no entry is for it. -/
theorem DepositInv.insert {deposits : Table DepositRequest} (h : DepositInv s)
    (hd : d.status = .pending) (hi : s.deposits.insert? d = some deposits) :
    DepositInv { s with deposits } := by
  refine ⟨h.books, ?_, ?_⟩
  · intro e he hs
    rcases (Table.mem_insert hi).1 he with he | rfl
    · exact h.credited e he hs
    · rw [hd] at hs
      cases hs
  · intro e he hdep
    obtain ⟨d', hd', hrest⟩ := h.origin e he hdep
    exact ⟨d', (Table.mem_insert hi).2 (.inl hd'), hrest⟩

/-- Another service's posting is no deposit's credit. -/
theorem DepositInv.other {p : OtherPosting} {b : Books} (h : DepositInv s)
    (ha : s.books.apply p.posting = .ok (b, e)) :
    DepositInv { s with books := b } := by
  refine ⟨h.books.apply ha, ?_, ?_⟩
  · intro d hd hs
    obtain ⟨f, hf, hrest⟩ := h.credited d hd hs
    refine ⟨f, ?_, hrest⟩
    rcases apply_cases ha with ⟨rfl, _, _⟩ | ⟨row, _, _, rfl, _, _, hpost⟩
    · exact hf
    · exact (mem_entries_post hpost).2 (.inl hf)
  · intro f hf hdep
    rcases apply_cases ha with ⟨rfl, _, _⟩ | ⟨row, _, _, rfl, _, _, hpost⟩
    · exact h.origin f hf hdep
    · rcases (mem_entries_post hpost).1 hf with hf | rfl
      · exact h.origin f hf hdep
      · -- the entry of the posting is neither of the deposit type nor under a deposit's key
        rcases hdep with htype | ⟨id, hkey⟩
        · exact absurd htype p.notDeposit
        · exact absurd hkey (p.notDepositKey id)

/-- **The completion of a pending row credits it**, if it asks for the amount credited. -/
theorem DepositInv.complete {tr : TransferResult} {p : Posting} {b : Books} (h : DepositInv s)
    (hd : d ∈ s.deposits) (hs : d.status = .pending)
    (hp : preparePosting d.account (.decimal tr.amount) (.member .deposit) d.id.str
      (depositKey d.id) true = .ok p) (ha : s.books.apply p = .ok (b, e))
    (hamount : p.amount = d.amountRequested) :
    DepositInv ({ s with books := b }.save d.id (completed p.amount tr) (fun _ _ h => h)) := by
  obtain ⟨_, hacc, hcredit, htype, href, hkey⟩ := preparePosting_eq hp
  have hopen : d.status ≠ .completed := by rw [hs]; decide
  -- the key is unused, so the credit is a new entry
  rcases apply_cases ha with ⟨_, he, hk⟩ | ⟨row, _, _, rfl, _, _, hpost⟩
  · exact absurd (hk.trans hkey) (h.uncredited hd hopen he)
  · have hdelta : p.delta = d.amountRequested.micros := by
      rw [Posting.delta, hcredit, hamount]
      rfl
    refine ⟨h.books.apply ha, ?_, ?_⟩
    · intro d' hd' hs'
      obtain ⟨r, hr, ⟨hid, rfl⟩ | ⟨_, rfl⟩⟩ := mem_rewritten hd'
      · obtain rfl := deposit_eq hr hd hid
        exact ⟨_, (mem_entries_post hpost).2 (.inr rfl), hkey, hacc, by rw [hamount]; rfl, hdelta⟩
      · obtain ⟨f, hf, hrest⟩ := h.credited d' hr hs'
        exact ⟨f, (mem_entries_post hpost).2 (.inl hf), hrest⟩
    · intro f hf hdep
      have hrows := fun (r : DepositRequest) (hr : r ∈ s.deposits) =>
        rewritten_mem (i := d.id) (f := completed p.amount tr) hr
      rcases (mem_entries_post hpost).1 hf with hf | rfl
      · obtain ⟨d', hd', hs', hkey', href'⟩ := h.origin f hf hdep
        refine ⟨d', (hrows d' hd').2 ?_, hs', hkey', href'⟩
        intro hid
        rw [deposit_eq hd' hd hid] at hs'
        exact hopen hs'
      · exact ⟨_, (hrows d hd).1 rfl, rfl, hkey, href⟩

/-! ## The amount -/

theorem normalizeAmount_of_eq {x : PyDecimal} {a a' : Amount}
    (h : x.eq? (.finite (Dec.ofUnits 6 a.micros)) = some true)
    (hn : normalizeAmount (.decimal x) = .ok a') : a' = a := by
  cases x with
  | infinity negative => cases h
  | nan signaling => cases signaling <;> cases h
  | finite d =>
    have hunits : d.units 6 = a.micros :=
      (Dec.units_of_eqv (Option.some.inj h) 6).trans (Dec.units_ofUnits 6 _)
    exact Amount.ext ((normalizeAmount_units hn).trans hunits)

/-- The copy a completion goes on with has passed the amount check. -/
def Gated (t : DepositThread) : Prop :=
  ∀ d tr, t.pc = .completing d tr →
    tr.amount.eq? (.finite (Dec.ofUnits 6 d.amountRequested.micros)) = some true

theorem gated_of_pc (h : ∀ d tr, t.pc ≠ .completing d tr) : Gated t :=
  fun d tr hpc => absurd hpc (h d tr)

theorem resume_ne_completing {existing : DepositRequest} {v : VerifyRequest} {tr : TransferResult} :
    resume existing v ≠ .completing d tr := by
  unfold resume
  split
  · simp
  · simp
  · split
    · simp
    · split <;> simp

theorem gated_step {c : DepositSettings} {t' : DepositThread}
    (hm : DepositMove c s t s' t'.pc) : Gated t' := by
  obtain ⟨call, pc⟩ := t'
  cases hm with
  | finds => exact gated_of_pc fun _ _ => resume_ne_completing
  | findsFailed _ _ _ hpc => rcases hpc with rfl | rfl <;> exact gated_of_pc (by simp)
  | findsRaced _ _ _ hpc => rcases hpc with rfl | rfl <;> exact gated_of_pc (by simp)
  | settled _ _ _ hpc => rcases hpc with rfl | rfl <;> exact gated_of_pc (by simp)
  | fetches _ hpc =>
    rcases hpc with ⟨_, rfl⟩ | ⟨_, _, _, rfl⟩ <;> exact gated_of_pc (by simp)
  | observes _ hpc =>
    rcases hpc with ⟨_, rfl⟩ | ⟨_, _, _, rfl⟩ | ⟨rfl, heq⟩
    · exact gated_of_pc (by simp)
    · exact gated_of_pc (by simp)
    · intro d tr hpc
      cases hpc
      exact heq
  | _ => exact gated_of_pc (by simp)

/-- What a completion finds pending asks for the amount its copy asked for at the check. -/
def Current (s : DepositDb) (t : DepositThread) : Prop :=
  ∀ d tr, t.pc = .completing d tr → ∀ r ∈ s.deposits, r.id = d.id → r.status = .pending →
    r.amountRequested = d.amountRequested

theorem depositInv_step {c : DepositSettings} {pc : DepositPc} (h : DepositInv s) (hg : Gated t)
    (hc : Current s t) (hm : DepositMove c s t s' pc) :
    DepositInv s' := by
  cases hm with
  | posts _ ha => exact h.other ha
  | creates _ hi => exact h.insert rfl hi
  | @reopens id d _ hd hid hs =>
    subst hid
    refine h.rewrite (f := reopened) (Harmless.of_open (fun _ => rfl) (fun _ => rfl) hd ?_ ?_)
      rfl rfl
    · rw [hs]; decide
    · simp [reopened]
  | @corrects v d locked deposits _ hd _ hs _ hu =>
    refine h.rewrite (f := corrected v)
      (Harmless.of_open (fun _ => rfl) (fun _ => rfl) hd ?_ ?_) rfl (Table.rows_update? hu)
    · rw [hs]; decide
    · simp [corrected]
  | @observes d tr _ _ _ =>
    exact h.rewrite (f := observed tr) ⟨fun _ => rfl, fun _ => rfl, fun _ _ _ => Iff.rfl,
      fun _ _ _ _ => ⟨rfl, rfl⟩⟩ rfl rfl
  | @fails d locked reason raw stored e _ hd hid hs =>
    rw [← hid]
    refine h.rewrite (f := markedFailed reason stored)
      (Harmless.of_open (fun _ => rfl) (fun _ => rfl) hd hs ?_) rfl rfl
    simp [markedFailed]
  | completes hpc hd hid hs hp ha =>
    refine h.complete hd hs hp ha ?_
    have heq := normalizeAmount_of_eq (hg _ _ hpc) (preparePosting_eq hp).1
    rw [heq, hc _ _ hpc _ hd hid hs]
  | _ => exact h

/-! ## Every run -/

/-- Accounts without entries, and no deposits. -/
def FreshDeposits (s : DepositDb) : Prop := Books.Fresh s.books ∧ s.deposits.rows = []

theorem depositInv_init (h : FreshDeposits s) : DepositInv s := by
  refine ⟨booksInv_init h.1, ?_, ?_⟩
  · intro d hd
    rw [Table.mem_def, h.2] at hd
    cases hd
  · intro e he
    rw [Table.mem_def, h.1.entries] at he
    cases he

theorem depositInvariant (c : DepositSettings) :
    Invariant (depositProgram c) FreshDeposits (fun s t _ => Current s t) DepositInv
      (fun _ t => Gated t) (fun _ _ => True) where
  init := depositInv_init
  start := fun _ _ => gated_of_pc (by simp [depositProgram])
  apart_start := fun _ _ => trivial
  symm := fun _ => trivial
  step := fun h hg hc hs =>
    have hm := (depositStep_move hs).1
    ⟨depositInv_step h hg hc hm, gated_step hm⟩
  frame := fun _ _ _ _ hg _ => ⟨hg, trivial⟩

/-- The deposits are credited as the ledger says. -/
structure DepositsSound (s : DepositDb) : Prop where
  /-- A transaction has at most one credit. -/
  once : ∀ tx, ∀ e ∈ s.books.entries, ∀ f ∈ s.books.entries,
    e.referenceType = .deposit → f.referenceType = .deposit →
    (∃ d ∈ s.deposits, d.id.str = e.referenceId ∧ d.txHash = some tx) →
    (∃ d ∈ s.deposits, d.id.str = f.referenceId ∧ d.txHash = some tx) → e = f
  /-- A row is completed exactly when it has one credit. -/
  completed : ∀ d ∈ s.deposits, d.status = .completed ↔
    ∃! e, e ∈ s.books.entries ∧ e.idempotencyKey = depositKey d.id
  /-- The credit is on the row's account, of the amount credited, which is the amount asked for. -/
  exact : ∀ d ∈ s.deposits, ∀ e ∈ s.books.entries, e.idempotencyKey = depositKey d.id →
    e.account = d.account ∧ d.amountCredited = some d.amountRequested
      ∧ e.delta = d.amountRequested.micros

theorem DepositInv.sound (h : DepositInv s) : DepositsSound s := by
  refine ⟨?_, ?_, ?_⟩
  · intro tx e he f hf hetype hftype ⟨d, hd, hdid, hdtx⟩ ⟨d', hd', hdid', hdtx'⟩
    -- the transaction has one row, and the row's key one entry
    have heq : d = d' :=
      Table.eq_of_clash hd hd' (.inr (.inr ⟨by simp [hdtx], hdtx.trans hdtx'.symm⟩))
    obtain ⟨a, ha, _, hkey, haid⟩ := h.origin e he (.inl hetype)
    obtain ⟨b, hb, _, hkey', hbid⟩ := h.origin f hf (.inl hftype)
    have hab : a.id = b.id := Uuid.ext (by rw [← haid, ← hbid, ← hdid, ← hdid', heq])
    exact Table.eq_of_clash he hf
      (show e.idempotencyKey = f.idempotencyKey by rw [hkey, hkey', hab])
  · intro d hd
    constructor
    · intro hs
      obtain ⟨e, he, hkey, _⟩ := h.credited d hd hs
      refine ⟨e, ⟨he, hkey⟩, ?_⟩
      intro f ⟨hf, hfkey⟩
      exact Table.eq_of_clash hf he (hfkey.trans hkey.symm)
    · intro ⟨e, ⟨he, hkey⟩, _⟩
      by_contra hs
      exact h.uncredited hd hs he hkey
  · intro d hd e he hkey
    have hs : d.status = .completed := by
      by_contra hs
      exact h.uncredited hd hs he hkey
    obtain ⟨f, hf, hfkey, hrest⟩ := h.credited d hd hs
    obtain rfl : f = e := Table.eq_of_clash hf he (hfkey.trans hkey.symm)
    exact hrest

/--
**Deposits are credited once, on their account, for the amount they ask.** This
holds in every state of every run in which each completion that finds its row
pending finds the amount its copy had at the amount check.
-/
theorem deposits_sound {c : DepositSettings} {g : Config DepositDb DepositThread}
    (h : (depositProgram c).ReachWhere FreshDeposits (fun s t _ => Current s t) g) :
    DepositsSound g.store :=
  (((depositInvariant c).reach h).store).sound

/-! ## A row re-priced between its check and its completion -/

def settings : DepositSettings := ⟨true, 12⟩

def noDeposits : DepositDb := ⟨twoAccounts, .empty⟩

theorem freshDeposits_noDeposits : FreshDeposits noDeposits := ⟨fresh_twoAccounts, rfl⟩

def txHash : String := String.ofList (List.replicate 64 'a')

def depositId : Uuid := ⟨"00000000-0000-4000-8000-0000000000d1", by decide⟩

/-- Alice names the transaction and an amount. -/
def aliceVerify (amount : String) : DepositCall :=
  .verify ⟨alice, txHash, "cex_manual", .str amount, "key"⟩

/-- The transfer on chain: ten. -/
def tenOnChain : DepositInput :=
  .answer (.transfer ⟨.finite ⟨10000000, -6⟩, 20, "success", .dict []⟩)

/-- Call 0 passes the gates for ten; call 1 fails the row; call 2 recovers it for twenty. -/
def repricing : List (Act DepositCall DepositInput) :=
  [.call 0 (aliceVerify "10"), .tick 0 .go, .tick 0 .go, .tick 0 .go, .tick 0 (.uuid depositId),
    .tick 0 tenOnChain, .tick 0 .go,
    .call 1 (aliceVerify "10"), .tick 1 .go, .tick 1 (.answer (.rpcError "timeout")), .tick 1 .go,
    .call 2 (aliceVerify "20"), .tick 2 .go, .tick 2 .go,
    .tick 0 .go]

/-- Ten is credited on a completed row that asks for twenty. -/
theorem deposit_repriced :
    ¬ ∀ g, (depositProgram settings).Reach FreshDeposits g → DepositsSound g.store := by
  intro h
  obtain ⟨g, hr, hg⟩ := Program.run_check (depositProgram settings) noDeposits repricing
    (fun g => g.store.deposits.rows.any fun d => d.status = .completed
      && d.amountCredited.map Amount.micros = some 10000000
      && d.amountRequested.micros = 20000000) (by decide)
  have hs := h g (Program.reach_run freshDeposits_noDeposits hr)
  obtain ⟨d, hd, hcheck⟩ := List.any_eq_true.1 hg
  simp only [Bool.and_eq_true, decide_eq_true_eq] at hcheck
  obtain ⟨⟨hstatus, hcredited⟩, hrequested⟩ := hcheck
  obtain ⟨e, ⟨he, hkey⟩, _⟩ := (hs.completed d hd).1 hstatus
  obtain ⟨_, hsame, _⟩ := hs.exact d hd e he hkey
  rw [hsame, Option.map_some, hrequested] at hcredited
  cases hcredited

/-- The check of `Current` at one step. -/
def isCurrent (s : DepositDb) (t : DepositThread) : Bool :=
  match t.pc with
  | .completing d _ => s.deposits.rows.all fun r =>
    r.id ≠ d.id || r.status ≠ .pending || r.amountRequested = d.amountRequested
  | _ => true

theorem current_of_check (h : isCurrent s t = true) :
    Current s t := by
  intro d tr hpc r hr hid hpending
  rw [isCurrent, hpc] at h
  have := List.all_eq_true.1 h r hr
  simpa [hid, hpending] using this

/-- One call on its own is credited. -/
theorem deposits_sound_ten :
    ∃ g, (depositProgram settings).ReachWhere FreshDeposits (fun s t _ => Current s t) g
      ∧ g.store.deposits.rows.any (·.status = .completed) ∧ DepositsSound g.store := by
  obtain ⟨g, hr, hg⟩ := Program.reachWhere_check (P := depositProgram settings)
    (fun s t _ => isCurrent s t) (fun _ _ _ h => current_of_check h) freshDeposits_noDeposits
    [.call 0 (aliceVerify "10"), .tick 0 .go, .tick 0 .go, .tick 0 .go, .tick 0 (.uuid depositId),
      .tick 0 tenOnChain, .tick 0 .go, .tick 0 .go]
    (fun g => g.store.deposits.rows.any (·.status = .completed)) (by decide)
  exact ⟨g, hr, hg, deposits_sound hr⟩

end Roamkit.Billing.Proof
