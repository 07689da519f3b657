import Roamkit.Billing.Deposit
import Roamkit.Proof.Credit

/-!
# What a step of a deposit call can do

`DepositMove` lists every outcome of one step of `verify`, `reverify` or another
service's posting: what it found, what it wrote, and where the call goes on.
Both the crediting of deposits and the isolation of accounts are read off it.
-/

namespace Roamkit.Billing.Proof

open Lib Billing DepositDb

/-- Everything a step of a call can do to the database, and the point it comes to. -/
inductive DepositMove (c : DepositSettings) (s : DepositDb) (t : DepositThread) :
    DepositDb → DepositPc → Prop
  | raises {e : Exc} : DepositMove c s t s (.raised e)
  | posts {p : OtherPosting} {b : Books} {e : CreditLedgerEntry} :
      t.call = .other p → s.books.apply p.posting = .ok (b, e) →
      DepositMove c s t { s with books := b } (.posted e)
  -- `verify` looks for the row of its key
  | finds {a : VerifyArgs} {v : VerifyRequest} {d : DepositRequest} :
      t.call = .verify a → t.pc = .asked → a.normalize c = .ok v → d ∈ s.deposits →
      d.idempotencyKey = v.idempotencyKey → DepositMove c s t s (resume d v)
  | misses {a : VerifyArgs} {v : VerifyRequest} :
      t.call = .verify a → a.normalize c = .ok v → DepositMove c s t s (.searching v)
  -- and for a failed row of its transaction
  | findsFailed {v : VerifyRequest} {d : DepositRequest} {pc : DepositPc} :
      t.pc = .searching v → d ∈ s.deposits → d.account = v.account →
      pc = .returned d ∨ pc = .recovering d v → DepositMove c s t s pc
  | seeks {v : VerifyRequest} : t.pc = .searching v → DepositMove c s t s (.checking v)
  | clears {v : VerifyRequest} : t.pc = .checking v → DepositMove c s t s (.creating v)
  -- `_create_pending_deposit`
  | creates {v : VerifyRequest} {id : Uuid} {deposits : Table DepositRequest} :
      t.pc = .creating v → s.deposits.insert? (pendingRow id v) = some deposits →
      DepositMove c s t { s with deposits } (.fetching (pendingRow id v))
  | races {v : VerifyRequest} : t.pc = .creating v → DepositMove c s t s (.racedByKey v)
  | findsRaced {v : VerifyRequest} {d : DepositRequest} {pc : DepositPc} :
      t.pc = .racedByKey v → d ∈ s.deposits → d.idempotencyKey = v.idempotencyKey →
      pc = .returned d ∨ pc = .fetching d → DepositMove c s t s pc
  | missesRaced {v : VerifyRequest} : t.pc = .racedByKey v → DepositMove c s t s (.racedByTx v)
  -- `reverify`
  | settled {id : Uuid} {d : DepositRequest} {pc : DepositPc} :
      t.call = .reverify id → d ∈ s.deposits → d.id = id → pc = .returned d ∨ pc = .fetching d →
      DepositMove c s t s pc
  | reopens {id : Uuid} {d : DepositRequest} :
      t.call = .reverify id → d ∈ s.deposits → d.id = id → d.status = .failed →
      DepositMove c s t (s.save id reopened (fun _ _ h => h)) (.fetching (reopened d))
  -- `_recover_failed_deposit`
  | recovered {v : VerifyRequest} {d locked : DepositRequest} :
      t.pc = .recovering d v → locked ∈ s.deposits → locked.id = d.id →
      DepositMove c s t s (.fetching locked)
  | corrects {v : VerifyRequest} {d locked : DepositRequest} {deposits : Table DepositRequest} :
      t.pc = .recovering d v → locked ∈ s.deposits → locked.id = d.id → locked.status = .failed →
      locked.account = v.account →
      s.deposits.update? (·.id = locked.id) (corrected v) = some deposits →
      DepositMove c s t { s with deposits } (.fetching (corrected v locked))
  -- the provider answers, and the answer meets the gates
  | fetches {d : DepositRequest} {pc : DepositPc} :
      t.pc = .fetching d →
      (∃ tr, pc = .gating d tr) ∨ (∃ reason raw e, pc = .failing d reason raw e) →
      DepositMove c s t s pc
  | observes {d : DepositRequest} {tr : TransferResult} {pc : DepositPc} :
      t.pc = .gating d tr →
      (∃ e, pc = .raised e) ∨ (∃ reason raw e, pc = .failing (observed tr d) reason raw e)
        ∨ (pc = .completing (observed tr d) tr
            ∧ tr.amount.eq? (.finite (Dec.ofUnits 6 d.amountRequested.micros)) = some true) →
      DepositMove c s t (s.save d.id (observed tr) (fun _ _ h => h)) pc
  -- `_mark_failed`
  | spares {d : DepositRequest} {reason : String} {raw : Option Json} {e : Exc} :
      t.pc = .failing d reason raw e → DepositMove c s t s (.raised e)
  | fails {d locked : DepositRequest} {reason : String} {raw stored : Option Json} {e : Exc} :
      t.pc = .failing d reason raw e → locked ∈ s.deposits → locked.id = d.id →
      locked.status ≠ .completed →
      DepositMove c s t (s.save d.id (markedFailed reason stored) (fun _ _ h => h)) (.raised e)
  -- `_complete`
  | yields {d locked : DepositRequest} {tr : TransferResult} :
      t.pc = .completing d tr → locked ∈ s.deposits → locked.id = d.id →
      locked.status ≠ .pending → DepositMove c s t s (.returned locked)
  | completes {d locked : DepositRequest} {tr : TransferResult} {p : Posting} {b : Books}
      {e : CreditLedgerEntry} :
      t.pc = .completing d tr → locked ∈ s.deposits → locked.id = d.id →
      locked.status = .pending →
      preparePosting locked.account (.decimal tr.amount) (.member .deposit) locked.id.str
        (depositKey locked.id) true = .ok p →
      s.books.apply p = .ok (b, e) →
      DepositMove c s t
        ({ s with books := b }.save locked.id (completed p.amount tr) (fun _ _ h => h))
        (.returned (completed p.amount tr locked))

variable {d : DepositRequest}

section Operations

variable {c : DepositSettings} {s s' : DepositDb} {t : DepositThread} {pc : DepositPc}

theorem findRow_mem {id : Uuid} (h : s.deposits.find? (·.id = id) = some d) :
    d ∈ s.deposits ∧ d.id = id :=
  ⟨Table.mem_of_find? h, by simpa using Table.prop_of_find? h⟩

theorem reset_move {id : Uuid} (hc : t.call = .reverify id) (h : s.reset id = .ok (s', pc)) :
    DepositMove c s t s' pc := by
  unfold reset at h
  split at h
  · cases h
  rename_i locked hfind
  obtain ⟨hmem, hid⟩ := findRow_mem hfind
  split at h
  · cases h
    exact .settled hc hmem hid (.inl rfl)
  · cases h
    exact .settled hc hmem hid (.inr rfl)
  · rename_i hstatus
    split at h
    · cases h
    · cases h
      exact .reopens hc hmem hid hstatus

theorem recover_move {v : VerifyRequest} (hpc : t.pc = .recovering d v)
    (h : s.recover d v = .ok (s', pc)) : DepositMove c s t s' pc := by
  unfold recover at h
  split at h
  · cases h
  split at h
  · cases h
  split at h
  · cases h
  rename_i locked hfind
  obtain ⟨hmem, hid⟩ := findRow_mem hfind
  split at h
  · cases h
    exact .recovered hpc hmem hid
  · rename_i hstatus
    split at h
    · cases h
    rename_i hacc
    split at h
    · cases h
    split at h
    · cases h
    rename_i deposits hupdate
    cases h
    exact .corrects hpc hmem hid (by simpa using hstatus) (by simpa using hacc) hupdate

theorem create_move {id : Uuid} {v : VerifyRequest} (hpc : t.pc = .creating v)
    (h : s.create id v = .ok (s', pc)) : DepositMove c s t s' pc := by
  unfold create at h
  split at h
  · cases h
  split at h
  · cases h
    exact .races hpc
  · split at h
    · cases h
      exact .races hpc
    · rename_i deposits hinsert
      cases h
      exact .creates hpc hinsert

theorem gate_cases {tr : TransferResult} (h : gate c d tr = .ok pc) :
    (∃ reason raw e, pc = .failing d reason raw e)
      ∨ (pc = .completing d tr
          ∧ tr.amount.eq? (.finite (Dec.ofUnits 6 d.amountRequested.micros)) = some true) := by
  unfold gate at h
  split at h
  · cases h
    exact .inl ⟨_, _, _, rfl⟩
  · split at h
    · cases h
    split at h
    · cases h
    · rename_i heq
      cases h
      exact .inr ⟨rfl, heq⟩
    · cases h
      exact .inl ⟨_, _, _, rfl⟩

theorem markFailed_move {reason : String} {raw : Option Json} {e : Exc}
    (hpc : t.pc = .failing d reason raw e) (h : s.markFailed d reason raw = .ok s') :
    DepositMove c s t s' (.raised e) := by
  unfold markFailed at h
  split at h
  · cases h
  rename_i locked hfind
  obtain ⟨hmem, hid⟩ := findRow_mem hfind
  split at h
  · cases h
    exact .spares hpc
  · rename_i hstatus
    cases h
    exact .fails hpc hmem hid hstatus

theorem complete_move {tr : TransferResult} (hpc : t.pc = .completing d tr)
    (h : s.complete d tr = .ok (s', pc)) : DepositMove c s t s' pc := by
  unfold complete at h
  split at h
  · cases h
  rename_i locked hfind
  obtain ⟨hmem, hid⟩ := findRow_mem hfind
  split at h
  · rename_i hstatus
    cases h
    exact .yields hpc hmem hid hstatus
  · rename_i hstatus
    split at h
    · cases h
    split at h
    · cases h
    rename_i p hp
    split at h
    · cases h
    rename_i b e happly
    cases h
    exact .completes hpc hmem hid (by simpa using hstatus) hp happly

theorem goOn_move {r : Except Exc (DepositDb × DepositPc)} {t' : DepositThread}
    (hr : ∀ s' pc, r = .ok (s', pc) → DepositMove c s t s' pc)
    (h : t.goOn s r = (s', t')) : DepositMove c s t s' t'.pc ∧ t'.call = t.call := by
  unfold DepositThread.goOn at h
  split at h
  · cases h
    exact ⟨.raises, rfl⟩
  · cases h
    exact ⟨hr _ _ rfl, rfl⟩

/-- **Every step of a call is one of the moves.** -/
theorem depositStep_move {x : DepositInput} {t' : DepositThread}
    (h : depositStep c s t x = some (s', t')) : DepositMove c s t s' t'.pc ∧ t'.call = t.call := by
  obtain ⟨call, pc⟩ := t
  cases x with
  | fail =>
    cases pc <;> simp only [depositStep] at h <;> cases h <;> exact ⟨.raises, rfl⟩
  | uuid id =>
    cases pc with
    | creating v =>
      simp only [depositStep] at h
      exact goOn_move (fun _ _ => create_move rfl) (Option.some.inj h)
    | _ => simp [depositStep] at h
  | answer a =>
    cases pc with
    | fetching d =>
      simp only [depositStep] at h
      split at h
      · cases h
        exact ⟨.fetches rfl (.inr ⟨_, _, _, rfl⟩), rfl⟩
      · cases a with
        | transfer tr =>
          cases h
          exact ⟨.fetches rfl (.inl ⟨_, rfl⟩), rfl⟩
        | notFound m =>
          cases h
          exact ⟨.fetches rfl (.inr ⟨_, _, _, rfl⟩), rfl⟩
        | rpcError m =>
          cases h
          exact ⟨.fetches rfl (.inr ⟨_, _, _, rfl⟩), rfl⟩
        | providerError m =>
          cases h
          exact ⟨.fetches rfl (.inr ⟨_, _, _, rfl⟩), rfl⟩
    | _ => simp [depositStep] at h
  | go =>
    cases pc with
    | asked =>
      cases call with
      | verify a =>
        simp only [depositStep] at h
        split at h
        · cases h
          exact ⟨.raises, rfl⟩
        · rename_i v hv
          split at h
          · rename_i d hfind
            cases h
            exact ⟨.finds rfl rfl hv (Table.mem_of_find? hfind)
              (by simpa using Table.prop_of_find? hfind), rfl⟩
          · cases h
            exact ⟨.misses rfl hv, rfl⟩
      | reverify id =>
        simp only [depositStep] at h
        split at h
        · cases h
          exact ⟨.raises, rfl⟩
        · exact goOn_move (fun _ _ => reset_move rfl) (Option.some.inj h)
      | other p =>
        simp only [depositStep] at h
        refine goOn_move ?_ (Option.some.inj h)
        intro s₁ pc₁ hr
        cases happly : s.books.apply p.posting with
        | error e => rw [happly] at hr; cases hr
        | ok r =>
          rw [happly] at hr
          cases hr
          exact .posts rfl happly
    | searching v =>
      simp only [depositStep] at h
      split at h
      · rename_i d hfind
        split at h
        · cases h
          exact ⟨.raises, rfl⟩
        · rename_i hacc
          have hmem := Table.mem_of_find? hfind
          split at h
          · cases h
            exact ⟨.findsFailed rfl hmem (by simpa using hacc) (.inl rfl), rfl⟩
          · cases h
            exact ⟨.findsFailed rfl hmem (by simpa using hacc) (.inr rfl), rfl⟩
      · cases h
        exact ⟨.seeks rfl, rfl⟩
    | recovering d v =>
      simp only [depositStep] at h
      exact goOn_move (fun _ _ => recover_move rfl) (Option.some.inj h)
    | checking v =>
      simp only [depositStep] at h
      split at h
      · cases h
        exact ⟨.raises, rfl⟩
      · cases h
        exact ⟨.clears rfl, rfl⟩
    | racedByKey v =>
      simp only [depositStep] at h
      split at h
      · rename_i d hfind
        have hkey : d.idempotencyKey = v.idempotencyKey := by
          simpa using Table.prop_of_find? hfind
        split at h
        · cases h
          exact ⟨.findsRaced rfl (Table.mem_of_find? hfind) hkey (.inl rfl), rfl⟩
        · cases h
          exact ⟨.findsRaced rfl (Table.mem_of_find? hfind) hkey (.inr rfl), rfl⟩
      · cases h
        exact ⟨.missesRaced rfl, rfl⟩
    | racedByTx v =>
      simp only [depositStep] at h
      split at h
      · split at h
        · cases h
          exact ⟨.raises, rfl⟩
        · cases h
          exact ⟨.raises, rfl⟩
      · cases h
        exact ⟨.raises, rfl⟩
    | gating d tr =>
      simp only [depositStep] at h
      cases hgate : gate c (observed tr d) tr with
      | error e =>
        rw [hgate] at h
        cases h
        exact ⟨.observes rfl (.inl ⟨e, rfl⟩), rfl⟩
      | ok pc =>
        rw [hgate] at h
        cases h
        exact ⟨.observes rfl (.inr (gate_cases hgate)), rfl⟩
    | failing d reason raw e =>
      simp only [depositStep] at h
      refine goOn_move ?_ (Option.some.inj h)
      intro s₁ pc₁ hr
      cases hmark : s.markFailed d reason raw with
      | error e => rw [hmark] at hr; cases hr
      | ok s₂ =>
        rw [hmark] at hr
        cases hr
        exact markFailed_move rfl hmark
    | completing d tr =>
      simp only [depositStep] at h
      exact goOn_move (fun _ _ => complete_move rfl) (Option.some.inj h)
    | _ => simp [depositStep] at h

end Operations

end Roamkit.Billing.Proof
