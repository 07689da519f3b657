import Roamkit.Proof.DepositIsolation
import Roamkit.Proof.ObservationRun
import Roamkit.Proof.TxHashes
import Roamkit.Wallet.Money

/-!
# One credit a transfer, on whichever path

The legacy path credits a deposit under the key of its id, the wallet path under the
key of the observation it makes, and no index of the ledger keeps the one from the
other. What does is the row of the deposit: each path completes it in the transaction
that credits it, and neither credits one that it does not find pending. `MoneyInv` says
what an observation that is not for comparison amounts to: a completed deposit with
no entry under its own key.
-/

namespace Roamkit.Wallet.Proof

open Lib Billing Billing.Proof Wallet WalletDb Polygon.Proof

/-! ## The rows of a transaction -/

/-- A row has its transaction as the normalizer spells it. -/
def HasHash (d : DepositRequest) : Prop :=
  ∃ txHash, d.txHash = some txHash ∧ normalizeTxHash txHash = .ok txHash

/-- A deposit has been credited, on either path. -/
def Paid (s : MoneyDb) (d : DepositRequest) : Prop :=
  (∃ e ∈ s.deposit.books.entries, e.idempotencyKey = depositKey d.id)
    ∨ ∃ o ∈ s.observations, o.status = .credited ∧ d.txHash = some o.txHash

/-- Rows stay, of their transactions, and so do the entries; a row is completed when it has been
credited. -/
structure DepositsKept (s s' : MoneyDb) : Prop where
  kept : ∀ d ∈ s.deposit.deposits, ∃ d' ∈ s'.deposit.deposits, d'.id = d.id ∧ d'.txHash = d.txHash
    ∧ (d.status = .completed → d'.status = .completed)
  hash : ∀ d' ∈ s'.deposit.deposits, HasHash d'
  entries : ∀ e ∈ s.deposit.books.entries, e ∈ s'.deposit.books.entries
  completed : ∀ d' ∈ s'.deposit.deposits, d'.status = .completed →
    (∃ d ∈ s.deposit.deposits, d.id = d'.id ∧ d.txHash = d'.txHash ∧ d.status = .completed)
      ∨ Paid s' d'

variable {d : DepositRequest} {txHash : String} {b b' : Books} {f : CreditLedgerEntry}
  {deposit : DepositDb} {pc pc' : DepositPc}

/-- Two rows of one transaction are one row. -/
theorem deposit_eq_of_tx {s : DepositDb} {e : DepositRequest} (hd : d ∈ s.deposits)
    (he : e ∈ s.deposits) (hdtx : d.txHash = some txHash)
    (hetx : e.txHash = some txHash) : d = e := by
  have hne : d.txHash ≠ none := by
    rw [hdtx]
    exact Option.some_ne_none _
  exact Table.eq_of_clash hd he (.inr (.inr ⟨hne, hdtx.trans hetx.symm⟩))

theorem depositsKept_same {s s' : MoneyDb} (h : ∀ d ∈ s.deposit.deposits, HasHash d)
    (hrows : s'.deposit.deposits = s.deposit.deposits)
    (hentries : ∀ e ∈ s.deposit.books.entries, e ∈ s'.deposit.books.entries) :
    DepositsKept s s' := by
  refine ⟨?_, ?_, hentries, ?_⟩
  · intro d hd
    exact ⟨d, hrows ▸ hd, rfl, rfl, fun hs => hs⟩
  · intro d hd
    rw [hrows] at hd
    exact h d hd
  · intro d hd hs
    rw [hrows] at hd
    exact .inl ⟨d, hd, rfl, rfl, hs⟩

theorem depositsKept_rewrite {s s' : MoneyDb} {pk : Uuid} {f : DepositRequest → DepositRequest}
    (h : ∀ d ∈ s.deposit.deposits, HasHash d) (hid : ∀ r, (f r).id = r.id)
    (htx : ∀ r, (f r).txHash = r.txHash)
    (hstatus : ∀ r ∈ s.deposit.deposits, r.id = pk → r.status = .completed
      → (f r).status = .completed)
    (hpaid : ∀ r ∈ s.deposit.deposits, r.id = pk → (f r).status = .completed →
      r.status = .completed ∨ Paid s' (f r))
    (hentries : ∀ e ∈ s.deposit.books.entries, e ∈ s'.deposit.books.entries)
    (hrows : s'.deposit.deposits.rows = s.deposit.deposits.rows.map (rewrite (·.id = pk) f)) :
    DepositsKept s s' := by
  refine ⟨?_, ?_, hentries, ?_⟩
  · intro d hd
    obtain ⟨hsame, hother⟩ := rewritten_mem (i := pk) (f := f) hd
    by_cases hpk : d.id = pk
    · refine ⟨f d, ?_, hid d, htx d, hstatus d hd hpk⟩
      rw [Table.mem_def, hrows]
      exact hsame hpk
    · refine ⟨d, ?_, rfl, rfl, fun hs => hs⟩
      rw [Table.mem_def, hrows]
      exact hother hpk
  · intro d' hd'
    rw [Table.mem_def, hrows] at hd'
    obtain ⟨r, hr, ⟨_, rfl⟩ | ⟨_, rfl⟩⟩ := mem_rewritten hd'
    · obtain ⟨txHash, hr', hnormal⟩ := h r hr
      exact ⟨txHash, (htx r).trans hr', hnormal⟩
    · exact h _ hr
  · intro d' hd' hs
    rw [Table.mem_def, hrows] at hd'
    obtain ⟨r, hr, ⟨hpk, rfl⟩ | ⟨_, rfl⟩⟩ := mem_rewritten hd'
    · rcases hpaid r hr hpk hs with hs | hp
      · exact .inl ⟨r, hr, (hid r).symm, (htx r).symm, hs⟩
      · exact .inr hp
    · exact .inl ⟨_, hr, rfl, rfl, hs⟩

/-- The keys of the two paths are apart. -/
theorem depositKey_ne_observed (id : Uuid) (rest : String) :
    depositKey id ≠ "wallet-obs:" ++ rest := by
  intro h
  have hlist := congrArg (fun s => s.toList.head?) h
  simp [depositKey] at hlist

/-! ## The invariant -/

/-- A deposit is completed, and not by the legacy path. -/
structure SettledBy (s : MoneyDb) (o : DepositObservation) (d : DepositRequest) : Prop where
  mem : d ∈ s.deposit.deposits
  txHash : d.txHash = some o.txHash
  completed : d.status = .completed
  apart : ∀ e ∈ s.deposit.books.entries, e.idempotencyKey ≠ depositKey d.id

structure MoneyInv (c : MoneySettings) (s : MoneyDb) : Prop where
  wallet : WalletInv c.wallet s.wallet
  hash : ∀ d ∈ s.deposit.deposits, HasHash d
  /-- An entry under the key of a deposit is there for a completed row. -/
  legacy : ∀ e ∈ s.deposit.books.entries, ∀ id, e.idempotencyKey = depositKey id →
    ∃ d ∈ s.deposit.deposits, d.id = id ∧ d.status = .completed
  /-- An entry for a deposit is under one of the two kinds of keys. -/
  typed : ∀ e ∈ s.deposit.books.entries, e.referenceType = .deposit →
    (∃ id, e.idempotencyKey = depositKey id) ∨ ∃ rest, e.idempotencyKey = "wallet-obs:" ++ rest
  /-- An observation that is not for comparison is credited, and settles its deposit. -/
  real : ∀ o ∈ s.observations, o.shadowOnly = false → o.status = .credited ∧ ∃ d, SettledBy s o d
  one : ∀ o ∈ s.observations, ∀ p ∈ s.observations, o.shadowOnly = false → p.shadowOnly = false →
    o.txHash = p.txHash → o = p
  /-- A completed deposit has been credited. -/
  paid : ∀ d ∈ s.deposit.deposits, d.status = .completed → Paid s d

/-- What an entry that a step makes is there for. -/
inductive NewEntry (s s' : MoneyDb) (e : CreditLedgerEntry) : Prop
  | other : e.referenceType ≠ .deposit → (∀ id, e.idempotencyKey ≠ depositKey id) → NewEntry s s' e
  /-- A deposit that was pending is completed. -/
  | legacy {d d' : DepositRequest} : d ∈ s.deposit.deposits → d.status = .pending →
      e.idempotencyKey = depositKey d.id → d' ∈ s'.deposit.deposits → d'.id = d.id →
      d'.status = .completed → NewEntry s s' e
  | observed {rest : String} : e.idempotencyKey = "wallet-obs:" ++ rest → NewEntry s s' e

/-- An observation that a step makes and credits, completing a deposit that was pending. -/
structure NewCredit (s s' : MoneyDb) (o : DepositObservation) : Prop where
  credited : o.status = .credited
  pending : ∃ d ∈ s.deposit.deposits, d.status = .pending ∧ d.txHash = some o.txHash
  settled : ∃ d, SettledBy s' o d

section Step

variable {c : MoneySettings} {s s' : MoneyDb}

/-- A pending deposit has no entry under its key. -/
theorem MoneyInv.uncredited (h : MoneyInv c s) (hd : d ∈ s.deposit.deposits)
    (hs : d.status = .pending) {e : CreditLedgerEntry} (he : e ∈ s.deposit.books.entries) :
    e.idempotencyKey ≠ depositKey d.id := by
  intro hkey
  obtain ⟨d', hd', hid, hs'⟩ := h.legacy e he d.id hkey
  rw [deposit_eq hd' hd hid, hs] at hs'
  cases hs'

/-- A pending deposit has no observation but for comparison. -/
theorem MoneyInv.unobserved (h : MoneyInv c s) (hd : d ∈ s.deposit.deposits)
    (hs : d.status = .pending) {o : DepositObservation} (ho : o ∈ s.observations)
    (htx : d.txHash = some o.txHash) : o.shadowOnly = true := by
  by_contra hreal
  obtain ⟨_, d', hd'⟩ := h.real o ho (Bool.eq_false_iff.2 hreal)
  have hs' := hd'.completed
  rw [deposit_eq_of_tx hd'.mem hd hd'.txHash htx, hs] at hs'
  cases hs'

/-- A deposit that was settled stays so, whatever is posted. -/
theorem SettledBy.kept {o o' : DepositObservation} (h : SettledBy s o d)
    (hrows : DepositsKept s s') (hsame : SameRow o o')
    (hentries : ∀ e ∈ s'.deposit.books.entries, e ∈ s.deposit.books.entries ∨ NewEntry s s' e) :
    ∃ d', SettledBy s' o' d' := by
  obtain ⟨d', hd', hid, htx, hs⟩ := hrows.kept d h.mem
  refine ⟨d', hd', ?_, hs h.completed, ?_⟩
  · rw [htx, h.txHash, hsame.txHash]
  · intro e he hkey
    rw [hid] at hkey
    rcases hentries e he with he | hnew
    · exact h.apart e he hkey
    · cases hnew with
      | other _ hother => exact hother _ hkey
      | @legacy r _ hr hpending hrkey =>
        -- the row that was pending is not the one that was completed
        have hrd : r = d := deposit_eq hr h.mem (depositKey_inj (hrkey.symm.trans hkey))
        rw [hrd, h.completed] at hpending
        cases hpending
      | observed hobserved => exact depositKey_ne_observed _ _ (hkey.symm.trans hobserved)

/-- **What a step may do.** The rows stay, and what it posts and observes goes with a deposit it
completes. -/
theorem MoneyInv.step (h : MoneyInv c s) (hw : WalletEffect c.wallet s.wallet s'.wallet)
    (hrows : DepositsKept s s')
    (hentries : ∀ e ∈ s'.deposit.books.entries, e ∈ s.deposit.books.entries ∨ NewEntry s s' e)
    (made : Uuid → Prop) (hmade : ∀ i j, made i → made j → i = j)
    (hobserved : ∀ o' ∈ s'.observations, o'.shadowOnly = false →
      (∃ o ∈ s.observations, SameRow o o') ∨ (made o'.id ∧ NewCredit s s' o')) : MoneyInv c s' := by
  -- an old observation is credited as it was
  have hold : ∀ o ∈ s.observations, ∀ o' ∈ s'.observations, SameRow o o' → o'.shadowOnly = false →
      o.shadowOnly = false ∧ o.status = .credited ∧ o'.status = .credited := by
    intro o ho o' ho' hsame hreal
    have horeal : o.shadowOnly = false := hsame.shadowOnly.symm.trans hreal
    obtain ⟨hcredited, _⟩ := h.real o ho horeal
    have hfinal := hw.kept.sound.final o ho (.inl hcredited) o' ho' hsame.id
    exact ⟨horeal, hcredited, hfinal.trans hcredited⟩
  -- a new one is of a transaction that had none
  have hfresh : ∀ o ∈ s.observations, ∀ o' p', SameRow o o' → o'.shadowOnly = false →
      NewCredit s s' p' → o'.txHash ≠ p'.txHash := by
    intro o ho o' p' hsame hreal hnew htx
    obtain ⟨d, hd, hpending, hdtx⟩ := hnew.pending
    have hshadow := h.unobserved hd hpending ho (by rw [hdtx, ← htx, hsame.txHash])
    rw [← hsame.shadowOnly, hreal] at hshadow
    cases hshadow
  refine ⟨hw.inv, hrows.hash, ?_, ?_, ?_, ?_, ?_⟩
  · intro e he id hkey
    rcases hentries e he with he | hnew
    · obtain ⟨d, hd, hid, hs⟩ := h.legacy e he id hkey
      obtain ⟨d', hd', hid', _, hs'⟩ := hrows.kept d hd
      exact ⟨d', hd', hid'.trans hid, hs' hs⟩
    · cases hnew with
      | other _ hother => exact absurd hkey (hother id)
      | legacy _ _ hdkey hd' hid hs =>
        exact ⟨_, hd', hid.trans (depositKey_inj (hdkey.symm.trans hkey)), hs⟩
      | observed hobs => exact absurd (hkey.symm.trans hobs) (depositKey_ne_observed _ _)
  · intro e he htype
    rcases hentries e he with he | hnew
    · exact h.typed e he htype
    · cases hnew with
      | other hother _ => exact absurd htype hother
      | legacy _ _ hdkey => exact .inl ⟨_, hdkey⟩
      | observed hobs => exact .inr ⟨_, hobs⟩
  · intro o' ho' hreal
    rcases hobserved o' ho' hreal with ⟨o, ho, hsame⟩ | ⟨_, hnew⟩
    · obtain ⟨horeal, _, hcredited⟩ := hold o ho o' ho' hsame hreal
      obtain ⟨_, d, hd⟩ := h.real o ho horeal
      exact ⟨hcredited, hd.kept hrows hsame hentries⟩
    · exact ⟨hnew.credited, hnew.settled⟩
  · intro o' ho' p' hp' horeal hpreal htx
    rcases hobserved o' ho' horeal with ⟨o, ho, hosame⟩ | ⟨homade, hnew⟩
    · rcases hobserved p' hp' hpreal with ⟨p, hp, hpsame⟩ | ⟨_, hnew'⟩
      · have hsame : o = p := by
          refine h.one o ho p hp (hosame.shadowOnly.symm.trans horeal)
            (hpsame.shadowOnly.symm.trans hpreal) ?_
          rw [← hosame.txHash, htx, hpsame.txHash]
        exact observation_eq (s := s'.wallet) ho' hp' (by rw [hosame.id, hpsame.id, hsame])
      · exact absurd htx (hfresh o ho o' p' hosame horeal hnew')
    · rcases hobserved p' hp' hpreal with ⟨p, hp, hpsame⟩ | ⟨hpmade, _⟩
      · exact absurd htx.symm (hfresh p hp p' o' hpsame hpreal hnew)
      · exact observation_eq (s := s'.wallet) ho' hp' (hmade _ _ homade hpmade)
  · intro d' hd' hs
    rcases hrows.completed d' hd' hs with ⟨d, hd, hid, htx, hs⟩ | hpaid
    · rcases h.paid d hd hs with ⟨e, he, hkey⟩ | ⟨o, ho, hcredited, hotx⟩
      · exact .inl ⟨e, hrows.entries e he, by rw [hkey, hid]⟩
      · obtain ⟨o', ho', hlater⟩ := hw.kept.observations o ho
        refine .inr ⟨o', ho', (hlater.moves.of_final (.inl hcredited)).trans hcredited, ?_⟩
        rw [← htx, hotx, hlater.same.txHash]
    · exact hpaid

/-- A step after which there is no new observation but for comparison. -/
theorem MoneyInv.quiet (h : MoneyInv c s) (hw : WalletEffect c.wallet s.wallet s'.wallet)
    (hrows : DepositsKept s s')
    (hentries : ∀ e ∈ s'.deposit.books.entries, e ∈ s.deposit.books.entries ∨ NewEntry s s' e)
    (hobserved : ∀ o' ∈ s'.observations, o'.shadowOnly = false →
      ∃ o ∈ s.observations, SameRow o o') : MoneyInv c s' := by
  refine h.step hw hrows hentries (fun _ => False) (fun _ _ hi => hi.elim) ?_
  intro o' ho' hreal
  exact .inl (hobserved o' ho' hreal)

end Step

/-! ## The shared part, and the legacy path -/

section Legacy

variable {c : MoneySettings} {s : MoneyDb}

/-- The entries after a posting. -/
theorem apply_entries {p : Posting} {e : CreditLedgerEntry} (ha : b.apply p = .ok (b', e))
    (hf : f ∈ b'.entries) :
    f ∈ b.entries ∨ (f.idempotencyKey = p.idempotencyKey ∧ f.referenceType = p.referenceType) := by
  rcases apply_cases ha with ⟨rfl, _, _⟩ | ⟨row, _, _, rfl, _, _, hpost⟩
  · exact .inl hf
  · rcases (mem_entries_post hpost).1 hf with hf | rfl
    · exact .inl hf
    · exact .inr ⟨rfl, rfl⟩

theorem entries_apply {p : Posting} {e : CreditLedgerEntry} (ha : b.apply p = .ok (b', e))
    (hf : f ∈ b.entries) : f ∈ b'.entries := by
  rcases apply_rows ha with ⟨rfl, _, _⟩ | ⟨hrows, _⟩
  · exact hf
  · rw [Table.mem_def, hrows]
    exact List.mem_append_left _ hf

/-- The entry that a posting gives is there, under its key. -/
theorem entry_apply {p : Posting} {e : CreditLedgerEntry} (ha : b.apply p = .ok (b', e)) :
    e ∈ b'.entries ∧ e.idempotencyKey = p.idempotencyKey := by
  rcases apply_rows ha with ⟨rfl, he, hkey⟩ | ⟨hrows, _, _, hkey, _⟩
  · exact ⟨he, hkey⟩
  · refine ⟨?_, hkey⟩
    rw [Table.mem_def, hrows]
    exact List.mem_append_right _ List.mem_cons_self

/-- A step that leaves the addresses and the observations. -/
theorem MoneyInv.deposits (h : MoneyInv c s)
    (hw : WalletEffect c.wallet s.wallet { s.wallet with books := deposit.books })
    (hrows : DepositsKept s { s with deposit })
    (hentries : ∀ e ∈ deposit.books.entries,
      e ∈ s.deposit.books.entries ∨ NewEntry s { s with deposit } e) :
        MoneyInv c { s with deposit } := by
  refine h.quiet hw hrows hentries ?_
  intro o ho _
  exact ⟨o, ho, .refl o⟩

/-- And the ledger. -/
theorem MoneyInv.rows (h : MoneyInv c s) (hbooks : deposit.books = s.deposit.books)
    (hrows : DepositsKept s { s with deposit }) :
    MoneyInv c { s with deposit } := by
  refine h.deposits ?_ hrows ?_
  · rw [hbooks]
    exact ⟨h.wallet, .refl _⟩
  · intro e he
    rw [hbooks] at he
    exact .inl he

/-- **A move of a call of the legacy path keeps the two paths apart.** -/
theorem MoneyInv.move (h : MoneyInv c s) {t : DepositThread}
    (hrequest : ∀ v, heldRequest t.pc = some v → normalizeTxHash v.txHash = .ok v.txHash)
    (hother : ∀ p, t.call = .other p → ∀ rest, p.posting.idempotencyKey ≠ "wallet-obs:" ++ rest)
    (hm : DepositMove c.deposit s.deposit t deposit pc) : MoneyInv c { s with deposit } := by
  cases hm with
  | @posts p b e hcall ha =>
    refine h.deposits (h.wallet.post (p := ⟨p.posting, hother p hcall⟩) ha)
      (depositsKept_same h.hash rfl fun f => entries_apply ha) ?_
    intro f hf
    rcases apply_entries ha hf with hf | ⟨hkey, htype⟩
    · exact .inl hf
    · refine .inr (.other ?_ ?_)
      · rw [htype]
        exact p.notDeposit
      · intro id
        rw [hkey]
        exact p.notDepositKey id
  | @creates v id deposits hpc hi =>
    have hnormal : normalizeTxHash v.txHash = .ok v.txHash := hrequest v (by rw [hpc]; rfl)
    refine h.rows rfl ⟨?_, ?_, fun e he => he, ?_⟩
    · intro d hd
      exact ⟨d, (Table.mem_insert hi).2 (.inl hd), rfl, rfl, fun hs => hs⟩
    · intro d' hd'
      rcases (Table.mem_insert hi).1 hd' with hd' | rfl
      · exact h.hash d' hd'
      · exact ⟨v.txHash, rfl, hnormal⟩
    · intro d' hd' hs
      rcases (Table.mem_insert hi).1 hd' with hd' | rfl
      · exact .inl ⟨d', hd', rfl, rfl, hs⟩
      · cases hs
  | @reopens id d _ hd hid hs =>
    refine h.rows rfl (depositsKept_rewrite (f := DepositDb.reopened) h.hash (fun _ => rfl)
      (fun _ => rfl) ?_ (fun _ _ _ => DepositStatus.noConfusion) (fun e he => he) rfl)
    intro r hr hrid hrs
    rw [deposit_eq hr hd (hrid.trans hid.symm), hs] at hrs
    cases hrs
  | @corrects v d locked deposits _ hd _ hs _ hu =>
    refine h.rows rfl (depositsKept_rewrite (f := DepositDb.corrected v) h.hash (fun _ => rfl)
      (fun _ => rfl) ?_ (fun _ _ _ => DepositStatus.noConfusion) (fun e he => he)
      (Table.rows_update? hu))
    intro r hr hrid hrs
    rw [deposit_eq hr hd hrid, hs] at hrs
    cases hrs
  | @observes d tr _ _ _ =>
    exact h.rows rfl (depositsKept_rewrite (f := DepositDb.observed tr) h.hash (fun _ => rfl)
      (fun _ => rfl) (fun _ _ _ hs => hs) (fun _ _ _ hs => .inl hs) (fun e he => he) rfl)
  | @fails d locked reason raw stored e _ hd hid hs =>
    refine h.rows rfl (depositsKept_rewrite (f := DepositDb.markedFailed reason stored) h.hash
      (fun _ => rfl) (fun _ => rfl) ?_ (fun _ _ _ => DepositStatus.noConfusion)
        (fun e he => he) rfl)
    intro r hr hrid hrs
    rw [deposit_eq hr hd (hrid.trans hid.symm)] at hrs
    exact absurd hrs hs
  | @completes d locked tr p b e _ hd _ hs hp ha =>
    obtain ⟨_, _, _, _, _, hpkey⟩ := preparePosting_eq hp
    have hapart : ∀ rest, p.idempotencyKey ≠ "wallet-obs:" ++ rest := by
      intro rest
      rw [hpkey]
      exact depositKey_ne_observed _ _
    refine h.deposits (h.wallet.post (p := ⟨p, hapart⟩) ha) (depositsKept_rewrite
      (f := DepositDb.completed p.amount tr) h.hash (fun _ => rfl) (fun _ => rfl)
      (fun _ _ _ _ => rfl) ?_ (fun f => entries_apply ha) rfl) ?_
    · intro r _ hrid _
      obtain ⟨he, hkey⟩ := entry_apply ha
      refine .inr (.inl ⟨e, he, ?_⟩)
      rw [hkey, hpkey, ← hrid]
      rfl
    intro f hf
    rcases apply_entries ha hf with hf | ⟨hkey, _⟩
    · exact .inl hf
    · exact .inr (.legacy hd hs (hkey.trans hpkey)
        ((rewritten_mem (f := DepositDb.completed p.amount tr) hd).1 rfl) rfl rfl)
  | _ => exact h

/-- The arguments a call goes on with are those it had, or those it was called with. -/
theorem heldRequest_move {c : DepositSettings} {s s' : DepositDb} {t : DepositThread}
    {v : VerifyRequest} (hm : DepositMove c s t s' pc) (hv : heldRequest pc = some v) :
    heldRequest t.pc = some v ∨ ∃ a, t.call = .verify a ∧ a.normalize c = .ok v := by
  cases hm with
  | @finds a v' d hcall _ hn _ _ =>
    obtain rfl := resume_held.2 v hv
    exact .inr ⟨a, hcall, hn⟩
  | @misses a v' hcall hn =>
    cases hv
    exact .inr ⟨a, hcall, hn⟩
  | @findsFailed v' d _ hpc _ _ hto =>
    rcases hto with rfl | rfl
    · cases hv
    · rw [hpc]
      exact .inl hv
  | seeks hpc =>
    rw [hpc]
    exact .inl hv
  | clears hpc =>
    rw [hpc]
    exact .inl hv
  | races hpc =>
    rw [hpc]
    exact .inl hv
  | missesRaced hpc =>
    rw [hpc]
    exact .inl hv
  | findsRaced _ _ _ hto => rcases hto with rfl | rfl <;> cases hv
  | settled _ _ _ hto => rcases hto with rfl | rfl <;> cases hv
  | fetches _ hto => rcases hto with ⟨_, rfl⟩ | ⟨_, _, _, rfl⟩ <;> cases hv
  | observes _ hto => rcases hto with ⟨_, rfl⟩ | ⟨_, _, _, rfl⟩ | ⟨rfl, _⟩ <;> cases hv
  | _ => cases hv

theorem normalize_hash {c : DepositSettings} {a : VerifyArgs} {v : VerifyRequest}
    (h : a.normalize c = .ok v) : normalizeTxHash a.txHash = .ok v.txHash := by
  unfold VerifyArgs.normalize at h
  split at h
  · cases h
  split at h
  · cases h
  obtain ⟨method, _, h⟩ := bind_ok h
  obtain ⟨amount, _, h⟩ := bind_ok h
  obtain ⟨txHash, hhash, h⟩ := bind_ok h
  cases h
  exact hhash

end Legacy

/-! ## The wallet path, and the comparison -/

/-- A row that was found is as it was but for its progress; one that is made is of the signal. -/
inductive Ingests (s s' : WalletDb) (signal : ObservationSignal) (shadowOnly : Bool)
    (o : DepositObservation) : Prop
  | found {q : DepositObservation} : q ∈ s.observations → SameRow q o →
      (q.status = .credited → o.status = .credited) →
      (∀ o' ∈ s'.observations, ∃ q ∈ s.observations, SameRow q o')
        → Ingests s s' signal shadowOnly o
  | made : o.shadowOnly = shadowOnly → normalizeTxHash signal.txHash = .ok o.txHash →
      (∀ o' ∈ s'.observations, (∃ q ∈ s.observations, SameRow q o') ∨ SameRow o o') →
      Ingests s s' signal shadowOnly o

/-- A row that was credited, or one that is credited now. -/
inductive Converts (s s' : WalletDb) (id : Uuid) : Prop
  | settled {o : DepositObservation} : o ∈ s.observations → o.id = id
      → o.status = .credited → s' = s →
      Converts s s' id
  | credits {o : DepositObservation} : o ∈ s.observations → o.id = id → o.shadowOnly = false →
      o.status ≠ .credited → (∀ r' ∈ s'.observations, ∃ r ∈ s.observations, SameRow r r') →
      (∃ r' ∈ s'.observations, r'.id = id ∧ r'.status = .credited) →
      (∀ f ∈ s'.books.entries, f ∈ s.books.entries
        ∨ ∃ rest, f.idempotencyKey = "wallet-obs:" ++ rest) →
      (∀ f ∈ s.books.entries, f ∈ s'.books.entries) → Converts s s' id

section Observing

variable {c : WalletSettings} {s s' : WalletDb} {o : DepositObservation}

/-- The row that is saved. -/
theorem saved_row {q : DepositObservation} (hq : q ∈ s.observations) (hsame : SameRow q o) :
    ∃ r ∈ (s.saveObservation o).observations, SameRow o r ∧ r.status = o.status := by
  refine ⟨written o q, mem_saved.2 (.inl ⟨q, hq, hsame.id.symm, rfl⟩), ?_, rfl⟩
  exact hsame.symm.trans ⟨rfl, rfl, rfl, rfl, rfl, rfl, rfl, rfl⟩

theorem saved_same {r : DepositObservation} (h : r ∈ (s.saveObservation o).observations) :
    ∃ q ∈ s.observations, SameRow q r := by
  rcases mem_saved.1 h with ⟨q, hq, _, rfl⟩ | ⟨hr, _⟩
  · exact ⟨q, hq, rfl, rfl, rfl, rfl, rfl, rfl, rfl, rfl⟩
  · exact ⟨r, hr, .refl r⟩

theorem judged_same {row judged : DepositObservation}
    (h : applyPolicy c (markPending row) = .ok judged) : SameRow row judged := by
  have hmarked : SameRow row (markPending row) := by
    unfold markPending
    split
    · exact ⟨rfl, rfl, rfl, rfl, rfl, rfl, rfl, rfl⟩
    · exact .refl row
  rcases applyPolicy_cases h with ⟨_, rfl⟩ | ⟨_, hsame, _⟩
  · exact hmarked
  · exact hmarked.trans hsame

theorem prepareIngest_cases {signal : ObservationSignal} {shadowOnly : Bool} {a : Ingest}
    (h : s.prepareIngest signal shadowOnly = .ok a) :
    normalizeTxHash signal.txHash = .ok a.txHash ∧ a.shadowOnly = shadowOnly := by
  obtain ⟨txHash, hhash, h⟩ := bind_ok h
  dsimp only at h
  split at h
  · cases h
  · obtain rfl := Except.ok.inj h
    exact ⟨normalizeObservedHash_ok hhash, rfl⟩

theorem ingestAlone_ingests {signal : ObservationSignal} {shadowOnly : Bool} {id : Uuid}
    (h : WalletInv c s) (hs : MoneyDb.ingestAlone c s signal shadowOnly id = .ok (s', o)) :
    WalletEffect c s s' ∧ s'.books = s.books ∧ Ingests s s' signal shadowOnly o
      ∧ ∃ r ∈ s'.observations, SameRow o r ∧ r.status = o.status := by
  obtain ⟨a, ha, hs⟩ := bind_ok hs
  obtain ⟨hhash, hshadow⟩ := prepareIngest_cases ha
  split at hs
  · rename_i q hfind
    have hq := Table.mem_of_find? hfind
    have heffect := refreshFound_effect h hq hs
    obtain ⟨refreshed, hrefresh, hs⟩ := bind_ok hs
    cases hs
    have hlater := (refresh_move (h.settled q hq).1 hrefresh).later
    refine ⟨heffect, rfl, .found hq hlater.same ?_ fun o' ho' => saved_same ho',
      saved_row hq hlater.same⟩
    intro hcredited
    rw [hlater.moves.of_final (.inl hcredited), hcredited]
  · obtain ⟨made, hmade, hs⟩ := bind_ok hs
    cases made with
    | none => cases hs
    | some made =>
      cases hs
      have heffect := insertNew_effect h (prepareIngest_hash ha) hmade
      obtain ⟨row?, hcolumns, hmade⟩ := bind_ok hmade
      cases row? with
      | none => cases hmade
      | some row =>
        obtain ⟨amount, rfl⟩ := columns_row hcolumns
        dsimp only at hmade
        split at hmade
        · cases hmade
        rename_i observations hi
        obtain ⟨judged, hjudged, hmade⟩ := bind_ok hmade
        cases hmade
        have hsame := judged_same hjudged
        refine ⟨heffect, rfl, .made ?_ ?_ ?_, saved_row ((Table.mem_insert hi).2 (.inr rfl)) hsame⟩
        · rw [hsame.shadowOnly]
          exact hshadow
        · rw [hsame.txHash]
          exact hhash
        · intro o' ho'
          obtain ⟨q, hq, hqsame⟩ := saved_same ho'
          rcases (Table.mem_insert hi).1 hq with hq | rfl
          · exact .inl ⟨q, hq, hqsame⟩
          · exact .inr (hsame.symm.trans hqsame)

theorem convert_converts {id : Uuid} {e : CreditLedgerEntry} (hs : s.convert id = .ok (s', e)) :
    Converts s s' id := by
  unfold WalletDb.convert at hs
  split at hs
  · cases hs
  rename_i locked hfind
  obtain ⟨hmem, hid⟩ := findObservation hfind
  split at hs
  · rename_i hcredited
    split at hs
    · cases hs
    · cases hs
      exact .settled hmem hid hcredited rfl
  · rename_i huncredited
    split at hs
    · cases hs
    rename_i hshadow
    -- the row is credited, as it is or as it has been started
    have hfinish : ∀ q : DepositObservation, q.id = locked.id
      → observationKey q = observationKey locked →
        s.creditAndFinish q = .ok (s', e) → Converts s s' id := by
      intro q hqid hqkey hq
      unfold creditAndFinish at hq
      split at hq
      · cases hq
      obtain ⟨p, hp, hq⟩ := bind_ok hq
      obtain ⟨⟨books, entry⟩, happly, hq⟩ := bind_ok hq
      cases hq
      obtain ⟨_, _, _, _, _, hkey⟩ := preparePosting_eq hp
      refine .credits hmem hid (Bool.eq_false_iff.2 hshadow) huncredited
        (fun r' hr' => saved_same hr') ?_ ?_ fun f => entries_apply happly
      · exact ⟨_, mem_saved.2 (.inl ⟨locked, hmem, hqid.symm, rfl⟩), hid, rfl⟩
      · intro f hf
        rcases apply_entries happly hf with hf | ⟨hfkey, _⟩
        · exact .inl hf
        · obtain ⟨rest, hrest⟩ := observationKey_prefix q
          exact .inr ⟨rest, (hfkey.trans hkey).trans hrest⟩
    split at hs
    · exact hfinish locked rfl rfl hs
    · split at hs
      · cases hs
      · exact hfinish { locked with status := .conversionStarted } rfl rfl hs

end Observing

section Paths

variable {c : MoneySettings} {s s' : MoneyDb}

/-- A posting of the observation services is under an observation's key. -/
theorem observed_entries {w : WalletDb} (h : ∀ f ∈ w.books.entries, f ∈ s.deposit.books.entries
    ∨ ∃ rest, f.idempotencyKey = "wallet-obs:" ++ rest) :
    ∀ e ∈ w.books.entries, e ∈ s.deposit.books.entries ∨ NewEntry s s' e := by
  intro e he
  rcases h e he with he | ⟨rest, hrest⟩
  · exact .inl he
  · exact .inr (.observed hrest)

/-- A row that was found is not for comparison only where it has been credited. -/
theorem MoneyInv.found_shadow (h : MoneyInv c s) {q o : DepositObservation}
    (hq : q ∈ s.observations) (hsame : SameRow q o)
    (hcredited : q.status = .credited → o.status = .credited) (hs : o.status ≠ .credited) :
    o.shadowOnly = true := by
  rw [hsame.shadowOnly]
  by_contra hreal
  exact hs (hcredited (h.real q hq (Bool.eq_false_iff.2 hreal)).1)

theorem normalizeTxHash_ne {value : String} (h : normalizeTxHash value = .ok txHash) :
    txHash ≠ "" := by
  rintro rfl
  have hlength := normalizeTxHash_length h
  cases hlength

/-- A pending deposit is completed as a new observation of its transaction is credited. -/
theorem MoneyInv.credits (h : MoneyInv c s) {locked : DepositRequest} {w : WalletDb}
    {o : DepositObservation} {other : String} {amount : Amount} {tr : TransferResult}
    (hlocked : locked ∈ s.deposit.deposits) (hpending : locked.status = .pending)
    (hw : WalletEffect c.wallet s.wallet w)
    (hhash : normalizeTxHash (MoneyDb.orElse locked.txHash other) = .ok o.txHash)
    (hentries : ∀ f ∈ w.books.entries, f ∈ s.deposit.books.entries
      ∨ ∃ rest, f.idempotencyKey = "wallet-obs:" ++ rest)
    (hold : ∀ f ∈ s.deposit.books.entries, f ∈ w.books.entries)
    (hnow : ∃ r ∈ w.observations, SameRow o r ∧ r.status = .credited)
    (hrows : ∀ r ∈ w.observations, (∃ q ∈ s.observations, SameRow q r) ∨ SameRow o r) :
    MoneyInv c { s.withWallet w with
      deposit := (s.withWallet w).deposit.save locked.id (DepositDb.completed amount tr)
        (fun _ _ h => h) } := by
  obtain ⟨txHash, htx, hnormal⟩ := h.hash locked hlocked
  have htxHash : locked.txHash = some o.txHash := by
    have horElse : MoneyDb.orElse (some txHash) other = txHash :=
      if_neg (normalizeTxHash_ne hnormal)
    rw [htx, horElse, hnormal] at hhash
    rw [htx, Except.ok.inj hhash]
  obtain ⟨row, hrow, hrowsame, hcredited⟩ := hnow
  refine h.step hw (depositsKept_rewrite (f := DepositDb.completed amount tr) h.hash (fun _ => rfl)
    (fun _ => rfl) (fun _ _ _ _ => rfl) ?_ hold rfl) (observed_entries hentries)
    (fun id => id = o.id)
    (fun i j hi hj => hi.trans hj.symm) ?_
  · intro r hr hrid _
    obtain rfl : r = locked := deposit_eq hr hlocked hrid
    refine .inr (.inr ⟨row, hrow, hcredited, ?_⟩)
    rw [hrowsame.txHash]
    exact htxHash
  intro r hr hreal
  rcases hrows r hr with hold | hsame
  · exact .inl hold
  · have hmem := (rewritten_mem (f := DepositDb.completed amount tr) hlocked).1 rfl
    refine .inr ⟨hsame.id, ?_, ⟨locked, hlocked, hpending, ?_⟩, _, hmem, ?_, rfl, ?_⟩
    · obtain rfl : r = row := observation_eq hr hrow (hsame.id.trans hrowsame.id.symm)
      exact hcredited
    · rw [hsame.txHash]
      exact htxHash
    · rw [hsame.txHash]
      exact htxHash
    · intro e he
      rcases hentries e he with he | ⟨rest, hrest⟩
      · exact h.uncredited hlocked hpending he
      · intro hkey
        exact depositKey_ne_observed _ _ (hkey.symm.trans hrest)

/-- **The wallet path credits a deposit that it finds pending, through an observation that it
makes.** -/
theorem MoneyInv.completeWallet (h : MoneyInv c s) {r : DepositRequest} {tr : OnChainTransfer}
    {address : WalletAddress} {id : Uuid}
    (hs : s.completeWalletPath c d tr address id = .ok (s', r)) : MoneyInv c s' := by
  unfold MoneyDb.completeWalletPath at hs
  split at hs
  · cases hs
  rename_i locked hfind
  obtain ⟨hlocked, _⟩ := findRow_mem hfind
  split at hs
  · cases hs
    exact h
  · rename_i hstatus
    have hpending : locked.status = .pending := not_not.1 hstatus
    split at hs
    · cases hs
    obtain ⟨logIndex, _, hs⟩ := bind_ok hs
    obtain ⟨⟨observed, observation⟩, hingest, hs⟩ := bind_ok hs
    dsimp only at hs
    split at hs
    · cases hs
    rename_i hconfirmed
    have hconfirmed : observation.status = .confirmed := not_not.1 hconfirmed
    obtain ⟨⟨converted, entry⟩, hconvert, hs⟩ := bind_ok hs
    obtain ⟨amount, _, hs⟩ := bind_ok hs
    cases hs
    obtain ⟨hobserved, hbooks, hcases, row, hrow, hrowsame, hrowstatus⟩ :=
      ingestAlone_ingests h.wallet hingest
    have heffect := convert_effect hobserved.inv hconvert
    have huncredited : observation.status ≠ .credited := by
      rw [hconfirmed]
      decide
    cases convert_converts hconvert with
    | @settled o ho hid hcredited _ =>
      -- it was confirmed, and not credited
      obtain rfl : o = row := observation_eq ho hrow (hid.trans hrowsame.id.symm)
      exact absurd (hrowstatus.symm.trans hcredited) huncredited
    | @credits o ho hid hreal _ hold hnow hentries hkept =>
      obtain rfl : o = row := observation_eq ho hrow (hid.trans hrowsame.id.symm)
      cases hcases with
      | found hq hsame hcredited _ =>
        have hshadow := h.found_shadow hq hsame hcredited huncredited
        rw [← hrowsame.shadowOnly, hreal] at hshadow
        cases hshadow
      | made _ hhash hrows =>
        refine h.credits hlocked hpending ⟨heffect.inv, hobserved.kept.trans heffect.kept⟩
          hhash ?_ ?_ ?_ ?_
        · rw [hbooks] at hentries
          exact hentries
        · rw [hbooks] at hkept
          exact hkept
        · obtain ⟨r, hr, hrid, hcredited⟩ := hnow
          obtain ⟨q, hq, hqsame⟩ := hold r hr
          obtain rfl : q = o := observation_eq hq ho (hqsame.id.symm.trans (hrid.trans hid.symm))
          exact ⟨r, hr, hrowsame.trans hqsame, hcredited⟩
        · intro r hr
          obtain ⟨q, hq, hqsame⟩ := hold r hr
          rcases hrows q hq with ⟨p, hp, hpsame⟩ | hnew
          · exact .inl ⟨p, hp, hpsame.trans hqsame⟩
          · exact .inr (hnew.trans hqsame)

/-- A comparison makes no observation but for comparison. -/
theorem MoneyInv.compare (h : MoneyInv c s) (d : DepositRequest) (tr : OnChainTransfer)
    (id : Uuid) :
    MoneyInv c (s.compareOnce c d tr id).1 := by
  unfold MoneyDb.compareOnce
  split
  · exact h
  · rename_i address _
    dsimp only
    split
    · exact h
    · rename_i w observation hingest
      obtain ⟨logIndex, _, hingest⟩ := bind_ok hingest
      obtain ⟨heffect, hbooks, hcases, _⟩ := ingestAlone_ingests h.wallet hingest
      refine h.quiet heffect (depositsKept_same h.hash rfl ?_) ?_ ?_
      · intro e he
        show e ∈ w.books.entries
        rw [hbooks]
        exact he
      · intro e he
        have he : e ∈ w.books.entries := he
        rw [hbooks] at he
        exact .inl he
      · intro o ho hreal
        cases hcases with
        | found _ _ _ hrows => exact hrows o ho
        | made hshadow _ hrows =>
          rcases hrows o ho with hold | hnew
          · exact hold
          · rw [hnew.shadowOnly, hshadow] at hreal
            cases hreal

/-- There is nothing for `resume_converts` to convert. -/
theorem MoneyInv.resume (h : MoneyInv c s) (x : Cutover) (id : Uuid) :
    s.resumeConvert x id = s := by
  unfold MoneyDb.resumeConvert
  split
  · rfl
  · split
    · rfl
    · split
      · rfl
      · rename_i w e hconvert
        cases convert_converts hconvert with
        | settled _ _ _ hsame =>
          rw [hsame]
          rfl
        | credits ho _ hreal huncredited => exact absurd (h.real _ ho hreal).1 huncredited

/-- An address is made, and nothing else. -/
theorem MoneyInv.allocate (h : MoneyInv c s) {account id : Uuid} {now : Time}
    {address : WalletAddress}
    (hs : s.ensureActiveAddress c account id now = .ok (s', address)) : MoneyInv c s' := by
  unfold MoneyDb.ensureActiveAddress at hs
  split at hs
  · cases hs
    exact h
  · obtain ⟨text, _, hs⟩ := bind_ok hs
    split at hs
    · cases hs
    dsimp only at hs
    split at hs
    · cases hs
    rename_i addresses hi
    cases hs
    exact h.quiet (allocate_effect h.wallet hi) (depositsKept_same h.hash rfl fun e he => he)
      (fun e he => .inl he) (fun o ho _ => ⟨o, ho, .refl o⟩)

theorem MoneyInv.record (h : MoneyInv c s) (decision : ShadowDecision) :
    MoneyInv c (s.record decision) := by
  unfold MoneyDb.record
  split
  · exact h
  · exact h.quiet ⟨h.wallet, .refl _⟩ (depositsKept_same h.hash rfl fun e he => he)
      (fun e he => .inl he) (fun o ho _ => ⟨o, ho, .refl o⟩)

end Paths

/-! ## Every run -/

/-- A call goes on with arguments that it has normalized. -/
def MoneyLocal (t : MoneyThread) : Prop :=
  ∀ pc v, t.pc = .locating pc → heldRequest pc = some v → normalizeTxHash v.txHash = .ok v.txHash

section Run

variable {c : MoneySettings} {s s' : MoneyDb} {t t' : MoneyThread}

theorem moneyLocal_past (h : ∀ pc, t.pc ≠ .locating pc) : MoneyLocal t :=
  fun pc _ hpc => absurd hpc (h pc)

theorem located_locating (h : located pc = .locating pc') : pc' = pc := by
  cases pc <;> cases h <;> rfl

/-- A move that neither looks for a row nor posts for another service. -/
theorem MoneyInv.late (h : MoneyInv c s) (id : Uuid) (pc : DepositPc)
    (hpast : heldRequest pc = none)
    (hm : DepositMove c.deposit s.deposit ⟨.reverify id, pc⟩ deposit pc') :
    MoneyInv c { s with deposit } ∧ heldRequest pc' = none := by
  refine ⟨h.move ?_ ?_ hm, ?_⟩
  · intro v hv
    rw [show heldRequest pc = some v from hv] at hpast
    cases hpast
  · intro p hp
    cases hp
  · cases hheld : heldRequest pc' with
    | none => rfl
    | some v =>
      rcases heldRequest_move hm hheld with hv | ⟨a, hcall, _⟩
      · rw [show heldRequest pc = some v from hv] at hpast
        cases hpast
      · cases hcall

/-- The gates let a call go on to fail or to complete. -/
theorem gated_past {tr : OnChainTransfer} {address : Option WalletAddress}
    (h : DepositDb.gate c.deposit d tr.toTransferResult = .ok pc) :
    gated tr address pc ≠ .locating pc' := by
  intro hpc
  rcases gate_cases h with ⟨_, _, _, rfl⟩ | ⟨rfl, _⟩ <;> cases hpc

theorem MoneyInv.gate (h : MoneyInv c s) (d : DepositRequest) (tr : OnChainTransfer)
    (address : Option WalletAddress) :
    MoneyInv c (s.applyTransferGates c d tr address).1
      ∧ ∀ pc, (s.applyTransferGates c d tr address).2 ≠ .locating pc := by
  have hmove := (h.late d.id (.gating d tr.toTransferResult) rfl
    (.observes rfl (.inl ⟨.operational, rfl⟩))).1
  unfold MoneyDb.applyTransferGates
  dsimp only
  split
  · exact ⟨hmove, fun pc => MoneyPc.noConfusion⟩
  · rename_i pc hgate
    exact ⟨hmove, fun pc' => gated_past hgate⟩

theorem MoneyInv.complete (h : MoneyInv c s) (d : DepositRequest) (tr : OnChainTransfer) :
    MoneyInv c (s.complete d tr).1
      ∧ ∀ pc, (s.complete d tr).2 = .locating pc → heldRequest pc = none := by
  have hmove : ∀ deposit pc, s.deposit.complete d tr.toTransferResult = .ok (deposit, pc) →
      MoneyInv c { s with deposit } ∧ heldRequest pc = none := by
    intro deposit pc hs
    exact h.late d.id (.completing d tr.toTransferResult) rfl (complete_move rfl hs)
  unfold MoneyDb.complete
  split
  · refine ⟨h, ?_⟩
    intro pc hpc
    cases hpc
  · rename_i deposit r hs
    refine ⟨(hmove _ _ hs).1, ?_⟩
    intro pc hpc
    dsimp only at hpc
    split at hpc <;> cases hpc
  · rename_i deposit pc _ hs
    refine ⟨(hmove _ _ hs).1, ?_⟩
    intro pc' hpc
    cases hpc
    exact (hmove _ _ hs).2

/-- A step of the part that both paths share. -/
theorem MoneyInv.locate (h : MoneyInv c s) {call : MoneyCall} {y : DepositInput}
    (hL : MoneyLocal ⟨call, .locating pc⟩)
    (hs : moneyStep c s ⟨call, .locating pc⟩ (.deposit y) = some (s', t')) :
    MoneyInv c s' ∧ MoneyLocal t' := by
  have hheld : ∀ v, heldRequest pc = some v → normalizeTxHash v.txHash = .ok v.txHash := by
    intro v hv
    exact hL pc v rfl hv
  simp only [moneyStep] at hs
  split at hs
  · cases hs
  rename_i legacy hlegacy
  split at hs
  · cases hs
  rename_i deposit u hstep
  cases hs
  obtain ⟨hm, _⟩ := depositStep_move hstep
  refine ⟨h.move hheld ?_ hm, ?_⟩
  · rintro p rfl rest
    cases call with
    | other q =>
      cases hlegacy
      exact q.notObservation rest
    | _ => cases hlegacy
  · intro pc' v hpc hv
    obtain rfl := located_locating hpc
    rcases heldRequest_move hm hv with hv | ⟨a, _, hn⟩
    · exact hheld v hv
    · exact normalizeTxHash_idem (normalize_hash hn)

/-- A step of the queue of a call that has located its deposit, or of one that resumes
conversions. -/
theorem MoneyInv.go (h : MoneyInv c s) {call : MoneyCall} {pc : MoneyPc}
    (hs : moneyStep c s ⟨call, pc⟩ .go = some (s', t')) : MoneyInv c s' ∧ MoneyLocal t' := by
  cases pc with
  | gating d tr address =>
    cases hs
    obtain ⟨hinv, hpast⟩ := h.gate d tr address
    exact ⟨hinv, moneyLocal_past hpast⟩
  | failing d reason raw e =>
    simp only [moneyStep] at hs
    split at hs
    · cases hs
      exact ⟨h, moneyLocal_past fun _ => MoneyPc.noConfusion⟩
    · rename_i deposit hmark
      cases hs
      exact ⟨(h.late d.id (.failing d reason raw e) rfl (markFailed_move rfl hmark)).1,
        moneyLocal_past fun _ => MoneyPc.noConfusion⟩
  | completing d tr address =>
    cases address with
    | some address => cases hs
    | none =>
      cases hs
      obtain ⟨hinv, hpast⟩ := h.complete d tr
      refine ⟨hinv, ?_⟩
      intro pc v hpc hv
      rw [hpast pc hpc] at hv
      cases hv
  | recording d decision =>
    cases hs
    exact ⟨h.record decision, moneyLocal_past fun _ => MoneyPc.noConfusion⟩
  | resuming ids =>
    cases ids with
    | nil =>
      cases hs
      exact ⟨h, moneyLocal_past fun _ => MoneyPc.noConfusion⟩
    | cons id ids => cases hs
  | _ => cases hs

theorem verifyPending_past (x : Cutover) (d : DepositRequest) (pc : DepositPc) :
    verifyPending x d ≠ .locating pc := by
  unfold verifyPending
  split
  · exact MoneyPc.noConfusion
  · split <;> exact MoneyPc.noConfusion

theorem failed_past (pc : MoneyPc) (pc' : DepositPc) : pc.failed ≠ .locating pc' := by
  cases pc with
  | resuming ids => cases ids <;> exact MoneyPc.noConfusion
  | _ => exact MoneyPc.noConfusion

/-- **Every step keeps the two paths apart.** -/
theorem moneyInv_step (h : MoneyInv c s) (hL : MoneyLocal t) {x : MoneyInput}
    (hs : moneyStep c s t x = some (s', t')) : MoneyInv c s' ∧ MoneyLocal t' := by
  obtain ⟨call, pc⟩ := t
  cases x with
  | go => exact h.go hs
  | deposit y =>
    cases pc with
    | locating pc => exact h.locate hL hs
    | _ => cases hs
  | cutover x =>
    cases pc with
    | verifying d =>
      cases hs
      exact ⟨h, moneyLocal_past (verifyPending_past x d)⟩
    | comparing d tr =>
      cases hs
      refine ⟨h, moneyLocal_past ?_⟩
      intro pc
      dsimp only
      split <;> exact MoneyPc.noConfusion
    | resuming ids =>
      cases ids with
      | nil => cases hs
      | cons id ids =>
        cases hs
        refine ⟨?_, moneyLocal_past fun _ => MoneyPc.noConfusion⟩
        rw [h.resume x id]
        exact h
    | _ => cases hs
  | address id now =>
    cases pc with
    | allocating d =>
      simp only [moneyStep] at hs
      split at hs
      · cases hs
        exact ⟨h, moneyLocal_past fun _ => MoneyPc.noConfusion⟩
      · rename_i hallocate
        cases hs
        exact ⟨h.allocate hallocate, moneyLocal_past fun _ => MoneyPc.noConfusion⟩
    | _ => cases hs
  | answer a =>
    cases pc with
    | fetching d address =>
      cases hs
      refine ⟨h, moneyLocal_past ?_⟩
      intro pc
      cases a <;> exact MoneyPc.noConfusion
    | _ => cases hs
  | uuid id =>
    cases pc with
    | completing d tr address =>
      cases address with
      | none => cases hs
      | some address =>
        simp only [moneyStep] at hs
        split at hs
        · cases hs
          exact ⟨h, moneyLocal_past fun _ => MoneyPc.noConfusion⟩
        · rename_i hcomplete
          cases hs
          exact ⟨h.completeWallet hcomplete, moneyLocal_past fun _ => MoneyPc.noConfusion⟩
    | observing d tr =>
      cases hs
      exact ⟨h.compare d tr id, moneyLocal_past fun _ => MoneyPc.noConfusion⟩
    | _ => cases hs
  | listed ids =>
    cases pc with
    | listing =>
      simp only [moneyStep] at hs
      split at hs
      · cases hs
        exact ⟨h, moneyLocal_past fun _ => MoneyPc.noConfusion⟩
      · cases hs
    | _ => cases hs
  | fail =>
    have hfail : s' = s ∧ t'.pc = pc.failed := by
      simp only [moneyStep] at hs
      split at hs
      · cases hs
        exact ⟨rfl, rfl⟩
      · cases hs
    obtain ⟨rfl, hpc⟩ := hfail
    refine ⟨h, moneyLocal_past ?_⟩
    intro pc'
    rw [hpc]
    exact failed_past pc pc'

/-- Nothing has been deposited. -/
structure FreshMoney (s : MoneyDb) : Prop where
  books : Books.Fresh s.deposit.books
  deposits : s.deposit.deposits.rows = []
  observations : s.observations.rows = []

theorem moneyInv_init (h : FreshMoney s) : MoneyInv c s := by
  have hdeposits : ∀ d, d ∉ s.deposit.deposits := by
    intro d hd
    rw [Table.mem_def, h.deposits] at hd
    cases hd
  have hobservations : ∀ o, o ∉ s.observations := by
    intro o ho
    rw [Table.mem_def, h.observations] at ho
    cases ho
  have hentries : ∀ e, e ∉ s.deposit.books.entries := by
    intro e he
    rw [Table.mem_def, h.books.entries] at he
    cases he
  refine ⟨walletInv_init ⟨h.books, h.observations⟩, ?_, ?_, ?_, ?_, ?_, ?_⟩
  · exact fun d hd => absurd hd (hdeposits d)
  · exact fun e he => absurd he (hentries e)
  · exact fun e he => absurd he (hentries e)
  · exact fun o ho => absurd ho (hobservations o)
  · exact fun o ho => absurd ho (hobservations o)
  · exact fun d hd => absurd hd (hdeposits d)

theorem moneyInvariant (c : MoneySettings) :
    Invariant (moneyProgram c) FreshMoney (fun _ _ _ => True) (MoneyInv c) (fun _ t => MoneyLocal t)
      (fun _ _ => True) where
  init := moneyInv_init
  start := by
    intro s k _ pc v hpc hv
    dsimp only [moneyProgram] at hpc
    split at hpc
    · cases hpc
      cases hv
    · cases hpc
  apart_start := fun _ _ => trivial
  symm := fun _ => trivial
  step := fun h hL _ hs => moneyInv_step h hL hs
  frame := fun _ _ _ _ hL _ => ⟨hL, trivial⟩

end Run

/-! ## What the ledger says of a transaction -/

/-- An entry credits a transaction, on the legacy path or through an observation. -/
inductive CreditsTx (s : MoneyDb) (e : CreditLedgerEntry) (txHash : String) : Prop
  | legacy {d : DepositRequest} : d ∈ s.deposit.deposits → d.txHash = some txHash →
      e.idempotencyKey = depositKey d.id → CreditsTx s e txHash
  | observed {o : DepositObservation} : o ∈ s.observations → o.txHash = txHash →
      e.idempotencyKey = observationKey o → CreditsTx s e txHash

/-- The deposits and the ledger agree, whichever path each deposit took. -/
structure MoneySound (s : MoneyDb) : Prop where
  /-- Every credit for a deposit is of a transaction, under one of the two keys. -/
  attributed : ∀ e ∈ s.deposit.books.entries, e.referenceType = .deposit
    → ∃ txHash, CreditsTx s e txHash
  /-- A transaction is credited at most once, on whichever path. -/
  once : ∀ e ∈ s.deposit.books.entries, ∀ f ∈ s.deposit.books.entries, ∀ txHash,
    CreditsTx s e txHash → CreditsTx s f txHash → e = f
  /-- A deposit is completed exactly when its transaction has its credit. -/
  completed : ∀ d ∈ s.deposit.deposits, d.status = .completed ↔
    ∃ txHash, d.txHash = some txHash ∧ ∃! e, e ∈ s.deposit.books.entries ∧ CreditsTx s e txHash
  /-- What was observed for comparison is not credited. -/
  shadow : ∀ o ∈ s.observations, o.shadowOnly = true → ∀ e ∈ s.deposit.books.entries,
    e.idempotencyKey ≠ observationKey o

section Sound

variable {c : MoneySettings} {s : MoneyDb}

/-- The row behind an entry under an observation's key is credited, and was not for comparison. -/
theorem MoneyInv.behind (h : MoneyInv c s) {e : CreditLedgerEntry}
    (he : e ∈ s.deposit.books.entries) {o : DepositObservation} (ho : o ∈ s.observations)
    (hkey : e.idempotencyKey = observationKey o) :
    o.status = .credited ∧ o.shadowOnly = false := by
  obtain ⟨rest, hrest⟩ := observationKey_prefix o
  obtain ⟨p, hp, hcredited, hpkey⟩ := h.wallet.origin e he rest (hkey.trans hrest)
  obtain rfl : p = o := h.wallet.eq_of_key hp ho (hpkey.symm.trans hkey)
  refine ⟨hcredited, ?_⟩
  by_contra hshadow
  exact h.wallet.shadow p hp (Bool.not_eq_false _ ▸ hshadow) hcredited

/-- The two paths do not credit one transaction both. -/
theorem MoneyInv.exclusive (h : MoneyInv c s) {e : CreditLedgerEntry}
    (he : e ∈ s.deposit.books.entries) (hf : f ∈ s.deposit.books.entries) {o : DepositObservation}
    (hd : d ∈ s.deposit.deposits) (ho : o ∈ s.observations) (htx : d.txHash = some o.txHash)
    (hekey : e.idempotencyKey = depositKey d.id) : f.idempotencyKey ≠ observationKey o := by
  intro hfkey
  obtain ⟨_, hreal⟩ := h.behind hf ho hfkey
  obtain ⟨_, d', hd'⟩ := h.real o ho hreal
  obtain rfl : d' = d := deposit_eq_of_tx hd'.mem hd hd'.txHash htx
  exact hd'.apart e he hekey

theorem MoneyInv.once (h : MoneyInv c s) {e : CreditLedgerEntry}
    (he : e ∈ s.deposit.books.entries) (hf : f ∈ s.deposit.books.entries)
    (hetx : CreditsTx s e txHash) (hftx : CreditsTx s f txHash) : e = f := by
  have hsame : e.idempotencyKey = f.idempotencyKey → e = f :=
    fun hkey => Table.eq_of_clash he hf hkey
  cases hetx with
  | @legacy d hd hdtx hekey =>
    cases hftx with
    | @legacy d' hd' hdtx' hfkey =>
      obtain rfl : d = d' := deposit_eq_of_tx hd hd' hdtx hdtx'
      exact hsame (hekey.trans hfkey.symm)
    | @observed o ho hotx hfkey =>
      exact absurd hfkey (h.exclusive he hf hd ho (hotx ▸ hdtx) hekey)
  | @observed o ho hotx hekey =>
    cases hftx with
    | @legacy d hd hdtx hfkey =>
      exact absurd hekey (h.exclusive hf he hd ho (hotx ▸ hdtx) hfkey)
    | @observed p hp hptx hfkey =>
      obtain rfl : o = p := h.one o ho p hp (h.behind he ho hekey).2 (h.behind hf hp hfkey).2
        (hotx.trans hptx.symm)
      exact hsame (hekey.trans hfkey.symm)

/-- A completed deposit has a credit for its transaction. -/
theorem MoneyInv.credited (h : MoneyInv c s) (hd : d ∈ s.deposit.deposits)
    (hs : d.status = .completed) :
    ∃ txHash, d.txHash = some txHash ∧ ∃ e ∈ s.deposit.books.entries, CreditsTx s e txHash := by
  obtain ⟨txHash, htx, _⟩ := h.hash d hd
  refine ⟨txHash, htx, ?_⟩
  rcases h.paid d hd hs with ⟨e, he, hkey⟩ | ⟨o, ho, hcredited, hotx⟩
  · exact ⟨e, he, .legacy hd htx hkey⟩
  · obtain ⟨e, he, hcredits⟩ := h.wallet.entry o ho hcredited
    exact ⟨e, he, .observed ho (Option.some.inj (hotx.symm.trans htx)) hcredits.key⟩

/-- A deposit whose transaction has a credit is completed. -/
theorem MoneyInv.settled (h : MoneyInv c s) {d : DepositRequest} (hd : d ∈ s.deposit.deposits)
    {txHash : String} (htx : d.txHash = some txHash) {e : CreditLedgerEntry}
    (he : e ∈ s.deposit.books.entries) (hcredits : CreditsTx s e txHash) :
    d.status = .completed := by
  cases hcredits with
  | @legacy d' hd' htx' hkey =>
    obtain rfl : d' = d := deposit_eq_of_tx hd' hd htx' htx
    obtain ⟨r, hr, hid, hs⟩ := h.legacy e he _ hkey
    rw [← deposit_eq hr hd hid]
    exact hs
  | @observed o ho hotx hkey =>
    obtain ⟨_, d', hd'⟩ := h.real o ho (h.behind he ho hkey).2
    obtain rfl : d' = d := deposit_eq_of_tx hd'.mem hd hd'.txHash (hotx ▸ htx)
    exact hd'.completed

theorem MoneyInv.sound (h : MoneyInv c s) : MoneySound s := by
  refine ⟨?_, fun e he f hf _ => h.once he hf, ?_, ?_⟩
  · intro e he htype
    rcases h.typed e he htype with ⟨id, hkey⟩ | ⟨rest, hkey⟩
    · obtain ⟨d, hd, rfl, _⟩ := h.legacy e he id hkey
      obtain ⟨txHash, htx, _⟩ := h.hash d hd
      exact ⟨txHash, .legacy hd htx hkey⟩
    · obtain ⟨o, ho, _, hokey⟩ := h.wallet.origin e he rest hkey
      exact ⟨o.txHash, .observed ho rfl hokey⟩
  · intro d hd
    constructor
    · intro hs
      obtain ⟨txHash, htx, e, he, hcredits⟩ := h.credited hd hs
      exact ⟨txHash, htx, e, ⟨he, hcredits⟩,
        fun f ⟨hf, hfcredits⟩ => h.once hf he hfcredits hcredits⟩
    · rintro ⟨txHash, htx, e, ⟨he, hcredits⟩, _⟩
      exact h.settled hd htx he hcredits
  · intro o ho hshadow e he hkey
    rw [(h.behind he ho hkey).2] at hshadow
    cases hshadow

end Sound

/--
**However verifications on both paths, comparisons and resumed conversions are interleaved, and
whenever the flags and the cohort change, a transaction is credited at most once.**
-/
theorem cutover_sound {c : MoneySettings} {g : Config MoneyDb MoneyThread}
    (h : (moneyProgram c).Reach FreshMoney g) : MoneySound g.store :=
  ((moneyInvariant c).reach h).store.sound

/-! ## A run through a change of the flags -/

def moneySettings : MoneySettings :=
    ⟨settings, walletSettings, fun _ => .ok (normalizeEvmAddress "a1")⟩

def noMoney : MoneyDb := ⟨noDeposits, .empty, .empty, .empty⟩

theorem freshMoney_noMoney : FreshMoney noMoney := ⟨fresh_twoAccounts, rfl, rfl⟩

/-- Alice names a transaction of ten. -/
def aliceNames (digit : Char) (key : String) : MoneyCall :=
  .verify ⟨alice, String.ofList (List.replicate 64 digit), "cex_manual", .str "10", key⟩

/-- Ten on chain, with twenty-five confirmations. -/
def tenSeen (digit : Char) : MoneyInput :=
  .answer (.transfer ⟨⟨.finite ⟨10, 0⟩, 25, "success", .dict []⟩,
    String.ofList (List.replicate 64 digit), "", "c2", 7⟩)

/-- The wallet path is on for Alice, or off. -/
def moneyFlags (wallet : Bool) : MoneyInput := .cutover ⟨⟨wallet, wallet, wallet, true⟩, [alice]⟩

/-- A call makes its deposit, under an id. -/
def makesDeposit (p : Nat) (id : Uuid) : List (Act MoneyCall MoneyInput) :=
  [.tick p (.deposit .go), .tick p (.deposit .go), .tick p (.deposit .go),
    .tick p (.deposit (.uuid id))]

/-- Call 0 goes the legacy way and is compared; the flags change, and call 1 goes the wallet way. -/
def cutoverRun : List (Act MoneyCall MoneyInput) :=
  [.call 0 (aliceNames 'a' "first")] ++ makesDeposit 0 depositId
    ++ [.tick 0 (moneyFlags false), .tick 0 (tenSeen 'a'), .tick 0 .go,
      .call 1 (aliceNames 'b' "second")]
    ++ makesDeposit 1 observationId
    ++ [.tick 1 (moneyFlags true), .tick 0 .go, .tick 1 (.address addressId 0),
      .tick 0 (moneyFlags true),
      .tick 0 (.uuid alice), .tick 0 .go, .tick 1 (tenSeen 'b'), .tick 1 .go,
        .tick 1 (.uuid observationId)]

/-- Both deposits are completed, one observation is for comparison and the other is credited. -/
def isCutOver (g : Config MoneyDb MoneyThread) : Bool :=
  decide (g.store.deposit.deposits.rows.map (·.status) = [.completed, .completed])
    && decide (g.store.observations.rows.map (fun o => (o.shadowOnly, o.status))
      = [(true, .confirmed), (false, .credited)])
    && decide (g.store.deposit.books.entries.rows.length = 2)

theorem cutover_sound_flipped :
    ∃ g, (moneyProgram moneySettings).Reach FreshMoney g ∧ isCutOver g = true
      ∧ MoneySound g.store := by
  obtain ⟨g, hr, hg⟩ := Program.run_check (moneyProgram moneySettings) noMoney cutoverRun isCutOver
    (by decide +kernel)
  have hreach := Program.reach_run freshMoney_noMoney hr
  exact ⟨g, hreach, hg, cutover_sound hreach⟩

end Roamkit.Wallet.Proof
