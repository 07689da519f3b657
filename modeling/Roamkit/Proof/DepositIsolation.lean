import Roamkit.Proof.Deposit

/-!
# Whose deposit a call works on

A call of `verify` goes on with a copy of a row. Where the row is found by its
transaction, or found again under a lock, its account is compared with the
caller's; where it is found by the idempotency key of the call, it is not. So a
call works on its own account's rows for as long as no row of another account has
its key when it looks the key up.
-/

namespace Roamkit.Billing.Proof

open Lib Billing DepositDb

/-- The copy a call goes on with, or returns. -/
def heldRow : DepositPc → Option DepositRequest
  | .recovering d _ => some d
  | .fetching d => some d
  | .gating d _ => some d
  | .failing d _ _ _ => some d
  | .completing d _ => some d
  | .returned d => some d
  | _ => none

/-- The normalized arguments a call goes on with. -/
def heldRequest : DepositPc → Option VerifyRequest
  | .searching v => some v
  | .recovering _ v => some v
  | .checking v => some v
  | .creating v => some v
  | .racedByKey v => some v
  | .racedByTx v => some v
  | _ => none

/-- The rows that have the key a call looks up are its account's. -/
def OwnDepositKey (c : DepositSettings) (s : DepositDb) (t : DepositThread) : Prop :=
  match t.pc, t.call with
  | .asked, .verify a => ∀ v, a.normalize c = .ok v →
      ∀ d ∈ s.deposits, d.idempotencyKey = v.idempotencyKey → d.account = v.account
  | .racedByKey v, _ =>
      ∀ d ∈ s.deposits, d.idempotencyKey = v.idempotencyKey → d.account = v.account
  | _, _ => True

/-- A row of the id is there, and is the account's. -/
def HasRow (s : DepositDb) (id account : Uuid) : Prop :=
  ∃ r ∈ s.deposits, r.id = id ∧ r.account = account

variable {s s' : DepositDb} {d : DepositRequest} {c : DepositSettings} {t : DepositThread}
  {v : VerifyRequest}

theorem HasRow.eq {id account : Uuid} (h : HasRow s id account) (hd : d ∈ s.deposits)
    (hid : d.id = id) : d.account = account := by
  obtain ⟨r, hr, hrid, hacc⟩ := h
  rw [deposit_eq hd hr (hid.trans hrid.symm)]
  exact hacc

/-! ## What a step writes -/

/-- A rewrite of one row that leaves ids and accounts. -/
structure Rewrites (s s' : DepositDb) (pk : Uuid) : Prop where
  kept : ∀ r ∈ s.deposits, ∃ r' ∈ s'.deposits, r'.id = r.id ∧ r'.account = r.account
  others : ∀ r ∈ s.deposits, r.id ≠ pk → r ∈ s'.deposits

theorem rewrites_of_rows {pk : Uuid} {f : DepositRequest → DepositRequest}
    (hid : ∀ r, (f r).id = r.id) (hacc : ∀ r, (f r).account = r.account)
    (hrows : s'.deposits.rows = s.deposits.rows.map (rewrite (·.id = pk) f)) :
    Rewrites s s' pk := by
  refine ⟨?_, ?_⟩
  · intro r hr
    obtain ⟨hsame, hother⟩ := rewritten_mem (i := pk) (f := f) hr
    by_cases hpk : r.id = pk
    · refine ⟨f r, ?_, hid r, hacc r⟩
      rw [Table.mem_def, hrows]
      exact hsame hpk
    · refine ⟨r, ?_, rfl, rfl⟩
      rw [Table.mem_def, hrows]
      exact hother hpk
  · intro r hr hpk
    rw [Table.mem_def, hrows]
    exact (rewritten_mem (i := pk) (f := f) hr).2 hpk

/-- A step writes no deposit, or a new one, or the one its call holds or is to reverify. -/
theorem deposit_writes {pc : DepositPc} (hm : DepositMove c s t s' pc) :
    s'.deposits = s.deposits
      ∨ (∃ v id, t.pc = .creating v ∧ s.deposits.insert? (pendingRow id v) = some s'.deposits)
      ∨ ∃ pk, Rewrites s s' pk
          ∧ ((∃ d, heldRow t.pc = some d ∧ d.id = pk) ∨ ∃ id, t.call = .reverify id) := by
  cases hm with
  | creates hpc hi => exact .inr (.inl ⟨_, _, hpc, hi⟩)
  | @reopens id d hcall _ _ _ =>
    exact .inr (.inr ⟨id, rewrites_of_rows (f := reopened) (fun _ => rfl) (fun _ => rfl) rfl,
      .inr ⟨id, hcall⟩⟩)
  | @corrects v d locked deposits hpc _ hid _ _ hu =>
    refine .inr (.inr ⟨locked.id, rewrites_of_rows (f := corrected v) (fun _ => rfl) (fun _ => rfl)
      (Table.rows_update? hu), .inl ⟨d, ?_, hid.symm⟩⟩)
    rw [hpc]
    rfl
  | @observes d tr _ hpc _ =>
    refine .inr (.inr ⟨d.id, rewrites_of_rows (f := observed tr) (fun _ => rfl) (fun _ => rfl) rfl,
      .inl ⟨d, ?_, rfl⟩⟩)
    rw [hpc]
    rfl
  | @fails d locked reason raw stored e hpc _ _ _ =>
    refine .inr (.inr ⟨d.id, rewrites_of_rows (f := markedFailed reason stored) (fun _ => rfl)
      (fun _ => rfl) rfl, .inl ⟨d, ?_, rfl⟩⟩)
    rw [hpc]
    rfl
  | @completes d locked tr p b e hpc _ hid _ _ _ =>
    refine .inr (.inr ⟨locked.id, rewrites_of_rows (f := completed p.amount tr) (fun _ => rfl)
      (fun _ => rfl) rfl, .inl ⟨d, ?_, hid.symm⟩⟩)
    rw [hpc]
    rfl
  | _ => exact .inl rfl

/-- No step moves a row to another account. -/
theorem hasRow_step {pc : DepositPc} (hm : DepositMove c s t s' pc) {id account : Uuid}
    (h : HasRow s id account) :
    HasRow s' id account := by
  obtain ⟨r, hr, hid, hacc⟩ := h
  rcases deposit_writes hm with heq | ⟨v, pk, _, hi⟩ | ⟨pk, hw, _⟩
  · exact ⟨r, heq ▸ hr, hid, hacc⟩
  · exact ⟨r, (Table.mem_insert hi).2 (.inl hr), hid, hacc⟩
  · obtain ⟨r', hr', hid', hacc'⟩ := hw.kept r hr
    exact ⟨r', hr', hid'.trans hid, hacc'.trans hacc⟩

/-! ## What a call holds -/

/-- A call of `verify` holds its own arguments, and a row of its own account. -/
structure OwnDeposit (s : DepositDb) (t : DepositThread) : Prop where
  request : ∀ a v, t.call = .verify a → heldRequest t.pc = some v → v.account = a.account
  row : ∀ a d, t.call = .verify a → heldRow t.pc = some d →
    d.account = a.account ∧ HasRow s d.id a.account

theorem OwnDeposit.of_none (hv : heldRequest t.pc = none)
    (hd : heldRow t.pc = none) : OwnDeposit s t := by
  refine ⟨?_, ?_⟩
  · intro a v _ h
    rw [hv] at h
    cases h
  · intro a d _ h
    rw [hd] at h
    cases h

/-- A call that comes to hold a row of the table. -/
theorem OwnDeposit.of_row
    (hv : ∀ a v, t.call = .verify a → heldRequest t.pc = some v → v.account = a.account)
    (hrow : heldRow t.pc = some d) (hacc : ∀ a, t.call = .verify a → d.account = a.account)
    (hmem : ∃ r ∈ s.deposits, r.id = d.id ∧ r.account = d.account) : OwnDeposit s t := by
  refine ⟨hv, ?_⟩
  intro a d' hcall hd'
  rw [hrow] at hd'
  cases hd'
  obtain ⟨r, hr, hid, hra⟩ := hmem
  exact ⟨hacc a hcall, r, hr, hid, hra.trans (hacc a hcall)⟩

theorem normalize_own {a : VerifyArgs} (h : a.normalize c = .ok v) :
    v.account = a.account ∧ v.idempotencyKey = a.idempotencyKey := by
  unfold VerifyArgs.normalize at h
  split at h
  · cases h
  split at h
  · cases h
  obtain ⟨method, _, h⟩ := bind_ok h
  obtain ⟨amount, _, h⟩ := bind_ok h
  obtain ⟨txHash, _, h⟩ := bind_ok h
  cases h
  exact ⟨rfl, rfl⟩

theorem resume_held :
    heldRow (resume d v) = some d ∧ ∀ v', heldRequest (resume d v) = some v' → v' = v := by
  unfold resume
  split
  · exact ⟨rfl, by simp [heldRequest]⟩
  · exact ⟨rfl, by simp [heldRequest]⟩
  · split
    · exact ⟨rfl, by simp [heldRequest]⟩
    · split
      · exact ⟨rfl, by simp [heldRequest]⟩
      · exact ⟨rfl, by simp [heldRequest]⟩

/-- A call that goes on with its arguments alone. -/
theorem OwnDeposit.of_request (hv : heldRequest t.pc = some v) (hd : heldRow t.pc = none)
    (hacc : ∀ a, t.call = .verify a → v.account = a.account) : OwnDeposit s t := by
  refine ⟨?_, ?_⟩
  · intro a v' hcall h
    rw [hv] at h
    cases h
    exact hacc a hcall
  · intro a d _ h
    rw [hd] at h
    cases h

/-- A call that goes on with a copy alone. -/
theorem OwnDeposit.of_held (hv : heldRequest t.pc = none) (hd : heldRow t.pc = some d)
    (h : ∀ a, t.call = .verify a → d.account = a.account ∧ HasRow s d.id a.account) :
    OwnDeposit s t := by
  refine ⟨?_, ?_⟩
  · intro a v _ hv'
    rw [hv] at hv'
    cases hv'
  · intro a d' hcall hd'
    rw [hd] at hd'
    cases hd'
    exact h a hcall

/-- Nothing is asked of a call that is not of `verify`. -/
theorem OwnDeposit.of_other (h : ∀ a, t.call ≠ .verify a) :
    OwnDeposit s t := ⟨fun a _ hcall => absurd hcall (h a), fun a _ hcall => absurd hcall (h a)⟩

/-- **A step leaves its call on rows of its own account.** -/
theorem ownDeposit_step {t' : DepositThread} (h : OwnDeposit s t) (hkey : OwnDepositKey c s t)
    (hm : DepositMove c s t s' t'.pc) (hcall : t'.call = t.call) : OwnDeposit s' t' := by
  obtain ⟨call, pc⟩ := t
  obtain ⟨call', pc'⟩ := t'
  obtain rfl : call' = call := hcall
  -- the account of the copy and of the arguments the call had
  have hreq : ∀ v, heldRequest pc = some v → ∀ a, call' = .verify a → v.account = a.account :=
    fun v hv a hc => h.request a v hc hv
  have hrow : ∀ d, heldRow pc = some d → ∀ a, call' = .verify a →
      d.account = a.account ∧ HasRow s d.id a.account := fun d hd a hc => h.row a d hc hd
  have hmove := fun {id account : Uuid} (hr : HasRow s id account) => hasRow_step hm hr
  dsimp only at hm hmove
  cases hm with
  | raises => exact .of_none rfl rfl
  | posts => exact .of_none rfl rfl
  | @finds a v d hc hpc hv hd hk =>
    dsimp only at hc hpc
    subst hc hpc
    obtain ⟨hva, _⟩ := normalize_own hv
    obtain ⟨hheld, hargs⟩ := resume_held (d := d) (v := v)
    refine .of_row (d := d) ?_ hheld ?_ ⟨d, hd, rfl, rfl⟩
    · intro a' v' hc hv'
      cases hc
      rw [hargs v' hv', hva]
    · intro a' hc
      cases hc
      exact (hkey v hv d hd hk).trans hva
  | @misses a v hc hv =>
    dsimp only at hc
    subst hc
    refine .of_request (v := v) rfl rfl ?_
    intro a' hc
    cases hc
    exact (normalize_own hv).1
  | @findsFailed v d _ hpc hd hacc hto =>
    dsimp only at hpc
    subst hpc
    have hva := hreq v rfl
    rcases hto with rfl | rfl
    · refine .of_held rfl rfl fun a hc => ?_
      have hacc' := hacc.trans (hva a hc)
      exact ⟨hacc', d, hd, rfl, hacc'⟩
    · refine .of_row (d := d) ?_ rfl (fun a hc => hacc.trans (hva a hc)) ⟨d, hd, rfl, rfl⟩
      intro a v' hc hv'
      cases hv'
      exact hva a hc
  | seeks hpc =>
    dsimp only at hpc
    subst hpc
    exact .of_request rfl rfl (hreq _ rfl)
  | clears hpc =>
    dsimp only at hpc
    subst hpc
    exact .of_request rfl rfl (hreq _ rfl)
  | @creates v id deposits hpc hi =>
    dsimp only at hpc
    subst hpc
    refine .of_held rfl rfl fun a hc => ?_
    exact ⟨hreq v rfl a hc, _, (Table.mem_insert hi).2 (.inr rfl), rfl, hreq v rfl a hc⟩
  | races hpc =>
    dsimp only at hpc
    subst hpc
    exact .of_request rfl rfl (hreq _ rfl)
  | @findsRaced v d _ hpc hd hk hto =>
    dsimp only at hpc
    subst hpc
    have hacc : ∀ a, call' = .verify a → d.account = a.account :=
      fun a hc => (hkey d hd hk).trans (hreq v rfl a hc)
    have hheld : ∀ a, call' = .verify a → d.account = a.account ∧ HasRow s d.id a.account :=
      fun a hc => ⟨hacc a hc, d, hd, rfl, hacc a hc⟩
    rcases hto with rfl | rfl
    · exact .of_held rfl rfl hheld
    · exact .of_held rfl rfl hheld
  | missesRaced hpc =>
    dsimp only at hpc
    subst hpc
    exact .of_request rfl rfl (hreq _ rfl)
  | settled hc _ _ hto =>
    dsimp only at hc
    subst hc
    exact .of_other (by simp)
  | reopens hc =>
    dsimp only at hc
    subst hc
    exact .of_other (by simp)
  | @recovered v d locked hpc hd hid =>
    dsimp only at hpc
    subst hpc
    refine .of_held rfl rfl fun a hc => ?_
    have hacc := (hrow d rfl a hc).2.eq hd hid
    exact ⟨hacc, locked, hd, rfl, hacc⟩
  | @corrects v d locked deposits hpc hd hid hs hacc hu =>
    dsimp only at hpc
    subst hpc
    refine .of_held rfl rfl fun a hc => ?_
    have hacc' := hacc.trans (hreq v rfl a hc)
    exact ⟨hacc', hmove ⟨locked, hd, rfl, hacc'⟩⟩
  | @fetches d _ hpc hto =>
    dsimp only at hpc
    subst hpc
    rcases hto with ⟨tr, rfl⟩ | ⟨_, _, _, rfl⟩
    · exact .of_held rfl rfl (hrow d rfl)
    · exact .of_held rfl rfl (hrow d rfl)
  | @observes d tr _ hpc hto =>
    dsimp only at hpc
    subst hpc
    have hheld : ∀ a, call' = .verify a → (observed tr d).account = a.account
        ∧ HasRow _ (observed tr d).id a.account :=
      fun a hc => ⟨(hrow d rfl a hc).1, hmove (hrow d rfl a hc).2⟩
    rcases hto with ⟨_, rfl⟩ | ⟨_, _, _, rfl⟩ | ⟨rfl, _⟩
    · exact .of_none rfl rfl
    · exact .of_held rfl rfl hheld
    · exact .of_held rfl rfl hheld
  | spares => exact .of_none rfl rfl
  | fails => exact .of_none rfl rfl
  | @yields d locked tr hpc hd hid hs =>
    dsimp only at hpc
    subst hpc
    refine .of_held rfl rfl fun a hc => ?_
    have hacc := (hrow d rfl a hc).2.eq hd hid
    exact ⟨hacc, locked, hd, rfl, hacc⟩
  | @completes d locked tr p b e hpc hd hid _ _ _ =>
    dsimp only at hpc
    subst hpc
    refine .of_held rfl rfl fun a hc => ?_
    have hacc := (hrow d rfl a hc).2.eq hd hid
    exact ⟨hacc, hmove ⟨locked, hd, rfl, hacc⟩⟩

/-! ## Every run -/

theorem ownDepositInvariant (c : DepositSettings) :
    Invariant (depositProgram c) FreshDeposits (fun s t _ => OwnDepositKey c s t) (fun _ => True)
      OwnDeposit (fun _ _ => True) where
  init := fun _ => trivial
  start := fun _ _ => .of_none rfl rfl
  apart_start := fun _ _ => trivial
  symm := fun _ => trivial
  step := by
    intro s t x s' t' _ h hkey hs
    obtain ⟨hm, hcall⟩ := depositStep_move hs
    exact ⟨trivial, ownDeposit_step h hkey hm hcall⟩
  frame := by
    intro s t x s' t' u _ _ _ hs hu _
    obtain ⟨hm, _⟩ := depositStep_move hs
    refine ⟨⟨hu.request, ?_⟩, trivial⟩
    intro a d hc hd
    obtain ⟨hacc, hrow⟩ := hu.row a d hc hd
    exact ⟨hacc, hasRow_step hm hrow⟩

/-- No call of `verify` is at work on, or returns, or writes a row of another account. -/
structure DepositsIsolated (c : DepositSettings) (g : Config DepositDb DepositThread) : Prop where
  held : ∀ p t a d, g.threads p = some t → t.call = .verify a → heldRow t.pc = some d →
    d.account = a.account
  untouched : ∀ p t a x s' t', g.threads p = some t → t.call = .verify a →
    depositStep c g.store t x = some (s', t') → ∀ r ∈ g.store.deposits, r.account ≠ a.account →
      r ∈ s'.deposits

/-- Where every look-up by key finds rows of the caller's account, so does every call. -/
theorem depositsIsolated_of_ownKey {g : Config DepositDb DepositThread}
    (h : (depositProgram c).ReachWhere FreshDeposits (fun s t _ => OwnDepositKey c s t) g) :
    DepositsIsolated c g := by
  have hold := (ownDepositInvariant c).reach h
  refine ⟨?_, ?_⟩
  · intro p t a d ht hc hd
    exact ((hold.thread p t ht).row a d hc hd).1
  · intro p t a x s' t' ht hc hs r hr hne
    obtain ⟨hm, _⟩ := depositStep_move hs
    rcases deposit_writes hm with heq | ⟨v, pk, _, hi⟩ | ⟨pk, hw, ⟨d, hd, rfl⟩ | ⟨id, hre⟩⟩
    · rwa [heq]
    · exact (Table.mem_insert hi).2 (.inl hr)
    · refine hw.others r hr fun hid => hne ?_
      exact ((hold.thread p t ht).row a d hc hd).2.eq hr hid
    · rw [hc] at hre
      cases hre

end Roamkit.Billing.Proof
