import Mathlib.Logic.Relation
import Roamkit.Lib.Fields
import Roamkit.Proof.Credit
import Roamkit.Wallet.Program

/-!
# The life of an observation

A row is found or made once for its identity, its status only moves on, and what
the ledger holds under its key says the same as its status. All of it rests on
the writes being to a row that is locked, or to one nobody has written since it
was read: `Current` is the condition that the last resort of `ingest` finds it so.
-/

namespace Roamkit.Wallet.Proof

open Lib Billing Billing.Proof Wallet WalletDb

/-! ## Keys -/

/-- A key of an observation is read from its end: the index, the hash, and what is left. -/
theorem observationKey_inj {o p : DepositObservation}
    (hlen : o.txHash.toList.length = p.txHash.toList.length)
    (h : observationKey o = observationKey p) :
    o.chain = p.chain ∧ o.txHash = p.txHash ∧ o.logIndex = p.logIndex := by
  have digits : ∀ n : Nat, ':' ∉ (toString n).toList := by
    intro n hmem
    have hdigit := isDigit_of_mem_toString hmem
    revert hdigit
    decide
  have hlist := congrArg String.toList h
  simp only [observationKey, String.toList_append] at hlist
  have hcolon : ":".toList = [':'] := rfl
  rw [hcolon, List.append_assoc _ [':'] (toString o.logIndex).toList,
    List.append_assoc _ [':'] (toString p.logIndex).toList] at hlist
  obtain ⟨hfront, hindex⟩ := append_cons_inj (digits _) (digits _) hlist
  obtain ⟨hchain, hhash⟩ := List.append_inj' hfront hlen
  have hchain := List.append_cancel_left (List.append_cancel_right hchain)
  exact ⟨String.toList_injective hchain, String.toList_injective hhash,
    toString_nat_inj (String.toList_injective hindex)⟩

theorem observationKey_prefix (o : DepositObservation) :
    ∃ rest, observationKey o = "wallet-obs:" ++ rest := by
  refine ⟨o.chain ++ ":" ++ o.txHash ++ ":" ++ toString o.logIndex, ?_⟩
  simp only [observationKey, String.append_assoc]

/-! ## How a row moves -/

/-- One step of a status. -/
inductive StatusEdge : ObservationStatus → ObservationStatus → Prop
  | pending : StatusEdge .observed .pendingConfirmation
  | confirmed : StatusEdge .pendingConfirmation .confirmed
  | rejected : StatusEdge .pendingConfirmation .rejected
  | expired : StatusEdge .pendingConfirmation .expired
  | started : StatusEdge .confirmed .conversionStarted
  | credited : StatusEdge .conversionStarted .credited

/-- Any number of steps. -/
def StatusMoves : ObservationStatus → ObservationStatus → Prop := Relation.ReflTransGen StatusEdge

/-- The statuses that are never left. -/
def IsFinal (status : ObservationStatus) : Prop :=
  status = .credited ∨ status = .rejected ∨ status = .expired

theorem StatusMoves.of_final {status status' : ObservationStatus} (h : StatusMoves status status')
    (hf : IsFinal status) : status' = status := by
  induction h with
  | refl => rfl
  | tail _ hedge ih =>
    subst ih
    rcases hf with rfl | rfl | rfl <;> cases hedge

/-- The columns of an observation that are never written again. -/
structure SameRow (o o' : DepositObservation) : Prop where
  id : o'.id = o.id
  walletAddress : o'.walletAddress = o.walletAddress
  chain : o'.chain = o.chain
  txHash : o'.txHash = o.txHash
  logIndex : o'.logIndex = o.logIndex
  amount : o'.amount = o.amount
  tokenContract : o'.tokenContract = o.tokenContract
  shadowOnly : o'.shadowOnly = o.shadowOnly

theorem SameRow.refl (o : DepositObservation) : SameRow o o :=
  ⟨rfl, rfl, rfl, rfl, rfl, rfl, rfl, rfl⟩

theorem SameRow.trans {o o' o'' : DepositObservation} (h : SameRow o o') (h' : SameRow o' o'') :
    SameRow o o'' :=
  ⟨h'.id.trans h.id, h'.walletAddress.trans h.walletAddress, h'.chain.trans h.chain,
    h'.txHash.trans h.txHash, h'.logIndex.trans h.logIndex, h'.amount.trans h.amount,
    h'.tokenContract.trans h.tokenContract, h'.shadowOnly.trans h.shadowOnly⟩

theorem SameRow.symm {o o' : DepositObservation} (h : SameRow o o') : SameRow o' o :=
  ⟨h.id.symm, h.walletAddress.symm, h.chain.symm, h.txHash.symm, h.logIndex.symm, h.amount.symm,
    h.tokenContract.symm, h.shadowOnly.symm⟩

theorem SameRow.key {o o' : DepositObservation} (h : SameRow o o') :
    observationKey o' = observationKey o := by
  rw [observationKey, observationKey, h.chain, h.txHash, h.logIndex]

/-- The transfer is of the accepted token, and has the confirmations it needs. -/
structure Accepted (c : WalletSettings) (o : DepositObservation) : Prop where
  chain : o.chain = polygon
  token : normalizeEvmAddress o.tokenContract = normalizeEvmAddress c.polygonUsdtContract
  confirmations : c.polygonMinConfirmations ≤ o.confirmations

/-- What a status that is not terminal may become. -/
def Judged (c : WalletSettings) (o : DepositObservation) : Prop :=
  o.status = .pendingConfirmation ∨ o.status = .rejected ∨ o.status = .expired
    ∨ (o.status = .confirmed ∧ Accepted c o)

/-- A row at two times, with no conversion in between. -/
inductive RowMove (c : WalletSettings) (o o' : DepositObservation) : Prop
  | stays : SameRow o o' → o'.status = o.status → o'.confirmations = o.confirmations →
      RowMove c o o'
  | moves : SameRow o o' → o.status = .pendingConfirmation → o.confirmations ≤ o'.confirmations →
      Judged c o' → RowMove c o o'

section Policy

variable {c : WalletSettings} {o o' : DepositObservation}

/-- The policy confirms what is accepted. -/
theorem evaluate_confirmed (h : evaluate c o = .ok .confirmed) : Accepted c o := by
  obtain ⟨accepted, htoken, h⟩ := bind_ok h
  split at h
  · cases h
  rename_i hsame
  obtain ⟨required, hrequired, h⟩ := bind_ok h
  split at h
  · cases h
  rename_i hcount
  unfold WalletSettings.acceptedTokenContract at htoken
  unfold WalletSettings.minConfirmations at hrequired
  split at htoken
  · rename_i hchain
    rw [if_pos hchain] at hrequired
    cases htoken
    cases hrequired
    exact ⟨hchain, not_not.1 hsame, by omega⟩
  · cases htoken

theorem apply_same (o : DepositObservation) (outcome : ConfirmationOutcome) :
    SameRow o (outcome.apply o) ∧ (outcome.apply o).confirmations = o.confirmations := by
  cases outcome <;> exact ⟨⟨rfl, rfl, rfl, rfl, rfl, rfl, rfl, rfl⟩, rfl⟩

/-- **What the policy makes of a row.** -/
theorem applyPolicy_cases (h : applyPolicy c o = .ok o') :
    (o.status.isTerminal = true ∧ o' = o)
      ∨ (o.status.isTerminal = false ∧ SameRow o o' ∧ o'.confirmations = o.confirmations
        ∧ Judged c o') := by
  unfold applyPolicy at h
  split at h
  · rename_i hterminal
    cases h
    exact .inl ⟨hterminal, rfl⟩
  · rename_i hterminal
    cases hv : evaluate c o with
    | error e =>
      rw [hv] at h
      cases h
    | ok outcome =>
      rw [hv] at h
      obtain rfl : outcome.apply o = o' := Except.ok.inj h
      obtain ⟨hsame, hcount⟩ := apply_same o outcome
      refine .inr ⟨Bool.eq_false_iff.2 hterminal, hsame, hcount, ?_⟩
      cases outcome with
      | pending reason => exact .inl rfl
      | rejected reason => exact .inr (.inl rfl)
      | confirmed =>
        have haccepted := evaluate_confirmed hv
        exact .inr (.inr (.inr ⟨rfl, haccepted.chain, haccepted.token, haccepted.confirmations⟩))

theorem raiseConfirmations_cases {n : Int} (h : raiseConfirmations o n = .ok o') :
    SameRow o o' ∧ o'.status = o.status ∧ o.confirmations ≤ o'.confirmations := by
  unfold raiseConfirmations at h
  split at h
  · cases h
    exact ⟨.refl o, rfl, Nat.le_refl _⟩
  · rename_i hmore
    split at h
    · cases h
    cases h
    refine ⟨⟨rfl, rfl, rfl, rfl, rfl, rfl, rfl, rfl⟩, rfl, ?_⟩
    dsimp only
    omega

theorem pending_of_open (hopen : o.status.isTerminal = false) (hs : o.status ≠ .observed) :
    o.status = .pendingConfirmation := by
  cases hstatus : o.status with
  | observed => exact absurd hstatus hs
  | pendingConfirmation => rfl
  | _ =>
    rw [hstatus] at hopen
    cases hopen

theorem markPending_eq (hs : o.status ≠ .observed) : markPending o = o := if_neg hs

/-- The policy moves a row on. -/
theorem applyPolicy_move (hs : o.status ≠ .observed) (h : applyPolicy c o = .ok o') :
    RowMove c o o' := by
  rcases applyPolicy_cases h with ⟨_, rfl⟩ | ⟨hopen, hsame, hcount, hjudged⟩
  · exact .stays (.refl _) rfl rfl
  · exact .moves hsame (pending_of_open hopen hs) (Nat.le_of_eq hcount.symm) hjudged

/-- So does `_refresh_locked`. -/
theorem refresh_move {n : Int} (hs : o.status ≠ .observed) (h : refresh c o n = .ok o') :
    RowMove c o o' := by
  unfold refresh at h
  split at h
  · cases h
    exact .stays (.refl _) rfl rfl
  · rename_i hopen
    obtain ⟨o₁, hraise, hpolicy⟩ := bind_ok h
    obtain ⟨hsame, hstatus, hmore⟩ := raiseConfirmations_cases hraise
    have hs₁ : o₁.status ≠ .observed := by rw [hstatus]; exact hs
    rw [markPending_eq hs₁] at hpolicy
    have hpending := pending_of_open (Bool.eq_false_iff.2 hopen) hs
    rcases applyPolicy_cases hpolicy with ⟨hterminal, _⟩ | ⟨_, hsame', hcount, hjudged⟩
    · rw [hstatus, hpending] at hterminal
      cases hterminal
    · exact .moves (hsame.trans hsame') hpending (hcount ▸ hmore) hjudged

end Policy

/-! ## The rows and the ledger -/

/-- An entry is the credit of an observation: of its amount, on the account of its address. -/
structure Credits (s : WalletDb) (o : DepositObservation) (e : CreditLedgerEntry) : Prop where
  key : e.idempotencyKey = observationKey o
  delta : e.delta = o.amount.micros
  account : ∃ a ∈ s.addresses, a.id = o.walletAddress ∧ e.account = a.account

structure WalletInv (c : WalletSettings) (s : WalletDb) : Prop where
  books : BooksInv s.books
  hash : ∀ o ∈ s.observations, o.txHash.toList.length = 66
  /-- No transaction leaves a row half way. -/
  settled : ∀ o ∈ s.observations, o.status ≠ .observed ∧ o.status ≠ .conversionStarted
  accepted : ∀ o ∈ s.observations, o.status = .confirmed ∨ o.status = .credited → Accepted c o
  shadow : ∀ o ∈ s.observations, o.shadowOnly = true → o.status ≠ .credited
  entry : ∀ o ∈ s.observations, o.status = .credited → ∃ e ∈ s.books.entries, Credits s o e
  origin : ∀ e ∈ s.books.entries, ∀ rest, e.idempotencyKey = "wallet-obs:" ++ rest →
    ∃ o ∈ s.observations, o.status = .credited ∧ e.idempotencyKey = observationKey o

/-- A row at a later time. -/
structure Later (o o' : DepositObservation) : Prop where
  same : SameRow o o'
  moves : StatusMoves o.status o'.status
  confirmations : o.confirmations ≤ o'.confirmations

theorem Later.refl (o : DepositObservation) : Later o o := ⟨.refl o, .refl, Nat.le_refl _⟩

theorem Later.trans {o o' o'' : DepositObservation} (h : Later o o') (h' : Later o' o'') :
    Later o o'' :=
  ⟨h.same.trans h'.same, h.moves.trans h'.moves, h.confirmations.trans h'.confirmations⟩

/-- Every row is there later, and every address. -/
structure Kept (s s' : WalletDb) : Prop where
  observations : ∀ o ∈ s.observations, ∃ o' ∈ s'.observations, Later o o'
  addresses : ∀ a ∈ s.addresses, ∃ a' ∈ s'.addresses, a'.id = a.id ∧ a'.account = a.account

theorem Kept.refl (s : WalletDb) : Kept s s :=
  ⟨fun o ho => ⟨o, ho, .refl o⟩, fun a ha => ⟨a, ha, rfl, rfl⟩⟩

theorem Kept.trans {s s' s'' : WalletDb} (h : Kept s s') (h' : Kept s' s'') : Kept s s'' := by
  refine ⟨?_, ?_⟩
  · intro o ho
    obtain ⟨o', ho', hlater⟩ := h.observations o ho
    obtain ⟨o'', ho'', hlater'⟩ := h'.observations o' ho'
    exact ⟨o'', ho'', hlater.trans hlater'⟩
  · intro a ha
    obtain ⟨a', ha', hid, hacc⟩ := h.addresses a ha
    obtain ⟨a'', ha'', hid', hacc'⟩ := h'.addresses a' ha'
    exact ⟨a'', ha'', hid'.trans hid, hacc'.trans hacc⟩

theorem Credits.kept {s s' : WalletDb} {o o' : DepositObservation} {e : CreditLedgerEntry}
    (h : Credits s o e) (hk : Kept s s') (ho : SameRow o o') : Credits s' o' e := by
  obtain ⟨a, ha, hid, hacc⟩ := h.account
  obtain ⟨a', ha', hid', hacc'⟩ := hk.addresses a ha
  refine ⟨?_, ?_, a', ha', ?_, ?_⟩
  · rw [h.key, ho.key]
  · rw [h.delta, ho.amount]
  · rw [hid', hid, ho.walletAddress]
  · rw [hacc, hacc']

theorem RowMove.later {c : WalletSettings} {o o' : DepositObservation} (h : RowMove c o o') :
    Later o o' := by
  cases h with
  | stays hsame hstatus hcount =>
    refine ⟨hsame, ?_, Nat.le_of_eq hcount.symm⟩
    rw [hstatus]
    exact .refl
  | moves hsame hpending hmore hjudged =>
    refine ⟨hsame, ?_, hmore⟩
    rw [hpending]
    rcases hjudged with h | h | h | ⟨h, _⟩ <;> rw [h]
    · exact .refl
    · exact .single .rejected
    · exact .single .expired
    · exact .single .confirmed

/-- What a step leaves: the invariant, and every row at a later time. -/
structure WalletEffect (c : WalletSettings) (s s' : WalletDb) : Prop where
  inv : WalletInv c s'
  kept : Kept s s'

/-! ## Rewriting a row -/

section Rewriting

variable {c : WalletSettings} {s s' : WalletDb}

/-- Two rows of one id are one row. -/
theorem observation_eq {o p : DepositObservation} (ho : o ∈ s.observations)
    (hp : p ∈ s.observations) (h : o.id = p.id) : o = p := Table.eq_of_clash ho hp (.inl h)

/-- Two rows of one key are one row. -/
theorem WalletInv.eq_of_key {o p : DepositObservation} (h : WalletInv c s) (ho : o ∈ s.observations)
    (hp : p ∈ s.observations) (hkey : observationKey o = observationKey p) : o = p := by
  obtain ⟨hchain, hhash, hindex⟩ :=
    observationKey_inj ((h.hash o ho).trans (h.hash p hp).symm) hkey
  exact Table.eq_of_clash ho hp (.inr ⟨hchain, hhash, hindex⟩)

/-- What a move leaves settled, accepted and uncredited. -/
theorem WalletInv.move {o o' : DepositObservation} (h : WalletInv c s) (ho : o ∈ s.observations)
    (hm : RowMove c o o') :
    (o'.status ≠ .observed ∧ o'.status ≠ .conversionStarted)
      ∧ (o'.status = .confirmed ∨ o'.status = .credited → Accepted c o')
      ∧ (o'.status = .credited ↔ o.status = .credited) := by
  cases hm with
  | stays hsame hstatus hcount =>
    rw [hstatus]
    refine ⟨h.settled o ho, fun hs => ?_, Iff.rfl⟩
    have haccepted := h.accepted o ho hs
    exact ⟨hsame.chain.trans haccepted.chain, by rw [hsame.tokenContract]; exact haccepted.token,
      by rw [hcount]; exact haccepted.confirmations⟩
  | moves hsame hpending hmore hjudged =>
    rw [hpending]
    rcases hjudged with hs | hs | hs | ⟨hs, haccepted⟩ <;> rw [hs]
    · simp
    · simp
    · simp
    · simp [haccepted]

/-- **A row that moves keeps the rows and the ledger together.** -/
theorem WalletInv.rewrite {id : Uuid} {f : DepositObservation → DepositObservation}
    {hf : Table.Keeps f} (h : WalletInv c s)
    (hmove : ∀ o ∈ s.observations, o.id = id → RowMove c o (f o)) :
    WalletEffect c s { s with observations := s.observations.update (·.id = id) f hf } := by
  have hmem := @Table.mem_update _ _ s.observations (·.id = id) f hf
  have hrewrite : ∀ o ∈ s.observations, RowMove c o (Lib.rewrite (·.id = id) f o) := by
    intro o ho
    by_cases hid : o.id = id
    · rw [rewrite_pos f (by simpa using hid)]
      exact hmove o ho hid
    · rw [rewrite_neg f (by simpa using hid)]
      exact .stays (.refl o) rfl rfl
  have hkept : Kept s { s with observations := s.observations.update (·.id = id) f hf } :=
    ⟨fun o ho => ⟨_, hmem.2 ⟨o, ho, rfl⟩, (hrewrite o ho).later⟩, fun a ha => ⟨a, ha, rfl, rfl⟩⟩
  refine ⟨⟨h.books, ?_, ?_, ?_, ?_, ?_, ?_⟩, hkept⟩
  · intro o' ho'
    obtain ⟨o, ho, rfl⟩ := hmem.1 ho'
    rw [(hrewrite o ho).later.same.txHash]
    exact h.hash o ho
  · intro o' ho'
    obtain ⟨o, ho, rfl⟩ := hmem.1 ho'
    exact (h.move ho (hrewrite o ho)).1
  · intro o' ho'
    obtain ⟨o, ho, rfl⟩ := hmem.1 ho'
    exact (h.move ho (hrewrite o ho)).2.1
  · intro o' ho' hshadow hcredited
    obtain ⟨o, ho, rfl⟩ := hmem.1 ho'
    rw [(hrewrite o ho).later.same.shadowOnly] at hshadow
    exact h.shadow o ho hshadow ((h.move ho (hrewrite o ho)).2.2.1 hcredited)
  · intro o' ho' hcredited
    obtain ⟨o, ho, rfl⟩ := hmem.1 ho'
    obtain ⟨e, he, hcredits⟩ := h.entry o ho ((h.move ho (hrewrite o ho)).2.2.1 hcredited)
    exact ⟨e, he, hcredits.kept hkept (hrewrite o ho).later.same⟩
  · intro e he rest hkey
    obtain ⟨o, ho, hcredited, hokey⟩ := h.origin e he rest hkey
    refine ⟨_, hmem.2 ⟨o, ho, rfl⟩, (h.move ho (hrewrite o ho)).2.2.2 hcredited, ?_⟩
    rw [(hrewrite o ho).later.same.key]
    exact hokey

/-- A row written with the status, the confirmations and the reason it moves to. -/
theorem RowMove.written {o o' : DepositObservation} (h : RowMove c o o') :
    RowMove c o (written o' o) := by
  have hsame : SameRow o (WalletDb.written o' o) := ⟨rfl, rfl, rfl, rfl, rfl, rfl, rfl, rfl⟩
  cases h with
  | stays _ hstatus hcount => exact .stays hsame hstatus hcount
  | moves hold hpending hmore hjudged =>
    refine .moves hsame hpending hmore ?_
    rcases hjudged with hs | hs | hs | ⟨hs, haccepted⟩
    · exact .inl hs
    · exact .inr (.inl hs)
    · exact .inr (.inr (.inl hs))
    · refine .inr (.inr (.inr ⟨hs, ?_⟩))
      exact ⟨hold.chain.symm.trans haccepted.chain,
        (congrArg normalizeEvmAddress hold.tokenContract).symm.trans haccepted.token,
        haccepted.confirmations⟩

/-- A locked row is saved. -/
theorem WalletInv.save {o o' : DepositObservation} (h : WalletInv c s) (ho : o ∈ s.observations)
    (hm : RowMove c o o') : WalletEffect c s (s.saveObservation o') := by
  refine h.rewrite ?_
  intro r hr hid
  obtain rfl := observation_eq hr ho (hid.trans hm.later.same.id)
  exact hm.written

end Rewriting

/-! ## The other writes -/

section Writes

variable {c : WalletSettings} {s s' : WalletDb}

/-- The rows after one is saved. -/
theorem mem_saved {o r : DepositObservation} :
    r ∈ (s.saveObservation o).observations
      ↔ (∃ q ∈ s.observations, q.id = o.id ∧ r = written o q)
        ∨ (r ∈ s.observations ∧ r.id ≠ o.id) := by
  have hmem := @Table.mem_update _ _ s.observations (·.id = o.id) (written o) (fun _ _ h => h) r
  refine hmem.trans ⟨?_, ?_⟩
  · rintro ⟨q, hq, rfl⟩
    by_cases hid : q.id = o.id
    · rw [rewrite_pos _ (by simpa using hid)]
      exact .inl ⟨q, hq, hid, rfl⟩
    · rw [rewrite_neg _ (by simpa using hid)]
      exact .inr ⟨hq, hid⟩
  · rintro (⟨q, hq, hid, rfl⟩ | ⟨hr, hid⟩)
    · exact ⟨q, hq, rewrite_pos _ (by simpa using hid)⟩
    · exact ⟨r, hr, rewrite_neg _ (by simpa using hid)⟩

/-- A new row is judged before anybody sees it. -/
theorem WalletInv.insert {row judged : DepositObservation} {observations : Table DepositObservation}
    (h : WalletInv c s) (hi : s.observations.insert? row = some observations)
    (hhash : row.txHash.toList.length = 66) (hobserved : row.status = .observed)
    (hp : applyPolicy c (markPending row) = .ok judged) :
    WalletEffect c s ({ s with observations }.saveObservation judged) := by
  have hmarked : markPending row = { row with status := .pendingConfirmation } := if_pos hobserved
  rw [hmarked] at hp
  rcases applyPolicy_cases hp with ⟨hterminal, _⟩ | ⟨_, hsame, hcount, hjudged⟩
  · cases hterminal
  have hid : judged.id = row.id := hsame.id
  -- the rows are the old ones, and the new one as it was judged
  have hmem : ∀ r, r ∈ ({ s with observations }.saveObservation judged).observations ↔
      r ∈ s.observations ∨ r = written judged row := by
    intro r
    rw [mem_saved, hid]
    constructor
    · rintro (⟨q, hq, hqid, rfl⟩ | ⟨hr, hrid⟩)
      · rcases (Table.mem_insert hi).1 hq with hold | rfl
        · exact absurd (.inl hqid) (Table.apart_of_insert hi hold)
        · exact .inr rfl
      · rcases (Table.mem_insert hi).1 hr with hold | rfl
        · exact .inl hold
        · exact absurd rfl hrid
    · rintro (hr | rfl)
      · exact .inr ⟨(Table.mem_insert hi).2 (.inl hr),
          fun h => Table.apart_of_insert hi hr (.inl h)⟩
      · exact .inl ⟨row, (Table.mem_insert hi).2 (.inr rfl), rfl, rfl⟩
  have hkept : Kept s ({ s with observations }.saveObservation judged) :=
    ⟨fun o ho => ⟨o, (hmem o).2 (.inl ho), .refl o⟩, fun a ha => ⟨a, ha, rfl, rfl⟩⟩
  have hstatus : (written judged row).status = judged.status := rfl
  have huncredited : judged.status ≠ .credited := by
    rcases hjudged with hs | hs | hs | ⟨hs, _⟩ <;> rw [hs] <;> decide
  refine ⟨⟨h.books, ?_, ?_, ?_, ?_, ?_, ?_⟩, hkept⟩
  · intro r hr
    rcases (hmem r).1 hr with hr | rfl
    · exact h.hash r hr
    · exact hhash
  · intro r hr
    rcases (hmem r).1 hr with hr | rfl
    · exact h.settled r hr
    · rw [hstatus]
      rcases hjudged with hs | hs | hs | ⟨hs, _⟩ <;> rw [hs] <;> decide
  · intro r hr hs
    rcases (hmem r).1 hr with hr | rfl
    · exact h.accepted r hr hs
    · rw [hstatus] at hs
      rcases hjudged with hj | hj | hj | ⟨_, haccepted⟩
      · rw [hj] at hs
        simp at hs
      · rw [hj] at hs
        simp at hs
      · rw [hj] at hs
        simp at hs
      · exact ⟨hsame.chain.symm.trans haccepted.chain,
          (congrArg normalizeEvmAddress hsame.tokenContract).symm.trans haccepted.token,
          haccepted.confirmations⟩
  · intro r hr hshadow
    rcases (hmem r).1 hr with hr | rfl
    · exact h.shadow r hr hshadow
    · exact huncredited
  · intro r hr hs
    rcases (hmem r).1 hr with hr | rfl
    · obtain ⟨e, he, hcredits⟩ := h.entry r hr hs
      exact ⟨e, he, hcredits.kept hkept (.refl r)⟩
    · exact absurd hs huncredited
  · intro e he rest hkey
    obtain ⟨o, ho, hrest⟩ := h.origin e he rest hkey
    exact ⟨o, (hmem o).2 (.inl ho), hrest⟩

/-- Another service's posting is not under an observation's key. -/
theorem WalletInv.post {p : LedgerPosting} {b : Books} {e : CreditLedgerEntry} (h : WalletInv c s)
    (ha : s.books.apply p.posting = .ok (b, e)) : WalletEffect c s { s with books := b } := by
  have hkept : Kept s { s with books := b } :=
    ⟨fun o ho => ⟨o, ho, .refl o⟩, fun a ha => ⟨a, ha, rfl, rfl⟩⟩
  refine ⟨⟨h.books.apply ha, h.hash, h.settled, h.accepted, h.shadow, ?_, ?_⟩, hkept⟩
  · intro o ho hcredited
    obtain ⟨f, hf, hcredits⟩ := h.entry o ho hcredited
    refine ⟨f, ?_, hcredits.kept hkept (.refl o)⟩
    rcases apply_cases ha with ⟨rfl, _, _⟩ | ⟨row, _, _, rfl, _, _, hpost⟩
    · exact hf
    · exact (mem_entries_post hpost).2 (.inl hf)
  · intro f hf rest hkey
    rcases apply_cases ha with ⟨rfl, _, _⟩ | ⟨row, _, _, rfl, _, _, hpost⟩
    · exact h.origin f hf rest hkey
    · rcases (mem_entries_post hpost).1 hf with hf | rfl
      · exact h.origin f hf rest hkey
      · exact absurd hkey (p.notObservation rest)

/-- An address is written, or made. -/
theorem WalletInv.address {addresses : Table WalletAddress} (h : WalletInv c s)
    (hk : ∀ a ∈ s.addresses, ∃ a' ∈ addresses, a'.id = a.id ∧ a'.account = a.account) :
    WalletEffect c s { s with addresses } := by
  have hkept : Kept s { s with addresses } := ⟨fun o ho => ⟨o, ho, .refl o⟩, hk⟩
  refine ⟨⟨h.books, h.hash, h.settled, h.accepted, h.shadow, ?_, h.origin⟩, hkept⟩
  intro o ho hcredited
  obtain ⟨e, he, hcredits⟩ := h.entry o ho hcredited
  exact ⟨e, he, hcredits.kept hkept (.refl o)⟩

/-- **A confirmed observation is credited once**, and its row says so. -/
theorem WalletInv.credit {o : DepositObservation} {a : WalletAddress} {p : Posting} {b : Books}
    {e : CreditLedgerEntry} (h : WalletInv c s) (ho : o ∈ s.observations)
    (hs : o.status = .confirmed) (hshadow : o.shadowOnly = false) (ha : a ∈ s.addresses)
    (hid : a.id = o.walletAddress)
    (hp : preparePosting a.account (.decimal (.finite (Dec.ofUnits 6 o.amount.micros)))
      (.member .deposit) o.id.str (observationKey o) true = .ok p)
    (happly : s.books.apply p = .ok (b, e)) :
    WalletEffect c s ({ s with books := b }.saveObservation (credited o)) := by
  obtain ⟨hnormal, hacc, hcredit, _, _, hkey⟩ := preparePosting_eq hp
  obtain ⟨rest, hrest⟩ := observationKey_prefix o
  have hopen : o.status ≠ .credited := by rw [hs]; decide
  -- the key is unused, so the credit is a new entry
  rcases apply_cases happly with ⟨_, he, hused⟩ | ⟨row, _, _, rfl, _, _, hpost⟩
  · obtain ⟨o', ho', hcredited, hokey⟩ := h.origin e he rest ((hused.trans hkey).trans hrest)
    rw [h.eq_of_key ho' ho (hokey.symm.trans (hused.trans hkey))] at hcredited
    exact absurd hcredited hopen
  have hmem : ∀ r, r ∈ ({ s with books := b }.saveObservation (credited o)).observations ↔
      r = written (credited o) o ∨ (r ∈ s.observations ∧ r.id ≠ o.id) := by
    intro r
    rw [mem_saved]
    constructor
    · rintro (⟨q, hq, hqid, rfl⟩ | hr)
      · obtain rfl := observation_eq hq ho hqid
        exact .inl rfl
      · exact .inr hr
    · rintro (rfl | hr)
      · exact .inl ⟨o, ho, rfl, rfl⟩
      · exact .inr hr
  have hsame : SameRow o (written (credited o) o) := ⟨rfl, rfl, rfl, rfl, rfl, rfl, rfl, rfl⟩
  have hmoves : StatusMoves o.status (written (credited o) o).status := by
    rw [hs]
    exact .tail (.single .started) .credited
  have hkept : Kept s ({ s with books := b }.saveObservation (credited o)) := by
    refine ⟨?_, fun a ha => ⟨a, ha, rfl, rfl⟩⟩
    intro r hr
    by_cases hrid : r.id = o.id
    · obtain rfl := observation_eq hr ho hrid
      exact ⟨_, (hmem _).2 (.inl rfl), hsame, hmoves, Nat.le_refl _⟩
    · exact ⟨r, (hmem r).2 (.inr ⟨hr, hrid⟩), .refl r⟩
  have hentries : ∀ f, f ∈ b.entries ↔ f ∈ s.books.entries ∨ f = p.entry row.balance :=
    fun f => mem_entries_post hpost
  have haccepted := h.accepted o ho (.inl hs)
  refine ⟨⟨h.books.apply happly, ?_, ?_, ?_, ?_, ?_, ?_⟩, hkept⟩
  · intro r hr
    rcases (hmem r).1 hr with rfl | ⟨hr, _⟩
    · exact h.hash o ho
    · exact h.hash r hr
  · intro r hr
    rcases (hmem r).1 hr with rfl | ⟨hr, _⟩
    · exact ⟨nofun, nofun⟩
    · exact h.settled r hr
  · intro r hr hrs
    rcases (hmem r).1 hr with rfl | ⟨hr, _⟩
    · exact ⟨haccepted.chain, haccepted.token, haccepted.confirmations⟩
    · exact h.accepted r hr hrs
  · intro r hr hrshadow
    rcases (hmem r).1 hr with rfl | ⟨hr, _⟩
    · rw [hsame.shadowOnly, hshadow] at hrshadow
      cases hrshadow
    · exact h.shadow r hr hrshadow
  · intro r hr hrs
    rcases (hmem r).1 hr with rfl | ⟨hr, _⟩
    · have hdelta : p.delta = o.amount.micros := by
        have hamount := normalizeAmount_units hnormal
        rw [Dec.units_ofUnits] at hamount
        rw [Posting.delta, hcredit, if_pos rfl, hamount]
      exact ⟨_, (hentries _).2 (.inr rfl), hkey, hdelta, a, ha, hid, hacc⟩
    · obtain ⟨f, hf, hcredits⟩ := h.entry r hr hrs
      exact ⟨f, (hentries f).2 (.inl hf), hcredits.kept hkept (.refl r)⟩
  · intro f hf frest hfkey
    rcases (hentries f).1 hf with hf | rfl
    · obtain ⟨r, hr, hrs, hrkey⟩ := h.origin f hf frest hfkey
      refine ⟨r, (hmem r).2 (.inr ⟨hr, ?_⟩), hrs, hrkey⟩
      intro hrid
      rw [observation_eq hr ho hrid] at hrs
      exact hopen hrs
    · exact ⟨_, (hmem _).2 (.inl rfl), rfl, hkey.trans hsame.key.symm⟩

end Writes

end Roamkit.Wallet.Proof
