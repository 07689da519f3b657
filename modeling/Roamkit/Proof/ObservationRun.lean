import Roamkit.Proof.Observations

/-!
# Runs of the observation services

Every transaction on a locked row keeps the rows and the ledger together, whatever
goes on beside it. `ingest`'s last resort does so too where the row is as it was
read; where another call has moved the row on in between, it writes the row back.
-/

namespace Roamkit.Wallet.Proof

open Lib Billing Billing.Proof Wallet WalletDb

/-! ## The transactions -/

variable {id : Uuid} {a : Ingest}

section Transactions

variable {c : WalletSettings} {s s' : WalletDb} {o : DepositObservation}

theorem findObservation (h : s.observations.find? (·.id = id) = some o) :
    o ∈ s.observations ∧ o.id = id :=
  ⟨Table.mem_of_find? h, by simpa using Table.prop_of_find? h⟩

theorem refreshFound_effect {found : DepositObservation} {n : Int} (h : WalletInv c s)
    (hfound : found ∈ s.observations) (hs : s.refreshFound c found n = .ok (s', o)) :
    WalletEffect c s s' := by
  obtain ⟨refreshed, hrefresh, hs⟩ := bind_ok hs
  cases hs
  exact h.save hfound (refresh_move (h.settled found hfound).1 hrefresh)

theorem columns_row {row : DepositObservation} (h : a.columns id = .ok (some row)) :
    ∃ amount, row = a.row id amount := by
  unfold Ingest.columns at h
  split at h
  · cases h
  split at h
  · split at h
    · obtain ⟨amount, _, hrow⟩ := Option.map_eq_some_iff.1 (Except.ok.inj h)
      exact ⟨amount, hrow.symm⟩
    · cases h
  · cases h

theorem insertNew_effect (h : WalletInv c s) (hhash : a.txHash.toList.length = 66)
    (hs : s.insertNew c a id = .ok (some (s', o))) :
    WalletEffect c s s' := by
  obtain ⟨row?, hcolumns, hs⟩ := bind_ok hs
  cases row? with
  | none => cases hs
  | some row =>
    obtain ⟨amount, rfl⟩ := columns_row hcolumns
    dsimp only at hs
    split at hs
    · cases hs
    rename_i observations hi
    obtain ⟨judged, hjudged, hs⟩ := bind_ok hs
    cases hs
    exact h.insert hi hhash rfl hjudged

theorem advanceConfirmation_effect (h : WalletInv c s)
    (hs : s.advanceConfirmation c id = .ok (s', o)) : WalletEffect c s s' := by
  unfold advanceConfirmation at hs
  split at hs
  · cases hs
  rename_i locked hfind
  obtain ⟨hmem, _⟩ := findObservation hfind
  obtain ⟨judged, hjudged, hs⟩ := bind_ok hs
  cases hs
  exact h.save hmem (applyPolicy_move (h.settled locked hmem).1 hjudged)

theorem expire_effect (h : WalletInv c s) (hs : s.expire id = .ok (s', o)) :
    WalletEffect c s s' := by
  unfold WalletDb.expire at hs
  split at hs
  · cases hs
  rename_i locked hfind
  obtain ⟨hmem, _⟩ := findObservation hfind
  split at hs
  · split at hs
    · cases hs
      exact ⟨h, .refl s⟩
    · cases hs
  · rename_i hopen
    cases hs
    have hpending := pending_of_open (Bool.eq_false_iff.2 hopen) (h.settled locked hmem).1
    exact h.save hmem (.moves ⟨rfl, rfl, rfl, rfl, rfl, rfl, rfl, rfl⟩ hpending (Nat.le_refl _)
      (.inr (.inr (.inl rfl))))

theorem convert_effect {e : CreditLedgerEntry} (h : WalletInv c s)
    (hs : s.convert id = .ok (s', e)) : WalletEffect c s s' := by
  unfold WalletDb.convert at hs
  split at hs
  · cases hs
  rename_i locked hfind
  obtain ⟨hmem, _⟩ := findObservation hfind
  split at hs
  · split at hs
    · cases hs
    · cases hs
      exact ⟨h, .refl s⟩
  · split at hs
    · cases hs
    rename_i hshadow
    split at hs
    · rename_i hstarted
      exact absurd hstarted (h.settled locked hmem).2
    · split at hs
      · cases hs
      rename_i hconfirmed
      unfold creditAndFinish at hs
      split at hs
      · cases hs
      rename_i address haddress
      obtain ⟨p, hp, hs⟩ := bind_ok hs
      obtain ⟨⟨books, entry⟩, happly, hs⟩ := bind_ok hs
      cases hs
      exact h.credit (o := locked) hmem (not_not.1 hconfirmed) (Bool.eq_false_iff.2 hshadow)
        (Table.mem_of_find? haddress) (by simpa using Table.prop_of_find? haddress) hp happly

theorem normalizeTxHash_length {value txHash : String} (h : normalizeTxHash value = .ok txHash) :
    txHash.toList.length = 66 := by
  have checked : ∀ (text : List Char) (e : Exc),
      (if text.length = 66 ∧ isHexBody (text.drop 2) then .ok (String.ofList text)
        else (.error e : Except Exc String)) = .ok txHash → txHash.toList.length = 66 := by
    intro text e h
    by_cases hvalid : text.length = 66 ∧ isHexBody (text.drop 2)
    · rw [if_pos hvalid] at h
      rw [← Except.ok.inj h, String.toList_ofList]
      exact hvalid.1
    · rw [if_neg hvalid] at h
      cases h
  unfold normalizeTxHash at h
  exact checked _ _ h

theorem normalizeObservedHash_ok {value txHash : String}
    (h : normalizeObservedHash value = .ok txHash) : normalizeTxHash value = .ok txHash := by
  unfold normalizeObservedHash at h
  cases hn : normalizeTxHash value with
  | error e =>
    rw [hn] at h
    cases h
  | ok text =>
    rw [hn] at h
    cases h
    rfl

theorem prepareIngest_hash {signal : ObservationSignal} {shadowOnly : Bool}
    (h : s.prepareIngest signal shadowOnly = .ok a) : a.txHash.toList.length = 66 := by
  obtain ⟨txHash, hhash, h⟩ := bind_ok h
  dsimp only at h
  split at h
  · cases h
  · obtain rfl := Except.ok.inj h
    exact normalizeTxHash_length (normalizeObservedHash_ok hhash)

theorem allocate_effect {address : WalletAddress} {addresses : Table WalletAddress}
    (h : WalletInv c s) (hi : s.addresses.insert? address = some addresses) :
    WalletEffect c s { s with addresses } :=
  h.address fun a ha => ⟨a, (Table.mem_insert hi).2 (.inl ha), rfl, rfl⟩

theorem retire_effect (h : WalletInv c s) (id : Uuid) : WalletEffect c s (s.retire id) := by
  refine h.address ?_
  intro a ha
  refine ⟨_, List.mem_map.2 ⟨a, ha, rfl⟩, ?_, ?_⟩ <;>
    · unfold Lib.rewrite
      split <;> rfl

end Transactions

/-! ## The last resort of `ingest` -/

/-- The copy that was read without a lock. -/
def copyOf : WalletPc → Option DepositObservation
  | .refreshing copy _ => some copy
  | .marking copy => some copy
  | .judging copy => some copy
  | _ => none

/-- What an attempt of `ingest` works with. -/
def attemptOf : WalletPc → Option Ingest
  | .attempting a _ => some a
  | .inserting a _ => some a
  | .fallingBack a => some a
  | _ => none

/-- A step of the last resort finds the row as its copy has it. -/
def Current (s : WalletDb) (t : WalletThread) : Prop :=
  ∀ copy, copyOf t.pc = some copy → ∀ o ∈ s.observations, o.id = copy.id →
    o.status = copy.status ∧ o.confirmations = copy.confirmations

/-- What a call relies on. -/
structure WalletLocal (s : WalletDb) (t : WalletThread) : Prop where
  hash : ∀ a, attemptOf t.pc = some a → a.txHash.toList.length = 66
  copy : ∀ copy, copyOf t.pc = some copy →
    copy.status.isTerminal = false ∧ ∃ o ∈ s.observations, SameRow copy o

theorem walletLocal_done {s : WalletDb} {t : WalletThread} (ha : attemptOf t.pc = none)
    (hc : copyOf t.pc = none) : WalletLocal s t := by
  refine ⟨?_, ?_⟩
  · intro a h
    rw [ha] at h
    cases h
  · intro copy h
    rw [hc] at h
    cases h

theorem walletLocal_attempt {s : WalletDb} {t : WalletThread} (ha : attemptOf t.pc = some a)
    (hc : copyOf t.pc = none) (hhash : a.txHash.toList.length = 66) : WalletLocal s t := by
  refine ⟨?_, ?_⟩
  · intro a' h
    rw [ha] at h
    cases h
    exact hhash
  · intro copy h
    rw [hc] at h
    cases h

theorem walletLocal_copy {s : WalletDb} {t : WalletThread} {copy : DepositObservation}
    (ha : attemptOf t.pc = none) (hc : copyOf t.pc = some copy)
    (hopen : copy.status.isTerminal = false) (hrow : ∃ o ∈ s.observations, SameRow copy o) :
    WalletLocal s t := by
  refine ⟨?_, ?_⟩
  · intro a h
    rw [ha] at h
    cases h
  · intro copy' h
    rw [hc] at h
    cases h
    exact ⟨hopen, hrow⟩

theorem WalletLocal.frame {s s' : WalletDb} {t : WalletThread} (h : WalletLocal s t)
    (hk : Kept s s') : WalletLocal s' t := by
  refine ⟨h.hash, ?_⟩
  intro copy hc
  obtain ⟨hopen, o, ho, hsame⟩ := h.copy copy hc
  obtain ⟨o', ho', hlater⟩ := hk.observations o ho
  exact ⟨hopen, o', ho', hsame.trans hlater.same⟩

section LastResort

variable {c : WalletSettings} {s s' : WalletDb} {copy : DepositObservation} {pc : WalletPc}

/-- Its row is pending, and as the copy has it. -/
theorem pending_of_current {t : WalletThread} (h : WalletInv c s) (hL : WalletLocal s t)
    (hcur : Current s t) (hc : copyOf t.pc = some copy) :
    ∃ o ∈ s.observations, SameRow copy o ∧ o.status = .pendingConfirmation
      ∧ copy.status = .pendingConfirmation ∧ o.confirmations = copy.confirmations := by
  obtain ⟨hopen, o, ho, hsame⟩ := hL.copy copy hc
  obtain ⟨hstatus, hcount⟩ := hcur copy hc o ho hsame.id
  have hpending : o.status = .pendingConfirmation :=
    pending_of_open (by rw [hstatus]; exact hopen) (h.settled o ho).1
  exact ⟨o, ho, hsame, hpending, hstatus ▸ hpending, hcount⟩

theorem recount_effect {t : WalletThread} {n : Int} (h : WalletInv c s) (hL : WalletLocal s t)
    (hcur : Current s t) (hpc : t.pc = .refreshing copy n) (hs : recount s copy n = .ok (s', pc)) :
    WalletEffect c s s' ∧ WalletLocal s' { t with pc } := by
  have hc : copyOf t.pc = some copy := by rw [hpc]; rfl
  obtain ⟨hopen, hrow⟩ := hL.copy copy hc
  unfold recount at hs
  split at hs
  · cases hs
    exact ⟨⟨h, .refl s⟩, walletLocal_copy rfl rfl hopen hrow⟩
  · obtain ⟨raised, hraise, hs⟩ := bind_ok hs
    cases hs
    obtain ⟨hsame, hstatus, hmore⟩ := raiseConfirmations_cases hraise
    obtain ⟨o, ho, hrowsame, hpending, _, hcount⟩ := pending_of_current h hL hcur hc
    have he : WalletEffect c s (s.saveConfirmations raised) := by
      refine h.rewrite ?_
      intro r hr hid
      obtain rfl := observation_eq hr ho (by rw [hid, hsame.id, hrowsame.id])
      refine .moves ⟨rfl, rfl, rfl, rfl, rfl, rfl, rfl, rfl⟩ hpending ?_ (.inl hpending)
      rw [hcount]
      exact hmore
    refine ⟨he, walletLocal_copy rfl rfl (by rw [hstatus]; exact hopen) ?_⟩
    obtain ⟨o', ho', hlater⟩ := he.kept.observations o ho
    exact ⟨o', ho', hsame.symm.trans (hrowsame.trans hlater.same)⟩

theorem mark_effect {t : WalletThread} (h : WalletInv c s) (hL : WalletLocal s t)
    (hcur : Current s t) (hpc : t.pc = .marking copy) :
    WalletEffect c s (mark s copy).1
      ∧ WalletLocal (mark s copy).1 { t with pc := (mark s copy).2 } := by
  have hc : copyOf t.pc = some copy := by rw [hpc]; rfl
  obtain ⟨_, _, _, _, hpending, _⟩ := pending_of_current h hL hcur hc
  obtain ⟨hopen, hrow⟩ := hL.copy copy hc
  have hmark : mark s copy = (s, .judging copy) := by
    unfold mark
    rw [if_neg]
    rw [hpending]
    decide
  rw [hmark]
  exact ⟨⟨h, .refl s⟩, walletLocal_copy rfl rfl hopen hrow⟩

theorem judge_effect {t : WalletThread} (h : WalletInv c s) (hL : WalletLocal s t)
    (hcur : Current s t) (hpc : t.pc = .judging copy) (hs : judge c s copy = .ok (s', pc)) :
    WalletEffect c s s' ∧ WalletLocal s' { t with pc } := by
  have hc : copyOf t.pc = some copy := by rw [hpc]; rfl
  obtain ⟨o, ho, hrowsame, hpending, hcopy, hcount⟩ := pending_of_current h hL hcur hc
  obtain ⟨judged, hjudge, hs⟩ := bind_ok hs
  cases hs
  refine ⟨?_, walletLocal_done rfl rfl⟩
  rcases applyPolicy_cases hjudge with ⟨hterminal, _⟩ | ⟨_, hsame, hjudgedCount, hjudged⟩
  · rw [hcopy] at hterminal
    cases hterminal
  refine h.rewrite ?_
  intro r hr hid
  obtain rfl := observation_eq hr ho (by rw [hid, hsame.id, hrowsame.id])
  have hall := hsame.symm.trans hrowsame
  refine .moves ⟨rfl, rfl, rfl, rfl, rfl, rfl, rfl, rfl⟩ hpending (Nat.le_refl _) ?_
  rcases hjudged with hj | hj | hj | ⟨hj, haccepted⟩
  · exact .inl hj
  · exact .inr (.inl hj)
  · exact .inr (.inr (.inl hj))
  · refine .inr (.inr (.inr ⟨hj, ?_⟩))
    refine ⟨hall.chain.trans haccepted.chain,
      (congrArg normalizeEvmAddress hall.tokenContract).trans haccepted.token, ?_⟩
    have hle := haccepted.confirmations
    rw [hjudgedCount, ← hcount] at hle
    exact hle

end LastResort

/-! ## Every run -/

section Run

variable {c : WalletSettings} {s s' : WalletDb} {t t' : WalletThread}

theorem goOn_effect {r : Except Exc (WalletDb × WalletPc)} (h : WalletInv c s)
    (hr : ∀ s' pc, r = .ok (s', pc) → WalletEffect c s s' ∧ WalletLocal s' { t with pc })
    (hs : some (t.goOn s r) = some (s', t')) : WalletEffect c s s' ∧ WalletLocal s' t' := by
  cases r with
  | error e =>
    cases hs
    exact ⟨⟨h, .refl s⟩, walletLocal_done rfl rfl⟩
  | ok q =>
    cases hs
    exact hr _ _ rfl

theorem begin_effect {pc : WalletPc} (h : WalletInv c s)
    (hs : beginWallet c s t.call = .ok (s', pc)) :
    WalletEffect c s s' ∧ WalletLocal s' { t with pc } := by
  unfold beginWallet at hs
  split at hs
  · obtain ⟨a, ha, hs⟩ := bind_ok hs
    cases hs
    exact ⟨⟨h, .refl s⟩, walletLocal_attempt rfl rfl (prepareIngest_hash ha)⟩
  · obtain ⟨⟨s₁, o⟩, ho, hs⟩ := bind_ok hs
    cases hs
    exact ⟨advanceConfirmation_effect h ho, walletLocal_done rfl rfl⟩
  · obtain ⟨⟨s₁, o⟩, ho, hs⟩ := bind_ok hs
    cases hs
    exact ⟨expire_effect h ho, walletLocal_done rfl rfl⟩
  · obtain ⟨⟨s₁, e⟩, he, hs⟩ := bind_ok hs
    cases hs
    exact ⟨convert_effect h he, walletLocal_done rfl rfl⟩
  · split at hs
    · cases hs
    rename_i addresses hi
    cases hs
    exact ⟨allocate_effect h hi, walletLocal_done rfl rfl⟩
  · cases hs
    exact ⟨retire_effect h _, walletLocal_done rfl rfl⟩
  · obtain ⟨⟨books, e⟩, he, hs⟩ := bind_ok hs
    cases hs
    exact ⟨h.post he, walletLocal_done rfl rfl⟩

/-- **What a step of a call does.** -/
theorem walletStep_effect {x : WalletInput} (h : WalletInv c s) (hL : WalletLocal s t)
    (hcur : Current s t) (hs : walletStep c s t x = some (s', t')) :
    WalletEffect c s s' ∧ WalletLocal s' t' := by
  have hash : ∀ a, attemptOf t.pc = some a → a.txHash.toList.length = 66 := hL.hash
  unfold walletStep at hs
  split at hs
  · split at hs
    · cases hs
      exact ⟨⟨h, .refl s⟩, walletLocal_done rfl rfl⟩
    · cases hs
  · exact goOn_effect h (fun _ _ hr => begin_effect h hr) hs
  · rename_i a left hpc
    refine goOn_effect h ?_ hs
    intro s₁ pc hr
    unfold attempt at hr
    split at hr
    · cases hr
      exact ⟨⟨h, .refl s⟩, walletLocal_attempt rfl rfl (hash a (by rw [hpc]; rfl))⟩
    · rename_i o hfind
      obtain ⟨⟨s₂, refreshed⟩, hrefresh, hr⟩ := bind_ok hr
      cases hr
      exact ⟨refreshFound_effect h (Table.mem_of_find? hfind) hrefresh, walletLocal_done rfl rfl⟩
  · rename_i a left id hpc
    have hhash := hash a (by rw [hpc]; rfl)
    refine goOn_effect h ?_ hs
    intro s₁ pc hr
    obtain ⟨made, hmade, hr⟩ := bind_ok hr
    cases made with
    | none =>
      cases hr
      cases left with
      | zero => exact ⟨⟨h, .refl s⟩, walletLocal_attempt rfl rfl hhash⟩
      | succ left => exact ⟨⟨h, .refl s⟩, walletLocal_attempt rfl rfl hhash⟩
    | some made =>
      cases hr
      exact ⟨insertNew_effect h hhash hmade, walletLocal_done rfl rfl⟩
  · rename_i a hpc
    refine goOn_effect h ?_ hs
    intro s₁ pc hr
    unfold fallBack at hr
    split at hr
    · cases hr
    rename_i copy hfind
    cases hr
    refine ⟨⟨h, .refl s⟩, ?_⟩
    split
    · exact walletLocal_done rfl rfl
    · rename_i hopen
      exact walletLocal_copy rfl rfl (Bool.eq_false_iff.2 hopen)
        ⟨copy, Table.mem_of_find? hfind, .refl copy⟩
  · rename_i hpc
    exact goOn_effect h (fun _ _ hr => recount_effect h hL hcur hpc hr) hs
  · rename_i hpc
    refine goOn_effect h ?_ hs
    intro s₁ pc hr
    have hmark := mark_effect h hL hcur hpc
    rw [Except.ok.inj hr] at hmark
    exact hmark
  · rename_i hpc
    exact goOn_effect h (fun _ _ hr => judge_effect h hL hcur hpc hr) hs
  · cases hs

/-- Nothing has been observed, and the ledger is fresh. -/
structure FreshWallet (s : WalletDb) : Prop where
  books : Books.Fresh s.books
  observations : s.observations.rows = []

theorem walletInv_init (h : FreshWallet s) : WalletInv c s := by
  have hnone : ∀ o, o ∉ s.observations := by
    intro o ho
    rw [Table.mem_def, h.observations] at ho
    cases ho
  refine ⟨booksInv_init h.books, ?_, ?_, ?_, ?_, ?_, ?_⟩
  · exact fun o ho => absurd ho (hnone o)
  · exact fun o ho => absurd ho (hnone o)
  · exact fun o ho => absurd ho (hnone o)
  · exact fun o ho => absurd ho (hnone o)
  · exact fun o ho => absurd ho (hnone o)
  · intro e he
    rw [Table.mem_def, h.books.entries] at he
    cases he

theorem walletInvariant (c : WalletSettings) :
    Invariant (walletProgram c) FreshWallet (fun s t _ => Current s t) (WalletInv c) WalletLocal
      (fun _ _ => True) where
  init := walletInv_init
  start := fun _ _ => walletLocal_done rfl rfl
  apart_start := fun _ _ => trivial
  symm := fun _ => trivial
  step := by
    intro s t x s' t' h hL hcur hs
    obtain ⟨he, hL'⟩ := walletStep_effect h hL hcur hs
    exact ⟨he.inv, hL'⟩
  frame := by
    intro s t x s' t' u h hL hcur hs hu _
    exact ⟨hu.frame (walletStep_effect h hL hcur hs).1.kept, trivial⟩

end Run

/-- The observations are as the ledger says. -/
structure ObservationsSound (c : WalletSettings) (s : WalletDb) : Prop where
  /-- A transfer has at most one row. -/
  unique : ∀ o ∈ s.observations, ∀ p ∈ s.observations,
    o.chain = p.chain → o.txHash = p.txHash → o.logIndex = p.logIndex → o = p
  /-- What is confirmed, or was, is of the accepted token and has its confirmations. -/
  confirmed : ∀ o ∈ s.observations,
    o.status = .confirmed ∨ o.status = .conversionStarted ∨ o.status = .credited → Accepted c o
  /-- A row is credited exactly when the ledger has an entry under its key. -/
  credited : ∀ o ∈ s.observations,
    (∃ e ∈ s.books.entries, e.idempotencyKey = observationKey o) ↔ o.status = .credited
  /-- The entry is of its amount, on the account of its address. -/
  exact : ∀ o ∈ s.observations, ∀ e ∈ s.books.entries, e.idempotencyKey = observationKey o →
    Credits s o e
  /-- A row that is for comparison only is never credited. -/
  shadow : ∀ o ∈ s.observations, o.shadowOnly = true → o.status ≠ .credited

/-- What becomes of the observations from one time to another. -/
structure ObservationsKept (s s' : WalletDb) : Prop where
  /-- A row stays, its status moves along the edges, and its confirmations do not decrease. -/
  later : ∀ o ∈ s.observations, ∃ o' ∈ s'.observations, Later o o'
  /-- Credited, rejected and expired rows stay so. -/
  final : ∀ o ∈ s.observations, IsFinal o.status → ∀ o' ∈ s'.observations, o'.id = o.id →
    o'.status = o.status

theorem WalletInv.sound {c : WalletSettings} {s : WalletDb} (h : WalletInv c s) :
    ObservationsSound c s := by
  refine ⟨?_, ?_, ?_, ?_, h.shadow⟩
  · intro o ho p hp hchain hhash hindex
    exact Table.eq_of_clash ho hp (.inr ⟨hchain, hhash, hindex⟩)
  · intro o ho hs
    rcases hs with hs | hs | hs
    · exact h.accepted o ho (.inl hs)
    · exact absurd hs (h.settled o ho).2
    · exact h.accepted o ho (.inr hs)
  · intro o ho
    refine ⟨?_, ?_⟩
    · rintro ⟨e, he, hkey⟩
      obtain ⟨rest, hrest⟩ := observationKey_prefix o
      obtain ⟨o', ho', hs', hkey'⟩ := h.origin e he rest (hkey.trans hrest)
      rwa [h.eq_of_key ho' ho (hkey'.symm.trans hkey)] at hs'
    · intro hs
      obtain ⟨e, he, hcredits⟩ := h.entry o ho hs
      exact ⟨e, he, hcredits.key⟩
  · intro o ho e he hkey
    obtain ⟨rest, hrest⟩ := observationKey_prefix o
    obtain ⟨o', ho', hs', hkey'⟩ := h.origin e he rest (hkey.trans hrest)
    obtain ⟨f, hf, hcredits⟩ := h.entry o' ho' hs'
    obtain rfl := h.eq_of_key ho' ho (hkey'.symm.trans hkey)
    obtain rfl : e = f := Table.eq_of_clash he hf (hkey.trans hcredits.key.symm)
    exact hcredits

theorem Kept.sound {s s' : WalletDb} (h : Kept s s') : ObservationsKept s s' := by
  refine ⟨h.observations, ?_⟩
  intro o ho hfinal o' ho' hid
  obtain ⟨o₁, ho₁, hlater⟩ := h.observations o ho
  obtain rfl := observation_eq ho' ho₁ (hid.trans hlater.same.id.symm)
  exact hlater.moves.of_final hfinal

/--
**An observation is made once, moves on only, and is credited once.** In every run
whose last resorts find the row as they read it, the observations are as the ledger
says in every state reached, and from any state to any later one a row moves along
the edges only.
-/
theorem observations_sound {c : WalletSettings} {g g' : Config WalletDb WalletThread}
    (h : (walletProgram c).ReachWhere FreshWallet (fun s t _ => Current s t) g)
    (hl : (walletProgram c).LeadsWhere (fun s t _ => Current s t) g g') :
    ObservationsSound c g'.store ∧ ObservationsKept g.store g'.store := by
  have inv := walletInvariant c
  refine ⟨(inv.reach (h.leads hl)).store.sound, ?_⟩
  have hkept : Kept g.store g'.store := by
    refine hl.keeps h Kept.refl (fun _ _ _ => Kept.trans) ?_
    intro g₁ p t x s' t' h₁ ht hcur hs
    have hold := inv.reach h₁
    exact (walletStep_effect hold.store (hold.thread p t ht) hcur hs).1.kept
  exact hkept.sound

/-! ## Two runs -/

/-- Twenty confirmations, and a token. -/
def walletSettings : WalletSettings := ⟨20, "c2"⟩

def addressId : Uuid := ⟨"00000000-0000-4000-8000-0000000000f4", by decide⟩

def observationId : Uuid := ⟨"00000000-0000-4000-8000-0000000000f2", by decide⟩

/-- An address of Alice's. -/
def aliceAddress : WalletAddress :=
  ⟨addressId, alice, polygon, normalizeEvmAddress "a1", 0, .active, 0⟩

def oneAddress : WalletDb := ⟨twoAccounts, ⟨[aliceAddress], List.pairwise_singleton _ _⟩, .empty⟩

theorem freshWallet_oneAddress : FreshWallet oneAddress := ⟨fresh_twoAccounts, rfl⟩

/-- A transfer of an amount to Alice, with so many confirmations. -/
def seen (amount confirmations : Int) : WalletCall :=
  .ingest ⟨polygon, String.ofList (List.replicate 64 'a'), 0, "a1", .finite ⟨amount, 0⟩, "c2",
    confirmations, "", none⟩ false

/-- A transfer is seen under five confirmations. -/
def seenEarly (p : Nat) : List (Act WalletCall WalletInput) :=
  [.call p (seen 10 5), .tick p .go, .tick p .go, .tick p (.uuid observationId)]

/-- It is seen again under twenty-five, and converted. -/
def seenAgain (p q : Nat) : List (Act WalletCall WalletInput) :=
  [.call p (seen 10 25), .tick p .go, .tick p .go, .call q (.convert observationId), .tick q .go]

/-- An attempt to insert a row. -/
def attemptsInsert (p : Nat) : List (Act WalletCall WalletInput) :=
  [.tick p .go, .tick p (.uuid addressId)]

/-- The row of the transfer has a status. -/
def hasStatus (status : ObservationStatus) (s : WalletDb) : Bool :=
  s.observations.rows.any fun o => o.id = observationId && o.status = status

/-- A check that a last resort finds the row as its copy has it. -/
def isCurrent (s : WalletDb) (t : WalletThread) (_ : WalletInput) : Bool :=
  match copyOf t.pc with
  | none => true
  | some copy => s.observations.rows.all fun o =>
    o.id ≠ copy.id || (o.status = copy.status && o.confirmations = copy.confirmations)

theorem current_of_isCurrent {s : WalletDb} {t : WalletThread} {x : WalletInput}
    (h : isCurrent s t x = true) : Current s t := by
  intro copy hcopy o ho hid
  unfold isCurrent at h
  rw [hcopy] at h
  simpa [hid] using List.all_eq_true.1 h o ho

/-- A pending transfer is confirmed and credited. -/
theorem observations_sound_credited :
    ∃ g g', (walletProgram walletSettings).ReachWhere FreshWallet (fun s t _ => Current s t) g
      ∧ (walletProgram walletSettings).LeadsWhere (fun s t _ => Current s t) g g'
      ∧ (hasStatus .pendingConfirmation g.store && hasStatus .credited g'.store) = true
      ∧ ObservationsSound walletSettings g'.store ∧ ObservationsKept g.store g'.store := by
  obtain ⟨g, g', hg, hl, hf⟩ := Program.leadsWhere_check (P := walletProgram walletSettings)
    isCurrent (fun _ _ _ h => current_of_isCurrent h) freshWallet_oneAddress (seenEarly 0)
    (seenAgain 1 2)
    (fun g g' => hasStatus .pendingConfirmation g.store && hasStatus .credited g'.store)
    (by decide +kernel)
  exact ⟨g, g', hg, hl, hf, observations_sound hg hl⟩

/-- A signal whose confirmations no row can hold uses up its attempts before the row is there. -/
def lateFallBack : List (Act WalletCall WalletInput) :=
  [.call 0 (seen 10 (-1)), .tick 0 .go] ++ attemptsInsert 0 ++ attemptsInsert 0 ++ attemptsInsert 0
    ++ attemptsInsert 0 ++ attemptsInsert 0 ++ seenEarly 1 ++ [.tick 0 .go] ++ seenAgain 2 3
    ++ [.tick 0 .go, .tick 0 .go, .tick 0 .go]

/-- The row is pending, and the ledger has its entry. -/
def isUncredited (g : Config WalletDb WalletThread) : Bool :=
  g.store.observations.rows.any fun o => o.status = .pendingConfirmation
    && g.store.books.entries.rows.any fun e => e.idempotencyKey = observationKey o

/-- What the signal read before the conversion is written back after it. -/
theorem credited_written_back :
    ¬ ∀ c g g', (walletProgram c).Reach FreshWallet g →
      (walletProgram c).LeadsWhere (fun _ _ _ => True) g g' →
      ObservationsSound c g'.store ∧ ObservationsKept g.store g'.store := by
  intro h
  obtain ⟨g, hr, hg⟩ := Program.run_check (walletProgram walletSettings) oneAddress lateFallBack
    isUncredited (by decide +kernel)
  have hreach := Program.reach_run freshWallet_oneAddress hr
  obtain ⟨hsound, _⟩ := h walletSettings g g hreach .refl
  simp only [isUncredited, List.any_eq_true, Bool.and_eq_true, decide_eq_true_eq] at hg
  obtain ⟨o, ho, hpending, e, he, hkey⟩ := hg
  have hcredited := (hsound.credited o ho).1 ⟨e, he, hkey⟩
  rw [hpending] at hcredited
  cases hcredited

end Roamkit.Wallet.Proof
