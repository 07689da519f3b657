import Roamkit.Proof.FreeGoods
import Roamkit.Spend.Sequences

/-!
# Top-ups are numbered without gaps

Whoever reads the highest number of an eSIM's top-ups to use the next one holds the row lock
of the eSIM until its row is committed or gone, so nobody else uses that number. An initial
credit takes no lock; its number is 0, which nobody who reads the highest number takes.
-/

namespace Roamkit.Spend.Proof

open Lib Billing Billing.Proof Pricing.Proof

/-! ## Numbers -/

/-- What `Topup.save` makes of the numbers it reads. -/
structure IsNext (s : SpendDb) (esim : Nat) (n : Nat) : Prop where
  pos : 1 ≤ n
  above : ∀ t ∈ s.topups, t.esim = esim → t.sequence < n
  next : n = 1 ∨ ∃ t ∈ s.topups, t.esim = esim ∧ t.sequence + 1 = n

theorem isNext_nextSequence (s : SpendDb) (esim : Nat) : IsNext s esim (nextSequence s esim) := by
  refine ⟨one_le_nextSequence s esim, fun t ht hesim => hesim ▸ lt_nextSequence ht, ?_⟩
  have hmem : ∀ t, t ∈ s.topups ↔ t ∈ s.topups.rows := fun _ => Iff.rfl
  simp only [hmem]
  unfold nextSequence
  generalize s.topups.rows = rows
  induction rows with
  | nil => exact .inl rfl
  | cons u us ih =>
    rw [List.foldr_cons]
    have hrest : ∀ m, (m = 1 ∨ ∃ t ∈ us, t.esim = esim ∧ t.sequence + 1 = m) →
        m = 1 ∨ ∃ t ∈ u :: us, t.esim = esim ∧ t.sequence + 1 = m := by
      rintro m (hone | ⟨t, ht, hesim, hm⟩)
      · exact .inl hone
      · exact .inr ⟨t, List.mem_cons_of_mem _ ht, hesim, hm⟩
    by_cases hesim : u.esim = esim
    · rw [if_pos hesim]
      generalize List.foldr _ 1 us = m at ih ⊢
      rcases Nat.le_total m (u.sequence + 1) with hle | hle
      · rw [Nat.max_eq_right hle]
        exact .inr ⟨u, List.mem_cons_self, hesim, rfl⟩
      · rw [Nat.max_eq_left hle]
        exact hrest m ih
    · rw [if_neg hesim]
      exact hrest _ ih

/-- Two top-ups that are the same but for what later transactions write. -/
structure SameNumber (t u : Topup) : Prop where
  id : t.id = u.id
  key : t.idempotencyKey = u.idempotencyKey
  esim : t.esim = u.esim
  sequence : t.sequence = u.sequence

/-- Two databases with the same top-ups, but for what later transactions write. -/
structure SameNumbers (s s' : SpendDb) : Prop where
  new : ∀ t' ∈ s'.topups, ∃ t ∈ s.topups, SameNumber t t'
  old : ∀ t ∈ s.topups, ∃ t' ∈ s'.topups, SameNumber t t'

theorem SameNumbers.of_eq {s s' : SpendDb} (h : s'.topups = s.topups) : SameNumbers s s' where
  new t ht := ⟨t, h ▸ ht, rfl, rfl, rfl, rfl⟩
  old t ht := ⟨t, h ▸ ht, rfl, rfl, rfl, rfl⟩

theorem sameNumbers_settled {s s' : SpendDb} {topup : Uuid} {status : TopupStatus}
    {externalOrderId : String}
    (h : s'.topups.rows = s.topups.rows.map
      (rewrite (·.id = topup) (settledTopup status externalOrderId))) :
    SameNumbers s s' where
  new t' ht' := by
    have hrow : t' ∈ s'.topups.rows := ht'
    rw [h] at hrow
    obtain ⟨t, ht, ⟨_, rfl⟩ | ⟨_, rfl⟩⟩ := Table.of_mem_rewritten hrow
    · exact ⟨t, ht, rfl, rfl, rfl, rfl⟩
    · exact ⟨t', ht, rfl, rfl, rfl, rfl⟩
  old t ht := by
    refine ⟨rewrite (·.id = topup) (settledTopup status externalOrderId) t, ?_, ?_⟩
    · show _ ∈ s'.topups.rows
      rw [h]
      exact Table.mem_rewritten ht
    · unfold rewrite
      split <;> exact ⟨rfl, rfl, rfl, rfl⟩

variable {esim n : Nat} {u : Topup} {a : PurchaseArgs} {package : Airalo.TopupPackage}
  {t v : SequenceThread}

theorem IsNext.same {s s' : SpendDb} (h : IsNext s esim n) (hsame : SameNumbers s s') :
    IsNext s' esim n where
  pos := h.pos
  above t' ht' hesim := by
    obtain ⟨t, ht, hnumber⟩ := hsame.new t' ht'
    have hlt := h.above t ht (hnumber.esim.trans hesim)
    rwa [hnumber.sequence] at hlt
  next := by
    rcases h.next with hone | ⟨t, ht, hesim, hn⟩
    · exact .inl hone
    · obtain ⟨t', ht', hnumber⟩ := hsame.old t ht
      exact .inr ⟨t', ht', hnumber.esim.symm.trans hesim, by rw [← hnumber.sequence]; exact hn⟩

/-- A row of another eSIM, or with the number 0, is not in the way. -/
theorem IsNext.insert {s s' : SpendDb} (h : IsNext s esim n)
    (hi : s.topups.insert? u = some s'.topups)
    (hu : u.esim = esim → u.sequence = 0) : IsNext s' esim n where
  pos := h.pos
  above t ht hesim := by
    rcases (Table.mem_insert hi).1 ht with hold | rfl
    · exact h.above t hold hesim
    · rw [hu hesim]
      exact h.pos
  next := by
    rcases h.next with hone | ⟨t, ht, hesim, hn⟩
    · exact .inl hone
    · exact .inr ⟨t, (Table.mem_insert hi).2 (.inl ht), hesim, hn⟩

/-! ## The invariant -/

/-- What holds of the top-ups, committed or not. -/
structure SequencesInv (s : SequenceDb) : Prop where
  /-- Below a number every other from 1 on is used. -/
  segment : ∀ t ∈ s.spend.topups, ∀ n, 1 ≤ n → n < t.sequence →
    ∃ t' ∈ s.spend.topups, t'.esim = t.esim ∧ t'.sequence = n
  /-- A row that is inserted clashes with none. -/
  apart : ∀ u ∈ s.pending, ∀ t ∈ s.spend.topups, ¬ Constraint.clash t u
  pairwise : s.pending.Pairwise fun u v => ¬ Constraint.clash u v
  /-- Who has used a number other than 0 holds the lock. -/
  locked : ∀ u ∈ s.pending, u.sequence ≠ 0 → s.held u.esim = true
  /-- The number 0 is that of an initial credit. -/
  zero : ∀ t ∈ s.spend.topups, t.sequence = 0 ↔ t.id ∈ s.credits
  known : ∀ id ∈ s.credits, ∃ t ∈ s.spend.topups, t.id = id

/-- The eSIM whose row a call has locked. -/
def holdsEsim (t : SequenceThread) : Option Nat :=
  match t.call, t.pc with
  | .reserve a _, .locked => some a.esim.id
  | .reserve a _, .priced _ _ => some a.esim.id
  | .reserve a _, .numbered _ _ _ => some a.esim.id
  | .reserve a _, .inserted _ _ => some a.esim.id
  | _, _ => none

/-- The row a call has inserted. -/
def owns : SequencePc → Option Topup
  | .inserted _ u => some u
  | .credited u => some u
  | _ => none

/-- What a call relies on. -/
structure SequenceLocal (s : SequenceDb) (t : SequenceThread) : Prop where
  held : ∀ esim, holdsEsim t = some esim → s.held esim = true
  /-- Only who holds the lock has inserted a row with a number other than 0. -/
  bought : ∀ esim, holdsEsim t = some esim → ∀ u ∈ s.pending, u.esim = esim → u.sequence ≠ 0
    → owns t.pc = some u
  /-- The number that was read is still the next. -/
  number : ∀ a package amount id n, t.call = .reserve a package → t.pc = .numbered amount id n →
    IsNext s.spend a.esim.id n
  mine : ∀ u, owns t.pc = some u → u ∈ s.pending
  row : ∀ a package amount u, t.call = .reserve a package → t.pc = .inserted amount u →
    u.esim = a.esim.id ∧ IsNext s.spend u.esim u.sequence
  credit : ∀ u, t.pc = .credited u → u.sequence = 0

/-- Two calls hold different locks and have inserted different rows. -/
structure SequencesApart (t u : SequenceThread) : Prop where
  locks : ∀ esim, holdsEsim t = some esim → holdsEsim u ≠ some esim
  rows : ∀ r, owns t.pc = some r → owns u.pc ≠ some r

/-! ## What a step does -/

/-- A step of a call. -/
inductive SequenceMove (s : SequenceDb) : SequenceCall → SequencePc → SequenceDb → SequencePc → Prop
  /-- Nothing is written that is about numbers. -/
  | quiet {call : SequenceCall} {pc pc' : SequencePc} {s' : SequenceDb} :
      SameNumbers s.spend s'.spend →
      s'.held = s.held → s'.pending = s.pending → s'.credits = s.credits →
      holdsEsim ⟨call, pc⟩ = none → holdsEsim ⟨call, pc'⟩ = none → owns pc = none
        → owns pc' = none →
      SequenceMove s call pc s' pc'
  /-- The holder of a lock goes on. -/
  | reads {a : PurchaseArgs} {package : Airalo.TopupPackage} {pc pc' : SequencePc} :
      holdsEsim ⟨.reserve a package, pc⟩ = some a.esim.id
        → holdsEsim ⟨.reserve a package, pc'⟩ = some a.esim.id →
      owns pc = none → owns pc' = none →
      (∀ amount id n, pc' = .numbered amount id n → n = nextSequence s.spend a.esim.id) →
      SequenceMove s (.reserve a package) pc s pc'
  | locks {a : PurchaseArgs} {package : Airalo.TopupPackage} : s.held a.esim.id = false →
      SequenceMove s (.reserve a package) .unlocked (s.lock a.esim.id true) .locked
  /-- It gives the lock back, and has inserted nothing. -/
  | releases {a : PurchaseArgs} {package : Airalo.TopupPackage} {pc : SequencePc} {e : Exc} :
      holdsEsim ⟨.reserve a package, pc⟩ = some a.esim.id → owns pc = none →
      SequenceMove s (.reserve a package) pc (s.lock a.esim.id false) (.raised e)
  | inserts {a : PurchaseArgs} {package : Airalo.TopupPackage} {amount : PyDecimal} {id : Uuid}
      {n : Nat} {u : Topup} :
      (∀ t ∈ s.spend.topups, ¬ Constraint.clash t u) → (∀ t ∈ s.pending, ¬ Constraint.clash t u) →
      u.esim = a.esim.id → u.sequence = n →
      SequenceMove s (.reserve a package) (.numbered amount id n)
        { s with pending := u :: s.pending } (.inserted amount u)
  | rollsBack {a : PurchaseArgs} {package : Airalo.TopupPackage} {amount : PyDecimal}
      {u : Topup} {e : Exc} :
      SequenceMove s (.reserve a package) (.inserted amount u)
        ((s.drop u).lock a.esim.id false) (.raised e)
  | commits {a : PurchaseArgs} {package : Airalo.TopupPackage} {amount : PyDecimal} {u : Topup}
      (spend : SpendDb) :
      s.spend.topups.insert? u = some spend.topups →
      SequenceMove s (.reserve a package) (.inserted amount u)
        ({ s.drop u with spend }.lock a.esim.id false) (.reserved u)
  | credits {esim : Esim} {o : Order} {package : Package} {u : Topup} :
      (∀ t ∈ s.spend.topups, ¬ Constraint.clash t u) → (∀ t ∈ s.pending, ¬ Constraint.clash t u)
        → u.sequence = 0 →
      SequenceMove s (.credit esim o package) .missed { s with pending := u :: s.pending }
        (.credited u)
  | uncredits {esim : Esim} {o : Order} {package : Package} {u : Topup} {e : Exc} :
      SequenceMove s (.credit esim o package) (.credited u) (s.drop u) (.raised e)
  | commitsCredit {esim : Esim} {o : Order} {package : Package} {u : Topup} (spend : SpendDb) :
      s.spend.topups.insert? u = some spend.topups →
      SequenceMove s (.credit esim o package) (.credited u)
        { s.drop u with spend, credits := u.id :: s.credits } .done

section Moves

variable {c : SpendSettings} {s s' : SequenceDb} {call : SequenceCall} {pc pc' : SequencePc}
  {x : SequenceInput}

/-- A step that writes nothing, of a call that holds nothing. -/
theorem SequenceMove.idle (h : holdsEsim ⟨call, pc⟩ = none) (h' : holdsEsim ⟨call, pc'⟩ = none)
    (ho : owns pc = none) (ho' : owns pc' = none) : SequenceMove s call pc s pc' :=
  .quiet (.of_eq rfl) rfl rfl rfl h h' ho ho'

theorem insert_done (h : s.insert u = .done s') :
    (∀ t ∈ s.spend.topups, ¬ Constraint.clash t u) ∧ (∀ t ∈ s.pending, ¬ Constraint.clash t u)
      ∧ s' = { s with pending := u :: s.pending } := by
  unfold SequenceDb.insert at h
  split at h
  · cases h
  rename_i hcommitted
  split at h
  · cases h
  rename_i hpending
  cases h
  exact ⟨fun t ht hclash => hcommitted ⟨t, ht, hclash⟩,
    fun t ht hclash => hpending ⟨t, ht, hclash⟩, rfl⟩

theorem commit_some (h : s.commit u = some s') :
    ∃ topups, s.spend.topups.insert? u = some topups
      ∧ s' = { s.drop u with spend := { s.spend with topups } } := by
  obtain ⟨topups, hi, rfl⟩ := Option.map_eq_some_iff.1 h
  exact ⟨topups, hi, rfl⟩

theorem lockOwned_move (h : lockOwned s a = some (s', pc')) :
    SequenceMove s (.reserve a package) .unlocked s' pc' := by
  unfold lockOwned at h
  split at h
  · cases h
  rename_i hfree
  split at h
  · cases h
    exact .idle rfl rfl rfl rfl
  · split at h
    · cases h
      exact .idle rfl rfl rfl rfl
    · cases h
      exact .locks (Bool.eq_false_iff.2 hfree)

theorem insertNumbered_move {amount : PyDecimal} {id : Uuid}
    (h : insertNumbered s a package amount id n = some (s', pc')) :
    SequenceMove s (.reserve a package) (.numbered amount id n) s' pc' := by
  unfold insertNumbered at h
  split at h
  · cases h
    exact .releases rfl rfl
  · cases h
    exact .releases rfl rfl
  · split at h
    · rename_i hins
      cases h
      obtain ⟨hcommitted, hpending, rfl⟩ := insert_done hins
      exact .inserts hcommitted hpending rfl rfl
    · cases h
      exact .releases rfl rfl
    · cases h

theorem debitInserted_move {amount : PyDecimal} (h : debitInserted s a amount u = (s', pc')) :
    SequenceMove s (.reserve a package) (.inserted amount u) s' pc' := by
  unfold debitInserted at h
  split at h
  · cases h
    exact .rollsBack
  · rename_i books _
    split at h
    · cases h
      exact .rollsBack
    · rename_i s₁ hcommit
      cases h
      obtain ⟨topups, hi, rfl⟩ := commit_some hcommit
      exact .commits { s.spend with topups, books } hi

theorem reservePc_move (h : reservePc c s a package pc x = some (s', pc')) :
    SequenceMove s (.reserve a package) pc s' pc' := by
  unfold reservePc at h
  split at h
  · split at h <;> (cases h; exact .idle rfl rfl rfl rfl)
  · exact lockOwned_move h
  · split at h
    · cases h
      exact .releases rfl rfl
    · cases h
      exact .reads rfl rfl rfl rfl (fun _ _ _ hpc => nomatch hpc)
  · cases h
    refine .reads rfl rfl rfl rfl (fun amount id n hpc => ?_)
    cases hpc
    rfl
  · exact insertNumbered_move h
  · exact debitInserted_move (Option.some.inj h)
  · cases h
    exact .idle rfl rfl rfl rfl
  · cases h
    exact .idle rfl rfl rfl rfl
  · cases h
    exact .releases rfl rfl
  · cases h
    exact .releases rfl rfl
  · cases h
    exact .releases rfl rfl
  · cases h
    exact .rollsBack
  · cases h

theorem creditPc_move {esim : Esim} {o : Order} {package : Package}
    (h : creditPc s esim o package pc x = some (s', pc')) :
    SequenceMove s (.credit esim o package) pc s' pc' := by
  unfold creditPc at h
  split at h
  · split at h
    · cases h
      exact .idle rfl rfl rfl rfl
    · split at h <;> (cases h; exact .idle rfl rfl rfl rfl)
  · split at h
    · cases h
      exact .idle rfl rfl rfl rfl
    · split at h
      · rename_i hins
        cases h
        obtain ⟨hcommitted, hpending, rfl⟩ := insert_done hins
        exact .credits hcommitted hpending rfl
      · cases h
        exact .idle rfl rfl rfl rfl
      · cases h
  · split at h
    · cases h
      exact .uncredits
    · rename_i s₁ hcommit
      cases h
      obtain ⟨topups, hi, rfl⟩ := commit_some hcommit
      exact .commitsCredit { s.spend with topups } hi
  · cases h
    exact .idle rfl rfl rfl rfl
  · cases h
    exact .idle rfl rfl rfl rfl
  · cases h
    exact .uncredits
  · cases h

/-- **What a step of a call can do.** -/
theorem sequencePc_move (h : sequencePc c s call pc x = some (s', pc')) :
    SequenceMove s call pc s' pc' := by
  unfold sequencePc at h
  split at h
  · exact reservePc_move h
  · exact creditPc_move h
  · cases h
    exact .quiet (sameNumbers_settled rfl) rfl rfl rfl rfl rfl rfl rfl
  · cases h
    exact .quiet (.of_eq rfl) rfl rfl rfl rfl rfl rfl rfl
  · cases h

end Moves

/-! ## What a step keeps -/

theorem SameNumber.clash {t t' : Topup} (h : SameNumber t t') (hc : Constraint.clash t' u) :
    Constraint.clash t u := by
  rcases hc with hid | hkey | ⟨hesim, hsequence⟩
  · exact .inl (h.id.trans hid)
  · exact .inr (.inl (h.key.trans hkey))
  · exact .inr (.inr ⟨h.esim.trans hesim, h.sequence.trans hsequence⟩)

theorem clash_self (u : Topup) : Constraint.clash u u := .inl rfl

section Keeps

variable {s s' : SequenceDb} {call : SequenceCall} {pc pc' : SequencePc}

theorem mem_drop {v : Topup} : v ∈ (s.drop u).pending ↔ v ∈ s.pending ∧ v ≠ u := by
  show v ∈ s.pending.filter (· ≠ u) ↔ _
  rw [List.mem_filter, decide_eq_true_iff]

theorem SequencesInv.not_clash (h : SequencesInv s) {v : Topup} (hu : u ∈ s.pending)
    (hv : v ∈ s.pending) (hne : u ≠ v) : ¬ Constraint.clash u v := by
  have hsymm : Std.Symm fun u v : Topup => ¬ Constraint.clash u v :=
    ⟨fun _ _ huv hvu => huv (Constraint.symm hvu)⟩
  exact h.pairwise.forall hu hv hne

/-- Top-ups that are the same but for other columns. -/
theorem SequencesInv.same (h : SequencesInv s) (hsame : SameNumbers s.spend s'.spend)
    (hheld : s'.held = s.held) (hpending : s'.pending = s.pending)
    (hcredits : s'.credits = s.credits) : SequencesInv s' where
  segment t' ht' n hone hn := by
    obtain ⟨t, ht, hnumber⟩ := hsame.new t' ht'
    obtain ⟨u, hu, hesim, hsequence⟩ := h.segment t ht n hone (by rw [hnumber.sequence]; exact hn)
    obtain ⟨u', hu', hnumber'⟩ := hsame.old u hu
    refine ⟨u', hu', ?_, ?_⟩
    · rw [← hnumber'.esim, hesim, hnumber.esim]
    · rw [← hnumber'.sequence, hsequence]
  apart u hu t' ht' hclash := by
    obtain ⟨t, ht, hnumber⟩ := hsame.new t' ht'
    exact h.apart u (hpending ▸ hu) t ht (hnumber.clash hclash)
  pairwise := hpending ▸ h.pairwise
  locked u hu hpos := by
    rw [hheld]
    exact h.locked u (hpending ▸ hu) hpos
  zero t' ht' := by
    obtain ⟨t, ht, hnumber⟩ := hsame.new t' ht'
    rw [← hnumber.sequence, ← hnumber.id, hcredits]
    exact h.zero t ht
  known id hid := by
    obtain ⟨t, ht, rfl⟩ := h.known id (hcredits ▸ hid)
    obtain ⟨t', ht', hnumber⟩ := hsame.old t ht
    exact ⟨t', ht', hnumber.id.symm⟩

/-- A lock that no inserted row needs. -/
theorem SequencesInv.lock (h : SequencesInv s) {b : Bool}
    (hfree : b = false → ∀ u ∈ s.pending, u.esim = esim → u.sequence = 0) :
    SequencesInv (s.lock esim b) where
  segment := h.segment
  apart := h.apart
  pairwise := h.pairwise
  locked u hu hpos := by
    show Function.update s.held esim b u.esim = true
    by_cases hesim : u.esim = esim
    · rw [hesim, Function.update_self]
      cases b with
      | true => rfl
      | false => exact absurd (hfree rfl u hu hesim) hpos
    · rw [Function.update_of_ne hesim]
      exact h.locked u hu hpos
  zero := h.zero
  known := h.known

/-- A row is inserted, under the lock or with the number 0. -/
theorem SequencesInv.insert (h : SequencesInv s)
    (hcommitted : ∀ t ∈ s.spend.topups, ¬ Constraint.clash t u)
    (hpending : ∀ t ∈ s.pending, ¬ Constraint.clash t u)
    (hlock : u.sequence ≠ 0 → s.held u.esim = true) :
    SequencesInv { s with pending := u :: s.pending } where
  segment := h.segment
  apart v hv := by
    rcases List.mem_cons.1 hv with rfl | hold
    · exact hcommitted
    · exact h.apart v hold
  pairwise :=
    List.pairwise_cons.2 ⟨fun v hv hclash => hpending v hv (Constraint.symm hclash), h.pairwise⟩
  locked v hv hpos := by
    rcases List.mem_cons.1 hv with rfl | hold
    · exact hlock hpos
    · exact h.locked v hold hpos
  zero := h.zero
  known := h.known

/-- A row is taken back. -/
theorem SequencesInv.drop (h : SequencesInv s) (u : Topup) : SequencesInv (s.drop u) where
  segment := h.segment
  apart v hv := h.apart v (mem_drop.1 hv).1
  pairwise := h.pairwise.sublist List.filter_sublist
  locked v hv := h.locked v (mem_drop.1 hv).1
  zero := h.zero
  known := h.known

/-- A row is committed that is the next of its eSIM. -/
theorem SequencesInv.commit (h : SequencesInv s) {spend : SpendDb} (hmem : u ∈ s.pending)
    (hi : s.spend.topups.insert? u = some spend.topups) (hnext : IsNext s.spend u.esim u.sequence) :
    SequencesInv { s.drop u with spend } where
  segment t ht n hone hn := by
    have hold : ∀ t ∈ s.spend.topups, t.esim = u.esim ∨ True → n < t.sequence →
        ∃ t' ∈ spend.topups, t'.esim = t.esim ∧ t'.sequence = n := by
      intro t ht _ hn
      obtain ⟨t', ht', hesim, hsequence⟩ := h.segment t ht n hone hn
      exact ⟨t', (Table.mem_insert hi).2 (.inl ht'), hesim, hsequence⟩
    rcases (Table.mem_insert hi).1 ht with hbefore | rfl
    · exact hold t hbefore (.inr trivial) hn
    · -- the row before it is there, and those before that one are
      rcases hnext.next with hfirst | ⟨t', ht', hesim, hlast⟩
      · omega
      · by_cases heq : t'.sequence = n
        · exact ⟨t', (Table.mem_insert hi).2 (.inl ht'), hesim, heq⟩
        · obtain ⟨t'', ht'', hesim', hsequence⟩ := hold t' ht' (.inl hesim) (by omega)
          exact ⟨t'', ht'', hesim'.trans hesim, hsequence⟩
  apart v hv t ht hclash := by
    obtain ⟨hold, hne⟩ := mem_drop.1 hv
    rcases (Table.mem_insert hi).1 ht with hbefore | rfl
    · exact h.apart v hold t hbefore hclash
    · exact h.not_clash hmem hold (Ne.symm hne) hclash
  pairwise := h.pairwise.sublist List.filter_sublist
  locked v hv := h.locked v (mem_drop.1 hv).1
  zero t ht := by
    rcases (Table.mem_insert hi).1 ht with hbefore | rfl
    · exact h.zero t hbefore
    · constructor
      · intro hzero
        have hpos := hnext.pos
        omega
      · intro hcredit
        obtain ⟨t', ht', hid⟩ := h.known t.id hcredit
        exact absurd (.inl hid) (Table.apart_of_insert hi ht')
  known id hid := by
    obtain ⟨t, ht, rfl⟩ := h.known id hid
    exact ⟨t, (Table.mem_insert hi).2 (.inl ht), rfl⟩

/-- An initial credit is committed. -/
theorem SequencesInv.commitCredit (h : SequencesInv s) {spend : SpendDb} (hmem : u ∈ s.pending)
    (hi : s.spend.topups.insert? u = some spend.topups) (hzero : u.sequence = 0) :
    SequencesInv { s.drop u with spend, credits := u.id :: s.credits } where
  segment t ht n hone hn := by
    rcases (Table.mem_insert hi).1 ht with hbefore | rfl
    · obtain ⟨t', ht', hesim, hsequence⟩ := h.segment t hbefore n hone hn
      exact ⟨t', (Table.mem_insert hi).2 (.inl ht'), hesim, hsequence⟩
    · omega
  apart v hv t ht hclash := by
    obtain ⟨hold, hne⟩ := mem_drop.1 hv
    rcases (Table.mem_insert hi).1 ht with hbefore | rfl
    · exact h.apart v hold t hbefore hclash
    · exact h.not_clash hmem hold (Ne.symm hne) hclash
  pairwise := h.pairwise.sublist List.filter_sublist
  locked v hv := h.locked v (mem_drop.1 hv).1
  zero t ht := by
    rcases (Table.mem_insert hi).1 ht with hbefore | rfl
    · have hother : t.id ≠ u.id := fun hid => Table.apart_of_insert hi hbefore (.inl hid)
      rw [h.zero t hbefore]
      constructor
      · exact fun hcredit => List.mem_cons_of_mem _ hcredit
      · intro hcredit
        rcases List.mem_cons.1 hcredit with hid | hold
        · exact absurd hid hother
        · exact hold
    · exact ⟨fun _ => List.mem_cons_self, fun _ => hzero⟩
  known id hid := by
    rcases List.mem_cons.1 hid with rfl | hold
    · exact ⟨u, (Table.mem_insert hi).2 (.inr rfl), rfl⟩
    · obtain ⟨t, ht, rfl⟩ := h.known id hold
      exact ⟨t, (Table.mem_insert hi).2 (.inl ht), rfl⟩

/-- The holder of a lock that has inserted one row leaves no other. -/
theorem SequenceLocal.only (ht : SequenceLocal s t) (hholds : holdsEsim t = some esim)
    (howns : owns t.pc = some u) :
    ∀ v ∈ (s.drop u).pending, v.esim = esim → v.sequence = 0 := by
  intro v hv hesim
  obtain ⟨hold, hne⟩ := mem_drop.1 hv
  by_contra hpos
  have hmine := ht.bought esim hholds v hold hesim hpos
  rw [howns] at hmine
  exact hne (Option.some.inj hmine).symm

theorem SequencesInv.step (h : SequencesInv s) (ht : SequenceLocal s ⟨call, pc⟩)
    (hmove : SequenceMove s call pc s' pc') : SequencesInv s' := by
  cases hmove with
  | quiet hsame hheld hpending hcredits _ _ _ _ => exact h.same hsame hheld hpending hcredits
  | reads _ _ _ _ _ => exact h
  | locks _ => exact h.lock (fun hb => nomatch hb)
  | releases hholds howns =>
    refine h.lock fun _ u hu hesim => ?_
    by_contra hpos
    have hmine := ht.bought _ hholds u hu hesim hpos
    rw [show owns _ = none from howns] at hmine
    cases hmine
  | inserts hcommitted hpending hesim _ =>
    exact h.insert hcommitted hpending fun _ => hesim ▸ ht.held _ rfl
  | rollsBack => exact (h.drop _).lock fun _ => ht.only rfl rfl
  | commits spend hi =>
    obtain ⟨_, hnext⟩ := ht.row _ _ _ _ rfl rfl
    exact (h.commit (ht.mine _ rfl) hi hnext).lock fun _ => ht.only rfl rfl
  | credits hcommitted hpending hzero =>
      exact h.insert hcommitted hpending fun hpos => absurd hzero hpos
  | uncredits => exact h.drop _
  | commitsCredit spend hi => exact h.commitCredit (ht.mine _ rfl) hi (ht.credit _ rfl)

/-! ## What a step keeps of the calls -/

theorem SequenceLocal.nothing (hholds : holdsEsim t = none) (howns : owns t.pc = none) :
    SequenceLocal s t where
  held esim hesim := by
    rw [hholds] at hesim
    cases hesim
  bought esim hesim := by
    rw [hholds] at hesim
    cases hesim
  number a package amount id n hcall hpc := by
    have hesim : holdsEsim t = some a.esim.id := by
      unfold holdsEsim
      rw [hcall, hpc]
    rw [hholds] at hesim
    cases hesim
  mine u hu := by
    rw [howns] at hu
    cases hu
  row a package amount u _ hpc := by
    rw [hpc] at howns
    cases howns
  credit u hpc := by
    rw [hpc] at howns
    cases howns

/-- A call after its own step. -/
theorem SequenceLocal.step (h : SequencesInv s) (ht : SequenceLocal s ⟨call, pc⟩)
    (hmove : SequenceMove s call pc s' pc') : SequenceLocal s' ⟨call, pc'⟩ := by
  cases hmove with
  | quiet _ _ _ _ _ hholds _ howns => exact .nothing hholds howns
  | @reads a package _ _ hholds hholds' howns howns' hnumber =>
    refine ⟨?_, ?_, ?_, ?_, ?_, ?_⟩
    · intro esim hesim
      rw [hholds'] at hesim
      exact ht.held esim (hholds.trans hesim)
    · intro esim hesim u hu hu' hpos
      rw [hholds'] at hesim
      have hmine := ht.bought esim (hholds.trans hesim) u hu hu' hpos
      rw [show owns _ = none from howns] at hmine
      cases hmine
    · intro a' package' amount id n hcall hpc
      cases hcall
      rw [hnumber amount id n hpc]
      exact isNext_nextSequence s.spend a.esim.id
    · intro u hu
      rw [show owns _ = none from howns'] at hu
      cases hu
    · intro _ _ amount u _ hpc
      have hpc' : pc' = .inserted amount u := hpc
      rw [hpc'] at howns'
      cases howns'
    · intro u hpc
      have hpc' : pc' = .credited u := hpc
      rw [hpc'] at howns'
      cases howns'
  | @locks a package hfree =>
    refine ⟨?_, ?_, fun _ _ _ _ _ _ hpc => (nomatch hpc), fun _ hu => (nomatch hu),
      fun _ _ _ _ _ hpc => (nomatch hpc),
      fun _ hpc => (nomatch hpc)⟩
    · intro esim hesim
      obtain rfl := Option.some.inj hesim
      exact Function.update_self _ _ _
    · intro esim hesim u hu hu' hpos
      obtain rfl := Option.some.inj hesim
      -- the lock was free, and who inserts such a row holds it
      have hheld := h.locked u hu hpos
      rw [hu', hfree] at hheld
      cases hheld
  | releases _ _ => exact .nothing rfl rfl
  | @inserts a package amount id n u _ _ hesim hsequence =>
    refine ⟨fun esim hholds => ht.held esim hholds, ?_,
      fun _ _ _ _ _ _ hpc => (nomatch hpc), ?_, ?_,
      fun _ hpc => (nomatch hpc)⟩
    · intro esim hholds v hv hv' hpos
      rcases List.mem_cons.1 hv with rfl | hold
      · rfl
      · exact nomatch ht.bought esim hholds v hold hv' hpos
    · intro v hv
      obtain rfl := Option.some.inj hv
      exact List.mem_cons_self
    · intro _ _ _ v hcall hpc
      cases hcall
      cases hpc
      refine ⟨hesim, ?_⟩
      rw [hesim, hsequence]
      exact ht.number a package amount id n rfl rfl
  | rollsBack => exact .nothing rfl rfl
  | commits _ _ => exact .nothing rfl rfl
  | @credits esim o package u _ _ hzero =>
    refine ⟨fun _ hholds => (nomatch hholds), fun _ hholds => (nomatch hholds),
      fun _ _ _ _ _ hcall => (nomatch hcall), ?_, fun _ _ _ _ hcall => (nomatch hcall), ?_⟩
    · intro v hv
      obtain rfl := Option.some.inj hv
      exact List.mem_cons_self
    · intro v hpc
      cases hpc
      exact hzero
  | uncredits => exact .nothing rfl rfl
  | commitsCredit _ _ => exact .nothing rfl rfl

/-- The locks, the inserted rows and the numbers, as another call sees a step. -/
theorem SequenceLocal.keep (hv : SequenceLocal s v)
    (hheld : ∀ esim, holdsEsim v = some esim → s.held esim = true → s'.held esim = true)
    (hpending : ∀ u ∈ s'.pending, u ∈ s.pending ∨ ∀ esim, holdsEsim v = some esim → u.esim = esim
      → u.sequence = 0)
    (hmine : ∀ u, owns v.pc = some u → u ∈ s.pending → u ∈ s'.pending)
    (hnext : ∀ esim n, holdsEsim v = some esim → IsNext s.spend esim n → IsNext s'.spend esim n) :
    SequenceLocal s' v where
  held esim hholds := hheld esim hholds (hv.held esim hholds)
  bought esim hholds u hu hesim hpos := by
    rcases hpending u hu with hold | hother
    · exact hv.bought esim hholds u hold hesim hpos
    · exact absurd (hother esim hholds hesim) hpos
  number a package amount id n hcall hpc := by
    have hholds : holdsEsim v = some a.esim.id := by
      unfold holdsEsim
      rw [hcall, hpc]
    exact hnext _ n hholds (hv.number a package amount id n hcall hpc)
  mine u hu := hmine u hu (hv.mine u hu)
  row a package amount u hcall hpc := by
    obtain ⟨hesim, hn⟩ := hv.row a package amount u hcall hpc
    have hholds : holdsEsim v = some u.esim := by
      unfold holdsEsim
      rw [hcall, hpc, hesim]
    exact ⟨hesim, hnext _ _ hholds hn⟩
  credit := hv.credit

/-- A call after the step of another. -/
theorem SequenceLocal.frame (ht : SequenceLocal s ⟨call, pc⟩)
    (hmove : SequenceMove s call pc s' pc') (hv : SequenceLocal s v)
    (happart : SequencesApart ⟨call, pc⟩ v) :
    SequenceLocal s' v := by
  -- the lock of another eSIM is as it was
  have hother : ∀ {e : Nat} {b : Bool} {s₁ : SequenceDb}, s₁.held = s.held
    → holdsEsim ⟨call, pc⟩ = some e →
      ∀ esim, holdsEsim v = some esim → s.held esim = true → (s₁.lock e b).held esim = true := by
    intro e b s₁ hsame hholds esim hholdsv hheld
    have hne : esim ≠ e := by
      rintro rfl
      exact happart.locks esim hholds hholdsv
    show Function.update s₁.held e b esim = true
    rw [Function.update_of_ne hne, hsame]
    exact hheld
  -- the row of another call is not the one that goes
  have hrow : ∀ {u : Topup}, owns pc = some u → ∀ w, owns v.pc = some w → w ∈ s.pending
      → w ∈ (s.drop u).pending := by
    intro u howns w hw hmem
    refine mem_drop.2 ⟨hmem, ?_⟩
    rintro rfl
    exact happart.rows w howns hw
  cases hmove with
  | quiet hsame hheld hpending _ _ _ _ _ =>
    exact hv.keep (fun _ _ h => by rw [hheld]; exact h) (fun u hu => .inl (hpending ▸ hu))
      (fun u _ hu => by rw [hpending]; exact hu) (fun _ _ _ hn => hn.same hsame)
  | reads _ _ _ _ _ => exact hv
  | @locks a package hfree =>
    refine hv.keep (fun esim _ hheld => ?_) (fun u hu => .inl hu) (fun _ _ hu => hu)
      (fun _ _ _ hn => hn)
    show Function.update s.held a.esim.id true esim = true
    by_cases hesim : esim = a.esim.id
    · rw [hesim, Function.update_self]
    · rw [Function.update_of_ne hesim]
      exact hheld
  | releases hholds _ =>
    exact hv.keep (hother rfl hholds) (fun u hu => .inl hu) (fun _ _ hu => hu) (fun _ _ _ hn => hn)
  | @inserts a package amount id n u _ _ hesim _ =>
    refine hv.keep (fun _ _ h => h) (fun w hw => ?_) (fun _ _ hu => List.mem_cons_of_mem _ hu)
      (fun _ _ _ hn => hn)
    rcases List.mem_cons.1 hw with rfl | hold
    · refine .inr fun esim hholds hw' => ?_
      rw [← hw', hesim] at hholds
      exact absurd hholds (happart.locks _ rfl)
    · exact .inl hold
  | rollsBack =>
    exact hv.keep (hother rfl rfl) (fun u hu => .inl (mem_drop.1 hu).1) (hrow rfl)
      (fun _ _ _ hn => hn)
  | @commits a package amount u spend hi =>
    refine hv.keep (hother rfl rfl) (fun u hu => .inl (mem_drop.1 hu).1) (hrow rfl)
      (fun esim n hholds hn => ?_)
    refine hn.insert hi fun hesim => ?_
    obtain ⟨hown, _⟩ := ht.row a package amount u rfl rfl
    rw [← hesim, hown] at hholds
    exact absurd hholds (happart.locks _ rfl)
  | @credits esim o package u _ _ hzero =>
    refine hv.keep (fun _ _ h => h) (fun w hw => ?_) (fun _ _ hu => List.mem_cons_of_mem _ hu)
      (fun _ _ _ hn => hn)
    rcases List.mem_cons.1 hw with rfl | hold
    · exact .inr fun _ _ _ => hzero
    · exact .inl hold
  | uncredits =>
    exact hv.keep (fun _ _ h => h) (fun u hu => .inl (mem_drop.1 hu).1) (hrow rfl)
      (fun _ _ _ hn => hn)
  | commitsCredit spend hi =>
    exact hv.keep (fun _ _ h => h) (fun u hu => .inl (mem_drop.1 hu).1) (hrow rfl)
      (fun _ _ _ hn => hn.insert hi fun _ => ht.credit _ rfl)

theorem SequencesApart.nothing (hholds : holdsEsim t = none) (howns : owns t.pc = none) :
    SequencesApart t v where
  locks esim hesim := by
    rw [hholds] at hesim
    cases hesim
  rows r hr := by
    rw [howns] at hr
    cases hr

/-- What a step newly holds or has inserted, no other call has. -/
theorem SequencesApart.step (hmove : SequenceMove s call pc s' pc') (hv : SequenceLocal s v)
    (happart : SequencesApart ⟨call, pc⟩ v) : SequencesApart ⟨call, pc'⟩ v := by
  have hfresh : ∀ {u : Topup}, (∀ t ∈ s.pending, ¬ Constraint.clash t u) → ∀ w, u = w
      → owns v.pc ≠ some w := by
    rintro u hpending w rfl howns
    exact hpending u (hv.mine u howns) (clash_self u)
  cases hmove with
  | quiet _ _ _ _ _ hholds _ howns => exact .nothing hholds howns
  | reads hholds hholds' _ howns' _ =>
    refine ⟨fun esim hesim => ?_, fun r hr => ?_⟩
    · rw [hholds'] at hesim
      exact happart.locks esim (hholds.trans hesim)
    · rw [show owns _ = none from howns'] at hr
      cases hr
  | locks hfree =>
    refine ⟨fun esim hesim hholds => ?_, fun r hr => (nomatch hr)⟩
    obtain rfl := Option.some.inj hesim
    have hheld := hv.held _ hholds
    rw [hfree] at hheld
    cases hheld
  | releases _ _ => exact .nothing rfl rfl
  | inserts _ hpending _ _ =>
    exact ⟨fun esim hesim => happart.locks esim hesim,
      fun r hr => hfresh hpending r (Option.some.inj hr)⟩
  | rollsBack => exact .nothing rfl rfl
  | commits _ _ => exact .nothing rfl rfl
  | credits _ hpending _ =>
      exact ⟨fun esim hesim => (nomatch hesim), fun r hr => hfresh hpending r (Option.some.inj hr)⟩
  | uncredits => exact .nothing rfl rfl
  | commitsCredit _ _ => exact .nothing rfl rfl

end Keeps

/-! ## Every run -/

/-- Nobody has topped up, and no transaction is under way. -/
def NoTopups (s : SequenceDb) : Prop :=
  s.spend.topups.rows = [] ∧ s.pending = [] ∧ s.credits = [] ∧ ∀ esim, s.held esim = false

theorem holdsEsim_start (c : SpendSettings) (k : SequenceCall) :
    holdsEsim ((sequenceProgram c).start k) = none := by
  cases k <;> rfl

theorem sequences_invariant (c : SpendSettings) :
    Invariant (sequenceProgram c) NoTopups
      (fun _ _ _ => True) SequencesInv SequenceLocal SequencesApart where
  init {s} h := by
    obtain ⟨hrows, hpending, hcredits, _⟩ := h
    have hnone : ∀ t, t ∉ s.spend.topups := by
      intro t ht
      have hmem : t ∈ s.spend.topups.rows := ht
      rw [hrows] at hmem
      cases hmem
    refine ⟨fun t ht => absurd ht (hnone t), ?_, ?_, ?_, fun t ht => absurd ht (hnone t), ?_⟩
    · rw [hpending]
      exact fun u hu => absurd hu List.not_mem_nil
    · rw [hpending]
      exact .nil
    · rw [hpending]
      exact fun u hu => absurd hu List.not_mem_nil
    · rw [hcredits]
      exact fun id hid => absurd hid List.not_mem_nil
  start k _ := .nothing (holdsEsim_start c k) rfl
  apart_start k t := .nothing (holdsEsim_start c k) rfl
  symm {t u} h := ⟨fun esim hu ht => h.locks esim ht hu, fun r hu ht => h.rows r ht hu⟩
  step {s t x s' t'} hs ht _ h := by
    obtain ⟨⟨s₁, pc'⟩, hpc, heq⟩ := Option.map_eq_some_iff.1 h
    cases heq
    have hmove := sequencePc_move hpc
    exact ⟨hs.step ht hmove, ht.step hs hmove⟩
  frame {s t x s' t' u} _ ht _ h hu happart := by
    obtain ⟨⟨s₁, pc'⟩, hpc, heq⟩ := Option.map_eq_some_iff.1 h
    cases heq
    have hmove := sequencePc_move hpc
    exact ⟨ht.frame hmove hu happart, happart.step hmove hu⟩

/-- The top-ups of an eSIM are numbered from 1 on, and its initial credit has the number 0. -/
structure Numbered (s : SequenceDb) (esim : Nat) : Prop where
  distinct : ∀ t ∈ s.spend.topups, ∀ t' ∈ s.spend.topups, t.esim = esim → t'.esim = esim →
    t.sequence = t'.sequence → t = t'
  segment : ∃ k, ∀ n, 1 ≤ n → ((∃ t ∈ s.spend.topups, t.esim = esim ∧ t.sequence = n) ↔ n ≤ k)
  zero : ∀ t ∈ s.spend.topups, t.esim = esim → (t.sequence = 0 ↔ t.id ∈ s.credits)

theorem SequencesInv.numbered {s : SequenceDb} (h : SequencesInv s)
    (esim : Nat) : Numbered s esim where
  distinct t ht t' ht' hesim hesim' hsequence :=
    Table.eq_of_clash ht ht' (.inr (.inr ⟨hesim.trans hesim'.symm, hsequence⟩))
  segment := by
    have hnext := isNext_nextSequence s.spend esim
    refine ⟨nextSequence s.spend esim - 1, fun n hone => ⟨?_, fun hle => ?_⟩⟩
    · rintro ⟨t, ht, hesim, rfl⟩
      have hlt := hnext.above t ht hesim
      omega
    · rcases hnext.next with hfirst | ⟨t, ht, hesim, hlast⟩
      · omega
      · by_cases heq : t.sequence = n
        · exact ⟨t, ht, hesim, heq⟩
        · obtain ⟨t', ht', hesim', hsequence⟩ := h.segment t ht n hone (by omega)
          exact ⟨t', ht', hesim'.trans hesim, hsequence⟩
  zero t ht _ := h.zero t ht

/--
**Top-ups are numbered without gaps.**

However reservations and initial credits are interleaved, rolled back and waited for: the
numbers of an eSIM's top-ups are different ones, those above 0 are all up to some number, and
0 is that of an initial credit. The number a reservation is about to insert is no other row's,
committed or not, and the row it has inserted can be committed.
-/
theorem topups_numbered (c : SpendSettings) {g : Config SequenceDb SequenceThread}
    (h : (sequenceProgram c).Reach NoTopups g) :
    (∀ esim, Numbered g.store esim)
      ∧ (∀ p a package amount id n, g.threads p = some ⟨.reserve a package, .numbered amount id n⟩ →
        ∀ t, t ∈ g.store.spend.topups ∨ t ∈ g.store.pending → t.esim = a.esim.id → t.sequence ≠ n)
      ∧ ∀ p a package amount u, g.threads p = some ⟨.reserve a package, .inserted amount u⟩ →
        (g.store.commit u).isSome = true := by
  have hinv := (sequences_invariant c).reach h
  refine ⟨fun esim => hinv.store.numbered esim, ?_, ?_⟩
  · intro p a package amount id n ht t hmem hesim heq
    have hlocal := hinv.thread p _ ht
    have hnext := hlocal.number a package amount id n rfl rfl
    rcases hmem with hcommitted | hpending
    · have hlt := hnext.above t hcommitted hesim
      omega
    · have hpos : t.sequence ≠ 0 := by
        have hone := hnext.pos
        omega
      exact nomatch hlocal.bought a.esim.id rfl t hpending hesim hpos
  · intro p a package amount u ht
    have hmine := (hinv.thread p _ ht).mine u rfl
    unfold SequenceDb.commit
    rw [Option.isSome_map]
    cases hi : g.store.spend.topups.insert? u with
    | some topups => rfl
    | none =>
      obtain ⟨t, ht', hclash⟩ := Table.clash_of_insert_none hi
      exact absurd hclash (hinv.store.apart u hmine t ht')

/-- Bob's account has money, and his eSIM no top-ups. -/
def unnumbered : SequenceDb := ⟨twoFunded, fun _ => false, [], []⟩

theorem noTopups_unnumbered : NoTopups unnumbered := ⟨rfl, rfl, rfl, fun _ => rfl⟩

/-- The primary key of a third top-up. -/
def thirdTopup : Uuid := ⟨"00000000-0000-4000-8000-0000000000f3", by decide⟩

/-- The order of Bob's eSIM. -/
def numberedOrder : Order :=
    ⟨1, bob, .fulfilled, "8001", "", none, "pkg", 2500, 2500, none, 0, false⟩

/-- The initial credit is inserted while a top-up has read the highest number; another top-up
follows. -/
def toppedUpTwice : List (Act SequenceCall SequenceInput) :=
  [.call 0 (.reserve topupTeam halfCentTopup), .tick 0 .go, .tick 0 .go, .tick 0 (.draw alice none),
    .tick 0 .go,
    .call 1 (.credit topupTeam.esim numberedOrder ⟨"pkg", 2500, none⟩), .tick 1 .go,
      .tick 1 (.draw bob none),
    .tick 0 .go, .tick 1 .go, .tick 0 .go,
    .call 2 (.reserve { topupTeam with idempotencyKey := "key2" } halfCentTopup), .tick 2 .go,
      .tick 2 .go,
    .tick 2 (.draw thirdTopup none), .tick 2 .go, .tick 2 .go, .tick 2 .go]

theorem topups_numbered_twice : ∃ g : Config SequenceDb SequenceThread,
    g.store.spend.topups.rows.map Topup.sequence = [0, 1, 2] ∧ ∀ esim, Numbered g.store esim := by
  obtain ⟨g, hr, hf⟩ := Program.run_check (sequenceProgram spendSettings) unnumbered toppedUpTwice
    (fun g => decide (g.store.spend.topups.rows.map Topup.sequence = [0, 1, 2])) (by decide)
  have hreach : (sequenceProgram spendSettings).Reach NoTopups g :=
    Program.reach_run noTopups_unnumbered hr
  exact ⟨g, of_decide_eq_true hf, (topups_numbered spendSettings hreach).1⟩

end Roamkit.Spend.Proof
