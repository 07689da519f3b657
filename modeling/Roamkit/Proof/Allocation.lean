import Roamkit.Proof.Credit
import Roamkit.Wallet.Allocation

/-!
# Which indices are given out

`_next_derivation_index` looks at the rows that are stored, and a row goes with the account
it belongs to. So what a run has given out is kept in a record. As long as the highest row
stays, and the rows whose index a transaction in progress has computed, an index that is
given out is in no earlier row of the record.
-/

namespace Roamkit.Wallet.Proof

open Lib Billing Billing.Proof

variable {c : HdSettings} {s s' : AllocationDb} {t t' : AllocationThread} {x : AllocationInput}

/-! ## What a step does to the addresses and to the transactions in progress -/

/-- The kinds of step. -/
inductive AllocationMove (c : HdSettings) (s : AllocationDb) (t : AllocationThread)
    (x : AllocationInput) (s' : AllocationDb) (t' : AllocationThread) : Prop
  | quiet : s'.addresses = s.addresses → s'.holds = s.holds → t.pc.holding = none
      → t'.pc.holding = none →
      AllocationMove c s t x s' t'
  | locks (left : Nat) (identity : WalletIdentity) (fresh : Bool) : s'.addresses = s.addresses →
      s.isHeld identity.account = false → s'.holds = ⟨identity.account, none⟩ :: s.holds
        → t.pc.holding = none →
      t'.pc = .held left identity fresh → AllocationMove c s t x s' t'
  | looks (left : Nat) (identity : WalletIdentity) (fresh : Bool) (retires : Option Uuid) : s' = s →
      t.pc = .held left identity fresh → t'.pc = .counting left identity fresh retires →
      AllocationMove c s t x s' t'
  | counts (left : Nat) (identity : WalletIdentity) (fresh : Bool) (retires : Option Uuid)
      (address : String) :
      s' = s.compute identity.account s.nextDerivationIndex → t.pc.holding = some identity.account →
      t'.pc = .inserting left identity fresh retires s.nextDerivationIndex address →
      c.deriveEvmAddress s.nextDerivationIndex = .ok address → AllocationMove c s t x s' t'
  | ends (account : Uuid) : s'.addresses = s.addresses → s'.holds = (s.release account).holds →
      t.pc.holding = some account → t'.pc.holding = none →
      (∀ r, noteAllocation s t x s' t' r = r) → AllocationMove c s t x s' t'
  | inserts (left : Nat) (identity : WalletIdentity) (fresh : Bool) (retires : Option Uuid)
      (a : WalletAddress) :
      t.pc = .inserting left identity fresh retires a.derivationIndex a.address →
      (s.retire retires).addresses.insert? a = some s'.addresses →
      s'.holds = (s.release identity.account).holds → t'.pc = .returned a
        → AllocationMove c s t x s' t'
  | deletes : x = .go → s.refuses t.call = false → s'.addresses = (s.cascade t.call).addresses →
      s'.holds = s.holds → t.pc.holding = none → t'.pc.holding = none → AllocationMove c s t x s' t'

variable {identity : WalletIdentity} {fresh : Bool} {retires : Option Uuid} {a : WalletAddress}
  {account : Uuid} {index left : Nat} {pc : AllocationPc} {h : Hold} {record : List WalletAddress}

theorem withIdentity_addresses (h : s.withIdentity identity fresh = .ok s') :
    s'.addresses = s.addresses ∧ s'.holds = s.holds := by
  unfold AllocationDb.withIdentity at h
  split at h
  · cases h
    exact ⟨rfl, rfl⟩
  · split at h
    · cases h
    split at h
    · cases h
    · cases h
      exact ⟨rfl, rfl⟩

theorem insertAddress_cases (h : s.insertAddress identity fresh retires a = .ok s') :
    (s.retire retires).addresses.insert? a = some s'.addresses ∧ s'.holds = s.holds := by
  unfold AllocationDb.insertAddress at h
  split at h
  · cases h
  obtain ⟨s₁, hidentity, h⟩ := bind_ok h
  obtain ⟨haddresses, hholds⟩ := withIdentity_addresses hidentity
  split at h
  · cases h
  rename_i addresses hi
  cases h
  refine ⟨?_, hholds⟩
  have hretire : (s₁.retire retires).addresses = (s.retire retires).addresses := by
    unfold AllocationDb.retire
    cases retires with
    | none => exact haddresses
    | some id =>
      dsimp only
      rw [haddresses]
  rw [← hretire]
  exact hi

theorem note_other (h : t.pc.holding = none) (record : List WalletAddress) :
    noteAllocation s t x s' t' record = record := by
  unfold noteAllocation
  split
  · rename_i hpc _
    rw [hpc] at h
    cases h
  · rfl

theorem note_unreturned (h : ∀ a, t'.pc ≠ .returned a) (record : List WalletAddress) :
    noteAllocation s t x s' t' record = record := by
  unfold noteAllocation
  split
  · rename_i a _ hpc
    exact absurd hpc (h a)
  · rfl

theorem seek_holding (account : Uuid) (left : Nat) : (s.seek account left).holding = none := by
  unfold AllocationDb.seek
  split <;> rfl

/-- What a call does after an attempt was lost. -/
theorem again_pc (left : Nat) :
    (t.again left).pc.holding = none ∧ ∀ a, (t.again left).pc ≠ .returned a := by
  cases left with
  | zero => exact ⟨rfl, fun a h => nomatch h⟩
  | succ left => exact ⟨rfl, fun a h => nomatch h⟩

/-- A transaction ends without a new address. -/
theorem move_ends (haddresses : s'.addresses = s.addresses)
    (hholds : s'.holds = (s.release account).holds) (ht : t.pc.holding = some account)
    (ht' : t'.pc.holding = none) (hreturned : ∀ a, t'.pc ≠ .returned a) :
    AllocationMove c s t x s' t' :=
  .ends account haddresses hholds ht ht' (note_unreturned hreturned)

theorem create_move {id : Uuid} (ht : t.pc.holding = none)
    (h : s.create account left id = some (s', pc)) :
    AllocationMove c s t x s' (t.at pc) := by
  unfold AllocationDb.create at h
  split at h
  · split at h
    · cases h
      exact .quiet rfl rfl ht rfl
    · cases h
      exact .quiet rfl rfl ht rfl
  · split at h
    · cases h
    rename_i hfree
    cases h
    exact .locks left ⟨id, account⟩ true rfl (Bool.not_eq_true _ ▸ hfree) rfl ht rfl

theorem lock_move {id : Uuid} (ht : t.pc.holding = none) (h : s.lock left id = some (s', pc)) :
    AllocationMove c s t x s' (t.at pc) := by
  unfold AllocationDb.lock at h
  split at h
  · cases h
    exact .quiet rfl rfl ht rfl
  · rename_i identity _
    split at h
    · cases h
    rename_i hfree
    cases h
    exact .locks left identity false rfl (Bool.not_eq_true _ ▸ hfree) rfl ht rfl

theorem delete_move {blocked : Bool} (ht : t.pc.holding = none) (hx : blocked = false → x = .go)
    (h : s.delete t.call blocked = some (s', pc)) :
    AllocationMove c s t x s' (t.at pc) := by
  unfold AllocationDb.delete at h
  split at h
  · cases h
  split at h
  · cases h
    exact .quiet rfl rfl ht rfl
  · rename_i hblocked
    split at h
    · cases h
      exact .quiet rfl rfl ht rfl
    · rename_i hrefuses
      cases h
      exact .deletes (hx (Bool.not_eq_true _ ▸ hblocked))
        (Bool.not_eq_true _ ▸ hrefuses) rfl rfl ht rfl

theorem begin_move (ht : t.pc.holding = none) (hx : x = .go)
    (h : beginAllocation s t = some (s', t')) :
    AllocationMove c s t x s' t' := by
  unfold beginAllocation at h
  split at h
  · cases h
    exact .quiet rfl rfl ht (seek_holding _ _)
  · cases h
    exact .quiet rfl rfl ht (seek_holding _ _)
  · split at h
    · cases h
      exact .quiet rfl rfl ht rfl
    · cases h
      exact .quiet rfl rfl ht rfl
  · split at h
    · cases h
      exact .quiet rfl rfl ht rfl
    · cases h
      exact .quiet rfl rfl ht rfl
  · obtain ⟨⟨s₁, pc⟩, hdelete, heq⟩ := Option.map_eq_some_iff.1 h
    cases heq
    exact delete_move ht (fun _ => hx) hdelete
  · obtain ⟨⟨s₁, pc⟩, hdelete, heq⟩ := Option.map_eq_some_iff.1 h
    cases heq
    exact delete_move ht (fun _ => hx) hdelete

theorem lookUp_move {target : Uuid × String} (hcall : t.call.target = some target)
    (ht : t.pc = .held left identity fresh) (h : lookUpActive s t left identity fresh = (s', t')) :
    AllocationMove c s t x s' t' := by
  have hholding : t.pc.holding = some identity.account := by
    rw [ht]
    rfl
  unfold lookUpActive at h
  split at h
  · split at h
    · cases h
      exact move_ends rfl rfl hholding rfl fun a hc => nomatch hc
    · cases h
      exact .looks left identity fresh _ rfl ht rfl
  · split at h
    · cases h
      exact .looks left identity fresh _ rfl ht rfl
    · rename_i a _
      split at h
      · cases h
        exact move_ends rfl rfl hholding (again_pc left).1 (again_pc left).2
      · rename_i s₁ hidentity
        obtain ⟨haddresses, hholds⟩ := withIdentity_addresses hidentity
        cases h
        refine .ends identity.account haddresses ?_ hholding rfl ?_
        · unfold AllocationDb.release
          rw [hholds]
        · intro r
          unfold noteAllocation
          rw [ht]
  · rename_i hother hother'
    cases hc : t.call with
    | ensure account chain => exact absurd hc (hother' account chain)
    | rotate account chain => exact absurd hc (hother account chain)
    | openAccount account => rw [hc] at hcall; cases hcall
    | deleteAccount account => rw [hc] at hcall; cases hcall
    | deleteUser user => rw [hc] at hcall; cases hcall
    | observe address => rw [hc] at hcall; cases hcall

/-- **What a step of the service can do.** -/
theorem allocation_move (h : allocationStep c s t x = some (s', t')) :
    AllocationMove c s t x s' t' := by
  unfold allocationStep at h
  split at h
  · split at h
    · cases hholding : t.pc.holding with
      | none =>
        rw [hholding] at h
        cases h
        exact .quiet rfl rfl hholding rfl
      | some account =>
        rw [hholding] at h
        cases h
        exact move_ends rfl rfl hholding rfl fun a hc => nomatch hc
    · cases h
  · rename_i hpc
    exact begin_move (by rw [hpc]; rfl) rfl h
  · rename_i hpc
    split at h
    · obtain ⟨⟨s₁, pc⟩, hdelete, heq⟩ := Option.map_eq_some_iff.1 h
      cases heq
      exact delete_move (by rw [hpc]; rfl) (by intro hc; cases hc) hdelete
    · cases h
  · rename_i hpc _
    cases h
    exact .quiet rfl rfl (by rw [hpc]; rfl) (seek_holding _ _)
  · rename_i hpc _
    obtain ⟨⟨s₁, pc⟩, hcreate, heq⟩ := Option.map_eq_some_iff.1 h
    cases heq
    exact create_move (by rw [hpc]; rfl) hcreate
  · rename_i hpc _
    obtain ⟨⟨s₁, pc⟩, hlock, heq⟩ := Option.map_eq_some_iff.1 h
    cases heq
    exact lock_move (by rw [hpc]; rfl) hlock
  · rename_i hpc htarget
    exact lookUp_move htarget hpc (Option.some.inj h)
  · rename_i left identity fresh retires _ hpc _
    have hholding : t.pc.holding = some identity.account := by
      rw [hpc]
      rfl
    unfold count at h
    cases hderive : c.deriveEvmAddress s.nextDerivationIndex with
    | error e =>
      rw [hderive] at h
      cases h
      exact move_ends rfl rfl hholding rfl fun a hc => nomatch hc
    | ok address =>
      rw [hderive] at h
      cases h
      exact .counts left identity fresh retires address rfl hholding rfl hderive
  · rename_i left identity fresh retires index address _ chain id now hpc _
    have hholding : t.pc.holding = some identity.account := by
      rw [hpc]
      rfl
    unfold allocateNew at h
    split at h
    · rename_i s₁ hinsert
      obtain ⟨hi, hholds⟩ := insertAddress_cases hinsert
      cases h
      refine .inserts left identity fresh retires _ hpc hi ?_ rfl
      unfold AllocationDb.release
      rw [hholds]
    · cases h
      exact move_ends rfl rfl hholding (again_pc left).1 (again_pc left).2
    · cases h
      exact move_ends rfl rfl hholding rfl fun a hc => nomatch hc
  · cases h

/-! ## The highest index -/

theorem topIndex_le {n : Nat} (h : s.topIndex = some n) :
    ∀ a ∈ s.addresses, a.derivationIndex ≤ n := by
  intro a ha
  have hle := (List.max?_eq_some_iff.1 h).2
  exact hle _ (List.mem_map.2 ⟨a, ha, rfl⟩)

theorem topIndex_mem {n : Nat} (h : s.topIndex = some n) :
    ∃ a ∈ s.addresses, a.derivationIndex = n :=
  List.mem_map.1 (List.max?_eq_some_iff.1 h).1

theorem topIndex_some (ha : a ∈ s.addresses) : ∃ n, s.topIndex = some n := by
  cases htop : s.topIndex with
  | none =>
    have hnil := List.max?_eq_none_iff.1 htop
    have hmem : a.derivationIndex ∈ s.addresses.rows.map (·.derivationIndex) :=
      List.mem_map.2 ⟨a, ha, rfl⟩
    rw [hnil] at hmem
    cases hmem
  | some n => exact ⟨n, rfl⟩

/-- The next index is beyond every one that is stored. -/
theorem lt_next (ha : a ∈ s.addresses) : a.derivationIndex < s.nextDerivationIndex := by
  obtain ⟨n, htop⟩ := topIndex_some ha
  have hle := topIndex_le htop a ha
  unfold AllocationDb.nextDerivationIndex
  rw [htop]
  dsimp only
  omega

/-- Two states of one row. -/
structure SameAddress (a b : WalletAddress) : Prop where
  id : b.id = a.id
  index : b.derivationIndex = a.derivationIndex
  address : b.address = a.address

theorem same_rewritten (p : WalletAddress → Bool) (a : WalletAddress) :
    SameAddress a (rewrite p AllocationDb.retired a) := by
  by_cases hp : p a = true
  · rw [rewrite_pos _ hp]
    exact ⟨rfl, rfl, rfl⟩
  · rw [rewrite_neg _ hp]
    exact ⟨rfl, rfl, rfl⟩

theorem of_mem_retire {b : WalletAddress} (h : b ∈ (s.retire retires).addresses) :
    ∃ a ∈ s.addresses, SameAddress a b := by
  cases retires with
  | none => exact ⟨b, h, rfl, rfl, rfl⟩
  | some id =>
    obtain ⟨a, ha, rfl⟩ := List.mem_map.1 h
    exact ⟨a, ha, same_rewritten _ a⟩

theorem mem_retire (retires : Option Uuid) (h : a ∈ s.addresses) :
    ∃ b ∈ (s.retire retires).addresses, SameAddress a b := by
  cases retires with
  | none => exact ⟨a, h, rfl, rfl, rfl⟩
  | some id => exact ⟨_, List.mem_map.2 ⟨a, h, rfl⟩, same_rewritten _ a⟩

/-! ## The transactions in progress -/

theorem mem_release : h ∈ (s.release account).holds ↔ h ∈ s.holds ∧ h.account ≠ account := by
  unfold AllocationDb.release
  rw [List.mem_filter]
  simp

theorem mem_compute_other (hne : h.account ≠ account) (hh : h ∈ s.holds) :
    h ∈ (s.compute account index).holds := by
  unfold AllocationDb.compute
  refine List.mem_map.2 ⟨h, hh, ?_⟩
  exact if_neg hne

theorem of_mem_compute (hh : h ∈ (s.compute account index).holds) :
    h ∈ s.holds ∨ h = ⟨account, some index⟩ := by
  unfold AllocationDb.compute at hh
  obtain ⟨g, hg, rfl⟩ := List.mem_map.1 hh
  by_cases hacc : g.account = account
  · rw [if_pos hacc, hacc]
    exact .inr rfl
  · rw [if_neg hacc]
    exact .inl hg

theorem isHeld_iff : s.isHeld account = true ↔ ∃ h ∈ s.holds, h.account = account := by
  unfold AllocationDb.isHeld
  rw [List.any_eq_true]
  simp

/-- What a call in progress may rely on. -/
structure Relies (c : HdSettings) (s : AllocationDb) (t : AllocationThread) : Prop where
  held : ∀ account, t.pc.holding = some account → ∃ h ∈ s.holds, h.account = account
  /-- The index it inserts is the one its transaction has computed. -/
  computed : ∀ left identity fresh retires index address, t.pc
    = .inserting left identity fresh retires index address →
    ⟨identity.account, some index⟩ ∈ s.holds ∧ c.deriveEvmAddress index = .ok address

theorem Relies.of_none (h : t.pc.holding = none) : Relies c s t := by
  constructor
  · intro account hc
    rw [h] at hc
    cases hc
  · intro left identity fresh retires index address hc
    rw [hc] at h
    cases h

/-- Two calls do not hold the identity of one account. -/
def HoldApart (t u : AllocationThread) : Prop :=
  ∀ account, t.pc.holding = some account → u.pc.holding ≠ some account

theorem HoldApart.of_none {u : AllocationThread} (h : t.pc.holding = none) : HoldApart t u := by
  intro account hc
  rw [h] at hc
  cases hc

/-- A call relies on the same after its step. -/
theorem Relies.move (h : Relies c s t) (hm : AllocationMove c s t x s' t') : Relies c s' t' := by
  cases hm with
  | quiet _ _ _ ht' => exact .of_none ht'
  | locks left identity fresh _ _ hholds _ hpc =>
    constructor
    · intro account hc
      rw [hpc] at hc
      rw [hholds]
      exact ⟨_, List.mem_cons_self .., Option.some.inj hc⟩
    · intro _ _ _ _ _ _ hc
      rw [hpc] at hc
      cases hc
  | looks left identity fresh retires hs ht hpc =>
    rw [hs]
    constructor
    · intro account hc
      refine h.held account ?_
      rw [hpc] at hc
      rw [ht]
      exact hc
    · intro _ _ _ _ _ _ hc
      rw [hpc] at hc
      cases hc
  | counts left identity fresh retires address hs hholding hpc hderive =>
    obtain ⟨g, hg, hacc⟩ := h.held _ hholding
    have hmem : (⟨identity.account, some s.nextDerivationIndex⟩ : Hold)
        ∈ (s.compute identity.account s.nextDerivationIndex).holds := by
      unfold AllocationDb.compute
      refine List.mem_map.2 ⟨g, hg, ?_⟩
      rw [if_pos hacc, hacc]
    rw [hs]
    constructor
    · intro account hc
      rw [hpc] at hc
      exact ⟨_, hmem, Option.some.inj hc⟩
    · intro _ _ _ _ _ _ hc
      rw [hpc] at hc
      cases hc
      exact ⟨hmem, hderive⟩
  | ends _ _ _ _ ht' _ => exact .of_none ht'
  | inserts _ _ _ _ _ _ _ _ hpc =>
    refine .of_none ?_
    rw [hpc]
    rfl
  | deletes _ _ _ _ _ ht' => exact .of_none ht'

/-- A transaction in progress stays, unless it is the one that takes the step. -/
theorem AllocationMove.holds (hm : AllocationMove c s t x s' t') (hh : h ∈ s.holds)
    (hne : t.pc.holding ≠ some h.account) : h ∈ s'.holds := by
  cases hm with
  | quiet _ hholds _ _ =>
    rw [hholds]
    exact hh
  | locks _ _ _ _ _ hholds _ _ =>
    rw [hholds]
    exact List.mem_cons_of_mem _ hh
  | looks _ _ _ _ hs _ _ =>
    rw [hs]
    exact hh
  | counts _ identity _ _ _ hs hholding _ _ =>
    rw [hs]
    refine mem_compute_other ?_ hh
    intro hc
    exact hne (hc ▸ hholding)
  | ends account _ hholds ht _ _ =>
    rw [hholds]
    refine mem_release.2 ⟨hh, ?_⟩
    intro hc
    exact hne (hc ▸ ht)
  | inserts _ identity _ _ _ ht _ hholds _ =>
    rw [hholds]
    refine mem_release.2 ⟨hh, ?_⟩
    intro hc
    refine hne ?_
    rw [ht, hc]
    rfl
  | deletes _ _ _ hholds _ _ =>
    rw [hholds]
    exact hh

/-- A step leaves what another call relies on, and stays apart from it. -/
theorem Relies.frame {u : AllocationThread} (hu : Relies c s u) (hr : HoldApart t u)
    (hm : AllocationMove c s t x s' t') : Relies c s' u ∧ HoldApart t' u := by
  have hkept : ∀ account, u.pc.holding = some account → t.pc.holding ≠ some account :=
    fun account hc hc' => hr account hc' hc
  constructor
  · constructor
    · intro account hc
      obtain ⟨g, hg, hacc⟩ := hu.held account hc
      exact ⟨g, hm.holds hg (hacc ▸ hkept account hc), hacc⟩
    · intro left identity fresh retires index address hc
      obtain ⟨hmem, hderive⟩ := hu.computed left identity fresh retires index address hc
      refine ⟨hm.holds hmem (hkept _ ?_), hderive⟩
      rw [hc]
      rfl
  · cases hm with
    | quiet _ _ _ ht' => exact .of_none ht'
    | locks left identity fresh _ hfree _ _ hpc =>
      intro account hc hc'
      rw [hpc] at hc
      obtain ⟨g, hg, hacc⟩ := hu.held account hc'
      have hheld : s.isHeld account = true := isHeld_iff.2 ⟨g, hg, hacc⟩
      rw [← Option.some.inj hc, hfree] at hheld
      cases hheld
    | looks left identity fresh retires _ ht hpc =>
      intro account hc
      refine hr account ?_
      rw [hpc] at hc
      rw [ht]
      exact hc
    | counts left identity fresh retires address _ hholding hpc _ =>
      intro account hc
      refine hr account ?_
      rw [hpc] at hc
      rw [hholding]
      exact hc
    | ends _ _ _ _ ht' _ => exact .of_none ht'
    | inserts _ _ _ _ _ _ _ _ hpc =>
      refine .of_none ?_
      rw [hpc]
      rfl
    | deletes _ _ _ _ _ ht' => exact .of_none ht'

/-! ## The invariants -/

/-- What is stored, and that the record has it. -/
structure AddressInv (c : HdSettings) (s : AllocationDb) (record : List WalletAddress) : Prop where
  derived : ∀ a ∈ s.addresses, c.deriveEvmAddress a.derivationIndex = .ok a.address
  recorded : ∀ a ∈ s.addresses, ∃ r ∈ record, SameAddress r a

theorem AddressInv.of_subset (h : AddressInv c s record)
    (hsub : ∀ a ∈ s'.addresses, a ∈ s.addresses) : AddressInv c s' record :=
  ⟨fun a ha => h.derived a (hsub a ha), fun a ha => h.recorded a (hsub a ha)⟩

theorem note_inserts {address : String}
    (ht : t.pc = .inserting left identity fresh retires index address) (ht' : t'.pc = .returned a)
    (record : List WalletAddress) : noteAllocation s t x s' t' record = a :: record := by
  unfold noteAllocation
  rw [ht, ht']

theorem note_stays {address : String}
    (ht' : t'.pc = .inserting left identity fresh retires index address)
    (record : List WalletAddress) : noteAllocation s t x s' t' record = record := by
  refine note_unreturned ?_ record
  intro a hc
  rw [ht'] at hc
  cases hc

theorem AddressInv.move (h : AddressInv c s record) (ht : Relies c s t)
    (hm : AllocationMove c s t x s' t') : AddressInv c s' (noteAllocation s t x s' t' record) := by
  cases hm with
  | quiet haddresses _ hpc _ =>
    rw [note_other hpc]
    exact h.of_subset fun a ha => haddresses ▸ ha
  | locks _ _ _ haddresses _ _ hpc _ =>
    rw [note_other hpc]
    exact h.of_subset fun a ha => haddresses ▸ ha
  | looks _ _ _ _ hs hpc hpc' =>
    rw [note_unreturned (by intro a hc; rw [hpc'] at hc; cases hc), hs]
    exact h
  | counts _ _ _ _ _ hs _ hpc _ =>
    rw [note_stays hpc, hs]
    exact h.of_subset fun a ha => ha
  | ends _ haddresses _ _ _ hnote =>
    rw [hnote]
    exact h.of_subset fun a ha => haddresses ▸ ha
  | inserts left identity fresh retires a hpc hi _ hpc' =>
    rw [note_inserts hpc hpc']
    obtain ⟨_, hderive⟩ := ht.computed _ _ _ _ _ _ hpc
    constructor
    · intro b hb
      rcases (Table.mem_insert hi).1 hb with hold | rfl
      · obtain ⟨b', hb', hsame⟩ := of_mem_retire hold
        rw [hsame.index, hsame.address]
        exact h.derived b' hb'
      · exact hderive
    · intro b hb
      rcases (Table.mem_insert hi).1 hb with hold | rfl
      · obtain ⟨b', hb', hsame⟩ := of_mem_retire hold
        obtain ⟨r, hr, hsame'⟩ := h.recorded b' hb'
        exact ⟨r, List.mem_cons_of_mem _ hr, hsame.id.trans hsame'.id,
          hsame.index.trans hsame'.index, hsame.address.trans hsame'.address⟩
      · exact ⟨b, List.mem_cons_self .., rfl, rfl, rfl⟩
  | deletes _ _ haddresses _ hpc _ =>
    rw [note_other hpc]
    refine h.of_subset fun a ha => ?_
    rw [haddresses] at ha
    exact (Table.mem_remove.1 ha).1

/--
A deletion that is not refused takes no row whose index is the highest one stored, or one
that a transaction in progress has computed.
-/
def KeepsIndices (s : AllocationDb) (t : AllocationThread) (x : AllocationInput) : Prop :=
  x = .go → s.refuses t.call = false → ∀ a ∈ s.addresses, s.gone t.call a.account = true →
    s.topIndex ≠ some a.derivationIndex ∧ ∀ h ∈ s.holds, h.index ≠ some a.derivationIndex

/-- What the record says of the indices. -/
structure IndexInv (s : AllocationDb) (record : List WalletAddress) : Prop where
  /-- No index is in it twice. -/
  once : record.Pairwise fun a b => a.derivationIndex ≠ b.derivationIndex
  /-- No index in it is beyond those that are stored. -/
  top : ∀ r ∈ record, ∃ a ∈ s.addresses, r.derivationIndex ≤ a.derivationIndex
  /-- An index that a transaction has computed is in it only if it is stored. -/
  inFlight : ∀ h ∈ s.holds, ∀ i, h.index = some i → ∀ r ∈ record, r.derivationIndex = i →
    ∃ a ∈ s.addresses, a.derivationIndex = i

/-- The addresses stay, and no transaction comes to an index. -/
theorem IndexInv.of_holds (h : IndexInv s record) (haddresses : s'.addresses = s.addresses)
    (hholds : ∀ g ∈ s'.holds, ∀ i, g.index = some i → g ∈ s.holds) : IndexInv s' record := by
  refine ⟨h.once, ?_, ?_⟩
  · rw [haddresses]
    exact h.top
  · rw [haddresses]
    exact fun g hg i hi => h.inFlight g (hholds g hg i hi) i hi

theorem IndexInv.move (h : IndexInv s record) (ht : Relies c s t) (hok : KeepsIndices s t x)
    (hm : AllocationMove c s t x s' t') :
    IndexInv s' (noteAllocation s t x s' t' record) := by
  cases hm with
  | quiet haddresses hholds hpc _ =>
    rw [note_other hpc]
    exact h.of_holds haddresses fun g hg _ _ => hholds ▸ hg
  | locks _ _ _ haddresses _ hholds hpc _ =>
    rw [note_other hpc]
    refine h.of_holds haddresses fun g hg i hi => ?_
    rw [hholds] at hg
    rcases List.mem_cons.1 hg with rfl | hg
    · cases hi
    · exact hg
  | looks _ _ _ _ hs hpc hpc' =>
    rw [note_unreturned (by intro a hc; rw [hpc'] at hc; cases hc), hs]
    exact h
  | counts _ identity _ _ _ hs _ hpc _ =>
    rw [note_stays hpc, hs]
    refine ⟨h.once, h.top, ?_⟩
    intro g hg i hi r hr hindex
    rcases of_mem_compute hg with hg | rfl
    · exact h.inFlight g hg i hi r hr hindex
    · -- the index is beyond all that are stored, so beyond all that are recorded
      obtain ⟨a, ha, hle⟩ := h.top r hr
      have hlt := lt_next ha
      have hnext : s.nextDerivationIndex = i := Option.some.inj hi
      omega
  | ends _ haddresses hholds _ _ hnote =>
    rw [hnote]
    refine h.of_holds haddresses fun g hg _ _ => ?_
    rw [hholds] at hg
    exact (mem_release.1 hg).1
  | inserts left identity fresh retires a hpc hi hholds hpc' =>
    rw [note_inserts hpc hpc']
    obtain ⟨hmem, _⟩ := ht.computed _ _ _ _ _ _ hpc
    -- the index is not stored, so it was not recorded
    have hnew : ∀ r ∈ record, r.derivationIndex ≠ a.derivationIndex := by
      intro r hr hindex
      obtain ⟨b, hb, hb'⟩ := h.inFlight _ hmem _ rfl r hr hindex
      obtain ⟨b', hmem', hsame⟩ := mem_retire retires hb
      exact Table.apart_of_insert hi hmem' (.inr (.inl (hsame.index.trans hb')))
    have hkept : ∀ b ∈ s.addresses, ∃ b' ∈ s'.addresses, b'.derivationIndex
        = b.derivationIndex := by
      intro b hb
      obtain ⟨b', hmem', hsame⟩ := mem_retire retires hb
      exact ⟨b', (Table.mem_insert hi).2 (.inl hmem'), hsame.index⟩
    have hthere : a ∈ s'.addresses := (Table.mem_insert hi).2 (.inr rfl)
    refine ⟨?_, ?_, ?_⟩
    · exact List.pairwise_cons.2 ⟨fun r hr => (hnew r hr).symm, h.once⟩
    · intro r hr
      rcases List.mem_cons.1 hr with rfl | hr
      · exact ⟨r, hthere, Nat.le_refl _⟩
      · obtain ⟨b, hb, hle⟩ := h.top r hr
        obtain ⟨b', hb', hindex⟩ := hkept b hb
        exact ⟨b', hb', hindex ▸ hle⟩
    · intro g hg i hgi r hr hindex
      rcases List.mem_cons.1 hr with rfl | hr
      · exact ⟨r, hthere, hindex⟩
      · rw [hholds] at hg
        obtain ⟨b, hb, hb'⟩ := h.inFlight g (mem_release.1 hg).1 i hgi r hr hindex
        obtain ⟨b', hmem', hindex'⟩ := hkept b hb
        exact ⟨b', hmem', hindex'.trans hb'⟩
  | deletes hgo hrefuses haddresses hholds hpc _ =>
    rw [note_other hpc]
    have hstay : ∀ a ∈ s.addresses, s.gone t.call a.account = false → a ∈ s'.addresses := by
      intro a ha hgone
      rw [haddresses]
      exact Table.mem_remove.2 ⟨ha, hgone⟩
    refine ⟨h.once, ?_, ?_⟩
    · intro r hr
      obtain ⟨a, ha, hle⟩ := h.top r hr
      obtain ⟨n, htop⟩ := topIndex_some ha
      obtain ⟨b, hb, hindex⟩ := topIndex_mem htop
      have hle' := topIndex_le htop a ha
      refine ⟨b, hstay b hb ?_, by omega⟩
      cases hgone : s.gone t.call b.account with
      | false => rfl
      | true => exact absurd (hindex ▸ htop) (hok hgo hrefuses b hb hgone).1
    · intro g hg i hi r hr hindex
      rw [hholds] at hg
      obtain ⟨a, ha, ha'⟩ := h.inFlight g hg i hi r hr hindex
      refine ⟨a, hstay a ha ?_, ha'⟩
      cases hgone : s.gone t.call a.account with
      | false => rfl
      | true => exact absurd (ha' ▸ hi) ((hok hgo hrefuses a ha hgone).2 g hg)

/-- No address was given out yet. -/
def NoAllocations (s : AllocationDb) : Prop := s.addresses.rows = [] ∧ s.holds = []

/-- The invariant of the recorded service; what it says of indices needs the condition. -/
theorem allocation_inv (c : HdSettings) (strict : Prop) :
    Invariant ((walletAllocations c).recorded noteAllocation)
      (fun s => NoAllocations s.1 ∧ s.2 = []) (fun s t x => strict → KeepsIndices s.1 t x)
      (fun s => AddressInv c s.1 s.2 ∧ (strict → IndexInv s.1 s.2))
        (fun s t => Relies c s.1 t) HoldApart where
  init := by
    rintro ⟨s, record⟩ ⟨⟨hnone, hholds⟩, rfl⟩
    refine ⟨⟨?_, ?_⟩, fun _ => ⟨.nil, fun r hr => (nomatch hr), fun h _ i _ r hr => nomatch hr⟩⟩
    · intro a ha
      rw [Table.mem_def, hnone] at ha
      cases ha
    · intro a ha
      rw [Table.mem_def, hnone] at ha
      cases ha
  start := by
    intro s k _
    exact .of_none rfl
  apart_start := by
    intro k t
    exact .of_none rfl
  symm := by
    intro t u h account hu ht
    exact h account ht hu
  step := by
    rintro ⟨s, record⟩ t x ⟨s', record'⟩ t' ⟨haddress, hindex⟩ ht hok hstep
    obtain ⟨hinner, hnote⟩ := Program.recorded_step.1 hstep
    have hm := allocation_move hinner
    dsimp only at hnote
    rw [hnote]
    exact ⟨⟨haddress.move ht hm, fun hstrict => (hindex hstrict).move ht (hok hstrict) hm⟩,
      ht.move hm⟩
  frame := by
    rintro ⟨s, record⟩ t x ⟨s', record'⟩ t' u _ _ _ hstep hu hr
    exact Relies.frame hu hr (allocation_move (Program.recorded_step.1 hstep).1)

/--
**In every run an identity has one active address on a chain at most, and every address is
the one derived at its index. No index is given out twice in a run whose deletions take no
index that was the highest stored, or that a transaction in progress has computed.**
-/
theorem indices_given_once {c : HdSettings} :
    (∀ g, (walletAllocations c).RecordedReach noteAllocation [] NoAllocations (fun _ _ _ => True) g
      →
        (∀ a ∈ g.store.1.addresses, ∀ b ∈ g.store.1.addresses, a.account = b.account
          → a.chain = b.chain →
          a.status = .active → b.status = .active → a = b)
          ∧ (∀ a ∈ g.store.1.addresses, c.deriveEvmAddress a.derivationIndex = .ok a.address)
          ∧ ∀ a ∈ g.store.1.addresses, ∃ r ∈ g.store.2, SameAddress r a)
      ∧ ∀ g, (walletAllocations c).RecordedReach noteAllocation [] NoAllocations KeepsIndices g →
        g.store.2.Pairwise fun a b => a.derivationIndex ≠ b.derivationIndex := by
  constructor
  · intro g hg
    have hweak : ((walletAllocations c).recorded noteAllocation).ReachWhere
      (fun s => NoAllocations s.1 ∧ s.2 = [])
        (fun s t x => False → KeepsIndices s.1 t x) g := hg.weaken fun _ _ _ _ hf => hf.elim
    have hinv := ((allocation_inv c False).reach hweak).store.1
    refine ⟨?_, hinv.derived, hinv.recorded⟩
    intro a ha b hb haccount hchain hactive hactive'
    exact Table.eq_of_clash ha hb (.inr (.inr ⟨haccount, hchain, .inr ⟨hactive, hactive'⟩⟩))
  · intro g hg
    have hstrict : ((walletAllocations c).recorded noteAllocation).ReachWhere
      (fun s => NoAllocations s.1 ∧ s.2 = [])
        (fun s t x => True → KeepsIndices s.1 t x) g := hg.weaken fun _ _ _ hok _ => hok
    exact (((allocation_inv c True).reach hstrict).store.2 trivial).once

/-! ## Two accounts -/

/-- What the seed of the tests derives. -/
def testSeed : HdSettings where
  mnemonic := "test test test test test test test test test test test junk"
  fromMnemonic _ index := .ok <|
    match index with
    | 0 => "0xf39Fd6e51aad88F6F4ce6aB8827279cffFb92266"
    | 1 => "0x70997970C51812dc3A010C7d01b50e0d17dc79C8"
    | _ => "0x3C44CdDdB6a900fa2b585dd299e03d12FA4293BC"

/-- Alice and Bob have accounts, and no wallets. -/
def twoWallets : AllocationDb :=
  ⟨⟨[⟨alice, some 1⟩, ⟨bob, some 2⟩], by decide⟩, .empty, .empty, [], []⟩

/-- A first address for an account. -/
def allocating (p : Nat) (account row : Uuid) : List (Act AllocationCall AllocationInput) :=
  [.call p (.ensure account polygon), .tick p .go, .tick p (.row row 0), .tick p .go, .tick p .go,
    .tick p (.row row 0)]

/-- **Alice's user is deleted, and Bob is given the index Alice had.** -/
theorem index_given_again : ∃ g, (walletAllocations testSeed).RecordedReach noteAllocation
    [] NoAllocations (fun _ _ _ => True) g
      ∧ ¬ g.store.2.Pairwise fun a b => a.derivationIndex ≠ b.derivationIndex := by
  have hrun : ∃ g, (walletAllocations testSeed).RecordedReach noteAllocation [] NoAllocations
    (fun _ _ _ => True) g
      ∧ decide (¬ g.store.2.Pairwise fun a b => a.derivationIndex ≠ b.derivationIndex) = true :=
    Program.reachWhere_check (P := (walletAllocations testSeed).recorded noteAllocation)
      (fun _ _ _ => true)
      (fun _ _ _ _ => trivial) (s := (twoWallets, [])) ⟨⟨rfl, rfl⟩, rfl⟩
      (allocating 0 alice alice ++ [.call 1 (.deleteUser 1), .tick 1 .go] ++ allocating 2 bob bob)
      (fun g => ¬ g.store.2.Pairwise fun a b => a.derivationIndex ≠ b.derivationIndex) (by decide)
  obtain ⟨g, hg, hagain⟩ := hrun
  exact ⟨g, hg, of_decide_eq_true hagain⟩

/-- The check of `KeepsIndices`. -/
def keepsIndices? (s : AllocationDb) (t : AllocationThread) : Bool :=
  s.addresses.rows.all fun a => !s.gone t.call a.account
    || (s.topIndex ≠ some a.derivationIndex
      && s.holds.all fun h => h.index ≠ some a.derivationIndex)

theorem keepsIndices_of_check (h : keepsIndices? s t = true) : KeepsIndices s t x := by
  intro _ _ a ha hgone
  have hrow := List.all_eq_true.1 h a ha
  rw [hgone] at hrow
  simpa using hrow

/-- Bob's address is the newer one, so Alice's index is not given out again. -/
theorem indices_given_once_deleted :
    ∃ g : Config (AllocationDb × List WalletAddress) AllocationThread,
      g.store.2.length = 3 ∧ (g.store.1.accounts.find? (·.id = alice)).isNone = true
      ∧ g.store.2.Pairwise fun a b => a.derivationIndex ≠ b.derivationIndex := by
  have hrun : ∃ g, (walletAllocations testSeed).RecordedReach noteAllocation
    [] NoAllocations KeepsIndices g
      ∧ decide (g.store.2.length = 3 ∧ (g.store.1.accounts.find? (·.id = alice)).isNone = true)
        = true :=
    Program.reachWhere_check (P := (walletAllocations testSeed).recorded noteAllocation)
      (fun s t _ => keepsIndices? s.1 t) (fun _ _ _ => keepsIndices_of_check)
        (s := (twoWallets, []))
      ⟨⟨rfl, rfl⟩, rfl⟩
      (allocating 0 alice alice ++ allocating 1 bob bob ++ [.call 2 (.deleteUser 1), .tick 2 .go]
        ++ [.call 3 (.rotate bob polygon), .tick 3 .go, .tick 3 .go, .tick 3 .go, .tick 3 .go,
          .tick 3 (.row alice 0)])
      (fun g => g.store.2.length = 3 ∧ (g.store.1.accounts.find? (·.id = alice)).isNone = true)
        (by decide)
  obtain ⟨g, hg, hends⟩ := hrun
  obtain ⟨hlength, hgone⟩ := of_decide_eq_true hends
  exact ⟨g, hlength, hgone, indices_given_once.2 g hg⟩

end Roamkit.Wallet.Proof
