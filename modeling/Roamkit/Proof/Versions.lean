import Roamkit.Proof.PolicyHistory
import Roamkit.Proof.AutoTopupSuccess

/-!
# What the version of a policy guards

The owner's changes and the transfers count the version of a policy up, so between
two times at which it is the same neither of them has written. Two kinds of writes
it says nothing of: those of the evaluations, which leave it, and the creation of a
policy, which begins again at zero. A request that carries the current version is
sound exactly when there was none of these since its reading, apart from answers
that no version decides.
-/

namespace Roamkit.AutoTopup.Proof

open Lib Spend Billing Billing.Proof

variable {c : AutoTopupSettings}

/-! ## Changes -/

/-- A policy without its clocks and without the record of its last purchase. -/
def listed (row : StoredPolicy) : Policy :=
  { row.policy with
    cooldownUntil := none
    lastTriggeredAt := none
    lastTopup := none
    lastIdempotencyKey := "" }

/-- A write that changes what is listed of a policy, creates it or deletes it. -/
def Changes (w : RowWrite PolicyWriter StoredPolicy) : Prop :=
  w.before.map listed ≠ w.after.map listed

instance (w : RowWrite PolicyWriter StoredPolicy) : Decidable (Changes w) :=
  inferInstanceAs (Decidable (_ ≠ _))

/-- A write that the version says nothing of. -/
def Unversioned (w : RowWrite PolicyWriter StoredPolicy) : Prop :=
  w.before = none ∨ w.writer = .evaluation

/-- The writes of the policy of an eSIM since a reading. -/
def writesSince (s : PolicyDb) (esim : Nat) (r : Reading) :
    List (RowWrite PolicyWriter StoredPolicy) :=
  historyOf (s.log.drop r.since) esim

theorem carried_eq_none {v : Option Nat} : v.map Int.ofNat = none ↔ v = none :=
  Option.map_eq_none_iff

theorem carried_eq_some {v : Option Nat} {n : Nat} :
    v.map Int.ofNat = some (n : Int) ↔ v = some n := by
  rw [Option.map_eq_some_iff]
  constructor
  · rintro ⟨m, rfl, hm⟩
    rw [Int.ofNat.inj hm]
  · rintro rfl
    exact ⟨n, rfl, rfl⟩

/-- No unversioned write has changed the policy since the reading. -/
def Unbypassed (s : PolicyDb) (esim : Nat) (r : Reading) : Prop :=
  ∀ w ∈ writesSince s esim r, Unversioned w → ¬ Changes w

/-- No write has changed the policy since the reading. -/
def Unchanged (s : PolicyDb) (esim : Nat) (r : Reading) : Prop :=
  ∀ w ∈ writesSince s esim r, ¬ Changes w

variable (p : Nat) {w : RowWrite PolicyWriter StoredPolicy} {s : PolicyDb} {esim : Nat}
  {r : Reading}

theorem Lawful.counts (h : Lawful w) :
    Leads.Counts StoredPolicy.version (· = .evaluation) w := by
  intro r q hr hq
  cases h with
  | creates => cases hr
  | updates => cases hr; cases hq; exact .inl rfl
  | deletes => cases hq
  | transfers => cases hr; cases hq; exact .inl rfl
  | evaluates => cases hr; cases hq; exact .inr ⟨rfl, rfl⟩

/-- A creation is a change. -/
theorem Lawful.changes_of_born (h : Lawful w) (hborn : w.before = none) : Changes w := by
  cases h with
  | creates => exact nofun
  | _ => cases hborn

theorem ReadAt.leads_since (hinv : PolicyInv s) (h : ReadAt s esim r) :
    Leads r.seen (writesSince s esim r) (s.policyOf esim) := by
  refine Leads.rest ?_ h.leads
  rw [writesSince, ← historyOf_append, List.take_append_drop]
  exact hinv.leads esim

theorem lawful_since (hinv : PolicyInv s) (hw : w ∈ writesSince s esim r) : Lawful w :=
  hinv.lawful _ (List.mem_of_mem_drop (mem_historyOf.1 hw))

/-- **Where the version is the one that was read, only unversioned writes can have changed the
policy.** -/
theorem unchanged_of_version (hinv : PolicyInv s) (hread : ReadAt s esim r)
    (hversion : (s.policyOf esim).map StoredPolicy.version = r.version)
    (hquiet : Unbypassed s esim r) : Unchanged s esim r := by
  have hleads := hread.leads_since hinv
  have hborn : ∀ w ∈ writesSince s esim r, w.before ≠ none := fun w hw hnone =>
    hquiet w hw (.inl hnone) ((lawful_since hinv hw).changes_of_born hnone)
  intro w hw
  cases hseen : r.seen with
  | none =>
    rw [hseen] at hleads
    rw [hleads.of_absent hborn] at hw
    cases hw
  | some q =>
    rw [Reading.version, hseen] at hversion
    obtain ⟨row, hrow, hsame⟩ := Option.map_eq_some_iff.1 hversion
    rw [hseen, hrow] at hleads
    obtain ⟨_, hall⟩ := hleads.of_version hborn fun v hv => (lawful_since hinv hv).counts
    exact hquiet w hw (.inr (hall hsame.symm w hw))

/-! ## Requests -/

/-- The request was applied. -/
def Applied : PolicyAnswer → Prop
  | .saved _ => True
  | .deleted => True
  | _ => False

/-- What a request may come to: it is applied to what was read, or it ends with the conflict. -/
structure AnswerSound (s s' : PolicyDb) (esim : Nat) (r : Reading) (answer : PolicyAnswer) :
    Prop where
  applied : Applied answer → Unchanged s esim r
  refused : ¬ Applied answer → answer = .versionConflict ∧ s' = s

/-- When a change of the owner's is guarded by its version. -/
structure PutGuarded (s : PolicyDb) (a : UpsertArgs) (r : Reading) (cfg : PolicyConfig)
    (d : PolicyDraw) : Prop where
  /-- A first creation does not race with another. -/
  unraced : r.version = none → (d.raced = true ∨ s.policyOf a.esim.id = none) →
    ∀ row ∈ s.policies, row.policy.id ≠ d.id ∧ row.policy.esim ≠ a.esim.id
  /-- The values fit their columns. -/
  fits : (if d.raced then none else s.policyOf a.esim.id).map StoredPolicy.version = r.version →
    cfg.fits = true
  /-- Nothing passed the version by. -/
  unbypassed : (if d.raced then none else s.policyOf a.esim.id).map StoredPolicy.version
    = r.version → Unbypassed s a.esim.id r

/-- When a deletion of the owner's is guarded by its version. -/
structure DeleteGuarded (s : PolicyDb) (esim : Nat) (r : Reading) : Prop where
  found : s.policyOf esim ≠ none
  unbypassed : (s.policyOf esim).map StoredPolicy.version = r.version → Unbypassed s esim r

theorem upsert_sound_iff {a : UpsertArgs} {cfg : PolicyConfig} {d : PolicyDraw}
    (hinv : PolicyInv s) (hread : ReadAt s a.esim.id r) :
    AnswerSound s (upsertPolicy s a cfg r.carried d).1 a.esim.id r
        (upsertPolicy s a cfg r.carried d).2
      ↔ PutGuarded s a r cfg d := by
  unfold upsertPolicy Reading.carried
  simp only [ne_eq, carried_eq_none, carried_eq_some]
  split
  · rename_i hfound
    split
    · -- a version was carried, and there is no row
      rename_i hsome
      refine ⟨fun _ => ⟨fun hnone => absurd hnone hsome, fun h => ?_, fun h => ?_⟩,
        fun _ => ⟨fun h => (by cases h), fun _ => ⟨rfl, rfl⟩⟩⟩
      · rw [hfound] at h
        exact absurd h.symm hsome
      · rw [hfound] at h
        exact absurd h.symm hsome
    · rename_i hnone
      rw [not_not] at hnone
      have hmatch : (if d.raced = true then none else s.policyOf a.esim.id).map
          StoredPolicy.version = r.version := by
        rw [hfound, hnone]
        rfl
      split
      · -- the columns refuse the values
        rename_i hfits
        exact ⟨fun h => absurd (h.refused id).1 (by rintro ⟨⟩),
          fun h => absurd (h.fits hmatch) hfits⟩
      · rename_i hfits
        rw [not_not] at hfits
        split
        · -- another request has inserted a row since the look-up
          rename_i hinsert
          refine ⟨fun h => absurd (h.refused id).1 (by rintro ⟨⟩), fun h => ?_⟩
          obtain ⟨row, hrow, hclash⟩ := Table.clash_of_insert_none hinsert
          have hraced : d.raced = true ∨ s.policyOf a.esim.id = none := by
            by_cases hr : d.raced = true
            · exact .inl hr
            · rw [if_neg hr] at hfound
              exact .inr hfound
          obtain ⟨hid, hesim⟩ := h.unraced hnone hraced row hrow
          rcases hclash with h | h
          · exact absurd h hid
          · exact absurd h hesim
        · rename_i policies hinsert
          have hapart : ∀ row ∈ s.policies, row.policy.id ≠ d.id ∧ row.policy.esim ≠ a.esim.id :=
            fun row hrow =>
              ⟨fun h => Table.apart_of_insert hinsert hrow (.inl h),
                fun h => Table.apart_of_insert hinsert hrow (.inr h)⟩
          have habsent : s.policyOf a.esim.id = none :=
            Table.find?_eq_none.2 fun row hrow hesim =>
              (hapart row hrow).2 (of_decide_eq_true hesim)
          constructor
          · intro h
            exact ⟨fun _ _ => hapart, fun _ => hfits,
              fun _ w hw _ => h.applied trivial w hw⟩
          · intro h
            refine ⟨fun _ => unchanged_of_version hinv hread ?_ (h.unbypassed hmatch),
              fun hno => absurd trivial hno⟩
            rw [habsent, hnone]
            rfl
  · rename_i existing hfound
    have hrow : s.policyOf a.esim.id = some existing ∧ d.raced = false := by
      cases hraced : d.raced with
      | true =>
        rw [hraced, if_pos rfl] at hfound
        cases hfound
      | false =>
        rw [hraced, if_neg (by simp)] at hfound
        exact ⟨hfound, rfl⟩
    have hunraced : ¬ (d.raced = true ∨ s.policyOf a.esim.id = none) := by
      rw [hrow.1, hrow.2]
      simp
    split
    · -- the version that is carried is not the one that is locked
      rename_i hother
      refine ⟨fun _ => ⟨fun _ h => absurd h hunraced, fun h => ?_, fun h => ?_⟩,
        fun _ => ⟨fun h => (by cases h), fun _ => ⟨rfl, rfl⟩⟩⟩
      · rw [hfound] at h
        exact absurd h.symm hother
      · rw [hfound] at h
        exact absurd h.symm hother
    · rename_i hsame
      rw [not_not] at hsame
      have hmatch : (if d.raced = true then none else s.policyOf a.esim.id).map
          StoredPolicy.version = r.version := by
        rw [hfound, hsame]
        rfl
      split
      · rename_i hfits
        exact ⟨fun h => absurd (h.refused id).1 (by rintro ⟨⟩),
          fun h => absurd (h.fits hmatch) hfits⟩
      · rename_i hfits
        rw [not_not] at hfits
        constructor
        · intro h
          exact ⟨fun _ h => absurd h hunraced, fun _ => hfits,
            fun _ w hw _ => h.applied trivial w hw⟩
        · intro h
          refine ⟨fun _ => unchanged_of_version hinv hread ?_ (h.unbypassed hmatch),
            fun hno => absurd trivial hno⟩
          rw [hrow.1, hsame]
          rfl

theorem delete_sound_iff (hinv : PolicyInv s) (hread : ReadAt s esim r) :
    AnswerSound s (deletePolicy s esim r.carried).1 esim r (deletePolicy s esim r.carried).2
      ↔ DeleteGuarded s esim r := by
  unfold deletePolicy Reading.carried
  simp only [ne_eq, carried_eq_some]
  split
  · rename_i hnone
    exact ⟨fun h => absurd (h.refused id).1 nofun, fun h => absurd hnone h.found⟩
  · rename_i existing hrow
    have hfound : s.policyOf esim ≠ none := by
      rw [hrow]
      exact nofun
    split
    · rename_i hother
      refine ⟨fun _ => ⟨hfound, fun h => ?_⟩, fun _ => ⟨nofun, fun _ => ⟨rfl, rfl⟩⟩⟩
      rw [hrow] at h
      exact absurd h.symm hother
    · rename_i hsame
      rw [not_not] at hsame
      have hmatch : (s.policyOf esim).map StoredPolicy.version = r.version := by
        rw [hrow, hsame]
        rfl
      constructor
      · intro h
        exact ⟨hfound, fun _ w hw _ => h.applied trivial w hw⟩
      · intro h
        exact ⟨fun _ => unchanged_of_version hinv hread hmatch (h.unbypassed hmatch),
          fun hno => absurd trivial hno⟩

/-- The step is the transaction of `upsert_policy` or of `delete_policy`. -/
def Transacts (t : PolicyThread) (x : PolicyInput) : Prop :=
  (∃ r expected cfg d, t.pc = .saving r expected cfg ∧ x = .save d)
    ∨ ∃ r expected, t.pc = .deleting r expected ∧ x = .go

/-- Every request that carries what was read is applied to it or ends with the conflict. -/
structure RequestSound (s s' : PolicyDb) (t : PolicyThread) (x : PolicyInput) (pc : PolicyPc) :
    Prop where
  put : ∀ r cfg a d answer, t.pc = .saving r r.carried cfg → t.call = .put a → x = .save d →
    pc = .answered answer → AnswerSound s s' a.esim.id r answer
  delete : ∀ r esim answer, t.pc = .deleting r r.carried → t.call = .delete esim → x = .go →
    pc = .answered answer → AnswerSound s s' esim r answer
  /-- Outside its transaction a request writes no policy, whatever it carries. -/
  outside : t.call.target ≠ none → ¬ Transacts t x → s'.policies = s.policies

/-- The transaction of a request is guarded by its version. -/
structure Guarded (s : PolicyDb) (t : PolicyThread) (x : PolicyInput) : Prop where
  put : ∀ r cfg a d, t.pc = .saving r r.carried cfg → t.call = .put a → x = .save d →
    PutGuarded s a r cfg d
  delete : ∀ r esim, t.pc = .deleting r r.carried → t.call = .delete esim → x = .go →
    DeleteGuarded s esim r

/--
**A request is applied exactly to the policy that was read, and else ends with the
version conflict, if and only if its transaction is guarded.** In every state that
is reached and for every step from it.
-/
theorem version_sound_iff {g : Config PolicyDb PolicyThread}
    (h : (policyProgram c).Reach FreshPolicies g) {p : Nat} {t t' : PolicyThread} {x : PolicyInput}
    {s' : PolicyDb} (ht : g.threads p = some t) (hs : policyStep c g.store t x = some (s', t')) :
    RequestSound g.store s' t x t'.pc ↔ Guarded g.store t x := by
  have hholds := (policyInvariant c).reach h
  have hread := hholds.thread p t ht
  obtain ⟨call, pc⟩ := t
  constructor
  · intro hsound
    constructor
    · rintro r cfg a d rfl rfl rfl
      cases hs
      exact (upsert_sound_iff hholds.store (hread r a.esim.id rfl rfl)).1
        (hsound.put r cfg a d _ rfl rfl rfl rfl)
    · rintro r esim rfl rfl rfl
      cases hs
      exact (delete_sound_iff hholds.store (hread r esim rfl rfl)).1
        (hsound.delete r esim _ rfl rfl rfl rfl)
  · intro hguarded
    refine ⟨?_, ?_, ?_⟩
    · rintro r cfg a d answer rfl rfl rfl hpc
      cases hs
      cases hpc
      exact (upsert_sound_iff hholds.store (hread r a.esim.id rfl rfl)).2
        (hguarded.put r cfg a d rfl rfl rfl)
    · rintro r esim answer rfl rfl rfl hpc
      cases hs
      cases hpc
      exact (delete_sound_iff hholds.store (hread r esim rfl rfl)).2
        (hguarded.delete r esim rfl rfl rfl)
    · intro htarget houtside
      obtain ⟨hm, _⟩ := policyStep_move hs
      generalize t'.pc = pc' at hm
      cases hm with
      | upserts hpc _ hx => exact absurd (.inl ⟨_, _, _, _, hpc, hx⟩) houtside
      | deletes hpc _ hx => exact absurd (.inr ⟨_, _, hpc, hx⟩) houtside
      | transfers _ hcall =>
        dsimp only at hcall
        rw [hcall] at htarget
        exact absurd rfl htarget
      | evaluates _ hcall =>
        dsimp only at hcall
        rw [hcall] at htarget
        exact absurd rfl htarget
      | _ => rfl

/-! ## A count that comes back -/

/-- One eSIM whose usage clock has run out, and no policy. -/
def noPolicies : PolicyDb where
  spend := { Spend.Proof.noPurchases with esims := ⟨[expiredEsim], List.pairwise_singleton _ _⟩ }
  policies := .empty
  events := []
  log := []

theorem freshPolicies_noPolicies : FreshPolicies noPolicies := ⟨rfl, rfl⟩

/-- Renew on expiry, twice. -/
def twiceOnExpiry : UpsertArgs where
  esim := expiredEsim
  account := alice
  packageId := "topup"
  expiryEnabled := true
  usageMode := .disabled
  renewMode := .fixedCount
  thresholdMb := none
  remainingCount := some 2
  activeUntil := none
  enabled := true

/-- The provider lists the package for ten. -/
def packageList : Airalo.HttpReply :=
  .json (.dict [("data", .list [.dict [("id", .str "topup"), ("price", .int 10)]])])

/-- The owner reads the policy. -/
def reads (p : Nat) : List (Act PolicyCall PolicyInput) :=
  [.call p (.put twiceOnExpiry), .tick p .go]

/-- The owner sends a version, and the request comes to its transaction. -/
def sends (version : Option Int) : List (Act PolicyCall PolicyInput) :=
  [.tick p (.send version none), .tick p (.listing none packageList), .tick p .go]

/-- An evaluation buys a top-up and counts it. -/
def buys : List (Act PolicyCall PolicyInput) :=
  [.call 0 (.spend (.post (Spend.Proof.voucher alice "v"))), .tick 0 (.spend .go),
    .call p (.evaluate alice)]
    ++ ([.staff none, .go, .go, .spend .go, listsPackage, .spend (.topup ⟨bob, false, none⟩),
        .spend (.answer ⟨true, .empty⟩),
        .spend (.persist ⟨fun n => (n, alice), none, none, alice⟩), .go] : List AutoTopupInput).map
      (.tick p <| .evaluation ·)

/-- The row a first request creates. -/
def firstDraw : PolicyDraw := ⟨alice, false⟩

/-- The call is at the transaction that saves what was sent, after a change that it did not read. -/
def overwrites (p : Nat) (g : Config PolicyDb PolicyThread) : Bool :=
  match g.threads p with
  | some ⟨.put a, .saving r expected cfg⟩ =>
    expected = r.carried && (writesSince g.store a.esim.id r).any (Changes ·)
      && (match (upsertPolicy g.store a cfg r.carried firstDraw).2 with
        | .saved _ => true
        | _ => false)
  | _ => false

/-- The owner's stale form is saved over the count that a purchase has used up. -/
theorem stale_version_applied :
    ¬ ∀ c g p t x s' t', (policyProgram c).Reach FreshPolicies g → g.threads p = some t →
      policyStep c g.store t x = some (s', t') → RequestSound g.store s' t x t'.pc := by
  intro h
  obtain ⟨g, hr, hg⟩ := Program.run_check (policyProgram autoSettings) noPolicies
    (reads 1 ++ sends 1 none ++ [.tick 1 (.save firstDraw)] ++ reads 2 ++ buys 3
      ++ sends 2 (some 0))
    (overwrites 2) (by decide +kernel)
  unfold overwrites at hg
  split at hg
  · rename_i a r expected cfg ht
    rw [Bool.and_eq_true, Bool.and_eq_true, decide_eq_true_iff] at hg
    obtain ⟨⟨rfl, hchanged⟩, hsaved⟩ := hg
    have hsound := (h _ g 2 _ (.save firstDraw) _ _
      (Program.reach_run freshPolicies_noPolicies hr) ht rfl).put r cfg a firstDraw _
        rfl rfl rfl rfl
    obtain ⟨w, hw, hne⟩ := List.any_eq_true.1 hchanged
    refine hsound.applied ?_ w hw (of_decide_eq_true hne)
    split at hsaved
    · rename_i hanswer
      rw [hanswer]
      trivial
    · cases hsaved
  · cases hg

/-- The call is at the transaction that creates the first policy. -/
def createsFirst (g : Config PolicyDb PolicyThread) : Bool :=
  match g.threads p with
  | some ⟨.put a, .saving r _ cfg⟩ =>
    g.store.policies.rows.isEmpty && cfg.fits && (writesSince g.store a.esim.id r).isEmpty
  | _ => false

theorem version_sound_first :
    ∃ g t s' t', (policyProgram autoSettings).Reach FreshPolicies g
      ∧ g.threads 1 = some t
      ∧ policyStep autoSettings g.store t (.save firstDraw) = some (s', t')
      ∧ RequestSound g.store s' t (.save firstDraw) t'.pc := by
  obtain ⟨g, hr, hg⟩ := Program.run_check (policyProgram autoSettings) noPolicies
    (reads 1 ++ sends 1 none) (createsFirst 1) (by decide +kernel)
  have hreach := Program.reach_run freshPolicies_noPolicies hr
  unfold createsFirst at hg
  split at hg
  · rename_i a r expected cfg ht
    rw [Bool.and_eq_true, Bool.and_eq_true, List.isEmpty_iff, List.isEmpty_iff] at hg
    obtain ⟨⟨hempty, hfits⟩, hnone⟩ := hg
    refine ⟨g, _, _, _, hreach, ht, rfl, (version_sound_iff hreach ht rfl).2 ⟨?_, ?_⟩⟩
    · rintro r' cfg' a' d hpc ⟨⟩ ⟨⟩
      obtain ⟨rfl, -, rfl⟩ := PolicyPc.saving.inj hpc
      refine ⟨fun _ _ row hrow => ?_, fun _ => hfits, fun _ w hw => ?_⟩
      · rw [Table.mem_def, hempty] at hrow
        cases hrow
      · rw [hnone] at hw
        cases hw
    · rintro r' esim hpc
      cases hpc
  · cases hg

end Roamkit.AutoTopup.Proof
