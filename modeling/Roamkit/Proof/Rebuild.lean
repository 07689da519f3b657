import Roamkit.Proof.Drift

/-!
# Repairing all balances

`rebuild_all` goes through the accounts it listed, each in a transaction of its own, while
other calls are served. When it answers, no account drifts. Run alone, it repairs exactly
what `find_drifts` reports.
-/

namespace Roamkit.Billing.Proof

open Lib Billing CreditThread Worker

/-! ## The loop among other calls -/

/-- The calls that were listed are a rebuild of every account. -/
def AllListed (s : LedgerDb) (known : Option (List Account) × Option (List CreditCall)) : Prop :=
  ∀ calls, known.2 = some calls → ∃ rows, known.1 = some rows
    ∧ calls = rows.map (fun r => .rebuild r.id) ∧ ∀ a ∈ s.books.accounts, ∃ r ∈ rows, r.id = a.id

/-- A rebuild answers or raises, and once it has answered it has left no drift. -/
def Repaired (s : LedgerDb) (call : CreditCall) (o : CreditOutcome) : Prop :=
  ∀ account, call = .rebuild account →
    (∃ e, o = .raised e)
      ∨ (∃ n, o = .rebuilt n) ∧ ∀ a ∈ s.books.accounts, a.id = account → drift s.books a = 0

/-- What a thread has come to on behalf of a call of the loop. -/
def Rebuilding (s : LedgerDb) (call : CreditCall) (t : CreditThread) : Prop :=
  ∀ account, call = .rebuild account →
    rebuilds t = some account ∨ ∃ o, t = finished o ∧ Repaired s call o

theorem repaired_of_drifts {s s' : LedgerDb} {call : CreditCall} {o : CreditOutcome}
    (hd : DriftsAfter s.books s'.books) (h : Repaired s call o) : Repaired s' call o := by
  intro account hcall
  rcases h account hcall with he | ⟨hn, hclean⟩
  · exact .inl he
  · exact .inr ⟨hn, hd.clean hclean⟩

theorem rebuilding_step {s s' : LedgerDb} {t t' : CreditThread} {go : Bool} {call : CreditCall}
    (hL : RepairLocal s t) (h : creditStep s t go = some (s', t')) (hT : Rebuilding s call t) :
    Rebuilding s' call t' := by
  intro account hcall
  rcases hT account hcall with hre | ⟨o, rfl, _⟩
  · rcases rebuilds_step hL h hre with hre' | ⟨e, rfl⟩ | ⟨n, rfl, _, hclean⟩
    · exact .inl hre'
    · exact .inr ⟨_, rfl, fun _ _ => .inl ⟨e, rfl⟩⟩
    · refine .inr ⟨_, rfl, ?_⟩
      intro account' hcall'
      rw [hcall] at hcall'
      cases hcall'
      exact .inr ⟨⟨n, rfl⟩, hclean⟩
  · -- a finished call takes no step
    cases h

theorem rebuildSweep_achieves :
    Achieves creditProgram rebuildSweep (fun _ _ _ => True) (fun _ => True) RepairLocal CreditApart
      AllListed Rebuilding Repaired where
  ask := by
    intro s a _ calls hcalls
    cases hcalls
  plan := by
    intro s b _ _ calls hcalls
    cases hcalls
    refine ⟨_, rfl, rfl, ?_⟩
    intro a ha
    exact ⟨a, (List.mem_insertionSort _).2 ha, rfl⟩
  start := by
    intro s call _ account hcall
    left
    rw [hcall]
    rfl
  step := fun _ hL _ hs hT => rebuilding_step hL hs hT
  ends := by
    intro s t call r _ _ hT hr account hcall
    rcases hT account hcall with hre | ⟨o, rfl, hgood⟩
    · -- a call that is still to rebuild has not ended
      cases t with
      | finished o => cases hre
      | _ => cases hr
    · cases hr
      exact hgood account hcall
  frame := by
    intro s t x s' t' _ hL _ hs
    have hdrifts := (booksMove hL hs).drifts
    refine ⟨?_, fun call r h => repaired_of_drifts hdrifts h, ?_⟩
    · intro known hknown calls hcalls
      obtain ⟨rows, hrows, hmap, hall⟩ := hknown calls hcalls
      refine ⟨rows, hrows, hmap, ?_⟩
      intro a' ha'
      obtain ⟨a, ha, hid, _⟩ := hdrifts.drifts a' ha'
      obtain ⟨r, hr, hrid⟩ := hall a ha
      exact ⟨r, hr, hrid.trans hid⟩
    · intro call u _ _ hT account hcall
      rcases hT account hcall with hre | ⟨o, rfl, hgood⟩
      · exact .inl hre
      · exact .inr ⟨o, rfl, repaired_of_drifts hdrifts hgood⟩

variable
  {c : Config LedgerDb (Worker CreditThread CreditCall (Option (List Account)) CreditOutcome)}

theorem rebuild_holds (h : rebuildProgram.Reach AtRest c) :
    c.Holds (fun _ => True) (WorkerHolds rebuildSweep RepairLocal AllListed Rebuilding Repaired)
      (apartInside CreditApart) :=
  (repairInvariant.sweep rebuildSweep_achieves).reach (h.weaken fun _ _ _ _ _ _ _ _ => trivial)

theorem stops_of_answer {before : List Account} {done : List (CreditCall × CreditOutcome)}
    {stats : RebuildStats} (h : rebuildAnswer before done = .ok stats) :
    ∀ d, done.getLast? = some d → rebuildSweep.stops d.2 = false := by
  rintro ⟨call, o⟩ hd
  cases o with
  | raised e =>
    rw [rebuildAnswer, hd] at h
    cases h
  | _ => rfl

/--
**`rebuild_all` answers only once no account drifts**, and none does from then on: the
rows it went through may be out of date by then and any calls may have been served in
between, but every balance is what its entries sum up to.
-/
theorem rebuildAll_among (h : rebuildProgram.Reach AtRest c) {p : Nat} {before : List Account}
    {listed : List CreditCall} {done : List (CreditCall × CreditOutcome)}
    (hw : c.threads p = some (swept (some before) listed done)) {stats : RebuildStats}
    (hanswer : rebuildAnswer before done = .ok stats) :
    stats.checked = before.length ∧ ∀ a ∈ c.store.books.accounts, drift c.store.books a = 0 := by
  have hholds := (rebuild_holds h).thread p _ hw
  obtain ⟨hthrough, hnever⟩ := WorkerHolds.through hholds (stops_of_answer hanswer)
  obtain ⟨hlisted, _, hgood, _, _⟩ := hholds
  obtain ⟨rows, hrows, hmap, hall⟩ := hlisted listed rfl
  obtain rfl : before = rows := Option.some.inj hrows
  constructor
  · have hchecked : stats.checked = done.length := by
      unfold rebuildAnswer at hanswer
      split at hanswer <;> cases hanswer
      rfl
    have hlength : (done.map Prod.fst).length = done.length := List.length_map _
    rw [hchecked, ← hlength, ← hthrough, hmap, List.length_map]
  · intro a ha
    obtain ⟨r, hr, hid⟩ := hall a ha
    have hcall : CreditCall.rebuild r.id ∈ done.map Prod.fst := by
      rw [← hthrough, hmap]
      exact List.mem_map_of_mem hr
    obtain ⟨d, hd, hcall⟩ := List.mem_map.1 hcall
    rcases hgood d hd r.id hcall with ⟨e, he⟩ | ⟨_, hclean⟩
    · have hstop := hnever d hd
      rw [he] at hstop
      cases hstop
    · exact hclean a ha hid.symm

/-- Both accounts are gone through, and Alice is credited in between. -/
def goneThrough : List (Act (CreditCall ⊕ Unit) (Option Bool)) :=
  [.call 0 (.inr ()), .call 1 (.inl (.credit alice (.int 3) (.member .deposit) "d" "deposit:d")),
    .tick 0 none, .tick 0 (some true), .tick 0 (some true), .tick 0 (some true),
      .tick 1 (some true),
    .tick 0 none, .tick 1 (some true), .tick 1 (some true), .tick 0 (some true),
      .tick 1 (some true),
    .tick 1 (some true), .tick 0 (some true), .tick 0 none]

def answersTwo
    (c : Config LedgerDb (Worker CreditThread CreditCall (Option (List Account)) CreditOutcome)) :
    Bool :=
  match c.threads 0 with
  | some (.swept (some before) _ done) =>
    match rebuildAnswer before done with
    | .ok stats => stats = ⟨2, 1⟩ && c.store.books.accounts.rows.map (·.balance) = [3000000, 0]
    | .error _ => false
  | _ => false

theorem rebuildAll_among_two :
    ∃ c : Config LedgerDb (Worker CreditThread CreditCall (Option (List Account)) CreditOutcome),
      c.store.books.accounts.rows.map (·.balance) = [3000000, 0]
        ∧ ∀ a ∈ c.store.books.accounts, drift c.store.books a = 0 := by
  obtain ⟨c, hc, hcheck⟩ :=
    Program.run_check rebuildProgram (LedgerDb.ofBooks offByFive) goneThrough
    answersTwo (by decide +kernel)
  unfold answersTwo at hcheck
  split at hcheck
  · rename_i before listed done ht
    split at hcheck
    · rename_i stats hanswer
      obtain ⟨_, hbalances⟩ := by simpa using hcheck
      exact ⟨c, hbalances, (rebuildAll_among (Program.reach_run ⟨_, rfl⟩ hc) ht hanswer).2⟩
    · cases hcheck
  · cases hcheck

/-! ## The report and the loop on their own -/

variable {b b' : Books} {a : Account} {rows : List Account}

theorem expected_ok {account : Uuid} {n : Int} (h : b.expected account = .ok n) :
    n = total CreditLedgerEntry.delta (b.entriesOf account) := by
  unfold Books.expected at h
  split at h
  · cases h
  rename_i m hsum
  cases h
  exact total_of_ledgerSum hsum

/-- The line of a report about an account. -/
def driftLine (b : Books) (a : Account) : BalanceDrift :=
  ⟨a.id, a.balance, total CreditLedgerEntry.delta (b.entriesOf a.id)⟩

/-- Whether an account drifts. -/
def drifted (b : Books) (a : Account) : Bool := drift b a ≠ 0

theorem drifted_iff :
    drifted b a = true ↔ a.balance ≠ total CreditLedgerEntry.delta (b.entriesOf a.id) := by
  unfold drifted drift
  rw [decide_eq_true_iff]
  omega

theorem driftsAmong_ok {ds : List BalanceDrift} (h : b.driftsAmong rows = .ok ds) :
    ds = (rows.filter (drifted b)).map (driftLine b) := by
  induction rows generalizing ds with
  | nil =>
    cases h
    rfl
  | cons a rows ih =>
    obtain ⟨n, hn, h⟩ := bind_ok h
    obtain ⟨rest, hrest, h⟩ := bind_ok h
    obtain rfl := expected_ok hn
    rw [List.filter_cons]
    by_cases hd : drifted b a = true
    · rw [if_pos hd, List.map_cons, ← ih hrest]
      rw [if_pos (drifted_iff.1 hd)] at h
      cases h
      rfl
    · rw [if_neg hd, ← ih hrest]
      rw [if_neg fun hne => hd (drifted_iff.2 hne)] at h
      cases h
      rfl

/-- An account as a rebuild leaves it. -/
def mended (b : Books) (a : Account) : Account :=
  if drifted b a then
    { a with balance := total CreditLedgerEntry.delta (b.entriesOf a.id), version := a.version + 1 }
  else a

@[simp] theorem id_mended (b : Books) (a : Account) : (mended b a).id = a.id := by
  unfold mended
  split <;> rfl

theorem mended_congr (h : b'.entries = b.entries) : mended b' = mended b := by
  unfold mended drifted drift Books.entriesOf
  rw [h]

theorem drifted_congr (h : b'.entries = b.entries) : drifted b' = drifted b := by
  unfold drifted drift Books.entriesOf
  rw [h]

theorem drifted_mended (b : Books) (a : Account) : drifted b (mended b a) = false := by
  unfold mended
  by_cases hd : drifted b a = true
  · rw [if_pos hd]
    simp [drifted, drift]
  · rw [if_neg hd]
    simpa using hd

/-- The accounts of some books, those of a list as a rebuild leaves them. -/
def rebuiltRow (b : Books) (rows : List Account) (a : Account) : Account :=
  if a ∈ rows then mended b a else a

theorem rebuild_ok {n : Int} (ha : a ∈ b.accounts) (h : b.rebuild a.id = .ok (b', n)) :
    b.expected a.id = .ok n ∧ b'.entries = b.entries
      ∧ b'.accounts.rows = b.accounts.rows.map (rebuiltRow b [a]) := by
  have hfind : b.accounts.find? (·.id = a.id) = some a := by
    refine Table.find?_of_mem ha (by simp) ?_
    intro x hx
    exact (by simpa using hx : x.id = a.id)
  unfold Books.rebuild at h
  rw [hfind] at h
  dsimp only at h
  split at h
  · cases h
  rename_i expected hexpected
  obtain rfl := expected_ok hexpected
  have hsame : ∀ x ∈ b.accounts.rows, rebuiltRow b [a] x = if x.id = a.id then mended b a
      else x := by
    intro x hx
    unfold rebuiltRow
    by_cases hxa : x.id = a.id
    · obtain rfl : x = a := Table.eq_of_clash hx ha hxa
      simp
    · have hne : x ≠ a := fun he => hxa (congrArg Account.id he)
      simp [hxa, hne]
  rw [List.map_congr_left hsame]
  split at h
  · -- nothing to do
    rename_i hbal
    cases h
    refine ⟨hexpected, rfl, ?_⟩
    have hd : ¬ drifted b a = true := fun hd => drifted_iff.1 hd hbal
    have hid : ∀ x ∈ b.accounts.rows, (if x.id = a.id then mended b a else x) = x := by
      intro x hx
      split
      · rename_i hxa
        obtain rfl : x = a := Table.eq_of_clash hx ha hxa
        exact if_neg hd
      · rfl
    rw [List.map_congr_left hid, List.map_id']
  · rename_i hbal
    split at h
    · cases h
    split at h
    · cases h
    cases h
    refine ⟨hexpected, rfl, ?_⟩
    have hd : drifted b a = true := drifted_iff.2 hbal
    refine List.map_congr_left fun x hx => ?_
    by_cases hxa : x.id = a.id
    · obtain rfl : x = a := Table.eq_of_clash hx ha hxa
      rw [rewrite_pos _ (by simp), if_pos rfl, mended, if_pos hd]
    · rw [rewrite_neg _ (by simpa using hxa), if_neg hxa]

theorem rebuiltRow_cons (hrows : ∀ r ∈ rows, a.id ≠ r.id) (x : Account) :
    rebuiltRow b rows (rebuiltRow b [a] x) = rebuiltRow b (a :: rows) x := by
  have hnot : mended b a ∉ rows := fun hm => hrows _ hm (id_mended b a).symm
  by_cases hxa : x = a
  · rw [hxa]
    simp [rebuiltRow, hnot]
  · simp [rebuiltRow, hxa]

/-- **The loop leaves each account of its list without drift, and counts those that had one.** -/
theorem rebuildAmong_ok {stats stats' : RebuildStats} (hmem : ∀ r ∈ rows, r ∈ b.accounts)
    (hnd : rows.Pairwise fun r q => r.id ≠ q.id)
    (h : b.rebuildAmong stats rows = (b', .ok stats')) :
    b'.entries = b.entries ∧ b'.accounts.rows = b.accounts.rows.map (rebuiltRow b rows)
      ∧ stats' = ⟨stats.checked + rows.length, stats.repaired + rows.countP (drifted b)⟩
      ∧ ∀ r ∈ rows, ∃ n, b.expected r.id = .ok n := by
  induction rows generalizing b stats with
  | nil =>
    cases h
    refine ⟨rfl, ?_, rfl, nofun⟩
    unfold rebuiltRow
    simp
  | cons a rows ih =>
    rw [Books.rebuildAmong] at h
    split at h
    · cases h
    rename_i b₁ n hstep
    have ha := hmem a (List.mem_cons_self ..)
    obtain ⟨hexpected, hentries₁, hrows₁⟩ := rebuild_ok ha hstep
    obtain ⟨hne, hnd'⟩ := List.pairwise_cons.1 hnd
    -- the rest of the list is not touched by the first rebuild
    have hmem₁ : ∀ r ∈ rows, r ∈ b₁.accounts := by
      intro r hr
      rw [Table.mem_def, hrows₁]
      refine List.mem_map.2 ⟨r, hmem r (List.mem_cons_of_mem _ hr), if_neg ?_⟩
      rw [List.mem_singleton]
      rintro rfl
      exact hne _ hr rfl
    obtain ⟨hentries, hrows, hstats, hall⟩ := ih hmem₁ hnd' h
    refine ⟨hentries.trans hentries₁, ?_, ?_, ?_⟩
    · rw [hrows, hrows₁, List.map_map]
      refine List.map_congr_left fun x _ => ?_
      have hcong : rebuiltRow b₁ rows = rebuiltRow b rows := by
        unfold rebuiltRow
        rw [mended_congr hentries₁]
      rw [hcong]
      exact rebuiltRow_cons hne x
    · have hn := expected_ok hexpected
      rw [hstats, List.countP_cons, List.length_cons, drifted_congr hentries₁]
      by_cases hd : drifted b a = true
      · have hbal : a.balance ≠ n := by
          rw [hn]
          exact drifted_iff.1 hd
        simp [hd, hbal]
        omega
      · have hbal : a.balance = n := by
          by_contra hne'
          rw [hn] at hne'
          exact hd (drifted_iff.2 hne')
        simp [hd, hbal]
        omega
    · intro r hr
      rcases List.mem_cons.1 hr with rfl | hr
      · exact ⟨n, hexpected⟩
      · obtain ⟨m, hm⟩ := hall r hr
        refine ⟨m, ?_⟩
        unfold Books.expected Books.ledgerSum Books.entriesOf at hm ⊢
        rwa [hentries₁] at hm

theorem rebuild_drifts {account : Uuid} {n : Int}
    (h : b.rebuild account = .ok (b', n)) : DriftsAfter b b' := by
  unfold Books.rebuild at h
  split at h
  · cases h
  rename_i row hrow
  split at h
  · cases h
  rename_i expected hexpected
  split at h
  · cases h
    exact .refl b
  · split at h
    · cases h
    split at h
    · cases h
    · cases h
      exact driftsAfter_mend (Table.mem_of_find? hrow) (expected_ok hexpected)

/-- What the loop has repaired before it raises stays repaired. -/
theorem rebuildAmong_drifts (b : Books) (stats : RebuildStats) (rows : List Account) :
    DriftsAfter b (b.rebuildAmong stats rows).1 := by
  induction rows generalizing b stats with
  | nil => exact .refl b
  | cons a rows ih =>
    rw [Books.rebuildAmong]
    split
    · exact .refl b
    · rename_i b₁ n hstep
      exact (rebuild_drifts hstep).trans (ih _ _)

theorem driftsAmong_eq (h : ∀ r ∈ rows, ∃ n, b.expected r.id = .ok n) :
    b.driftsAmong rows = .ok ((rows.filter (drifted b)).map (driftLine b)) := by
  have hok : ∃ ds, b.driftsAmong rows = .ok ds := by
    induction rows with
    | nil => exact ⟨[], rfl⟩
    | cons a rows ih =>
      obtain ⟨n, hn⟩ := h a (List.mem_cons_self ..)
      obtain ⟨ds, hds⟩ := ih fun r hr => h r (List.mem_cons_of_mem _ hr)
      rw [Books.driftsAmong, hn, hds]
      exact ⟨_, rfl⟩
  obtain ⟨ds, hds⟩ := hok
  rw [hds, driftsAmong_ok hds]

theorem mem_accountsByPk : a ∈ b.accountsByPk ↔ a ∈ b.accounts :=
  List.mem_insertionSort _

theorem accountsByPk_apart (b : Books) : b.accountsByPk.Pairwise fun a a' => a.id ≠ a'.id := by
  refine (List.perm_insertionSort _ b.accounts.rows).symm.pairwise b.accounts.apart ?_
  intro a a' h h'
  exact h h'.symm

/--
**`rebuild_all` repairs what `find_drifts` reports, and nothing else.** When it answers,
the report before had one line for each account it repaired, with the balance it found
and the one it saved; `reconcile` finds nothing afterwards; and no entry and no other
account was touched. When it raises, each account is as it was or without drift.
-/
theorem rebuildAll_report (b : Books) :
    DriftsAfter b b.rebuildAll.1 ∧ ∀ b' stats, b.rebuildAll = (b', .ok stats) →
      ∃ ds, b.findDrifts = .ok ds
        ∧ (∀ (τ : Type) (now : τ), b'.reconcile now = .ok ⟨b'.accounts.rows.length, 0, []⟩)
        ∧ stats = ⟨b.accounts.rows.length, ds.length⟩ ∧ b'.entries = b.entries
        ∧ ∀ a' ∈ b'.accounts, ∃ a ∈ b.accounts, a.id = a'.id
          ∧ ((∀ d ∈ ds, d.accountId ≠ a.id) ∧ a' = a
            ∨ ∃ d ∈ ds, d.accountId = a.id ∧ d.cachedBalance = a.balance
              ∧ a'.balance = d.ledgerSum ∧ a'.version = a.version + 1) := by
  refine ⟨rebuildAmong_drifts b _ _, ?_⟩
  intro b' stats h
  obtain ⟨hentries, hrows, hstats, hall⟩ :=
    rebuildAmong_ok (fun r hr => mem_accountsByPk.1 hr) (accountsByPk_apart b) h
  -- every account was gone through
  have hrebuilt : ∀ a ∈ b.accounts.rows, rebuiltRow b b.accountsByPk a = mended b a :=
    fun a ha => if_pos (mem_accountsByPk.2 ha)
  rw [List.map_congr_left hrebuilt] at hrows
  have hmem : ∀ a' ∈ b'.accounts, ∃ a ∈ b.accounts, mended b a = a' := by
    intro a' ha'
    rw [Table.mem_def, hrows] at ha'
    exact List.mem_map.1 ha'
  refine ⟨_, driftsAmong_eq hall, ?_, ?_, hentries, ?_⟩
  · have hexpected : ∀ r ∈ b'.accountsByPk, ∃ n, b'.expected r.id = .ok n := by
      intro r hr
      obtain ⟨a, ha, rfl⟩ := hmem r (mem_accountsByPk.1 hr)
      obtain ⟨n, hn⟩ := hall a (mem_accountsByPk.2 ha)
      refine ⟨n, ?_⟩
      rw [id_mended]
      unfold Books.expected Books.ledgerSum Books.entriesOf at hn ⊢
      rwa [hentries]
    have hnone : b'.accountsByPk.filter (drifted b') = [] := by
      rw [List.filter_eq_nil_iff]
      intro r hr
      obtain ⟨a, _, rfl⟩ := hmem r (mem_accountsByPk.1 hr)
      rw [drifted_congr hentries, drifted_mended]
      exact Bool.false_ne_true
    intro τ now
    rw [Books.reconcile, Books.findDrifts, driftsAmong_eq hexpected, hnone]
    rfl
  · rw [hstats, List.length_map, ← List.countP_eq_length_filter]
    simp [Books.accountsByPk, List.length_insertionSort]
  · intro a' ha'
    obtain ⟨a, ha, rfl⟩ := hmem a' ha'
    refine ⟨a, ha, (id_mended b a).symm, ?_⟩
    have hline : ∀ d ∈ (b.accountsByPk.filter (drifted b)).map (driftLine b),
        ∃ x ∈ b.accounts, drifted b x = true ∧ driftLine b x = d := by
      intro d hd
      obtain ⟨x, hx, rfl⟩ := List.mem_map.1 hd
      obtain ⟨hx, hxd⟩ := List.mem_filter.1 hx
      exact ⟨x, mem_accountsByPk.1 hx, hxd, rfl⟩
    by_cases hd : drifted b a = true
    · right
      refine ⟨driftLine b a, List.mem_map_of_mem (List.mem_filter.2 ⟨mem_accountsByPk.2 ha, hd⟩),
        rfl, rfl, ?_⟩
      rw [mended, if_pos hd]
      exact ⟨rfl, rfl⟩
    · left
      refine ⟨?_, by rw [mended, if_neg hd]⟩
      intro d hmem hid
      obtain ⟨x, hx, hxd, rfl⟩ := hline d hmem
      obtain rfl : x = a := Table.eq_of_clash hx ha hid
      exact hd hxd

end Roamkit.Billing.Proof
