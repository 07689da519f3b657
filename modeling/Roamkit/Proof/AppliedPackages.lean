import Roamkit.Esims.AppliedPackages
import Roamkit.Proof.HistoryPairs

/-!
# Rows bound by their places

A sync binds the `k`-th row of a package to the `k`-th later top-up of it, whatever has
become of that top-up and whatever else the row says. So it agrees with the history where
the places do.
-/

namespace Roamkit.Esims.Proof

open Lib Billing Billing.Proof Spend

variable {rows : List SimPackageDTO} {esim : Nat} {s s' : PackagesDb}
  {parse : String → Except Exc (Option Time)}

/-- The later top-ups of a package. -/
def laterOf (topups : List TopupRow) (package : String) : List TopupRow :=
  (topups.filter isLater).filter (·.packageExternalId = package)

/-- The rows of a package that are of top-ups. -/
def rowsOf (rows : List SimPackageDTO) (package : String) : List SimPackageDTO :=
  (topupRows rows).filter (·.packageExternalId = package)

/-- The bindings that are stored for an eSIM are one to one, of fulfilled top-ups, and not other
than those of the history. -/
structure BindsWell (s : PackagesDb) (esim : Nat) (history : Matching) : Prop where
  rowOnce : ∀ a ∈ s.applied, ∀ b ∈ s.applied, a.esim = esim → b.esim = esim →
    a.instanceId = b.instanceId → a.topup = b.topup
  topupOnce : ∀ a ∈ s.applied, ∀ b ∈ s.applied, a.esim = esim → b.esim = esim →
    a.topup = b.topup → a.instanceId = b.instanceId
  fulfilled : ∀ a ∈ s.applied, a.esim = esim
    → ∃ t ∈ s.topups, t.id = a.topup ∧ t.status = .fulfilled
  agrees : ∀ row t, (row, .topup t) ∈ history.pairs → ∀ a ∈ s.applied, a.esim = esim →
    a.instanceId = row.instanceId → a.topup = t.id

/-- The original SIM is fulfilled where it has a row, and so is every later top-up that has one at
its place, to which no other top-up is tied. -/
structure InStep (topups : List TopupRow) (rows : List SimPackageDTO)
    (unused : List TopupRow) : Prop where
  initial : ∀ t ∈ topups, t.sequence = some 0 →
    (∃ row ∈ esimRows rows, row.packageExternalId = t.packageExternalId)
      ∨ (esimRows rows).length = 1 →
    t.status = .fulfilled
  later : ∀ package (k : Nat) t row, (laterOf topups package)[k]? = some t
    → (rowsOf rows package)[k]? = some row →
    t.status = .fulfilled ∧ ∀ t', Tied (topupRows rows) unused row t' → t' = t

/-! ## What is assigned -/

variable {t : TopupRow} {row : SimPackageDTO} {topups : List TopupRow} {a : AppliedRow}

theorem initialRow_isSome {list : List SimPackageDTO} :
    (∃ row, initialRow? t list = some row)
      ↔ (∃ row ∈ list, row.packageExternalId = t.packageExternalId) ∨ list.length = 1 := by
  unfold initialRow?
  split
  · rename_i row hfind
    have hfound := List.find?_some hfind
    constructor
    · intro _
      exact .inl ⟨row, List.mem_of_find?_eq_some hfind, of_decide_eq_true hfound⟩
    · intro _
      exact ⟨row, rfl⟩
  · rename_i hnone
    have hno : ¬ ∃ row ∈ list, row.packageExternalId = t.packageExternalId := by
      rintro ⟨row, hrow, hpackage⟩
      exact List.find?_eq_none.1 hnone row hrow (decide_eq_true hpackage)
    split
    · exact ⟨fun _ => .inr rfl, fun _ => ⟨_, rfl⟩⟩
    · rename_i hmany
      constructor
      · rintro ⟨row, hc⟩
        cases hc
      · rintro (h | hone)
        · exact absurd h hno
        · obtain ⟨row, hrow⟩ := List.length_eq_one_iff.1 hone
          exact absurd hrow (hmany row)

theorem initialRow_mem {list : List SimPackageDTO}
    (h : initialRow? t list = some row) : row ∈ list := by
  unfold initialRow? at h
  split at h
  · rename_i row' hfind
    cases h
    exact List.mem_of_find?_eq_some hfind
  · split at h
    · cases h
      exact List.mem_singleton.2 rfl
    · cases h

theorem mem_assignInitial (h : (t, row) ∈ assignInitial topups rows) :
    t ∈ topups ∧ t.sequence = some 0 ∧ initialRow? t (esimRows rows) = some row := by
  unfold assignInitial at h
  split at h
  · cases h
  rename_i initial hfind
  split at h
  · cases h
  rename_i row' hrow
  have hfound := List.find?_some hfind
  cases List.mem_singleton.1 h
  exact ⟨List.mem_of_find?_eq_some hfind, of_decide_eq_true hfound, hrow⟩

/-- The rows that are left for the later top-ups are all of theirs. -/
theorem remaining_eq (hrows : (rows.map (·.instanceId)).Nodup) (topups : List TopupRow) :
    (topupRows rows).filter (fun row =>
      row.instanceId ∉ (assignInitial topups rows).map (·.2.instanceId))
      = topupRows rows := by
  refine List.filter_eq_self.2 fun row hrow => decide_eq_true ?_
  intro hc
  obtain ⟨⟨t, row'⟩, hx, hid⟩ := List.mem_map.1 hc
  obtain ⟨-, -, hinitial⟩ := mem_assignInitial hx
  obtain ⟨hmem', hesim⟩ := mem_esimRows.1 (initialRow_mem hinitial)
  obtain ⟨hmem, hkind⟩ := mem_topupRows.1 hrow
  have hsame := List.inj_on_of_nodup_map hrows hmem' hmem hid
  rw [← hsame] at hkind
  exact hkind hesim

/-- **A row is assigned to the original SIM, or by its place among those of its package.** -/
theorem mem_assignRows (hrows : (rows.map (·.instanceId)).Nodup) :
    (t, row) ∈ assignRows topups rows ↔ (t, row) ∈ assignInitial topups rows
      ∨ ∃ k : Nat, (laterOf topups t.packageExternalId)[k]? = some t
        ∧ (rowsOf rows t.packageExternalId)[k]? = some row := by
  unfold assignRows
  dsimp only
  rw [remaining_eq hrows, List.mem_append, mem_deal]
  rfl

/-! ## What is stored -/

theorem createApplied_ok {applied applied' : Table AppliedRow}
    (h : createApplied applied a = .ok applied') : applied.insert? a = some applied' := by
  unfold createApplied at h
  split at h
  · cases h
  split at h
  · cases h
  rename_i hinsert
  cases h
  exact hinsert

theorem mem_bulkCreate {snapshots : List AppliedRow} {applied applied' : Table AppliedRow}
    (h : snapshots.foldlM createApplied applied = .ok applied') :
    a ∈ applied' ↔ a ∈ applied ∨ a ∈ snapshots := by
  induction snapshots generalizing applied with
  | nil =>
    rw [List.foldlM_nil] at h
    cases h
    exact ⟨.inl, fun h => h.resolve_right List.not_mem_nil⟩
  | cons b bs ih =>
    rw [List.foldlM_cons] at h
    obtain ⟨next, hnext, h⟩ := bind_ok h
    rw [ih h, Table.mem_insert (createApplied_ok hnext), List.mem_cons, or_assoc]

theorem snapshot_eq {assignment : TopupRow × SimPackageDTO} {now : Time}
    (h : snapshot parse esim now assignment = .ok a) :
    a.esim = esim ∧ a.topup = assignment.1.id ∧ a.instanceId = assignment.2.instanceId := by
  unfold snapshot at h
  obtain ⟨activatedAt, -, h⟩ := bind_ok h
  obtain ⟨expiredAt, -, h⟩ := bind_ok h
  obtain ⟨finishedAt, -, h⟩ := bind_ok h
  cases h
  exact ⟨rfl, rfl, rfl⟩

/-- The columns of the top-ups a sync leaves alone. -/
def outline (topups : Table TopupRow) : List (Uuid × TopupStatus) :=
  topups.rows.map fun t => (t.id, t.status)

theorem outline_update (topups : Table TopupRow) (p : TopupRow → Bool) (status : String) :
    outline (topups.update p (withPackageStatus status) (withPackageStatus_keeps status))
      = outline topups := by
  have hrow : ∀ t : TopupRow, ((rewrite p (withPackageStatus status) t).id,
      (rewrite p (withPackageStatus status) t).status) = (t.id, t.status) := by
    intro t
    by_cases hp : p t = true
    · rw [rewrite_pos _ hp]
      rfl
    · rw [rewrite_neg _ hp]
  unfold outline
  rw [Table.rows_update, List.map_map]
  exact List.map_congr_left fun t _ => hrow t

theorem outline_save (assignments : List (TopupRow × SimPackageDTO)) (topups : Table TopupRow) :
    outline (assignments.foldl savePackageStatus topups) = outline topups := by
  induction assignments generalizing topups with
  | nil => rfl
  | cons x xs ih =>
    rw [List.foldl_cons, ih]
    unfold savePackageStatus
    split
    · rfl
    · exact outline_update _ _ _

/-- What a sync stores: its assignments in the place of what was there, and no other top-up of its
eSIM. -/
structure Synced (s s' : PackagesDb) (esim : Nat)
    (assignments : List (TopupRow × SimPackageDTO)) : Prop where
  bound : ∀ a ∈ s'.applied, a.esim = esim
    → ∃ x ∈ assignments, a.topup = x.1.id ∧ a.instanceId = x.2.instanceId
  stored : ∀ x ∈ assignments, ∃ a ∈ s'.applied, a.esim = esim ∧ a.topup = x.1.id
    ∧ a.instanceId = x.2.instanceId
  topups : outline s'.topups = outline s.topups

theorem sync_synced {n : Nat} (h : syncAppliedPackages parse s esim rows = .ok (n, s')) :
    Synced s s' esim (assignRows (sequenced s.topups esim) rows) := by
  unfold syncAppliedPackages at h
  obtain ⟨snapshots, hsnapshots, h⟩ := bind_ok h
  obtain ⟨applied, happlied, h⟩ := bind_ok h
  cases h
  refine ⟨?_, ?_, ?_⟩
  · intro a ha hesim
    rcases (mem_bulkCreate happlied).1 ha with hold | hnew
    · obtain ⟨-, hother⟩ := Table.mem_remove.1 hold
      rw [decide_eq_true hesim] at hother
      cases hother
    · obtain ⟨x, hx, hsnapshot⟩ := mem_of_mapM hsnapshots hnew
      obtain ⟨-, htopup, hinstance⟩ := snapshot_eq hsnapshot
      exact ⟨x, hx, htopup, hinstance⟩
  · intro x hx
    obtain ⟨a, ha, hsnapshot⟩ := mapM_image hsnapshots hx
    exact ⟨a, (mem_bulkCreate happlied).2 (.inr ha), snapshot_eq hsnapshot⟩
  · dsimp only
    rw [outline_update, outline_save]

/-! ## The bindings and the history -/

theorem topup_unique {table : Table TopupRow} {u : TopupRow} (ht : t ∈ table) (hu : u ∈ table)
    (h : t.id = u.id) : t = u := Table.eq_of_clash ht hu (.inl h)

theorem mem_sorted : t ∈ sequenced s.topups esim ↔ t ∈ s.topups ∧ t.esim = esim := by
  rw [sequenced, List.mem_insertionSort, topupsOf, List.mem_filter, decide_eq_true_eq]
  rfl

/-- The original SIM of an eSIM is the only one. -/
theorem find_initial (ht : t ∈ sequenced s.topups esim) (hsequence : t.sequence = some 0) :
    (sequenced s.topups esim).find? (·.sequence = some 0) = some t := by
  cases hfind : (sequenced s.topups esim).find? (·.sequence = some 0) with
  | none => exact absurd (decide_eq_true hsequence) (List.find?_eq_none.1 hfind t ht)
  | some u =>
    have hfound := List.find?_some hfind
    have hu := mem_sorted.1 (List.mem_of_find?_eq_some hfind)
    have ht' := mem_sorted.1 ht
    have hsequence' : u.sequence = some 0 := of_decide_eq_true hfound
    have hclash : Constraint.clash u t := by
      refine .inr ⟨hu.2.trans ht'.2.symm, ?_, hsequence'.trans hsequence.symm⟩
      rw [hsequence']
      exact Option.some_ne_none _
    rw [Table.eq_of_clash hu.1 ht'.1 hclash]

theorem mem_laterOf {package : String} {k : Nat} (h : (laterOf topups package)[k]? = some t) :
    t ∈ topups ∧ t.packageExternalId = package := by
  obtain ⟨hmem, hpackage⟩ := List.mem_filter.1 (List.mem_of_getElem? h)
  exact ⟨(List.mem_filter.1 hmem).1, of_decide_eq_true hpackage⟩

theorem mem_rowsOf {package : String} {k : Nat} (h : (rowsOf rows package)[k]? = some row) :
    row ∈ topupRows rows :=
  (List.mem_filter.1 (List.mem_of_getElem? h)).1

/-- What an assignment is of. -/
theorem assigned_mem (hrows : (rows.map (·.instanceId)).Nodup) {x : TopupRow × SimPackageDTO}
    (hx : x ∈ assignRows (sequenced s.topups esim) rows) :
    x.1 ∈ s.topups ∧ x.2 ∈ rows := by
  obtain ⟨t, row⟩ := x
  rcases (mem_assignRows hrows).1 hx with hinitial | ⟨k, hlater, hrow⟩
  · obtain ⟨ht, -, hrow⟩ := mem_assignInitial hinitial
    exact ⟨(mem_sorted.1 ht).1, (mem_esimRows.1 (initialRow_mem hrow)).1⟩
  · exact ⟨(mem_sorted.1 (mem_laterOf hlater).1).1, (mem_topupRows.1 (mem_rowsOf hrow)).1⟩

namespace Synced

variable {assignments : List (TopupRow × SimPackageDTO)}

/-- The top-up of a binding has the status it was read with. -/
theorem status_iff (h : Synced s s' esim assignments) (ht : t ∈ s.topups) {id : Uuid}
    (hid : id = t.id) :
    (∃ u ∈ s'.topups, u.id = id ∧ u.status = .fulfilled) ↔ t.status = .fulfilled := by
  have houtline : ∀ db : PackagesDb, (id, TopupStatus.fulfilled) ∈ outline db.topups
      ↔ ∃ u ∈ db.topups, u.id = id ∧ u.status = .fulfilled := by
    intro db
    unfold outline
    rw [List.mem_map]
    constructor
    · rintro ⟨u, hu, heq⟩
      exact ⟨u, hu, (Prod.mk.inj heq).1, (Prod.mk.inj heq).2⟩
    · rintro ⟨u, hu, huid, hustatus⟩
      exact ⟨u, hu, Prod.ext huid hustatus⟩
  rw [← houtline, h.topups, houtline]
  constructor
  · rintro ⟨u, hu, huid, hstatus⟩
    rw [← topup_unique hu ht (huid.trans hid)]
    exact hstatus
  · intro hstatus
    exact ⟨t, ht, hid.symm, hstatus⟩

end Synced

/--
**What a sync stores is one to one; it is bound to fulfilled top-ups only and agrees with the
history exactly when the places of the rows do.**
-/
theorem sync_binds_iff {n : Nat} (order : InitialOrder)
    (unused : Candidates (topupsOf s.topups esim)) (hrows : (rows.map (·.instanceId)).Nodup)
    (h : syncAppliedPackages parse s esim rows = .ok (n, s')) :
    BindsWell s' esim (matchSpend order unused rows)
      ↔ InStep (sequenced s.topups esim) rows unused.rows := by
  have hsynced := sync_synced h
  have hhistory : ∀ row t, (row, LocalSpend.topup t) ∈ (matchSpend order unused rows).pairs
      ↔ Tied (topupRows rows) unused.rows row t := fun row t =>
    mem_history order unused (topupsOf_ids s.topups esim) hrows
  have hinv := (matchSpend_matched order unused (topupsOf_ids s.topups esim) hrows).inv
  -- a top-up of the history is one of the eSIM, and its row is of a top-up
  have hpaired : ∀ row t, (row, LocalSpend.topup t) ∈ (matchSpend order unused rows).pairs →
      row ∈ topupRows rows ∧ t ∈ s.topups := by
    intro row t hp
    rcases hinv.kinds _ hp with ⟨hc, -⟩ | ⟨u, hu, heq, hkind⟩
    · cases hc
    cases heq
    have hmem := (List.mem_filter.1 (unused.perm.mem_iff.1 hu)).1
    exact ⟨mem_topupRows.2 ⟨hinv.rows _ hp, hkind⟩, (List.mem_filter.1 hmem).1⟩
  constructor
  · intro hbinds
    have hfulfilled : ∀ x ∈ assignRows (sequenced s.topups esim) rows,
        x.1.status = .fulfilled := by
      intro x hx
      obtain ⟨a, ha, hesim, htopup, -⟩ := hsynced.stored x hx
      exact (hsynced.status_iff (assigned_mem hrows hx).1 htopup).1 (hbinds.fulfilled a ha hesim)
    constructor
    · intro t ht hsequence hrow
      obtain ⟨row, hrow⟩ := initialRow_isSome.2 hrow
      refine hfulfilled (t, row) ((mem_assignRows hrows).2 (.inl ?_))
      unfold assignInitial
      rw [find_initial ht hsequence]
      dsimp only
      rw [hrow]
      exact List.mem_singleton.2 rfl
    · intro package k t row hlater hrow
      obtain ⟨ht, hpackage⟩ := mem_laterOf hlater
      have hx : (t, row) ∈ assignRows (sequenced s.topups esim) rows := by
        refine (mem_assignRows hrows).2 (.inr ⟨k, ?_, ?_⟩)
        · rw [hpackage]
          exact hlater
        · rw [hpackage]
          exact hrow
      refine ⟨hfulfilled _ hx, ?_⟩
      intro t' htied
      have hp := (hhistory row t').2 htied
      obtain ⟨a, ha, hesim, htopup, hinstance⟩ := hsynced.stored _ hx
      have hid := hbinds.agrees row t' hp a ha hesim hinstance
      exact topup_unique (hpaired row t' hp).2 (mem_sorted.1 ht).1 (hid.symm.trans htopup)
  · intro hstep
    refine ⟨?_, ?_, ?_, ?_⟩
    · intro a ha b hb hesim hesim' hinstance
      rw [Table.eq_of_clash ha hb (.inr ⟨hesim.trans hesim'.symm, .inl hinstance⟩)]
    · intro a ha b hb _ _ htopup
      rw [Table.eq_of_clash ha hb (.inl htopup)]
    · intro a ha hesim
      obtain ⟨⟨t, row⟩, hx, htopup, -⟩ := hsynced.bound a ha hesim
      refine (hsynced.status_iff (assigned_mem hrows hx).1 htopup).2 ?_
      rcases (mem_assignRows hrows).1 hx with hinitial | ⟨k, hlater, hrow⟩
      · obtain ⟨ht, hsequence, hrow⟩ := mem_assignInitial hinitial
        exact hstep.initial t ht hsequence (initialRow_isSome.1 ⟨row, hrow⟩)
      · exact (hstep.later _ k t row hlater hrow).1
    · intro row t hp a ha hesim hinstance
      obtain ⟨⟨t', row'⟩, hx, htopup, hinstance'⟩ := hsynced.bound a ha hesim
      have hmem := (mem_topupRows.1 (hpaired row t hp).1).1
      obtain rfl : row' = row :=
        List.inj_on_of_nodup_map hrows (assigned_mem hrows hx).2 hmem
          (hinstance'.symm.trans hinstance)
      rcases (mem_assignRows hrows).1 hx with hinitial | ⟨k, hlater, hrow⟩
      · -- the history pairs no row of the eSIM itself with a top-up
        obtain ⟨-, -, hrow⟩ := mem_assignInitial hinitial
        exact absurd (mem_esimRows.1 (initialRow_mem hrow)).2
          (mem_topupRows.1 (hpaired row' t hp).1).2
      · rw [(hstep.later _ k t' row' hlater hrow).2 t ((hhistory row' t).1 hp)]
        exact htopup

/-! ## A sync that binds other top-ups -/

/-- The bindings that are stored, when a sync has returned. -/
def bindings (r : Except Exc (Nat × PackagesDb)) : Option (List (Nat × String × Uuid)) :=
  match r with
  | .ok (_, s) => some (s.applied.rows.map fun a => (a.esim, a.instanceId, a.topup))
  | .error _ => none

theorem bindings_some {r : Except Exc (Nat × PackagesDb)} (stored : List (Nat × String × Uuid))
    (h : bindings r = some stored) :
    ∃ n s, r = .ok (n, s) ∧ ∀ b ∈ stored, ∃ a ∈ s.applied, (a.esim, a.instanceId, a.topup) = b := by
  unfold bindings at h
  split at h
  · rename_i n s
    refine ⟨n, s, rfl, fun b hb => ?_⟩
    rw [← Option.some.inj h] at hb
    exact List.mem_map.1 hb
  · cases h

/-- Nothing was synced yet. -/
def unsynced (topups : Table TopupRow) : PackagesDb := ⟨topups, .empty, 0⟩

/-- A first top-up that failed, and one of the same package that did not. -/
def retried : Table TopupRow :=
  ⟨[⟨alice, 1, "more", fiveDollars, .failed, some 1, "", "", 1⟩,
    ⟨bob, 1, "more", fiveDollars, .fulfilled, some 2, "", "b", 2⟩], by decide⟩

def retriedCandidates : Candidates (topupsOf retried 1) :=
  ⟨[⟨bob, 1, "more", fiveDollars, .fulfilled, some 2, "", "b", 2⟩], by decide, by decide⟩

/-- The list has the one package that was applied, with the id of the second purchase. -/
def oneTopup : List SimPackageDTO :=
  [⟨"i2", "active", none, none, none, none, "more", "topup", "1 GB", 7, false, some "b",
    none, none⟩]

/-- The row goes to the top-up that failed, though the history pairs it with the other. -/
theorem sync_binds_failed :
    ∃ n s', syncAppliedPackages (fun _ => .ok none) (unsynced retried) 1 oneTopup = .ok (n, s')
    ∧ (∃ a ∈ s'.applied, a.esim = 1 ∧ a.instanceId = "i2" ∧ a.topup = alice)
    ∧ (matchSpend tenDollars retriedCandidates oneTopup).paid = [("i2", 5000000)]
    ∧ ¬ BindsWell s' 1 (matchSpend tenDollars retriedCandidates oneTopup) := by
  obtain ⟨n, s', hsync, hstored⟩ := @bindings_some
    (syncAppliedPackages (fun _ => .ok none) (unsynced retried) 1 oneTopup)
    [(1, "i2", alice)] (by decide)
  obtain ⟨a, ha, hbound⟩ := hstored _ (List.mem_singleton.2 rfl)
  simp only [Prod.mk.injEq] at hbound
  obtain ⟨hesim, hinstance, htopup⟩ := hbound
  refine ⟨n, s', hsync, ⟨a, ha, hesim, hinstance, htopup⟩, by decide, ?_⟩
  intro hbinds
  have hfailed :=
      ((sync_synced hsync).status_iff (t := retried.rows.head (by decide))
        (List.head_mem _) htopup).1
    (hbinds.fulfilled a ha hesim)
  cases hfailed

/-- The candidates of the two purchases, as the sync finds them. -/
def unsyncedCandidates : Candidates (topupsOf (unsynced twoPurchases).topups 1) := inTurnCandidates

/-- The list has the first of the two purchases. -/
def firstListed : List SimPackageDTO :=
  [⟨"i2", "active", none, none, none, none, "more", "topup", "1 GB", 7, false, some "a",
    none, none⟩]

/-- The first of the two purchases. -/
def firstPurchase : TopupRow :=
  ⟨alice, 1, "more", fiveDollars, .fulfilled, some 1, "", "a", 1⟩

theorem firstListed_inStep : InStep (sequenced (unsynced twoPurchases).topups 1) firstListed
    unsyncedCandidates.rows := by
  have hnone : esimRows firstListed = [] := by decide
  constructor
  · intro t _ _ hrow
    rw [hnone] at hrow
    rcases hrow with ⟨row, hmem, -⟩ | hone
    · cases hmem
    · cases hone
  · intro package k t row hlater hrow
    have hmem := List.mem_of_getElem? hrow
    obtain ⟨hlisted, hpackage⟩ := List.mem_filter.1 hmem
    have hone := List.mem_singleton.1 (mem_topupRows.1 hlisted).1
    obtain rfl : "more" = package := by
      rw [← of_decide_eq_true hpackage, hone]
    have hrows : rowsOf firstListed "more" = firstListed := by decide
    rw [hrows] at hrow
    obtain ⟨hk, -⟩ := List.getElem?_eq_some_iff.1 hrow
    obtain rfl : k = 0 := by
      have hlength : firstListed.length = 1 := rfl
      omega
    have hfirst : (laterOf (sequenced (unsynced twoPurchases).topups 1) "more")[0]?
        = some firstPurchase := by
      decide
    rw [hfirst] at hlater
    cases hlater
    refine ⟨rfl, ?_⟩
    intro t' htied
    have hp :=
      (mem_history tenDollars unsyncedCandidates (topupsOf_ids twoPurchases 1) (by decide)).2 htied
    have hpairs : ∀ p ∈ (matchSpend tenDollars unsyncedCandidates firstListed).pairs,
        p.2 = .topup firstPurchase := by decide
    have hspend := hpairs _ hp
    cases hspend
    rfl

theorem sync_binds_first : ∃ n s',
    syncAppliedPackages (fun _ => .ok none) (unsynced twoPurchases) 1 firstListed = .ok (n, s')
      ∧ (∃ a ∈ s'.applied, a.esim = 1 ∧ a.instanceId = "i2" ∧ a.topup = alice)
      ∧ BindsWell s' 1 (matchSpend tenDollars unsyncedCandidates firstListed) := by
  obtain ⟨n, s', hsync, hstored⟩ := @bindings_some
    (syncAppliedPackages (fun _ => .ok none) (unsynced twoPurchases) 1 firstListed)
    [(1, "i2", alice)] (by decide)
  obtain ⟨a, ha, hbound⟩ := hstored (1, "i2", alice) List.mem_cons_self
  simp only [Prod.mk.injEq] at hbound
  have hbinds :=
    (sync_binds_iff tenDollars unsyncedCandidates (by decide) hsync).2 firstListed_inStep
  exact ⟨n, s', hsync, ⟨a, ha, hbound⟩, hbinds⟩

end Roamkit.Esims.Proof
