import Roamkit.Models.FrozenRows

/-!
# Which operations leave the frozen rows as they are

A row of one of the five models is `Intact` when it is still there with its frozen
columns. The file goes through the operations, one spec lemma each: what the
managers let through (`updateRefusal`), what `save` lets through (`saveRefusal`),
and how far a deletion reaches (`Lib.GoesWith` over the foreign keys).
-/

namespace Roamkit.Models.Proof

open Roamkit Models Lib Lib.Constraint

variable {db : Database} {s : Table Row} {m : FrozenModel} {filter : Row → Bool}
  {sets kwargs : Assignments} {roots : List Key}

/-- The row is still there with its frozen columns. -/
def Intact (m : FrozenModel) (r : Row) (fate : Option Row) : Prop :=
  ∃ q, fate = some q ∧ q.model = r.model ∧ ∀ c ∈ m.frozen, q.values c = r.values c

/-- Every frozen row comes out of a change intact. -/
def KeptBy (w : Change s) : Prop :=
  ∀ m : FrozenModel, ∀ r ∈ s, r.model = m.model → Intact m r (w.fate r)

/-- Every frozen row comes out of what a call makes intact; a call that raises makes nothing. -/
def Kept (call : Except Exc (Change s)) : Prop := ∀ w, call = .ok w → KeptBy w

theorem intact_self (m : FrozenModel) (r : Row) : Intact m r (some r) :=
  ⟨r, rfl, rfl, fun _ _ => rfl⟩

theorem model_injective {m m' : FrozenModel} (h : m.model = m'.model) : m = m' := by
  cases m <;> cases m' <;> first | rfl | cases h

/-! ## Putting calls together -/

@[simp] theorem kept_error (e : Exc) : Kept (s := s) (.error e) := by
  intro w h
  cases h

theorem kept_bind {α : Type} {x : Except Exc α} {f : α → Except Exc (Change s)} :
    Kept (x >>= f) ↔ ∀ a, x = .ok a → Kept (f a) := by
  constructor
  · intro h a ha w hw
    exact h w (by rw [ha]; exact hw)
  · intro h w hw
    obtain ⟨a, ha, hf⟩ := bind_ok hw
    exact h a ha w hf

theorem kept_ite {p : Prop} [Decidable p] {x y : Except Exc (Change s)} :
    Kept (if p then x else y) ↔ (p → Kept x) ∧ (¬ p → Kept y) := by
  by_cases hp : p
  · simp [hp]
  · simp [hp]

theorem kept_unchanged : Kept (.ok (unchanged s)) := by
  intro w h
  cases h
  intro m r _ _
  exact intact_self m r

variable {added : List Row} {e instance_ r : Row} {c : String} {model : Model} {adding : Bool}
  {columns : List String} {options : SaveOptions} {k : Key}

theorem commit_ok {fate : Row → Option Row} {w : Change s} (h : db.commit s fate added = .ok w) :
    w.fate = fate ∧ db.Takes (s.rows.filterMap fate ++ added) := by
  unfold Database.commit at h
  split at h
  · rename_i happ
    split at h
    · rename_i hacc
      cases h
      exact ⟨rfl, happ, hacc⟩
    · cases h
  · cases h

/-- What is committed keeps the frozen rows, unless a constraint stops it. -/
theorem kept_commit {fate : Row → Option Row} :
    Kept (db.commit s fate added) ↔ (db.Takes (s.rows.filterMap fate ++ added) →
      ∀ m : FrozenModel, ∀ r ∈ s, r.model = m.model → Intact m r (fate r)) := by
  constructor
  · intro h htakes
    have hok : db.commit s fate added = .ok ⟨fate, added, htakes.1⟩ := by
      rw [Database.commit, dif_pos htakes.1, if_pos htakes.2]
    exact h _ hok
  · intro h w hw
    obtain ⟨hfate, htakes⟩ := commit_ok hw
    intro m r hr hm
    rw [hfate]
    exact h htakes m r hr hm

/-- An insert leaves the stored rows as they are. -/
theorem kept_insert (added : List Row) : Kept (db.commit s some added) :=
  kept_commit.2 fun _ m r _ _ => intact_self m r

/-! ## Setting columns -/

theorem assign_of_not_mem (h : ∀ set ∈ sets, set.1 ≠ c) :
    (assign sets r).values c = r.values c := by
  have hnone : sets.find? (fun set => set.1 == c) = none := by
    rw [List.find?_eq_none]
    intro set hset
    simpa using h set hset
  simp [assign, hnone]

theorem assign_of_mem {set : String × (Row → Value)} (hnodup : (sets.map Prod.fst).Nodup)
    (h : set ∈ sets) :
    (assign sets r).values set.1 = set.2 r := by
  induction sets with
  | nil => cases h
  | cons x sets ih =>
    rw [List.map_cons, List.nodup_cons] at hnodup
    rcases List.mem_cons.1 h with rfl | h
    · simp [assign]
    · have hne : x.1 ≠ set.1 := by
        intro heq
        exact hnodup.1 (heq ▸ List.mem_map_of_mem h)
      have hrest : (assign (x :: sets) r).values set.1 = (assign sets r).values set.1 := by
        simp [assign, List.find?_cons, beq_false_of_ne hne]
      rw [hrest]
      exact ih hnodup.2 h

/-- The update gives a stored row another value in a frozen column, and no constraint of
the database stops it. -/
def Overwrites (db : Database) (s : Table Row) (m : FrozenModel) (filter : Row → Bool)
    (sets : Assignments) : Prop :=
  (∃ r ∈ s, r.model = m.model ∧ filter r ∧
    ∃ set ∈ sets, set.1 ∈ m.frozen ∧ set.2 r ≠ r.values set.1) ∧
  db.Takes (s.rows.map (rewrite (matched m.model filter) (assign sets)))

theorem matched_iff :
    matched model filter r ↔ r.model = model ∧ filter r := by
  simp [matched]

/-- **An update keeps the frozen rows unless it overwrites one.** -/
theorem kept_rewrite (hnodup : (sets.map Prod.fst).Nodup) :
    Kept (db.commit s (fun r => some (rewrite (matched m.model filter) (assign sets) r)) []) ↔
      ¬ Overwrites db s m filter sets := by
  rw [kept_commit]
  have hmap : s.rows.filterMap
      (fun r => some (rewrite (matched m.model filter) (assign sets) r)) ++ [] =
      s.rows.map (rewrite (matched m.model filter) (assign sets)) := by
    rw [List.append_nil]
    exact congrFun List.filterMap_eq_map' s.rows
  rw [hmap]
  constructor
  · rintro h ⟨⟨r, hr, hm, hf, set, hset, hfrozen, hne⟩, htakes⟩
    obtain ⟨q, hq, -, hcols⟩ := h htakes m r hr hm
    rw [rewrite_pos _ (matched_iff.2 ⟨hm, hf⟩)] at hq
    cases hq
    have hval := hcols _ hfrozen
    rw [assign_of_mem hnodup hset] at hval
    exact hne hval
  · intro h htakes m' r hr hm'
    by_cases hmatch : matched m.model filter r
    · obtain ⟨hm, hf⟩ := matched_iff.1 hmatch
      have hmm : m' = m := model_injective (hm'.symm.trans hm)
      subst hmm
      refine ⟨_, rfl, by rw [rewrite_pos _ hmatch]; rfl, fun c hc => ?_⟩
      rw [rewrite_pos _ hmatch]
      by_cases hset : ∃ set ∈ sets, set.1 = c
      · obtain ⟨set, hset, rfl⟩ := hset
        rw [assign_of_mem hnodup hset]
        by_contra hne
        exact h ⟨⟨r, hr, hm, hf, set, hset, hc, hne⟩, htakes⟩
      · exact assign_of_not_mem fun set hmem heq => hset ⟨set, hmem, heq⟩
    · rw [rewrite_neg _ hmatch]
      exact intact_self m' r

/-! ## Which columns a call names -/

theorem columns_nodup (m : FrozenModel) : m.columns.Nodup := by
  cases m <;> decide

theorem getField_cases {name : String} (h : m.getField name = .ok c) :
    name = c ∧ c ∈ m.columns ∨
      ∃ fk ∈ foreignKeys, fk.model = m.model ∧ fk.field = name ∧ fk.attname = c := by
  unfold FrozenModel.getField at h
  split at h
  · rename_i hname
    cases h
    exact .inl ⟨rfl, hname⟩
  · split at h
    · rename_i fk hfk
      cases h
      have hp := List.find?_some hfk
      rw [Bool.and_eq_true, beq_iff_eq, beq_iff_eq] at hp
      exact .inr ⟨fk, List.mem_of_find?_eq_some hfk, hp.1, hp.2, rfl⟩
    · cases h

theorem resolve_cases (h : resolve m kwargs = .ok sets) :
    ∃ columns, kwargs.mapM (fun set => m.getField set.1) = .ok columns ∧ columns.Nodup ∧
      sets = columns.zip (kwargs.map Prod.snd) := by
  obtain ⟨columns, hcolumns, h⟩ := bind_ok h
  by_cases hnodup : columns.Nodup
  · rw [if_pos hnodup] at h
    cases h
    exact ⟨columns, hcolumns, hnodup, rfl⟩
  · rw [if_neg hnodup] at h
    cases h

/-- A resolved call sets no column twice, and names each column it sets. -/
theorem resolve_spec (h : resolve m kwargs = .ok sets) :
    (sets.map Prod.fst).Nodup ∧
      ∀ set ∈ sets, ∃ name ∈ kwargs.map Prod.fst, m.getField name = .ok set.1 := by
  obtain ⟨columns, hcolumns, hnodup, rfl⟩ := resolve_cases h
  have hlen : columns.length ≤ (kwargs.map Prod.snd).length := by
    rw [mapM_length hcolumns, List.length_map]
  constructor
  · rw [List.map_fst_zip hlen]
    exact hnodup
  · intro set hset
    have hmem : set.1 ∈ columns := (List.of_mem_zip (a := set.1) (b := set.2) hset).1
    obtain ⟨x, hx, hget⟩ := mem_of_mapM hcolumns hmem
    exact ⟨x.1, List.mem_map_of_mem hx, hget⟩

/-! ## `QuerySet.update` -/

/-- The models whose manager lets `update` through to the frozen columns. -/
def Updatable (m : FrozenModel) : Prop := m = .creditLedgerEntry ∨ m = .inviteVisit

theorem updateRefusal_updatable {names : List String} (h : Updatable m) :
    updateRefusal s m filter names = .ok () := by
  rcases h with rfl | rfl <;> rfl

/-- What the guard of a renewal cycle lets through names no frozen column. -/
theorem cycle_names {name : String} (h : name ∉ renewalImmutableFields)
    (hget : FrozenModel.subscriptionRenewalCycle.getField name = .ok c) :
    c ∉ FrozenModel.subscriptionRenewalCycle.frozen := by
  have hall : ∀ c ∈ FrozenModel.subscriptionRenewalCycle.frozen, c ∈ renewalImmutableFields := by
    decide
  have hlinks : ∀ fk ∈ foreignKeys, fk.model = .subscriptionRenewalCycle →
      fk.field ∈ renewalImmutableFields := by
    decide
  rcases getField_cases hget with ⟨rfl, -⟩ | ⟨fk, hfk, hm, rfl, -⟩
  · exact fun hc => h (hall _ hc)
  · exact absurd (hlinks fk hfk hm) h

/-- The guards of the other managers let through no update of a frozen column. -/
theorem updateRefusal_guarded (hm : ¬ Updatable m)
    (hguard : updateRefusal s m filter (kwargs.map Prod.fst) = .ok ())
    (hsets : resolve m kwargs = .ok sets) : ∀ set ∈ sets, set.1 ∉ m.frozen := by
  intro set hset
  obtain ⟨name, hname, hget⟩ := (resolve_spec hsets).2 set hset
  cases m with
  | creditLedgerEntry => exact absurd (.inl rfl) hm
  | inviteVisit => exact absurd (.inr rfl) hm
  | partnerMarginAccrual => cases hguard
  | partnerCreditGrant => cases hguard
  | subscriptionRenewalCycle =>
    dsimp only [updateRefusal] at hguard
    split at hguard
    · cases hguard
    rename_i hnone
    refine cycle_names (fun hmem => hnone ?_) hget
    exact List.any_eq_true.2 ⟨name, hname, decide_eq_true hmem⟩

/-- An update reaches a frozen column: the manager of the model has no guard, the names
are those of columns, and one of them gets another value. -/
def UpdateEscapes (db : Database) (s : Table Row) (m : FrozenModel) (filter : Row → Bool)
    (kwargs : Assignments) : Prop :=
  Updatable m ∧ ∃ sets, resolve m kwargs = .ok sets ∧ Overwrites db s m filter sets

theorem kept_update :
    Kept (queryUpdate db s m filter kwargs) ↔ ¬ UpdateEscapes db s m filter kwargs := by
  have hspec : Kept (queryUpdate db s m filter kwargs) ↔
      ∀ u, updateRefusal s m filter (kwargs.map Prod.fst) = .ok u →
        ∀ sets, resolve m kwargs = .ok sets → ¬ Overwrites db s m filter sets := by
    rw [queryUpdate, kept_bind]
    refine forall₂_congr fun u _ => ?_
    rw [kept_bind]
    exact forall₂_congr fun sets hsets => kept_rewrite (resolve_spec hsets).1
  rw [hspec]
  constructor
  · rintro h ⟨hm, sets, hsets, hover⟩
    exact h () (updateRefusal_updatable hm) sets hsets hover
  · intro h u hguard sets hsets hover
    by_cases hm : Updatable m
    · exact h ⟨hm, sets, hsets, hover⟩
    · obtain ⟨⟨r, -, -, -, set, hset, hfrozen, -⟩, -⟩ := hover
      exact updateRefusal_guarded hm hguard hsets set hset hfrozen

/-- A bulk update reaches a frozen column: its arguments are in order, and the update it
sends does. -/
def BulkUpdateEscapes (db : Database) (s : Table Row) (m : FrozenModel) (filter : Row → Bool)
    (objs : List Row) (fields : List String) : Prop :=
  fields ≠ [] ∧ (∀ o ∈ objs, o.values "id" ≠ .null) ∧
  ∃ columns, fields.mapM m.getField = .ok columns ∧ "id" ∉ columns ∧
    UpdateEscapes db s m (listed filter objs) (columns.dedup.map fun c => (c, caseOf objs c))

theorem not_overwrites_of_none (hnone : ∀ r ∈ s, ¬ filter r) :
    ¬ Overwrites db s m filter sets := by
  rintro ⟨⟨r, hr, -, hf, -⟩, -⟩
  exact hnone r hr hf

theorem kept_bulkUpdate {objs : List Row} {fields : List String} :
    Kept (bulkUpdate db s m filter objs fields) ↔
      ¬ BulkUpdateEscapes db s m filter objs fields := by
  have hargs : (fields.isEmpty ∨ (objs.any fun o => o.values "id" == .null)) ↔
      ¬ (fields ≠ [] ∧ ∀ o ∈ objs, o.values "id" ≠ .null) := by
    rw [not_and_or, not_not, List.isEmpty_iff]
    simp
  have hspec : Kept (bulkUpdate db s m filter objs fields) ↔
      ((fields ≠ [] ∧ ∀ o ∈ objs, o.values "id" ≠ .null) →
        ∀ columns, fields.mapM m.getField = .ok columns → "id" ∉ columns → objs ≠ [] →
          ¬ UpdateEscapes db s m (listed filter objs)
            (columns.dedup.map fun c => (c, caseOf objs c))) := by
    rw [bulkUpdate, kept_ite, kept_bind, hargs, not_not]
    refine (and_iff_right fun _ => kept_error _).trans (imp_congr_right fun _ => ?_)
    refine forall₂_congr fun columns _ => ?_
    rw [kept_ite, kept_ite, List.isEmpty_iff]
    refine (and_iff_right fun _ => kept_error _).trans (imp_congr_right fun _ => ?_)
    refine (and_iff_right fun _ => kept_unchanged).trans (imp_congr_right fun _ => ?_)
    exact kept_update
  rw [hspec]
  constructor
  · rintro h ⟨hfields, hkeys, columns, hcolumns, hid, hesc⟩
    refine h ⟨hfields, hkeys⟩ columns hcolumns hid (fun hnil => ?_) hesc
    -- without an object the update matches no row
    obtain ⟨-, sets, -, hover⟩ := hesc
    refine not_overwrites_of_none (fun r _ => ?_) hover
    simp [listed, hnil]
  · rintro h ⟨hfields, hkeys⟩ columns hcolumns hid - hesc
    exact h ⟨hfields, hkeys, columns, hcolumns, hid, hesc⟩

/-! ## `save` -/

theorem sameRow_iff :
    sameRow m instance_ r ↔ r.model = m.model ∧ r.values "id" = instance_.values "id" := by
  simp [sameRow, matched]

/-- An unfinished cycle that a loaded instance agrees with where `save` looks. -/
def Unfinished (m : FrozenModel) (instance_ previous : Row) : Prop :=
  m = .subscriptionRenewalCycle ∧ previous.values "status" ≠ .text "renewed" ∧
    ∀ c ∈ comparedColumns, previous.values c = instance_.values c

theorem sameRow_unique {q : Row} (hr : r ∈ s) (hq : q ∈ s) (hsr : sameRow m instance_ r)
    (hsq : sameRow m instance_ q) : r = q := by
  obtain ⟨hrm, hri⟩ := sameRow_iff.1 hsr
  obtain ⟨hqm, hqi⟩ := sameRow_iff.1 hsq
  refine Table.eq_of_clash hr hq (clash_iff.2 ?_)
  rw [Row.key, Row.key, hrm, hqm, hri, hqi]

/-- The guard of a loaded cycle asks what `Unfinished` says of the stored one. -/
theorem saveRefusal_cycle {previous : Row}
    (hfind : s.find? (sameRow .subscriptionRenewalCycle instance_) = some previous) :
    saveRefusal s .subscriptionRenewalCycle instance_ false = .ok () ↔
      Unfinished .subscriptionRenewalCycle instance_ previous := by
  have hany : (comparedColumns.any fun c => previous.values c != instance_.values c) = true ↔
      ¬ ∀ c ∈ comparedColumns, previous.values c = instance_.values c := by
    rw [List.any_eq_true]
    push Not
    exact exists_congr fun c => and_congr_right fun _ => bne_iff_ne
  unfold saveRefusal
  rw [if_neg Bool.false_ne_true]
  dsimp only
  rw [hfind]
  dsimp only
  by_cases hren : previous.values "status" = .text "renewed"
  · rw [if_pos hren]
    exact ⟨fun h => (nomatch h), fun hu => absurd hren hu.2.1⟩
  · rw [if_neg hren]
    by_cases hcmp : ∀ c ∈ comparedColumns, previous.values c = instance_.values c
    · rw [if_neg (fun h => hany.1 h hcmp)]
      exact ⟨fun _ => ⟨rfl, hren, hcmp⟩, fun _ => rfl⟩
    · rw [if_pos (hany.2 hcmp)]
      exact ⟨fun h => (nomatch h), fun hu => absurd hu.2.2 hcmp⟩

/-- `save` lets a fresh instance through, and an instance of an unfinished cycle. -/
theorem saveRefusal_ok :
    saveRefusal s m instance_ adding = .ok () ↔
      adding = true ∨ ∃ r ∈ s, sameRow m instance_ r ∧ Unfinished m instance_ r := by
  cases adding with
  | true => exact ⟨fun _ => .inl rfl, fun _ => rfl⟩
  | false =>
    rw [or_iff_right Bool.false_ne_true]
    by_cases hm : m = .subscriptionRenewalCycle
    · subst hm
      constructor
      · intro h
        cases hfind : s.find? (sameRow .subscriptionRenewalCycle instance_) with
        | none =>
          unfold saveRefusal at h
          rw [if_neg Bool.false_ne_true] at h
          dsimp only at h
          rw [hfind] at h
          cases h
        | some previous =>
          exact ⟨previous, Table.mem_of_find? hfind, Table.prop_of_find? hfind,
            (saveRefusal_cycle hfind).1 h⟩
      · rintro ⟨r, hr, hsame, hu⟩
        refine (saveRefusal_cycle ?_).2 hu
        exact Table.find?_of_mem_where hr hsame fun x hx hxs =>
          clash_iff.2 (congrArg Row.key (sameRow_unique hx hr hxs hsame))
    · constructor
      · intro h
        cases m with
        | subscriptionRenewalCycle => exact absurd rfl hm
        | creditLedgerEntry => cases h
        | inviteVisit => cases h
        | partnerMarginAccrual => cases h
        | partnerCreditGrant => cases h
      · rintro ⟨r, hr, hsame, hu⟩
        exact absurd hu.1 hm

theorem mem_valuesOf {set : String × (Row → Value)} :
    set ∈ valuesOf instance_ columns ↔
      ∃ c ∈ columns, set = (c, fun _ => instance_.values c) := by
  rw [valuesOf, List.mem_map]
  exact exists_congr fun c => and_congr_right fun _ => eq_comm

theorem map_fst_valuesOf (instance_ : Row) (columns : List String) :
    (valuesOf instance_ columns).map Prod.fst = columns := by
  rw [valuesOf, List.map_map]
  exact List.map_id _

/-- The columns that are saved are columns of the model, and no column is saved twice. -/
theorem savedColumns_nodup (h : savedColumns m options = .ok columns) : columns.Nodup := by
  unfold savedColumns at h
  split at h
  · cases h
    exact (columns_nodup m).erase _
  · obtain ⟨named, -, h⟩ := bind_ok h
    split at h
    · cases h
    · cases h
      exact (columns_nodup m).filter _

/-- Nothing is saved of an instance when no field is named. -/
theorem savedColumns_none (hnone : options.updateFields = some [])
    (h : savedColumns m options = .ok columns) :
    columns = [] := by
  unfold savedColumns at h
  rw [hnone] at h
  cases h
  exact List.filter_eq_nil_iff.2 fun c _ => by simp

/-- A save overwrites a stored row: a fresh instance with its primary key is saved with
`force_update`, or an instance of an unfinished cycle with another `created_at`. -/
def SaveEscapes (db : Database) (s : Table Row) (m : FrozenModel) (instance_ : Row)
    (adding : Bool) (options : SaveOptions) : Prop :=
  options.forceInsert = false ∧ ∃ columns, savedColumns m options = .ok columns ∧
    db.Takes (s.rows.map
      (rewrite (sameRow m instance_) (assign (valuesOf instance_ columns)))) ∧
    ∃ r ∈ s, sameRow m instance_ r ∧
      (adding = true ∧ options.forceUpdate = true ∧
          (∃ c ∈ columns, c ∈ m.frozen ∧ instance_.values c ≠ r.values c) ∨
        adding = false ∧ Unfinished m instance_ r ∧ "created_at" ∈ columns ∧
          instance_.values "created_at" ≠ r.values "created_at")

/-- What is overwritten by the values of an instance. -/
theorem overwrites_valuesOf :
    Overwrites db s m (fun r => r.values "id" == instance_.values "id")
        (valuesOf instance_ columns) ↔
      (∃ r ∈ s, sameRow m instance_ r ∧
        ∃ c ∈ columns, c ∈ m.frozen ∧ instance_.values c ≠ r.values c) ∧
      db.Takes (s.rows.map
        (rewrite (sameRow m instance_) (assign (valuesOf instance_ columns)))) := by
  refine and_congr_left fun _ => exists_congr fun r => and_congr_right fun _ => ?_
  rw [sameRow_iff, and_assoc, beq_iff_eq]
  refine and_congr_right fun _ => and_congr_right fun _ => ?_
  constructor
  · rintro ⟨set, hset, hfrozen, hne⟩
    obtain ⟨c, hc, rfl⟩ := mem_valuesOf.1 hset
    exact ⟨c, hc, hfrozen, hne⟩
  · rintro ⟨c, hc, hfrozen, hne⟩
    exact ⟨_, mem_valuesOf.2 ⟨c, hc, rfl⟩, hfrozen, hne⟩

/-- The only frozen column an instance of an unfinished cycle can change is the time. -/
theorem unfinished_changes (hsame : sameRow m instance_ r) (hu : Unfinished m instance_ r) :
    (∃ c ∈ columns, c ∈ m.frozen ∧ instance_.values c ≠ r.values c) ↔
      "created_at" ∈ columns ∧ instance_.values "created_at" ≠ r.values "created_at" := by
  obtain ⟨rfl, -, hcmp⟩ := hu
  constructor
  · rintro ⟨c, hc, hfrozen, hne⟩
    have hcases : c = "id" ∨ c ∈ comparedColumns ∨ c = "created_at" := by
      have hall : ∀ c ∈ FrozenModel.subscriptionRenewalCycle.frozen,
          c = "id" ∨ c ∈ comparedColumns ∨ c = "created_at" := by
        decide
      exact hall c hfrozen
    rcases hcases with rfl | hc' | rfl
    · exact absurd (sameRow_iff.1 hsame).2.symm hne
    · exact absurd (hcmp c hc').symm hne
    · exact ⟨hc, hne⟩
  · rintro ⟨hc, hne⟩
    exact ⟨"created_at", hc, by decide, hne⟩

/-- A save that inserts keeps the stored rows, so only its update is asked about. -/
theorem kept_save_iff {now : Value} :
    Kept (save db s m instance_ adding options now) ↔
      (saveRefusal s m instance_ adding = .ok () → ∀ columns,
        savedColumns m options = .ok columns →
        ¬ (options.forceInsert = true ∨ (adding = true ∧ ¬ options.forceUpdate = true)) →
        ¬ Overwrites db s m (fun r => r.values "id" == instance_.values "id")
          (valuesOf instance_ columns)) := by
  have hnodup : ∀ columns, savedColumns m options = .ok columns →
      ((valuesOf instance_ columns).map Prod.fst).Nodup := by
    intro columns hcolumns
    rw [map_fst_valuesOf]
    exact savedColumns_nodup hcolumns
  rw [save, kept_bind]
  constructor
  · intro h hguard columns hcolumns hmode hover
    obtain ⟨-, h⟩ := kept_ite.1 (h () hguard)
    obtain ⟨-, h⟩ := kept_ite.1 (h fun hargs => hmode (.inl hargs.1))
    have hsome : options.updateFields ≠ some [] := by
      intro hnone
      rw [savedColumns_none hnone hcolumns] at hover
      obtain ⟨⟨r, -, -, c, hc, -⟩, -⟩ := overwrites_valuesOf.1 hover
      cases hc
    obtain ⟨-, h⟩ := kept_ite.1 (kept_bind.1 (h hsome) columns hcolumns)
    obtain ⟨h, -⟩ := kept_ite.1 (h hmode)
    obtain ⟨⟨r, hr, hsame, -⟩, -⟩ := overwrites_valuesOf.1 hover
    exact (kept_rewrite (hnodup columns hcolumns)).1 (h (List.any_eq_true.2 ⟨r, hr, hsame⟩)) hover
  · intro h u hguard
    refine kept_ite.2 ⟨fun _ => kept_error _, fun _ => ?_⟩
    refine kept_ite.2 ⟨fun _ => kept_unchanged, fun _ => ?_⟩
    refine kept_bind.2 fun columns hcolumns => ?_
    refine kept_ite.2 ⟨fun _ => kept_insert _, fun hmode => ?_⟩
    refine kept_ite.2 ⟨fun _ => ?_, fun _ => ?_⟩
    · exact (kept_rewrite (hnodup columns hcolumns)).2 (h hguard columns hcolumns hmode)
    · exact kept_ite.2 ⟨fun _ => kept_error _, fun _ => kept_insert _⟩

theorem kept_save {now : Value} :
    Kept (save db s m instance_ adding options now) ↔
      ¬ SaveEscapes db s m instance_ adding options := by
  rw [kept_save_iff]
  constructor
  · rintro h ⟨hinsert, columns, hcolumns, htakes, r, hr, hsame, hcase⟩
    rcases hcase with ⟨hadd, hforce, hchange⟩ | ⟨hadd, hu, hchange⟩
    · refine h (saveRefusal_ok.2 (.inl hadd)) columns hcolumns ?_
        (overwrites_valuesOf.2 ⟨⟨r, hr, hsame, hchange⟩, htakes⟩)
      simp [hinsert, hforce]
    · refine h (saveRefusal_ok.2 (.inr ⟨r, hr, hsame, hu⟩)) columns hcolumns ?_
        (overwrites_valuesOf.2 ⟨⟨r, hr, hsame, (unfinished_changes hsame hu).2 hchange⟩, htakes⟩)
      simp [hinsert, hadd]
  · intro h hguard columns hcolumns hmode hover
    obtain ⟨⟨r, hr, hsame, hchange⟩, htakes⟩ := overwrites_valuesOf.1 hover
    have hinsert : options.forceInsert = false := by
      rw [← Bool.not_eq_true]
      exact fun hi => hmode (.inl hi)
    refine h ⟨hinsert, columns, hcolumns, htakes, r, hr, hsame, ?_⟩
    cases adding with
    | true =>
      have hforce : options.forceUpdate = true := by
        by_contra hf
        exact hmode (.inr ⟨rfl, hf⟩)
      exact .inl ⟨rfl, hforce, hchange⟩
    | false =>
      rcases saveRefusal_ok.1 hguard with hadd | ⟨q, hq, hsq, hu⟩
      · cases hadd
      · rw [sameRow_unique hq hr hsq hsame] at hu
        exact .inr ⟨rfl, hu, (unfinished_changes hsame hu).1 hchange⟩

/-! ## `delete` -/

/-- The rows that go with these. -/
abbrev Goes (s : Table Row) (roots : List Key) (k : Key) : Prop :=
  GoesWith Row.key (refers .cascade) s.rows roots k

theorem mem_collected : k ∈ collected s roots ↔ Goes s roots k := mem_collect_iff

theorem refers_iff {fk : ForeignKey} : fk.refers r k ↔
    fk.model = r.model ∧ k = ⟨fk.target, r.values fk.attname⟩ ∧ r.values fk.attname ≠ .null := by
  obtain ⟨km, kp⟩ := k
  simp only [ForeignKey.refers, Bool.and_eq_true, beq_iff_eq, bne_iff_ne, Key.mk.injEq]
  constructor
  · rintro ⟨⟨⟨hm, rfl⟩, hnull⟩, rfl⟩
    exact ⟨hm, ⟨rfl, rfl⟩, hnull⟩
  · rintro ⟨hm, ⟨rfl, rfl⟩, hnull⟩
    exact ⟨⟨⟨hm, rfl⟩, hnull⟩, rfl⟩

/-- A model with one foreign key of a kind refers by that one. -/
theorem refers_of_one {o : OnDelete} (fk : ForeignKey)
    (hone : ∀ f ∈ foreignKeys, f.onDelete = o → f.model = r.model → f = fk)
    (hmem : fk ∈ foreignKeys) (ho : fk.onDelete = o) (hm : fk.model = r.model) :
    refers o r k ↔ k = ⟨fk.target, r.values fk.attname⟩ ∧ r.values fk.attname ≠ .null := by
  constructor
  · intro h
    obtain ⟨f, hf, hp⟩ := List.any_eq_true.1 h
    rw [Bool.and_eq_true, beq_iff_eq] at hp
    obtain ⟨hfm, hlink⟩ := refers_iff.1 hp.2
    rwa [hone f hf hp.1 hfm] at hlink
  · intro h
    refine List.any_eq_true.2 ⟨fk, hmem, ?_⟩
    rw [Bool.and_eq_true, beq_iff_eq]
    exact ⟨ho, refers_iff.2 ⟨hm, h⟩⟩

/-- A model without a foreign key of a kind refers to nothing by one. -/
theorem refers_of_none {o : OnDelete}
    (hnone : ∀ f ∈ foreignKeys, f.onDelete = o → f.model ≠ r.model) : refers o r k = false := by
  rw [refers, List.any_eq_false]
  intro f hf hp
  rw [Bool.and_eq_true, beq_iff_eq] at hp
  exact hnone f hf hp.1 (refers_iff.1 hp.2).1

/-- An entry goes with its account, and with the user of its account. -/
def GoesAlong (s : Table Row) (roots : List Key) (e : Row) : Prop :=
  e.key ∈ roots ∨ e.values "account_id" ≠ .null ∧
    ((⟨.account, e.values "account_id"⟩ : Key) ∈ roots ∨
      ∃ a ∈ s, a.key = ⟨.account, e.values "account_id"⟩ ∧ a.values "user_id" ≠ .null ∧
        (⟨.user, a.values "user_id"⟩ : Key) ∈ roots)

theorem refers_entry (he : e.model = .creditLedgerEntry) :
    refers .cascade e k ↔
      k = ⟨.account, e.values "account_id"⟩ ∧ e.values "account_id" ≠ .null :=
  refers_of_one ⟨.creditLedgerEntry, "account", .account, .cascade⟩
    (by rw [he]; decide) (by decide) rfl he.symm

theorem refers_account {a : Row} (ha : a.model = .account) :
    refers .cascade a k ↔ k = ⟨.user, a.values "user_id"⟩ ∧ a.values "user_id" ≠ .null :=
  refers_of_one ⟨.account, "user", .user, .cascade⟩
    (by rw [ha]; decide) (by decide) rfl ha.symm

/-- Nothing takes a user along. -/
theorem goes_user (hk : k.model = .user) (h : Goes s roots k) : k ∈ roots := by
  refine h.mem_seeds fun r _ hr q => refers_of_none ?_
  have hmodel : r.model = .user := by rw [← hk, ← hr, Row.key_model]
  rw [hmodel]
  decide

theorem goes_account (hk : k.model = .account) :
    Goes s roots k ↔ k ∈ roots ∨
      ∃ a ∈ s, a.key = k ∧ a.values "user_id" ≠ .null ∧
        (⟨.user, a.values "user_id"⟩ : Key) ∈ roots := by
  rw [Goes, goesWith_iff]
  refine or_congr_right (exists_congr fun a => and_congr_right fun ha => ?_)
  refine and_congr_right fun hak => ?_
  have hmodel : a.model = .account := by rw [← hk, ← hak, Row.key_model]
  constructor
  · rintro ⟨q, hq, hgoes⟩
    obtain ⟨rfl, hnull⟩ := (refers_account hmodel).1 hq
    exact ⟨hnull, goes_user rfl hgoes⟩
  · rintro ⟨hnull, hroot⟩
    exact ⟨_, (refers_account hmodel).2 ⟨rfl, hnull⟩, .seed hroot⟩

/-- **How far a deletion reaches into the ledger.** -/
theorem goes_entry (hes : e ∈ s) (he : e.model = .creditLedgerEntry) :
    Goes s roots e.key ↔ GoesAlong s roots e := by
  rw [Goes, goesWith_iff]
  refine or_congr_right ?_
  constructor
  · rintro ⟨r, hr, hkey, q, hq, hgoes⟩
    have hre : r = e := Table.eq_of_clash hr hes (clash_iff.2 hkey)
    subst hre
    obtain ⟨rfl, hnull⟩ := (refers_entry he).1 hq
    exact ⟨hnull, (goes_account rfl).1 hgoes⟩
  · rintro ⟨hnull, haccount⟩
    exact ⟨e, hes, rfl, _, (refers_entry he).2 ⟨rfl, hnull⟩, (goes_account rfl).2 haccount⟩

/-- The rows of the other four models go with nothing. -/
theorem goes_frozen (hm : r.model = m.model) (hne : m ≠ .creditLedgerEntry)
    (h : Goes s roots r.key) : r.key ∈ roots := by
  have hnone : ∀ m : FrozenModel, m ≠ .creditLedgerEntry →
      ∀ f ∈ foreignKeys, f.onDelete = .cascade → f.model ≠ m.model := by
    intro m hm
    cases m with
    | creditLedgerEntry => exact absurd rfl hm
    | inviteVisit => decide
    | partnerMarginAccrual => decide
    | partnerCreditGrant => decide
    | subscriptionRenewalCycle => decide
  refine h.mem_seeds fun q _ hq k => refers_of_none ?_
  have hmodel : q.model = m.model := by rw [← hm, ← Row.key_model q, hq, Row.key_model]
  rw [hmodel]
  exact hnone m hne

/-- The links that are set to null when what they name goes are in no frozen column. -/
theorem setNull_open : ∀ m : FrozenModel, ∀ fk ∈ foreignKeys, fk.model = m.model →
    fk.onDelete = .setNull → fk.attname ∉ m.frozen := by
  intro m
  cases m <;> decide

theorem unlink_frozen {gone : List Key} (hm : r.model = m.model) (hc : c ∈ m.frozen) :
    (unlink gone r).values c = r.values c := by
  have hany : foreignKeys.any (fun fk => fk.onDelete == .setNull && fk.attname == c
      && gone.any (fk.refers r)) = false := by
    rw [List.any_eq_false]
    intro fk hfk hp
    simp only [Bool.and_eq_true, beq_iff_eq] at hp
    obtain ⟨⟨hnull, rfl⟩, hgone⟩ := hp
    obtain ⟨k, -, hrefers⟩ := List.any_eq_true.1 hgone
    exact setNull_open m fk hfk ((refers_iff.1 hrefers).1.trans hm) hnull hc
  dsimp only [unlink]
  rw [hany]
  exact if_neg Bool.false_ne_true

theorem intact_survivor {gone : List Key} (hm : r.model = m.model) :
    Intact m r (survivor gone r) ↔ r.key ∉ gone := by
  unfold survivor
  by_cases hg : r.key ∈ gone
  · rw [if_pos hg]
    exact ⟨fun ⟨q, hq, _⟩ => (nomatch hq), fun h => absurd hg h⟩
  · rw [if_neg hg]
    exact ⟨fun _ => hg, fun _ => ⟨unlink gone r, rfl, rfl, fun c hc => unlink_frozen hm hc⟩⟩

/-- A deletion reaches the ledger: an entry goes along, no row protects anything that
goes, and no constraint of the database stops it. -/
def DeletionEscapes (db : Database) (s : Table Row) (roots : List Key) : Prop :=
  (∃ e ∈ s, e.model = .creditLedgerEntry ∧ GoesAlong s roots e) ∧
  (∀ r ∈ s, ∀ k, Goes s roots k → ¬ refers .protect r k) ∧
  db.Takes (s.rows.filterMap (survivor (collected s roots)))

theorem kept_deleteRows (hroots : ∀ k ∈ roots, ∀ m : FrozenModel, k.model = m.model →
    m = .creditLedgerEntry) :
    Kept (deleteRows db s roots) ↔ ¬ DeletionEscapes db s roots := by
  unfold deleteRows
  dsimp only
  cases hprotect : s.rows.find? fun r => (collected s roots).any (refers .protect r) with
  | some p =>
    refine ⟨fun _ => ?_, fun _ => kept_error _⟩
    rintro ⟨-, hfree, -⟩
    have hp := List.find?_some hprotect
    obtain ⟨k, hk, hrefers⟩ := List.any_eq_true.1 hp
    exact hfree p (List.mem_of_find?_eq_some hprotect) k (mem_collected.1 hk) hrefers
  | none =>
    dsimp only
    rw [kept_commit, List.append_nil]
    have hfree : ∀ r ∈ s, ∀ k, Goes s roots k → ¬ refers .protect r k := by
      intro r hr k hk hrefers
      exact List.find?_eq_none.1 hprotect r hr
        (List.any_eq_true.2 ⟨k, mem_collected.2 hk, hrefers⟩)
    constructor
    · rintro h ⟨⟨e, he, hmodel, halong⟩, -, htakes⟩
      have hintact := h htakes .creditLedgerEntry e he hmodel
      rw [intact_survivor hmodel] at hintact
      exact hintact (mem_collected.2 ((goes_entry he hmodel).2 halong))
    · intro h htakes m r hr hm
      rw [intact_survivor hm]
      intro hgone
      have hgoes := mem_collected.1 hgone
      by_cases hentry : m = .creditLedgerEntry
      · subst hentry
        exact h ⟨⟨r, hr, hm, (goes_entry hr hm).1 hgoes⟩, hfree, htakes⟩
      · exact hentry (hroots _ (goes_frozen hm hentry hgoes) m hm)

/-- The models of the rows a deletion must start from to reach the ledger. -/
theorem roots_of_goesAlong (he : e.model = .creditLedgerEntry) (h : GoesAlong s roots e) :
    ∃ k ∈ roots, k.model = .creditLedgerEntry ∨ k.model = .account ∨ k.model = .user := by
  rcases h with hk | ⟨-, hk | ⟨a, -, -, -, hk⟩⟩
  · exact ⟨_, hk, .inl he⟩
  · exact ⟨_, hk, .inr (.inl rfl)⟩
  · exact ⟨_, hk, .inr (.inr rfl)⟩

/-- Deleting an instance reaches the ledger from an account or a user. -/
def DeleteEscapes (db : Database) (s : Table Row) (k : Key) : Prop :=
  (k.model = .account ∨ k.model = .user) ∧ DeletionEscapes db s [k]

theorem kept_delete : Kept (instanceDelete db s k) ↔ ¬ DeleteEscapes db s k := by
  unfold instanceDelete
  cases href : deleteRefusal k.model with
  | some e =>
    refine ⟨fun _ => ?_, fun _ => kept_error _⟩
    rintro ⟨hk | hk, -⟩
    · rw [hk] at href
      cases href
    · rw [hk] at href
      cases href
  | none =>
    dsimp only
    have hrefused : ∀ m : FrozenModel, deleteRefusal m.model ≠ none := by
      intro m
      cases m <;> exact fun h => (nomatch h)
    rw [kept_deleteRows]
    · refine not_congr ⟨fun h => ⟨?_, h⟩, fun h => h.2⟩
      obtain ⟨⟨e, -, he, halong⟩, -⟩ := h
      obtain ⟨q, hq, hmodel⟩ := roots_of_goesAlong he halong
      rw [List.mem_singleton.1 hq] at hmodel
      rcases hmodel with hk | hk
      · rw [hk] at href
        cases href
      · exact hk
    · intro q hq m hm
      rw [List.mem_singleton.1 hq] at hm
      rw [hm] at href
      exact absurd href (hrefused m)

/-- Deleting by query set reaches the ledger from its own rows too. -/
def QueryDeleteEscapes (db : Database) (s : Table Row) (model : Model) (filter : Row → Bool) :
    Prop :=
  (model = .creditLedgerEntry ∨ model = .account ∨ model = .user) ∧
    DeletionEscapes db s ((s.rows.filter (matched model filter)).map Row.key)

theorem model_of_root
    (h : k ∈ (s.rows.filter (matched model filter)).map Row.key) : k.model = model := by
  obtain ⟨r, hr, rfl⟩ := List.mem_map.1 h
  exact (matched_iff.1 (List.mem_filter.1 hr).2).1

theorem kept_queryDelete :
    Kept (queryDelete db s model filter) ↔ ¬ QueryDeleteEscapes db s model filter := by
  unfold queryDelete
  cases href : queryDeleteRefusal model with
  | some e =>
    refine ⟨fun _ => ?_, fun _ => kept_error _⟩
    rintro ⟨rfl | rfl | rfl, -⟩
    · cases href
    · cases href
    · cases href
  | none =>
    dsimp only
    have hrefused : ∀ m : FrozenModel, m ≠ .creditLedgerEntry →
        queryDeleteRefusal m.model ≠ none := by
      intro m hm
      cases m with
      | creditLedgerEntry => exact absurd rfl hm
      | inviteVisit => exact fun h => (nomatch h)
      | partnerMarginAccrual => exact fun h => (nomatch h)
      | partnerCreditGrant => exact fun h => (nomatch h)
      | subscriptionRenewalCycle => exact fun h => (nomatch h)
    rw [kept_deleteRows]
    · refine not_congr ⟨fun h => ⟨?_, h⟩, fun h => h.2⟩
      obtain ⟨⟨e, -, he, halong⟩, -⟩ := h
      obtain ⟨q, hq, hmodel⟩ := roots_of_goesAlong he halong
      rwa [model_of_root hq] at hmodel
    · intro q hq m hm
      rw [model_of_root hq] at hm
      by_contra hne
      rw [hm] at href
      exact hrefused m hne href

/-! ## Runs -/

theorem isFrozen_model (m : FrozenModel) : isFrozen m.model = true := by
  cases m <;> decide

theorem kept_elsewhere {change : Row → Row} :
    Kept (writeElsewhere db s change added) := by
  refine kept_commit.2 fun _ m r _ hm => ?_
  rw [if_pos (hm ▸ isFrozen_model m)]
  exact intact_self m r

/-- The operation takes a way past the guards to a frozen row. -/
def Escapes (db : Database) (s : Table Row) : Operation → Prop
  | .save m instance_ adding options _ => SaveEscapes db s m instance_ adding options
  | .update m filter kwargs => UpdateEscapes db s m filter kwargs
  | .bulkUpdate m filter objs fields => BulkUpdateEscapes db s m filter objs fields
  | .delete k => DeleteEscapes db s k
  | .queryDelete m filter => QueryDeleteEscapes db s m filter
  | .elsewhere _ _ => False

theorem kept_run (op : Operation) : Kept (run db s op) ↔ ¬ Escapes db s op := by
  cases op with
  | save m instance_ adding options now => exact kept_save
  | update m filter kwargs => exact kept_update
  | bulkUpdate m filter objs fields => exact kept_bulkUpdate
  | delete k => exact kept_delete
  | queryDelete m filter => exact kept_queryDelete
  | elsewhere change added => exact ⟨fun _ h => h, fun _ => kept_elsewhere⟩

/-- The frozen rows of one database are in another, with their frozen columns. -/
def Preserved (s s' : Table Row) : Prop :=
  ∀ m : FrozenModel, ∀ r ∈ s, r.model = m.model →
    ∃ q ∈ s', q.model = r.model ∧ ∀ c ∈ m.frozen, q.values c = r.values c

theorem preserved_self (s : Table Row) : Preserved s s :=
  fun _ r hr _ => ⟨r, hr, rfl, fun _ _ => rfl⟩

theorem Preserved.trans {s₁ s₂ s₃ : Table Row} (h : Preserved s₁ s₂) (h' : Preserved s₂ s₃) :
    Preserved s₁ s₃ := by
  intro m r hr hm
  obtain ⟨q, hq, hqm, hqc⟩ := h m r hr hm
  obtain ⟨p, hp, hpm, hpc⟩ := h' m q hq (hqm.trans hm)
  exact ⟨p, hp, hpm.trans hqm, fun c hc => (hpc c hc).trans (hqc c hc)⟩

theorem preserved_of_kept {op : Operation} (h : Kept (run db s op)) :
    Preserved s (after db s op) := by
  unfold after
  split
  · rename_i w hw
    intro m r hr hm
    obtain ⟨q, hq, hqm, hqc⟩ := h w hw m r hr hm
    exact ⟨q, List.mem_append_left _ (List.mem_filterMap.2 ⟨r, hr, hq⟩), hqm, hqc⟩
  · exact preserved_self s

/-- The databases a run goes through. -/
def states (db : Database) (s : Table Row) : List Operation → List (Table Row)
  | [] => [s]
  | op :: ops => s :: states db (after db s op) ops

/-- No operation of the run escapes where it is made. -/
def NeverEscapes (db : Database) (s : Table Row) : List Operation → Prop
  | [] => True
  | op :: ops => ¬ Escapes db s op ∧ NeverEscapes db (after db s op) ops

theorem preserved_along {ops : List Operation} (h : NeverEscapes db s ops) :
    ∀ s' ∈ states db s ops, Preserved s s' := by
  induction ops generalizing s with
  | nil =>
    intro s' hs'
    rw [List.mem_singleton.1 hs']
    exact preserved_self s
  | cons op ops ih =>
    intro s' hs'
    rcases List.mem_cons.1 hs' with rfl | hs'
    · exact preserved_self _
    · exact (preserved_of_kept ((kept_run op).2 h.1)).trans (ih h.2 s' hs')

theorem preserved_run {ops : List Operation} (h : NeverEscapes db s ops) :
    (states db s ops).Pairwise Preserved := by
  induction ops generalizing s with
  | nil => exact List.pairwise_singleton _ _
  | cons op ops ih =>
    refine List.pairwise_cons.2 ⟨fun s' hs' => ?_, ih h.2⟩
    exact (preserved_of_kept ((kept_run op).2 h.1)).trans (preserved_along h.2 s' hs')

/-- **An operation keeps the frozen rows exactly when it does not escape their guards,
and a run none of whose operations does keeps them throughout.** -/
theorem frozen_rows_kept_iff (db : Database) :
    (∀ s op, Kept (run db s op) ↔ ¬ Escapes db s op) ∧
      ∀ s ops, NeverEscapes db s ops → (states db s ops).Pairwise Preserved :=
  ⟨fun _ op => kept_run op, fun _ _ h => preserved_run h⟩

/-! ## Ways past the guards -/

/-- A row with these columns. -/
def rowOf (model : Model) (columns : List (String × Value)) : Row :=
  ⟨model, fun c => (columns.lookup c).getD .null⟩

/-- What a confirmed deposit put into the ledger. -/
def depositEntry : Row :=
  rowOf .creditLedgerEntry
    [("id", .key 3), ("account_id", .key 2), ("delta", .number 5000000),
      ("balance_after", .number 5000000), ("reference_type", .text "deposit"),
      ("reference_id", .text "d1"), ("idempotency_key", .text "deposit:d1"),
      ("created_at", .number 0)]

/-- A click on an invite link in a mail. -/
def mailVisit : Row :=
  rowOf .inviteVisit
    [("id", .key 4), ("invite_link_id", .key 5), ("utm_source", .text "mail"),
      ("utm_medium", .text ""), ("utm_campaign", .text ""), ("utm_content", .text ""),
      ("created_at", .number 0)]

/-- A user whose account was credited, and a visit. -/
def ledgerRows : Table Row where
  rows :=
    [rowOf .user [("id", .key 1)], rowOf .account [("id", .key 2), ("user_id", .key 1)],
      depositEntry, mailVisit]
  apart := by decide

theorem depositEntry_mem : depositEntry ∈ ledgerRows :=
  List.mem_cons_of_mem _ (List.mem_cons_of_mem _ (List.mem_cons_self ..))

theorem mailVisit_mem : mailVisit ∈ ledgerRows :=
  List.mem_cons_of_mem _ (List.mem_cons_of_mem _ (List.mem_cons_of_mem _ (List.mem_cons_self ..)))

/-- The constraints of the ledger: no empty column, no zero delta, no key twice. -/
def ledgerDatabase : Database where
  accepts rows := rows.all fun r => r.model != .creditLedgerEntry ||
    ((FrozenModel.creditLedgerEntry.columns.all fun c => r.values c != .null) &&
      r.values "delta" != .number 0 &&
      rows.all fun q => q.model != .creditLedgerEntry || q.key == r.key ||
        q.values "idempotency_key" != r.values "idempotency_key")

/-- What an operation leaves in a column of the rows that have it; `none` for a row that
it removes. -/
def leaves (db : Database) (s : Table Row) (op : Operation) (k : Key) (c : String) :
    Option (List (Option Value)) :=
  (run db s op).toOption.map fun w =>
    (s.rows.filter (·.key == k)).map fun r => (w.fate r).map (·.values c)

/-- A frozen column that is left with another value, or with none, is not kept. -/
theorem not_kept_of_leaves {op : Operation} {v : Option Value} (hr : r ∈ s)
    (hm : r.model = m.model) (hc : c ∈ m.frozen) (h : leaves db s op r.key c = some [v])
    (hv : v ≠ some (r.values c)) :
    ¬ Kept (run db s op) := by
  intro hkept
  unfold leaves at h
  cases hrun : run db s op with
  | error e =>
    rw [hrun] at h
    cases h
  | ok w =>
    rw [hrun] at h
    have hlist := Option.some.inj h
    have hmem : (w.fate r).map (·.values c) ∈ [v] := by
      rw [← hlist]
      exact List.mem_map_of_mem (List.mem_filter.2 ⟨hr, beq_self_eq_true _⟩)
    obtain ⟨q, hq, -, hcols⟩ := hkept w hrun m r hr hm
    rw [hq, List.mem_singleton] at hmem
    exact hv (by rw [← hmem, Option.map_some, hcols c hc])

/-- Three ways past the guards: an update of the ledger, an update of a visit, and the
deletion of a user. -/
theorem frozen_rows_lost :
    ¬ Kept (run ledgerDatabase ledgerRows
        (.update .creditLedgerEntry (fun _ => true) [("delta", fun _ => .number 9000000)])) ∧
      ¬ Kept (run ledgerDatabase ledgerRows
        (.update .inviteVisit (fun _ => true) [("utm_source", fun _ => .text "web")])) ∧
      ¬ Kept (run ledgerDatabase ledgerRows (.delete ⟨.user, .key 1⟩)) := by
  refine ⟨?_, ?_, ?_⟩
  · exact not_kept_of_leaves (m := .creditLedgerEntry) (c := "delta")
      (v := some (.number 9000000)) depositEntry_mem rfl (by decide) (by decide) (by decide)
  · exact not_kept_of_leaves (m := .inviteVisit) (c := "utm_source")
      (v := some (.text "web")) mailVisit_mem rfl (by decide) (by decide) (by decide)
  · exact not_kept_of_leaves (m := .creditLedgerEntry) (c := "delta") (v := none)
      depositEntry_mem rfl (by decide) (by decide) (by decide)

/-- The visit, with another source. -/
def editedVisit : Row :=
  { mailVisit with values := fun c => if c = "utm_source" then .text "web" else mailVisit.values c }

/-- Neither the deletion of the visit nor the save of the edited one gets past the guards. -/
theorem frozen_rows_kept_refused :
    (states ledgerDatabase ledgerRows [.delete mailVisit.key,
      .save .inviteVisit editedVisit false ⟨false, false, none⟩
        (.number 1)]).Pairwise Preserved := by
  refine (frozen_rows_kept_iff ledgerDatabase).2 ledgerRows _ ⟨?_, ?_, trivial⟩
  · intro h
    exact h.1.elim (fun h => (nomatch h)) fun h => (nomatch h)
  · refine (kept_run _).1 fun w hw => ?_
    cases hw

end Roamkit.Models.Proof
