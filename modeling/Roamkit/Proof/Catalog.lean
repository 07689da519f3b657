import Roamkit.Catalog.PackageSync

/-!
# What a sync of the catalogue loses

A sync writes the packages of the rows that are left after the merge, and makes every other
package of the source inactive. So it loses nothing exactly where the rows that were left out
hold no package that a row left in does not hold too; and with a filter it reaches over the
country as soon as it has written anything.
-/

namespace Roamkit.Catalog.Proof

open Lib Airalo

/-! ## The packages of a row -/

/-- The stripped id of a package, unless it is blank. -/
def idOf (py : Python) (package : Json) : Option String :=
  match packageId py package with
  | .ok id => if id = "" then none else some id
  | .error _ => none

/-- What a `for` loop over a value goes through. -/
def elements (j : Json) : List Json :=
  match iterate j with
  | .ok xs => xs
  | .error _ => []

/-- The operators of a row; one without a list of operators is an operator itself. -/
def operatorsOf (item : Json) : List Json :=
  match hasKey item "operators" with
  | .ok true => (elements ((item.get "operators").orElse (.list []))).filter (·.isDict)
  | _ => [item]

def idsOfOperator (py : Python) (operator : Json) : List String :=
  (elements (operator.getD "packages" (.list []))).filterMap (idOf py)

/-- The ids that are not blank of the packages under any operator of a row. -/
def idsOf (py : Python) (item : Json) : List String := (operatorsOf item).flatMap (idsOfOperator py)

section Mapping

variable {py : Python}

theorem elements_of_ok {j : Json} {xs : List Json} (h : iterate j = .ok xs) : elements j = xs := by
  unfold elements
  rw [h]

theorem mapPackage_id {o : OperatorInfo} {package : Json} {mapped : Option PackageDTO}
    (h : mapPackage py o package = .ok mapped) : mapped.map (·.externalId) = idOf py package := by
  unfold mapPackage at h
  obtain ⟨_, _, h⟩ := bind_ok h
  obtain ⟨id, hid, h⟩ := bind_ok h
  unfold idOf
  rw [hid]
  dsimp only
  by_cases hblank : id = ""
  · rw [if_pos hblank] at h
    rw [if_pos hblank]
    cases h
    rfl
  · rw [if_neg hblank] at h
    rw [if_neg hblank]
    obtain ⟨_, _, h⟩ := bind_ok h
    obtain ⟨_, _, h⟩ := bind_ok h
    obtain ⟨_, _, h⟩ := bind_ok h
    obtain ⟨_, _, h⟩ := bind_ok h
    obtain ⟨⟨_, _⟩, _, h⟩ := bind_ok h
    obtain ⟨_, _, h⟩ := bind_ok h
    obtain ⟨_, _, h⟩ := bind_ok h
    cases h
    rfl

theorem mapPackages_ids {o : OperatorInfo} {packages : List Json} {dtos : List PackageDTO}
    (h : mapPackages py o packages = .ok dtos) :
    dtos.map (·.externalId) = packages.filterMap (idOf py) := by
  induction packages generalizing dtos with
  | nil =>
    cases h
    rfl
  | cons package packages ih =>
    obtain ⟨mapped, hmapped, h⟩ := bind_ok h
    obtain ⟨rest, hrest, h⟩ := bind_ok h
    cases h
    have hid := mapPackage_id hmapped
    rw [List.map_append, ih hrest]
    cases mapped with
    | none =>
      rw [List.filterMap_cons_none hid.symm]
      rfl
    | some dto =>
      rw [List.filterMap_cons_some hid.symm]
      rfl

theorem mapOperator_ids {location : Option LocationInfo} {operator : Json} {dtos : List PackageDTO}
    (h : mapOperator py location operator = .ok dtos) :
    dtos.map (·.externalId) = idsOfOperator py operator := by
  obtain ⟨o, _, h⟩ := bind_ok h
  obtain ⟨packages, hpackages, h⟩ := bind_ok h
  unfold idsOfOperator
  rw [elements_of_ok hpackages]
  exact mapPackages_ids h

theorem mapOperators_ids {location : LocationInfo} {operators : List Json} {dtos : List PackageDTO}
    (h : mapOperators py location operators = .ok dtos) :
    dtos.map (·.externalId) = (operators.filter (·.isDict)).flatMap (idsOfOperator py) := by
  induction operators generalizing dtos with
  | nil =>
    cases h
    rfl
  | cons operator operators ih =>
    unfold mapOperators at h
    by_cases hdict : operator.isDict = true
    · rw [if_neg (not_not.2 hdict)] at h
      obtain ⟨mapped, hmapped, h⟩ := bind_ok h
      obtain ⟨rest, hrest, h⟩ := bind_ok h
      cases h
      rw [List.map_append, mapOperator_ids hmapped, ih hrest, List.filter_cons_of_pos hdict,
        List.flatMap_cons]
    · rw [if_pos hdict] at h
      rw [ih h, List.filter_cons_of_neg hdict]

/-- **A row is mapped to one DTO for each of its packages.** -/
theorem mapItem_ids {item : Json} {dtos : List PackageDTO} (h : mapItem py item = .ok dtos) :
    dtos.map (·.externalId) = idsOf py item := by
  obtain ⟨isLocation, hkey, h⟩ := bind_ok h
  unfold idsOf operatorsOf
  rw [hkey]
  cases isLocation with
  | false =>
    have hmap : mapOperator py none item = .ok dtos := h
    rw [List.flatMap_singleton]
    exact mapOperator_ids hmap
  | true =>
    have hmap : mapLocationItem py item = .ok dtos := h
    obtain ⟨_, _, hmap⟩ := bind_ok hmap
    obtain ⟨_, _, hmap⟩ := bind_ok hmap
    obtain ⟨_, _, hmap⟩ := bind_ok hmap
    obtain ⟨_, _, hmap⟩ := bind_ok hmap
    obtain ⟨_, _, hmap⟩ := bind_ok hmap
    obtain ⟨operators, hoperators, hmap⟩ := bind_ok hmap
    dsimp only
    rw [elements_of_ok hoperators]
    exact mapOperators_ids hmap

/-- The DTOs a row is mapped to; none where the mapping raises. -/
def occurrencesIn (py : Python) (item : Json) : List PackageDTO :=
  match mapItem py item with
  | .ok dtos => dtos
  | .error _ => []

/-- A listing is what its rows are mapped to, and none of them raises. -/
theorem mapItems_ok {items : List Json} {dtos : List PackageDTO}
    (h : mapItems py items = .ok dtos) :
    dtos = items.flatMap (occurrencesIn py)
      ∧ ∀ item ∈ items, (occurrencesIn py item).map (·.externalId) = idsOf py item := by
  induction items generalizing dtos with
  | nil =>
    cases h
    exact ⟨rfl, fun item hitem => absurd hitem List.not_mem_nil⟩
  | cons item items ih =>
    obtain ⟨mapped, hmapped, h⟩ := bind_ok h
    obtain ⟨rest, hrest, h⟩ := bind_ok h
    cases h
    obtain ⟨hdtos, hids⟩ := ih hrest
    have hhere : occurrencesIn py item = mapped := by
      unfold occurrencesIn
      rw [hmapped]
    refine ⟨?_, ?_⟩
    · rw [List.flatMap_cons, hhere, ← hdtos]
    · intro i hi
      rcases List.mem_cons.1 hi with rfl | hi
      · rw [hhere]
        exact mapItem_ids hmapped
      · exact hids i hi

theorem mapItems_ids {items : List Json} {dtos : List PackageDTO} (h : mapItems py items = .ok dtos)
    (id : String) :
    id ∈ dtos.map (·.externalId) ↔ ∃ item ∈ items, id ∈ idsOf py item := by
  obtain ⟨rfl, hids⟩ := mapItems_ok h
  rw [List.map_flatMap, List.mem_flatMap]
  constructor
  · rintro ⟨item, hitem, hid⟩
    rw [hids item hitem] at hid
    exact ⟨item, hitem, hid⟩
  · rintro ⟨item, hitem, hid⟩
    refine ⟨item, hitem, ?_⟩
    rw [hids item hitem]
    exact hid

end Mapping

/-! ## The merge -/

/-- A row is the first of its key. -/
def FirstOfKey (py : Python) (rows : List Json) (item : Json) : Prop :=
  ∃ before after, rows = before ++ item :: after
    ∧ ∀ j ∈ before, catalogItemKey py j ≠ catalogItemKey py item

/-- Past the keys that were seen, the merge leaves the first row of every other key. -/
theorem mem_merge {py : Python} {seen : List String} {rows kept : List Json}
    (h : mergeCatalogItems py seen rows = .ok kept) (item : Json) :
    item ∈ kept ↔ ∃ before after, rows = before ++ item :: after
      ∧ (∀ j ∈ before, catalogItemKey py j ≠ catalogItemKey py item)
      ∧ ∀ key ∈ seen, catalogItemKey py item ≠ .ok key := by
  induction rows generalizing seen kept with
  | nil =>
    cases h
    constructor
    · intro hc
      exact absurd hc List.not_mem_nil
    · rintro ⟨before, after, hc, _⟩
      exact absurd hc.symm (by simp)
  | cons row rows ih =>
    obtain ⟨key, hkey, h⟩ := bind_ok h
    by_cases hseen : key ∈ seen
    · -- the row is left out, and so is every later one of its key
      rw [if_pos hseen] at h
      rw [ih h]
      constructor
      · rintro ⟨before, after, rfl, hbefore, hnew⟩
        refine ⟨row :: before, after, rfl, ?_, hnew⟩
        intro j hj
        rcases List.mem_cons.1 hj with rfl | hj
        · rw [hkey]
          exact fun hc => hnew key hseen hc.symm
        · exact hbefore j hj
      · rintro ⟨before, after, hsplit, hbefore, hnew⟩
        cases before with
        | nil =>
          obtain ⟨rfl, rfl⟩ := List.cons.inj hsplit
          exact absurd hkey (hnew key hseen)
        | cons first before =>
          obtain ⟨rfl, rfl⟩ := List.cons.inj hsplit
          exact ⟨before, after, rfl, fun j hj => hbefore j (List.mem_cons_of_mem _ hj), hnew⟩
    · rw [if_neg hseen] at h
      obtain ⟨rest, hrest, h⟩ := bind_ok h
      cases h
      rw [List.mem_cons, ih hrest]
      constructor
      · rintro (rfl | ⟨before, after, rfl, hbefore, hnew⟩)
        · refine ⟨[], rows, rfl, fun j hj => absurd hj List.not_mem_nil, ?_⟩
          intro key' hkey' hc
          rw [hkey] at hc
          cases hc
          exact hseen hkey'
        · refine ⟨row :: before, after, rfl, ?_,
            fun key' hkey' => hnew key' (List.mem_cons_of_mem _ hkey')⟩
          intro j hj
          rcases List.mem_cons.1 hj with rfl | hj
          · rw [hkey]
            exact fun hc => hnew key List.mem_cons_self hc.symm
          · exact hbefore j hj
      · rintro ⟨before, after, hsplit, hbefore, hnew⟩
        cases before with
        | nil =>
          obtain ⟨rfl, rfl⟩ := List.cons.inj hsplit
          exact .inl rfl
        | cons first before =>
          obtain ⟨rfl, rfl⟩ := List.cons.inj hsplit
          refine .inr ⟨before, after, rfl, fun j hj => hbefore j (List.mem_cons_of_mem _ hj), ?_⟩
          intro key' hkey' hc
          rcases List.mem_cons.1 hkey' with rfl | hkey'
          · exact hbefore row List.mem_cons_self (hkey.trans hc.symm)
          · exact hnew key' hkey' hc

theorem mem_merged {py : Python} {rows kept : List Json}
    (h : mergeCatalogItems py [] rows = .ok kept) (item : Json) :
    item ∈ kept ↔ FirstOfKey py rows item := by
  rw [mem_merge h]
  constructor
  · rintro ⟨before, after, hsplit, hbefore, _⟩
    exact ⟨before, after, hsplit, hbefore⟩
  · rintro ⟨before, after, hsplit, hbefore⟩
    exact ⟨before, after, hsplit, hbefore, fun key hkey => absurd hkey List.not_mem_nil⟩

/-! ## Locations -/

/-- A location has a slug, or has had it before it was renamed. -/
def GoesBy (l : Location) (slug : String) : Prop :=
  l.slug = slug ∨ (slug = "world" ∧ l.slug = "global")

/-- Locations keep their primary keys and go by the slugs they went by. -/
def KeepsLocations (locations locations' : Table Location) : Prop :=
  ∀ l ∈ locations, ∃ l' ∈ locations', l'.id = l.id ∧ ∀ slug, GoesBy l slug → GoesBy l' slug

section Locations

variable {py : Python} {s s' : CatalogDb} {slug : String} {id : Nat}

theorem KeepsLocations.refl (locations : Table Location) : KeepsLocations locations locations :=
  fun l hl => ⟨l, hl, rfl, fun _ h => h⟩

theorem KeepsLocations.trans {t₁ t₂ t₃ : Table Location} (h : KeepsLocations t₁ t₂)
    (h' : KeepsLocations t₂ t₃) :
    KeepsLocations t₁ t₃ := by
  intro l hl
  obtain ⟨l₁, hl₁, hid₁, hslug₁⟩ := h l hl
  obtain ⟨l₂, hl₂, hid₂, hslug₂⟩ := h' l₁ hl₁
  exact ⟨l₂, hl₂, hid₂.trans hid₁, fun slug hs => hslug₂ slug (hslug₁ slug hs)⟩

theorem renameWorld_keeps (h : renameWorld s slug = .ok s') :
    KeepsLocations s.locations s'.locations ∧ s'.packages = s.packages := by
  unfold renameWorld at h
  split at h
  · cases h
    exact ⟨.refl _, rfl⟩
  · split at h
    · cases h
    rename_i locations hupdate
    cases h
    refine ⟨fun l hl => ?_, rfl⟩
    refine ⟨_, (Table.mem_update? hupdate).2 ⟨l, hl, rfl⟩, ?_⟩
    unfold rewrite
    split
    · rename_i hp
      have hworld : l.slug = "world" := of_decide_eq_true hp
      refine ⟨rfl, fun slug hs => ?_⟩
      rcases hs with hs | ⟨_, hglobal⟩
      · exact .inr ⟨hs.symm.trans hworld, rfl⟩
      · rw [hworld] at hglobal
        exact absurd hglobal (by decide)
    · exact ⟨rfl, fun _ hs => hs⟩

theorem putLocation_keeps {row : Nat → Location} (hrow : ∀ n, (row n).slug = slug ∧ (row n).id = n)
    (h : s.putLocation slug row = .ok (s', id)) :
    KeepsLocations s.locations s'.locations ∧ s'.packages = s.packages
      ∧ ∃ l ∈ s'.locations, l.id = id ∧ GoesBy l slug := by
  unfold CatalogDb.putLocation at h
  split at h
  · rename_i l hfound
    have hslug : l.slug = slug := by simpa using Table.prop_of_find? hfound
    have hmem := Table.mem_of_find? hfound
    split at h
    · cases h
    split at h
    · cases h
    rename_i locations hupdate
    cases h
    have hwritten : row l.id ∈ locations :=
      (Table.mem_update? hupdate).2 ⟨l, hmem, rewrite_pos _ (decide_eq_true rfl)⟩
    refine ⟨fun l' hl' => ?_, rfl, row l.id, hwritten, (hrow l.id).2, .inl (hrow l.id).1⟩
    by_cases hsame : l'.id = l.id
    · obtain rfl : l' = l := Table.eq_of_clash hl' hmem (.inl hsame)
      refine ⟨row l'.id, hwritten, (hrow l'.id).2, fun other hs => ?_⟩
      unfold GoesBy at hs ⊢
      rw [(hrow l'.id).1, ← hslug]
      exact hs
    · exact ⟨l', (Table.mem_update? hupdate).2 ⟨l', hl', rewrite_neg _ (by simpa using hsame)⟩, rfl,
        fun _ hs => hs⟩
  · split at h
    · cases h
    split at h
    · cases h
    rename_i locations hinsert
    cases h
    refine ⟨fun l hl => ⟨l, (Table.mem_insert hinsert).2 (.inl hl), rfl, fun _ hs => hs⟩, rfl, ?_⟩
    exact ⟨row s.nextLocation, (Table.mem_insert hinsert).2 (.inr rfl), (hrow _).2, .inl (hrow _).1⟩

theorem upsertLocation_keeps {dto : PackageDTO} (h : upsertLocation py s dto slug = .ok (s', id)) :
    KeepsLocations s.locations s'.locations ∧ s'.packages = s.packages
      ∧ ∃ l ∈ s'.locations, l.id = id ∧ GoesBy l slug := by
  obtain ⟨s₁, hrename, hput⟩ := bind_ok h
  have hrow : ∀ n, (locationOf py dto slug n).slug = slug ∧ (locationOf py dto slug n).id = n :=
    fun _ => ⟨rfl, rfl⟩
  obtain ⟨hkeeps, hpackages, hthere⟩ := putLocation_keeps hrow hput
  obtain ⟨hfirst, hsame⟩ := renameWorld_keeps hrename
  exact ⟨hfirst.trans hkeeps, hpackages.trans hsame, hthere⟩

end Locations

/-! ## Packages -/

/-- The location of a package is that of the DTO. -/
def Located (s : CatalogDb) (dto : PackageDTO) (location : Option Nat) : Prop :=
  if PyText.strip dto.locationSlug = "" then location = none
  else ∃ l ∈ s.locations, location = some l.id ∧ GoesBy l (PyText.strip dto.locationSlug)

/-- A DTO is stored: an active package of the source, of this sync, with the fields of the DTO. -/
def Stored (source : String) (now : Time) (s : CatalogDb) (dto : PackageDTO) : Prop :=
  ∃ location, packageOf source now dto location ∈ s.packages ∧ Located s dto location

theorem Located.keeps {s s' : CatalogDb} {dto : PackageDTO} {location : Option Nat}
    (h : Located s dto location) (hkeeps : KeepsLocations s.locations s'.locations) :
    Located s' dto location := by
  unfold Located at h ⊢
  split
  · rename_i hblank
    rw [if_pos hblank] at h
    exact h
  · rename_i hslug
    rw [if_neg hslug] at h
    obtain ⟨l, hl, rfl, hgoes⟩ := h
    obtain ⟨l', hl', hid, hkept⟩ := hkeeps l hl
    exact ⟨l', hl', by rw [hid], hkept _ hgoes⟩

/-- What the DTOs so far have led to. -/
structure Upserted (source : String) (now : Time) (before : CatalogDb) (dtos : List PackageDTO)
    (s : Syncing) :
    Prop where
  /-- Each id has a package that was written for it. -/
  stored : ∀ id ∈ dtos.map (·.externalId), ∃ dto ∈ dtos, dto.externalId = id
    ∧ Stored source now s.1 dto
  /-- The other packages are as they were. -/
  others : ∀ p, p.externalId ∉ dtos.map (·.externalId) → (p ∈ s.1.packages ↔ p ∈ before.packages)
  cached : ∀ entry ∈ s.2, ∃ l ∈ s.1.locations, l.id = entry.2 ∧ GoesBy l entry.1

section Upserts

variable {py : Python} {source : String} {now : Time} {before : CatalogDb} {dtos : List PackageDTO}
  {s s' : Syncing} {dto : PackageDTO}

theorem locate_keeps {location : Option Nat} (h : locate py s dto = .ok (s', location))
    (hcached : ∀ entry ∈ s.2, ∃ l ∈ s.1.locations, l.id = entry.2 ∧ GoesBy l entry.1) :
    KeepsLocations s.1.locations s'.1.locations ∧ s'.1.packages = s.1.packages
      ∧ Located s'.1 dto location
      ∧ ∀ entry ∈ s'.2, ∃ l ∈ s'.1.locations, l.id = entry.2 ∧ GoesBy l entry.1 := by
  unfold locate at h
  dsimp only at h
  unfold Located
  by_cases hblank : PyText.strip dto.locationSlug = ""
  · rw [if_pos hblank] at h
    cases h
    refine ⟨.refl _, rfl, ?_, hcached⟩
    rw [if_pos hblank]
  rw [if_neg hblank] at h
  rw [if_neg hblank]
  split at h
  · rename_i cached hfound
    cases h
    have hslug : cached.1 = PyText.strip dto.locationSlug := by simpa using List.find?_some hfound
    obtain ⟨l, hl, hid, hgoes⟩ := hcached cached (List.mem_of_find?_eq_some hfound)
    refine ⟨.refl _, rfl, ⟨l, hl, by rw [hid], ?_⟩, hcached⟩
    rw [← hslug]
    exact hgoes
  · obtain ⟨⟨db, id⟩, hupsert, h⟩ := bind_ok h
    cases h
    obtain ⟨hkeeps, hpackages, l, hl, hid, hgoes⟩ := upsertLocation_keeps hupsert
    refine ⟨hkeeps, hpackages, ⟨l, hl, by rw [hid], hgoes⟩, fun entry hentry => ?_⟩
    rcases List.mem_cons.1 hentry with rfl | hold
    · exact ⟨l, hl, hid, hgoes⟩
    · obtain ⟨l₀, hl₀, hid₀, hgoes₀⟩ := hcached entry hold
      obtain ⟨l₁, hl₁, hid₁, hkept⟩ := hkeeps l₀ hl₀
      exact ⟨l₁, hl₁, hid₁.trans hid₀, hkept _ hgoes₀⟩

theorem putPackage_rows {s s' : CatalogDb} {row : Package} (h : s.putPackage row = .ok s') :
    s'.locations = s.locations ∧ ∀ p, p ∈ s'.packages
      ↔ (p ∈ s.packages ∧ p.externalId ≠ row.externalId) ∨ p = row := by
  unfold CatalogDb.putPackage at h
  split at h
  · cases h
  split at h
  · cases h
  rename_i packages hinsert
  cases h
  refine ⟨rfl, fun p => ?_⟩
  rw [Table.mem_insert hinsert, Table.mem_remove, decide_eq_false_iff_not]

/-- **One DTO is stored, and only the package of its id is written.** -/
theorem Upserted.step (h : Upserted source now before dtos s)
    (hstep : upsertPackage py source now s dto = .ok s') :
    Upserted source now before (dtos ++ [dto]) s' := by
  obtain ⟨⟨s₁, location⟩, hlocate, hstep⟩ := bind_ok hstep
  obtain ⟨db, hput, hstep⟩ := bind_ok hstep
  cases hstep
  obtain ⟨hkeeps, hpackages, hlocated, hcached⟩ := locate_keeps hlocate h.cached
  obtain ⟨hlocations, hrows⟩ := putPackage_rows hput
  have hsame : ∀ {d : PackageDTO} {l : Option Nat}, Located s₁.1 d l → Located db d l := by
    intro d l hl
    refine hl.keeps ?_
    rw [hlocations]
    exact .refl _
  have hwritten : Stored source now db dto := ⟨location, (hrows _).2 (.inr rfl), hsame hlocated⟩
  refine ⟨?_, ?_, ?_⟩
  · intro id hid
    rw [List.map_append, List.mem_append] at hid
    by_cases heq : dto.externalId = id
    · exact ⟨dto, List.mem_append_right _ List.mem_cons_self, heq, hwritten⟩
    · have hold : id ∈ dtos.map (·.externalId) := by
        rcases hid with hold | hnew
        · exact hold
        · exact absurd (List.mem_singleton.1 hnew).symm heq
      obtain ⟨d, hd, hdid, l, hmem, hl⟩ := h.stored id hold
      refine ⟨d, List.mem_append_left _ hd, hdid, l, (hrows _).2 (.inl ⟨?_, ?_⟩),
        hsame (hl.keeps hkeeps)⟩
      · rw [hpackages]
        exact hmem
      · show d.externalId ≠ dto.externalId
        rw [hdid]
        exact fun hc => heq hc.symm
  · intro p hp
    rw [List.map_append, List.mem_append, not_or] at hp
    obtain ⟨hold, hnew⟩ := hp
    have hne : p.externalId ≠ dto.externalId := fun hc => hnew (List.mem_singleton.2 hc)
    rw [hrows, ← h.others p hold, hpackages]
    constructor
    · rintro (⟨hin, _⟩ | rfl)
      · exact hin
      · exact absurd rfl hne
    · intro hin
      exact .inl ⟨hin, hne⟩
  · intro entry hentry
    show ∃ l ∈ db.locations, _
    rw [hlocations]
    exact hcached entry hentry

theorem Upserted.run (h : Upserted source now before dtos s) {rest : List PackageDTO}
    (hrun : upsertPackages py source now s rest = .ok s') :
    Upserted source now before (dtos ++ rest) s' := by
  induction rest generalizing s dtos with
  | nil =>
    cases hrun
    rw [List.append_nil]
    exact h
  | cons dto rest ih =>
    obtain ⟨s₁, hstep, hrun⟩ := bind_ok hrun
    have hnext := ih (h.step hstep) hrun
    rw [List.append_assoc] at hnext
    exact hnext

/-- **After `_upsert_packages` every id of the listing is stored, and the other packages are as they
were.** -/
theorem upsertPackages_ok {rest : List PackageDTO}
    (h : upsertPackages py source now (before, []) rest = .ok s') :
    Upserted source now before rest s' := by
  have hinit : Upserted source now before [] (before, []) :=
    ⟨fun id hid => absurd hid List.not_mem_nil, fun _ _ => Iff.rfl,
      fun entry hentry => absurd hentry List.not_mem_nil⟩
  exact hinit.run h

end Upserts

/-! ## The whole sync -/

section Sync

variable {py : Python} {source : String} {now : Time} {answers : CatalogAnswers}
  {country : Option String} {s s' db : CatalogDb} {ids : List String}

theorem isMissing_iff {p : Package} :
    isMissing source ids p = true ↔ p.source = source ∧ p.isActive = true ∧ p.externalId ∉ ids := by
  unfold isMissing
  rw [Bool.and_eq_true, Bool.and_eq_true, decide_eq_true_iff, Bool.not_eq_true', ← Bool.not_eq_true,
    List.contains_iff_mem, and_assoc]

/-- What is not missing stays as it is. -/
theorem deactivate_stays {p : Package} (hp : p ∈ db.packages) (h : isMissing source ids p = false) :
    p ∈ (db.deactivateMissing source now ids).packages := by
  unfold CatalogDb.deactivateMissing
  split
  · exact hp
  · have hstays : rewrite (isMissing source ids) (deactivated now) p = p := by
      rw [rewrite_neg _ (by rw [h]; exact Bool.false_ne_true)]
    exact List.mem_map.2 ⟨p, hp, hstays⟩

/-- An active package was active before, and is not missing where the listing held anything. -/
theorem active_of_deactivate {p : Package} (hp : p ∈ (db.deactivateMissing source now ids).packages)
    (hactive : p.isActive = true) :
    p ∈ db.packages ∧ (ids ≠ [] → isMissing source ids p = false) := by
  unfold CatalogDb.deactivateMissing at hp
  split at hp
  · rename_i hnone
    exact ⟨hp, fun hc => absurd hnone hc⟩
  · obtain ⟨q, hq, ⟨_, rfl⟩ | ⟨hnot, rfl⟩⟩ := Table.of_mem_rewritten hp
    · cases hactive
    · exact ⟨hq, fun _ => Bool.eq_false_iff.2 hnot⟩

theorem Stored.deactivate {dto : PackageDTO} (h : Stored source now db dto)
    (hin : dto.externalId ∈ ids) :
    Stored source now (db.deactivateMissing source now ids) dto := by
  obtain ⟨location, hmem, hlocated⟩ := h
  refine ⟨location, deactivate_stays hmem
    (Bool.eq_false_iff.2 fun hc => (isMissing_iff.1 hc).2.2 hin), ?_⟩
  have hsame : (db.deactivateMissing source now ids).locations = db.locations := by
    unfold CatalogDb.deactivateMissing
    split <;> rfl
  refine hlocated.keeps ?_
  rw [hsame]
  exact .refl _

/-- What a sync does, by the rows it maps. -/
structure Synced (py : Python) (source : String) (now : Time) (rows : List Json)
    (s s' : CatalogDb) : Prop where
  /-- The ids of the rows are stored, each from an occurrence in one of them. -/
  stored : ∀ item ∈ rows, ∀ id ∈ idsOf py item, ∃ other ∈ rows, ∃ dto ∈ occurrencesIn py other,
    dto.externalId = id ∧ Stored source now s' dto
  /-- A package of another id stays active unless it is of the source, -/
  stays : ∀ p ∈ s.packages, p.source ≠ source → (∀ item ∈ rows, p.externalId ∉ idsOf py item)
    → p ∈ s'.packages
  /-- and is inactive then, as soon as the rows hold a package at all. -/
  reaches : ∀ p ∈ s'.packages, p.source = source → p.isActive = true
    → (∃ item ∈ rows, idsOf py item ≠ []) →
    ∃ item ∈ rows, p.externalId ∈ idsOf py item
  /-- What is active and of another id was there. -/
  others : ∀ p ∈ s'.packages, p.isActive = true → (∀ item ∈ rows, p.externalId ∉ idsOf py item)
    → p ∈ s.packages
  /-- Where the rows hold no package, nothing is written. -/
  empty : (∀ item ∈ rows, idsOf py item = []) → s' = s

theorem sync_synced {rows : List Json} (hrows : fetchCatalogItems py answers country = .ok rows)
    (h : sync py source now answers country s = .ok s') : Synced py source now rows s s' := by
  obtain ⟨dtos, hlist, h⟩ := bind_ok h
  obtain ⟨⟨db, cache⟩, hupsert, h⟩ := bind_ok h
  obtain ⟨rows', hfetch, hmap⟩ := bind_ok hlist
  obtain rfl : rows = rows' := Except.ok.inj (hrows.symm.trans hfetch)
  obtain rfl : db.deactivateMissing source now (dtos.map (·.externalId)) = s' := Except.ok.inj h
  have hup := upsertPackages_ok hupsert
  have hids := mapItems_ids hmap
  have hdtos := (mapItems_ok hmap).1
  have hout : ∀ {id : String}, (∀ item ∈ rows, id ∉ idsOf py item)
      → id ∉ dtos.map (·.externalId) := by
    intro id hnone hc
    obtain ⟨item, hitem, hid⟩ := (hids id).1 hc
    exact hnone item hitem hid
  refine ⟨?_, ?_, ?_, ?_, ?_⟩
  · intro item hitem id hid
    have hin : id ∈ dtos.map (·.externalId) := (hids id).2 ⟨item, hitem, hid⟩
    obtain ⟨dto, hdto, hsame, hstored⟩ := hup.stored id hin
    rw [hdtos, List.mem_flatMap] at hdto
    obtain ⟨other, hother, hdto⟩ := hdto
    exact ⟨other, hother, dto, hdto, hsame, hstored.deactivate (by rw [hsame]; exact hin)⟩
  · intro p hp hsource hnone
    refine deactivate_stays ((hup.others p (hout hnone)).2 hp) (Bool.eq_false_iff.2 fun hc => ?_)
    exact hsource (isMissing_iff.1 hc).1
  · rintro p hp hsource hactive ⟨item, hitem, hsome⟩
    obtain ⟨id, hid⟩ := List.exists_mem_of_ne_nil _ hsome
    have hne : dtos.map (·.externalId) ≠ [] := List.ne_nil_of_mem ((hids id).2 ⟨item, hitem, hid⟩)
    have hnot := (active_of_deactivate hp hactive).2 hne
    refine (hids _).1 (by_contra fun hno => ?_)
    rw [isMissing_iff.2 ⟨hsource, hactive, hno⟩] at hnot
    cases hnot
  · intro p hp hactive hnone
    exact (hup.others p (hout hnone)).1 (active_of_deactivate hp hactive).1
  · intro hnone
    have hempty : dtos = [] := by
      refine List.eq_nil_iff_forall_not_mem.2 fun dto hdto => ?_
      obtain ⟨item, hitem, hid⟩ := (hids dto.externalId).1 (List.mem_map.2 ⟨dto, hdto, rfl⟩)
      rw [hnone item hitem] at hid
      exact List.not_mem_nil hid
    rw [hempty] at hupsert ⊢
    cases hupsert
    exact if_pos rfl

/-! ## Without a filter -/

/-- Every package of every row is stored, and none of them is made inactive. -/
structure LosesNothing (py : Python) (source : String) (now : Time) (rows : List Json)
    (s s' : CatalogDb) : Prop where
  stored : ∀ item ∈ rows, ∀ id ∈ idsOf py item, ∃ other ∈ rows, ∃ dto ∈ occurrencesIn py other,
    dto.externalId = id ∧ Stored source now s' dto
  active : ∀ p ∈ s.packages, p.source = source → p.isActive = true →
    (∃ p' ∈ s'.packages, p'.externalId = p.externalId ∧ p'.isActive = false) →
    ∀ item ∈ rows, p.externalId ∉ idsOf py item

/-- A package of a row is also one of a row that is the first of its key. -/
def HeldByFirst (py : Python) (rows : List Json) (id : String) : Prop :=
  ∃ item, FirstOfKey py rows item ∧ id ∈ idsOf py item

/-- No row that is the first of its key holds a package, and the one in question is stored
already. -/
def StoredBefore (py : Python) (source : String) (now : Time) (rows : List Json) (s : CatalogDb)
    (id : String) : Prop :=
  (∀ item, FirstOfKey py rows item → idsOf py item = [])
    ∧ ∃ other ∈ rows, ∃ dto ∈ occurrencesIn py other, dto.externalId = id ∧ Stored source now s dto

theorem FirstOfKey.mem {rows : List Json} {item : Json}
    (h : FirstOfKey py rows item) : item ∈ rows := by
  obtain ⟨before, after, rfl, _⟩ := h
  exact List.mem_append_right _ List.mem_cons_self

theorem losesNothing_iff (hcountry : countryFilter country = none)
    (h : sync py source now answers country s = .ok s') :
    LosesNothing py source now (answers.locals ++ answers.globals) s s'
      ↔ ∀ item ∈ answers.locals ++ answers.globals, ∀ id ∈ idsOf py item,
          HeldByFirst py (answers.locals ++ answers.globals) id
            ∨ StoredBefore py source now (answers.locals ++ answers.globals) s id := by
  obtain ⟨dtos, hlist, _⟩ := bind_ok h
  obtain ⟨kept, hfetch, _⟩ := bind_ok hlist
  have hsynced := sync_synced hfetch h
  unfold fetchCatalogItems at hfetch
  rw [hcountry] at hfetch
  have hkept := mem_merged hfetch
  generalize answers.locals ++ answers.globals = rows at hfetch hkept ⊢
  constructor
  · intro hloses item hitem id hid
    by_cases hfirst : HeldByFirst py rows id
    · exact .inl hfirst
    right
    obtain ⟨other, hother, dto, hdto, hsame, hstored⟩ := hloses.stored item hitem id hid
    -- the package was not written, so that it was left active only if nothing was written
    have hnone : ∀ i, FirstOfKey py rows i → idsOf py i = [] := by
      intro i hi
      by_contra hsome
      obtain ⟨location, hmem, _⟩ := hstored
      obtain ⟨j, hj, hjd⟩ := hsynced.reaches _ hmem rfl rfl ⟨i, (hkept i).2 hi, hsome⟩
      have hjid : id ∈ idsOf py j := hsame ▸ hjd
      exact hfirst ⟨j, (hkept j).1 hj, hjid⟩
    refine ⟨hnone, other, hother, dto, hdto, hsame, ?_⟩
    rw [← hsynced.empty fun i hi => hnone i ((hkept i).1 hi)]
    exact hstored
  · intro hheld
    refine ⟨?_, ?_⟩
    · intro item hitem id hid
      rcases hheld item hitem id hid
        with ⟨first, hfirst, hin⟩ | ⟨hnone, other, hother, dto, hdto, hsame, hstored⟩
      · obtain ⟨other, hother, rest⟩ := hsynced.stored first ((hkept first).2 hfirst) id hin
        exact ⟨other, ((hkept other).1 hother).mem, rest⟩
      · refine ⟨other, hother, dto, hdto, hsame, ?_⟩
        rw [hsynced.empty fun i hi => hnone i ((hkept i).1 hi)]
        exact hstored
    · rintro p hp hsource hactive ⟨p', hp', hid, hinactive⟩ item hitem hin
      rcases hheld item hitem _ hin with ⟨first, hfirst, hheld⟩ | ⟨hnone, _⟩
      · obtain ⟨_, _, dto, _, hsame, location, hmem, _⟩ :=
          hsynced.stored first ((hkept first).2 hfirst) _ hheld
        have heq : p' = packageOf source now dto location :=
          Table.eq_of_clash hp' hmem (hid.trans hsame.symm)
        rw [heq] at hinactive
        cases hinactive
      · rw [hsynced.empty fun i hi => hnone i ((hkept i).1 hi)] at hp'
        obtain rfl : p' = p := Table.eq_of_clash hp' hp hid
        rw [hactive] at hinactive
        cases hinactive

/-! ## With a filter -/

/-- No package outside the country is made inactive. -/
def KeepsOutside (py : Python) (code : String) (s s' : CatalogDb) : Prop :=
  ∀ p ∈ s.packages, p.isActive = true → p.countryCode ≠ py.upper code →
    ∃ p' ∈ s'.packages, p'.externalId = p.externalId ∧ p'.isActive = true

theorem keepsOutside_iff {code : String} (hcountry : countryFilter country = some code)
    (h : sync py source now answers country s = .ok s') :
    KeepsOutside py code s s'
      ↔ (∀ item ∈ answers.ofCountry code, idsOf py item = [])
        ∨ ∀ p ∈ s.packages, p.source = source → p.isActive = true → p.countryCode ≠ py.upper code →
            ∃ item ∈ answers.ofCountry code, p.externalId ∈ idsOf py item := by
  have hfetch : fetchCatalogItems py answers country = .ok (answers.ofCountry code) := by
    unfold fetchCatalogItems
    rw [hcountry]
  have hsynced := sync_synced hfetch h
  generalize answers.ofCountry code = rows at hsynced ⊢
  constructor
  · intro hkeeps
    by_cases hnone : ∀ item ∈ rows, idsOf py item = []
    · exact .inl hnone
    right
    push Not at hnone
    intro p hp hsource hactive houtside
    obtain ⟨p', hp', hid, hactive'⟩ := hkeeps p hp hactive houtside
    by_contra hout
    push Not at hout
    -- the package was not written, so that it is the one that was there
    rw [← hid] at hout
    obtain rfl : p' = p := Table.eq_of_clash (hsynced.others p' hp' hactive' hout) hp hid
    obtain ⟨item, hitem, hin⟩ := hsynced.reaches p' hp' hsource hactive' hnone
    exact hout item hitem hin
  · rintro (hnone | hheld) p hp hactive houtside
    · rw [hsynced.empty hnone]
      exact ⟨p, hp, rfl, hactive⟩
    · by_cases hin : ∃ item ∈ rows, p.externalId ∈ idsOf py item
      · obtain ⟨item, hitem, hid⟩ := hin
        obtain ⟨_, _, dto, _, hsame, location, hmem, _⟩ := hsynced.stored item hitem _ hid
        exact ⟨packageOf source now dto location, hmem, hsame, rfl⟩
      · have hother : p.source ≠ source := fun hsource => hin (hheld p hp hsource hactive houtside)
        push Not at hin
        exact ⟨p, hsynced.stays p hp hother hin, rfl, hactive⟩

end Sync

/--
**A sync without a filter loses nothing exactly where every package of a row left out is held by a
row left in; and one with a filter keeps what is outside the country exactly where it stores all of
that, or nothing at all.**
-/
theorem catalogue_kept_iff {py : Python} {source : String} {now : Time} {answers : CatalogAnswers}
    {country : Option String} {s s' : CatalogDb}
    (h : sync py source now answers country s = .ok s') :
    (countryFilter country = none →
      (LosesNothing py source now (answers.locals ++ answers.globals) s s'
        ↔ ∀ item ∈ answers.locals ++ answers.globals, ∀ id ∈ idsOf py item,
            HeldByFirst py (answers.locals ++ answers.globals) id
              ∨ StoredBefore py source now (answers.locals ++ answers.globals) s id))
      ∧ ∀ code, countryFilter country = some code →
          (KeepsOutside py code s s'
            ↔ (∀ item ∈ answers.ofCountry code, idsOf py item = [])
              ∨ ∀ p ∈ s.packages, p.source = source → p.isActive = true
                → p.countryCode ≠ py.upper code →
                  ∃ item ∈ answers.ofCountry code, p.externalId ∈ idsOf py item) :=
  ⟨fun hcountry => losesNothing_iff hcountry h, fun _ hcountry => keepsOutside_iff hcountry h⟩

/-! ## Two rows of Japan -/

/-- Python, as far as letters are in ASCII and numbers are whole. -/
def asciiPython : Python where
  writer := ⟨fun _ => "", fun _ => "", fun _ => ""⟩
  lower := PyText.lower
  upper s := String.ofList (s.toList.map Char.toUpper)
  isAlpha s := s.toList.all Char.isAlpha
  isAlnum := Char.isAlphanum
  floatOfInt n := some (.finite n 0)
  floatOfText _ := none
  general _ := ""

/-- A location with one operator, which has one package. -/
def japan (operator : Int) (id : String) : Json :=
  .dict [("slug", .str "japan"), ("title", .str "Japan"), ("country_code", .str "JP"),
    ("operators",
      .list [.dict [("id", .int operator), ("title", .str "Moshi"), ("type", .str "local"),
      ("packages", .list
        [.dict [("id", .str id), ("title", .str "1 GB"), ("data", .str "1 GB"), ("day", .int 7),
        ("price", .int 5)]])]])]

/-- A package that was synced before. -/
def sold (id countryCode : String) : Package :=
  ⟨id, "1 GB", "Moshi", "1", countryCode, none, "1 GB", 7, .finite ⟨500, -2⟩, none, false, "data",
    none, none, "unknown", "airalo", true, 0⟩

def soldBefore : CatalogDb where
  packages := ⟨[sold "ubigi-7" "JP", sold "hallo-1" "DE"], by decide⟩
  locations := .empty
  nextLocation := 1

/-- Both answers have a row of Japan. -/
def twoRows : CatalogAnswers where
  ofCountry _ := [japan 1 "moshi-1"]
  locals := [japan 1 "moshi-1"]
  globals := [japan 2 "ubigi-7"]

def oneRow : CatalogAnswers where
  ofCountry _ := [japan 1 "moshi-1"]
  locals := [japan 1 "moshi-1"]
  globals := []

/-- With one row of Japan nothing is lost. -/
theorem catalogue_kept_one_row : ∃ s', sync asciiPython "airalo" 60 oneRow none soldBefore = .ok s'
    ∧ LosesNothing asciiPython "airalo" 60 (oneRow.locals ++ oneRow.globals) soldBefore s' := by
  have hruns : (sync asciiPython "airalo" 60 oneRow none soldBefore).toOption.isSome = true := by
    decide +kernel
  cases hsync : sync asciiPython "airalo" 60 oneRow none soldBefore with
  | error e =>
    rw [hsync] at hruns
    cases hruns
  | ok s' =>
    refine ⟨s', rfl, ((catalogue_kept_iff hsync).1 rfl).2 fun item hitem id hid =>
      .inl ⟨item, ?_, hid⟩⟩
    rcases List.mem_singleton.1 hitem with rfl
    exact ⟨[], [], rfl, fun j hj => absurd hj List.not_mem_nil⟩

/--
**The second row of Japan is dropped, and its package made inactive; and a sync of Japan makes the
packages of Germany inactive.**
-/
theorem catalogue_lost : (∃ s', sync asciiPython "airalo" 60 twoRows none soldBefore = .ok s'
      ∧ ¬ LosesNothing asciiPython "airalo" 60 (twoRows.locals ++ twoRows.globals) soldBefore s')
    ∧ ∃ s', sync asciiPython "airalo" 60 twoRows (some "JP") soldBefore = .ok s'
      ∧ ¬ KeepsOutside asciiPython "JP" soldBefore s' := by
  constructor
  · have hruns : ((sync asciiPython "airalo" 60 twoRows none soldBefore).toOption.any fun s' =>
        decide (∃ p' ∈ s'.packages.rows, p'.externalId = "ubigi-7" ∧ p'.isActive = false))
          = true := by decide +kernel
    cases hsync : sync asciiPython "airalo" 60 twoRows none soldBefore with
    | error e =>
      rw [hsync] at hruns
      cases hruns
    | ok s' =>
      rw [hsync] at hruns
      refine ⟨s', rfl, fun hloses => ?_⟩
      have hrow : "ubigi-7" ∈ idsOf asciiPython (japan 2 "ubigi-7") := by decide
      exact hloses.active (sold "ubigi-7" "JP") List.mem_cons_self rfl rfl (of_decide_eq_true hruns)
        (japan 2 "ubigi-7") (List.mem_cons_of_mem _ List.mem_cons_self) hrow
  · have hruns :
      ((sync asciiPython "airalo" 60 twoRows (some "JP") soldBefore).toOption.any fun s' =>
        decide (∀ p' ∈ s'.packages.rows, p'.externalId = "hallo-1" → p'.isActive = false))
          = true := by decide +kernel
    cases hsync : sync asciiPython "airalo" 60 twoRows (some "JP") soldBefore with
    | error e =>
      rw [hsync] at hruns
      cases hruns
    | ok s' =>
      rw [hsync] at hruns
      refine ⟨s', rfl, fun hkeeps => ?_⟩
      have houtside : (sold "hallo-1" "DE").countryCode ≠ asciiPython.upper "JP" := by decide
      obtain ⟨p', hp', hid, hactive⟩ :=
        hkeeps (sold "hallo-1" "DE") (List.mem_cons_of_mem _ List.mem_cons_self) rfl houtside
      have hinactive : p'.isActive = false := of_decide_eq_true hruns p' hp' hid
      rw [hactive] at hinactive
      cases hinactive

end Roamkit.Catalog.Proof
