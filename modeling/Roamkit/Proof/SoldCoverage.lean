import Roamkit.Lib.LetterCase
import Roamkit.Lib.Singles
import Roamkit.Proof.Coverages

/-!
# The coverage an order records

The coverages of an operator are stored on the location its packages are sold at, and a
location has those of one operator only: a sync writes a location once, for the first
package of its slug, and takes it from a cache afterwards. So an order records the coverage
of what was bought exactly when that first operator lists all that the package's own
operator lists.
-/

namespace Roamkit.Catalog.Proof

open Lib Airalo

/-! ## The operators of an answer -/

/-- An operator, and the location it is nested in. -/
structure Offer where
  location : Option LocationInfo
  operator : Json

/-- The location of a row. -/
def locationInfo (py : Python) (item : Json) : Except Exc LocationInfo := do
  requireDict item
  let slug := normalizeLocationSlug py (← textOr py.writer item "slug" "")
  let title ← strippedOr py.writer item "title"
  let countryCode := normalizeIso2 py (py.upper (← textOr py.writer item "country_code" ""))
  let imageUrl ← extractImageUrl py (item.get "image")
  return ⟨slug, title, countryCode, imageUrl⟩

/-- The operators of a row; one without a list of operators is an operator itself. -/
def offersIn (py : Python) (item : Json) : List Offer :=
  match hasKey item "operators" with
  | .ok true =>
    match locationInfo py item with
    | .ok l =>
        ((elements ((item.get "operators").orElse (.list []))).filter (·.isDict)).map
          (Offer.mk (some l))
    | .error _ => []
  | _ => [⟨none, item⟩]

def offersOf (py : Python) (rows : List Json) : List Offer := rows.flatMap (offersIn py)

namespace Offer

/-- The slug its packages are sold under. -/
def slug (py : Python) (o : Offer) : String :=
  match operatorInfo py o.location o.operator with
  | .ok info => PyText.strip info.locationSlug
  | .error _ => ""

/-- The ids of its packages. -/
def ids (py : Python) (o : Offer) : List String := idsOfOperator py o.operator

end Offer

/-- The operator whose coverages the location of another one keeps: the first with a package, of its
slug. -/
def keeper (py : Python) (rows : List Json) (own : Offer) : Option Offer :=
  if own.slug py = "" then none
  else (offersOf py rows).find? fun o => o.ids py ≠ [] ∧ o.slug py = own.slug py

/-! ## What they are mapped to -/

/-- The slug of the location of a DTO. -/
def dtoSlug (dto : PackageDTO) : String := PyText.strip dto.locationSlug

/-- The DTOs of an operator. -/
structure MapsTo (py : Python) (o : Offer) (dtos : List PackageDTO) : Prop where
  ids : dtos.map (·.externalId) = o.ids py
  slug : ∀ dto ∈ dtos, dtoSlug dto = o.slug py ∧ dtoSlug dto ≠ "world"
  coverages : ∀ dto ∈ dtos, mapCoverages py (coverageEntries o.operator) = .ok dto.coverages

variable {offers : List Offer} {dtoss : List (List PackageDTO)} {dto : PackageDTO}

section Mapping

variable {py : Python} {casefold : String → String}

theorem mapPackages_info {info : OperatorInfo} {packages : List Json} {dtos : List PackageDTO}
    (h : mapPackages py info packages = .ok dtos) :
    ∀ dto ∈ dtos, dto.locationSlug = info.locationSlug ∧ dto.coverages = info.coverages := by
  induction packages generalizing dtos with
  | nil =>
    cases h
    exact fun dto hdto => absurd hdto List.not_mem_nil
  | cons package packages ih =>
    obtain ⟨mapped, hmapped, h⟩ := bind_ok h
    obtain ⟨rest, hrest, h⟩ := bind_ok h
    cases h
    intro dto hdto
    rcases List.mem_append.1 hdto with hhere | hlater
    · unfold mapPackage at hmapped
      obtain ⟨_, _, hmapped⟩ := bind_ok hmapped
      obtain ⟨id, _, hmapped⟩ := bind_ok hmapped
      by_cases hblank : id = ""
      · rw [if_pos hblank] at hmapped
        cases hmapped
        exact absurd hhere List.not_mem_nil
      · rw [if_neg hblank] at hmapped
        obtain ⟨_, _, hmapped⟩ := bind_ok hmapped
        obtain ⟨_, _, hmapped⟩ := bind_ok hmapped
        obtain ⟨_, _, hmapped⟩ := bind_ok hmapped
        obtain ⟨_, _, hmapped⟩ := bind_ok hmapped
        obtain ⟨⟨_, _⟩, _, hmapped⟩ := bind_ok hmapped
        obtain ⟨_, _, hmapped⟩ := bind_ok hmapped
        obtain ⟨_, _, hmapped⟩ := bind_ok hmapped
        cases hmapped
        rw [List.mem_singleton.1 hhere]
        exact ⟨rfl, rfl⟩
    · exact ih hrest dto hlater

/-- A normalised slug is trimmed, and the old name of the global one is no such slug. -/
theorem strip_normalizeLocationSlug (hletters : Letters py casefold) (slug : String) :
    PyText.strip (normalizeLocationSlug py slug) = normalizeLocationSlug py slug
      ∧ normalizeLocationSlug py slug ≠ "world" := by
  unfold normalizeLocationSlug
  dsimp only
  by_cases halias : py.lower (PyText.strip slug) ∈ globalSlugAliases
  · rw [if_pos halias]
    exact ⟨by decide, by decide⟩
  · rw [if_neg halias]
    refine ⟨hletters.lower_strip slug, ?_⟩
    intro hworld
    rw [hworld] at halias
    exact halias (by decide)

theorem operatorInfo_spec {location : Option LocationInfo} {operator : Json} {info : OperatorInfo}
    (h : operatorInfo py location operator = .ok info) :
    mapCoverages py (coverageEntries operator) = .ok info.coverages
      ∧ ∃ slug, info.locationSlug = normalizeLocationSlug py slug := by
  unfold operatorInfo at h
  obtain ⟨_, _, h⟩ := bind_ok h
  obtain ⟨_, _, h⟩ := bind_ok h
  obtain ⟨_, _, h⟩ := bind_ok h
  obtain ⟨_, _, h⟩ := bind_ok h
  dsimp only at h
  -- the country code is the location's, or read from the countries
  rcases location with _ | l
  all_goals
    obtain ⟨_, _, h⟩ := bind_ok h
    obtain ⟨entries, hentries, h⟩ := bind_ok h
    obtain ⟨coverages, hcoverages, h⟩ := bind_ok h
    obtain ⟨_, _, h⟩ := bind_ok h
    obtain ⟨_, _, h⟩ := bind_ok h
    obtain ⟨_, _, h⟩ := bind_ok h
    obtain ⟨_, _, h⟩ := bind_ok h
    cases h
    unfold coverageEntries
    rw [elements_of_ok hentries]
    exact ⟨hcoverages, _, rfl⟩

theorem mapOperator_mapsTo (hletters : Letters py casefold) {o : Offer} {dtos : List PackageDTO}
    (h : mapOperator py o.location o.operator = .ok dtos) : MapsTo py o dtos := by
  have hids := mapOperator_ids h
  obtain ⟨info, hinfo, h⟩ := bind_ok h
  obtain ⟨packages, _, h⟩ := bind_ok h
  have hfields := mapPackages_info h
  obtain ⟨hcoverages, slug, hslug⟩ := operatorInfo_spec hinfo
  obtain ⟨hstrip, hworld⟩ := strip_normalizeLocationSlug hletters slug
  refine ⟨hids, ?_, ?_⟩
  · intro dto hdto
    have hsame : o.slug py = dtoSlug dto := by
      unfold Offer.slug dtoSlug
      rw [hinfo, (hfields dto hdto).1]
    refine ⟨hsame.symm, ?_⟩
    unfold dtoSlug
    rw [(hfields dto hdto).1, hslug, hstrip]
    exact hworld
  · intro dto hdto
    rw [(hfields dto hdto).2]
    exact hcoverages

theorem mapOperators_mapsTo (hletters : Letters py casefold) {l : LocationInfo}
    {operators : List Json} {dtos : List PackageDTO} (h : mapOperators py l operators = .ok dtos) :
    ∃ dtoss, List.Forall₂ (MapsTo py) ((operators.filter (·.isDict)).map (Offer.mk (some l))) dtoss
      ∧ dtos = dtoss.flatten := by
  induction operators generalizing dtos with
  | nil =>
    cases h
    exact ⟨[], .nil, rfl⟩
  | cons operator operators ih =>
    unfold mapOperators at h
    by_cases hdict : operator.isDict = true
    · rw [if_neg (not_not_intro hdict)] at h
      obtain ⟨mapped, hmapped, h⟩ := bind_ok h
      obtain ⟨rest, hrest, h⟩ := bind_ok h
      cases h
      obtain ⟨dtoss, hall, rfl⟩ := ih hrest
      have hhere : MapsTo py ⟨some l, operator⟩ mapped := mapOperator_mapsTo hletters hmapped
      rw [List.filter_cons_of_pos hdict, List.map_cons]
      exact ⟨mapped :: dtoss, .cons hhere hall, rfl⟩
    · rw [if_pos hdict] at h
      rw [List.filter_cons_of_neg hdict]
      exact ih h

theorem mapItem_mapsTo (hletters : Letters py casefold) {item : Json} {dtos : List PackageDTO}
    (h : mapItem py item = .ok dtos) :
    ∃ dtoss, List.Forall₂ (MapsTo py) (offersIn py item) dtoss ∧ dtos = dtoss.flatten := by
  obtain ⟨isLocation, hkey, h⟩ := bind_ok h
  unfold offersIn
  rw [hkey]
  cases isLocation with
  | false =>
    have hmap : mapOperator py none item = .ok dtos := h
    have hhere : MapsTo py ⟨none, item⟩ dtos := mapOperator_mapsTo hletters hmap
    exact ⟨[dtos], .cons hhere .nil, by simp⟩
  | true =>
    have hmap : mapLocationItem py item = .ok dtos := h
    obtain ⟨_, hdict, hmap⟩ := bind_ok hmap
    obtain ⟨slug, hslug, hmap⟩ := bind_ok hmap
    obtain ⟨title, htitle, hmap⟩ := bind_ok hmap
    obtain ⟨country, hcountry, hmap⟩ := bind_ok hmap
    obtain ⟨image, himage, hmap⟩ := bind_ok hmap
    obtain ⟨operators, hoperators, hmap⟩ := bind_ok hmap
    have hinfo : locationInfo py item
        = .ok ⟨normalizeLocationSlug py slug, title, normalizeIso2 py (py.upper country),
          image⟩ := by
      unfold locationInfo
      rw [hdict, hslug, htitle, hcountry, himage]
      rfl
    dsimp only
    rw [hinfo, elements_of_ok hoperators]
    exact mapOperators_mapsTo hletters hmap

/-- **A listing is what the operators of its rows are mapped to, one after the other.** -/
theorem mapItems_mapsTo (hletters : Letters py casefold) {rows : List Json} {dtos : List PackageDTO}
    (h : mapItems py rows = .ok dtos) :
    ∃ dtoss, List.Forall₂ (MapsTo py) (offersOf py rows) dtoss ∧ dtos = dtoss.flatten := by
  induction rows generalizing dtos with
  | nil =>
    cases h
    exact ⟨[], .nil, rfl⟩
  | cons item rows ih =>
    obtain ⟨mapped, hmapped, h⟩ := bind_ok h
    obtain ⟨rest, hrest, h⟩ := bind_ok h
    cases h
    obtain ⟨here, hhere, rfl⟩ := mapItem_mapsTo hletters hmapped
    obtain ⟨later, hlater, rfl⟩ := ih hrest
    refine ⟨here ++ later, ?_, by rw [List.flatten_append]⟩
    unfold offersOf at hlater ⊢
    rw [List.flatMap_cons]
    exact List.rel_append hhere hlater

/-- A DTO comes from an operator that has its id. -/
theorem offer_of_dto (h : List.Forall₂ (MapsTo py) offers dtoss) (hdto : dto ∈ dtoss.flatten) :
    ∃ o ∈ offers, dto.externalId ∈ o.ids py ∧ dtoSlug dto = o.slug py ∧ dtoSlug dto ≠ "world" := by
  induction h with
  | nil => exact absurd hdto List.not_mem_nil
  | @cons o ds os dss hmaps _ ih =>
    rw [List.flatten_cons, List.mem_append] at hdto
    rcases hdto with hhere | hlater
    · obtain ⟨hslug, hworld⟩ := hmaps.slug dto hhere
      refine ⟨o, List.mem_cons_self, ?_, hslug, hworld⟩
      rw [← hmaps.ids]
      exact List.mem_map.2 ⟨dto, hhere, rfl⟩
    · obtain ⟨o', ho', hrest⟩ := ih hlater
      exact ⟨o', List.mem_cons_of_mem _ ho', hrest⟩

theorem dto_of_offer (h : List.Forall₂ (MapsTo py) offers dtoss) {o : Offer} (ho : o ∈ offers)
    {id : String} (hid : id ∈ o.ids py) : ∃ dto ∈ dtoss.flatten, dto.externalId = id := by
  induction h with
  | nil => exact absurd ho List.not_mem_nil
  | @cons o' ds os dss hmaps _ ih =>
    rw [List.flatten_cons]
    rcases List.mem_cons.1 ho with rfl | hlater
    · rw [← hmaps.ids] at hid
      obtain ⟨dto, hdto, hsame⟩ := List.mem_map.1 hid
      exact ⟨dto, List.mem_append_left _ hdto, hsame⟩
    · obtain ⟨dto, hdto, hsame⟩ := ih hlater
      exact ⟨dto, List.mem_append_right _ hdto, hsame⟩

/-- The first DTO of a slug comes from the first operator of that slug with a package. -/
theorem find_keeper (h : List.Forall₂ (MapsTo py) offers dtoss) {slug : String}
    {first : PackageDTO} (hfirst : dtoss.flatten.find? (dtoSlug · = slug) = some first) :
    ∃ o, offers.find? (fun o => o.ids py ≠ [] ∧ o.slug py = slug) = some o
      ∧ mapCoverages py (coverageEntries o.operator) = .ok first.coverages := by
  induction h with
  | nil => cases hfirst
  | @cons o ds os dss hmaps _ ih =>
    rw [List.flatten_cons, List.find?_append] at hfirst
    by_cases hsells : o.ids py ≠ [] ∧ o.slug py = slug
    · rw [List.find?_cons_of_pos (by simpa using hsells)]
      -- all DTOs of this operator have the slug, and there is one
      cases hhead : ds.find? (dtoSlug · = slug) with
      | some found =>
        rw [hhead, Option.some_or] at hfirst
        obtain rfl := Option.some.inj hfirst
        exact ⟨o, rfl, hmaps.coverages found (List.mem_of_find?_eq_some hhead)⟩
      | none =>
        obtain ⟨id, hid⟩ := List.exists_mem_of_ne_nil _ hsells.1
        rw [← hmaps.ids] at hid
        obtain ⟨dto, hdto, _⟩ := List.mem_map.1 hid
        have hnot := List.find?_eq_none.1 hhead dto hdto
        have hslug := (hmaps.slug dto hdto).1.trans hsells.2
        exact absurd (decide_eq_true hslug) hnot
    · rw [List.find?_cons_of_neg (by simpa using hsells)]
      have hnone : ds.find? (dtoSlug · = slug) = none := by
        rw [List.find?_eq_none]
        intro dto hdto hslug
        have hid : o.ids py ≠ [] := by
          rw [← hmaps.ids]
          exact List.ne_nil_of_mem (List.mem_map.2 ⟨dto, hdto, rfl⟩)
        exact hsells ⟨hid, (hmaps.slug dto hdto).1.symm.trans (of_decide_eq_true hslug)⟩
      rw [hnone, Option.none_or] at hfirst
      exact ih hfirst

end Mapping

/-! ## The locations of a sync -/

/-- A location as it was written for the first DTO of its slug. -/
def Holds (dtos : List PackageDTO) (locations : Table Location) (slug : String) (id : Nat) : Prop :=
  slug ≠ "world" ∧ ∃ l ∈ locations, l.id = id ∧ l.slug = slug
    ∧ ∃ first, dtos.find? (dtoSlug · = slug) = some first ∧ l.coverages = first.coverages

/-- What the DTOs so far have led to. -/
structure Placed (dtos : List PackageDTO) (s : Syncing) : Prop where
  /-- A cached location has the coverages of the first DTO of its slug. -/
  cached : ∀ slug id, (slug, id) ∈ s.2 → Holds dtos s.1.locations slug id
  /-- The location of every DTO is cached, -/
  known : ∀ dto ∈ dtos, dtoSlug dto ≠ "" → ∃ id, (dtoSlug dto, id) ∈ s.2
  /-- and the package of a DTO is there. -/
  placed : ∀ p ∈ s.1.packages, p.externalId ∈ dtos.map (·.externalId)
    → ∃ dto ∈ dtos, dto.externalId = p.externalId
    ∧ ((dtoSlug dto = "" ∧ p.location = none)
      ∨ (dtoSlug dto ≠ "" ∧ ∃ id, (dtoSlug dto, id) ∈ s.2 ∧ p.location = some id))

section Sync

variable {py : Python} {source : String} {now : Time} {dtos : List PackageDTO} {s s' : CatalogDb}
  {slug : String} {id : Nat}

theorem renameWorld_others (h : renameWorld s slug = .ok s') {l : Location} (hl : l ∈ s.locations)
    (hworld : l.slug ≠ "world") : l ∈ s'.locations := by
  unfold renameWorld at h
  split at h
  · cases h
    exact hl
  · split at h
    · cases h
    rename_i locations hupdate
    cases h
    exact (Table.mem_update? hupdate).2 ⟨l, hl, rewrite_neg _ (by simpa using hworld)⟩

theorem putLocation_writes {row : Nat → Location} (h : s.putLocation slug row = .ok (s', id)) :
    row id ∈ s'.locations ∧ ∀ l ∈ s.locations, l.slug ≠ slug → l ∈ s'.locations := by
  unfold CatalogDb.putLocation at h
  split at h
  · rename_i found hfound
    have hslug := Table.prop_of_find? hfound
    have hmem := Table.mem_of_find? hfound
    split at h
    · cases h
    split at h
    · cases h
    rename_i locations hupdate
    cases h
    refine ⟨(Table.mem_update? hupdate).2 ⟨found, hmem, rewrite_pos _ (decide_eq_true rfl)⟩, ?_⟩
    intro l hl hne
    refine (Table.mem_update? hupdate).2 ⟨l, hl, rewrite_neg _ ?_⟩
    rw [decide_eq_true_iff]
    intro hid
    obtain rfl : l = found := Table.eq_of_clash hl hmem (.inl hid)
    exact hne (of_decide_eq_true hslug)
  · split at h
    · cases h
    split at h
    · cases h
    rename_i locations hinsert
    cases h
    exact ⟨(Table.mem_insert hinsert).2 (.inr rfl),
      fun l hl _ => (Table.mem_insert hinsert).2 (.inl hl)⟩

/-- A location is written for its slug, and the others are left alone. -/
theorem upsertLocation_writes (h : upsertLocation py s dto slug = .ok (s', id)) :
    locationOf py dto slug id ∈ s'.locations
      ∧ ∀ l ∈ s.locations, l.slug ≠ "world" → l.slug ≠ slug → l ∈ s'.locations := by
  obtain ⟨s₁, hrename, hput⟩ := bind_ok h
  obtain ⟨hwritten, hothers⟩ := putLocation_writes hput
  exact ⟨hwritten, fun l hl hworld hne => hothers l (renameWorld_others hrename hl hworld) hne⟩

/-- One more DTO hides no first one. -/
theorem find_append {first : PackageDTO} (h : dtos.find? (dtoSlug · = slug) = some first) :
    (dtos ++ [dto]).find? (dtoSlug · = slug) = some first := by
  rw [List.find?_append, h, Option.some_or]

/-- Where a DTO is put; the cache grows by its slug at most, and what it held stays. -/
theorem locate_places {s : Syncing} {s' : Syncing} {location : Option Nat}
    (hplaced : Placed dtos s) (hworld : dtoSlug dto ≠ "world")
    (h : locate py s dto = .ok (s', location)) :
    s'.1.packages = s.1.packages ∧ (∀ entry ∈ s.2, entry ∈ s'.2)
      ∧ (∀ k id, (k, id) ∈ s'.2 → Holds (dtos ++ [dto]) s'.1.locations k id)
      ∧ ((dtoSlug dto = "" ∧ location = none)
        ∨ (dtoSlug dto ≠ "" ∧ ∃ id, (dtoSlug dto, id) ∈ s'.2 ∧ location = some id)) := by
  unfold locate at h
  dsimp only at h
  by_cases hblank : dtoSlug dto = ""
  · unfold dtoSlug at hblank
    rw [if_pos hblank] at h
    cases h
    refine ⟨rfl, fun _ hentry => hentry, ?_, .inl ⟨hblank, rfl⟩⟩
    intro k id hmem
    obtain ⟨hne, l, hl, hlid, hlslug, first, hfirst, hcov⟩ := hplaced.cached k id hmem
    exact ⟨hne, l, hl, hlid, hlslug, first, find_append hfirst, hcov⟩
  · have hslug := hblank
    unfold dtoSlug at hslug
    rw [if_neg hslug] at h
    split at h
    · rename_i cached hfound
      cases h
      have hslug := List.find?_some hfound
      have hkey : cached.1 = dtoSlug dto := of_decide_eq_true hslug
      have hmem := List.mem_of_find?_eq_some hfound
      refine ⟨rfl, fun _ hentry => hentry, ?_, .inr ⟨hblank, cached.2, ?_, rfl⟩⟩
      · intro k id hin
        obtain ⟨hne, l, hl, hlid, hlslug, first, hfirst, hcov⟩ := hplaced.cached k id hin
        exact ⟨hne, l, hl, hlid, hlslug, first, find_append hfirst, hcov⟩
      · rw [← hkey]
        exact hmem
    · rename_i hmissing
      obtain ⟨⟨db, id⟩, hupsert, h⟩ := bind_ok h
      cases h
      obtain ⟨hwritten, hothers⟩ := upsertLocation_writes hupsert
      have hnew : ∀ k n, (k, n) ∈ s.2 → k ≠ dtoSlug dto := by
        intro k n hin hsame
        exact List.find?_eq_none.1 hmissing (k, n) hin (decide_eq_true hsame)
      refine ⟨(upsertLocation_keeps hupsert).2.1,
        fun _ hentry => List.mem_cons_of_mem _ hentry, ?_, ?_⟩
      · intro k n hin
        rcases List.mem_cons.1 hin with hsame | hold
        · cases hsame
          -- a slug that was not cached is that of no DTO before
          have hnone : dtos.find? (dtoSlug · = dtoSlug dto) = none := by
            rw [List.find?_eq_none]
            intro earlier hearlier hsame
            have hsame : dtoSlug earlier = dtoSlug dto := of_decide_eq_true hsame
            obtain ⟨n, hn⟩ := hplaced.known earlier hearlier (by rw [hsame]; exact hblank)
            exact hnew _ n hn hsame
          refine ⟨hworld, _, hwritten, rfl, rfl, dto, ?_, rfl⟩
          show (dtos ++ [dto]).find? (dtoSlug · = dtoSlug dto) = some dto
          rw [List.find?_append, hnone, Option.none_or, List.find?_cons_of_pos (by simp)]
        · obtain ⟨hne, l, hl, hlid, hlslug, first, hfirst, hcov⟩ := hplaced.cached k n hold
          have hstays : l ∈ db.locations := by
            refine hothers l hl ?_ ?_
            · rw [hlslug]
              exact hne
            · rw [hlslug]
              exact hnew k n hold
          exact ⟨hne, l, hstays, hlid, hlslug, first, find_append hfirst, hcov⟩
      · exact .inr ⟨hblank, id, List.mem_cons_self, rfl⟩

/-- **One DTO is put at the location of its slug, which keeps the coverages it has.** -/
theorem Placed.step {s s' : Syncing} (h : Placed dtos s) (hworld : dtoSlug dto ≠ "world")
    (hstep : upsertPackage py source now s dto = .ok s') : Placed (dtos ++ [dto]) s' := by
  obtain ⟨⟨s₁, location⟩, hlocate, hstep⟩ := bind_ok hstep
  obtain ⟨db, hput, hstep⟩ := bind_ok hstep
  cases hstep
  obtain ⟨hpackages, hcache, hholds, hlocated⟩ := locate_places h hworld hlocate
  obtain ⟨hlocations, hrows⟩ := putPackage_rows hput
  refine ⟨?_, ?_, ?_⟩
  · intro k id hmem
    show Holds _ db.locations k id
    rw [hlocations]
    exact hholds k id hmem
  · intro d hd hslug
    rcases List.mem_append.1 hd with hold | hnew
    · obtain ⟨id, hid⟩ := h.known d hold hslug
      exact ⟨id, hcache _ hid⟩
    · rw [List.mem_singleton.1 hnew] at hslug ⊢
      rcases hlocated with ⟨hblank, _⟩ | ⟨_, id, hid, _⟩
      · exact absurd hblank hslug
      · exact ⟨id, hid⟩
  · intro p hp hpid
    have hmine : dto ∈ dtos ++ [dto] := List.mem_append_right _ List.mem_cons_self
    rcases (hrows p).1 hp with ⟨hold, hne⟩ | rfl
    · rw [List.map_append, List.mem_append] at hpid
      have hin : p.externalId ∈ dtos.map (·.externalId) :=
        hpid.resolve_right fun hc => hne (List.mem_singleton.1 hc)
      rw [hpackages] at hold
      obtain ⟨d, hd, hid, hcases⟩ := h.placed p hold hin
      refine ⟨d, List.mem_append_left _ hd, hid, ?_⟩
      rcases hcases with hblank | ⟨hslug, id, hmem, hat⟩
      · exact .inl hblank
      · exact .inr ⟨hslug, id, hcache _ hmem, hat⟩
    · exact ⟨dto, hmine, rfl, hlocated⟩

theorem Placed.run {s s' : Syncing} {rest : List PackageDTO} (h : Placed dtos s)
    (hworld : ∀ dto ∈ rest, dtoSlug dto ≠ "world")
    (hrun : upsertPackages py source now s rest = .ok s') :
    Placed (dtos ++ rest) s' := by
  induction rest generalizing dtos s with
  | nil =>
    cases hrun
    rw [List.append_nil]
    exact h
  | cons dto rest ih =>
    obtain ⟨s₁, hstep, hrun⟩ := bind_ok hrun
    have hnext := ih (h.step (hworld dto List.mem_cons_self) hstep)
      (fun d hd => hworld d (List.mem_cons_of_mem _ hd)) hrun
    rw [List.append_assoc] at hnext
    exact hnext

end Sync

/-! ## What an order records -/

/-- The coverage snapshot of an order has every country that an operator lists, and every network,
up to case. -/
def RecordsCoverage (py : Python) (casefold : String → String) (s : CatalogDb) (p : Package)
    (operator : Json) : Prop :=
  ∃ snapshot, productSnapshotKwargs py casefold s p = .ok snapshot
    ∧ ∀ code, Lists py operator code → ∃ c ∈ snapshot.coverageSnapshot, c.countryCode = code
      ∧ ∀ name, ListsNetwork py operator code name → casefold name ∈ c.operators.map casefold

/-- An operator lists all countries and networks that another one lists, up to case. -/
def ListsAllOf (py : Python) (casefold : String → String) (operator own : Json) : Prop :=
  ∀ code, Lists py own code → Lists py operator code
    ∧ ∀ name, ListsNetwork py own code name
      → ∃ name', ListsNetwork py operator code name' ∧ casefold name' = casefold name

section Orders

variable {py : Python} {casefold : String → String} {source : String} {now : Time}
  {answers : CatalogAnswers} {country : Option String} {s s' : CatalogDb} {rows : List Json}
  {own : Offer} {p : Package}

theorem productSnapshotKwargs_coverage {out : List CountryCoverage}
    (h : coverageSnapshot py casefold (s.locationOf p) = .ok out) :
    ∃ snapshot, productSnapshotKwargs py casefold s p = .ok snapshot
      ∧ snapshot.coverageSnapshot = out := by
  unfold productSnapshotKwargs
  dsimp only
  rw [h]
  exact ⟨_, rfl, rfl⟩

/-- A package whose id is in the listing is not made inactive. -/
theorem mem_of_deactivate {ids : List String}
    (hp : p ∈ (s.deactivateMissing source now ids).packages)
    (hin : p.externalId ∈ ids) : p ∈ s.packages := by
  unfold CatalogDb.deactivateMissing at hp
  split at hp
  · exact hp
  · obtain ⟨q, hq, ⟨hmissing, rfl⟩ | ⟨_, rfl⟩⟩ := Table.of_mem_rewritten hp
    · exact absurd hin (isMissing_iff.1 hmissing).2.2
    · exact hq

/-- A package that a sync stored is at the location of its slug. -/
theorem sync_places (hletters : Letters py casefold)
    (hrows : fetchCatalogItems py answers country = .ok rows)
    (hsync : sync py source now answers country s = .ok s') (hown : own ∈ offersOf py rows)
    (hp : p ∈ s'.packages) (hid : p.externalId ∈ own.ids py)
    (honce : ((offersOf py rows).flatMap (Offer.ids py)).count p.externalId = 1) :
    (own.slug py = "" ∧ p.location = none)
      ∨ ∃ id, p.location = some id ∧ ∃ l ∈ s'.locations, l.id = id
      ∧ ∃ first, keeper py rows own = some first
        ∧ mapCoverages py (coverageEntries first.operator) = .ok l.coverages := by
  obtain ⟨dtos, hlist, hsync⟩ := bind_ok hsync
  obtain ⟨⟨db, cache⟩, hupsert, hsync⟩ := bind_ok hsync
  obtain ⟨rows', hfetch, hmap⟩ := bind_ok hlist
  obtain rfl : rows = rows' := Except.ok.inj (hrows.symm.trans hfetch)
  obtain rfl : db.deactivateMissing source now (dtos.map (·.externalId)) = s' := Except.ok.inj hsync
  obtain ⟨dtoss, hall, rfl⟩ := mapItems_mapsTo hletters hmap
  have hworld : ∀ dto ∈ dtoss.flatten, dtoSlug dto ≠ "world" := by
    intro dto hdto
    obtain ⟨o, _, _, _, hne⟩ := offer_of_dto hall hdto
    exact hne
  have hinit : Placed [] (s, []) :=
    ⟨fun _ _ h => absurd h List.not_mem_nil, fun _ h => absurd h List.not_mem_nil,
      fun _ _ h => absurd h List.not_mem_nil⟩
  have hplaced := hinit.run hworld hupsert
  rw [List.nil_append] at hplaced
  -- the id is in the listing, so the package was not made inactive
  obtain ⟨mine, hmine, hmineid⟩ := dto_of_offer hall hown hid
  have hin : p.externalId ∈ dtoss.flatten.map (·.externalId) :=
    List.mem_map.2 ⟨mine, hmine, hmineid⟩
  have hstored : p ∈ db.packages := mem_of_deactivate hp hin
  have hlocations : (db.deactivateMissing source now (dtoss.flatten.map (·.externalId))).locations
      = db.locations := by
    unfold CatalogDb.deactivateMissing
    split <;> rfl
  obtain ⟨dto, hdto, hdtoid, hcases⟩ := hplaced.placed p hstored hin
  obtain ⟨o, ho, hoid, hslug, _⟩ := offer_of_dto hall hdto
  rw [hdtoid] at hoid
  obtain rfl : o = own := eq_of_count_flatMap honce ho hown hoid hid
  rcases hcases with ⟨hblank, hnone⟩ | ⟨hne, id, hmem, hat⟩
  · exact .inl ⟨hslug.symm.trans hblank, hnone⟩
  · obtain ⟨_, l, hl, hlid, _, first, hfirst, hcov⟩ := hplaced.cached _ id hmem
    obtain ⟨keeps, hkeeps, hcoverages⟩ := find_keeper hall hfirst
    refine .inr ⟨id, hat, l, by rw [hlocations]; exact hl, hlid, keeps, ?_, ?_⟩
    · unfold keeper
      rw [← hslug, if_neg hne]
      exact hkeeps
    · rw [hcov]
      exact hcoverages

/-- **A package's order records what its operator lists exactly when the operator its location has
the coverages of lists all of it.** -/
theorem records_iff (hletters : Letters py casefold)
    (hrows : fetchCatalogItems py answers country = .ok rows)
    (hsync : sync py source now answers country s = .ok s') (hown : own ∈ offersOf py rows)
    (hp : p ∈ s'.packages) (hid : p.externalId ∈ own.ids py)
    (honce : ((offersOf py rows).flatMap (Offer.ids py)).count p.externalId = 1) :
    RecordsCoverage py casefold s' p own.operator
      ↔ (∃ first, keeper py rows own
        = some first ∧ ListsAllOf py casefold first.operator own.operator)
        ∨ ∀ code, ¬ Lists py own.operator code := by
  rcases sync_places hletters hrows hsync hown hp hid honce
    with ⟨hblank, hnone⟩ | ⟨id, hat, l, hl, hlid, first, hkeeper, hmap⟩
  · -- without a location nothing is recorded
    have hread : coverageSnapshot py casefold (s'.locationOf p) = .ok [] := by
      unfold CatalogDb.locationOf
      rw [hnone]
      rfl
    obtain ⟨snapshot, hsnapshot, hout⟩ := productSnapshotKwargs_coverage hread
    have hkeeper : keeper py rows own = none := by
      unfold keeper
      rw [if_pos hblank]
    constructor
    · intro ⟨snapshot', hsnapshot', hall⟩
      obtain rfl : snapshot = snapshot' := Except.ok.inj (hsnapshot.symm.trans hsnapshot')
      refine .inr fun code hlists => ?_
      obtain ⟨c, hc, _⟩ := hall code hlists
      rw [hout] at hc
      exact absurd hc List.not_mem_nil
    · intro hcases
      rcases hcases with ⟨first, hfirst, _⟩ | hnothing
      · rw [hkeeper] at hfirst
        cases hfirst
      · exact ⟨snapshot, hsnapshot, fun code hlists => absurd hlists (hnothing code)⟩
  · have hfound : s'.locationOf p = some l := by
      unfold CatalogDb.locationOf
      rw [hat, Option.bind_some]
      refine Table.find?_of_mem hl (decide_eq_true hlid) ?_
      intro other hother
      have hother : other.id = id := of_decide_eq_true hother
      exact .inl (hother.trans hlid.symm)
    obtain ⟨out, hnormal, hpictures⟩ := mapCoverages_pictures hletters hmap
    have hread : coverageSnapshot py casefold (s'.locationOf p) = .ok out := by
      rw [hfound]
      exact hnormal
    obtain ⟨snapshot, hsnapshot, hout⟩ := productSnapshotKwargs_coverage hread
    constructor
    · intro ⟨snapshot', hsnapshot', hall⟩
      obtain rfl : snapshot = snapshot' := Except.ok.inj (hsnapshot.symm.trans hsnapshot')
      refine .inl ⟨first, hkeeper, fun code hlists => ?_⟩
      obtain ⟨c, hc, rfl, hnames⟩ := hall code hlists
      rw [hout] at hc
      refine ⟨(hpictures.codes _).1 ⟨c, hc, rfl⟩, fun name hname => ?_⟩
      exact (hpictures.folds c hc _).1 (hnames name hname)
    · intro hcases
      refine ⟨snapshot, hsnapshot, fun code hlists => ?_⟩
      rcases hcases with ⟨first', hfirst', hcovers⟩ | hnothing
      · obtain rfl : first = first' := Option.some.inj (hkeeper.symm.trans hfirst')
        obtain ⟨hcode, hnames⟩ := hcovers code hlists
        obtain ⟨c, hc, rfl⟩ := (hpictures.codes code).2 hcode
        rw [hout]
        exact ⟨c, hc, rfl, fun name hname => (hpictures.folds c hc _).2 (hnames name hname)⟩
      · exact absurd hlists (hnothing code)

end Orders

/-! ## Two operators of one region -/

theorem trim_sublist (cs : List Char) : (PyText.trim cs).Sublist cs := by
  unfold PyText.trim
  have hback := List.dropWhile_sublist PyText.isSpace (l := (cs.dropWhile PyText.isSpace).reverse)
  have hfront := List.dropWhile_sublist PyText.isSpace (l := cs)
  have hrev := hback.reverse
  rw [List.reverse_reverse] at hrev
  exact hrev.trans hfront

/-- The letters of a code are capital ones. -/
theorem isCountryCode_iff {code : String} : isCountryCode code = true
    ↔ code.length = 2 ∧ ∀ c ∈ code.toList, 65 ≤ c.toNat ∧ c.toNat ≤ 90 := by
  unfold isCountryCode
  rw [Bool.and_eq_true, decide_eq_true_iff, List.all_eq_true]
  refine and_congr Iff.rfl (forall₂_congr fun c _ => ?_)
  rw [Bool.and_eq_true, decide_eq_true_iff, decide_eq_true_iff]
  exact and_congr UInt32.le_iff_toNat_le UInt32.le_iff_toNat_le

/-- Letters within ASCII are as documented. -/
theorem letters_ascii : Letters asciiPython PyText.lower where
  upper_upper := by
    intro s
    have htrim : (PyText.trim (s.toList.map Char.toUpper)).map Char.toUpper
        = PyText.trim (s.toList.map Char.toUpper) := by
      refine (List.map_congr_left fun c hc => ?_).trans (List.map_id _)
      obtain ⟨d, _, rfl⟩ := List.mem_map.1 ((trim_sublist _).subset hc)
      exact PyText.toUpper_toUpper d
    have hstrip : PyText.strip (asciiPython.upper s)
        = String.ofList (PyText.trim (s.toList.map Char.toUpper)) := by
      show PyText.strip (String.ofList (s.toList.map Char.toUpper)) = _
      rw [PyText.strip, String.toList_ofList]
    rw [hstrip]
    show String.ofList
      ((String.ofList (PyText.trim (s.toList.map Char.toUpper))).toList.map Char.toUpper) = _
    rw [String.toList_ofList, htrim]
  upper_nil := rfl
  alpha := by
    intro s h
    show s.toList.all Char.isAlpha = true
    rw [List.all_eq_true]
    intro c hc
    obtain ⟨hlow, hhigh⟩ := (isCountryCode_iff.1 h).2 c hc
    have hupper : c.isUpper = true := by
      unfold Char.isUpper
      simp only [decide_eq_true_eq]
      exact ⟨UInt32.le_iff_toNat_le.2 hlow, UInt32.le_iff_toNat_le.2 hhigh⟩
    unfold Char.isAlpha
    rw [hupper]
    rfl
  lower_strip := by
    intro s
    have htrim : PyText.trim ((PyText.trim s.toList).map Char.toLower)
        = (PyText.trim s.toList).map Char.toLower := by
      rw [PyText.trim_lower, PyText.trim_trim]
    show PyText.strip (PyText.lower (PyText.strip s)) = PyText.lower (PyText.strip s)
    rw [PyText.strip, PyText.toList_lower_strip, htrim, ← PyText.toList_lower_strip,
      String.ofList_toList]
  lower_code := by
    intro s
    show isCountryCode (PyText.lower s) = false
    by_contra h
    rw [Bool.not_eq_false] at h
    obtain ⟨hlength, hletters⟩ := isCountryCode_iff.1 h
    unfold PyText.lower at hlength hletters
    rw [String.length_ofList, List.length_map] at hlength
    -- the first letter is no capital one
    obtain ⟨c, hc⟩ := List.exists_mem_of_length_pos (l := s.toList) (by omega)
    have hcapital := hletters c.toLower (by rw [String.toList_ofList]; exact List.mem_map_of_mem hc)
    by_cases hc : 65 ≤ c.toNat ∧ c.toNat ≤ 90
    · rw [PyText.toNat_toLower hc] at hcapital
      omega
    · rw [PyText.toLower_of_not hc] at hcapital
      exact hc hcapital
  casefold_lower := fun _ _ h => h

/-- A country with one network. -/
def covers (code network : String) : Json :=
  .dict [("code", .str code),
    ("networks", .list [.dict [("name", .str network), ("types", .list [])]])]

/-- An operator with one package. -/
def operatorWith (id : String) (coverages : List Json) : Json :=
  .dict [("id", .int 1), ("title", .str id), ("type", .str "global"),
    ("coverages", .list coverages),
    ("packages",
      .list [.dict [("id", .str id), ("title", .str "1 GB"), ("data", .str "1 GB"), ("day", .int 7),
      ("price", .int 5)]])]

def croatian : Json := operatorWith "hr-1" [covers "HR" "A1"]

def slovenian : Json := operatorWith "si-1" [covers "HR" "Telemach", covers "SI" "Telemach"]

/-- A region with both operators. -/
def europe : Json := .dict
    [("slug", .str "europe"), ("title", .str "Europe"), ("operators", .list [croatian, slovenian])]

def ofEurope : CatalogAnswers := ⟨fun _ => [], [], [europe]⟩

def noCatalogue : CatalogDb := ⟨.empty, .empty, 1⟩

def inEurope (operator : Json) : Offer := ⟨some ⟨"europe", "Europe", "", ""⟩, operator⟩

theorem europe_rows : fetchCatalogItems asciiPython ofEurope none = .ok [europe] := rfl

theorem europe_offers : offersOf asciiPython
    [europe] = [inEurope croatian, inEurope slovenian] := rfl

theorem europe_ids : (offersOf asciiPython [europe]).flatMap
    (Offer.ids asciiPython) = ["hr-1", "si-1"] := by
  decide

theorem keeper_croatian :
    keeper asciiPython [europe] (inEurope croatian) = some (inEurope croatian) := by
  unfold keeper
  rw [if_neg (by decide +kernel), europe_offers, List.find?_cons_of_pos (by decide +kernel)]

/-- Both packages are stored, and their orders say one country. -/
theorem europe_stored :
    ((sync asciiPython "airalo" 60 ofEurope none noCatalogue).toOption.any fun s' =>
    decide (∀ id ∈ ["hr-1", "si-1"], ∃ p ∈ s'.packages.rows, p.externalId = id
      ∧ ((productSnapshotKwargs asciiPython PyText.lower s' p).toOption.map
          fun x => x.coverageSnapshot.map (·.countryCode)) = some ["HR"])) = true := by
  decide +kernel

theorem lists_slovenia : Lists asciiPython slovenian "SI" := by
  refine ⟨covers "SI" "Telemach", List.mem_cons_of_mem _ List.mem_cons_self, ?_⟩
  decide

theorem europe_synced : ∃ s', sync asciiPython "airalo" 60 ofEurope none noCatalogue = .ok s'
    ∧ ∀ id ∈ ["hr-1", "si-1"], ∃ p ∈ s'.packages, p.externalId = id
      ∧ ((productSnapshotKwargs asciiPython PyText.lower s' p).toOption.map
          fun x => x.coverageSnapshot.map (·.countryCode)) = some ["HR"] := by
  have hruns := europe_stored
  cases hsync : sync asciiPython "airalo" 60 ofEurope none noCatalogue with
  | error e =>
    rw [hsync] at hruns
    cases hruns
  | ok s' =>
    rw [hsync] at hruns
    exact ⟨s', rfl, of_decide_eq_true hruns⟩

/-- The operator that comes first is recorded. -/
theorem records_croatian : ∃ s', sync asciiPython "airalo" 60 ofEurope none noCatalogue = .ok s'
    ∧ ∃ p ∈ s'.packages, p.externalId = "hr-1"
      ∧ RecordsCoverage asciiPython PyText.lower s' p croatian := by
  obtain ⟨s', hsync, hstored⟩ := europe_synced
  obtain ⟨p, hp, hid, _⟩ := hstored "hr-1" (by decide)
  have hmine : p.externalId ∈ (inEurope croatian).ids asciiPython := by
    rw [hid]
    decide
  have honce : ((offersOf asciiPython [europe]).flatMap (Offer.ids asciiPython)).count p.externalId
      = 1 := by
    rw [europe_ids, hid]
    decide
  have hown : inEurope croatian ∈ offersOf asciiPython [europe] := List.mem_cons_self
  refine ⟨s', hsync, p, hp, hid, ?_⟩
  refine (records_iff letters_ascii europe_rows hsync hown hp hmine honce).2 (.inl ?_)
  exact ⟨inEurope croatian, keeper_croatian,
    fun code hlists => ⟨hlists, fun name hname => ⟨name, hname, rfl⟩⟩⟩

/-- **The package of the other operator is sold for two countries, and its order records one.** -/
theorem slovenia_not_recorded :
    ∃ s', sync asciiPython "airalo" 60 ofEurope none noCatalogue = .ok s'
    ∧ inEurope slovenian ∈ offersOf asciiPython [europe]
      ∧ "si-1" ∈ (inEurope slovenian).ids asciiPython
    ∧ ((offersOf asciiPython [europe]).flatMap (Offer.ids asciiPython)).count "si-1" = 1
    ∧ ∃ p ∈ s'.packages, p.externalId = "si-1"
      ∧ ¬ RecordsCoverage asciiPython PyText.lower s' p slovenian := by
  obtain ⟨s', hsync, hstored⟩ := europe_synced
  obtain ⟨p, hp, hid, hcodes⟩ := hstored "si-1" (by decide)
  have honce : ((offersOf asciiPython [europe]).flatMap (Offer.ids asciiPython)).count "si-1"
      = 1 := by
    rw [europe_ids]
    decide
  refine ⟨s', hsync, List.mem_cons_of_mem _ List.mem_cons_self, by decide, honce, p, hp, hid, ?_⟩
  intro ⟨snapshot, hread, hall⟩
  obtain ⟨c, hc, hcode, _⟩ := hall "SI" lists_slovenia
  rw [hread] at hcodes
  have hcodes : snapshot.coverageSnapshot.map (·.countryCode) = ["HR"] := Option.some.inj hcodes
  have hmem : c.countryCode ∈ snapshot.coverageSnapshot.map (·.countryCode) :=
    List.mem_map.2 ⟨c, hc, rfl⟩
  rw [hcodes, hcode] at hmem
  exact absurd hmem (by decide)

end Roamkit.Catalog.Proof
