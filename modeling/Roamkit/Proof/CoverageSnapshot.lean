import Roamkit.Catalog.ProductSnapshot

/-!
# What a coverage snapshot says

Any JSON a column gives back is normalised to the countries of the entries with a
two-letter code: one for each code, in the order of the codes, with the first name
that is not blank and the operators of all entries of the code. What an entry says is
read here without the loop: its code, its name and the names of its networks.
-/

namespace Roamkit.Catalog.Proof

open Lib Airalo

/-- A value of a JSON column: what is read back holds no integer that is too long to write. -/
abbrev StoredJson := { j : Json // j.Writable }

/-! ## What an entry says -/

/-- The elements of a list; other values have none. -/
def itemsOf : Json → List Json
  | .list xs => xs
  | _ => []

/-- What `str` writes of a value that a column holds. -/
def shown (py : Python) (j : Json) : String := (j.toStr py.writer).getD ""

/-- The trimmed text of a value; one that is null, false, zero or empty is spelled as nothing. -/
def spelled (py : Python) (j : Json) : String := if j.truthy then PyText.strip (shown py j) else ""

/-- A field of an entry, or another one where the first is null. -/
def fieldOf (entry : Json) (key other : String) : Json :=
  match entry.get key with
  | .null => entry.get other
  | value => value

/-- A text, unless it is blank. -/
def unlessBlank (s : String) : Option String := if s = "" then none else some s

/-- Two letters A-Z and nothing else. -/
def TwoLetters (code : String) : Prop :=
  ∃ a b : Char, code.toList = [a, b] ∧ a ∈ Set.Icc 'A' 'Z' ∧ b ∈ Set.Icc 'A' 'Z'

theorem twoLetters_iff {code : String} : isCountryCode code = true ↔ TwoLetters code := by
  unfold isCountryCode TwoLetters
  rw [Bool.and_eq_true, List.all_eq_true, decide_eq_true_eq, ← String.length_toList,
    List.length_eq_two]
  constructor
  · intro ⟨⟨a, b, hlist⟩, hall⟩
    rw [hlist] at hall
    refine ⟨a, b, hlist, ?_, ?_⟩
    · simpa using hall a List.mem_cons_self
    · simpa using hall b (List.mem_cons_of_mem _ List.mem_cons_self)
  · intro ⟨a, b, hlist, ha, hb⟩
    refine ⟨⟨a, b, hlist⟩, ?_⟩
    intro c hc
    rw [hlist, List.mem_cons, List.mem_singleton] at hc
    rcases hc with rfl | rfl
    · simpa using ha
    · simpa using hb

instance (code : String) : Decidable (TwoLetters code) := decidable_of_iff _ twoLetters_iff

/-- The code of an entry: an object whose trimmed and upper-cased code is two letters A-Z. -/
def codeOf (py : Python) (entry : Json) : Option String :=
  let code := py.upper (spelled py (fieldOf entry "code" "country_code"))
  if entry.isDict ∧ TwoLetters code then some code else none

/-- The name of an entry, unless it is null or blank. -/
def nameOf (py : Python) (entry : Json) : Option String :=
  match fieldOf entry "name" "country_name" with
  | .null => none
  | name => unlessBlank (PyText.strip (shown py name))

/-- The name of an operator, an object or a text, unless it is blank. -/
def operatorName (py : Python) : Json → Option String
  | .dict kvs => unlessBlank (spelled py ((Json.dict kvs).get "name"))
  | .str s => unlessBlank (PyText.strip s)
  | _ => none

/-- The operators an entry lists. -/
def operatorsOfEntry (py : Python) (entry : Json) : List String :=
  (itemsOf (entry.get "networks")).filterMap (operatorName py)

/-- The entries of a code, in their order. -/
def entriesOfCode (py : Python) (entries : List Json) (code : String) : List Json :=
  entries.filter (codeOf py · = some code)

/-- The operators of all entries of a code. -/
def operatorsOfCode (py : Python) (entries : List Json) (code : String) : List String :=
  (entriesOfCode py entries code).flatMap (operatorsOfEntry py)

section Reading

variable {py : Python} {casefold : String → String} {entry : Json}

theorem text_shown {j : Json} (h : j.Writable) : text py.writer j = .ok (shown py j) := by
  obtain ⟨s, hs⟩ := h.toStr py.writer
  unfold text shown
  rw [hs]
  rfl

/-- The text of a value or an empty one, trimmed, is how the value is spelled. -/
theorem text_spelled (py : Python) {j : Json} (h : j.Writable) :
    ∃ s, text py.writer (j.orElse (.str "")) = .ok s ∧ PyText.strip s = spelled py j := by
  refine ⟨shown py (j.orElse (.str "")), text_shown (h.orElse ""), ?_⟩
  unfold spelled Json.orElse
  by_cases htruthy : j.truthy = true
  · rw [if_pos htruthy, if_pos htruthy]
  · rw [if_neg htruthy, if_neg htruthy]
    rfl

theorem spelled_str (s : String) : spelled py (.str s) = PyText.strip s := by
  unfold spelled
  by_cases h : s = ""
  · rw [h]
    rfl
  · rw [if_pos (show (Json.str s).truthy = true by simpa [Json.truthy] using h)]
    rfl

theorem getOr_eq (entry : Json) (key other : String) :
    getOr entry key other = fieldOf entry key other := by
  unfold getOr fieldOf
  cases entry.get key <;> rfl

theorem fieldOf_writable (h : entry.Writable) (key other : String) :
    (fieldOf entry key other).Writable := by
  unfold fieldOf
  split
  · exact h.get other
  · exact h.get key

theorem entryCode_ok (py : Python) (h : entry.Writable) :
    entryCode py entry = .ok (py.upper (spelled py (fieldOf entry "code" "country_code"))) := by
  obtain ⟨s, hs, hspelled⟩ := text_spelled py (fieldOf_writable h "code" "country_code")
  unfold entryCode
  rw [getOr_eq, hs, ← hspelled]
  rfl

theorem entryName_ok (h : entry.Writable) : entryName py entry = .ok (nameOf py entry) := by
  have hfield := fieldOf_writable h "name" "country_name"
  unfold entryName nameOf
  dsimp only
  rw [getOr_eq, text_shown hfield]
  cases fieldOf entry "name" "country_name" <;> rfl

theorem networkName_ok (py : Python) {net : Json} (h : net.Writable) :
    ∃ name, networkName py net = .ok name ∧ operatorName py net = unlessBlank name := by
  cases net with
  | dict kvs =>
    obtain ⟨s, hs, hspelled⟩ := text_spelled py (h.get "name")
    refine ⟨PyText.strip s, ?_, ?_⟩
    · unfold networkName strippedOr textOr
      dsimp only
      rw [hs]
      rfl
    · unfold operatorName
      rw [hspelled]
  | str s => exact ⟨PyText.strip s, rfl, rfl⟩
  | _ => exact ⟨"", rfl, rfl⟩

theorem networkNames_ok {nets : List Json} (h : ∀ net ∈ nets, net.Writable) :
    networkNames py nets = .ok (nets.filterMap (operatorName py)) := by
  induction nets with
  | nil => rfl
  | cons net nets ih =>
    obtain ⟨name, hname, hread⟩ := networkName_ok py (h net List.mem_cons_self)
    have hrest := ih fun n hn => h n (List.mem_cons_of_mem _ hn)
    unfold unlessBlank at hread
    unfold networkNames
    rw [hname, hrest]
    by_cases hblank : name = ""
    · rw [if_pos hblank] at hread
      rw [List.filterMap_cons_none hread]
      show Except.ok _ = _
      rw [if_pos hblank]
    · rw [if_neg hblank] at hread
      rw [List.filterMap_cons_some hread]
      show Except.ok _ = _
      rw [if_neg hblank]

theorem normalizeOperators_ok (h : entry.Writable) :
    normalizeOperators py casefold (entry.get "networks")
      = .ok (sortFirsts casefold (operatorsOfEntry py entry)) := by
  have hnets := h.get "networks"
  unfold operatorsOfEntry normalizeOperators
  split
  · rename_i nets hlist
    rw [hlist] at hnets ⊢
    rw [networkNames_ok fun net hnet => hnets.item hnet]
    rfl
  · rename_i hlist
    have hnone : itemsOf (entry.get "networks") = [] := by
      unfold itemsOf
      split
      · rename_i xs hxs
        exact absurd hxs (hlist xs)
      · rfl
    rw [hnone]
    rfl

end Reading

/-! ## A dictionary with one more value -/

section MergeUnder

variable {β : Type} {key k : String} {new x : β} {change : β → β} {kvs : List (String × β)}

/-- A key that is not there comes last. -/
theorem mergeUnder_fresh (h : key ∉ kvs.map Prod.fst) :
    mergeUnder key new change kvs = kvs ++ [(key, new)] := by
  induction kvs with
  | nil => rfl
  | cons kv kvs ih =>
    rw [List.map_cons, List.mem_cons, not_or] at h
    unfold mergeUnder
    rw [if_neg fun hc => h.1 hc.symm, ih h.2]
    rfl

/-- A key that is there stays where it is. -/
theorem keys_mergeUnder (h : key ∈ kvs.map Prod.fst) :
    (mergeUnder key new change kvs).map Prod.fst = kvs.map Prod.fst := by
  induction kvs with
  | nil => exact absurd h List.not_mem_nil
  | cons kv kvs ih =>
    unfold mergeUnder
    by_cases hkey : kv.1 = key
    · rw [if_pos hkey]
      rfl
    · rw [if_neg hkey, List.map_cons, List.map_cons]
      rw [List.map_cons, List.mem_cons] at h
      rw [ih (h.resolve_left fun hc => hkey hc.symm)]

/-- The value of the key is changed, and no other. -/
theorem mem_mergeUnder (hnodup : (kvs.map Prod.fst).Nodup) (h : key ∈ kvs.map Prod.fst) :
    (k, x) ∈ mergeUnder key new change kvs
      ↔ (k ≠ key ∧ (k, x) ∈ kvs) ∨ (k = key ∧ ∃ y, (key, y) ∈ kvs ∧ x = change y) := by
  induction kvs with
  | nil => exact absurd h List.not_mem_nil
  | cons kv kvs ih =>
    obtain ⟨key', y'⟩ := kv
    rw [List.map_cons, List.nodup_cons] at hnodup
    unfold mergeUnder
    by_cases hkey : key' = key
    · subst hkey
      have hother : ∀ z, (key', z) ∉ kvs := fun z hz => hnodup.1 (List.mem_map.2 ⟨_, hz, rfl⟩)
      rw [if_pos rfl, List.mem_cons, List.mem_cons, Prod.mk.injEq, Prod.mk.injEq]
      constructor
      · intro hmem
        rcases hmem with ⟨rfl, rfl⟩ | hmem
        · exact .inr ⟨rfl, y', List.mem_cons_self, rfl⟩
        · have hne : k ≠ key' := fun hc => hother x (hc ▸ hmem)
          exact .inl ⟨hne, .inr hmem⟩
      · intro hcases
        rcases hcases with ⟨hne, ⟨rfl, _⟩ | hmem⟩ | ⟨rfl, y, hy, rfl⟩
        · exact absurd rfl hne
        · exact .inr hmem
        · rcases List.mem_cons.1 hy with hsame | hmem
          · cases hsame
            exact .inl ⟨rfl, rfl⟩
          · exact absurd hmem (hother y)
    · rw [List.map_cons, List.mem_cons] at h
      have hlater := ih hnodup.2 (h.resolve_left fun hc => hkey hc.symm)
      rw [if_neg hkey, List.mem_cons, List.mem_cons, hlater, Prod.mk.injEq]
      constructor
      · intro hcases
        rcases hcases with ⟨rfl, rfl⟩ | ⟨hne, hmem⟩ | ⟨rfl, y, hy, rfl⟩
        · exact .inl ⟨hkey, .inl ⟨rfl, rfl⟩⟩
        · exact .inl ⟨hne, .inr hmem⟩
        · exact .inr ⟨rfl, y, List.mem_cons_of_mem _ hy, rfl⟩
      · intro hcases
        rcases hcases with ⟨hne, hsame | hmem⟩ | ⟨rfl, y, hy, rfl⟩
        · exact .inl hsame
        · exact .inr (.inl ⟨hne, hmem⟩)
        · rcases List.mem_cons.1 hy with hsame | hmem
          · cases hsame
            exact absurd rfl hkey
          · exact .inr (.inr ⟨rfl, y, hmem, rfl⟩)

end MergeUnder

/-! ## The countries of a snapshot -/

/-- What a country of a snapshot says of all entries of its code. -/
structure Describes (py : Python) (casefold : String → String) (entries : List Json) (code : String)
    (country : CountryCoverage) : Prop where
  ofCode : country.countryCode = code
  /-- The first name that is not blank. -/
  name : country.countryName = (entriesOfCode py entries code).findSome? (nameOf py)
  /-- Sorted by the case-folded name, no two of which are the same. -/
  rises : Rises casefold country.operators
  /-- The operators are among those the entries list, -/
  listed : ∀ name ∈ country.operators, name ∈ operatorsOfCode py entries code
  /-- and each of these is there, up to case folding. -/
  folds : ∀ fold, fold ∈ country.operators.map casefold
    ↔ fold ∈ (operatorsOfCode py entries code).map casefold

/-- What `by_code` holds after some of the entries. -/
structure ByCode (py : Python) (casefold : String → String) (entries : List Json)
    (byCode : List (String × CountryCoverage)) : Prop where
  nodup : (byCode.map Prod.fst).Nodup
  codes : ∀ code, code ∈ byCode.map Prod.fst ↔ ∃ entry ∈ entries, codeOf py entry = some code
  describes : ∀ code country, (code, country) ∈ byCode → Describes py casefold entries code country

section Loop

variable {py : Python} {casefold : String → String} {entries : List Json} {entry : Json}
  {code : String} {country : CountryCoverage} {byCode : List (String × CountryCoverage)}

theorem entriesOfCode_same (h : codeOf py entry = some code) :
    entriesOfCode py (entries ++ [entry]) code = entriesOfCode py entries code ++ [entry] := by
  unfold entriesOfCode
  rw [List.filter_append, List.filter_cons_of_pos (by simpa using h), List.filter_nil]

theorem entriesOfCode_other (h : codeOf py entry ≠ some code) :
    entriesOfCode py (entries ++ [entry]) code = entriesOfCode py entries code := by
  unfold entriesOfCode
  rw [List.filter_append, List.filter_cons_of_neg (by simpa using h), List.filter_nil,
    List.append_nil]

theorem entriesOfCode_nil (h : ¬ ∃ entry ∈ entries, codeOf py entry = some code) :
    entriesOfCode py entries code = [] := by
  unfold entriesOfCode
  rw [List.filter_eq_nil_iff]
  intro e he hcode
  exact h ⟨e, he, by simpa using hcode⟩

/-- An entry of another code changes nothing. -/
theorem Describes.other (h : Describes py casefold entries code country)
    (hother : codeOf py entry ≠ some code) :
    Describes py casefold (entries ++ [entry]) code country := by
  have hsame : entriesOfCode py (entries ++ [entry]) code = entriesOfCode py entries code :=
    entriesOfCode_other hother
  have hoperators : operatorsOfCode py (entries ++ [entry]) code
      = operatorsOfCode py entries code := by
    unfold operatorsOfCode
    rw [hsame]
  refine ⟨h.ofCode, ?_, h.rises, ?_, ?_⟩
  · rw [hsame]
    exact h.name
  · rw [hoperators]
    exact h.listed
  · rw [hoperators]
    exact h.folds

/-- The first entry of a code. -/
theorem describes_first (hnone : ¬ ∃ entry ∈ entries, codeOf py entry = some code)
    (hcode : codeOf py entry = some code) :
    Describes py casefold (entries ++ [entry]) code
      ⟨code, nameOf py entry, sortFirsts casefold (operatorsOfEntry py entry)⟩ := by
  have hentries : entriesOfCode py (entries ++ [entry]) code = [entry] := by
    rw [entriesOfCode_same hcode, entriesOfCode_nil hnone]
    rfl
  have hoperators : operatorsOfCode py (entries ++ [entry]) code = operatorsOfEntry py entry := by
    unfold operatorsOfCode
    rw [hentries, List.flatMap_cons, List.flatMap_nil, List.append_nil]
  refine ⟨rfl, ?_, sortFirsts_rises _ _, ?_, ?_⟩
  · rw [hentries, List.findSome?_cons]
    cases nameOf py entry <;> rfl
  · intro name hname
    rw [hoperators]
    exact mem_of_mem_sortFirsts hname
  · intro fold
    rw [hoperators]
    exact mem_keys_sortFirsts casefold _ fold

/-- A later entry of a code. -/
theorem Describes.merge (h : Describes py casefold entries code country)
    (hcode : codeOf py entry = some code) :
    Describes py casefold (entries ++ [entry]) code
      (country.merge casefold (nameOf py entry)
        (sortFirsts casefold (operatorsOfEntry py entry))) := by
  have hentries : entriesOfCode py (entries ++ [entry]) code
      = entriesOfCode py entries code ++ [entry] :=
    entriesOfCode_same hcode
  have hoperators : operatorsOfCode py (entries ++ [entry]) code
      = operatorsOfCode py entries code ++ operatorsOfEntry py entry := by
    unfold operatorsOfCode
    rw [hentries, List.flatMap_append, List.flatMap_cons, List.flatMap_nil, List.append_nil]
  refine ⟨h.ofCode, ?_, sortFirsts_rises _ _, ?_, ?_⟩
  · rw [hentries, List.findSome?_append, ← h.name, List.findSome?_cons]
    cases nameOf py entry <;> rfl
  · intro name hname
    have hmem := mem_of_mem_sortFirsts hname
    rw [hoperators, List.mem_append]
    rcases List.mem_append.1 hmem with hold | hnew
    · exact .inl (h.listed name hold)
    · exact .inr (mem_of_mem_sortFirsts hnew)
  · intro fold
    have hmerged := mem_keys_sortFirsts casefold
      (country.operators ++ sortFirsts casefold (operatorsOfEntry py entry)) fold
    have hnew := mem_keys_sortFirsts casefold (operatorsOfEntry py entry) fold
    rw [List.map_append, List.mem_append, hnew, h.folds fold] at hmerged
    rw [hoperators, List.map_append, List.mem_append]
    exact hmerged

theorem codes_append (hcodes : ∀ k, k ∈ byCode.map Prod.fst ↔ ∃ e ∈ entries, codeOf py e = some k)
    (k : String) :
    (∃ e ∈ entries ++ [entry], codeOf py e = some k)
      ↔ k ∈ byCode.map Prod.fst ∨ codeOf py entry = some k := by
  rw [hcodes]
  constructor
  · intro ⟨e, he, hk⟩
    rcases List.mem_append.1 he with hold | hnew
    · exact .inl ⟨e, hold, hk⟩
    · rw [List.mem_singleton.1 hnew] at hk
      exact .inr hk
  · intro hcases
    rcases hcases with ⟨e, he, hk⟩ | hk
    · exact ⟨e, List.mem_append_left _ he, hk⟩
    · exact ⟨entry, List.mem_append_right _ List.mem_cons_self, hk⟩

/-- An entry without a code is passed over. -/
theorem ByCode.skip (h : ByCode py casefold entries byCode) (hnone : codeOf py entry = none) :
    ByCode py casefold (entries ++ [entry]) byCode := by
  have hne : ∀ k, codeOf py entry ≠ some k := by
    intro k hk
    rw [hnone] at hk
    cases hk
  refine ⟨h.nodup, ?_, ?_⟩
  · intro k
    rw [codes_append h.codes]
    constructor
    · exact .inl
    · intro hcases
      exact hcases.resolve_right (hne k)
  · intro k c hmem
    exact (h.describes k c hmem).other (hne k)

/-- An entry of a code is written under its code. -/
theorem ByCode.write (h : ByCode py casefold entries byCode) (hcode : codeOf py entry = some code) :
    ByCode py casefold (entries ++ [entry])
      (mergeUnder code ⟨code, nameOf py entry, sortFirsts casefold (operatorsOfEntry py entry)⟩
        (·.merge casefold (nameOf py entry) (sortFirsts casefold (operatorsOfEntry py entry)))
          byCode) := by
  have hother : ∀ {k : String}, k ≠ code → codeOf py entry ≠ some k := by
    intro k hne hk
    rw [hcode] at hk
    exact hne (Option.some.inj hk).symm
  by_cases hthere : code ∈ byCode.map Prod.fst
  · refine ⟨?_, ?_, ?_⟩
    · rw [keys_mergeUnder hthere]
      exact h.nodup
    · intro k
      rw [keys_mergeUnder hthere, codes_append h.codes]
      constructor
      · exact .inl
      · intro hcases
        rcases hcases with hold | hnew
        · exact hold
        · rw [hcode] at hnew
          exact Option.some.inj hnew ▸ hthere
    · intro k c hmem
      rcases (mem_mergeUnder h.nodup hthere).1 hmem with ⟨hne, hold⟩ | ⟨rfl, existing, hold, rfl⟩
      · exact (h.describes k c hold).other (hother hne)
      · exact (h.describes k existing hold).merge hcode
  · have hnone : ¬ ∃ e ∈ entries, codeOf py e = some code := fun hc => hthere ((h.codes code).2 hc)
    rw [mergeUnder_fresh hthere]
    refine ⟨?_, ?_, ?_⟩
    · rw [List.map_append, List.nodup_append]
      refine ⟨h.nodup, List.nodup_singleton _, ?_⟩
      intro k hk k' hk' hsame
      rw [hsame, List.mem_singleton.1 hk'] at hk
      exact hthere hk
    · intro k
      rw [List.map_append, List.mem_append, codes_append h.codes, hcode]
      have hlast : k ∈ [code] ↔ some code = some k := by
        rw [List.mem_singleton, Option.some.injEq]
        exact eq_comm
      exact or_congr Iff.rfl hlast
    · intro k c hmem
      rcases List.mem_append.1 hmem with hold | hnew
      · have hne : k ≠ code := fun hc => hthere (List.mem_map.2 ⟨_, hold, hc⟩)
        exact (h.describes k c hold).other (hother hne)
      · cases List.mem_singleton.1 hnew
        exact describes_first hnone hcode

/-- What the loop reads of an entry decides whether it has a code. -/
theorem codeOf_dict (hentry : entry.Writable) (hdict : entry.isDict)
    (hread : entryCode py entry = .ok code) :
    codeOf py entry = if isCountryCode code then some code else none := by
  rw [entryCode_ok py hentry] at hread
  obtain rfl := Except.ok.inj hread
  unfold codeOf
  simp only [hdict, true_and, ← twoLetters_iff]

theorem codeOf_valid (h : codeOf py entry = some code) : TwoLetters code := by
  unfold codeOf at h
  dsimp only at h
  split at h
  · rename_i hcode
    obtain rfl := Option.some.inj h
    exact hcode.2
  · cases h

/-- An entry without a code changes nothing. -/
theorem recordEntry_none (hentry : entry.Writable) (hnone : codeOf py entry = none) :
    recordEntry py casefold byCode entry = .ok byCode := by
  unfold recordEntry
  by_cases hdict : entry.isDict
  · obtain ⟨code, hread⟩ : ∃ code, entryCode py entry = .ok code := ⟨_, entryCode_ok py hentry⟩
    rw [codeOf_dict hentry hdict hread] at hnone
    have hvalid : ¬ isCountryCode code := by
      intro hvalid
      rw [if_pos hvalid] at hnone
      cases hnone
    rw [if_neg (not_not_intro hdict), hread]
    show (if _ then _ else _) = _
    rw [if_pos hvalid]
    rfl
  · rw [if_pos hdict]

/-- An entry of a code is recorded under it. -/
theorem recordEntry_code (hentry : entry.Writable) (hcode : codeOf py entry = some code) :
    recordEntry py casefold byCode entry
      = .ok
        (mergeUnder code ⟨code, nameOf py entry, sortFirsts casefold (operatorsOfEntry py entry)⟩
          (·.merge casefold (nameOf py entry) (sortFirsts casefold (operatorsOfEntry py entry)))
            byCode) := by
  have hdict : entry.isDict := by
    unfold codeOf at hcode
    by_contra hdict
    simp [hdict] at hcode
  obtain ⟨read, hread⟩ : ∃ read, entryCode py entry = .ok read := ⟨_, entryCode_ok py hentry⟩
  rw [codeOf_dict hentry hdict hread] at hcode
  obtain ⟨hvalid, rfl⟩ : isCountryCode read ∧ read = code := by
    by_cases hvalid : isCountryCode read <;> simp_all
  unfold recordEntry
  rw [if_neg (not_not_intro hdict), hread, entryName_ok hentry, normalizeOperators_ok hentry]
  show (if _ then _ else _) = _
  rw [if_neg (not_not_intro hvalid)]
  rfl

/-- **One more entry.** -/
theorem recordEntry_ok (h : ByCode py casefold entries byCode) (hentry : entry.Writable) :
    ∃ byCode', recordEntry py casefold byCode entry = .ok byCode'
      ∧ ByCode py casefold (entries ++ [entry]) byCode' := by
  cases hcode : codeOf py entry with
  | none => exact ⟨byCode, recordEntry_none hentry hcode, h.skip hcode⟩
  | some code => exact ⟨_, recordEntry_code hentry hcode, h.write hcode⟩

theorem recordEntries_ok {rest : List Json} (h : ByCode py casefold entries byCode)
    (hrest : ∀ e ∈ rest, e.Writable) :
    ∃ byCode', recordEntries py casefold byCode rest = .ok byCode'
      ∧ ByCode py casefold (entries ++ rest) byCode' := by
  induction rest generalizing entries byCode with
  | nil => exact ⟨byCode, rfl, by rw [List.append_nil]; exact h⟩
  | cons entry rest ih =>
    obtain ⟨byCode₁, hstep, hnext⟩ := recordEntry_ok h (hrest entry List.mem_cons_self)
    obtain ⟨byCode₂, hrun, hdone⟩ := ih hnext fun e he => hrest e (List.mem_cons_of_mem _ he)
    rw [List.append_assoc] at hdone
    refine ⟨byCode₂, ?_, hdone⟩
    unfold recordEntries
    rw [hstep]
    exact hrun

/-- Without the entries that have no code the loop ends with the same. -/
theorem recordEntries_filter {rest : List Json} (hrest : ∀ e ∈ rest, e.Writable) :
    recordEntries py casefold byCode (rest.filter fun e => (codeOf py e).isSome)
      = recordEntries py casefold byCode rest := by
  induction rest generalizing byCode with
  | nil => rfl
  | cons entry rest ih =>
    have hlater : ∀ e ∈ rest, e.Writable := fun e he => hrest e (List.mem_cons_of_mem _ he)
    cases hcode : codeOf py entry with
    | none =>
      rw [List.filter_cons_of_neg (by simp [hcode]), ih hlater]
      conv_rhs => unfold recordEntries
      rw [recordEntry_none (hrest entry List.mem_cons_self) hcode]
      rfl
    | some code =>
      rw [List.filter_cons_of_pos (by simp [hcode])]
      unfold recordEntries
      cases recordEntry py casefold byCode entry with
      | error e => rfl
      | ok byCode' => exact ih hlater

end Loop

/-! ## The snapshot -/

/-- What a snapshot says of the entries it is made of. -/
structure IsSnapshot (py : Python) (casefold : String → String) (entries : List Json)
    (out : List CountryCoverage) :
    Prop where
  /-- Every code is two letters A-Z, -/
  valid : ∀ c ∈ out, TwoLetters c.countryCode
  /-- and greater than the one before it. -/
  sorted : out.Pairwise fun a b => a.countryCode < b.countryCode
  /-- The case-folded names of the operators strictly increase, so none is there twice. -/
  operators : ∀ c ∈ out, c.operators.Pairwise fun a b => casefold a < casefold b
  /-- The codes are those of the entries that have one. -/
  codes : ∀ code, code ∈ out.map CountryCoverage.countryCode
    ↔ ∃ entry ∈ entries, codeOf py entry = some code
  /-- A country has the operators of all its entries up to case folding, -/
  union : ∀ c ∈ out, ∀ fold, fold ∈ c.operators.map casefold ↔
    ∃ entry ∈ entries, codeOf py entry = some c.countryCode
      ∧ fold ∈ (operatorsOfEntry py entry).map casefold
  /-- each spelled as one of them spells it, -/
  listed : ∀ c ∈ out, ∀ name ∈ c.operators,
    ∃ entry ∈ entries, codeOf py entry = some c.countryCode ∧ name ∈ operatorsOfEntry py entry
  /-- and the first of their names that is not blank. -/
  name : ∀ c ∈ out, c.countryName = (entriesOfCode py entries c.countryCode).findSome? (nameOf py)

section Snapshot

variable {py : Python} {casefold : String → String} {entries : List Json} {entry : Json}
  {code name : String} {byCode : List (String × CountryCoverage)} {out : List CountryCoverage}

theorem mem_operatorsOfCode : name ∈ operatorsOfCode py entries code
    ↔ ∃ entry ∈ entries, codeOf py entry = some code ∧ name ∈ operatorsOfEntry py entry := by
  unfold operatorsOfCode entriesOfCode
  simp only [List.mem_flatMap, List.mem_filter, decide_eq_true_eq, and_assoc]

theorem ByCode.isSnapshot (h : ByCode py casefold entries byCode) :
    IsSnapshot py casefold entries (sortedByCode byCode) := by
  have hperm := List.perm_insertionSort (fun a b : String × CountryCoverage => a.1 ≤ b.1) byCode
  have hrises : Rises Prod.fst (byCode.insertionSort fun a b => a.1 ≤ b.1) :=
    rises_insertionSort h.nodup
  have hmem : ∀ {c : CountryCoverage}, c ∈ sortedByCode byCode → (c.countryCode, c) ∈ byCode := by
    intro c hc
    obtain ⟨⟨code, country⟩, hkv, rfl⟩ := List.mem_map.1 hc
    have hin := hperm.mem_iff.1 hkv
    rw [(h.describes code country hin).ofCode]
    exact hin
  have hdescribes : ∀ {c : CountryCoverage}, c ∈ sortedByCode byCode
      → Describes py casefold entries c.countryCode c :=
    fun hc => h.describes _ _ (hmem hc)
  refine ⟨?_, ?_, fun c hc => (hdescribes hc).rises, ?_, ?_, ?_, fun c hc => (hdescribes hc).name⟩
  · intro c hc
    have hcode := (h.codes c.countryCode).1 (List.mem_map.2 ⟨_, hmem hc, rfl⟩)
    obtain ⟨entry, _, hread⟩ := hcode
    exact codeOf_valid hread
  · unfold sortedByCode
    rw [List.pairwise_map]
    refine hrises.imp_of_mem ?_
    intro a b ha hb hlt
    rw [(h.describes a.1 a.2 (hperm.mem_iff.1 ha)).ofCode,
      (h.describes b.1 b.2 (hperm.mem_iff.1 hb)).ofCode]
    exact hlt
  · intro code
    rw [← h.codes code]
    constructor
    · intro hcode
      obtain ⟨c, hc, rfl⟩ := List.mem_map.1 hcode
      exact List.mem_map.2 ⟨_, hmem hc, rfl⟩
    · intro hcode
      obtain ⟨⟨k, c⟩, hkv, rfl⟩ := List.mem_map.1 hcode
      have hsorted : c ∈ sortedByCode byCode := List.mem_map.2 ⟨_, hperm.mem_iff.2 hkv, rfl⟩
      exact List.mem_map.2 ⟨c, hsorted, (h.describes k c hkv).ofCode⟩
  · intro c hc fold
    rw [(hdescribes hc).folds fold]
    constructor
    · intro hfold
      obtain ⟨name, hname, rfl⟩ := List.mem_map.1 hfold
      obtain ⟨entry, hentry, hcode, hlisted⟩ := mem_operatorsOfCode.1 hname
      exact ⟨entry, hentry, hcode, List.mem_map.2 ⟨name, hlisted, rfl⟩⟩
    · intro ⟨entry, hentry, hcode, hfold⟩
      obtain ⟨name, hname, rfl⟩ := List.mem_map.1 hfold
      exact List.mem_map.2 ⟨name, mem_operatorsOfCode.2 ⟨entry, hentry, hcode, hname⟩, rfl⟩
  · intro c hc name hname
    exact mem_operatorsOfCode.1 ((hdescribes hc).listed name hname)

/-- Every stored value is normalised. -/
theorem normalizeCoverageSnapshot_ok (py : Python) (casefold : String → String) (raw : StoredJson) :
    ∃ out, normalizeCoverageSnapshot py casefold raw.1 = .ok out
      ∧ IsSnapshot py casefold (itemsOf raw.1) out := by
  have hinit : ByCode py casefold [] [] := by
    refine ⟨List.nodup_nil, ?_, fun k c hmem => absurd hmem List.not_mem_nil⟩
    intro k
    simp
  obtain ⟨raw, hraw⟩ := raw
  cases raw with
  | list entries =>
    obtain ⟨byCode, hrun, hdone⟩ := recordEntries_ok hinit fun e he => hraw.item he
    rw [List.nil_append] at hdone
    refine ⟨sortedByCode byCode, ?_, hdone.isSnapshot⟩
    unfold normalizeCoverageSnapshot
    dsimp only
    rw [hrun]
    rfl
  | null => exact ⟨_, rfl, hinit.isSnapshot⟩
  | bool b => exact ⟨_, rfl, hinit.isSnapshot⟩
  | int n => exact ⟨_, rfl, hinit.isSnapshot⟩
  | float x => exact ⟨_, rfl, hinit.isSnapshot⟩
  | str s => exact ⟨_, rfl, hinit.isSnapshot⟩
  | dict kvs => exact ⟨_, rfl, hinit.isSnapshot⟩

/-- Snapshots of the same entries in another order have the same codes, -/
theorem IsSnapshot.codes_perm {entries' : List Json} {out' : List CountryCoverage}
    (h : IsSnapshot py casefold entries out) (h' : IsSnapshot py casefold entries' out')
    (hperm : entries'.Perm entries) :
    out'.map CountryCoverage.countryCode = out.map CountryCoverage.countryCode := by
  have hrises : Rises CountryCoverage.countryCode out := h.sorted
  have hrises' : Rises CountryCoverage.countryCode out' := h'.sorted
  refine hrises'.keys_eq hrises ?_
  intro code
  rw [h'.codes, h.codes]
  constructor
  · intro ⟨entry, hentry, hcode⟩
    exact ⟨entry, hperm.mem_iff.1 hentry, hcode⟩
  · intro ⟨entry, hentry, hcode⟩
    exact ⟨entry, hperm.mem_iff.2 hentry, hcode⟩

/-- and for each of them the same operators up to case folding. -/
theorem IsSnapshot.operators_perm {entries' : List Json} {out' : List CountryCoverage}
    (h : IsSnapshot py casefold entries out) (h' : IsSnapshot py casefold entries' out')
    (hperm : entries'.Perm entries) {c c' : CountryCoverage} (hc : c ∈ out) (hc' : c' ∈ out')
    (hsame : c'.countryCode = c.countryCode) :
    c'.operators.map casefold = c.operators.map casefold := by
  have hrises : Rises casefold c.operators := h.operators c hc
  have hrises' : Rises casefold c'.operators := h'.operators c' hc'
  refine hrises'.keys_eq hrises ?_
  intro fold
  rw [h'.union c' hc', h.union c hc, hsame]
  constructor
  · intro ⟨entry, hentry, hcode⟩
    exact ⟨entry, hperm.mem_iff.1 hentry, hcode⟩
  · intro ⟨entry, hentry, hcode⟩
    exact ⟨entry, hperm.mem_iff.2 hentry, hcode⟩

/--
**Whatever JSON a column holds, its snapshot lists each country once, with what all entries of it
say.**

The entries that are no object, or whose code is not two letters, are dropped: without
them the snapshot is the same. The order of the entries decides neither the countries
nor, up to case folding, the operators of any of them.
-/
theorem coverage_snapshot_sound (py : Python) (casefold : String → String) (raw : StoredJson) :
    ∃ out, normalizeCoverageSnapshot py casefold raw.1 = .ok out
      ∧ IsSnapshot py casefold (itemsOf raw.1) out
      ∧ normalizeCoverageSnapshot py casefold
        (.list ((itemsOf raw.1).filter fun e => (codeOf py e).isSome)) = .ok out
      ∧ ∀ raw' : StoredJson, (itemsOf raw'.1).Perm (itemsOf raw.1) →
          ∃ out', normalizeCoverageSnapshot py casefold raw'.1 = .ok out'
            ∧ out'.map CountryCoverage.countryCode = out.map CountryCoverage.countryCode
            ∧ ∀ c ∈ out, ∀ c' ∈ out', c'.countryCode = c.countryCode →
                c'.operators.map casefold = c.operators.map casefold := by
  obtain ⟨out, hread, hout⟩ := normalizeCoverageSnapshot_ok py casefold raw
  refine ⟨out, hread, hout, ?_, ?_⟩
  · rw [← hread]
    obtain ⟨raw, hraw⟩ := raw
    cases raw with
    | list entries =>
      exact congrArg (sortedByCode <$> ·) (recordEntries_filter fun e he => hraw.item he)
    | _ => rfl
  · intro raw' hperm
    obtain ⟨out', hread', hout'⟩ := normalizeCoverageSnapshot_ok py casefold raw'
    exact ⟨out', hread', hout.codes_perm hout' hperm,
      fun c hc c' hc' hsame => hout.operators_perm hout' hperm hc hc' hsame⟩

end Snapshot

end Roamkit.Catalog.Proof
