import Roamkit.Proof.Catalog
import Roamkit.Proof.CoverageSnapshot

/-!
# What the provider makes of an operator's coverage

An operator lists countries, and networks in each. The mapping merges the entries of a
country and the networks of a name, and a snapshot is made of what comes out. On the way
the spelling of a network may give way to another in the other case, and nothing else of
a country with a two-letter code is lost or added.
-/

namespace Roamkit.Catalog.Proof

open Lib Airalo

/-- What is documented of Python's letters, as far as coverage goes. -/
structure Letters (py : Python) (casefold : String → String) : Prop where
  /-- A text in upper case is its own upper case. -/
  upper_upper : ∀ s, py.upper (PyText.strip (py.upper s)) = PyText.strip (py.upper s)
  upper_nil : py.upper "" = ""
  alpha : ∀ s, isCountryCode s = true → py.isAlpha s = true
  /-- A letter does not become white space, -/
  lower_strip : ∀ s, PyText.strip (py.lower (PyText.strip s)) = py.lower (PyText.strip s)
  /-- nor does it stay a capital one. -/
  lower_code : ∀ s, isCountryCode (py.lower s) = false
  /-- Case folding makes the same what `lower` makes the same. -/
  casefold_lower : ∀ a b, py.lower a = py.lower b → casefold a = casefold b

/-! ## What an operator lists -/

/-- The entries under `coverages`. -/
def coverageEntries (operator : Json) : List Json :=
  elements ((operator.get "coverages").orElse (.list []))

/-- The two-letter code of an entry. -/
def listedCode (py : Python) (entry : Json) : Option String :=
  if entry.isDict then
    ((textOr py.writer entry "code" "").toOption.map fun code =>
      PyText.strip (py.upper code)).filter (isCountryCode ·)
  else none

/-- The name of a network, unless it is blank. -/
def listedNetwork (py : Python) (net : Json) : Option String :=
  if net.isDict then (strippedOr py.writer net "name").toOption.filter (· ≠ "") else none

def listedNetworks (py : Python) (entry : Json) : List String :=
  (elements ((entry.get "networks").orElse (.list []))).filterMap (listedNetwork py)

/-- An operator lists a country, -/
def Lists (py : Python) (operator : Json) (code : String) : Prop :=
  ∃ entry ∈ coverageEntries operator, listedCode py entry = some code

/-- and a network in it. -/
def ListsNetwork (py : Python) (operator : Json) (code name : String) : Prop :=
  ∃ entry ∈ coverageEntries operator, listedCode py entry = some code
    ∧ name ∈ listedNetworks py entry

/-! ## Networks -/

/-- The networks have names, and these are trimmed. -/
def Clean (nets : List Network) : Prop :=
  ∀ net ∈ nets, PyText.strip net.name = net.name ∧ net.name ≠ ""

variable {raw : List Json} {nets : List Network}

section Networks

variable {py : Python} {casefold : String → String}

theorem listedNetwork_clean {net : Json} {name : String} (h : listedNetwork py net = some name) :
    PyText.strip name = name ∧ name ≠ "" := by
  unfold listedNetwork strippedOr at h
  split at h
  · rw [Option.filter_eq_some_iff] at h
    obtain ⟨hread, hne⟩ := h
    refine ⟨?_, by simpa using hne⟩
    cases htext : textOr py.writer net "name" "" with
    | error e =>
      rw [htext] at hread
      cases hread
    | ok s =>
      rw [htext] at hread
      cases hread
      exact PyText.strip_strip s
  · cases h

theorem listedNetwork_ok {net : Json} {name : String} (hdict : net.isDict = true)
    (hread : strippedOr py.writer net "name" = .ok name) :
    listedNetwork py net = if name = "" then none else some name := by
  unfold listedNetwork
  rw [if_pos hdict, hread]
  by_cases hblank : name = "" <;> simp [hblank, Except.toOption, Option.filter]

theorem readNetworks_names (h : readNetworks py raw = .ok nets) :
    nets.map Network.name = raw.filterMap (listedNetwork py) := by
  induction raw generalizing nets with
  | nil =>
    cases h
    rfl
  | cons net raw ih =>
    unfold readNetworks at h
    by_cases hdict : net.isDict = true
    · rw [if_neg (not_not_intro hdict)] at h
      obtain ⟨name, hname, h⟩ := bind_ok h
      have hlisted := listedNetwork_ok hdict hname
      by_cases hblank : name = ""
      · rw [if_pos hblank] at h hlisted
        rw [List.filterMap_cons_none hlisted]
        exact ih h
      · rw [if_neg hblank] at h hlisted
        obtain ⟨iterated, _, h⟩ := bind_ok h
        obtain ⟨types, _, h⟩ := bind_ok h
        obtain ⟨rest, hrest, h⟩ := bind_ok h
        cases h
        rw [List.filterMap_cons_some hlisted, List.map_cons, ih hrest]
    · rw [if_pos hdict] at h
      have hlisted : listedNetwork py net = none := by
        unfold listedNetwork
        rw [if_neg hdict]
      rw [List.filterMap_cons_none hlisted]
      exact ih h

theorem readNetworks_clean (h : readNetworks py raw = .ok nets) : Clean nets := by
  intro net hnet
  have hname : net.name ∈ nets.map Network.name := List.mem_map.2 ⟨net, hnet, rfl⟩
  rw [readNetworks_names h, List.mem_filterMap] at hname
  obtain ⟨j, _, hlisted⟩ := hname
  exact listedNetwork_clean hlisted

/-- One round of the merge. -/
def mergeNetwork (py : Python) (byName : List (String × Network)) (network : Network) :
    List (String × Network) :=
  let name := PyText.strip network.name
  if name = "" then byName
  else
    let types := (network.types.map PyText.strip).filter (· ≠ "")
    mergeUnder (py.lower name) ⟨name, types⟩
      (fun n => { n with types := addMissing n.types types }) byName

theorem mergeNetworks_eq (existing incoming : List Network) :
    mergeNetworks py existing incoming
      = ((existing ++ incoming).foldl (mergeNetwork py) []).map Prod.snd := rfl

/-- What `by_name` holds after some of the networks. -/
structure ByName (py : Python) (nets : List Network) (byName : List (String × Network)) : Prop where
  nodup : (byName.map Prod.fst).Nodup
  /-- A network has the name of one of them, -/
  names : ∀ key net, (key, net) ∈ byName → ∃ given ∈ nets, net.name = given.name
  /-- and under the lower case of each name there is one. -/
  keys : ∀ given ∈ nets, ∃ net, (py.lower given.name, net) ∈ byName
  lower : ∀ key net, (key, net) ∈ byName → key = py.lower net.name

theorem ByName.step {byName : List (String × Network)} {net : Network} (h : ByName py nets byName)
    (hclean : PyText.strip net.name = net.name ∧ net.name ≠ "") :
    ByName py (nets ++ [net]) (mergeNetwork py byName net) := by
  have hlast : net ∈ nets ++ [net] := List.mem_append_right _ List.mem_cons_self
  unfold mergeNetwork
  dsimp only
  rw [hclean.1, if_neg hclean.2]
  by_cases hthere : py.lower net.name ∈ byName.map Prod.fst
  · have hmem := fun k n => @mem_mergeUnder _ (py.lower net.name) k
      ⟨net.name, (net.types.map PyText.strip).filter (· ≠ "")⟩ n
      (fun n => { n with
        types := addMissing n.types ((net.types.map PyText.strip).filter (· ≠ "")) }) byName
      h.nodup hthere
    refine ⟨?_, ?_, ?_, ?_⟩
    · rw [keys_mergeUnder hthere]
      exact h.nodup
    · intro key n hin
      rcases (hmem key n).1 hin with ⟨_, hold⟩ | ⟨rfl, m, hold, rfl⟩
      · obtain ⟨given, hgiven, hname⟩ := h.names key n hold
        exact ⟨given, List.mem_append_left _ hgiven, hname⟩
      · obtain ⟨given, hgiven, hname⟩ := h.names _ m hold
        exact ⟨given, List.mem_append_left _ hgiven, hname⟩
    · intro given hgiven
      -- the network of the key is the one that was there, with more types
      have hold : ∃ m, (py.lower given.name, m) ∈ byName := by
        rcases List.mem_append.1 hgiven with hgiven | hgiven
        · exact h.keys given hgiven
        · rw [List.mem_singleton.1 hgiven]
          obtain ⟨⟨key, m⟩, hkv, hkey⟩ := List.mem_map.1 hthere
          exact ⟨m, hkey ▸ hkv⟩
      obtain ⟨m, hm⟩ := hold
      by_cases hsame : py.lower given.name = py.lower net.name
      · exact ⟨_, (hmem _ _).2 (.inr ⟨hsame, m, hsame ▸ hm, rfl⟩)⟩
      · exact ⟨m, (hmem _ _).2 (.inl ⟨hsame, hm⟩)⟩
    · intro key n hin
      rcases (hmem key n).1 hin with ⟨_, hold⟩ | ⟨rfl, m, hold, rfl⟩
      · exact h.lower key n hold
      · exact h.lower _ m hold
  · rw [mergeUnder_fresh hthere]
    refine ⟨?_, ?_, ?_, ?_⟩
    · rw [List.map_append, List.nodup_append]
      refine ⟨h.nodup, List.nodup_singleton _, ?_⟩
      intro k hk k' hk' hsame
      rw [hsame, List.mem_singleton.1 hk'] at hk
      exact hthere hk
    · intro key n hin
      rcases List.mem_append.1 hin with hold | hnew
      · obtain ⟨given, hgiven, hname⟩ := h.names key n hold
        exact ⟨given, List.mem_append_left _ hgiven, hname⟩
      · cases List.mem_singleton.1 hnew
        exact ⟨net, hlast, rfl⟩
    · intro given hgiven
      rcases List.mem_append.1 hgiven with hgiven | hgiven
      · obtain ⟨m, hm⟩ := h.keys given hgiven
        exact ⟨m, List.mem_append_left _ hm⟩
      · rw [List.mem_singleton.1 hgiven]
        exact ⟨_, List.mem_append_right _ List.mem_cons_self⟩
    · intro key n hin
      rcases List.mem_append.1 hin with hold | hnew
      · exact h.lower key n hold
      · cases List.mem_singleton.1 hnew
        rfl

theorem ByName.run {done rest : List Network} {byName : List (String × Network)}
    (h : ByName py done byName) (hclean : Clean rest) :
    ByName py (done ++ rest) (rest.foldl (mergeNetwork py) byName) := by
  induction rest generalizing done byName with
  | nil =>
    rw [List.append_nil]
    exact h
  | cons net rest ih =>
    have hstep := h.step (hclean net List.mem_cons_self)
    have hnext := ih hstep fun n hn => hclean n (List.mem_cons_of_mem _ hn)
    rw [List.append_assoc] at hnext
    exact hnext

/-- The case-folded names of networks. -/
def foldedNames (casefold : String → String) (nets : List Network) : List String :=
  nets.map fun net => casefold net.name

/-- **Merged networks have the same case-folded names, and their names stay trimmed.** -/
theorem mergeNetworks_folds (hletters : Letters py casefold) {existing incoming : List Network}
    (hexisting : Clean existing) (hincoming : Clean incoming) :
    Clean (mergeNetworks py existing incoming)
      ∧ ∀ fold, fold ∈ foldedNames casefold (mergeNetworks py existing incoming)
          ↔ fold ∈ foldedNames casefold existing ∨ fold ∈ foldedNames casefold incoming := by
  have hclean : Clean (existing ++ incoming) := by
    intro net hnet
    rcases List.mem_append.1 hnet with h | h
    · exact hexisting net h
    · exact hincoming net h
  have hinit : ByName py [] [] :=
    ⟨List.nodup_nil, fun _ _ h => absurd h List.not_mem_nil, fun _ h => absurd h List.not_mem_nil,
      fun _ _ h => absurd h List.not_mem_nil⟩
  have hrun := hinit.run hclean
  rw [List.nil_append] at hrun
  rw [mergeNetworks_eq]
  have hfolds : ∀ fold, fold ∈ foldedNames casefold (existing ++ incoming)
      ↔ fold ∈ foldedNames casefold existing ∨ fold ∈ foldedNames casefold incoming := by
    intro fold
    unfold foldedNames
    rw [List.map_append, List.mem_append]
  refine ⟨?_, ?_⟩
  · intro net hnet
    obtain ⟨⟨key, n⟩, hkv, rfl⟩ := List.mem_map.1 hnet
    obtain ⟨given, hgiven, hname⟩ := hrun.names key n hkv
    dsimp only
    rw [hname]
    exact hclean given hgiven
  · intro fold
    rw [← hfolds fold]
    constructor
    · intro hfold
      obtain ⟨net, hnet, rfl⟩ := List.mem_map.1 hfold
      obtain ⟨⟨key, n⟩, hkv, rfl⟩ := List.mem_map.1 hnet
      obtain ⟨given, hgiven, hname⟩ := hrun.names key n hkv
      exact List.mem_map.2 ⟨given, hgiven, by rw [hname]⟩
    · intro hfold
      obtain ⟨given, hgiven, rfl⟩ := List.mem_map.1 hfold
      obtain ⟨n, hn⟩ := hrun.keys given hgiven
      have hlower := hrun.lower _ n hn
      exact List.mem_map.2 ⟨n, List.mem_map.2 ⟨_, hn, rfl⟩, hletters.casefold_lower _ _ hlower.symm⟩

/-- The networks of an entry. -/
theorem mapNetworks_folds (hletters : Letters py casefold)
    (h : mapNetworks py raw = .ok nets) : Clean nets
      ∧ ∀ fold, fold ∈ foldedNames casefold nets
        ↔ fold ∈ (raw.filterMap (listedNetwork py)).map casefold := by
  obtain ⟨read, hread, rfl⟩ := map_ok h
  have hempty : Clean [] := fun _ hnet => absurd hnet List.not_mem_nil
  obtain ⟨hclean, hfolds⟩ := mergeNetworks_folds hletters hempty (readNetworks_clean hread)
  refine ⟨hclean, ?_⟩
  intro fold
  rw [hfolds fold, ← readNetworks_names hread, List.map_map]
  constructor
  · intro hcases
    exact hcases.resolve_left List.not_mem_nil
  · exact .inr

end Networks

/-! ## Coverages -/

/-- What `by_key` holds after some of the entries. -/
structure ByKey (py : Python) (casefold : String → String) (entries : List Json)
    (byKey : List (String × Coverage)) :
    Prop where
  nodup : (byKey.map Prod.fst).Nodup
  /-- A two-letter code is there when an entry lists it, -/
  keys : ∀ code, isCountryCode code = true →
    (code ∈ byKey.map Prod.fst ↔ ∃ entry ∈ entries, listedCode py entry = some code)
  /-- and its coverage has that code; -/
  ofCode : ∀ key cov, (key, cov) ∈ byKey → isCountryCode key = true → cov.code = key
  /-- other coverages have no such code. -/
  others : ∀ key cov, (key, cov) ∈ byKey → isCountryCode cov.code = true → key = cov.code
  upper : ∀ key cov, (key, cov) ∈ byKey → py.upper (PyText.strip cov.code) = cov.code
  clean : ∀ key cov, (key, cov) ∈ byKey → Clean cov.networks
  /-- The networks are those of all entries of the code, up to case. -/
  folds : ∀ key cov, (key, cov) ∈ byKey → isCountryCode key = true
    → ∀ fold, fold ∈ foldedNames casefold cov.networks
    ↔ ∃ entry ∈ entries, listedCode py entry = some key
      ∧ fold ∈ (listedNetworks py entry).map casefold

/-- What one entry puts under a key. -/
structure Puts (py : Python) (casefold : String → String) (entry : Json) (key code : String)
    (networks : List Network) :
    Prop where
  listed : ∀ c, isCountryCode c = true → (listedCode py entry = some c ↔ key = c)
  ofCode : isCountryCode key = true → code = key
  others : isCountryCode code = true → key = code
  upper : py.upper (PyText.strip code) = code
  clean : Clean networks
  folds : ∀ fold, fold ∈ foldedNames casefold networks
    ↔ fold ∈ (listedNetworks py entry).map casefold

section Coverages

variable {py : Python} {casefold : String → String} {entries : List Json} {entry : Json}
  {key code name : String} {networks : List Network} {byKey : List (String × Coverage)}

/-- A new key with what the first entry says. -/
theorem ByKey.fresh (h : ByKey py casefold entries byKey)
    (hputs : Puts py casefold entry key code networks) (hthere : key ∉ byKey.map Prod.fst) :
    ByKey py casefold (entries ++ [entry]) (byKey ++ [(key, ⟨code, name, networks⟩)]) := by
  have hin : ∀ k cov, (k, cov) ∈ byKey ++ [(key, ⟨code, name, networks⟩)] →
      (k ≠ key ∧ (k, cov) ∈ byKey) ∨ (k = key ∧ cov = ⟨code, name, networks⟩) := by
    intro k cov hmem
    rcases List.mem_append.1 hmem with hold | hnew
    · exact .inl ⟨fun hc => hthere (List.mem_map.2 ⟨_, hold, hc⟩), hold⟩
    · cases List.mem_singleton.1 hnew
      exact .inr ⟨rfl, rfl⟩
  refine ⟨?_, ?_, ?_, ?_, ?_, ?_, ?_⟩
  · rw [List.map_append, List.nodup_append]
    refine ⟨h.nodup, List.nodup_singleton _, ?_⟩
    intro k hk k' hk' hsame
    rw [hsame, List.mem_singleton.1 hk'] at hk
    exact hthere hk
  · intro c hc
    rw [List.map_append, List.mem_append, h.keys c hc]
    constructor
    · intro hcases
      rcases hcases with ⟨e, he, hlisted⟩ | hnew
      · exact ⟨e, List.mem_append_left _ he, hlisted⟩
      · exact ⟨entry, List.mem_append_right _ List.mem_cons_self,
          (hputs.listed c hc).2 (List.mem_singleton.1 hnew).symm⟩
    · intro ⟨e, he, hlisted⟩
      rcases List.mem_append.1 he with hold | hnew
      · exact .inl ⟨e, hold, hlisted⟩
      · rw [List.mem_singleton.1 hnew] at hlisted
        exact .inr (List.mem_singleton.2 ((hputs.listed c hc).1 hlisted).symm)
  · intro k cov hmem hk
    rcases hin k cov hmem with ⟨_, hold⟩ | ⟨rfl, rfl⟩
    · exact h.ofCode k cov hold hk
    · exact hputs.ofCode hk
  · intro k cov hmem hk
    rcases hin k cov hmem with ⟨_, hold⟩ | ⟨rfl, rfl⟩
    · exact h.others k cov hold hk
    · exact hputs.others hk
  · intro k cov hmem
    rcases hin k cov hmem with ⟨_, hold⟩ | ⟨rfl, rfl⟩
    · exact h.upper k cov hold
    · exact hputs.upper
  · intro k cov hmem
    rcases hin k cov hmem with ⟨_, hold⟩ | ⟨rfl, rfl⟩
    · exact h.clean k cov hold
    · exact hputs.clean
  · intro k cov hmem hk fold
    rcases hin k cov hmem with ⟨hne, hold⟩ | ⟨rfl, rfl⟩
    · rw [h.folds k cov hold hk fold]
      constructor
      · intro ⟨e, he, hlisted⟩
        exact ⟨e, List.mem_append_left _ he, hlisted⟩
      · intro ⟨e, he, hlisted, hfold⟩
        rcases List.mem_append.1 he with hold | hnew
        · exact ⟨e, hold, hlisted, hfold⟩
        · rw [List.mem_singleton.1 hnew] at hlisted
          exact absurd ((hputs.listed k hk).1 hlisted).symm hne
    · rw [hputs.folds fold]
      constructor
      · intro hfold
        exact ⟨entry, List.mem_append_right _ List.mem_cons_self, (hputs.listed k hk).2 rfl, hfold⟩
      · intro ⟨e, he, hlisted, hfold⟩
        rcases List.mem_append.1 he with hold | hnew
        · exact absurd ((h.keys k hk).2 ⟨e, hold, hlisted⟩) hthere
        · rw [List.mem_singleton.1 hnew] at hfold
          exact hfold

/-- A key that is there takes from the entry what it lacks. -/
theorem ByKey.merge (hletters : Letters py casefold) (h : ByKey py casefold entries byKey)
    (hputs : Puts py casefold entry key code networks) (hthere : key ∈ byKey.map Prod.fst) :
    ByKey py casefold (entries ++ [entry])
      (mergeUnder key ⟨code, name, networks⟩ (·.merge py code name networks) byKey) := by
  have hin : ∀ k cov, (k, cov)
    ∈ mergeUnder key ⟨code, name, networks⟩ (·.merge py code name networks) byKey →
      (k ≠ key ∧ (k, cov) ∈ byKey) ∨ (k = key ∧ ∃ existing, (key, existing) ∈ byKey
        ∧ cov = existing.merge py code name networks) :=
    fun k cov hmem => (mem_mergeUnder h.nodup hthere).1 hmem
  have hcode : ∀ existing, (key, existing) ∈ byKey
    → (existing.merge py code name networks).code = existing.code
      ∨ (existing.merge py code name networks).code = code := by
    intro existing _
    unfold Coverage.merge
    dsimp only
    split
    · exact .inr rfl
    · exact .inl rfl
  have hfolds : ∀ existing, (key, existing) ∈ byKey
    → Clean (existing.merge py code name networks).networks
      ∧ ∀ fold, fold ∈ foldedNames casefold (existing.merge py code name networks).networks
        ↔ fold ∈ foldedNames casefold existing.networks ∨ fold ∈ foldedNames casefold networks :=
    fun existing hold => mergeNetworks_folds hletters (h.clean key existing hold) hputs.clean
  refine ⟨?_, ?_, ?_, ?_, ?_, ?_, ?_⟩
  · rw [keys_mergeUnder hthere]
    exact h.nodup
  · intro c hc
    rw [keys_mergeUnder hthere, h.keys c hc]
    constructor
    · intro ⟨e, he, hlisted⟩
      exact ⟨e, List.mem_append_left _ he, hlisted⟩
    · intro ⟨e, he, hlisted⟩
      rcases List.mem_append.1 he with hold | hnew
      · exact ⟨e, hold, hlisted⟩
      · rw [List.mem_singleton.1 hnew] at hlisted
        have hkey := (hputs.listed c hc).1 hlisted
        rw [hkey] at hthere
        exact (h.keys c hc).1 hthere
  · intro k cov hmem hk
    rcases hin k cov hmem with ⟨_, hold⟩ | ⟨rfl, existing, hold, rfl⟩
    · exact h.ofCode k cov hold hk
    · rcases hcode existing hold with hsame | hnew
      · rw [hsame]
        exact h.ofCode k existing hold hk
      · rw [hnew]
        exact hputs.ofCode hk
  · intro k cov hmem hk
    rcases hin k cov hmem with ⟨_, hold⟩ | ⟨rfl, existing, hold, rfl⟩
    · exact h.others k cov hold hk
    · rcases hcode existing hold with hsame | hnew
      · rw [hsame] at hk ⊢
        exact h.others k existing hold hk
      · rw [hnew] at hk ⊢
        exact hputs.others hk
  · intro k cov hmem
    rcases hin k cov hmem with ⟨_, hold⟩ | ⟨rfl, existing, hold, rfl⟩
    · exact h.upper k cov hold
    · rcases hcode existing hold with hsame | hnew
      · rw [hsame]
        exact h.upper k existing hold
      · rw [hnew]
        exact hputs.upper
  · intro k cov hmem
    rcases hin k cov hmem with ⟨_, hold⟩ | ⟨rfl, existing, hold, rfl⟩
    · exact h.clean k cov hold
    · exact (hfolds existing hold).1
  · intro k cov hmem hk fold
    rcases hin k cov hmem with ⟨hne, hold⟩ | ⟨rfl, existing, hold, rfl⟩
    · rw [h.folds k cov hold hk fold]
      constructor
      · intro ⟨e, he, hlisted⟩
        exact ⟨e, List.mem_append_left _ he, hlisted⟩
      · intro ⟨e, he, hlisted, hfold⟩
        rcases List.mem_append.1 he with hold | hnew
        · exact ⟨e, hold, hlisted, hfold⟩
        · rw [List.mem_singleton.1 hnew] at hlisted
          exact absurd ((hputs.listed k hk).1 hlisted).symm hne
    · rw [(hfolds existing hold).2 fold, h.folds k existing hold hk fold, hputs.folds fold]
      constructor
      · intro hcases
        rcases hcases with ⟨e, he, hlisted⟩ | hfold
        · exact ⟨e, List.mem_append_left _ he, hlisted⟩
        · exact ⟨entry, List.mem_append_right _ List.mem_cons_self,
            (hputs.listed k hk).2 rfl, hfold⟩
      · intro ⟨e, he, hlisted, hfold⟩
        rcases List.mem_append.1 he with hold | hnew
        · exact .inl ⟨e, hold, hlisted, hfold⟩
        · rw [List.mem_singleton.1 hnew] at hfold
          exact .inr hfold

/-- An entry that lists no country and puts nothing. -/
theorem ByKey.skip (h : ByKey py casefold entries byKey) (hnone : listedCode py entry = none) :
    ByKey py casefold (entries ++ [entry]) byKey := by
  have hlast : ∀ c, listedCode py entry ≠ some c := by
    intro c hc
    rw [hnone] at hc
    cases hc
  have hsame : ∀ (P : Json → Prop) c, (∃ e ∈ entries ++ [entry], listedCode py e = some c ∧ P e)
      ↔ ∃ e ∈ entries, listedCode py e = some c ∧ P e := by
    intro P c
    constructor
    · intro ⟨e, he, hlisted, hp⟩
      rcases List.mem_append.1 he with hold | hnew
      · exact ⟨e, hold, hlisted, hp⟩
      · rw [List.mem_singleton.1 hnew] at hlisted
        exact absurd hlisted (hlast c)
    · intro ⟨e, he, hlisted⟩
      exact ⟨e, List.mem_append_left _ he, hlisted⟩
  refine ⟨h.nodup, ?_, h.ofCode, h.others, h.upper, h.clean, ?_⟩
  · intro c hc
    have htrue := hsame (fun _ => True) c
    simp only [and_true] at htrue
    rw [htrue]
    exact h.keys c hc
  · intro k cov hmem hk fold
    rw [hsame (fun e => fold ∈ (listedNetworks py e).map casefold) k]
    exact h.folds k cov hmem hk fold

theorem isCountryCode_nil : isCountryCode "" = false := by decide

theorem length_of_isCountryCode (h : isCountryCode code = true) : code.length = 2 := by
  unfold isCountryCode at h
  rw [Bool.and_eq_true, decide_eq_true_iff] at h
  exact h.1

/-- What `_normalize_iso2` makes of a code. -/
theorem normalizeIso2_cases (hletters : Letters py casefold) (text : String) :
    (isCountryCode (PyText.strip (py.upper text)) = true
      → normalizeIso2 py text = PyText.strip (py.upper text))
    ∧ (normalizeIso2 py text = "" ∨ normalizeIso2 py text = PyText.strip (py.upper text)) := by
  unfold normalizeIso2
  dsimp only
  constructor
  · intro hcode
    rw [if_pos ⟨length_of_isCountryCode hcode, hletters.alpha _ hcode⟩]
  · split
    · exact .inr rfl
    · exact .inl rfl

/-- What is written for an entry that is not blank. -/
theorem puts_of_read (hletters : Letters py casefold) {text : String}
    (hdict : entry.isDict = true) (htext : textOr py.writer entry "code" "" = .ok text)
    (hraw : iterate ((entry.get "networks").orElse (.list [])) = .ok raw)
    (hnetworks : mapNetworks py raw = .ok networks) :
    Puts py casefold entry
      (if normalizeIso2 py text = "" then py.lower name else normalizeIso2 py text)
        (normalizeIso2 py text) networks := by
  obtain ⟨hvalid, hcases⟩ := normalizeIso2_cases hletters text
  obtain ⟨hclean, hfolds⟩ := mapNetworks_folds hletters hnetworks
  have hlisted : listedCode py entry
      = if isCountryCode (PyText.strip (py.upper text)) then some (PyText.strip (py.upper text))
        else none := by
    unfold listedCode
    rw [if_pos hdict, htext]
    by_cases h : isCountryCode (PyText.strip (py.upper text))
      <;> simp [h, Except.toOption, Option.filter]
  have hcode : isCountryCode (normalizeIso2 py text) = true
      → normalizeIso2 py text = PyText.strip (py.upper text) := by
    intro h
    rcases hcases with hblank | hsame
    · rw [hblank, isCountryCode_nil] at h
      cases h
    · exact hsame
  -- a name is no two-letter code, so the key is one exactly when the code is
  have hkey : ∀ c, isCountryCode c = true →
      ((if normalizeIso2 py text = "" then py.lower name else normalizeIso2 py text) = c
        ↔ normalizeIso2 py text = c) := by
    intro c hc
    by_cases hblank : normalizeIso2 py text = ""
    · rw [if_pos hblank, hblank]
      constructor
      · intro hname
        have hlower := hletters.lower_code name
        rw [hname, hc] at hlower
        cases hlower
      · intro hnil
        rw [← hnil, isCountryCode_nil] at hc
        cases hc
    · rw [if_neg hblank]
  refine ⟨?_, ?_, ?_, ?_, hclean, ?_⟩
  · intro c hc
    rw [hkey c hc, hlisted]
    constructor
    · intro h
      split at h
      · rename_i hiso
        rw [hvalid hiso]
        exact Option.some.inj h
      · cases h
    · intro h
      have hiso : PyText.strip (py.upper text) = c := by
        rw [← h] at hc
        rw [← hcode hc]
        exact h
      rw [hiso, if_pos hc]
  · intro h
    exact ((hkey _ h).1 rfl)
  · intro h
    exact (hkey _ h).2 rfl
  · rcases hcases with hblank | hsame
    · rw [hblank]
      exact hletters.upper_nil
    · rw [hsame, PyText.strip_strip]
      exact hletters.upper_upper text
  · intro fold
    rw [hfolds fold]
    unfold listedNetworks
    rw [elements_of_ok hraw]

/-- A blank entry lists no country. -/
theorem listedCode_blank (hletters : Letters py casefold) {text : String}
    (hdict : entry.isDict = true) (htext : textOr py.writer entry "code" "" = .ok text)
    (hblank : normalizeIso2 py text = "") :
    listedCode py entry = none := by
  obtain ⟨hvalid, _⟩ := normalizeIso2_cases hletters text
  unfold listedCode
  rw [if_pos hdict, htext]
  by_cases h : isCountryCode (PyText.strip (py.upper text)) = true
  · have hlength := length_of_isCountryCode h
    rw [← hvalid h, hblank] at hlength
    exact absurd hlength (by decide)
  · simp [h, Except.toOption, Option.filter]

/-- **The coverages have the countries of the entries, and the networks of each.** -/
theorem readCoverages_byKey (hletters : Letters py casefold) {rest : List Json}
    {out : List (String × Coverage)} (h : ByKey py casefold entries byKey)
    (hread : readCoverages py byKey rest = .ok out) :
    ByKey py casefold (entries ++ rest) out := by
  induction rest generalizing entries byKey with
  | nil =>
    cases hread
    rw [List.append_nil]
    exact h
  | cons entry rest ih =>
    have happend : entries ++ entry :: rest = entries ++ [entry] ++ rest := by
      rw [List.append_assoc]; rfl
    rw [happend]
    unfold readCoverages at hread
    by_cases hdict : entry.isDict = true
    · rw [if_neg (not_not_intro hdict)] at hread
      obtain ⟨text, htext, hread⟩ := bind_ok hread
      obtain ⟨name, _, hread⟩ := bind_ok hread
      by_cases hblank : normalizeIso2 py text = "" ∧ name = ""
      · rw [if_pos hblank] at hread
        exact ih (h.skip (listedCode_blank hletters hdict htext hblank.1)) hread
      · rw [if_neg hblank] at hread
        obtain ⟨raw, hraw, hread⟩ := bind_ok hread
        obtain ⟨networks, hnetworks, hread⟩ := bind_ok hread
        have hputs : Puts py casefold entry
            (if normalizeIso2 py text = "" then py.lower name else normalizeIso2 py text)
              (normalizeIso2 py text)
            networks := puts_of_read hletters hdict htext hraw hnetworks
        refine ih ?_ hread
        by_cases hthere : (if normalizeIso2 py text = "" then py.lower name
          else normalizeIso2 py text) ∈ byKey.map Prod.fst
        · exact h.merge hletters hputs hthere
        · rw [mergeUnder_fresh hthere]
          exact h.fresh hputs hthere
    · rw [if_pos hdict] at hread
      refine ih (h.skip ?_) hread
      unfold listedCode
      rw [if_neg hdict]

end Coverages

/-! ## The snapshot of an operator's coverages -/

section Snapshot

variable {py : Python} {casefold : String → String}

theorem Coverage.toJson_writable (cov : Coverage) : (Coverage.toJson cov).Writable := by
  have hnetwork : ∀ net : Network, (Network.toJson net).Writable := by
    intro net
    refine Json.Writable.dict fun kv hkv => ?_
    rcases List.mem_cons.1 hkv with rfl | hkv
    · exact Json.Writable.str _
    · rw [List.mem_singleton.1 hkv]
      refine Json.Writable.list fun x hx => ?_
      obtain ⟨s, _, rfl⟩ := List.mem_map.1 hx
      exact Json.Writable.str s
  refine Json.Writable.dict fun kv hkv => ?_
  rcases List.mem_cons.1 hkv with rfl | hkv
  · exact Json.Writable.str _
  rcases List.mem_cons.1 hkv with rfl | hkv
  · exact Json.Writable.str _
  · rw [List.mem_singleton.1 hkv]
    refine Json.Writable.list fun x hx => ?_
    obtain ⟨net, _, rfl⟩ := List.mem_map.1 hx
    exact hnetwork net

/-- A column of coverages. -/
def storedCoverages (coverages : List Coverage) : StoredJson :=
  ⟨.list (coverages.map Coverage.toJson), Json.Writable.list fun x hx => by
    obtain ⟨cov, _, rfl⟩ := List.mem_map.1 hx
    exact Coverage.toJson_writable cov⟩

theorem codeOf_toJson {cov : Coverage} (h : py.upper (PyText.strip cov.code) = cov.code) :
    codeOf py (Coverage.toJson cov) = if isCountryCode cov.code then some cov.code else none := by
  have hfield : fieldOf (Coverage.toJson cov) "code" "country_code" = .str cov.code := rfl
  have hread := entryCode_ok py (Coverage.toJson_writable cov)
  rw [hfield, spelled_str, h] at hread
  exact codeOf_dict (Coverage.toJson_writable cov) rfl hread

theorem operatorsOfEntry_toJson {cov : Coverage} (h : Clean cov.networks) :
    operatorsOfEntry py (Coverage.toJson cov) = cov.networks.map Network.name := by
  have hitems : itemsOf ((Coverage.toJson cov).get "networks") = cov.networks.map Network.toJson :=
    rfl
  unfold operatorsOfEntry
  have hname : ∀ net ∈ cov.networks, operatorName py (Network.toJson net) = some net.name := by
    intro net hnet
    obtain ⟨hstrip, hne⟩ := h net hnet
    have hname : (Network.toJson net).get "name" = .str net.name := rfl
    show unlessBlank (spelled py ((Network.toJson net).get "name")) = _
    rw [hname, spelled_str, hstrip]
    exact if_neg hne
  rw [hitems, List.filterMap_map, ← List.filterMap_eq_map]
  exact List.filterMap_congr hname

/-- What a snapshot says of the countries and networks of an operator. -/
structure Pictures (py : Python) (casefold : String → String) (operator : Json)
    (out : List CountryCoverage) : Prop where
  codes : ∀ code, (∃ c ∈ out, c.countryCode = code) ↔ Lists py operator code
  folds : ∀ c ∈ out, ∀ fold, fold ∈ c.operators.map casefold
    ↔ ∃ name, ListsNetwork py operator c.countryCode name ∧ casefold name = fold

/-- **The snapshot of what the mapping makes of an operator's coverages says what the operator
lists.** -/
theorem mapCoverages_pictures (hletters : Letters py casefold) {operator : Json}
    {coverages : List Coverage} (h : mapCoverages py (coverageEntries operator) = .ok coverages) :
    ∃ out, normalizeCoverageSnapshot py casefold (storedCoverages coverages).1 = .ok out
      ∧ Pictures py casefold operator out := by
  obtain ⟨byKey, hread, rfl⟩ := map_ok h
  have hinit : ByKey py casefold [] [] := by
    refine ⟨List.nodup_nil, ?_, fun _ _ hm => absurd hm List.not_mem_nil,
      fun _ _ hm => absurd hm List.not_mem_nil,
      fun _ _ hm => absurd hm List.not_mem_nil, fun _ _ hm => absurd hm List.not_mem_nil,
      fun _ _ hm => absurd hm List.not_mem_nil⟩
    intro c _
    simp
  have hbyKey := readCoverages_byKey hletters hinit hread
  rw [List.nil_append] at hbyKey
  obtain ⟨out, hout, hsnapshot⟩ :=
    normalizeCoverageSnapshot_ok py casefold (storedCoverages (byKey.map Prod.snd))
  have hitems : itemsOf (storedCoverages (byKey.map Prod.snd)).1
      = (byKey.map Prod.snd).map Coverage.toJson := rfl
  -- the entries of the column are the coverages; one of a two-letter code stands under it
  have hentry : ∀ code (P : Json → Prop),
    (∃ e ∈ itemsOf (storedCoverages (byKey.map Prod.snd)).1, codeOf py e = some code ∧ P e)
      ↔ ∃ cov, (code, cov) ∈ byKey ∧ isCountryCode code = true ∧ P (Coverage.toJson cov) := by
    intro code P
    rw [hitems]
    constructor
    · intro ⟨e, he, hcode, hp⟩
      obtain ⟨cov, hcov, rfl⟩ := List.mem_map.1 he
      obtain ⟨⟨key, cov⟩, hkv, rfl⟩ := List.mem_map.1 hcov
      rw [codeOf_toJson (hbyKey.upper key cov hkv)] at hcode
      split at hcode
      · rename_i hiso
        obtain rfl := Option.some.inj hcode
        have hkey := hbyKey.others key cov hkv hiso
        exact ⟨cov, hkey ▸ hkv, hiso, hp⟩
      · cases hcode
    · intro ⟨cov, hkv, hiso, hp⟩
      have hcode := hbyKey.ofCode code cov hkv hiso
      refine ⟨(Coverage.toJson cov),
        List.mem_map.2 ⟨cov, List.mem_map.2 ⟨_, hkv, rfl⟩, rfl⟩, ?_, hp⟩
      rw [codeOf_toJson (hbyKey.upper code cov hkv), hcode, if_pos hiso]
  refine ⟨out, hout, ?_, ?_⟩
  · intro code
    have hcodes := hsnapshot.codes code
    have hall := hentry code fun _ => True
    simp only [and_true] at hall
    rw [List.mem_map, hall] at hcodes
    rw [hcodes]
    unfold Lists
    constructor
    · intro ⟨cov, hkv, hiso⟩
      exact (hbyKey.keys code hiso).1 (List.mem_map.2 ⟨_, hkv, rfl⟩)
    · intro hlists
      have hiso : isCountryCode code = true := by
        obtain ⟨e, _, hlisted⟩ := hlists
        unfold listedCode at hlisted
        split at hlisted
        · exact (Option.filter_eq_some_iff.1 hlisted).2
        · cases hlisted
      obtain ⟨⟨key, cov⟩, hkv, rfl⟩ := List.mem_map.1 ((hbyKey.keys code hiso).2 hlists)
      exact ⟨cov, hkv, hiso⟩
  · intro c hc fold
    rw [hsnapshot.union c hc fold,
      hentry c.countryCode fun e => fold ∈ (operatorsOfEntry py e).map casefold]
    have hoperators : ∀ cov, (c.countryCode, cov) ∈ byKey →
        (operatorsOfEntry py (Coverage.toJson cov)).map casefold
          = foldedNames casefold cov.networks := by
      intro cov hkv
      rw [operatorsOfEntry_toJson (hbyKey.clean _ cov hkv), List.map_map]
      rfl
    constructor
    · intro ⟨cov, hkv, hiso, hfold⟩
      rw [hoperators cov hkv] at hfold
      obtain ⟨e, he, hlisted, hfold⟩ := (hbyKey.folds _ cov hkv hiso fold).1 hfold
      obtain ⟨name, hname, rfl⟩ := List.mem_map.1 hfold
      exact ⟨name, ⟨e, he, hlisted, hname⟩, rfl⟩
    · intro ⟨name, ⟨e, he, hlisted, hname⟩, hfold⟩
      have hiso := twoLetters_iff.2 (hsnapshot.valid c hc)
      obtain ⟨⟨key, cov⟩, hkv, hkey⟩ := List.mem_map.1 ((hbyKey.keys _ hiso).2 ⟨e, he, hlisted⟩)
      have hkey : key = c.countryCode := hkey
      subst hkey
      refine ⟨cov, hkv, hiso, ?_⟩
      rw [hoperators cov hkv, hbyKey.folds _ cov hkv hiso fold]
      exact ⟨e, he, hlisted, List.mem_map.2 ⟨name, hname, hfold⟩⟩

end Snapshot

end Roamkit.Catalog.Proof
