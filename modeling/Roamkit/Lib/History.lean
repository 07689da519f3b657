import Mathlib.Data.List.Induction
import Mathlib.Tactic.Common

/-!
# Histories of a row

A history is the list of the writes made to one row, each with who made it and
with the row before and after, which is `none` where there is no row. `Leads` says
that the writes of a history follow one another.

An optimistic lock is a number in the row that some writers count up and others
leave as it is. `Leads.of_version` is what such a number is good for: in a history
in which the row is not created anew, a number that has not moved says that only
writers that leave it have written.
-/

namespace Roamkit.Lib

variable {ω ρ : Type*}

/-- A write of a row. -/
structure RowWrite (ω ρ : Type*) where
  writer : ω
  before : Option ρ
  after : Option ρ
deriving DecidableEq

/-- The writes, one after the other, lead from one state of the row to another. -/
inductive Leads : Option ρ → List (RowWrite ω ρ) → Option ρ → Prop
  | nil (x : Option ρ) : Leads x [] x
  | cons {w : RowWrite ω ρ} {ws : List (RowWrite ω ρ)} {y : Option ρ} :
      Leads w.after ws y → Leads w.before (w :: ws) y

namespace Leads

variable {x y z : Option ρ} {ws vs : List (RowWrite ω ρ)}

theorem nil_iff : Leads (ω := ω) x [] y ↔ x = y :=
  ⟨fun h => by cases h; rfl, fun h => h ▸ .nil x⟩

theorem cons_iff {w : RowWrite ω ρ} : Leads x (w :: ws) y ↔ w.before = x ∧ Leads w.after ws y :=
  ⟨fun h => by cases h with | cons h => exact ⟨rfl, h⟩, fun ⟨hx, h⟩ => hx ▸ .cons h⟩

theorem append (h : Leads x ws y) (h' : Leads y vs z) : Leads x (ws ++ vs) z := by
  induction h with
  | nil => exact h'
  | cons _ ih => exact .cons (ih h')

/-- One more write. -/
theorem snoc {w : RowWrite ω ρ} (h : Leads x ws w.before) : Leads x (ws ++ [w]) w.after :=
  h.append (.cons (.nil _))

theorem snoc_iff {w : RowWrite ω ρ} :
    Leads x (ws ++ [w]) y ↔ Leads x ws w.before ∧ w.after = y := by
  constructor
  · intro h
    induction ws generalizing x with
    | nil =>
      obtain ⟨hbefore, hafter⟩ := cons_iff.1 h
      exact ⟨nil_iff.2 hbefore.symm, nil_iff.1 hafter⟩
    | cons v ws ih =>
      obtain ⟨hbefore, hrest⟩ := cons_iff.1 h
      obtain ⟨hws, hafter⟩ := ih hrest
      exact ⟨cons_iff.2 ⟨hbefore, hws⟩, hafter⟩
  · rintro ⟨hws, rfl⟩
    exact hws.snoc

/-- What follows a first part of a history. -/
theorem rest (h : Leads x (ws ++ vs) z) (h' : Leads x ws y) : Leads y vs z := by
  induction h' with
  | nil => exact h
  | cons _ ih => exact ih (cons_iff.1 h).2

/-! ## Writers that own a row -/

/-- What stands is what the last of its owners left, but for what the others have made of it
since. -/
theorem since_owner (owns : ω → Prop) {K : ρ → ρ → Prop} (hrefl : ∀ r, K r r)
    (htrans : ∀ a b c, K a b → K b c → K a c) {r : ρ} (h : Leads none ws (some r))
    (hothers : ∀ w ∈ ws, ¬ owns w.writer → ∃ q q', w.before = some q ∧ w.after = some q' ∧ K q q') :
    ∃ before w after asked, ws = before ++ w :: after ∧ owns w.writer ∧ w.after = some asked
      ∧ (∀ v ∈ after, ¬ owns v.writer) ∧ K asked r := by
  induction ws using List.reverseRecOn generalizing r with
  | nil => cases nil_iff.1 h
  | append_singleton ws w ih =>
    obtain ⟨hws, hafter⟩ := snoc_iff.1 h
    by_cases howns : owns w.writer
    · exact ⟨ws, w, [], r, rfl, howns, hafter, fun v hv => absurd hv List.not_mem_nil, hrefl r⟩
    · -- one of the others has written last
      obtain ⟨q, q', hbefore, hq', hkeeps⟩ := hothers w (by simp) howns
      obtain rfl : q' = r := Option.some.inj (hq'.symm.trans hafter)
      rw [hbefore] at hws
      obtain ⟨before, v, after, asked, rfl, hv, hasked, hsince, hk⟩ :=
        ih hws fun u hu => hothers u (List.mem_append_left _ hu)
      refine ⟨before, v, after ++ [w], asked, by
        simp, hv, hasked, fun u hu => ?_, htrans _ _ _ hk hkeeps⟩
      rcases List.mem_append.1 hu with hu | hu
      · exact hsince u hu
      · rw [List.mem_singleton.1 hu]
        exact howns

/-! ## Numbers that count writes -/

variable {version : ρ → Nat} {leaves : ω → Prop}

/-- A write of a row that stays counts it up, or is of a writer that leaves the number. -/
def Counts (version : ρ → Nat) (leaves : ω → Prop) (w : RowWrite ω ρ) : Prop :=
  ∀ r q, w.before = some r → w.after = some q →
    version q = version r + 1 ∨ version q = version r ∧ leaves w.writer

/-- Where there is no row, and none is created, nothing is written. -/
theorem of_absent (h : Leads none ws y) (hborn : ∀ w ∈ ws, w.before ≠ none) : ws = [] := by
  cases ws with
  | nil => rfl
  | cons w ws => exact absurd (cons_iff.1 h).1 (hborn w (List.mem_cons_self ..))

/--
**In a history without a creation, the number never falls, and where it has not
moved every write left it and kept the row.**
-/
theorem of_version {r q : ρ} (h : Leads (some r) ws (some q))
    (hborn : ∀ w ∈ ws, w.before ≠ none) (hcounts : ∀ w ∈ ws, Counts version leaves w) :
    version r ≤ version q
      ∧ (version r = version q → ∀ w ∈ ws, leaves w.writer) := by
  induction ws generalizing r with
  | nil =>
    obtain rfl := Option.some.inj (nil_iff.1 h)
    exact ⟨Nat.le_refl _, fun _ w hw => absurd hw List.not_mem_nil⟩
  | cons w ws ih =>
    obtain ⟨hbefore, hrest⟩ := cons_iff.1 h
    have htail (v) (hv : v ∈ ws) : v.before ≠ none := hborn v (List.mem_cons_of_mem _ hv)
    cases hafter : w.after with
    | none =>
      -- a row that is gone stays gone
      rw [hafter] at hrest
      rw [of_absent hrest htail] at hrest
      cases nil_iff.1 hrest
    | some r' =>
      rw [hafter] at hrest
      obtain ⟨hle, hsame⟩ := ih hrest htail fun v hv => hcounts v (List.mem_cons_of_mem _ hv)
      have hw := hcounts w (List.mem_cons_self ..) r r' hbefore hafter
      refine ⟨by omega, fun heq v hv => ?_⟩
      rcases hw with hup | ⟨heq', hleaves⟩
      · omega
      · rcases List.mem_cons.1 hv with rfl | hv
        · exact hleaves
        · exact hsame (by omega) v hv

end Leads

end Roamkit.Lib
