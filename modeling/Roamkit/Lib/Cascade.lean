import Mathlib.Data.List.Basic
import Mathlib.Tactic.Common

/-!
# What goes with a row

Deleting rows deletes the rows that hang on them, and those that hang on these.
`GoesWith` says which keys that reaches. `collect` computes them, one layer after
another: the rows of a layer are taken out of those still to be looked at, so a
layer for every row is enough.
-/

namespace Roamkit.Lib

variable {ρ κ : Type*} {key : ρ → κ} {hangs : ρ → κ → Bool} {rows rest : List ρ}
  {seeds next : List κ} {k : κ}

/-- The keys that go when the seeds go. -/
inductive GoesWith (key : ρ → κ) (hangs : ρ → κ → Bool) (rows : List ρ) (seeds : List κ) :
    κ → Prop
  | seed {k : κ} : k ∈ seeds → GoesWith key hangs rows seeds k
  | hang {r : ρ} {k : κ} : r ∈ rows → hangs r k → GoesWith key hangs rows seeds k →
      GoesWith key hangs rows seeds (key r)

/-- The same, computed, looking at no more than `n` layers. -/
def collect (key : ρ → κ) (hangs : ρ → κ → Bool) : Nat → List ρ → List κ → List κ
  | 0, _, seeds => seeds
  | n + 1, rows, seeds =>
    let layer := rows.filter fun r => seeds.any (hangs r)
    if layer.isEmpty then seeds
    else seeds ++ collect key hangs n (rows.filter fun r => !seeds.any (hangs r))
      (layer.map key)

/-- A key goes as a seed, or with a row that hangs on another key that goes. -/
theorem goesWith_iff : GoesWith key hangs rows seeds k ↔
    k ∈ seeds ∨ ∃ r ∈ rows, key r = k ∧ ∃ q, hangs r q ∧ GoesWith key hangs rows seeds q := by
  constructor
  · intro h
    cases h with
    | seed hk => exact .inl hk
    | hang hr hq h => exact .inr ⟨_, hr, rfl, _, hq, h⟩
  · rintro (hk | ⟨r, hr, rfl, q, hq, h⟩)
    · exact .seed hk
    · exact .hang hr hq h

/-- A key none of whose rows hangs on anything goes as a seed only. -/
theorem GoesWith.mem_seeds (h : GoesWith key hangs rows seeds k)
    (hfree : ∀ r ∈ rows, key r = k → ∀ q, hangs r q = false) : k ∈ seeds := by
  rcases goesWith_iff.1 h with hk | ⟨r, hr, hk, q, hq, -⟩
  · exact hk
  · rw [hfree r hr hk q] at hq
    cases hq

/-- What goes with keys that all go themselves goes. -/
theorem GoesWith.trans (h : GoesWith key hangs rest next k) (hrest : ∀ r ∈ rest, r ∈ rows)
    (hnext : ∀ q ∈ next, GoesWith key hangs rows seeds q) : GoesWith key hangs rows seeds k := by
  induction h with
  | seed hk => exact hnext _ hk
  | hang hr hq _ ih => exact .hang (hrest _ hr) hq ih

/-- When no row hangs on a seed, the seeds are all that goes. -/
theorem GoesWith.of_none (h : GoesWith key hangs rows seeds k)
    (hnone : ∀ r ∈ rows, seeds.any (hangs r) = false) : k ∈ seeds := by
  induction h with
  | seed hk => exact hk
  | hang hr hq _ ih =>
    have hany : seeds.any (hangs _) = true := List.any_eq_true.2 ⟨_, ih, hq⟩
    rw [hnone _ hr] at hany
    cases hany

/-- Past the seeds, what goes goes with the rows that hang on a seed. -/
theorem GoesWith.layer (h : GoesWith key hangs rows seeds k) :
    k ∈ seeds ∨ GoesWith key hangs (rows.filter fun r => !seeds.any (hangs r))
      ((rows.filter fun r => seeds.any (hangs r)).map key) k := by
  induction h with
  | seed hk => exact .inl hk
  | @hang r q hr hq _ ih =>
    right
    by_cases hany : seeds.any (hangs r) = true
    · exact .seed (List.mem_map_of_mem (List.mem_filter.2 ⟨hr, hany⟩))
    · -- the row is in a later layer, so what it hangs on is no seed
      have hrest : r ∈ rows.filter fun r => !seeds.any (hangs r) :=
        List.mem_filter.2 ⟨hr, by rw [Bool.not_eq_true] at hany; rw [hany]; rfl⟩
      rcases ih with hk | hk
      · exact absurd (List.any_eq_true.2 ⟨_, hk, hq⟩) hany
      · exact .hang hrest hq hk

theorem goesWith_of_mem_collect {n : Nat} (h : k ∈ collect key hangs n rows seeds) :
    GoesWith key hangs rows seeds k := by
  induction n generalizing rows seeds with
  | zero => exact .seed h
  | succ n ih =>
    rw [collect] at h
    split at h
    · exact .seed h
    · rcases List.mem_append.1 h with hk | hk
      · exact .seed hk
      · refine (ih hk).trans (fun r hr => (List.mem_filter.1 hr).1) fun q hq => ?_
        obtain ⟨r, hr, rfl⟩ := List.mem_map.1 hq
        obtain ⟨hr, hany⟩ := List.mem_filter.1 hr
        obtain ⟨s, hs, hrs⟩ := List.any_eq_true.1 hany
        exact .hang hr hrs (.seed hs)

theorem mem_collect_of_goesWith {n : Nat} (hn : rows.length ≤ n)
    (h : GoesWith key hangs rows seeds k) : k ∈ collect key hangs n rows seeds := by
  induction n generalizing rows seeds with
  | zero =>
    have hrows : rows = [] := List.length_eq_zero_iff.1 (by omega)
    subst hrows
    exact h.of_none fun r hr => absurd hr List.not_mem_nil
  | succ n ih =>
    rw [collect]
    by_cases hlayer : (rows.filter fun r => seeds.any (hangs r)).isEmpty = true
    · rw [if_pos hlayer]
      refine h.of_none fun r hr => ?_
      have hnot := List.filter_eq_nil_iff.1 (List.isEmpty_iff.1 hlayer) r hr
      rwa [Bool.not_eq_true] at hnot
    · rw [if_neg hlayer, List.mem_append]
      have hsome : (rows.filter fun r => seeds.any (hangs r)).length ≠ 0 := by
        intro h0
        exact hlayer (List.isEmpty_iff.2 (List.length_eq_zero_iff.1 h0))
      have hsplit := List.length_eq_length_filter_add (l := rows) fun r => seeds.any (hangs r)
      rcases h.layer with hk | hk
      · exact .inl hk
      · exact .inr (ih (by omega) hk)

/-- **With a layer for every row, what is collected is what goes.** -/
theorem mem_collect_iff :
    k ∈ collect key hangs rows.length rows seeds ↔ GoesWith key hangs rows seeds k :=
  ⟨goesWith_of_mem_collect, mem_collect_of_goesWith (Nat.le_refl _)⟩

end Roamkit.Lib
