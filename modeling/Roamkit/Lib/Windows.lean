import Mathlib.Data.List.Nodup
import Mathlib.Data.List.Perm.Subperm
import Mathlib.Tactic.Common

/-!
# Windows of time

A list of things that happened, its newest first, and how many of them fall into a window of
a given length that may begin anywhere. A window has its first moment and not its last.
Things a whole window apart leave one for it; things that take one of a number of slots
each, and none that another of the same window has, leave as many as there are slots.
-/

namespace Roamkit.Lib

variable {α β : Type*}

/-- The things of a list that happened in the window of length `w` from `t` on. -/
def within (time : α → Int) (t w : Int) (xs : List α) : List α :=
  xs.filter fun x => t ≤ time x && time x < t + w

variable {time : α → Int} {w : Int} {xs : List α}

theorem mem_within {t : Int} {x : α} :
    x ∈ within time t w xs ↔ x ∈ xs ∧ t ≤ time x ∧ time x < t + w := by
  rw [within, List.mem_filter, Bool.and_eq_true, decide_eq_true_iff, decide_eq_true_iff]

theorem pairwise_within {R : α → α → Prop} {t : Int} (h : xs.Pairwise R) :
    (within time t w xs).Pairwise R := h.sublist List.filter_sublist

/-- Of things that are at least a window apart, a window has one. -/
theorem within_spaced (h : xs.Pairwise fun x y => time y + w ≤ time x) (t : Int) :
    (within time t w xs).length ≤ 1 := by
  have hpair : (within time t w xs).Pairwise fun x y => time y + w ≤ time x := pairwise_within h
  have hmem : ∀ x ∈ within time t w xs, t ≤ time x ∧ time x < t + w :=
    fun x hx => (mem_within.1 hx).2
  revert hpair hmem
  cases within time t w xs with
  | nil => exact fun _ _ => Nat.zero_le 1
  | cons x rest =>
    intro hpair hmem
    cases rest with
    | nil => exact Nat.le_refl 1
    | cons y rest =>
      have hxy := (List.pairwise_cons.1 hpair).1 y List.mem_cons_self
      have hx := hmem x List.mem_cons_self
      have hy := hmem y (List.mem_cons_of_mem _ List.mem_cons_self)
      omega

/-- Numbers without repetition below a bound are not more than the bound. -/
theorem length_le_of_lt {ns : List Nat} {n : Nat} (h : ns.Nodup)
    (hlt : ∀ i ∈ ns, i < n) : ns.length ≤ n := by
  have hsub : ns ⊆ List.range n := fun i hi => List.mem_range.2 (hlt i hi)
  have hle := (List.subperm_of_subset h hsub).length_le
  rwa [List.length_range] at hle

/-- Things that share no slot within a window are no more than the slots there are. -/
theorem within_slots {slot : α → Nat} {n : Nat}
    (h : xs.Pairwise fun x y => time x < time y + w → slot x ≠ slot y)
    (hlt : ∀ x ∈ xs, slot x < n) (t : Int) :
    (within time t w xs).length ≤ n := by
  have hmem : ∀ x ∈ within time t w xs, t ≤ time x ∧ time x < t + w :=
    fun x hx => (mem_within.1 hx).2
  have hnodup : ((within time t w xs).map slot).Nodup := by
    refine List.pairwise_map.2 ?_
    refine List.Pairwise.imp_of_mem ?_ (pairwise_within h)
    intro x y hx hy hxy
    have hlive : time x < time y + w := by
      have hxt := (hmem x hx).2
      have hyt := (hmem y hy).1
      omega
    exact hxy hlive
  have hbound : ∀ i ∈ (within time t w xs).map slot, i < n := by
    intro i hi
    obtain ⟨x, hx, rfl⟩ := List.mem_map.1 hi
    exact hlt x (mem_within.1 hx).1
  have hle := length_le_of_lt hnodup hbound
  rwa [List.length_map] at hle

/-- What happened at times of other things, each time once, is no more than these. -/
theorem within_of_times {time' : β → Int} {ys : List β} (hnodup : (ys.map time').Nodup)
    (hsub : ∀ y ∈ ys, ∃ x ∈ xs, time x = time' y) (t w : Int) :
    (within time' t w ys).length ≤ (within time t w xs).length := by
  have hnodup' : ((within time' t w ys).map time').Nodup :=
    hnodup.sublist (List.filter_sublist.map time')
  have hsub' : (within time' t w ys).map time' ⊆ (within time t w xs).map time := by
    intro τ hτ
    obtain ⟨y, hy, rfl⟩ := List.mem_map.1 hτ
    obtain ⟨hy, hwindow⟩ := mem_within.1 hy
    obtain ⟨x, hx, heq⟩ := hsub y hy
    rw [← heq] at hwindow ⊢
    exact List.mem_map_of_mem (mem_within.2 ⟨hx, hwindow⟩)
  have hle := (List.subperm_of_subset hnodup' hsub').length_le
  rwa [List.length_map, List.length_map] at hle

end Roamkit.Lib
