import Mathlib.Data.List.Sort
import Mathlib.Tactic.Common

/-!
# One of each key, in order

A loop that skips what has been seen keeps the first element of each key, and a sort
by the key puts these in an order that is strict: no two of them have one key. Such a
list is known up to its elements of one key by the set of its keys alone.
-/

namespace Roamkit.Lib

variable {α κ : Type*} [LinearOrder κ]

/-- The first element of each key that has not been seen. -/
def firsts (key : α → κ) (seen : List κ) : List α → List α
  | [] => []
  | x :: xs => if key x ∈ seen then firsts key seen xs else x :: firsts key (key x :: seen) xs

/-- The first element of each key, sorted by the key. -/
def sortFirsts (key : α → κ) (xs : List α) : List α :=
  (firsts key [] xs).insertionSort fun a b => key a ≤ key b

/-- Strictly increasing in the key. -/
def Rises (key : α → κ) (xs : List α) : Prop := xs.Pairwise fun a b => key a < key b

theorem firsts_sublist (key : α → κ) (seen : List κ) (xs : List α) :
    (firsts key seen xs).Sublist xs := by
  induction xs generalizing seen with
  | nil => exact List.Sublist.refl _
  | cons x xs ih =>
    unfold firsts
    by_cases hseen : key x ∈ seen
    · rw [if_pos hseen]
      exact (ih seen).cons x
    · rw [if_neg hseen]
      exact (ih (key x :: seen)).cons_cons x

/-- What is kept has the keys of the list, but for those seen before. -/
theorem mem_keys_firsts (key : α → κ) (seen : List κ) (xs : List α) (k : κ) :
    k ∈ (firsts key seen xs).map key ↔ k ∈ xs.map key ∧ k ∉ seen := by
  induction xs generalizing seen with
  | nil => simp [firsts]
  | cons x xs ih =>
    unfold firsts
    by_cases hseen : key x ∈ seen
    · rw [if_pos hseen, ih, List.map_cons, List.mem_cons]
      constructor
      · intro ⟨hmem, hnew⟩
        exact ⟨.inr hmem, hnew⟩
      · intro ⟨hmem, hnew⟩
        rcases hmem with rfl | hmem
        · exact absurd hseen hnew
        · exact ⟨hmem, hnew⟩
    · rw [if_neg hseen, List.map_cons, List.mem_cons, ih, List.map_cons, List.mem_cons,
        List.mem_cons, not_or]
      by_cases hk : k = key x
      · simp [hk, hseen]
      · simp [hk]

theorem firsts_nodup (key : α → κ) (seen : List κ) (xs : List α) :
    ((firsts key seen xs).map key).Nodup := by
  induction xs generalizing seen with
  | nil => exact List.nodup_nil
  | cons x xs ih =>
    unfold firsts
    by_cases hseen : key x ∈ seen
    · rw [if_pos hseen]
      exact ih seen
    · rw [if_neg hseen, List.map_cons, List.nodup_cons]
      refine ⟨?_, ih _⟩
      intro hagain
      exact ((mem_keys_firsts key _ xs _).1 hagain).2 List.mem_cons_self

variable {key : α → κ} {xs : List α}

/-- Sorted by keys no two of which are the same, a list strictly increases. -/
theorem rises_insertionSort (h : (xs.map key).Nodup) :
    Rises key (xs.insertionSort fun a b => key a ≤ key b) := by
  have htotal : Std.Total fun a b : α => key a ≤ key b := ⟨fun a b => le_total (key a) (key b)⟩
  have htrans : IsTrans α fun a b => key a ≤ key b := ⟨fun a b c hab hbc => le_trans hab hbc⟩
  have hsorted := List.pairwise_insertionSort (fun a b => key a ≤ key b) xs
  have hperm := List.perm_insertionSort (fun a b => key a ≤ key b) xs
  have hne : (xs.insertionSort fun a b => key a ≤ key b).Pairwise fun a b => key a ≠ key b := by
    have hnodup := (hperm.map key).nodup_iff.2 h
    exact List.pairwise_map.1 hnodup
  have hboth := hsorted.and hne
  exact hboth.imp fun hab => lt_of_le_of_ne hab.1 hab.2

theorem sortFirsts_rises (key : α → κ) (xs : List α) : Rises key (sortFirsts key xs) :=
  rises_insertionSort (firsts_nodup key [] xs)

theorem mem_keys_sortFirsts (key : α → κ) (xs : List α) (k : κ) :
    k ∈ (sortFirsts key xs).map key ↔ k ∈ xs.map key := by
  have hperm := List.perm_insertionSort (fun a b => key a ≤ key b) (firsts key [] xs)
  have hfirsts := mem_keys_firsts key [] xs k
  unfold sortFirsts
  rw [(hperm.map key).mem_iff, hfirsts]
  simp

theorem mem_of_mem_sortFirsts {x : α} (h : x ∈ sortFirsts key xs) : x ∈ xs := by
  unfold sortFirsts at h
  rw [(List.perm_insertionSort _ _).mem_iff] at h
  exact (firsts_sublist key [] xs).subset h

theorem Rises.map (h : Rises key xs) : (xs.map key).Pairwise (· < ·) := by
  rw [List.pairwise_map]
  exact h

/-- Two lists that strictly increase have the same keys in the same order when they have the same
set of keys. -/
theorem Rises.keys_eq {β : Type*} {key' : β → κ} {ys : List β} (hx : Rises key xs)
    (hy : Rises key' ys) (hsame : ∀ k, k ∈ xs.map key ↔ k ∈ ys.map key') :
    xs.map key = ys.map key' := by
  have hirrefl : Std.Irrefl fun a b : κ => a < b := ⟨lt_irrefl⟩
  exact List.Pairwise.eq_of_mem_iff hx.map hy.map hsame

end Roamkit.Lib
