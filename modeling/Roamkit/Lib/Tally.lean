import Mathlib.Algebra.BigOperators.Group.List.Basic
import Mathlib.Tactic.Common

/-!
# Running totals

An account is the list of the movements made on it. Two readings of that list
are kept by programs that post to an account: its *total*, often cached beside
the list, and the total *up to and including* each movement, written on the
movement itself. `Running` says the second reading is right.

A `Statement` is the list on its own, with the one thing a prepaid account
promises: at no point of it is the total below zero.
-/

namespace Roamkit.Lib

variable {α M : Type*} [AddMonoid M]

/-- What the movements of a list add up to. -/
def total (δ : α → M) (xs : List α) : M := (xs.map δ).sum

@[simp] theorem total_nil (δ : α → M) : total δ [] = 0 := rfl

@[simp] theorem total_append (δ : α → M) (xs ys : List α) :
    total δ (xs ++ ys) = total δ xs + total δ ys := by
  rw [total, List.map_append, List.sum_append]
  rfl

@[simp] theorem total_singleton (δ : α → M) (x : α) : total δ [x] = δ x := by
  rw [total, List.map_singleton, List.sum_singleton]

/-! ### Totals by key -/

section ByKey

variable {N κ : Type*} [AddCommMonoid N] [DecidableEq κ]

/-- What one movement adds to the totals of some keys. -/
theorem total_of_key (d : N) {k : κ} {ks : List κ} (hks : ks.Nodup) (hk : k ∈ ks) :
    total (fun l => if k = l then d else 0) ks = d := by
  induction ks with
  | nil => cases hk
  | cons l ks ih =>
    rw [List.nodup_cons] at hks
    have hcons : total (fun l => if k = l then d else 0) (l :: ks)
        = (if k = l then d else 0) + total (fun l => if k = l then d else 0) ks := by
      simp [total]
    rw [hcons]
    by_cases hkl : k = l
    · -- the key does not come again
      have hrest : total (fun l => if k = l then d else 0) ks = 0 := by
        refine List.sum_eq_zero ?_
        intro x hx
        obtain ⟨m, hm, rfl⟩ := List.mem_map.1 hx
        refine if_neg ?_
        rintro rfl
        exact hks.1 (hkl ▸ hm)
      rw [if_pos hkl, hrest, add_zero]
    · have hmem : k ∈ ks := by
        rcases List.mem_cons.1 hk with h | h
        · exact absurd h hkl
        · exact h
      rw [if_neg hkl, zero_add, ih hks.2 hmem]

/-- **Totals by key add up to the total.** -/
theorem total_by_key (δ : α → N) (key : α → κ) {ks : List κ} (hks : ks.Nodup) {xs : List α}
    (h : ∀ x ∈ xs, key x ∈ ks) :
    total (fun k => total δ (xs.filter (key · = k))) ks = total δ xs := by
  induction xs with
  | nil => simp [total]
  | cons x xs ih =>
    have hsplit : ∀ k, total δ ((x :: xs).filter (key · = k))
        = (if key x = k then δ x else 0) + total δ (xs.filter (key · = k)) := by
      intro k
      by_cases hk : key x = k
      · rw [List.filter_cons_of_pos (by simpa using hk), if_pos hk]
        simp [total]
      · rw [List.filter_cons_of_neg (by simpa using hk), if_neg hk, zero_add]
    have hadd : total (fun k => total δ ((x :: xs).filter (key · = k))) ks
        = total (fun k => if key x = k then δ x else 0) ks
          + total (fun k => total δ (xs.filter (key · = k))) ks := by
      rw [funext hsplit]
      exact List.sum_map_add
    rw [hadd, total_of_key (δ x) hks (h x List.mem_cons_self),
      ih fun y hy => h y (List.mem_cons_of_mem _ hy)]
    simp [total]

end ByKey

/-- Each movement records the total up to and including itself. -/
def Running (δ after : α → M) (xs : List α) : Prop :=
  ∀ pre x post, xs = pre ++ x :: post → after x = total δ pre + δ x

theorem running_nil (δ after : α → M) : Running δ after [] := by
  intro pre x post h
  exact absurd h.symm (by simp)

theorem running_snoc {δ after : α → M} {xs : List α} {x : α} (h : Running δ after xs)
    (hx : after x = total δ xs + δ x) : Running δ after (xs ++ [x]) := by
  intro pre y post heq
  rcases List.eq_nil_or_concat post with rfl | ⟨post', z, rfl⟩
  · -- the new movement is the last one
    obtain ⟨rfl, hy⟩ := List.append_inj' heq rfl
    cases hy
    exact hx
  · refine h pre y post' ?_
    have heq' : xs ++ [x] = (pre ++ y :: post') ++ [z] := by simpa using heq
    exact (List.append_inj' heq' rfl).1

end Roamkit.Lib
