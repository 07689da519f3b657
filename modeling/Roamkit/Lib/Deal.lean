import Mathlib.Logic.Function.Basic
import Mathlib.Tactic.Common

/-!
# Dealing out of buckets

Each of a list of takers takes the next item of the bucket of its kind, and goes without
where that is empty. So the `k`-th taker of a kind gets the `k`-th item of its bucket.
-/

namespace Roamkit.Lib

variable {α β κ : Type*} [DecidableEq κ]

/-- The takers with what they take. -/
def deal (kind : α → κ) (buckets : κ → List β) : List α → List (α × β)
  | [] => []
  | a :: as =>
    match buckets (kind a) with
    | [] => deal kind buckets as
    | b :: rest => (a, b) :: deal kind (Function.update buckets (kind a) rest) as

variable {kind : α → κ} {buckets : κ → List β} {as : List α}

theorem deal_empty {a : α} (h : buckets (kind a) = []) :
    deal kind buckets (a :: as) = deal kind buckets as := by
  rw [deal, h]

theorem deal_taken {a : α} {b : β} {rest : List β} (h : buckets (kind a) = b :: rest) :
    deal kind buckets (a :: as)
      = (a, b) :: deal kind (Function.update buckets (kind a) rest) as := by
  rw [deal, h]

/-- **The `k`-th of a kind takes the `k`-th item.** -/
theorem mem_deal {a : α} {b : β} :
    (a, b) ∈ deal kind buckets as
      ↔ ∃ k : Nat, (as.filter (kind · = kind a))[k]? = some a
        ∧ (buckets (kind a))[k]? = some b := by
  induction as generalizing buckets with
  | nil =>
    constructor
    · intro h
      cases h
    · rintro ⟨k, hk, -⟩
      cases hk
  | cons c as ih =>
    -- a taker of another kind takes nothing that is of this one
    have hother : kind c ≠ kind a
        → (c :: as).filter (kind · = kind a) = as.filter (kind · = kind a) :=
      fun hne => List.filter_cons_of_neg (fun hc => hne (of_decide_eq_true hc))
    have hsame : kind c = kind a
        → (c :: as).filter (kind · = kind a) = c :: as.filter (kind · = kind a) :=
      fun heq => List.filter_cons_of_pos (decide_eq_true heq)
    unfold deal
    split
    · rename_i hempty
      rw [ih]
      by_cases hkind : kind c = kind a
      · rw [← hkind, hempty]
        constructor
        · rintro ⟨k, -, hk⟩
          cases hk
        · rintro ⟨k, -, hk⟩
          cases hk
      · rw [hother hkind]
    · rename_i item rest hbucket
      rw [List.mem_cons, ih]
      by_cases hkind : kind c = kind a
      · rw [hsame hkind, ← hkind, Function.update_self, hbucket]
        constructor
        · rintro (heq | ⟨k, ha, hb⟩)
          · cases heq
            exact ⟨0, rfl, rfl⟩
          · exact ⟨k + 1, ha, hb⟩
        · rintro ⟨k, ha, hb⟩
          cases k with
          | zero =>
            cases ha
            cases hb
            exact .inl rfl
          | succ k => exact .inr ⟨k, ha, hb⟩
      · rw [hother hkind, Function.update_of_ne (Ne.symm hkind)]
        constructor
        · rintro (heq | h)
          · cases heq
            exact absurd rfl hkind
          · exact h
        · exact .inr

end Roamkit.Lib
