import Mathlib.Tactic.Common

/-!
# Retry loops

`for … in range(n): try … except …: continue`. An attempt that fails with an error that is
caught is made again, on what the next attempt reads; the first one that does not decides.
-/

namespace Roamkit.Lib

variable {α β ε : Type}

/-- Whether an attempt ends in an error that is caught. -/
def lost (again : ε → Bool) : Except ε β → Bool
  | .ok _ => false
  | .error e => again e

/-- The attempts in order, until one is not lost; `exhausted` after the last. -/
def retry (again : ε → Bool) (exhausted : ε) (f : α → Except ε β) : List α → Except ε β
  | [] => .error exhausted
  | a :: as => if lost again (f a) then retry again exhausted f as else f a

section Retry

variable {again : ε → Bool} {exhausted : ε} {f : α → Except ε β}

theorem retry_cons_lost {a : α} {as : List α} (h : lost again (f a) = true) :
    retry again exhausted f (a :: as) = retry again exhausted f as :=
  if_pos h

theorem retry_cons_decides {a : α} {as : List α} (h : lost again (f a) = false) :
    retry again exhausted f (a :: as) = f a := by
  have hnot : ¬ lost again (f a) = true := by rw [h]; exact Bool.false_ne_true
  exact if_neg hnot

/-- The first attempt that is not lost decides; `q` says which are lost. -/
theorem retry_decides {q : α → Bool} {as : List α} {a : α} (hq : ∀ a ∈ as, lost again (f a) = q a)
    (h : as.find? (!q ·) = some a) : retry again exhausted f as = f a := by
  induction as with
  | nil => cases h
  | cons b as ih =>
    have hb := hq b (List.mem_cons_self ..)
    cases hlost : q b with
    | true =>
      rw [List.find?_cons_of_neg (by rw [hlost]; exact Bool.false_ne_true)] at h
      rw [retry_cons_lost (hb.trans hlost)]
      exact ih (fun a ha => hq a (List.mem_cons_of_mem _ ha)) h
    | false =>
      rw [List.find?_cons_of_pos (by rw [hlost]; rfl)] at h
      cases h
      exact retry_cons_decides (hb.trans hlost)

/-- Where every attempt is lost, so is the loop. -/
theorem retry_exhausted {q : α → Bool} {as : List α} (hq : ∀ a ∈ as, lost again (f a) = q a)
    (h : as.find? (!q ·) = none) : retry again exhausted f as = .error exhausted := by
  induction as with
  | nil => rfl
  | cons b as ih =>
    have hlost : q b = true := by
      have hnot := List.find?_eq_none.1 h b (List.mem_cons_self ..)
      simpa using hnot
    have hb := (hq b (List.mem_cons_self ..)).trans hlost
    rw [List.find?_cons_of_neg (by rw [hlost]; exact Bool.false_ne_true)] at h
    rw [retry_cons_lost hb]
    exact ih (fun a ha => hq a (List.mem_cons_of_mem _ ha)) h

end Retry

end Roamkit.Lib
