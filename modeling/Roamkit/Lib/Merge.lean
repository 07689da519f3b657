import Mathlib.Data.List.Sort
import Mathlib.Tactic.Common

/-!
# The newest of several sources

The newest rows of several sources are often found by taking the newest of each
and merging what was taken. Nothing is lost that way when each source gives at
least as many rows as are wanted in the end, and gives its newest by the same
time the merge goes by: a row that a source leaves out has enough kept rows before
it, all at least as new.

Rows of one time stand in any order, so the result is the first rows of *some*
list of all rows that never gets newer.
-/

namespace Roamkit.Lib

variable {α β τ : Type*} [LinearOrder τ]

/-- No row is newer than one in front of it. -/
def Falls (time : α → τ) (rows : List α) : Prop := rows.Pairwise fun a b => time b ≤ time a

/-- `result` is the `n` newest of all rows, or all of them when there are fewer. -/
def IsNewest (time : α → τ) (n : Nat) (all result : List α) : Prop :=
  ∃ full : List α, full.Perm all ∧ Falls time full ∧ result = full.take n

/-- Rows stably sorted by time, the newest first. -/
def newestFirst (time : α → τ) (rows : List α) : List α :=
  rows.insertionSort fun a b => time b ≤ time a

theorem newestFirst_perm (time : α → τ) (rows : List α) : (newestFirst time rows).Perm rows :=
  List.perm_insertionSort _ _

theorem newestFirst_falls (time : α → τ) (rows : List α) : Falls time (newestFirst time rows) := by
  have htotal : Std.Total fun a b : α => time b ≤ time a := ⟨fun a b => le_total (time b) (time a)⟩
  have htrans : IsTrans α fun a b => time b ≤ time a := ⟨fun a b c hab hbc => le_trans hbc hab⟩
  exact List.pairwise_insertionSort _ rows

/-- How many of the rows are as new as `t`. -/
def asNew (time : α → τ) (t : τ) (rows : List α) : Nat := (rows.filter (t ≤ time ·)).length

theorem asNew_append (time : α → τ) (t : τ) (xs ys : List α) :
    asNew time t (xs ++ ys) = asNew time t xs + asNew time t ys := by
  unfold asNew
  rw [List.filter_append, List.length_append]

variable {time : α → τ} {all answer rows : List α} {n : Nat}

theorem asNew_perm {xs ys : List α} (t : τ) (h : xs.Perm ys) :
    asNew time t xs = asNew time t ys := by
  unfold asNew
  exact (h.filter _).length_eq

theorem asNew_le (time : α → τ) (t : τ) (rows : List α) : asNew time t rows ≤ rows.length := by
  unfold asNew
  exact List.length_filter_le _ _

theorem asNew_all {t : τ} (h : ∀ x ∈ rows, t ≤ time x) :
    asNew time t rows = rows.length := by
  unfold asNew
  rw [List.filter_eq_self.2 (by simpa using h)]

theorem asNew_none {t : τ} (h : ∀ x ∈ rows, time x < t) : asNew time t rows = 0 := by
  unfold asNew
  rw [List.filter_eq_nil_iff.2 (by simpa using h)]
  rfl

/-- `answer` leaves out rows only where `n` of those it gives are as new as the row. -/
def KeepsNewest (time : α → τ) (n : Nat) (all answer : List α) : Prop :=
  ∃ rest : List α, (answer ++ rest).Perm all ∧ ∀ x ∈ rest, n ≤ asNew time (time x) answer

theorem KeepsNewest.refl (time : α → τ) (n : Nat) (rows : List α) : KeepsNewest time n rows rows :=
  ⟨[], by rw [List.append_nil], fun _ hx => absurd hx List.not_mem_nil⟩

/-- The newest `m` rows of one source leave out no row that is one of the newest `n ≤ m`. -/
theorem IsNewest.keeps {m : Nat} (hnm : n ≤ m) (h : IsNewest time m all answer) :
    KeepsNewest time n all answer := by
  obtain ⟨full, hperm, hfalls, rfl⟩ := h
  refine ⟨full.drop m, by rw [List.take_append_drop]; exact hperm, ?_⟩
  intro x hx
  have hlength : m < full.length := by
    by_contra hshort
    rw [List.drop_eq_nil_of_le (by omega)] at hx
    exact absurd hx List.not_mem_nil
  -- all rows in front of the cut are as new as one behind it
  have hfront : ∀ y ∈ full.take m, time x ≤ time y := by
    intro y hy
    have hsplit := hfalls
    rw [Falls, ← List.take_append_drop m full, List.pairwise_append] at hsplit
    exact hsplit.2.2 y hy x hx
  rw [asNew_all hfront, List.length_take]
  omega

theorem KeepsNewest.append {xs xs' ys ys' : List α} (hx : KeepsNewest time n xs xs')
    (hy : KeepsNewest time n ys ys') : KeepsNewest time n (xs ++ ys) (xs' ++ ys') := by
  obtain ⟨rest, hrest, hleft⟩ := hx
  obtain ⟨rest', hrest', hleft'⟩ := hy
  have hswap : (xs' ++ ys' ++ (rest ++ rest')).Perm ((xs' ++ rest) ++ (ys' ++ rest')) := by
    simp only [List.append_assoc]
    refine List.Perm.append_left xs' ?_
    rw [← List.append_assoc, ← List.append_assoc]
    exact List.perm_append_comm.append_right rest'
  refine ⟨rest ++ rest', hswap.trans (hrest.append hrest'), ?_⟩
  intro x hx
  rw [asNew_append]
  rcases List.mem_append.1 hx with hmem | hmem
  · have h := hleft x hmem
    omega
  · have h := hleft' x hmem
    omega

theorem KeepsNewest.map {time : β → τ} {f : α → β}
    (h : KeepsNewest (fun a => time (f a)) n all answer) :
    KeepsNewest time n (all.map f) (answer.map f) := by
  obtain ⟨rest, hperm, hleft⟩ := h
  refine ⟨rest.map f, by rw [← List.map_append]; exact hperm.map f, ?_⟩
  intro x hx
  obtain ⟨a, ha, rfl⟩ := List.mem_map.1 hx
  have hcount : asNew time (time (f a)) (answer.map f)
      = asNew (fun b => time (f b)) (time (f a)) answer := by
    unfold asNew
    rw [List.filter_map, List.length_map]
    rfl
  rw [hcount]
  exact hleft a ha

/-- Rows that never get newer have `n` rows as new as `t` only when the first `n` are. -/
theorem Falls.take_asNew {t : τ} (hfalls : Falls time rows) (h : n ≤ asNew time t rows) :
    ∀ y ∈ rows.take n, t ≤ time y := by
  intro y hy
  by_contra hold
  rw [not_le] at hold
  have hsplit := hfalls
  rw [Falls, ← List.take_append_drop n rows, List.pairwise_append] at hsplit
  -- nothing behind the cut is newer than `y`, and `y` itself is not counted in front of it
  have hback : asNew time t (rows.drop n) = 0 :=
    asNew_none fun x hx => lt_of_le_of_lt (hsplit.2.2 y hy x hx) hold
  have hfront : asNew time t (rows.take n) < (rows.take n).length := by
    unfold asNew
    rw [List.length_filter_lt_length_iff_exists]
    exact ⟨y, hy, by simpa using hold⟩
  have hsum : asNew time t rows = asNew time t (rows.take n) + asNew time t (rows.drop n) := by
    rw [← asNew_append, List.take_append_drop]
  have hlength : (rows.take n).length ≤ n := List.length_take_le n rows
  omega

/--
**The first `n` of what sources keep, merged, are the newest `n` of all their rows.**

The rows that were left out are put behind the cut again: none of them is newer
than a row in front of it.
-/
theorem KeepsNewest.newest {merged : List α} (h : KeepsNewest time n all answer)
    (hmerged : merged.Perm answer) (hfalls : Falls time merged) :
    IsNewest time n all (merged.take n) := by
  obtain ⟨rest, hperm, hleft⟩ := h
  let behind := newestFirst time (merged.drop n ++ rest)
  have hbehind : behind.Perm (merged.drop n ++ rest) := newestFirst_perm _ _
  have hfront : ∀ x ∈ rest, ∀ y ∈ merged.take n, time x ≤ time y := by
    intro x hx
    apply hfalls.take_asNew
    rw [asNew_perm _ hmerged]
    exact hleft x hx
  have hsplit := hfalls
  rw [Falls, ← List.take_append_drop n merged, List.pairwise_append] at hsplit
  refine ⟨merged.take n ++ behind, ?_, ?_, ?_⟩
  · have hall : (merged.take n ++ (merged.drop n ++ rest)).Perm all := by
      rw [← List.append_assoc, List.take_append_drop]
      exact (hmerged.append_right rest).trans hperm
    exact (hbehind.append_left _).trans hall
  · rw [Falls, List.pairwise_append]
    refine ⟨hsplit.1, newestFirst_falls _ _, ?_⟩
    intro y hy x hx
    rcases List.mem_append.1 (hbehind.mem_iff.1 hx) with hdropped | hmem
    · exact hsplit.2.2 y hy x hdropped
    · exact hfront x hmem y hy
  · by_cases hlong : n ≤ merged.length
    · rw [List.take_append_of_le_length (by rw [List.length_take]; omega), List.take_take,
        Nat.min_self]
    · -- fewer rows than are wanted: nothing was cut off, and no source left a row out
      have hcut : merged.drop n = [] := List.drop_eq_nil_of_le (by omega)
      have hnone : rest = [] := by
        rw [List.eq_nil_iff_forall_not_mem]
        intro x hx
        have hmany := hleft x hx
        have hfew := asNew_le time (time x) answer
        have hsame := hmerged.length_eq
        omega
      have hempty : behind = [] := by
        rw [hcut, hnone] at hbehind
        exact hbehind.eq_nil
      rw [hempty, List.append_nil, List.take_take, Nat.min_self]

end Roamkit.Lib
