import Mathlib.Data.List.Nodup
import Mathlib.Tactic.Common

/-!
# The first, the only one, the single place

What a filter leaves of a list, said of the list itself: its first element is the first
that has the property, and its one element is the only one, or stands at the only place.
-/

namespace Roamkit.Lib

variable {α : Type*}

/-- The first of a list that has a property. -/
def IsFirst (xs : List α) (p : α → Prop) (x : α) : Prop :=
  ∃ before after, xs = before ++ x :: after ∧ p x ∧ ∀ y ∈ before, ¬ p y

/-- The only one of a list that has a property. -/
def IsOnly (xs : List α) (p : α → Prop) (x : α) : Prop := x ∈ xs ∧ p x ∧ ∀ y ∈ xs, p y → y = x

/-- The one place of a list at which the property holds has this element. -/
def IsSole (xs : List α) (p : α → Prop) (x : α) : Prop :=
  ∃ before after, xs = before ++ x :: after ∧ p x ∧ (∀ y ∈ before, ¬ p y) ∧ ∀ y ∈ after, ¬ p y

variable {xs : List α} {p : α → Prop} {f : α → Bool} {x : α}

theorem isFirst_iff (hf : ∀ x ∈ xs, f x = true ↔ p x) :
    (xs.filter f)[0]? = some x ↔ IsFirst xs p x := by
  induction xs with
  | nil =>
    constructor
    · intro h
      cases h
    · rintro ⟨before, after, heq, -⟩
      cases before <;> cases heq
  | cons y ys ih =>
    have ih := ih fun z hz => hf z (List.mem_cons_of_mem _ hz)
    have hfy := hf y List.mem_cons_self
    by_cases hy : f y = true
    · rw [List.filter_cons_of_pos hy]
      constructor
      · intro h
        cases h
        exact ⟨[], ys, rfl, hfy.1 hy, fun z hz => nomatch hz⟩
      · rintro ⟨before, after, heq, hx, hbefore⟩
        cases before with
        | nil => exact congrArg some (List.cons.inj heq).1
        | cons z before =>
          have hz : y = z := (List.cons.inj heq).1
          exact absurd (hfy.1 hy) (hz ▸ hbefore z List.mem_cons_self)
    · rw [List.filter_cons_of_neg hy, ih]
      constructor
      · rintro ⟨before, after, rfl, hx, hbefore⟩
        refine ⟨y :: before, after, rfl, hx, ?_⟩
        intro z hz
        rcases List.mem_cons.1 hz with heq | hz
        · rw [heq]
          exact fun hp => hy (hfy.2 hp)
        · exact hbefore z hz
      · rintro ⟨before, after, heq, hx, hbefore⟩
        cases before with
        | nil =>
          have hxy : y = x := (List.cons.inj heq).1
          exact absurd (hfy.2 (hxy ▸ hx)) hy
        | cons z before =>
          exact ⟨before, after, (List.cons.inj heq).2, hx,
            fun u hu => hbefore u (List.mem_cons_of_mem _ hu)⟩

/-- There is no other first. -/
theorem IsFirst.unique {y : α} (h : IsFirst xs p x) (h' : IsFirst xs p y) : x = y := by
  classical
  have hfirst := (isFirst_iff (f := fun z => decide (p z)) fun z _ => decide_eq_true_iff).2 h
  rw [(isFirst_iff fun z _ => decide_eq_true_iff).2 h'] at hfirst
  exact (Option.some.inj hfirst).symm

theorem isOnly_iff (hnodup : xs.Nodup) (hf : ∀ x ∈ xs, f x = true ↔ p x) :
    xs.filter f = [x] ↔ IsOnly xs p x := by
  constructor
  · intro h
    have hmem : ∀ y, y ∈ xs.filter f ↔ y = x := fun y => by rw [h, List.mem_singleton]
    obtain ⟨hx, hfx⟩ := List.mem_filter.1 ((hmem x).2 rfl)
    refine ⟨hx, (hf x hx).1 hfx, ?_⟩
    intro y hy hp
    exact (hmem y).1 (List.mem_filter.2 ⟨hy, (hf y hy).2 hp⟩)
  · rintro ⟨hx, hp, honly⟩
    refine List.perm_singleton.1 ?_
    refine (List.perm_ext_iff_of_nodup (hnodup.filter _) (List.nodup_singleton x)).2 ?_
    intro y
    rw [List.mem_filter, List.mem_singleton]
    constructor
    · rintro ⟨hy, hfy⟩
      exact honly y hy ((hf y hy).1 hfy)
    · rintro rfl
      exact ⟨hx, (hf y hx).2 hp⟩

theorem isSole_iff (hf : ∀ x, f x = true ↔ p x) :
    xs.filter f = [x] ↔ IsSole xs p x := by
  rw [List.filter_eq_cons_iff]
  constructor
  · rintro ⟨before, after, hxs, hbefore, hx, hafter⟩
    refine ⟨before, after, hxs, (hf x).1 hx, fun y hy hp => hbefore y hy ((hf y).2 hp),
      fun y hy hp => ?_⟩
    exact List.filter_eq_nil_iff.1 hafter y hy ((hf y).2 hp)
  · rintro ⟨before, after, hxs, hx, hbefore, hafter⟩
    refine ⟨before, after, hxs, fun y hy hp => hbefore y hy ((hf y).1 hp), (hf x).2 hx, ?_⟩
    exact List.filter_eq_nil_iff.2 fun y hy hp => hafter y hy ((hf y).1 hp)

/-- What occurs once in all the lists occurs in the list of one element only. -/
theorem eq_of_count_flatMap {β : Type*} [DecidableEq β] {f : α → List β} {b : β}
    (hone : (xs.flatMap f).count b = 1) {y : α} (hx : x ∈ xs) (hy : y ∈ xs) (hbx : b ∈ f x)
    (hby : b ∈ f y) :
    x = y := by
  by_contra hne
  obtain ⟨before, after, rfl⟩ := List.append_of_mem hx
  rw [List.flatMap_append, List.flatMap_cons, List.count_append, List.count_append] at hone
  have hpos : 0 < (f x).count b := List.count_pos_iff.2 hbx
  rcases List.mem_append.1 hy with hbefore | hrest
  · have hmore : 0 < (before.flatMap f).count b :=
      List.count_pos_iff.2 (List.mem_flatMap.2 ⟨y, hbefore, hby⟩)
    omega
  · rcases List.mem_cons.1 hrest with hsame | hafter
    · exact hne hsame.symm
    · have hmore : 0 < (after.flatMap f).count b :=
        List.count_pos_iff.2 (List.mem_flatMap.2 ⟨y, hafter, hby⟩)
      omega

end Roamkit.Lib
