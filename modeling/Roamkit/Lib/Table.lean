import Mathlib.Data.List.Pairwise
import Mathlib.Tactic.Common

/-!
# Tables with unique constraints

A table is the list of its rows in the order they were committed. When two rows
may not stand in one table is a property of the kind of row, `Constraint`, and a
table carries the proof that no two of its rows are so: a value that violates a
unique constraint cannot be built. An insert or an update that would violate one
gives no table, which is what the database reports as an integrity error.
-/

namespace Roamkit.Lib

variable {ρ : Type*}

/-- The unique constraints of a kind of row. -/
class Constraint (ρ : Type*) where
  /-- The two rows may not stand in one table. -/
  clash : ρ → ρ → Prop
  symm : ∀ {r r'}, clash r r' → clash r' r
  decClash : DecidableRel clash

namespace Constraint

variable [Constraint ρ]

instance (r r' : ρ) : Decidable (clash r r') := decClash r r'

end Constraint

open Roamkit.Lib.Constraint

/-- What an update of the rows with a property does to one row. -/
def rewrite (p : ρ → Bool) (f : ρ → ρ) (r : ρ) : ρ := if p r then f r else r

theorem rewrite_pos {p : ρ → Bool} {r : ρ} (f : ρ → ρ) (h : p r) : rewrite p f r = f r := by
  rw [rewrite, if_pos h]

theorem rewrite_neg {p : ρ → Bool} {r : ρ} (f : ρ → ρ) (h : ¬ p r) : rewrite p f r = r := by
  rw [rewrite, if_neg h]

/-- Rows no two of which clash. -/
structure Table (ρ : Type*) [Constraint ρ] where
  rows : List ρ
  apart : rows.Pairwise fun r r' => ¬ clash r r'

namespace Table

variable [Constraint ρ]

instance : Membership ρ (Table ρ) := ⟨fun t r => r ∈ t.rows⟩

theorem mem_def {t : Table ρ} {r : ρ} : r ∈ t ↔ r ∈ t.rows := Iff.rfl

/-- A table without rows. -/
def empty : Table ρ := ⟨[], .nil⟩

@[simp] theorem not_mem_empty (r : ρ) : r ∉ (empty : Table ρ) := by simp [mem_def, empty]

/-- The first row with a property: `filter(…).first()`. -/
def find? (t : Table ρ) (p : ρ → Bool) : Option ρ := t.rows.find? p

/-- The table with one more row, `none` when the row clashes with one that is there. -/
def insert? (t : Table ρ) (r : ρ) : Option (Table ρ) :=
  if h : ∀ x ∈ t.rows, ¬ clash x r then
    some ⟨t.rows ++ [r], by
      rw [List.pairwise_append]
      exact ⟨t.apart, List.pairwise_singleton _ _, fun x hx y hy => by
        rw [List.mem_singleton.1 hy]
        exact h x hx⟩⟩
  else none

/-- Rewriting a row leaves what it clashes with as it is. -/
def Keeps (f : ρ → ρ) : Prop := ∀ r r', clash (f r) r' → clash r r'

theorem Keeps.rewrite {f : ρ → ρ} (hf : Keeps f) (p : ρ → Bool) : Keeps (rewrite p f) := by
  intro r r' h
  by_cases hp : p r
  · rw [rewrite_pos f hp] at h
    exact hf r r' h
  · rwa [rewrite_neg f hp] at h

theorem Keeps.both {f : ρ → ρ} (hf : Keeps f) {r r' : ρ} (h : clash (f r) (f r')) : clash r r' :=
  symm (hf r' r (symm (hf r (f r') h)))

/-- Rewrite the rows with a property, in columns no unique constraint is about. -/
def update (t : Table ρ) (p : ρ → Bool) (f : ρ → ρ) (hf : Keeps f) : Table ρ where
  rows := t.rows.map (rewrite p f)
  apart := by
    rw [List.pairwise_map]
    exact t.apart.imp fun hn h => hn ((hf.rewrite p).both h)

/-- Rewrite the rows with a property, `none` when two rows then clash. -/
def update? (t : Table ρ) (p : ρ → Bool) (f : ρ → ρ) : Option (Table ρ) :=
  if h : (t.rows.map (rewrite p f)).Pairwise fun r r' => ¬ clash r r' then
    some ⟨t.rows.map (rewrite p f), h⟩
  else none

/-! ## Rows that clash are one row -/

theorem eq_of_clash {t : Table ρ} {r q : ρ} (hr : r ∈ t) (hq : q ∈ t) (h : clash r q) :
    r = q := by
  have : Std.Symm fun x y : ρ => ¬ clash x y := ⟨fun _ _ hn hc => hn (symm hc)⟩
  by_contra hne
  exact t.apart.forall hr hq hne h

/-! ## Looking a row up -/

theorem mem_of_find? {t : Table ρ} {p : ρ → Bool} {r : ρ} (h : t.find? p = some r) : r ∈ t :=
  List.mem_of_find?_eq_some h

theorem prop_of_find? {t : Table ρ} {p : ρ → Bool} {r : ρ} (h : t.find? p = some r) : p r :=
  List.find?_some h

theorem not_of_find? {t : Table ρ} {p : ρ → Bool} (h : t.find? p = none) {r : ρ} (hr : r ∈ t) :
    ¬ p r := List.find?_eq_none.1 h r hr

theorem find?_eq_none {t : Table ρ} {p : ρ → Bool} : t.find? p = none ↔ ∀ r ∈ t, ¬ p r :=
  List.find?_eq_none

/-- A property that only clashing rows of the table share finds the row that has it. -/
theorem find?_of_mem_where {t : Table ρ} {p : ρ → Bool} {r : ρ} (hr : r ∈ t) (hp : p r)
    (hu : ∀ x ∈ t, p x → clash x r) : t.find? p = some r := by
  cases hq : t.find? p with
  | none => exact absurd hp (not_of_find? hq hr)
  | some x =>
    have hx := mem_of_find? hq
    rw [eq_of_clash hx hr (hu x hx (prop_of_find? hq))]

theorem find?_of_mem {t : Table ρ} {p : ρ → Bool} {r : ρ} (hr : r ∈ t) (hp : p r)
    (hu : ∀ x, p x → clash x r) : t.find? p = some r :=
  find?_of_mem_where hr hp fun x _ => hu x

/-! ## Inserting -/

theorem rows_insert {t t' : Table ρ} {r : ρ} (h : t.insert? r = some t') :
    t'.rows = t.rows ++ [r] := by
  rw [insert?] at h
  split at h
  · cases h; rfl
  · cases h

theorem mem_insert {t t' : Table ρ} {r x : ρ} (h : t.insert? r = some t') :
    x ∈ t' ↔ x ∈ t ∨ x = r := by
  rw [mem_def, rows_insert h, List.mem_append, List.mem_singleton, mem_def]

theorem find?_insert {t t' : Table ρ} {r : ρ} (h : t.insert? r = some t') (p : ρ → Bool) :
    t'.find? p = (t.find? p).or (if p r then some r else none) := by
  rw [find?, rows_insert h, List.find?_append, find?]
  cases hp : p r <;> simp [hp]

theorem apart_of_insert {t t' : Table ρ} {r x : ρ} (h : t.insert? r = some t') (hx : x ∈ t) :
    ¬ clash x r := by
  rw [insert?] at h
  split at h
  · rename_i hn
    exact hn x hx
  · cases h

theorem clash_of_insert_none {t : Table ρ} {r : ρ} (h : t.insert? r = none) :
    ∃ x ∈ t, clash x r := by
  rw [insert?] at h
  split at h
  · cases h
  rename_i hn
  by_contra hx
  exact hn fun x hm hc => hx ⟨x, hm, hc⟩

theorem insert_iff {t : Table ρ} {r : ρ} :
    (∃ t', t.insert? r = some t') ↔ ∀ x ∈ t, ¬ clash x r := by
  constructor
  · intro ⟨t', h⟩ x hx
    exact apart_of_insert h hx
  · intro h
    cases hi : t.insert? r with
    | some t' => exact ⟨t', rfl⟩
    | none =>
      obtain ⟨x, hx, hc⟩ := clash_of_insert_none hi
      exact absurd hc (h x hx)

/-! ## Updating -/

@[simp] theorem rows_update (t : Table ρ) (p : ρ → Bool) (f : ρ → ρ) (hf : Keeps f) :
    (t.update p f hf).rows = t.rows.map (rewrite p f) := rfl

theorem mem_update {t : Table ρ} {p : ρ → Bool} {f : ρ → ρ} {hf : Keeps f} {x : ρ} :
    x ∈ t.update p f hf ↔ ∃ r ∈ t, rewrite p f r = x := List.mem_map

theorem mem_rewritten {t : Table ρ} {p : ρ → Bool} {f : ρ → ρ} {r : ρ} (hr : r ∈ t) :
    rewrite p f r ∈ t.rows.map (rewrite p f) := List.mem_map.2 ⟨r, hr, rfl⟩

/-- A row of a rewritten table is a row that was there, rewritten if it has the property. -/
theorem of_mem_rewritten {t : Table ρ} {p : ρ → Bool} {f : ρ → ρ} {x : ρ}
    (h : x ∈ t.rows.map (rewrite p f)) : ∃ r ∈ t, (p r ∧ x = f r) ∨ (¬ p r ∧ x = r) := by
  obtain ⟨r, hr, rfl⟩ := List.mem_map.1 h
  by_cases hp : p r
  · exact ⟨r, hr, .inl ⟨hp, rewrite_pos f hp⟩⟩
  · exact ⟨r, hr, .inr ⟨hp, rewrite_neg f hp⟩⟩

/-- A look-up by what an update does not write finds the rewritten row. -/
theorem find?_update (t : Table ρ) (p q : ρ → Bool) (f : ρ → ρ) (hf : Keeps f)
    (hq : ∀ r, q (f r) = q r) : (t.update p f hf).find? q = (t.find? q).map (rewrite p f) := by
  have hsame : q ∘ rewrite p f = q := by
    funext r
    unfold Function.comp rewrite
    split
    · exact hq r
    · rfl
  rw [find?, rows_update, List.find?_map, hsame, find?]

theorem rows_update? {t t' : Table ρ} {p : ρ → Bool} {f : ρ → ρ} (h : t.update? p f = some t') :
    t'.rows = t.rows.map (rewrite p f) := by
  rw [update?] at h
  split at h
  · cases h; rfl
  · cases h

theorem mem_update? {t t' : Table ρ} {p : ρ → Bool} {f : ρ → ρ} {x : ρ}
    (h : t.update? p f = some t') : x ∈ t' ↔ ∃ r ∈ t, rewrite p f r = x := by
  rw [mem_def, rows_update? h]
  exact List.mem_map

/-- A row that comes to have a property is one more row with it. -/
theorem countP_rewrite {t : Table ρ} {p P : ρ → Bool} {f : ρ → ρ} {r : ρ} (hr : r ∈ t) (hp : p r)
    (hu : ∀ x, p x → clash x r) (hn : P r = false) (hy : P (f r) = true) :
    (t.rows.map (rewrite p f)).countP P = t.rows.countP P + 1 := by
  obtain ⟨as, bs, hrows⟩ := List.append_of_mem (mem_def.1 hr)
  have hapart := t.apart
  rw [hrows, List.pairwise_append, List.pairwise_cons] at hapart
  obtain ⟨_, ⟨hbs, _⟩, has⟩ := hapart
  have same : ∀ xs : List ρ, (∀ x ∈ xs, ¬ p x) → xs.map (rewrite p f) = xs := by
    intro xs hxs
    rw [List.map_congr_left (fun x hx => rewrite_neg f (hxs x hx)), List.map_id']
  have hleft := same as fun x hx hpx => has x hx r List.mem_cons_self (hu x hpx)
  have hright := same bs fun x hx hpx => hbs x hx (symm (hu x hpx))
  rw [hrows, List.map_append, List.map_cons, hleft, hright, rewrite_pos f hp, List.countP_append,
    List.countP_append, List.countP_cons_of_pos hy, List.countP_cons_of_neg (by simp [hn])]
  omega

/-- A rewrite that leaves a property as it is leaves the number of rows with it. -/
theorem countP_rewrite_same {t : Table ρ} {p P : ρ → Bool} {f : ρ → ρ}
    (h : ∀ r ∈ t, P (rewrite p f r) = P r) :
    (t.rows.map (rewrite p f)).countP P = t.rows.countP P := by
  rw [List.countP_map]
  exact List.countP_congr fun r hr => by rw [Function.comp_apply, h r hr]

/-- A property that only clashing rows share is one row's at most. -/
theorem countP_le_one (t : Table ρ) {P : ρ → Bool} (h : ∀ r q, P r → P q → clash r q) :
    t.rows.countP P ≤ 1 := by
  have hall : ∀ rows : List ρ, (rows.Pairwise fun r r' => ¬ clash r r') → rows.countP P ≤ 1 := by
    intro rows hrows
    induction rows with
    | nil => simp
    | cons r rows ih =>
      rw [List.pairwise_cons] at hrows
      by_cases hr : P r = true
      · have hnone : rows.countP P = 0 :=
          List.countP_eq_zero.2 fun q hq hPq => hrows.1 q hq (h r q hr hPq)
        have hcons : (r :: rows).countP P = rows.countP P + 1 := List.countP_cons_of_pos hr
        omega
      · rw [List.countP_cons_of_neg hr]
        exact ih hrows.2
  exact hall t.rows t.apart

/-! ## Removing -/

/-- Remove the rows with a property. -/
def remove (t : Table ρ) (p : ρ → Bool) : Table ρ where
  rows := t.rows.filter (!p ·)
  apart := t.apart.filter _

theorem mem_remove {t : Table ρ} {p : ρ → Bool} {x : ρ} : x ∈ t.remove p ↔ x ∈ t ∧ p x = false := by
  rw [mem_def, remove, List.mem_filter, mem_def, Bool.not_eq_true']

theorem find?_remove (t : Table ρ) (p q : ρ → Bool) :
    (t.remove p).find? q = t.find? fun r => !p r && q r := by
  rw [find?, remove, List.find?_filter, find?]
  congr
  funext r
  cases p r <;> cases q r <;> rfl

end Table

end Roamkit.Lib
