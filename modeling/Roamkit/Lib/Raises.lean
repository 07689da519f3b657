import Mathlib.Tactic.Common

/-!
# What a computation may raise

That every error of a computation has a property is a property of its parts: of what a
sequence is made of, and of what a handler makes of an error.
-/

namespace Roamkit.Lib

variable {ε ε' α β : Type} {p : ε → Prop}

/-- All it raises has the property. -/
def RaisesOnly (p : ε → Prop) (x : Except ε α) : Prop := ∀ e, x = .error e → p e

theorem raisesOnly_ok {a : α} : RaisesOnly p (.ok a : Except ε α) := fun _ h => nomatch h

theorem raisesOnly_error {e : ε} : RaisesOnly p (.error e : Except ε α) ↔ p e := by
  constructor
  · intro h
    exact h e rfl
  · intro h e' heq
    cases heq
    exact h

variable {x : Except ε α} {f : α → Except ε β}

theorem raisesOnly_bind :
    RaisesOnly p (x >>= f) ↔ RaisesOnly p x ∧ ∀ a, x = .ok a → RaisesOnly p (f a) := by
  cases x with
  | error e =>
    constructor
    · intro h
      exact ⟨raisesOnly_error.2 (raisesOnly_error.1 h), fun a ha => nomatch ha⟩
    · rintro ⟨h, -⟩
      exact raisesOnly_error.2 (raisesOnly_error.1 h)
  | ok a =>
    constructor
    · intro h
      refine ⟨raisesOnly_ok, fun a' ha => ?_⟩
      cases ha
      exact h
    · rintro ⟨-, h⟩
      exact h a rfl

/-- What a handler raises is what it makes of an error. -/
theorem raisesOnly_mapError {p : ε' → Prop} {t : ε → ε'} :
    RaisesOnly p (x.mapError t) ↔ RaisesOnly (fun e => p (t e)) x := by
  cases x with
  | error e =>
    show RaisesOnly p (.error (t e)) ↔ _
    rw [raisesOnly_error, raisesOnly_error]
  | ok a => exact iff_of_true raisesOnly_ok raisesOnly_ok

theorem mapError_ok {t : ε → ε'} {a : α} : x.mapError t = .ok a ↔ x = .ok a := by
  cases x with
  | error e =>
    constructor
    · intro h
      cases h
    · intro h
      cases h
  | ok b =>
    show (Except.ok b : Except ε' α) = .ok a ↔ _
    rw [Except.ok.injEq, Except.ok.injEq]

/-- After what returns comes the rest. -/
theorem bind_of_ok {a : α} (h : x = .ok a) (f : α → Except ε β) : (x >>= f) = f a := by
  rw [h]
  rfl

theorem bind_ok_iff {b : β} :
    (x >>= f) = .ok b ↔ ∃ a, x = .ok a ∧ f a = .ok b := by
  cases x with
  | error e =>
    constructor
    · intro h
      cases h
    · rintro ⟨a, h, -⟩
      cases h
  | ok a =>
    constructor
    · intro h
      exact ⟨a, rfl, h⟩
    · rintro ⟨a', h, hf⟩
      cases h
      exact hf

/-- What a list is mapped to raises what an element does. -/
theorem raisesOnly_mapM {xs : List α} (h : ∀ x ∈ xs, RaisesOnly p (f x)) :
    RaisesOnly p (xs.mapM f) := by
  induction xs with
  | nil => exact raisesOnly_ok
  | cons x xs ih =>
    rw [List.mapM_cons, raisesOnly_bind]
    refine ⟨h x List.mem_cons_self, fun y _ => ?_⟩
    rw [raisesOnly_bind]
    exact ⟨ih fun y hy => h y (List.mem_cons_of_mem _ hy), fun ys _ => raisesOnly_ok⟩

/-- A filter that raises nothing is a filter. -/
theorem filterM_ok {f : α → Except ε Bool} {g : α → Bool} {xs : List α}
    (h : ∀ x ∈ xs, f x = .ok (g x)) :
    xs.filterM f = .ok (xs.filter g) := by
  have haux : ∀ acc : List α, xs.filterAuxM f acc = .ok ((xs.filter g).reverse ++ acc) := by
    induction xs with
    | nil => exact fun acc => rfl
    | cons x xs ih =>
      intro acc
      have ih := ih fun y hy => h y (List.mem_cons_of_mem _ hy)
      unfold List.filterAuxM
      rw [h x List.mem_cons_self]
      show xs.filterAuxM f (cond (g x) (x :: acc) acc) = _
      rw [ih]
      cases hx : g x with
      | true =>
        rw [List.filter_cons_of_pos hx, List.reverse_cons, List.append_assoc]
        rfl
      | false =>
        rw [List.filter_cons_of_neg (by rw [hx]; exact Bool.false_ne_true)]
        rfl
  unfold List.filterM
  rw [haux, List.append_nil]
  show Except.ok (xs.filter g).reverse.reverse = _
  rw [List.reverse_reverse]

end Roamkit.Lib
