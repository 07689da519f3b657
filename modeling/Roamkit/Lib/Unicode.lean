import Mathlib.Data.List.SplitBy
import Roamkit.Lib.PyText

/-!
# Normal form KC

The algorithm of the Unicode standard over tables that come in as `UnicodeData`:
decompose, put the combining characters in order, compose again. A text is cut in
front of the characters that join nothing before them, and the parts are normalized
each on its own.
-/

namespace Roamkit.Lib

/-- Columns of the Unicode character database. -/
structure UnicodeData where
  /-- The full compatibility decomposition of a character. -/
  decomposition : Char → List Char
  /-- The canonical combining class. -/
  combining : Char → Nat
  /-- The primary composite of two characters. -/
  composite : Char → Char → Option Char
  /-- Whether a character may join one before it. -/
  joins : Char → Bool
  /-- The full upper case of a character. -/
  uppercase : Char → List Char

namespace UnicodeData

variable (u : UnicodeData)

/-! ## The algorithm -/

/-- A character goes behind those of a lower class that combine with the same starter. -/
def place (c : Char) : List Char → List Char
  | [] => [c]
  | d :: ds =>
    if u.combining d ≠ 0 ∧ u.combining d < u.combining c then d :: place c ds else c :: d :: ds

/-- The canonical ordering. -/
def reorder : List Char → List Char
  | [] => []
  | c :: cs => u.place c (reorder cs)

/--
Composition from a starter, behind which some characters were passed over; `last` is
the class of the last of them. A character of no higher class is blocked by it.
-/
def composeFrom (starter : Char) (passed : List Char) (last : Nat) : List Char → List Char
  | [] => starter :: passed
  | c :: cs =>
    match (if passed ≠ [] ∧ u.combining c ≤ last then none else u.composite starter c) with
    | some p => composeFrom p passed last cs
    | none =>
      if u.combining c = 0 then starter :: passed ++ composeFrom c [] 0 cs
      else composeFrom starter (passed ++ [c]) (u.combining c) cs

/-- The canonical composition. -/
def compose : List Char → List Char
  | [] => []
  | c :: cs => if u.combining c ≠ 0 then c :: compose cs else u.composeFrom c [] 0 cs

/-- Normal form KC of a list of characters. -/
def normalForm (cs : List Char) : List Char := u.compose (u.reorder (cs.flatMap u.decomposition))

/-- `unicodedata.normalize("NFKC", s)` -/
def nfkc (s : String) : String := String.ofList (u.normalForm s.toList)

/-- A list of characters in upper case. -/
def capitals (cs : List Char) : List Char := cs.flatMap u.uppercase

/-- `s.upper()` -/
def upper (s : String) : String := String.ofList (u.capitals s.toList)

/-- The combining character sequences of a text. -/
def sequences (cs : List Char) : List (List Char) := cs.splitBy fun _ c => u.joins c

/-- What begins with no character that joins the one before it. -/
def Detached (cs : List Char) : Prop := ∀ c ∈ cs.head?, u.joins c = false

variable {u}

theorem detached_nil : u.Detached [] := fun _ h => by cases h

theorem detached_cons {c : Char} {cs : List Char} : u.Detached (c :: cs) ↔ u.joins c = false := by
  constructor
  · exact fun h => h c rfl
  · intro h d hd
    cases hd
    exact h

/-- What begins with something detached is detached. -/
theorem Detached.append {cs ds : List Char} (h : u.Detached cs) (hne : cs ≠ []) :
    u.Detached (cs ++ ds) := by
  cases cs with
  | nil => exact absurd rfl hne
  | cons c cs => exact detached_cons.2 (detached_cons.1 h)

/-! ## Order -/

theorem place_perm (c : Char) (cs : List Char) : (u.place c cs).Perm (c :: cs) := by
  induction cs with
  | nil => exact .refl _
  | cons d ds ih =>
    unfold place
    split
    · exact (ih.cons d).trans (.swap c d ds)
    · exact .refl _

theorem reorder_perm (cs : List Char) : (u.reorder cs).Perm cs := by
  induction cs with
  | nil => exact .refl _
  | cons c cs ih => exact (place_perm c _).trans (ih.cons c)

/-- A starter stays where it is, -/
theorem place_starter {c : Char} {cs : List Char} (h : u.combining c = 0) :
    u.place c cs = c :: cs := by
  cases cs with
  | nil => rfl
  | cons d ds =>
    unfold place
    rw [if_neg]
    omega

/-- and lets nothing pass. -/
theorem place_append {c d : Char} {cs ds : List Char} (h : u.combining d = 0) :
    u.place c (cs ++ d :: ds) = u.place c cs ++ d :: ds := by
  induction cs with
  | nil =>
    have hstays : ¬ (u.combining d ≠ 0 ∧ u.combining d < u.combining c) := fun hlt => hlt.1 h
    show (if _ then _ else _) = _
    rw [if_neg hstays]
    rfl
  | cons x xs ih =>
    by_cases hlt : u.combining x ≠ 0 ∧ u.combining x < u.combining c
    · simp only [List.cons_append, place, if_pos hlt, ih]
    · simp only [List.cons_append, place, if_neg hlt]

theorem reorder_append {d : Char} {cs ds : List Char} (h : u.combining d = 0) :
    u.reorder (cs ++ d :: ds) = u.reorder cs ++ d :: u.reorder ds := by
  induction cs with
  | nil => exact place_starter h
  | cons c cs ih =>
    show u.place c (u.reorder (cs ++ d :: ds)) = u.place c (u.reorder cs) ++ d :: u.reorder ds
    rw [ih, place_append h]

/-! ## Composition -/

section Composition

variable {r s q : Char → Prop} {count : Char → Bool} {starter d : Char} {passed cs ds : List Char}
  {last : Nat}

/-- What holds of the characters of a text and is kept by composites holds of what is composed. -/
theorem composeFrom_all (hr : ∀ c, s c → r c)
    (hcomposite : ∀ a m p, r a → s m → u.composite a m = some p → r p)
    (hstarter : r starter) (hpassed : ∀ c ∈ passed, r c) (hcs : ∀ c ∈ cs, s c) :
    ∀ c ∈ u.composeFrom starter passed last cs, r c := by
  induction cs generalizing starter passed last with
  | nil => exact List.forall_mem_cons.2 ⟨hstarter, hpassed⟩
  | cons x xs ih =>
    obtain ⟨hx, hxs⟩ := List.forall_mem_cons.1 hcs
    unfold composeFrom
    split
    · rename_i p hp
      split at hp
      · cases hp
      · exact ih (hcomposite _ _ _ hstarter hx hp) hpassed hxs
    · split
      · intro c hc
        rcases List.mem_append.1 hc with hc | hc
        · exact List.forall_mem_cons.2 ⟨hstarter, hpassed⟩ c hc
        · exact ih (hr x hx) (fun _ h => by cases h) hxs c hc
      · refine ih hstarter ?_ hxs
        intro c hc
        rcases List.mem_append.1 hc with hc | hc
        · exact hpassed c hc
        · rw [List.mem_singleton.1 hc]
          exact hr x hx

theorem compose_all (hr : ∀ c, s c → r c)
    (hcomposite : ∀ a m p, r a → s m → u.composite a m = some p → r p) (hcs : ∀ c ∈ cs, s c) :
    ∀ c ∈ u.compose cs, r c := by
  induction cs with
  | nil => exact fun _ h => by cases h
  | cons x xs ih =>
    obtain ⟨hx, hxs⟩ := List.forall_mem_cons.1 hcs
    unfold compose
    split
    · exact List.forall_mem_cons.2 ⟨hr x hx, ih hxs⟩
    · exact composeFrom_all hr hcomposite (hr x hx) (fun _ h => by cases h) hxs

/-- Composition keeps a number of characters when each composite does. -/
theorem composeFrom_count
    (h : ∀ a m p, u.composite a m = some p → [p].countP count = [a, m].countP count) :
    (u.composeFrom starter passed last cs).countP count
      = (starter :: passed ++ cs).countP count := by
  induction cs generalizing starter passed last with
  | nil => simp [composeFrom]
  | cons x xs ih =>
    unfold composeFrom
    split
    · rename_i p hp
      split at hp
      · cases hp
      have hone := h _ _ _ hp
      simp only [List.countP_cons, List.countP_nil] at hone
      rw [ih]
      simp only [List.countP_append, List.countP_cons, List.cons_append]
      omega
    · split
      · rw [List.countP_append, ih]
        simp only [List.countP_append, List.countP_cons, List.cons_append, List.nil_append]
        omega
      · rw [ih]
        simp only [List.countP_append, List.countP_cons, List.cons_append, List.countP_nil]
        omega

theorem compose_count
    (h : ∀ a m p, u.composite a m = some p → [p].countP count = [a, m].countP count) :
    (u.compose cs).countP count = cs.countP count := by
  induction cs with
  | nil => rfl
  | cons x xs ih =>
    unfold compose
    split
    · rw [List.countP_cons, List.countP_cons, ih]
    · exact composeFrom_count h

/-- Something that composites inherit from their second character does not get lost. -/
theorem composeFrom_exists (hfirst : ∀ a m p, q a → u.composite a m = some p → q p)
    (hsecond : ∀ a m p, q m → u.composite a m = some p → q p)
    (h : ∃ c ∈ starter :: passed ++ cs, q c) : ∃ c ∈ u.composeFrom starter passed last cs, q c := by
  induction cs generalizing starter passed last with
  | nil => simpa [composeFrom] using h
  | cons x xs ih =>
    obtain ⟨c, hc, hq⟩ := h
    unfold composeFrom
    split
    · rename_i p hp
      split at hp
      · cases hp
      refine ih ?_
      rcases List.mem_append.1 hc with hc | hc
      · rcases List.mem_cons.1 hc with rfl | hc
        · exact ⟨p, List.mem_cons_self, hfirst _ _ _ hq hp⟩
        · exact ⟨c, List.mem_append_left _ (List.mem_cons_of_mem _ hc), hq⟩
      · rcases List.mem_cons.1 hc with rfl | hc
        · exact ⟨p, List.mem_cons_self, hsecond _ _ _ hq hp⟩
        · exact ⟨c, List.mem_append_right _ hc, hq⟩
    · split
      · rcases List.mem_append.1 hc with hc | hc
        · exact ⟨c, List.mem_append_left _ hc, hq⟩
        · obtain ⟨e, he, hqe⟩ := @ih x [] 0 ⟨c, hc, hq⟩
          exact ⟨e, List.mem_append_right _ he, hqe⟩
      · have hsame : starter :: (passed ++ [x]) ++ xs = starter :: passed ++ x :: xs := by simp
        exact ih ⟨c, hsame ▸ hc, hq⟩

theorem compose_exists (hfirst : ∀ a m p, q a → u.composite a m = some p → q p)
    (hsecond : ∀ a m p, q m → u.composite a m = some p → q p)
    (h : ∃ c ∈ cs, q c) : ∃ c ∈ u.compose cs, q c := by
  induction cs with
  | nil => exact h
  | cons x xs ih =>
    unfold compose
    split
    · obtain ⟨c, hc, hq⟩ := h
      rcases List.mem_cons.1 hc with rfl | hc
      · exact ⟨c, List.mem_cons_self, hq⟩
      · obtain ⟨e, he, hqe⟩ := ih ⟨c, hc, hq⟩
        exact ⟨e, List.mem_cons_of_mem _ he, hqe⟩
    · exact composeFrom_exists hfirst hsecond h

/-- Composition starts again at a starter that is second in no composite. -/
theorem composeFrom_append (hd : u.combining d = 0) (hjoins : ∀ a, u.composite a d = none) :
    u.composeFrom starter passed last (cs ++ d :: ds)
      = u.composeFrom starter passed last cs ++ u.compose (d :: ds) := by
  have hrest : u.compose (d :: ds) = u.composeFrom d [] 0 ds := if_neg fun hne => hne hd
  induction cs generalizing starter passed last with
  | nil =>
    rw [hrest, List.nil_append]
    simp only [composeFrom, hjoins, ite_self, if_pos hd]
  | cons x xs ih =>
    rw [List.cons_append, composeFrom, composeFrom]
    split
    · exact ih
    · split
      · rw [ih, List.append_assoc]
      · exact ih

theorem compose_append (hd : u.combining d = 0) (hjoins : ∀ a, u.composite a d = none) :
    u.compose (cs ++ d :: ds) = u.compose cs ++ u.compose (d :: ds) := by
  induction cs with
  | nil => rfl
  | cons x xs ih =>
    rw [List.cons_append, compose, compose]
    split
    · rw [ih, List.cons_append]
    · exact composeFrom_append hd hjoins

/-- What is composed from a detached starter is detached. -/
theorem composeFrom_detached (h : ∀ a m p, u.composite a m = some p → u.joins p = u.joins a)
    (hstarter : u.joins starter = false) : u.Detached (u.composeFrom starter passed last cs) := by
  induction cs generalizing starter passed last with
  | nil => exact detached_cons.2 hstarter
  | cons x xs ih =>
    unfold composeFrom
    split
    · rename_i p hp
      split at hp
      · cases hp
      · exact ih ((h _ _ _ hp).trans hstarter)
    · split
      · exact detached_cons.2 hstarter
      · exact ih hstarter

end Composition

/-- Two texts of as many parts that join nothing, in front of detached ones, are cut at one
place. -/
theorem append_cancel {as bs cs ds : List Char} (hcs : u.Detached cs) (hds : u.Detached ds)
    (hcount : as.countP (!u.joins ·) = bs.countP (!u.joins ·)) (h : as ++ cs = bs ++ ds) :
    as = bs ∧ cs = ds := by
  have hnone : ∀ {xs ys : List Char}, u.Detached (xs ++ ys) → xs.countP (!u.joins ·) = 0
      → xs = [] := by
    intro xs ys hdetached hzero
    cases xs with
    | nil => rfl
    | cons x xs =>
      have hx := detached_cons.1 hdetached
      rw [List.countP_cons, hx] at hzero
      cases hzero
  rcases List.append_eq_append_iff.1 h with ⟨xs, rfl, rfl⟩ | ⟨xs, rfl, rfl⟩
  · rw [List.countP_append] at hcount
    obtain rfl := hnone hcs (by omega)
    exact ⟨(List.append_nil _).symm, rfl⟩
  · rw [List.countP_append] at hcount
    obtain rfl := hnone hds (by omega)
    exact ⟨List.append_nil _, rfl⟩

end UnicodeData

end Roamkit.Lib
