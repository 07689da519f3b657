import Roamkit.Lib.Threads

/-!
# A program with a record

What a run has done is often not in the store any more. `Program.recorded` adds a
record that every step may write and none reads: `recorded_step` says that the store and
the threads move as they do in the program itself.
-/

namespace Roamkit.Lib

variable {σ τ κ ι ρ : Type*}

namespace Program

/-- The program, and beside the store a record of its steps; `note` says what a step adds. -/
def recorded (P : Program σ τ κ ι) (note : σ → τ → ι → σ → τ → ρ → ρ) : Program (σ × ρ) τ κ ι where
  start := P.start
  step s t x := (P.step s.1 t x).map fun r => ((r.1, note s.1 t x r.1 r.2 s.2), r.2)

variable {P : Program σ τ κ ι} {note : σ → τ → ι → σ → τ → ρ → ρ}

theorem recorded_step {s s' : σ × ρ} {t t' : τ} {x : ι} :
    (P.recorded note).step s t x = some (s', t')
      ↔ P.step s.1 t x = some (s'.1, t') ∧ s'.2 = note s.1 t x s'.1 t' s.2 := by
  constructor
  · intro h
    obtain ⟨⟨s₁, t₁⟩, hstep, heq⟩ := Option.map_eq_some_iff.1 h
    cases heq
    exact ⟨hstep, rfl⟩
  · rintro ⟨hstep, hnote⟩
    refine Option.map_eq_some_iff.2 ⟨(s'.1, t'), hstep, ?_⟩
    rw [← hnote]

/-- The recorded runs that start with a given record. -/
abbrev RecordedReach (P : Program σ τ κ ι) (note : σ → τ → ι → σ → τ → ρ → ρ) (r₀ : ρ)
    (init : σ → Prop) (ok : σ → τ → ι → Prop) : Config (σ × ρ) τ → Prop :=
  (P.recorded note).ReachWhere (fun s => init s.1 ∧ s.2 = r₀) fun s => ok s.1

end Program

/-! ## What was recorded last -/

variable {α β : Type*} [DecidableEq α]

/-- The newest entry for a key, in a record that has its newest first. -/
def newest (record : List (α × β)) (key : α) : Option β := (record.find? (·.1 = key)).map Prod.snd

theorem newest_cons_self (record : List (α × β)) (key : α) (x : β) :
    newest ((key, x) :: record) key = some x := by
  unfold newest
  rw [List.find?_cons_of_pos (by simp)]
  rfl

theorem newest_cons_other {record : List (α × β)} {key key' : α} {x : β} (h : key ≠ key') :
    newest ((key, x) :: record) key' = newest record key' := by
  unfold newest
  rw [List.find?_cons_of_neg (by simpa using h)]

end Roamkit.Lib
