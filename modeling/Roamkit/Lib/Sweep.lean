import Roamkit.Lib.Threads

/-!
# A loop of calls

A command often makes the calls of a service one after the other: it reads what there is
to do, then makes a call for each, and others are served meanwhile. `Program.withSweep`
is a program whose threads make one call, as before, or go through such a loop. What the
command reads before the loop is read in steps of its own, so the list may be out of date
by the time it is gone through.

What is shown once here is what an operator wants of a loop: what each call achieved when
it ended still holds when the loop is through (`Invariant.sweep`). For this it has to be
something no call undoes, which is what `Achieves` asks.
-/

namespace Roamkit.Lib

variable {σ τ κ ι α β ρ : Type*}

/-- What a command does around the calls of its loop. -/
structure Sweep (σ τ κ α β ρ : Type*) where
  /-- What the command knows when it is asked. -/
  ask : α → β
  /-- A read before the loop: what is then known, and the calls once they are listed. -/
  plan : σ → β → β × Option (List κ)
  /-- How a call ended, once it has. -/
  outcome : τ → Option ρ
  /-- The loop is left at such an end. -/
  stops : ρ → Bool

/-- A thread that makes one call, or goes through a loop of them. -/
inductive Worker (τ κ β ρ : Type*) where
  | one (t : τ)
  | planning (b : β)
  /-- At a call; `done` are the calls before it and `todo` those after it. -/
  | sweeping (b : β) (listed : List κ) (done : List (κ × ρ)) (call : κ) (t : τ) (todo : List κ)
  | swept (b : β) (listed : List κ) (done : List (κ × ρ))

namespace Worker

/-- The call a worker is at. -/
def thread : Worker τ κ β ρ → Option τ
  | one t => some t
  | sweeping _ _ _ _ t _ => some t
  | _ => none

end Worker

open Worker

namespace Program

/-- The next call of a loop, or its end. -/
def next (P : Program σ τ κ ι) (b : β) (listed : List κ) (done : List (κ × ρ)) :
    List κ → Worker τ κ β ρ
  | [] => swept b listed done
  | call :: todo => sweeping b listed done call (P.start call) todo

/-- The program, its calls made one at a time or in a loop. -/
def withSweep (P : Program σ τ κ ι) (S : Sweep σ τ κ α β ρ) :
    Program σ (Worker τ κ β ρ) (κ ⊕ α) (Option ι) where
  start
    | .inl call => one (P.start call)
    | .inr a => planning (S.ask a)
  step s w x :=
    match w, x with
    | one t, some x => (P.step s t x).map fun r => (r.1, one r.2)
    | planning b, none =>
      match S.plan s b with
      | (b', none) => some (s, planning b')
      | (b', some calls) => some (s, P.next b' calls [] calls)
    | sweeping b listed done call t todo, some x =>
      (P.step s t x).map fun r => (r.1, sweeping b listed done call r.2 todo)
    | sweeping b listed done call t todo, none =>
      match S.outcome t with
      | none => none
      | some r =>
        if S.stops r then some (s, swept b listed (done ++ [(call, r)]))
        else some (s, P.next b listed (done ++ [(call, r)]) todo)
    | _, _ => none

end Program

/-- Everything a step of a worker can do. -/
inductive SweepMove (P : Program σ τ κ ι) (S : Sweep σ τ κ α β ρ) (s : σ) :
    Worker τ κ β ρ → Option ι → σ → Worker τ κ β ρ → Prop
  | calls {t t' : τ} {x : ι} {s' : σ} : P.step s t x = some (s', t') →
      SweepMove P S s (one t) (some x) s' (one t')
  | plans {b b' : β} : S.plan s b = (b', none) → SweepMove P S s (planning b) none s (planning b')
  | lists {b b' : β} {calls : List κ} : S.plan s b = (b', some calls) →
      SweepMove P S s (planning b) none s (P.next b' calls [] calls)
  | steps {b : β} {listed : List κ} {done : List (κ × ρ)} {call : κ} {t t' : τ}
      {todo : List κ} {x : ι} {s' : σ} : P.step s t x = some (s', t') →
      SweepMove P S s (sweeping b listed done call t todo) (some x) s'
        (sweeping b listed done call t' todo)
  | stops {b : β} {listed : List κ} {done : List (κ × ρ)} {call : κ} {t : τ}
      {todo : List κ} {r : ρ} :
      S.outcome t = some r → S.stops r = true →
      SweepMove P S s (sweeping b listed done call t todo) none s
        (swept b listed (done ++ [(call, r)]))
  | goes {b : β} {listed : List κ} {done : List (κ × ρ)} {call : κ} {t : τ}
      {todo : List κ} {r : ρ} :
      S.outcome t = some r → S.stops r = false →
      SweepMove P S s (sweeping b listed done call t todo) none s
        (P.next b listed (done ++ [(call, r)]) todo)

variable {P : Program σ τ κ ι} {S : Sweep σ τ κ α β ρ}

theorem sweepMove {s s' : σ} {w w' : Worker τ κ β ρ} {x : Option ι}
    (h : (P.withSweep S).step s w x = some (s', w')) : SweepMove P S s w x s' w' := by
  cases w with
  | one t =>
    cases x with
    | none => cases h
    | some x =>
      obtain ⟨r, hr, he⟩ := Option.map_eq_some_iff.1 h
      cases he
      exact .calls hr
  | planning b =>
    cases x with
    | some x => cases h
    | none =>
      simp only [Program.withSweep] at h
      split at h
      · rename_i hplan
        cases h
        exact .plans hplan
      · rename_i hplan
        cases h
        exact .lists hplan
  | sweeping b listed done call t todo =>
    cases x with
    | some x =>
      obtain ⟨r, hr, he⟩ := Option.map_eq_some_iff.1 h
      cases he
      exact .steps hr
    | none =>
      simp only [Program.withSweep] at h
      split at h
      · cases h
      rename_i r hr
      split at h
      · rename_i hstops
        cases h
        exact .stops hr hstops
      · rename_i hgoes
        cases h
        exact .goes hr (by simpa using hgoes)
  | swept b listed done => cases x <;> cases h

/-- A step of a worker is one of the call it is at, or leaves the store and has at most a fresh
call. -/
theorem SweepMove.inner {s s' : σ} {w w' : Worker τ κ β ρ} {x : Option ι}
    (h : SweepMove P S s w x s' w') :
    (∃ t y t', w.thread = some t ∧ x = some y ∧ P.step s t y = some (s', t') ∧ w'.thread = some t')
      ∨ s' = s ∧ ∀ t', w'.thread = some t' → ∃ call, t' = P.start call := by
  have hnext : ∀ (b : β) (listed : List κ) (done : List (κ × ρ)) (todo : List κ) (t' : τ),
      (P.next b listed done todo).thread = some t' → ∃ call, t' = P.start call := by
    intro b listed done todo t' ht'
    cases todo with
    | nil => cases ht'
    | cons call todo =>
      cases ht'
      exact ⟨call, rfl⟩
  cases h with
  | calls hs => exact .inl ⟨_, _, _, rfl, rfl, hs, rfl⟩
  | plans _ => exact .inr ⟨rfl, nofun⟩
  | lists _ => exact .inr ⟨rfl, hnext _ _ _ _⟩
  | steps hs => exact .inl ⟨_, _, _, rfl, rfl, hs, rfl⟩
  | stops _ _ => exact .inr ⟨rfl, nofun⟩
  | goes _ _ => exact .inr ⟨rfl, hnext _ _ _ _⟩

/-! ## What a loop achieves -/

/--
What the calls of a loop achieve, and no step undoes.

`Known s (b, listed)` is what the reads before the loop established, `T s call t` what
thread `t` has come to on behalf of `call`, and `Good s call r` what holds once it ended
with `r`.
-/
structure Achieves (P : Program σ τ κ ι) (S : Sweep σ τ κ α β ρ) (ok : σ → τ → ι → Prop)
    (G : σ → Prop)
    (L : σ → τ → Prop) (R : τ → τ → Prop) (Known : σ → β × Option (List κ) → Prop)
    (T : σ → κ → τ → Prop)
    (Good : σ → κ → ρ → Prop) : Prop where
  /-- A command knows nothing to begin with that does not hold. -/
  ask : ∀ {s} a, G s → Known s (S.ask a, none)
  /-- What a read finds holds. -/
  plan : ∀ {s b}, G s → Known s (b, none) → Known s (S.plan s b)
  start : ∀ {s} call, G s → T s call (P.start call)
  step : ∀ {s t x s' t' call}, G s → L s t → ok s t x → P.step s t x = some (s', t') → T s call t →
    T s' call t'
  /-- When a call ends, it has achieved what it is to. -/
  ends : ∀ {s t call r}, G s → L s t → T s call t → S.outcome t = some r → Good s call r
  /-- A step undoes nothing of it. -/
  frame : ∀ {s t x s' t'}, G s → L s t → ok s t x → P.step s t x = some (s', t') →
    (∀ b, Known s b → Known s' b) ∧ (∀ call r, Good s call r → Good s' call r)
      ∧ ∀ call u, L s u → R t u → T s call u → T s' call u

section Rule

variable {init : σ → Prop} {ok : σ → τ → ι → Prop} {G : σ → Prop} {L : σ → τ → Prop}
  {R : τ → τ → Prop} {Known : σ → β × Option (List κ) → Prop} {T : σ → κ → τ → Prop}
  {Good : σ → κ → ρ → Prop}

/-- What holds of a worker. -/
def WorkerHolds (S : Sweep σ τ κ α β ρ) (L : σ → τ → Prop) (Known : σ → β × Option (List κ) → Prop)
    (T : σ → κ → τ → Prop) (Good : σ → κ → ρ → Prop) (s : σ) : Worker τ κ β ρ → Prop
  | one t => L s t
  | planning b => Known s (b, none)
  | sweeping b listed done call t todo =>
    L s t ∧ Known s (b, some listed) ∧ T s call t ∧ listed = done.map Prod.fst ++ call :: todo
      ∧ (∀ d ∈ done, Good s d.1 d.2) ∧ ∀ d ∈ done, S.stops d.2 = false
  | swept b listed done =>
    Known s (b, some listed) ∧ (∃ todo, listed = done.map Prod.fst ++ todo)
      ∧ (∀ d ∈ done, Good s d.1 d.2)
      ∧ (∀ d ∈ done.dropLast, S.stops d.2 = false)
      ∧ ((∀ d ∈ done, S.stops d.2 = false) → listed = done.map Prod.fst)

/-- The condition on the steps of a call, as one on those of a worker. -/
def okInside (ok : σ → τ → ι → Prop) (s : σ) (w : Worker τ κ β ρ) (x : Option ι) : Prop :=
  ∀ t y, w.thread = some t → x = some y → ok s t y

def apartInside (R : τ → τ → Prop) (w v : Worker τ κ β ρ) : Prop :=
  ∀ t u, w.thread = some t → v.thread = some u → R t u

theorem WorkerHolds.local {s : σ} {w : Worker τ κ β ρ} {t : τ}
    (h : WorkerHolds S L Known T Good s w) (ht : w.thread = some t) : L s t := by
  cases w with
  | one u => cases ht; exact h
  | planning b => cases ht
  | sweeping b listed done call u todo => cases ht; exact h.1
  | swept b listed done => cases ht

/-- A loop whose last call did not end it has made every call. -/
theorem WorkerHolds.through {s : σ} {b : β} {listed : List κ} {done : List (κ × ρ)}
    (h : WorkerHolds S L Known T Good s (swept b listed done))
    (hlast : ∀ d, done.getLast? = some d → S.stops d.2 = false) :
    listed = done.map Prod.fst ∧ ∀ d ∈ done, S.stops d.2 = false := by
  obtain ⟨_, _, _, hstops, hall⟩ := h
  have hnever : ∀ d ∈ done, S.stops d.2 = false := by
    intro d hd
    rcases List.eq_nil_or_concat done with rfl | ⟨before, last, rfl⟩
    · cases hd
    rw [List.concat_eq_append] at hd hstops hlast
    rcases List.mem_append.1 hd with hd | hd
    · refine hstops d ?_
      rwa [List.dropLast_concat]
    · rw [List.mem_singleton.1 hd]
      exact hlast last (by rw [List.getLast?_concat])
  exact ⟨hall hnever, hnever⟩

theorem workerHolds_next (inv : Invariant P init ok G L R)
    (ach : Achieves P S ok G L R Known T Good) {s : σ} (hG : G s) {b : β} {listed : List κ}
    {done : List (κ × ρ)} {todo : List κ} (hb : Known s (b, some listed))
    (hlisted : listed = done.map Prod.fst ++ todo) (hdone : ∀ d ∈ done, Good s d.1 d.2)
    (hstops : ∀ d ∈ done, S.stops d.2 = false) :
    WorkerHolds S L Known T Good s (P.next b listed done todo) := by
  cases todo with
  | nil =>
    exact ⟨hb, ⟨[], hlisted⟩, hdone, fun d hd => hstops d (List.dropLast_subset done hd),
      fun _ => by rw [hlisted, List.append_nil]⟩
  | cons call todo => exact ⟨inv.start call hG, hb, ach.start call hG, hlisted, hdone, hstops⟩

theorem forall_mem_snoc {done : List (κ × ρ)} {call : κ} {r : ρ} {Q : κ × ρ → Prop}
    (h : ∀ d ∈ done, Q d) (hr : Q (call, r)) : ∀ d ∈ done ++ [(call, r)], Q d := by
  intro d hd
  rcases List.mem_append.1 hd with hd | hd
  · exact h d hd
  · rw [List.mem_singleton] at hd
    rw [hd]
    exact hr

theorem workerHolds_step (inv : Invariant P init ok G L R)
    (ach : Achieves P S ok G L R Known T Good) {s s' : σ} {w w' : Worker τ κ β ρ} {x : Option ι}
    (hG : G s) (hw : WorkerHolds S L Known T Good s w) (hok : okInside ok s w x)
    (hm : SweepMove P S s w x s' w') :
    G s' ∧ WorkerHolds S L Known T Good s' w' := by
  cases hm with
  | calls hs => exact inv.step hG hw (hok _ _ rfl rfl) hs
  | plans hplan =>
    have hknown := ach.plan hG hw
    rw [hplan] at hknown
    exact ⟨hG, hknown⟩
  | lists hplan =>
    have hknown := ach.plan hG hw
    rw [hplan] at hknown
    exact ⟨hG, workerHolds_next inv ach hG hknown rfl nofun nofun⟩
  | steps hs =>
    obtain ⟨hL, hb, hT, hlisted, hdone, hstops⟩ := hw
    have hok' := hok _ _ rfl rfl
    obtain ⟨hG', hL'⟩ := inv.step hG hL hok' hs
    obtain ⟨hknown, hgood, _⟩ := ach.frame hG hL hok' hs
    exact ⟨hG', hL', hknown _ hb, ach.step hG hL hok' hs hT, hlisted,
      fun d hd => hgood _ _ (hdone d hd), hstops⟩
  | @stops b listed done call t todo r hr hstop =>
    obtain ⟨hL, hb, hT, hlisted, hdone, hstops⟩ := hw
    refine ⟨hG, hb, ⟨todo, ?_⟩, forall_mem_snoc hdone (ach.ends hG hL hT hr), ?_, ?_⟩
    · rw [hlisted, List.map_append, List.append_assoc]
      rfl
    · rw [List.dropLast_concat]
      exact hstops
    · intro hall
      have hlast := hall (call, r) (List.mem_append_right _ (List.mem_singleton.2 rfl))
      rw [hstop] at hlast
      cases hlast
  | goes hr hgo =>
    obtain ⟨hL, hb, hT, hlisted, hdone, hstops⟩ := hw
    refine ⟨hG, workerHolds_next inv ach hG hb ?_ (forall_mem_snoc hdone (ach.ends hG hL hT hr))
      (forall_mem_snoc hstops hgo)⟩
    rw [hlisted, List.map_append, List.append_assoc]
    rfl

theorem workerHolds_frame (ach : Achieves P S ok G L R Known T Good) {s s' : σ} {t t' : τ} {x : ι}
    {v : Worker τ κ β ρ} (hG : G s) (hL : L s t) (hok : ok s t x)
    (hs : P.step s t x = some (s', t')) (hv : WorkerHolds S L Known T Good s v)
    (hR : ∀ u, v.thread = some u → R t u) (hlocal : ∀ u, v.thread = some u → L s' u) :
    WorkerHolds S L Known T Good s' v := by
  obtain ⟨hknown, hgood, htracks⟩ := ach.frame hG hL hok hs
  cases v with
  | one u => exact hlocal u rfl
  | planning b => exact hknown _ hv
  | sweeping b listed done call u todo =>
    obtain ⟨hu, hb, hT, hlisted, hdone, hstops⟩ := hv
    exact ⟨hlocal u rfl, hknown _ hb, htracks call u hu (hR u rfl) hT, hlisted,
      fun d hd => hgood _ _ (hdone d hd), hstops⟩
  | swept b listed done =>
    obtain ⟨hb, htodo, hdone, hall⟩ := hv
    exact ⟨hknown _ hb, htodo, fun d hd => hgood _ _ (hdone d hd), hall⟩

/-- **What the calls of a loop achieve holds when it is through, whatever else was going on.** -/
theorem Invariant.sweep (inv : Invariant P init ok G L R)
    (ach : Achieves P S ok G L R Known T Good) :
    Invariant (P.withSweep S) init (okInside ok) G (WorkerHolds S L Known T Good)
      (apartInside R) where
  init := inv.init
  start := by
    intro s k hG
    cases k with
    | inl call => exact inv.start call hG
    | inr a => exact ach.ask a hG
  apart_start := by
    intro k v t u ht _
    cases k with
    | inl call =>
      cases ht
      exact inv.apart_start call u
    | inr a => cases ht
  symm := by
    intro w v h t u ht hu
    exact inv.symm (h u t hu ht)
  step := fun hG hw hok hs => workerHolds_step inv ach hG hw hok (sweepMove hs)
  frame := by
    intro s w x s' w' v hG hw hok hs hv hR
    rcases (sweepMove hs).inner with ⟨t, y, t', ht, rfl, hinner, ht'⟩ | ⟨rfl, hfresh⟩
    · have hL := hw.local ht
      have hok' := hok t y ht rfl
      have hframe : ∀ u, v.thread = some u → L s' u ∧ R t' u :=
        fun u hu => inv.frame hG hL hok' hinner (hv.local hu) (hR t u ht hu)
      refine ⟨workerHolds_frame ach hG hL hok' hinner hv (fun u hu => hR t u ht hu)
        fun u hu => (hframe u hu).1, ?_⟩
      intro t₁ u ht₁ hu
      obtain rfl : t' = t₁ := by
        rw [ht'] at ht₁
        exact Option.some.inj ht₁
      exact (hframe u hu).2
    · refine ⟨hv, ?_⟩
      intro t' u ht' _
      obtain ⟨call, rfl⟩ := hfresh t' ht'
      exact inv.apart_start call u

end Rule

end Roamkit.Lib
