import Mathlib.Logic.Function.Basic
import Mathlib.Tactic.Common

/-!
# Threads over a shared store

A *program* is a set of calls. Each call runs as a thread with a state of its
own, and every step of a thread may read and write one store that all threads
share. A *configuration* is the store and the threads in flight, and a run
interleaves the steps of the threads in any order.

An invariant of such a program has three parts: what holds of the store, what a
thread may rely on about the store, and what keeps two threads apart. The rule
`Invariant.reach` is the Owicki–Gries argument: the step of one thread
re-establishes its own part and does not disturb the part of any other.
-/

namespace Roamkit.Lib

variable {σ τ κ ι : Type*}

/-- Calls `κ` that run as threads `τ` over a store `σ`; `ι` is what the outside world answers. -/
structure Program (σ τ κ ι : Type*) where
  /-- The thread a call starts as. -/
  start : κ → τ
  /-- One step of a thread; `none` when it is blocked or has finished. -/
  step : σ → τ → ι → Option (σ × τ)

/-- The store and the threads that were started, by number. -/
structure Config (σ τ : Type*) where
  store : σ
  threads : Nat → Option τ

/-- Nothing has been called yet. -/
def Config.idle (s : σ) : Config σ τ := ⟨s, fun _ => none⟩

/-- What a scheduler may do: start a call under a fresh number, or let a thread take a step. -/
inductive Act (κ ι : Type*) where
  | call (p : Nat) (k : κ)
  | tick (p : Nat) (x : ι)

namespace Program

variable (P : Program σ τ κ ι)

/-- The effect of one action, `none` when it is not enabled. -/
def exec (c : Config σ τ) : Act κ ι → Option (Config σ τ)
  | .call p k =>
    match c.threads p with
    | none => some ⟨c.store, Function.update c.threads p (some (P.start k))⟩
    | some _ => none
  | .tick p x =>
    match c.threads p with
    | none => none
    | some t =>
      match P.step c.store t x with
      | none => none
      | some (s', t') => some ⟨s', Function.update c.threads p (some t')⟩

/-- A whole run. -/
def run (c : Config σ τ) : List (Act κ ι) → Option (Config σ τ)
  | [] => some c
  | a :: as =>
    match P.exec c a with
    | none => none
    | some c' => run c' as

/-- Every thread step the action takes meets the condition `ok`. -/
def Meets (ok : σ → τ → ι → Prop) (c : Config σ τ) : Act κ ι → Prop
  | .call _ _ => True
  | .tick p x => ∀ t, c.threads p = some t → ok c.store t x

/-- Reachable through runs all of whose thread steps meet the condition `ok`. -/
inductive ReachWhere (init : σ → Prop) (ok : σ → τ → ι → Prop) : Config σ τ → Prop
  | idle {s : σ} : init s → ReachWhere init ok (Config.idle s)
  | tail {c c' : Config σ τ} {a : Act κ ι} :
      ReachWhere init ok c → Meets ok c a → P.exec c a = some c' → ReachWhere init ok c'

/-- A configuration comes from another through a run all of whose thread steps meet a condition. -/
inductive LeadsWhere (ok : σ → τ → ι → Prop) (c : Config σ τ) : Config σ τ → Prop
  | refl : LeadsWhere ok c c
  | tail {c₁ c₂ : Config σ τ} {a : Act κ ι} :
      LeadsWhere ok c c₁ → Meets ok c₁ a → P.exec c₁ a = some c₂ → LeadsWhere ok c c₂

/-- Reachable through any run. -/
def Reach (init : σ → Prop) : Config σ τ → Prop := P.ReachWhere init fun _ _ _ => True

variable {P}

/-- A conditioned run is a run. -/
theorem ReachWhere.weaken {init : σ → Prop} {ok ok' : σ → τ → ι → Prop} {c : Config σ τ}
    (h : P.ReachWhere init ok c) (himp : ∀ s t x, ok s t x → ok' s t x) :
    P.ReachWhere init ok' c := by
  induction h with
  | idle hs => exact .idle hs
  | @tail c c' a _ hok he ih =>
    refine .tail ih ?_ he
    cases a with
    | call p k => trivial
    | tick p x => exact fun t ht => himp _ _ _ (hok t ht)

theorem ReachWhere.leads {init : σ → Prop} {ok : σ → τ → ι → Prop} {c c' : Config σ τ}
    (h : P.ReachWhere init ok c) (hl : P.LeadsWhere ok c c') : P.ReachWhere init ok c' := by
  induction hl with
  | refl => exact h
  | tail _ hok he ih => exact .tail ih hok he

theorem LeadsWhere.trans {ok : σ → τ → ι → Prop} {c c' c'' : Config σ τ} (h : P.LeadsWhere ok c c')
    (h' : P.LeadsWhere ok c' c'') : P.LeadsWhere ok c c'' := by
  induction h' with
  | refl => exact h
  | tail _ hok he ih => exact .tail ih hok he

theorem ReachWhere.reach {init : σ → Prop} {ok : σ → τ → ι → Prop} {c : Config σ τ}
    (h : P.ReachWhere init ok c) : P.Reach init c :=
  h.weaken fun _ _ _ _ => trivial

theorem Reach.exec {init : σ → Prop} {c c' : Config σ τ} {a : Act κ ι}
    (h : P.Reach init c) (he : P.exec c a = some c') : P.Reach init c' := by
  refine ReachWhere.tail h ?_ he
  cases a with
  | call p k => trivial
  | tick p x => exact fun _ _ => trivial

theorem Reach.run {init : σ → Prop} {c c' : Config σ τ} {as : List (Act κ ι)}
    (h : P.Reach init c) (hr : P.run c as = some c') : P.Reach init c' := by
  induction as generalizing c with
  | nil =>
    obtain rfl : c = c' := by simpa [Program.run] using hr
    exact h
  | cons a as ih =>
    rw [Program.run] at hr
    split at hr
    · exact absurd hr (by simp)
    · rename_i c₁ hc₁
      exact ih (h.exec hc₁) hr

/-- A run is its first part and then its second. -/
theorem run_append (c : Config σ τ) (as bs : List (Act κ ι)) :
    P.run c (as ++ bs) = (P.run c as).bind fun c' => P.run c' bs := by
  induction as generalizing c with
  | nil => rfl
  | cons a as ih =>
    rw [List.cons_append, Program.run, Program.run]
    cases P.exec c a with
    | none => rfl
    | some c' => exact ih c'

/-- A run that can be evaluated, and what a check says of where it ends. -/
theorem run_check (P : Program σ τ κ ι) (s : σ) (as : List (Act κ ι)) (f : Config σ τ → Bool)
    (h : (P.run (Config.idle s) as).any f = true) :
    ∃ c, P.run (Config.idle s) as = some c ∧ f c = true :=
  (Option.any_eq_true _ _).1 h

/-- A run from an initial store ends in a reachable configuration. -/
theorem reach_run {init : σ → Prop} {s : σ} {c : Config σ τ} {as : List (Act κ ι)}
    (hs : init s) (hr : P.run (Config.idle s) as = some c) : P.Reach init c :=
  Reach.run (ReachWhere.idle hs) hr

/-! ## Runs that are checked as they go -/

variable (P) in
/-- A run each of whose thread steps passes a check. -/
def runChecked (ok : σ → τ → ι → Bool) (c : Config σ τ) : List (Act κ ι) → Option (Config σ τ)
  | [] => some c
  | .call p k :: as =>
    match P.exec c (.call p k) with
    | none => none
    | some c' => runChecked ok c' as
  | .tick p x :: as =>
    match P.exec c (.tick p x) with
    | none => none
    | some c' => if (c.threads p).all (ok c.store · x) then runChecked ok c' as else none

theorem LeadsWhere.runChecked {ok : σ → τ → ι → Prop} {okb : σ → τ → ι → Bool}
    (hok : ∀ s t x, okb s t x = true → ok s t x) {c c₀ c' : Config σ τ} {as : List (Act κ ι)}
    (h : P.LeadsWhere ok c₀ c) (hr : P.runChecked okb c as = some c') : P.LeadsWhere ok c₀ c' := by
  induction as generalizing c with
  | nil =>
    obtain rfl : c = c' := by simpa [Program.runChecked] using hr
    exact h
  | cons a as ih =>
    cases a with
    | call p k =>
      rw [Program.runChecked] at hr
      split at hr
      · exact absurd hr (by simp)
      · rename_i c₁ hc₁
        exact ih (.tail (a := .call p k) h trivial hc₁) hr
    | tick p x =>
      rw [Program.runChecked] at hr
      split at hr
      · exact absurd hr (by simp)
      · rename_i c₁ hc₁
        split at hr
        · rename_i hall
          refine ih (.tail (a := .tick p x) h ?_ hc₁) hr
          intro t ht
          rw [ht] at hall
          exact hok _ _ _ hall
        · exact absurd hr (by simp)

theorem ReachWhere.runChecked {init : σ → Prop} {ok : σ → τ → ι → Prop} {okb : σ → τ → ι → Bool}
    (hok : ∀ s t x, okb s t x = true → ok s t x) {c c' : Config σ τ} {as : List (Act κ ι)}
    (h : P.ReachWhere init ok c) (hr : P.runChecked okb c as = some c') :
    P.ReachWhere init ok c' := h.leads (.runChecked hok .refl hr)

/-- A checked run that can be evaluated, and what a check says of where it ends. -/
theorem reachWhere_check {init : σ → Prop} {ok : σ → τ → ι → Prop} (okb : σ → τ → ι → Bool)
    (hok : ∀ s t x, okb s t x = true → ok s t x) {s : σ} (hs : init s) (as : List (Act κ ι))
    (f : Config σ τ → Bool) (h : (P.runChecked okb (Config.idle s) as).any f = true) :
    ∃ c, P.ReachWhere init ok c ∧ f c = true := by
  obtain ⟨c, hr, hf⟩ := (Option.any_eq_true _ _).1 h
  exact ⟨c, (ReachWhere.idle hs).runChecked hok hr, hf⟩

/-- Two checked runs one after the other, and what a check says of where each ends. -/
theorem leadsWhere_check {init : σ → Prop} {ok : σ → τ → ι → Prop} (okb : σ → τ → ι → Bool)
    (hok : ∀ s t x, okb s t x = true → ok s t x) {s : σ} (hs : init s) (as bs : List (Act κ ι))
    (f : Config σ τ → Config σ τ → Bool)
    (h : ((P.runChecked okb (Config.idle s) as).any fun c =>
      (P.runChecked okb c bs).any (f c)) = true) :
    ∃ c c', P.ReachWhere init ok c ∧ P.LeadsWhere ok c c' ∧ f c c' = true := by
  obtain ⟨c, hr, h⟩ := (Option.any_eq_true _ _).1 h
  obtain ⟨c', hr', hf⟩ := (Option.any_eq_true _ _).1 h
  exact ⟨c, c', (ReachWhere.idle hs).runChecked hok hr, LeadsWhere.runChecked hok .refl hr', hf⟩

/-! ## What one action does -/

theorem exec_call {c c' : Config σ τ} {p : Nat} {k : κ} (h : P.exec c (.call p k) = some c') :
    c.threads p = none ∧ c'.store = c.store
      ∧ c'.threads = Function.update c.threads p (some (P.start k)) := by
  rw [exec] at h
  split at h
  · rename_i hp
    cases h
    exact ⟨hp, rfl, rfl⟩
  · exact absurd h (by simp)

theorem exec_tick {c c' : Config σ τ} {p : Nat} {x : ι} (h : P.exec c (.tick p x) = some c') :
    ∃ t t', c.threads p = some t ∧ P.step c.store t x = some (c'.store, t')
      ∧ c'.threads = Function.update c.threads p (some t') := by
  rw [exec] at h
  split at h
  · exact absurd h (by simp)
  · rename_i t ht
    split at h
    · exact absurd h (by simp)
    · rename_i s' t' hs
      cases h
      exact ⟨t, t', ht, hs, rfl⟩

/-- What is owed in the store is in the hands of a thread, when nothing is owed to begin with and
a step leaves nothing owed but what its thread then has, or another thread has. -/
theorem ReachWhere.owed {α : Type*} {init : σ → Prop} {ok : σ → τ → ι → Prop} (Owed : σ → α → Prop)
    (Has : τ → α → Prop) {c : Config σ τ} (h : P.ReachWhere init ok c)
    (hinit : ∀ s, init s → ∀ a, ¬ Owed s a)
    (hstep : ∀ g p t x s' t', P.ReachWhere init ok g → g.threads p = some t → ok g.store t x →
      P.step g.store t x = some (s', t') → ∀ a, Owed s' a → Has t' a ∨ Owed g.store a ∧ ¬ Has t a) :
    ∀ a, Owed c.store a → ∃ p t, c.threads p = some t ∧ Has t a := by
  induction h with
  | idle hs => exact fun a ha => absurd ha (hinit _ hs a)
  | @tail c₁ c₂ act hr hok he ih =>
    intro a ha
    cases act with
    | call p k =>
      obtain ⟨hfree, hstore, hthreads⟩ := exec_call he
      rw [hstore] at ha
      obtain ⟨q, t, ht, hhas⟩ := ih a ha
      have hne : q ≠ p := by
        rintro rfl
        rw [hfree] at ht
        cases ht
      exact ⟨q, t, by rw [hthreads, Function.update_of_ne hne, ht], hhas⟩
    | tick p x =>
      obtain ⟨t, t', ht, hs, hthreads⟩ := exec_tick he
      rcases hstep c₁ p t x c₂.store t' hr ht (hok t ht) hs a ha with hhas | ⟨howed, hhas⟩
      · exact ⟨p, t', by rw [hthreads, Function.update_self], hhas⟩
      · obtain ⟨q, u, hu, hhas'⟩ := ih a howed
        have hne : q ≠ p := by
          rintro rfl
          rw [ht] at hu
          cases hu
          exact hhas hhas'
        exact ⟨q, u, by rw [hthreads, Function.update_of_ne hne, hu], hhas'⟩

/-- What every step keeps of the store, a run keeps. -/
theorem LeadsWhere.keeps {init : σ → Prop} {ok : σ → τ → ι → Prop} {c c' : Config σ τ}
    {K : σ → σ → Prop} (hl : P.LeadsWhere ok c c') (h : P.ReachWhere init ok c)
    (hrefl : ∀ s, K s s) (htrans : ∀ s s' s'', K s s' → K s' s'' → K s s'')
    (hstep : ∀ g p t x s' t', P.ReachWhere init ok g → g.threads p = some t → ok g.store t x →
      P.step g.store t x = some (s', t') → K g.store s') : K c.store c'.store := by
  induction hl with
  | refl => exact hrefl _
  | @tail c₁ c₂ a hl hok he ih =>
    refine htrans _ _ _ ih ?_
    cases a with
    | call p k =>
      rw [(exec_call he).2.1]
      exact hrefl _
    | tick p x =>
      obtain ⟨t, t', ht, hs, _⟩ := exec_tick he
      exact hstep c₁ p t x _ t' (h.leads hl) ht (hok t ht) hs

end Program

/-! ## The invariant rule -/

/--
An interference-free invariant.

`G` holds of the store, `L s t` is what thread `t` relies on about the store, and
`R t u` is what keeps two threads apart.
-/
structure Invariant (P : Program σ τ κ ι) (init : σ → Prop) (ok : σ → τ → ι → Prop)
    (G : σ → Prop) (L : σ → τ → Prop) (R : τ → τ → Prop) : Prop where
  /-- The store starts out well. -/
  init : ∀ {s}, init s → G s
  /-- A fresh call relies on nothing that does not hold. -/
  start : ∀ {s} k, G s → L s (P.start k)
  /-- A fresh call is apart from every thread. -/
  apart_start : ∀ k t, R (P.start k) t
  /-- Being apart is symmetric. -/
  symm : ∀ {t u}, R t u → R u t
  /-- A step keeps the store well and re-establishes its own thread's part. -/
  step : ∀ {s t x s' t'}, G s → L s t → ok s t x → P.step s t x = some (s', t') → G s' ∧ L s' t'
  /-- A step disturbs no other thread and stays apart from it. -/
  frame : ∀ {s t x s' t' u}, G s → L s t → ok s t x → P.step s t x = some (s', t') →
    L s u → R t u → L s' u ∧ R t' u

/-- The invariant as it holds of a configuration. -/
structure Config.Holds (G : σ → Prop) (L : σ → τ → Prop) (R : τ → τ → Prop)
    (c : Config σ τ) : Prop where
  store : G c.store
  thread : ∀ p t, c.threads p = some t → L c.store t
  apart : ∀ p q t u, p ≠ q → c.threads p = some t → c.threads q = some u → R t u

namespace Invariant

variable {P : Program σ τ κ ι} {init : σ → Prop} {ok : σ → τ → ι → Prop} {G : σ → Prop}
  {L : σ → τ → Prop} {R : τ → τ → Prop}

theorem holds_call (inv : Invariant P init ok G L R) {c c' : Config σ τ} {p : Nat} {k : κ}
    (h : c.Holds G L R) (he : P.exec c (.call p k) = some c') : c'.Holds G L R := by
  obtain ⟨_, hstore, hthreads⟩ := Program.exec_call he
  refine ⟨hstore ▸ h.store, ?_, ?_⟩
  · intro q t hq
    rw [hstore]
    rw [hthreads] at hq
    by_cases hpq : q = p
    · subst hpq
      rw [Function.update_self] at hq
      cases hq
      exact inv.start k h.store
    · rw [Function.update_of_ne hpq] at hq
      exact h.thread q t hq
  · intro q r t u hqr hq hr
    rw [hthreads] at hq hr
    by_cases hpq : q = p
    · subst hpq
      rw [Function.update_self] at hq
      cases hq
      exact inv.apart_start k u
    · rw [Function.update_of_ne hpq] at hq
      by_cases hpr : r = p
      · subst hpr
        rw [Function.update_self] at hr
        cases hr
        exact inv.symm (inv.apart_start k t)
      · rw [Function.update_of_ne hpr] at hr
        exact h.apart q r t u hqr hq hr

theorem holds_tick (inv : Invariant P init ok G L R) {c c' : Config σ τ} {p : Nat} {x : ι}
    (h : c.Holds G L R) (hok : Program.Meets ok c (.tick p x : Act κ ι))
    (he : P.exec c (.tick p x) = some c') : c'.Holds G L R := by
  obtain ⟨t, t', ht, hs, hthreads⟩ := Program.exec_tick he
  have hL : L c.store t := h.thread p t ht
  have ho : ok c.store t x := hok t ht
  obtain ⟨hG', hL'⟩ := inv.step h.store hL ho hs
  -- every other thread is where it was, and the step left its part alone
  have other : ∀ q u, q ≠ p → c.threads q = some u → L c'.store u ∧ R t' u := by
    intro q u hqp hu
    exact inv.frame h.store hL ho hs (h.thread q u hu) (h.apart p q t u (Ne.symm hqp) ht hu)
  refine ⟨hG', ?_, ?_⟩
  · intro q u hq
    rw [hthreads] at hq
    by_cases hqp : q = p
    · subst hqp
      rw [Function.update_self] at hq
      cases hq
      exact hL'
    · rw [Function.update_of_ne hqp] at hq
      exact (other q u hqp hq).1
  · intro q r u v hqr hq hr
    rw [hthreads] at hq hr
    by_cases hqp : q = p
    · subst hqp
      rw [Function.update_self] at hq
      rw [Function.update_of_ne (Ne.symm hqr)] at hr
      cases hq
      exact (other r v (Ne.symm hqr) hr).2
    · rw [Function.update_of_ne hqp] at hq
      by_cases hrp : r = p
      · subst hrp
        rw [Function.update_self] at hr
        cases hr
        exact inv.symm (other q u hqp hq).2
      · rw [Function.update_of_ne hrp] at hr
        exact h.apart q r u v hqr hq hr

/-- **The invariant holds in every configuration reached under the condition.** -/
theorem reach (inv : Invariant P init ok G L R) {c : Config σ τ}
    (h : P.ReachWhere init ok c) : c.Holds G L R := by
  induction h with
  | idle hs =>
    exact ⟨inv.init hs, fun p t hp => absurd hp (by simp [Config.idle]),
      fun p q t u _ hp => absurd hp (by simp [Config.idle])⟩
  | @tail c c' a _ hok he ih =>
    cases a with
    | call p k => exact inv.holds_call ih he
    | tick p x => exact inv.holds_tick ih hok he

end Invariant

/-! ## Programs with finer steps -/

/-- A configuration seen through a view of its store and of its threads. -/
def Config.view {σ' τ' : Type*} (f : σ → σ') (k : τ → τ') (c : Config σ τ) : Config σ' τ' :=
  ⟨f c.store, fun p => (c.threads p).map k⟩

theorem Config.view_update {σ' τ' : Type*} {f : σ → σ'} {k : τ → τ'} {c : Config σ τ} {s : σ}
    {p : Nat} {t : τ} :
    Config.view f k ⟨s, Function.update c.threads p (some t)⟩
      = ⟨f s, Function.update (c.view f k).threads p (some (k t))⟩ := by
  unfold Config.view
  congr
  funext q
  by_cases hq : q = p
  · subst hq
    simp
  · simp [Function.update_of_ne hq]

/--
A program refines another under a view when each of its steps, seen through the
view, is a step of the other or nothing at all. Then what it reaches, the other
reaches.
-/
theorem Program.reach_view {σ' τ' ι' : Type*} {P : Program σ τ κ ι} {Q : Program σ' τ' κ ι'}
    {init : σ → Prop} {init' : σ' → Prop} {f : σ → σ'} {k : τ → τ'}
    (hinit : ∀ s, init s → init' (f s)) (hstart : ∀ call, k (P.start call) = Q.start call)
    (hstep : ∀ c p t x s' t', P.Reach init c → c.threads p = some t →
      P.step c.store t x = some (s', t') → (f s' = f c.store ∧ k t' = k t)
        ∨ ∃ y, Q.step (f c.store) (k t) y = some (f s', k t'))
    {c : Config σ τ} (h : P.Reach init c) : Q.Reach init' (c.view f k) := by
  induction h with
  | idle hs => exact .idle (hinit _ hs)
  | @tail c c' a hc _ he ih =>
    cases a with
    | call p call =>
      obtain ⟨hp, hstore, hthreads⟩ := exec_call he
      obtain ⟨s', threads'⟩ := c'
      obtain rfl : s' = c.store := hstore
      obtain rfl : threads' = _ := hthreads
      rw [Config.view_update, hstart]
      refine Reach.exec (a := .call p call) ih ?_
      simp [exec, Config.view, hp]
    | tick p x =>
      obtain ⟨t, t', ht, hs, hthreads⟩ := exec_tick he
      obtain ⟨s', threads'⟩ := c'
      obtain rfl : threads' = _ := hthreads
      dsimp only at hs
      have hview : (c.view f k).threads p = some (k t) := by simp [Config.view, ht]
      rw [Config.view_update]
      rcases hstep c p t x s' t' hc ht hs with ⟨hsame, hthread⟩ | ⟨y, hy⟩
      · -- nothing happened, as far as the view goes
        rw [hsame, hthread, ← hview, Function.update_eq_self]
        exact ih
      · refine Reach.exec (a := .tick p y) ih ?_
        have hstore : (c.view f k).store = f c.store := rfl
        simp [exec, hview, hstore, hy]

/-! ## Finished threads -/

/-- A thread that has no step left keeps its state for the rest of the run. -/
theorem Program.threads_of_finished {P : Program σ τ κ ι} {c c' : Config σ τ} {as : List (Act κ ι)}
    {p : Nat} {t : τ} (hdone : ∀ s x, P.step s t x = none) (ht : c.threads p = some t)
    (hr : P.run c as = some c') : c'.threads p = some t := by
  induction as generalizing c with
  | nil =>
    obtain rfl : c = c' := by simpa [Program.run] using hr
    exact ht
  | cons a as ih =>
    rw [Program.run] at hr
    split at hr
    · exact absurd hr (by simp)
    · rename_i c₁ hc₁
      refine ih ?_ hr
      cases a with
      | call q k =>
        obtain ⟨hq, _, hthreads⟩ := exec_call hc₁
        have hpq : p ≠ q := fun e => by rw [e, hq] at ht; exact absurd ht (by simp)
        rw [hthreads, Function.update_of_ne hpq]
        exact ht
      | tick q x =>
        obtain ⟨u, u', hu, hs, hthreads⟩ := exec_tick hc₁
        have hpq : p ≠ q := by
          rintro rfl
          obtain rfl : t = u := by rw [ht] at hu; exact Option.some.inj hu
          rw [hdone] at hs
          exact absurd hs (by simp)
        rw [hthreads, Function.update_of_ne hpq]
        exact ht

end Roamkit.Lib

/-!
## A program inside a larger one

A program that was proved on its own is often run beside other calls over a larger
store. `Component` says that it is all that happens to a part of the store: a step of
the larger program is either a step of the smaller one on that part, or it leaves what
the smaller one relies on. Its invariant then holds of the part (`Invariant.inside`),
and need not be proved again.
-/

namespace Roamkit.Lib

variable {σ τ κ ι σ' τ' κ' ι' : Type*}

/-- A step keeps the invariant of a store, and disturbs neither its own thread nor another. -/
structure Undisturbed (G : σ → Prop) (L : σ → τ → Prop) (R : τ → τ → Prop) (s : σ) (t : τ) (s' : σ)
    (t' : τ) : Prop where
  store : G s'
  thread : L s' t'
  frame : ∀ u, L s u → R t u → L s' u ∧ R t' u

/-- A program as the larger program `Q` runs it: on a part of the store, each thread seen as one of
its own. -/
structure Component (P : Program σ τ κ ι) (ok : σ → τ → ι → Prop) (G : σ → Prop) (L : σ → τ → Prop)
    (R : τ → τ → Prop) (Q : Program σ' τ' κ' ι') (ok' : σ' → τ' → ι' → Prop) (store : σ' → σ)
    (thread : τ' → τ) : Prop where
  /-- A fresh call relies on nothing that does not hold. -/
  start : ∀ s k, G s → L s (thread (Q.start k))
  /-- A fresh call is apart from every thread. -/
  apart_start : ∀ k t, R (thread (Q.start k)) t
  /-- A step is one of the program, or leaves it undisturbed. -/
  step : ∀ {s t x s' t'}, G (store s) → L (store s) (thread t) → ok' s t x
    → Q.step s t x = some (s', t') →
    (∃ y, ok (store s) (thread t) y ∧ P.step (store s) (thread t) y = some (store s', thread t'))
      ∨ Undisturbed G L R (store s) (thread t) (store s') (thread t')

namespace Invariant

variable {P : Program σ τ κ ι} {init : σ → Prop} {ok : σ → τ → ι → Prop} {G : σ → Prop}
  {L : σ → τ → Prop} {R : τ → τ → Prop} {Q : Program σ' τ' κ' ι'} {ok' : σ' → τ' → ι' → Prop}
  {store : σ' → σ} {thread : τ' → τ}

/-- **An invariant of a program is one of every larger program it is a component of.** -/
theorem inside (inv : Invariant P init ok G L R) (hc : Component P ok G L R Q ok' store thread)
    {init' : σ' → Prop} (hinit : ∀ s, init' s → init (store s)) :
    Invariant Q init' ok' (fun s => G (store s)) (fun s t => L (store s) (thread t))
      (fun t u => R (thread t) (thread u)) where
  init hs := inv.init (hinit _ hs)
  start k hG := hc.start _ k hG
  apart_start k t := hc.apart_start k (thread t)
  symm h := inv.symm h
  step := by
    intro s t x s' t' hG hL hok hs
    rcases hc.step hG hL hok hs with ⟨y, hy, hp⟩ | hu
    · exact inv.step hG hL hy hp
    · exact ⟨hu.store, hu.thread⟩
  frame := by
    intro s t x s' t' u hG hL hok hs hLu hR
    rcases hc.step hG hL hok hs with ⟨y, hy, hp⟩ | hu
    · exact inv.frame hG hL hy hp hLu hR
    · exact hu.frame _ hLu hR

end Invariant

namespace Program.ReachWhere

variable {P : Program σ τ κ ι} {init init' : σ → Prop} {ok : σ → τ → ι → Prop} {c : Config σ τ}

/-- What is reached from fewer stores is reached from more. -/
theorem widen (h : P.ReachWhere init ok c) (himp : ∀ s, init s → init' s) :
    P.ReachWhere init' ok c := by
  induction h with
  | idle hs => exact .idle (himp _ hs)
  | tail _ hok he ih => exact .tail ih hok he

end Program.ReachWhere

end Roamkit.Lib
