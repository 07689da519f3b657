import Mathlib.Data.List.Induction
import Mathlib.Data.List.Nodup
import Roamkit.Lib.Threads

/-!
# Calls that are as good as served one after another

`serve` says what a call does, and what it answers, when it has the store to itself. A
program *serves* its calls when each thread keeps its hands off the store until the step
that ends it, and does at that step what the call would do on its own. `Serves.inOrder` is
what this is for: whatever the interleaving, the calls that have answered were served one
after another, in the order in which they ended.
-/

namespace Roamkit.Lib

variable {σ τ κ ι β ρ ε : Type*}

/-- Calls one after the other, and what each answers. -/
def serveAll (serve : β → κ → Except ε (β × ρ)) (b : β) : List κ → Except ε (β × List ρ)
  | [] => .ok (b, [])
  | k :: ks =>
    match serve b k with
    | .error e => .error e
    | .ok (b₁, a) =>
      match serveAll serve b₁ ks with
      | .error e => .error e
      | .ok (b₂, as) => .ok (b₂, a :: as)

theorem serveAll_snoc {serve : β → κ → Except ε (β × ρ)} {b b₁ b₂ : β} {ks : List κ} {as : List ρ}
    {k : κ} {a : ρ} (h : serveAll serve b ks = .ok (b₁, as)) (hk : serve b₁ k = .ok (b₂, a)) :
    serveAll serve b (ks ++ [k]) = .ok (b₂, as ++ [a]) := by
  induction ks generalizing b as with
  | nil =>
    cases h
    rw [List.nil_append, serveAll, hk]
    rfl
  | cons x xs ih =>
    rw [List.cons_append, serveAll]
    rw [serveAll] at h
    split at h
    · cases h
    split at h
    · cases h
    rename_i hrest
    cases h
    rw [ih hrest]
    rfl

/-- A call that has answered, and the thread it ran as. -/
structure Served (κ ρ : Type*) where
  thread : Nat
  call : κ
  answer : ρ

/-- A thread has answered. -/
def Config.Answered (answer : τ → Option ρ) (c : Config σ τ) (p : Nat) (a : ρ) : Prop :=
  ∃ t, c.threads p = some t ∧ answer t = some a

/-- After a run, the calls of a log have been served in its order, and they are those that have
answered. -/
structure InOrder (view : σ → β) (answer : τ → Option ρ) (serve : β → κ → Except ε (β × ρ)) (b : β)
    (as : List (Act κ ι)) (c : Config σ τ) (log : List (Served κ ρ)) : Prop where
  /-- One after another the calls answer as they did, and leave the store as it is. -/
  served : serveAll serve b (log.map Served.call) = .ok (view c.store, log.map Served.answer)
  /-- No call is served twice. -/
  distinct : (log.map Served.thread).Nodup
  /-- The calls were made in the run. -/
  asked : ∀ r ∈ log, .call r.thread r.call ∈ as
  answered : ∀ p a, c.Answered answer p a ↔ ∃ k, ⟨p, k, a⟩ ∈ log

/-- Threads that relate to their calls by `For` and leave the store to the step that answers. -/
structure Serves (P : Program σ τ κ ι) (L : σ → τ → Prop) (view : σ → β) (answer : τ → Option ρ)
    (serve : β → κ → Except ε (β × ρ)) (For : σ → κ → τ → Prop) : Prop where
  start : ∀ s k, For s k (P.start k) ∧ answer (P.start k) = none
  /-- A thread that has answered has ended. -/
  ended : ∀ s t x, answer t ≠ none → P.step s t x = none
  /-- A step answers as the call does on its own, or does nothing to the store. -/
  step : ∀ {s t x s' t' k}, L s t → For s k t → P.step s t x = some (s', t') → For s' k t'
    ∧ (answer t' = none ∧ view s' = view s
      ∨ ∃ a, answer t' = some a ∧ serve (view s) k = .ok (view s', a))
  frame : ∀ {s t x s' t' k u}, L s t → P.step s t x = some (s', t') → For s k u → For s' k u

namespace Serves

variable {P : Program σ τ κ ι} {L : σ → τ → Prop} {view : σ → β} {answer : τ → Option ρ}
  {serve : β → κ → Except ε (β × ρ)} {For : σ → κ → τ → Prop} {b : β} {as : List (Act κ ι)}
  {c c' : Config σ τ} {log : List (Served κ ρ)} {act : Act κ ι}

/-- Every thread is at a call that was made. -/
def AtCalls (For : σ → κ → τ → Prop) (as : List (Act κ ι)) (c : Config σ τ) : Prop :=
  ∀ p t, c.threads p = some t → ∃ k, .call p k ∈ as ∧ For c.store k t

theorem atCalls_exec (h : Serves P L view answer serve For)
    (hL : ∀ p t, c.threads p = some t → L c.store t) (hc : AtCalls For as c)
    (he : P.exec c act = some c') : AtCalls For (as ++ [act]) c' := by
  intro p t ht
  cases act with
  | call q k =>
    obtain ⟨_, hstore, hthreads⟩ := Program.exec_call he
    rw [hthreads] at ht
    by_cases hpq : p = q
    · subst hpq
      rw [Function.update_self] at ht
      cases ht
      exact ⟨k, by simp, (h.start _ k).1⟩
    · rw [Function.update_of_ne hpq] at ht
      obtain ⟨k', hk', hfor⟩ := hc p t ht
      exact ⟨k', List.mem_append_left _ hk', by rwa [hstore]⟩
  | tick q x =>
    obtain ⟨u, u', hu, hs, hthreads⟩ := Program.exec_tick he
    rw [hthreads] at ht
    by_cases hpq : p = q
    · subst hpq
      rw [Function.update_self] at ht
      cases ht
      obtain ⟨k, hk, hfor⟩ := hc p u hu
      exact ⟨k, List.mem_append_left _ hk, (h.step (hL p u hu) hfor hs).1⟩
    · rw [Function.update_of_ne hpq] at ht
      obtain ⟨k, hk, hfor⟩ := hc p t ht
      exact ⟨k, List.mem_append_left _ hk, h.frame (hL q u hu) hs hfor⟩

/-- An action that answers nothing. -/
theorem inOrder_same (h : InOrder view answer serve b as c log)
    (hview : view c'.store = view c.store)
    (hanswered : ∀ p a, c'.Answered answer p a ↔ c.Answered answer p a) :
    InOrder view answer serve b (as ++ [act]) c' log where
  served := by rw [hview]; exact h.served
  distinct := h.distinct
  asked r hr := List.mem_append_left _ (h.asked r hr)
  answered p a := (hanswered p a).trans (h.answered p a)

/-- Who has answered after a thread has come to another point. -/
theorem answered_update {p q : Nat} {t : τ} {a : ρ}
    (hthreads : c'.threads = Function.update c.threads q (some t)) :
    c'.Answered answer p a ↔ p = q ∧ answer t = some a ∨ p ≠ q ∧ c.Answered answer p a := by
  unfold Config.Answered
  rw [hthreads]
  by_cases hpq : p = q
  · subst hpq
    simp
  · simp [hpq]

/-- A thread that had not answered still has not. -/
theorem answered_quiet {p q : Nat} {t : τ} {a : ρ}
    (hthreads : c'.threads = Function.update c.threads q (some t)) (hquiet : answer t = none)
    (hnone : ∀ a, ¬ c.Answered answer q a) :
    c'.Answered answer p a ↔ c.Answered answer p a := by
  rw [answered_update hthreads, hquiet]
  by_cases hpq : p = q
  · subst hpq
    simp [hnone a]
  · simp [hpq]

/-- **One action serves one call at most**, and serves it last. -/
theorem inOrder_exec (h : Serves P L view answer serve For)
    (hL : ∀ p t, c.threads p = some t → L c.store t) (hc : AtCalls For as c)
    (ho : InOrder view answer serve b as c log) (he : P.exec c act = some c') :
    ∃ more, InOrder view answer serve b (as ++ [act]) c' (log ++ more) := by
  cases act with
  | call q k =>
    obtain ⟨hq, hstore, hthreads⟩ := Program.exec_call he
    have hnone : ∀ a, ¬ c.Answered answer q a := by
      rintro a ⟨t, ht, _⟩
      rw [hq] at ht
      cases ht
    refine ⟨[], ?_⟩
    rw [List.append_nil]
    exact inOrder_same ho (by rw [hstore]) fun p a =>
      answered_quiet hthreads (h.start c.store k).2 hnone
  | tick q x =>
    obtain ⟨t, t', ht, hs, hthreads⟩ := Program.exec_tick he
    obtain ⟨k, hk, hfor⟩ := hc q t ht
    -- a thread that takes a step has not answered before
    have hnone : ∀ a, ¬ c.Answered answer q a := by
      rintro a ⟨u, hu, ha⟩
      obtain rfl : t = u := by
        rw [ht] at hu
        exact Option.some.inj hu
      rw [h.ended c.store t x (by rw [ha]; exact Option.some_ne_none a)] at hs
      cases hs
    rcases (h.step (hL q t ht) hfor hs).2 with ⟨hquiet, hview⟩ | ⟨a, hanswer, hserve⟩
    · refine ⟨[], ?_⟩
      rw [List.append_nil]
      exact inOrder_same ho hview fun p a => answered_quiet hthreads hquiet hnone
    · refine ⟨[⟨q, k, a⟩], ?_, ?_, ?_, ?_⟩
      · rw [List.map_append, List.map_append]
        exact serveAll_snoc ho.served hserve
      · rw [List.map_append, List.nodup_append]
        refine ⟨ho.distinct, List.nodup_singleton _, ?_⟩
        rintro p hp q' hq' rfl
        obtain ⟨r, hr, rfl⟩ := List.mem_map.1 hp
        obtain rfl : r.thread = q := List.mem_singleton.1 hq'
        exact hnone r.answer ((ho.answered _ _).2 ⟨r.call, hr⟩)
      · intro r hr
        rcases List.mem_append.1 hr with hr | hr
        · exact List.mem_append_left _ (ho.asked r hr)
        · obtain rfl := List.mem_singleton.1 hr
          exact List.mem_append_left _ hk
      · intro p a'
        rw [answered_update hthreads, hanswer]
        constructor
        · rintro (⟨rfl, ha⟩ | ⟨_, ha⟩)
          · cases ha
            exact ⟨k, List.mem_append_right _ (List.mem_singleton_self _)⟩
          · obtain ⟨k', hk'⟩ := (ho.answered p a').1 ha
            exact ⟨k', List.mem_append_left _ hk'⟩
        · rintro ⟨k', hk'⟩
          rcases List.mem_append.1 hk' with hk' | hk'
          · have ha := (ho.answered p a').2 ⟨k', hk'⟩
            refine .inr ⟨?_, ha⟩
            rintro rfl
            exact hnone a' ha
          · cases List.mem_singleton.1 hk'
            exact .inl ⟨rfl, rfl⟩

/--
**Calls are served one after another, in the order in which they end.** One list serves for
every moment of a run: what has answered by then is its beginning.
-/
theorem inOrder {s : σ} (h : Serves P L view answer serve For)
    (hL : ∀ pre c₁, P.run (Config.idle s) pre = some c₁ → ∀ p t, c₁.threads p = some t
      → L c₁.store t)
    (hr : P.run (Config.idle s) as = some c) :
    ∃ log : List (Served κ ρ), ∀ pre post c₁, as = pre ++ post
      → P.run (Config.idle s) pre = some c₁ →
      ∃ n, InOrder view answer serve (view s) pre c₁ (log.take n) := by
  suffices hall : ∃ log : List (Served κ ρ), InOrder view answer serve (view s) as c log
    ∧ AtCalls For as c
      ∧ ∀ pre post c₁, as = pre ++ post → P.run (Config.idle s) pre = some c₁ →
        ∃ n ≤ log.length, InOrder view answer serve (view s) pre c₁ (log.take n) by
    obtain ⟨log, _, _, hlog⟩ := hall
    refine ⟨log, fun pre post c₁ has hpre => ?_⟩
    obtain ⟨n, _, hn⟩ := hlog pre post c₁ has hpre
    exact ⟨n, hn⟩
  induction as using List.reverseRecOn generalizing c with
  | nil =>
    cases hr
    have hidle : InOrder view answer serve (view s) ([] : List (Act κ ι))
        (Config.idle s : Config σ τ) [] :=
      ⟨rfl, List.nodup_nil, by simp, by simp [Config.Answered, Config.idle]⟩
    refine ⟨[], hidle, fun p t ht => absurd ht.symm (Option.some_ne_none t), ?_⟩
    intro pre post c₁ has hpre
    obtain ⟨rfl, _⟩ := List.append_eq_nil_iff.1 has.symm
    cases hpre
    exact ⟨0, Nat.le_refl _, hidle⟩
  | append_singleton as act ih =>
    rw [Program.run_append] at hr
    obtain ⟨c₀, hr₀, he⟩ := Option.bind_eq_some_iff.1 hr
    have he' : P.exec c₀ act = some c := by
      rw [Program.run] at he
      split at he
      · cases he
      rename_i hexec
      cases he
      exact hexec
    obtain ⟨log, ho, hc, hlog⟩ := ih hr₀
    obtain ⟨more, hmore⟩ := h.inOrder_exec (hL as c₀ hr₀) hc ho he'
    refine ⟨log ++ more, hmore, h.atCalls_exec (hL as c₀ hr₀) hc he', ?_⟩
    intro pre post c₁ has hpre
    rcases List.eq_nil_or_concat post with rfl | ⟨post, last, rfl⟩
    · -- the whole run
      rw [List.append_nil] at has
      subst has
      rw [Program.run_append, hr₀] at hpre
      obtain rfl : c = c₁ := by simpa [Program.run, he'] using hpre
      exact ⟨(log ++ more).length, Nat.le_refl _, by rwa [List.take_length]⟩
    · rw [List.concat_eq_append, ← List.append_assoc] at has
      obtain ⟨has, _⟩ := List.append_inj' has rfl
      obtain ⟨n, hn, hin⟩ := hlog pre post c₁ has hpre
      refine ⟨n, by rw [List.length_append]; omega, ?_⟩
      rwa [List.take_append_of_le_length hn]

end Serves

end Roamkit.Lib
