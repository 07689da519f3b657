import Roamkit.Pricing.ProfileSaves
import Mathlib.Tactic.SplitIfs

/-!
# What the version of a profile identifies

`Follows` is what the version promises of two states of a profile, the later after the
earlier: the version has not decreased, and the same version stands for the same terms. It
composes, so a run keeps it as soon as each of its steps does. `Careful` says which steps do.
-/

namespace Roamkit.Pricing.Proof

open Lib

/-- A later state of the profile carries the version on. -/
def Follows (s s' : Option ProfileRow) : Prop :=
  ∀ r, s = some r → ∃ r', s' = some r' ∧ r.version ≤ r'.version
    ∧ (r.version = r'.version → r.terms = r'.terms)

variable (s : Option ProfileRow) {r : ProfileRow} {o : ProfileObject} {previous : Option ProfileRow}
  {fields : List ProfileField} {t : ProfileThread}

theorem Follows.refl : Follows s s :=
  fun r hr => ⟨r, hr, Nat.le_refl _, fun _ => rfl⟩

theorem Follows.trans {s s' s'' : Option ProfileRow} (h : Follows s s') (h' : Follows s' s'') :
    Follows s s'' := by
  intro r hr
  obtain ⟨r', hr', hle, hterms⟩ := h r hr
  obtain ⟨r'', hr'', hle', hterms'⟩ := h' r' hr'
  refine ⟨r'', hr'', hle.trans hle', ?_⟩
  intro heq
  -- a version that comes back was never left
  exact (hterms (by omega)).trans (hterms' (by omega))

theorem Follows.some_iff {r' : ProfileRow} :
    Follows (some r) (some r')
      ↔ r.version < r'.version ∨ (r.version = r'.version ∧ r.terms = r'.terms) := by
  constructor
  · intro h
    obtain ⟨_, heq, hle, hterms⟩ := h r rfl
    cases heq
    by_cases hlt : r.version < r'.version
    · exact .inl hlt
    · exact .inr ⟨by omega, hterms (by omega)⟩
  · intro h q hq
    cases hq
    refine ⟨r', rfl, ?_, ?_⟩
    · omega
    · intro heq
      rcases h with hlt | ⟨-, hterms⟩
      · omega
      · exact hterms

theorem Follows.none : Follows none s := by
  intro r hr
  cases hr

/-! ## Careful saves -/

/-- A save of the whole object meets a row that it may replace. -/
def CarefulSave (o : ProfileObject) (previous : Option ProfileRow) (r : ProfileRow) : Prop :=
  if previous.any o.materialChanged then
    -- no other save has taken a version since this one read the row, or it took it for the same
    -- terms
    ∀ p, previous = some p → r.version ≤ p.version
      ∨ (r.version = p.version + 1 ∧ r.terms = o.row.terms)
  else
    -- the object is not stale
    r.version < o.version ∨ (r.version = o.version ∧ r.terms = o.row.terms)

/-- A save of some columns raises the version, or changes neither it nor the terms. -/
def CarefulFields (o : ProfileObject) (fields : List ProfileField) (r : ProfileRow) : Prop :=
  (.version ∈ fields ∧ r.version < o.version)
    ∨ ((.version ∈ fields → o.version = r.version)
      ∧ (.discountPercent ∈ fields → o.row.discountPercent = r.discountPercent)
      ∧ (.floorPolicy ∈ fields → o.floorPolicy = r.floorPolicy))

/-- The condition on a step that writes; an update the table refuses is under none. -/
def Careful (t : ProfileThread) (x : ProfileInput) : Prop :=
  ∀ r, s = some r →
    match t.pc, x with
    | .saving previous, .go =>
      t.adding = false → t.object.row.accepted = true → CarefulSave t.object previous r
    | .idle, .saveFields fields =>
      t.adding = false → (t.object.setFields fields r).accepted = true
        → CarefulFields t.object fields r
    | .idle, .saveOptimistic expectedVersion fields =>
      r.version = expectedVersion → ProfileThread.material fields = false →
        (t.object.setFields fields r).accepted = true → CarefulFields t.object fields r
    | _, _ => True

/-- What the read of a save has left in the object. -/
def Bumped (t : ProfileThread) : Prop :=
  ∀ p, t.pc = .saving (some p) → t.object.materialChanged p = true
    → t.object.version = p.version + 1

theorem bumped_version {p : ProfileRow} (hprevious : previous = some p)
    (h : (o.bumped previous).materialChanged p = true) :
    (o.bumped previous).version = p.version + 1 := by
  subst hprevious
  unfold ProfileObject.bumped at h ⊢
  dsimp only at h ⊢
  by_cases hmaterial : o.materialChanged p = true
  · rw [if_pos hmaterial]
  · rw [if_neg hmaterial] at h
    exact absurd h hmaterial

theorem terms_setFields :
    r.terms = (o.setFields fields r).terms
      ↔ (.discountPercent ∈ fields → o.row.discountPercent = r.discountPercent)
        ∧ (.floorPolicy ∈ fields → o.floorPolicy = r.floorPolicy) := by
  have hset : ∀ {α : Type} {p : Prop} [Decidable p] (a b : α), b = (if p then a else b)
      ↔ (p → a = b) := by
    intro α p _ a b
    by_cases hp : p
    · rw [if_pos hp]
      exact ⟨fun h _ => h.symm, fun h => (h hp).symm⟩
    · rw [if_neg hp]
      exact ⟨fun _ h => absurd h hp, fun _ => rfl⟩
  unfold ProfileRow.terms ProfileObject.setFields
  rw [Prod.mk.injEq]
  exact and_congr (hset _ _) (hset _ _)

/-- **A save of some columns keeps the promise exactly when it is careful.** -/
theorem setFields_follows :
    Follows (some r) (some (o.setFields fields r)) ↔ CarefulFields o fields r := by
  rw [Follows.some_iff, terms_setFields]
  unfold CarefulFields ProfileObject.setFields
  dsimp only
  by_cases hversion : .version ∈ fields
  · rw [if_pos hversion]
    constructor
    · rintro (hlt | ⟨heq, hterms⟩)
      · exact .inl ⟨hversion, hlt⟩
      · exact .inr ⟨fun _ => heq.symm, hterms⟩
    · rintro (⟨-, hlt⟩ | ⟨heq, hterms⟩)
      · exact .inl hlt
      · exact .inr ⟨(heq hversion).symm, hterms⟩
  · rw [if_neg hversion]
    constructor
    · rintro (hlt | ⟨-, hterms⟩)
      · omega
      · exact .inr ⟨fun hc => absurd hc hversion, hterms⟩
    · rintro (⟨hc, -⟩ | ⟨-, hterms⟩)
      · exact absurd hc hversion
      · exact .inr ⟨rfl, hterms⟩

theorem row_follows
    (hbumped : ∀ p, previous = some p → o.materialChanged p = true → o.version = p.version + 1) :
    Follows (some r) (some o.row) ↔ CarefulSave o previous r := by
  rw [Follows.some_iff]
  have hversion : o.row.version = o.version := rfl
  unfold CarefulSave
  by_cases hmaterial : previous.any o.materialChanged = true
  · rw [if_pos hmaterial]
    obtain ⟨p, rfl, hp⟩ := (Option.any_eq_true _ _).1 hmaterial
    have hnext := hbumped p rfl hp
    rw [hversion, hnext]
    constructor
    · intro h q hq
      cases hq
      rcases h with hlt | ⟨heq, hterms⟩
      · exact .inl (by omega)
      · exact .inr ⟨heq, hterms⟩
    · intro h
      rcases h p rfl with hle | ⟨heq, hterms⟩
      · exact .inl (by omega)
      · exact .inr ⟨heq, hterms⟩
  · rw [if_neg hmaterial, hversion]

theorem writeAll_follows
    (hbumped : ∀ p, previous = some p → t.object.materialChanged p = true
      → t.object.version = p.version + 1) :
    Follows (some r) (t.writeAll (some r)).1
      ↔ (t.adding = false → t.object.row.accepted = true → CarefulSave t.object previous r) := by
  unfold ProfileThread.writeAll
  by_cases hwrites : (t.object.row.accepted && !(t.adding && (some r).isSome)) = true
  · rw [if_pos hwrites]
    rw [Bool.and_eq_true, Option.isSome_some, Bool.and_true, Bool.not_eq_true'] at hwrites
    rw [row_follows hbumped]
    exact ⟨fun h _ _ => h, fun h => h hwrites.2 hwrites.1⟩
  · rw [if_neg hwrites]
    refine ⟨fun _ hadding haccepted => ?_, fun _ => Follows.refl _⟩
    rw [hadding, haccepted] at hwrites
    exact absurd rfl hwrites

theorem writeFields_follows :
    Follows (some r) (t.writeFields (some r) fields).1
      ↔ (t.adding = false → (t.object.setFields fields r).accepted = true →
          CarefulFields t.object fields r) := by
  unfold ProfileThread.writeFields
  by_cases hadding : t.adding = true
  · -- the insert of a key that is there is refused
    have hrefused : (t.writeAll (some r)).1 = some r := by
      unfold ProfileThread.writeAll
      rw [hadding, if_neg (by simp)]
    rw [if_pos hadding, hrefused]
    exact ⟨fun _ hc => absurd hadding (by rw [hc]; decide), fun _ => Follows.refl _⟩
  · rw [if_neg hadding]
    rw [Bool.not_eq_true] at hadding
    dsimp only
    by_cases haccepted : (t.object.setFields fields r).accepted = true
    · rw [if_pos haccepted, setFields_follows]
      exact ⟨fun h _ _ => h, fun h => h hadding haccepted⟩
    · rw [if_neg haccepted]
      exact ⟨fun _ _ hc => absurd hc haccepted, fun _ => Follows.refl _⟩

theorem writeOptimistic_follows {expectedVersion : Nat} :
    Follows (some r) (t.writeOptimistic (some r) expectedVersion fields).1
      ↔ (r.version = expectedVersion → ProfileThread.material fields = false →
          (t.object.setFields fields r).accepted = true → CarefulFields t.object fields r) := by
  unfold ProfileThread.writeOptimistic
  dsimp only
  by_cases hmaterial : ProfileThread.material fields = true
  · -- the update and the comparison are one statement, and the next version is fresh
    rw [if_pos hmaterial, if_pos hmaterial]
    refine ⟨fun _ _ hc => ?_, fun _ => ?_⟩
    · rw [hmaterial] at hc
      cases hc
    · split
      · rename_i hwrites
        rw [Bool.and_eq_true, decide_eq_true_eq] at hwrites
        rw [setFields_follows]
        exact .inl ⟨List.mem_cons_self .., by dsimp only; omega⟩
      · exact Follows.refl _
  · rw [if_neg hmaterial, if_neg hmaterial]
    rw [Bool.not_eq_true] at hmaterial
    by_cases hwrites :
      (decide (r.version = expectedVersion) && (t.object.setFields fields r).accepted) = true
    · rw [if_pos hwrites, setFields_follows]
      rw [Bool.and_eq_true, decide_eq_true_eq] at hwrites
      exact ⟨fun h _ _ _ => h, fun h => h hwrites.1 hmaterial hwrites.2⟩
    · rw [if_neg hwrites]
      refine ⟨fun _ hversion _ haccepted => ?_, fun _ => Follows.refl _⟩
      rw [hversion, haccepted] at hwrites
      exact absurd (by simp) hwrites

/-- **A step keeps the promise exactly when it is careful.** -/
theorem step_follows_iff {s s' : Option ProfileRow} {t' : ProfileThread} {x : ProfileInput}
    (hbumped : Bumped t) (h : profileStep s t x = some (s', t')) :
    Follows s s' ↔ Careful s t x := by
  cases s with
  | none => exact ⟨fun _ r hr => (nomatch hr), fun _ => Follows.none s'⟩
  | some r =>
    have hone : ∀ p : ProfileRow → Prop, (∀ q, some r = some q → p q) ↔ p r := by
      intro p
      exact ⟨fun hp => hp r rfl, fun hp q hq => Option.some.inj hq ▸ hp⟩
    obtain ⟨object, adding, pc⟩ := t
    unfold Careful
    rw [hone]
    unfold profileStep at h
    cases pc with
    | idle =>
      cases x with
      | refresh =>
        cases h
        exact ⟨fun _ => trivial, fun _ => Follows.refl _⟩
      | assign o =>
        cases h
        exact ⟨fun _ => trivial, fun _ => Follows.refl _⟩
      | save =>
        cases h
        exact ⟨fun _ => trivial, fun _ => Follows.refl _⟩
      | saveFields fields =>
        have hs : ((⟨object, adding, .idle⟩ : ProfileThread).writeFields (some r) fields).1 = s' :=
          congrArg Prod.fst (Option.some.inj h)
        rw [← hs]
        exact writeFields_follows
      | saveOptimistic expectedVersion fields =>
        have hs :
          ((⟨object, adding, .idle⟩ : ProfileThread).writeOptimistic (some r) expectedVersion
            fields).1 = s' := congrArg Prod.fst (Option.some.inj h)
        rw [← hs]
        exact writeOptimistic_follows
      | edit discountPercent floorPolicy =>
        cases h
        exact ⟨fun _ => trivial, fun _ => Follows.refl _⟩
      | go => cases h
    | saving previous =>
      cases x with
      | go =>
        have hs : ((⟨object, adding, .saving previous⟩ : ProfileThread).writeAll (some r)).1 = s' :=
          congrArg Prod.fst (Option.some.inj h)
        rw [← hs]
        refine writeAll_follows ?_
        rintro p rfl hmaterial
        exact hbumped p rfl hmaterial
      | _ => cases h
    | adminFilled =>
      cases x with
      | go =>
        cases h
        exact ⟨fun _ => trivial, fun _ => Follows.refl _⟩
      | _ => cases h
    | adminRead expected =>
      cases x with
      | go =>
        dsimp only at h
        split at h
        · cases h
          exact ⟨fun _ => trivial, fun _ => Follows.refl _⟩
        · cases h
          exact ⟨fun _ => trivial, fun _ => Follows.refl _⟩
      | _ => cases h
    | adminAligned =>
      cases x with
      | go =>
        cases h
        exact ⟨fun _ => trivial, fun _ => Follows.refl _⟩
      | _ => cases h

/-! ## Runs -/

/-- The table may be in any state at the start. -/
def AnyRow (_ : Option ProfileRow) : Prop := True

/-- **What a thread has read is what it counts from**, whatever the others write. -/
theorem bumped_invariant (init : Option ProfileRow → Prop)
    (ok : Option ProfileRow → ProfileThread → ProfileInput → Prop) :
    Invariant profileProgram init ok (fun _ => True) (fun _ t => Bumped t) (fun _ _ => True) where
  init := fun _ => trivial
  start := fun _ _ p hp => (nomatch hp)
  apart_start := fun _ _ => trivial
  symm := fun _ => trivial
  step := by
    intro s t x s' t' _ hbumped _ h
    refine ⟨trivial, ?_⟩
    obtain ⟨object, adding, pc⟩ := t
    have hread : ∀ o b q, Bumped ((⟨o, b, q⟩ : ProfileThread).readPrevious s) := by
      intro o b q p hp hmaterial
      exact bumped_version (ProfilePc.saving.inj hp) hmaterial
    have hidle : ∀ u : ProfileThread, (∀ p, u.pc ≠ .saving p) → Bumped u := by
      intro u hu p hp
      exact absurd hp (hu _)
    have hall : ∀ o b q, Bumped ((⟨o, b, q⟩ : ProfileThread).writeAll s).2 := by
      intro o b q
      refine hidle _ fun p => ?_
      intro hc
      unfold ProfileThread.writeAll at hc
      split at hc
      · cases hc
      · cases hc
    have hstep : profileStep s ⟨object, adding, pc⟩ x = some (s', t') := h
    unfold profileStep at hstep
    cases pc with
    | idle =>
      cases x with
      | refresh =>
        obtain ⟨r, -, hr⟩ := Option.map_eq_some_iff.1 hstep
        cases hr
        exact hidle _ fun _ hc => (nomatch hc)
      | assign o =>
        cases hstep
        exact hidle _ fun _ hc => (nomatch hc)
      | save =>
        cases hstep
        exact hread _ _ _
      | saveFields fields =>
        have ht : ((⟨object, adding, .idle⟩ : ProfileThread).writeFields s fields).2 = t' :=
          congrArg Prod.snd (Option.some.inj hstep)
        rw [← ht]
        unfold ProfileThread.writeFields
        split
        · exact hall _ _ _
        · refine hidle _ fun p => ?_
          cases s with
          | none => exact fun hc => (nomatch hc)
          | some r =>
            dsimp only
            split
            · exact fun hc => (nomatch hc)
            · exact fun hc => (nomatch hc)
      | saveOptimistic expectedVersion fields =>
        have ht :
            ((⟨object, adding, .idle⟩ : ProfileThread).writeOptimistic s expectedVersion fields).2
              = t' :=
          congrArg Prod.snd (Option.some.inj hstep)
        rw [← ht]
        refine hidle _ fun p => ?_
        unfold ProfileThread.writeOptimistic
        cases s with
        | none => exact fun hc => (nomatch hc)
        | some r =>
          intro hc
          dsimp only at hc
          split_ifs at hc
      | edit discountPercent floorPolicy =>
        obtain ⟨r, -, hr⟩ := Option.map_eq_some_iff.1 hstep
        cases hr
        exact hidle _ fun _ hc => (nomatch hc)
      | go => cases hstep
    | saving previous =>
      cases x with
      | go =>
        have ht : ((⟨object, adding, .saving previous⟩ : ProfileThread).writeAll s).2 = t' :=
          congrArg Prod.snd (Option.some.inj hstep)
        rw [← ht]
        exact hall _ _ _
      | _ => cases hstep
    | adminFilled =>
      cases x with
      | go =>
        cases s with
        | none =>
          cases hstep
          exact hidle _ fun _ hc => (nomatch hc)
        | some r =>
          cases hstep
          exact hidle _ fun _ hc => (nomatch hc)
      | _ => cases hstep
    | adminRead expected =>
      cases x with
      | go =>
        cases s with
        | none =>
          cases hstep
          exact hidle _ fun _ hc => (nomatch hc)
        | some r =>
          dsimp only at hstep
          split at hstep
          · cases hstep
            exact hidle _ fun _ hc => (nomatch hc)
          · cases hstep
            exact hidle _ fun _ hc => (nomatch hc)
      | _ => cases hstep
    | adminAligned =>
      cases x with
      | go =>
        cases hstep
        exact hread _ _ _
      | _ => cases hstep
  frame := fun _ _ _ _ hu _ => ⟨hu, trivial⟩

/-- **The version of a profile identifies its terms and never decreases, in every run whose
saves are careful**, from any state the table may be in at the start. -/
theorem version_identifies_terms {c c' : Config (Option ProfileRow) ProfileThread}
    (h : profileProgram.ReachWhere AnyRow Careful c) (hl : profileProgram.LeadsWhere Careful c c') :
    Follows c.store c'.store := by
  refine hl.keeps h Follows.refl (fun _ _ _ => Follows.trans) ?_
  intro g p t x s' t' hg ht hcareful hstep
  have hbumped := ((bumped_invariant _ _).reach hg).thread p t ht
  exact (step_follows_iff hbumped hstep).2 hcareful

/-! ## Two operators -/

/-- A profile of the given discount, in percent. -/
def percentOff (percent : Int) (version : Nat) : ProfileObject :=
  ⟨⟨percent, 0⟩, .wholesale, version⟩

def createsProfile : List (Act ProfileObject ProfileInput) :=
  [.call 0 (percentOff 10 1), .tick 0 .save, .tick 0 .go]

/-- An operator fills in the form, and the view goes up to the write. -/
def editsTo (p : Nat) (percent : Int) : List (Act ProfileObject ProfileInput) :=
  [.call p (percentOff 0 1), .tick p (.edit ⟨percent, 0⟩ .wholesale), .tick p .go, .tick p .go,
    .tick p .go]

/-- Saves of new objects, and of changed ones that no other save has overtaken. -/
def inTurn (t : ProfileThread) (x : ProfileInput) : Bool :=
  match s, t.pc, x with
  | none, _, _ => true
  | some _, .idle, .saveFields _ => false
  | some _, .idle, .saveOptimistic _ _ => false
  | some r, .saving (some p), .go => t.object.materialChanged p && r.version ≤ p.version
  | some _, .saving none, .go => false
  | some _, _, _ => true

theorem careful_of_inTurn {s : Option ProfileRow} {x : ProfileInput}
    (h : inTurn s t x = true) : Careful s t x := by
  rintro r rfl
  obtain ⟨object, adding, pc⟩ := t
  cases pc with
  | saving previous =>
    cases x with
    | go =>
      cases previous with
      | none => cases h
      | some p =>
        intro _ _
        have hboth : (object.materialChanged p && decide (r.version ≤ p.version)) = true := h
        rw [Bool.and_eq_true, decide_eq_true_eq] at hboth
        unfold CarefulSave
        rw [if_pos (by simpa using hboth.1)]
        intro q hq
        cases hq
        exact .inl hboth.2
    | _ => trivial
  | idle =>
    cases x with
    | saveFields _ => cases h
    | saveOptimistic _ _ => cases h
    | _ => trivial
  | _ => cases x <;> trivial

/-- One operator after the creation. -/
theorem version_identifies_terms_inTurn :
    ∃ c c' : Config (Option ProfileRow) ProfileThread,
      c.store = some ⟨1000, .wholesale, 1⟩ ∧ c'.store = some ⟨2000, .wholesale, 2⟩
        ∧ Follows c.store c'.store := by
  have hempty : AnyRow none := trivial
  obtain ⟨c, c', hc, hl, hstores⟩ := profileProgram.leadsWhere_check inTurn
    (fun _ _ _ => careful_of_inTurn) hempty createsProfile (editsTo 1 20 ++ [.tick 1 .go])
    (fun c c' => c.store = some ⟨1000, .wholesale, 1⟩ && c'.store = some ⟨2000, .wholesale, 2⟩)
    (by decide)
  rw [Bool.and_eq_true, decide_eq_true_eq, decide_eq_true_eq] at hstores
  exact ⟨c, c', hstores.1, hstores.2, version_identifies_terms hc hl⟩

/-- Two operators edit at once: both read version 1, and each writes its own version 2. -/
theorem version_reused :
    ∃ c c' : Config (Option ProfileRow) ProfileThread,
      profileProgram.Reach AnyRow c ∧ profileProgram.LeadsWhere (fun _ _ _ => True) c c'
        ∧ c.store = some ⟨2000, .wholesale, 2⟩ ∧ c'.store = some ⟨3000, .wholesale, 2⟩ := by
  have hempty : AnyRow none := trivial
  obtain ⟨c, c', hc, hl, hstores⟩ := profileProgram.leadsWhere_check (fun _ _ _ => true)
    (fun _ _ _ _ => trivial) hempty
    (createsProfile ++ editsTo 1 20 ++ editsTo 2 30 ++ [.tick 1 .go]) [.tick 2 .go]
    (fun c c' => c.store = some ⟨2000, .wholesale, 2⟩ && c'.store = some ⟨3000, .wholesale, 2⟩)
    (by decide)
  rw [Bool.and_eq_true, decide_eq_true_eq, decide_eq_true_eq] at hstores
  exact ⟨c, c', hc, hl, hstores.1, hstores.2⟩

end Roamkit.Pricing.Proof
