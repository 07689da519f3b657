import Roamkit.Proof.SpendOps

/-!
# What a fulfilment creates

The last transaction of an order makes one eSIM for each SIM the provider sent,
and with each eSIM its initial credit, unless a top-up has the key of the credit
already. Here is what can be read off the rows afterwards.
-/

namespace Roamkit.Spend.Proof

open Lib Billing Billing.Proof

variable {esim : Esim} {n : Nat} {sims : List Airalo.OrderedSimDTO}

/-- An initial credit is recorded, or its key is taken and nothing is. -/
theorem ensureInitialCredit_cases {s s' : SpendDb} {o : Order} {package : Package} {pk : Uuid}
    (h : ensureInitialCredit s esim o package pk = .ok s') :
    (s' = s ∧ ∃ t ∈ s.topups, t.idempotencyKey = initialCreditKey esim.id)
      ∨ ∃ amount topups, s.topups.insert? (initialCredit esim o package amount pk) = some topups
        ∧ s' = { s with topups }
        ∧ (∀ t ∈ s.topups, t.idempotencyKey ≠ initialCreditKey esim.id)
        ∧ amountOfCents (initialCreditPrice o package) = some amount := by
  unfold ensureInitialCredit at h
  split at h
  · rename_i hsome
    cases h
    obtain ⟨t, ht⟩ := Option.isSome_iff_exists.1 hsome
    exact .inl ⟨rfl, t, Table.mem_of_find? ht, by simpa using Table.prop_of_find? ht⟩
  · rename_i hnone
    split at h
    · cases h
    split at h
    · cases h
    rename_i amount hamount
    split at h
    · cases h
    rename_i topups hi
    cases h
    refine .inr ⟨amount, topups, hi, rfl, ?_, hamount⟩
    intro t ht
    rw [Option.not_isSome_iff_eq_none] at hnone
    simpa using Table.not_of_find? hnone ht

/-- An eSIM is inserted, and then its initial credit is seen to. -/
theorem createPurchased_cases {s s' : SpendDb} {o : Order} {user : UserId} {package : Package}
    {guide : String} {sim : Airalo.OrderedSimDTO} {pk : Nat} {topupId : Uuid}
    (h : createPurchased s o user package guide sim pk topupId = .ok s') :
    ∃ esims, s.esims.insert? (purchasedEsim o user sim pk s.now) = some esims
      ∧ ensureInitialCredit { s with esims } (purchasedEsim o user sim pk s.now) o package topupId
        = .ok s' := by
  unfold createPurchased at h
  split at h
  · cases h
  dsimp only at h
  split at h
  · cases h
  · rename_i esims hi
    exact ⟨esims, hi, h⟩

/-- An accrual touches the books and the accruals. -/
theorem accrue_rows {c : SpendSettings} {s s' : SpendDb} {sourceType : SourceType}
    {sourceId : String} {list net : Option Dec} {customer : Option UserId} {d : PersistDraw}
    (h : s.accrue c sourceType sourceId list net customer d = .ok s') :
    s'.esims = s.esims ∧ s'.topups = s.topups ∧ s'.orders = s.orders := by
  obtain ⟨m, _, h⟩ := bind_ok h
  cases h
  exact ⟨rfl, rfl, rfl⟩

theorem initialCreditKey_inj {m : Nat} (h : initialCreditKey m = initialCreditKey n) : m = n := by
  have hlist := congrArg String.toList h
  rw [initialCreditKey, initialCreditKey, String.toList_append, String.toList_append] at hlist
  exact toString_nat_inj (String.toList_injective (List.append_cancel_left hlist))

/-- A top-up has the key of the initial credit of an eSIM. -/
def HasCredit (s : SpendDb) (esim : Nat) : Prop :=
  ∃ t ∈ s.topups, t.idempotencyKey = initialCreditKey esim

section Storing

variable (s : SpendDb) (o : Order) (user : UserId) (package : Package) (guide : String)
  (d : PersistDraw)

/-- The eSIM that is made for a SIM and its place in the reply. -/
def esimOf (x : Airalo.OrderedSimDTO × Nat) : Esim := purchasedEsim o user x.1 (d.sim x.2).1 s.now

/-- The eSIM of a SIM can be stored next to those that are there. -/
structure Fits (x : Airalo.OrderedSimDTO × Nat) : Prop where
  values : simFits x.1 guide = true
  unused : ∀ e ∈ s.esims, ¬ Constraint.clash e (esimOf s o user d x)
  /-- Its initial credit is there, or it is an amount that can be stored too. -/
  credit : HasCredit s (d.sim x.2).1
    ∨ ∃ amount, amountOfCents (initialCreditPrice o package) = some amount ∧ ∀ t ∈ s.topups,
      ¬ Constraint.clash t (initialCredit (esimOf s o user d x) o package amount (d.sim x.2).2)

/-- The eSIMs of two SIMs can be stored together, and so can their initial credits. -/
structure Apart (x y : Airalo.OrderedSimDTO × Nat) : Prop where
  esims : ¬ Constraint.clash (esimOf s o user d x) (esimOf s o user d y)
  credits : HasCredit s (d.sim x.2).1 ∨ HasCredit s (d.sim y.2).1 ∨ (d.sim x.2).2 ≠ (d.sim y.2).2

/-- Everything that is made of the SIMs of a reply can be stored. -/
structure SimsFit (n : Nat) (sims : List Airalo.OrderedSimDTO) : Prop where
  fits : ∀ x ∈ sims.zipIdx n, Fits s o user package guide d x
  apart : (sims.zipIdx n).Pairwise (Apart s o user d)

end Storing

section Stored

variable {s s' : SpendDb} {o : Order} {user : UserId} {package : Package} {guide : String}
  {d : PersistDraw} {x y z : Airalo.OrderedSimDTO × Nat}

/-- What a first SIM leaves for the next: its eSIM, and a top-up under the key of its credit. -/
structure Leaves (s s' : SpendDb) (o : Order) (user : UserId) (package : Package) (d : PersistDraw)
    (x : Airalo.OrderedSimDTO × Nat) : Prop where
  now : s'.now = s.now
  esims : ∀ e, e ∈ s'.esims ↔ e ∈ s.esims ∨ e = esimOf s o user d x
  topups : (HasCredit s (d.sim x.2).1 ∧ s'.topups = s.topups)
    ∨ (¬ HasCredit s (d.sim x.2).1 ∧ ∃ amount, ∀ t, t ∈ s'.topups ↔
      t ∈ s.topups ∨ t = initialCredit (esimOf s o user d x) o package amount (d.sim x.2).2)

/-- A first SIM gives no credit to the eSIM of another. -/
theorem Leaves.hasCredit (h : Leaves s s' o user package d x)
    (hne : (d.sim x.2).1 ≠ (d.sim y.2).1) :
    HasCredit s' (d.sim y.2).1 ↔ HasCredit s (d.sim y.2).1 := by
  unfold HasCredit
  rcases h.topups with ⟨_, htopups⟩ | ⟨_, amount, htopups⟩
  · rw [htopups]
  · constructor
    · intro ⟨t, ht, hkey⟩
      rcases (htopups t).1 ht with ht | rfl
      · exact ⟨t, ht, hkey⟩
      · exact absurd (initialCreditKey_inj hkey) hne
    · intro ⟨t, ht, hkey⟩
      exact ⟨t, (htopups t).2 (.inl ht), hkey⟩

theorem Apart.ids (h : Apart s o user d x y) : (d.sim x.2).1 ≠ (d.sim y.2).1 :=
  fun heq => h.esims (.inl heq)

theorem Leaves.esimOf (h : Leaves s s' o user package d x) :
    esimOf s' o user d y = esimOf s o user d y := by
  unfold Proof.esimOf
  rw [h.now]

/-- **After a first SIM the next can be stored exactly if it could before, and with the first.** -/
theorem Leaves.fits (h : Leaves s s' o user package d x) :
    Fits s' o user package guide d y ↔ Fits s o user package guide d y ∧ Apart s o user d x y := by
  constructor
  · -- the rows before are among those after, and the first SIM's rows are the others
    intro ⟨hvalues, hunused, hcredit⟩
    rw [h.esimOf] at hunused hcredit
    have hids : (d.sim x.2).1 ≠ (d.sim y.2).1 :=
      fun heq => hunused _ ((h.esims _).2 (.inr rfl)) (.inl heq)
    rw [h.hasCredit hids] at hcredit
    refine ⟨⟨hvalues, fun e he => hunused e ((h.esims e).2 (.inl he)), ?_⟩,
      hunused _ ((h.esims _).2 (.inr rfl)), ?_⟩
    · rcases hcredit with hold | ⟨amount, hamount, hclash⟩
      · exact .inl hold
      · refine .inr ⟨amount, hamount, fun t ht => hclash t ?_⟩
        rcases h.topups with ⟨_, htopups⟩ | ⟨_, _, htopups⟩
        · rwa [htopups]
        · exact (htopups t).2 (.inl ht)
    · rcases h.topups with ⟨hold, _⟩ | ⟨_, amount, htopups⟩
      · exact .inl hold
      · rcases hcredit with hold | ⟨amount', _, hclash⟩
        · exact .inr (.inl hold)
        · exact .inr (.inr fun heq => hclash _ ((htopups _).2 (.inr rfl)) (.inl heq))
  · intro ⟨⟨hvalues, hunused, hcredit⟩, hapart⟩
    refine ⟨hvalues, ?_, ?_⟩
    · intro e he
      rw [h.esimOf]
      rcases (h.esims e).1 he with he | rfl
      · exact hunused e he
      · exact hapart.esims
    · rw [h.hasCredit hapart.ids, h.esimOf]
      rcases hcredit with hold | ⟨amount, hamount, hclash⟩
      · exact .inl hold
      · by_cases hy : HasCredit s (d.sim y.2).1
        · exact .inl hy
        refine .inr ⟨amount, hamount, ?_⟩
        intro t ht
        rcases h.topups with ⟨_, htopups⟩ | ⟨hx, amount', htopups⟩
        · rw [htopups] at ht
          exact hclash t ht
        · rcases (htopups t).1 ht with ht | rfl
          · exact hclash t ht
          · -- the two credits are for different eSIMs, so only their ids could be one
            rintro (hid | hkey | ⟨hesim, _⟩)
            · rcases hapart.credits with hold | hold | hne
              · exact hx hold
              · exact hy hold
              · exact hne hid
            · exact hapart.ids (initialCreditKey_inj hkey)
            · exact hapart.ids hesim

/-- Whether two other SIMs can be stored together is not for the first to say. -/
theorem Leaves.apart (h : Leaves s s' o user package d x) (hy : Apart s o user d x y)
    (hz : Apart s o user d x z) : Apart s' o user d y z ↔ Apart s o user d y z := by
  constructor
  · intro ⟨hesims, hcredits⟩
    rw [h.esimOf, h.esimOf] at hesims
    rw [h.hasCredit hy.ids, h.hasCredit hz.ids] at hcredits
    exact ⟨hesims, hcredits⟩
  · intro ⟨hesims, hcredits⟩
    rw [← h.hasCredit hy.ids, ← h.hasCredit hz.ids] at hcredits
    rw [← h.esimOf (y := y), ← h.esimOf (y := z)] at hesims
    exact ⟨hesims, hcredits⟩

/-- What can be stored depends on the rows that are there and on the time. -/
theorem SimsFit.congr (h : SimsFit s o user package guide d n sims) (hesims : s'.esims = s.esims)
    (htopups : s'.topups = s.topups) (hnow : s'.now = s.now) :
    SimsFit s' o user package guide d n sims := by
  have hesim : ∀ x, esimOf s' o user d x = esimOf s o user d x := by
    intro x
    unfold Proof.esimOf
    rw [hnow]
  have hcredit : ∀ n, HasCredit s' n ↔ HasCredit s n := by
    intro n
    unfold HasCredit
    rw [htopups]
  refine ⟨?_, h.apart.imp ?_⟩
  · intro x hx
    obtain ⟨hvalues, hunused, hfits⟩ := h.fits x hx
    rw [← hesims, ← hesim] at hunused
    rw [← hcredit, ← htopups, ← hesim] at hfits
    exact ⟨hvalues, hunused, hfits⟩
  · intro x y ⟨hclash, hcredits⟩
    rw [← hesim x, ← hesim y] at hclash
    rw [← hcredit, ← hcredit] at hcredits
    exact ⟨hclash, hcredits⟩

end Stored

end Roamkit.Spend.Proof
