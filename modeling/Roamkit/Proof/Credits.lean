import Roamkit.Proof.Esims
import Roamkit.Proof.SpendSound

/-!
# The initial credit of every eSIM

An eSIM comes with a top-up of number 0 for what its order charged, made under a
key of its own. As long as nobody else makes a row under such a key, every eSIM
has its credit: the look-up by key finds none when the eSIM is new, and what is
made then is never rewritten but for its status.
-/

namespace Roamkit.Spend.Proof

open Lib Billing Billing.Proof

/-! ## What is never rewritten -/

/-- One top-up at two times. -/
structure SameTopup (w w' : Topup) : Prop where
  id : w'.id = w.id
  account : w'.account = w.account
  esim : w'.esim = w.esim
  amount : w'.amount = w.amount
  sequence : w'.sequence = w.sequence
  idempotencyKey : w'.idempotencyKey = w.idempotencyKey

theorem SameTopup.refl (w : Topup) : SameTopup w w := ⟨rfl, rfl, rfl, rfl, rfl, rfl⟩

theorem SameTopup.trans {w w' w'' : Topup} (h : SameTopup w w') (h' : SameTopup w' w'') :
    SameTopup w w'' :=
  ⟨h'.id.trans h.id, h'.account.trans h.account, h'.esim.trans h.esim, h'.amount.trans h.amount,
    h'.sequence.trans h.sequence, h'.idempotencyKey.trans h.idempotencyKey⟩

/-- One order at two times. -/
structure SameOrder (o o' : Order) : Prop where
  id : o'.id = o.id
  account : o'.account = o.account
  retailPriceUsd : o'.retailPriceUsd = o.retailPriceUsd

theorem SameOrder.refl (o : Order) : SameOrder o o := ⟨rfl, rfl, rfl⟩

theorem SameOrder.trans {o o' o'' : Order} (h : SameOrder o o') (h' : SameOrder o' o'') :
    SameOrder o o'' :=
  ⟨h'.id.trans h.id, h'.account.trans h.account, h'.retailPriceUsd.trans h.retailPriceUsd⟩

/-- One eSIM at two times. -/
structure SameEsim (e e' : Esim) : Prop where
  id : e'.id = e.id
  order : e'.order = e.order

/-- The rows of one database stay in another, and what is new among the top-ups is `new`. -/
structure Extends (new : Topup → Prop) (s s' : SpendDb) : Prop where
  orders : ∀ o ∈ s.orders, ∃ o' ∈ s'.orders, SameOrder o o'
  topups : ∀ w ∈ s.topups, ∃ w' ∈ s'.topups, SameTopup w w'
  esims : ∀ e ∈ s.esims, ∃ e' ∈ s'.esims, SameEsim e e'
  only : ∀ w' ∈ s'.topups, (∃ w ∈ s.topups, SameTopup w w')
    ∨ (new w' ∧ ∀ w ∈ s.topups, w.id ≠ w'.id)

/-- No eSIM is new. -/
def NoNewEsim (s s' : SpendDb) : Prop := ∀ e' ∈ s'.esims, ∃ e ∈ s.esims, SameEsim e e'

namespace Extends

variable {new new' : Topup → Prop} {s s' s'' : SpendDb}

/-- Rows that are kept as they are. -/
theorem of_rows (horders : s'.orders = s.orders) (htopups : s'.topups = s.topups)
    (hesims : ∀ e ∈ s.esims, ∃ e' ∈ s'.esims, SameEsim e e') : Extends new s s' := by
  refine ⟨?_, ?_, hesims, ?_⟩
  · intro o ho
    rw [horders]
    exact ⟨o, ho, .refl o⟩
  · intro w hw
    rw [htopups]
    exact ⟨w, hw, .refl w⟩
  · intro w hw
    rw [htopups] at hw
    exact .inl ⟨w, hw, .refl w⟩

theorem sameEsims (hesims : s'.esims = s.esims) :
    ∀ e ∈ s.esims, ∃ e' ∈ s'.esims, SameEsim e e' := by
  intro e he
  rw [hesims]
  exact ⟨e, he, rfl, rfl⟩

theorem weaken (h : Extends new s s') (hnew : ∀ w, new w → new' w) : Extends new' s s' := by
  refine ⟨h.orders, h.topups, h.esims, ?_⟩
  intro w hw
  rcases h.only w hw with hold | ⟨hn, hfresh⟩
  · exact .inl hold
  · exact .inr ⟨hnew w hn, hfresh⟩

theorem trans (h : Extends new s s') (h' : Extends new s' s'')
    (hcongr : ∀ w w', SameTopup w w' → new w → new w') : Extends new s s'' := by
  refine ⟨?_, ?_, ?_, ?_⟩
  · intro o ho
    obtain ⟨o', ho', hsame⟩ := h.orders o ho
    obtain ⟨o'', ho'', hsame'⟩ := h'.orders o' ho'
    exact ⟨o'', ho'', hsame.trans hsame'⟩
  · intro w hw
    obtain ⟨w', hw', hsame⟩ := h.topups w hw
    obtain ⟨w'', hw'', hsame'⟩ := h'.topups w' hw'
    exact ⟨w'', hw'', hsame.trans hsame'⟩
  · intro e he
    obtain ⟨e', he', hid, horder⟩ := h.esims e he
    obtain ⟨e'', he'', hid', horder'⟩ := h'.esims e' he'
    exact ⟨e'', he'', hid'.trans hid, horder'.trans horder⟩
  · intro w'' hw''
    rcases h'.only w'' hw'' with ⟨w', hw', hsame'⟩ | ⟨hn, hfresh⟩
    · rcases h.only w' hw' with ⟨w, hw, hsame⟩ | ⟨hn, hfresh⟩
      · exact .inl ⟨w, hw, hsame.trans hsame'⟩
      · refine .inr ⟨hcongr _ _ hsame' hn, ?_⟩
        intro w hw
        rw [hsame'.id]
        exact hfresh w hw
    · refine .inr ⟨hn, ?_⟩
      intro w hw
      obtain ⟨w', hw', hsame⟩ := h.topups w hw
      rw [← hsame.id]
      exact hfresh w' hw'

/-- A top-up is inserted. -/
theorem of_insert {w : Topup} {topups : Table Topup} (hi : s.topups.insert? w = some topups)
    (htopups : s'.topups = topups) (horders : s'.orders = s.orders)
    (hesims : ∀ e ∈ s.esims, ∃ e' ∈ s'.esims, SameEsim e e') (hnew : new w) : Extends new s s' := by
  refine ⟨?_, ?_, hesims, ?_⟩
  · intro o ho
    rw [horders]
    exact ⟨o, ho, .refl o⟩
  · intro v hv
    rw [htopups]
    exact ⟨v, (Table.mem_insert hi).2 (.inl hv), .refl v⟩
  · intro v hv
    rw [htopups] at hv
    rcases (Table.mem_insert hi).1 hv with hold | rfl
    · exact .inl ⟨v, hold, .refl v⟩
    · exact .inr ⟨hnew, fun u hu hid => Table.apart_of_insert hi hu (.inl hid)⟩

/-- A column of a top-up that may be rewritten is. -/
theorem of_saveTopup {id : Uuid} {f : Topup → Topup} {hf : Table.Keeps f}
    (hsame : ∀ w, SameTopup w (f w)) : Extends new s (s.saveTopup id f hf) := by
  have hmem := @Table.mem_update _ _ s.topups (·.id = id) f hf
  have hrewrite : ∀ w, SameTopup w (rewrite (·.id = id) f w) := by
    intro w
    unfold rewrite
    split
    · exact hsame w
    · exact .refl w
  refine ⟨fun o ho => ⟨o, ho, .refl o⟩, ?_, fun e he => ⟨e, he, rfl, rfl⟩, ?_⟩
  · intro w hw
    exact ⟨_, hmem.2 ⟨w, hw, rfl⟩, hrewrite w⟩
  · intro w' hw'
    obtain ⟨w, hw, rfl⟩ := hmem.1 hw'
    exact .inl ⟨w, hw, hrewrite w⟩

theorem of_saveOrder {id : Nat} {f : Order → Order} {hf : Table.Keeps f}
    (hsame : ∀ o, SameOrder o (f o)) : Extends new s (s.saveOrder id f hf) := by
  have hmem := @Table.mem_update _ _ s.orders (·.id = id) f hf
  refine ⟨?_, fun w hw => ⟨w, hw, .refl w⟩, fun e he => ⟨e, he, rfl, rfl⟩,
    fun w hw => .inl ⟨w, hw, .refl w⟩⟩
  intro o ho
  refine ⟨_, hmem.2 ⟨o, ho, rfl⟩, ?_⟩
  unfold rewrite
  split
  · exact hsame o
  · exact .refl o

end Extends

/-! ## The credits -/

/-- A key of an initial credit. -/
def IsInitialKey (key : String) : Prop := ∃ esim, key = initialCreditKey esim

/-- A top-up is the initial credit of an eSIM: on the account of its order, for what that
charged. -/
structure CreditOf (s : SpendDb) (e : Esim) (w : Topup) : Prop where
  esim : w.esim = e.id
  sequence : w.sequence = 0
  idempotencyKey : w.idempotencyKey = initialCreditKey e.id
  order : ∃ o ∈ s.orders, o.id = e.order ∧ w.account = o.account
    ∧ w.amount.micros = o.retailPriceUsd * 10000

structure CreditInv (s : SpendDb) : Prop where
  /-- A key of a credit is used for an eSIM that is there. -/
  keys : ∀ w ∈ s.topups, ∀ n, w.idempotencyKey = initialCreditKey n → ∃ e ∈ s.esims, e.id = n
  made : ∀ e ∈ s.esims, ∃ w ∈ s.topups, CreditOf s e w

theorem CreditOf.extends {new : Topup → Prop} {s s' : SpendDb} {e e' : Esim} {w w' : Topup}
    (h : CreditOf s e w) (hx : Extends new s s') (he : SameEsim e e') (hw : SameTopup w w') :
    CreditOf s' e' w' := by
  obtain ⟨o, ho, hid, hacc, hamount⟩ := h.order
  obtain ⟨o', ho', hsame⟩ := hx.orders o ho
  refine ⟨?_, hw.sequence.trans h.sequence, ?_, o', ho', ?_, ?_, ?_⟩
  · rw [hw.esim, h.esim, he.id]
  · rw [hw.idempotencyKey, h.idempotencyKey, he.id]
  · rw [hsame.id, hid, he.order]
  · rw [hw.account, hacc, hsame.account]
  · rw [hw.amount, hamount, hsame.retailPriceUsd]

/-- **Rows under other keys leave every eSIM its credit.** -/
theorem CreditInv.extends {new : Topup → Prop} {s s' : SpendDb} (h : CreditInv s)
    (hx : Extends new s s') (hesims : NoNewEsim s s')
    (hnew : ∀ w, new w → ¬ IsInitialKey w.idempotencyKey) : CreditInv s' := by
  refine ⟨?_, ?_⟩
  · intro w' hw' n hkey
    rcases hx.only w' hw' with ⟨w, hw, hsame⟩ | ⟨hn, _⟩
    · obtain ⟨e, he, hid⟩ := h.keys w hw n (hsame.idempotencyKey ▸ hkey)
      obtain ⟨e', he', hid', _⟩ := hx.esims e he
      exact ⟨e', he', hid'.trans hid⟩
    · exact absurd ⟨n, hkey⟩ (hnew w' hn)
  · intro e' he'
    obtain ⟨e, he, hesame⟩ := hesims e' he'
    obtain ⟨w, hw, hcredit⟩ := h.made e he
    obtain ⟨w', hw', hwsame⟩ := hx.topups w hw
    exact ⟨w', hw', hcredit.extends hx hesame hwsame⟩

/-! ## The loop over the SIMs -/

theorem amountOfCents_micros {n : Int} {a : Amount} (h : amountOfCents n = some a) :
    a.micros = n * 10000 := by
  unfold amountOfCents at h
  split at h
  · split at h
    · cases h
      rfl
    · cases h
  · cases h

/-- A new top-up under a key of a credit. -/
def NewCredit (w : Topup) : Prop := IsInitialKey w.idempotencyKey

theorem NewCredit.congr (w w' : Topup) (h : SameTopup w w') (hw : NewCredit w) : NewCredit w' := by
  rw [NewCredit, h.idempotencyKey]
  exact hw

section Sims

variable {s s' : SpendDb} {o : Order} {user : UserId} {package : Package} {guide : String}

/-- **A new eSIM gets its credit.** -/
theorem createPurchased_credit {sim : Airalo.OrderedSimDTO} {pk : Nat} {topupId : Uuid}
    (h : CreditInv s) (ho : o ∈ s.orders) (hprice : 0 < o.retailPriceUsd)
    (hs : createPurchased s o user package guide sim pk topupId = .ok s') :
    CreditInv s' ∧ Extends NewCredit s s' ∧ s'.orders = s.orders := by
  obtain ⟨esims, hie, hcredit⟩ := createPurchased_cases hs
  generalize hesim : purchasedEsim o user sim pk s.now = esim at hie hcredit
  have hid : esim.id = pk := by rw [← hesim]; rfl
  have horder : esim.order = o.id := by rw [← hesim]; rfl
  have hacc : esim.account = o.account := by rw [← hesim]; rfl
  have hfresh : ∀ e ∈ s.esims, e.id ≠ esim.id := by
    intro e he heq
    exact Table.apart_of_insert hie he (.inl heq)
  rcases ensureInitialCredit_cases hcredit
    with ⟨_, w, hw, hkey⟩ | ⟨amount, topups, hi, rfl, _, hamount⟩
  · -- a row under the key would be for an eSIM that was there
    obtain ⟨e, he, heq⟩ := h.keys w hw _ hkey
    exact absurd heq (hfresh e he)
  · have hkept : ∀ e ∈ s.esims, ∃ e' ∈ esims, SameEsim e e' := by
      intro e he
      exact ⟨e, (Table.mem_insert hie).2 (.inl he), rfl, rfl⟩
    have hcents : amount.micros = o.retailPriceUsd * 10000 := by
      rw [amountOfCents_micros hamount, initialCreditPrice, if_neg (by omega)]
    have hx : Extends NewCredit s { s with esims, topups } :=
      .of_insert hi rfl rfl hkept ⟨esim.id, rfl⟩
    have hnew : initialCredit esim o package amount topupId ∈ topups :=
      (Table.mem_insert hi).2 (.inr rfl)
    refine ⟨⟨?_, ?_⟩, hx, rfl⟩
    · intro w hw n hkey
      rcases (Table.mem_insert hi).1 hw with hold | rfl
      · obtain ⟨e, he, heq⟩ := h.keys w hold n hkey
        exact ⟨e, (Table.mem_insert hie).2 (.inl he), heq⟩
      · exact ⟨esim, (Table.mem_insert hie).2 (.inr rfl), initialCreditKey_inj hkey⟩
    · intro e he
      rcases (Table.mem_insert hie).1 he with hold | rfl
      · obtain ⟨w, hw, hof⟩ := h.made e hold
        exact ⟨w, (Table.mem_insert hi).2 (.inl hw), hof.extends hx ⟨rfl, rfl⟩ (.refl w)⟩
      · exact ⟨_, hnew, rfl, rfl, rfl, o, ho, horder.symm, hacc, hcents⟩

theorem createSims_credit {d : PersistDraw} {n : Nat} {sims : List Airalo.OrderedSimDTO}
    (h : CreditInv s) (ho : o ∈ s.orders) (hprice : 0 < o.retailPriceUsd)
    (hs : createSims s o user package guide d n sims = .ok s') :
    CreditInv s' ∧ Extends NewCredit s s' := by
  induction sims generalizing s n with
  | nil =>
    obtain rfl : s = s' := by simpa [createSims] using hs
    exact ⟨h, .of_rows rfl rfl (Extends.sameEsims rfl)⟩
  | cons sim sims ih =>
    obtain ⟨s₁, hfirst, hrest⟩ := bind_ok hs
    obtain ⟨hinv, hx, horders⟩ := createPurchased_credit h ho hprice hfirst
    obtain ⟨hinv', hx'⟩ := ih hinv (horders ▸ ho) hrest
    exact ⟨hinv', hx.trans hx' NewCredit.congr⟩

theorem persistOrder_credit {c : SpendSettings} {r : Airalo.OrderResult} {d : PersistDraw}
    (h : CreditInv s) (ho : o ∈ s.orders) (hprice : 0 < o.retailPriceUsd)
    (hs : persistOrder c s o user package r d = .ok s') :
    CreditInv s' ∧ Extends NewCredit s s' := by
  unfold persistOrder at hs
  split at hs
  · cases hs
  obtain ⟨s₂, hsims, hs⟩ := bind_ok hs
  obtain ⟨hesims, htopups, horders⟩ := accrue_rows hs
  have hsave : Extends NewCredit s
      (s.saveOrder o.id (fulfilledOrder r.externalOrderId) (fun _ _ h => h)) :=
    .of_saveOrder fun o => ⟨rfl, rfl, rfl⟩
  have hsaved : fulfilledOrder r.externalOrderId o
      ∈ (s.saveOrder o.id (fulfilledOrder r.externalOrderId) (fun _ _ h => h)).orders :=
    List.mem_map.2 ⟨o, ho, rewrite_pos _ (by simp)⟩
  have hinv₁ :
      CreditInv (s.saveOrder o.id (fulfilledOrder r.externalOrderId) (fun _ _ h => h)) := by
    refine ⟨h.keys, ?_⟩
    intro e he
    obtain ⟨w, hw, hof⟩ := h.made e he
    exact ⟨w, hw, hof.extends hsave ⟨rfl, rfl⟩ (.refl w)⟩
  obtain ⟨hinv₂, hx⟩ := createSims_credit hinv₁ hsaved hprice hsims
  have hlast : Extends NewCredit s₂ s' := .of_rows horders htopups (Extends.sameEsims hesims)
  refine ⟨⟨?_, ?_⟩, (hsave.trans hx NewCredit.congr).trans hlast NewCredit.congr⟩
  · intro w hw n hkey
    rw [htopups] at hw
    rw [hesims]
    exact hinv₂.keys w hw n hkey
  · intro e he
    rw [hesims] at he
    obtain ⟨w, hw, hof⟩ := hinv₂.made e he
    exact ⟨w, htopups ▸ hw, hof.extends hlast ⟨rfl, rfl⟩ (.refl w)⟩

end Sims

/-! ## One step of a purchase -/

/-- The row a call has just reserved. -/
def requested : SpendPc → Option Spending
  | .requesting w => some w
  | _ => none

/-- What a step adds to the top-ups: the row it reserves under its key, or an initial credit. -/
inductive NewTopup (t' : SpendThread) (w : Topup) : Prop
  | reserved {a : PurchaseArgs} {package : Airalo.TopupPackage} :
      t'.call = .purchase a → requested t'.pc = some (.topup a package w) →
      w.idempotencyKey = a.idempotencyKey → NewTopup t' w
  | credit : NewCredit w → requested t'.pc = none → NewTopup t' w

/-- What the credits of a run rest on at a step: its key is no credit's, and its order has a
price. -/
structure CreditSafe (t : SpendThread) : Prop where
  key : ∀ a, t.call = .purchase a → ¬ IsInitialKey a.idempotencyKey
  price : ∀ a o sale, t.pc = .persisting (.order a o) sale → 0 < o.retailPriceUsd

/-- A step that adds no row and writes no eSIM's key. -/
theorem CreditInv.quiet {s s' : SpendDb} {t' : SpendThread} (h : CreditInv s)
    (hx : Extends (fun _ => False) s s') (hesims : NoNewEsim s s') :
    CreditInv s' ∧ Extends (NewTopup t') s s' :=
  ⟨h.extends hx hesims fun _ hf => hf.elim, hx.weaken fun _ hf => hf.elim⟩

theorem noNewEsim_of_eq {s s' : SpendDb} (h : s'.esims = s.esims) : NoNewEsim s s' := by
  intro e he
  rw [h] at he
  exact ⟨e, he, rfl, rfl⟩

/-- An update of columns of the eSIMs other than their key and their order. -/
theorem extends_updateEsims {s : SpendDb} {p : Esim → Bool} {f : Esim → Esim} {hf : Table.Keeps f}
    (hsame : ∀ e, SameEsim e (f e)) :
    Extends (fun _ => False) s { s with esims := s.esims.update p f hf }
      ∧ NoNewEsim s { s with esims := s.esims.update p f hf } := by
  have hmem := @Table.mem_update _ _ s.esims p f hf
  have hrewrite : ∀ e, SameEsim e (rewrite p f e) := by
    intro e
    unfold rewrite
    split
    · exact hsame e
    · exact ⟨rfl, rfl⟩
  refine ⟨.of_rows rfl rfl ?_, ?_⟩
  · intro e he
    exact ⟨_, hmem.2 ⟨e, he, rfl⟩, hrewrite e⟩
  · intro e' he'
    obtain ⟨e, he, rfl⟩ := hmem.1 he'
    exact ⟨e, he, hrewrite e⟩

/-- **A step leaves every eSIM its credit.** -/
theorem credit_step {c : SpendSettings} {s s' : SpendDb} {t t' : SpendThread} (hC : CreditInv s)
    (hL : SpendLocal s t) (hm : SpendMove c s t s' t'.pc) (hcall : t'.call = t.call)
    (hsafe : CreditSafe t) : CreditInv s' ∧ Extends (NewTopup t') s s' := by
  obtain ⟨call', pc'⟩ := t'
  obtain ⟨call, pc⟩ := t
  obtain rfl : call' = call := hcall
  dsimp only at hm
  have same : ∀ {s₁ : SpendDb}, s₁.orders = s.orders → s₁.topups = s.topups → s₁.esims = s.esims →
      CreditInv s₁ ∧ Extends (NewTopup ⟨call', pc'⟩) s s₁ := by
    intro s₁ horders htopups hesims
    exact hC.quiet (.of_rows horders htopups (Extends.sameEsims hesims)) (noNewEsim_of_eq hesims)
  cases hm with
  | refuses _ => exact same rfl rfl rfl
  | ends _ => exact same rfl rfl rfl
  | vanishes _ => exact same rfl rfl rfl
  | crashes _ => exact same rfl rfl rfl
  | posts _ _ => exact same rfl rfl rfl
  | @transfers esim account user _ _ _ ht =>
    rcases transferEsim_cases ht with rfl | ⟨_, rfl⟩
    · exact same rfl rfl rfl
    · have hsame : ∀ e, SameEsim e (transferred account user e) := fun _ => ⟨rfl, rfl⟩
      exact hC.quiet (extends_updateEsims hsame).1 (extends_updateEsims hsame).2
  | waits _ => exact same rfl rfl rfl
  | checks _ _ _ => exact same rfl rfl rfl
  | resolves _ => exact same rfl rfl rfl
  | replaysOrder _ _ hr =>
    obtain ⟨rfl, _⟩ := reserveOrder_replay hr
    exact same rfl rfl rfl
  | replaysTopup _ hr =>
    obtain ⟨rfl, _⟩ := reserveTopup_replay hr
    exact same rfl rfl rfl
  | opensOrder _ _ hr =>
    obtain ⟨orders, hi, _, _, _, hs⟩ := reserveOrder_fresh hr
    have hrows : s'.orders = orders ∧ s'.topups = s.topups ∧ s'.esims = s.esims := by
      rcases hs with ⟨_, rfl⟩ | ⟨_, p, books, e, rfl, _⟩
      · exact ⟨rfl, rfl, rfl⟩
      · exact ⟨rfl, rfl, rfl⟩
    obtain ⟨horders, htopups, hesims⟩ := hrows
    refine hC.quiet ⟨?_, ?_, Extends.sameEsims hesims, ?_⟩ (noNewEsim_of_eq hesims)
    · intro o ho
      rw [horders]
      exact ⟨o, (Table.mem_insert hi).2 (.inl ho), .refl o⟩
    · intro w hw
      rw [htopups]
      exact ⟨w, hw, .refl w⟩
    · intro w hw
      rw [htopups] at hw
      exact .inl ⟨w, hw, .refl w⟩
  | @opensTopup a package d u _ hpc hr =>
    dsimp only at hpc
    subst hpc
    have hfrom := hL.call
    cases hfrom
    obtain ⟨topups, p, books, e, hi, rfl, _, _, _, _, _, hkey, _⟩ := reserveTopup_fresh hr
    have hx : Extends (fun w => w = u) s { s with topups, books } :=
      .of_insert hi rfl rfl (Extends.sameEsims rfl) rfl
    refine ⟨hC.extends hx (noNewEsim_of_eq rfl) ?_, hx.weaken ?_⟩
    · rintro w rfl ⟨n, hn⟩
      exact hsafe.key a rfl ⟨n, hkey ▸ hn⟩
    · rintro w rfl
      exact .reserved rfl rfl hkey
  | sells _ _ => exact same rfl rfl rfl
  | fails _ _ => exact same rfl rfl rfl
  | @persists w sale d row _ hpc hp =>
    dsimp only at hpc
    subst hpc
    have hstored : Stored s w.row := hL.stored w.row rfl
    cases w with
    | order a o =>
      cases sale with
      | topup r => cases hp
      | order r =>
        obtain ⟨s₁, hrun, hrow⟩ := bind_ok hp
        cases hrow
        obtain ⟨hinv, hx⟩ := persistOrder_credit hC hstored (hsafe.price a o _ rfl) hrun
        exact ⟨hinv, hx.weaken fun _ hn => .credit hn rfl⟩
    | topup a package u =>
      cases sale with
      | order r => cases hp
      | topup r =>
        obtain ⟨s₁, hrun, hrow⟩ := bind_ok hp
        cases hrow
        unfold persistTopup at hrun
        split at hrun
        · cases hrun
        obtain ⟨hesims, htopups, horders⟩ := accrue_rows hrun
        have hsave : Extends (fun _ => False) s
            (s.saveTopup u.id (fulfilledTopup r.externalOrderId) (fun _ _ h => h)) :=
          .of_saveTopup fun _ => ⟨rfl, rfl, rfl, rfl, rfl, rfl⟩
        exact hC.quiet (hsave.trans (.of_rows horders htopups (Extends.sameEsims hesims))
          fun _ _ _ hf => hf) (noNewEsim_of_eq hesims)
  | @compensates w e row _ hpc hp =>
    cases w with
    | order a o =>
      obtain ⟨s₁, hrun, hrow⟩ := bind_ok hp
      cases hrow
      have hx : Extends (fun _ => False) s (s.saveOrder o.id failedOrder (fun _ _ h => h)) :=
        .of_saveOrder fun _ => ⟨rfl, rfl, rfl⟩
      obtain ⟨locked, _, _, ⟨_, rfl⟩ | ⟨_, _, rfl⟩ | ⟨_, _, p, books, e, rfl, _⟩⟩ :=
        compensateOrder_cases hrun
      · exact same rfl rfl rfl
      · exact hC.quiet hx (noNewEsim_of_eq rfl)
      · exact hC.quiet (hx.trans (.of_rows rfl rfl (Extends.sameEsims rfl)) fun _ _ _ hf => hf)
          (noNewEsim_of_eq rfl)
    | topup a package u =>
      obtain ⟨s₁, hrun, hrow⟩ := bind_ok hp
      cases hrow
      have hx : Extends (fun _ => False) s (s.saveTopup u.id failedTopup (fun _ _ h => h)) :=
        .of_saveTopup fun _ => ⟨rfl, rfl, rfl, rfl, rfl, rfl⟩
      obtain ⟨locked, _, _, ⟨_, rfl⟩ | ⟨_, p, books, e, rfl, _⟩⟩ := compensateTopup_cases hrun
      · exact same rfl rfl rfl
      · exact hC.quiet (hx.trans (.of_rows rfl rfl (Extends.sameEsims rfl)) fun _ _ _ hf => hf)
          (noNewEsim_of_eq rfl)
  | abandons _ => exact same rfl rfl rfl

end Roamkit.Spend.Proof
