import Mathlib.Algebra.Order.BigOperators.Group.List
import Mathlib.Data.List.Perm.Subperm
import Mathlib.Logic.Relation
import Roamkit.Esims.PackageHistory
import Roamkit.Proof.SpendSound

/-!
# The history is matched one to one

Every loop takes from what is left: a row that is paid for is passed over, and so is a
top-up that is used. So each loop is a number of picks, each of a row and a top-up that
are free. The first loop leaves no pair free that agree on the id of an order.
-/

namespace Roamkit.Esims.Proof

open Lib Billing Billing.Proof Spend

variable {order : InitialOrder} {rows : List SimPackageDTO} {unused : List TopupRow}
  {m m' : Matching}

/-- The ids of the rows that are matched. -/
def ids (m : Matching) : List String := m.pairs.map (·.1.instanceId)

/-- What they are matched with. -/
def spends (m : Matching) : List LocalSpend := m.pairs.map (·.2)

/-- A matching of an eSIM's rows with its order and its top-ups. -/
structure MatchInv (order : InitialOrder) (rows : List SimPackageDTO) (unused : List TopupRow)
    (m : Matching) :
    Prop where
  /-- What is paid is what the pairs cost. -/
  paid : m.paid = m.pairs.filterMap fun p => p.2.charge?.map fun amount => (p.1.instanceId, amount)
  rows : ∀ p ∈ m.pairs, p.1 ∈ rows
  /-- A row of the eSIM itself has the order, another row a top-up. -/
  kinds : ∀ p ∈ m.pairs, (p.2 = .order order ∧ kind p.1.planType = .esim)
    ∨ ∃ t ∈ unused, p.2 = .topup t ∧ kind p.1.planType ≠ .esim
  once : (ids m).Nodup
  spendOnce : (spends m).Nodup

/-- One more pair of a row and a top-up, both of them free. -/
structure Pick (rows : List SimPackageDTO) (unused : List TopupRow) (row : SimPackageDTO)
    (t : TopupRow) (m m' : Matching) : Prop where
  listed : row ∈ topupRows rows
  candidate : t ∈ unused
  freeRow : row.instanceId ∉ ids m
  freeTopup : .topup t ∉ spends m
  pairs : m'.pairs = (row, .topup t) :: m.pairs
  paid : m'.paid = (row.instanceId, t.amount.micros) :: m.paid

/-- Some picks, each of a pair as the loop takes them. -/
def Picks (rows : List SimPackageDTO) (unused : List TopupRow)
    (ok : SimPackageDTO → TopupRow → Prop) :
    Matching → Matching → Prop :=
  Relation.ReflTransGen fun m m' => ∃ row t, ok row t ∧ Pick rows unused row t m m'

/-! ## What picks keep -/

variable {row : SimPackageDTO} {t : TopupRow} {p : SimPackageDTO × LocalSpend}
  {topups : List TopupRow}

theorem mem_topupRows : row ∈ topupRows rows ↔ row ∈ rows ∧ kind row.planType ≠ .esim := by
  unfold topupRows
  rw [List.mem_filter, decide_eq_true_eq]

theorem mem_esimRows : row ∈ esimRows rows ↔ row ∈ rows ∧ kind row.planType = .esim := by
  unfold esimRows
  rw [List.mem_filter, decide_eq_true_eq]

theorem MatchInv.pick (h : MatchInv order rows unused m) (hp : Pick rows unused row t m m') :
    MatchInv order rows unused m' := by
  obtain ⟨hrow, hkind⟩ := mem_topupRows.1 hp.listed
  refine ⟨?_, ?_, ?_, ?_, ?_⟩
  · rw [hp.paid, hp.pairs, h.paid]
    rfl
  · intro p hmem
    rw [hp.pairs] at hmem
    rcases List.mem_cons.1 hmem with rfl | hold
    · exact hrow
    · exact h.rows p hold
  · intro p hmem
    rw [hp.pairs] at hmem
    rcases List.mem_cons.1 hmem with rfl | hold
    · exact .inr ⟨t, hp.candidate, rfl, hkind⟩
    · exact h.kinds p hold
  · unfold ids
    rw [hp.pairs, List.map_cons, List.nodup_cons]
    exact ⟨hp.freeRow, h.once⟩
  · unfold spends
    rw [hp.pairs, List.map_cons, List.nodup_cons]
    exact ⟨hp.freeTopup, h.spendOnce⟩

namespace Picks

variable {ok : SimPackageDTO → TopupRow → Prop}

theorem inv (h : Picks rows unused ok m m') (hm : MatchInv order rows unused m) :
    MatchInv order rows unused m' := by
  induction h with
  | refl => exact hm
  | tail _ hp ih =>
    obtain ⟨row, t, -, hp⟩ := hp
    exact ih.pick hp

/-- The pairs there were stay. -/
theorem kept (h : Picks rows unused ok m m') (hp : p ∈ m.pairs) : p ∈ m'.pairs := by
  induction h with
  | refl => exact hp
  | tail _ hlast ih =>
    obtain ⟨row, t, -, hlast⟩ := hlast
    rw [hlast.pairs]
    exact List.mem_cons_of_mem _ ih

/-- The others are such as the loop takes. -/
theorem made (h : Picks rows unused ok m m') (hp : p ∈ m'.pairs) :
    p ∈ m.pairs ∨ ∃ t ∈ unused, p.2 = .topup t ∧ ok p.1 t := by
  induction h with
  | refl => exact .inl hp
  | tail _ hlast ih =>
    obtain ⟨row, t, hok, hlast⟩ := hlast
    rw [hlast.pairs] at hp
    rcases List.mem_cons.1 hp with rfl | hold
    · exact .inr ⟨t, hlast.candidate, rfl, hok⟩
    · exact ih hold

end Picks

/-! ## The keys of the used top-ups -/

/-- The top-ups in use are those that are matched. -/
def UsedKeys (unused : List TopupRow) (m : Matching) : Prop :=
  ∀ t ∈ unused, .topup t ∈ spends m ↔ t.id ∈ m.usedIds

theorem usedKeys_assign (hids : (unused.map (·.id)).Nodup) (h : UsedKeys unused m)
    (ht : t ∈ unused) : UsedKeys unused ((m.use t).assign row (.topup t)) := by
  intro u hu
  have hspends : spends ((m.use t).assign row (.topup t)) = .topup t :: spends m := rfl
  have hused : ((m.use t).assign row (.topup t)).usedIds = t.id :: m.usedIds := rfl
  rw [hspends, hused, List.mem_cons, List.mem_cons, h u hu]
  constructor
  · rintro (heq | hmem)
    · cases heq
      exact .inl rfl
    · exact .inr hmem
  · rintro (heq | hmem)
    · rw [List.inj_on_of_nodup_map hids hu ht heq]
      exact .inl rfl
    · exact .inr hmem

/-- A row and a top-up that are free are picked by an assignment. -/
theorem pick_assign (hrow : row ∈ topupRows rows) (ht : t ∈ unused)
    (hfree : row.instanceId ∉ ids m) (hfree' : .topup t ∉ spends m) :
    Pick rows unused row t m ((m.use t).assign row (.topup t)) :=
  ⟨hrow, ht, hfree, hfree', rfl, rfl⟩

/-! ## By the id of an order -/

/-- The row and the top-up have the id of one order. -/
def SameOrder (row : SimPackageDTO) (t : TopupRow) : Prop :=
  row.orderId = some (PyText.strip t.externalOrderId)

/-- Either of the two is matched with one that has the id as well. -/
def Taken (m : Matching) (row : SimPackageDTO) (t : TopupRow) : Prop :=
  (∃ t', SameOrder row t' ∧ (row, .topup t') ∈ m.pairs)
    ∨ ∃ row', SameOrder row' t ∧ (row', .topup t) ∈ m.pairs

theorem Taken.kept {ok : SimPackageDTO → TopupRow → Prop} (h : Taken m row t)
    (hpicks : Picks rows unused ok m m') : Taken m' row t := by
  rcases h with ⟨t', hsame, hmem⟩ | ⟨row', hsame, hmem⟩
  · exact .inl ⟨t', hsame, hpicks.kept hmem⟩
  · exact .inr ⟨row', hsame, hpicks.kept hmem⟩

/-- What the first loop comes to. -/
structure OrderIdLoop (rows : List SimPackageDTO) (unused : List TopupRow)
    (left : List SimPackageDTO) (m m' : Matching) : Prop where
  picks : Picks rows unused SameOrder m m'
  used : UsedKeys unused m'
  /-- A row that was not gone through is as free as it was. -/
  free : ∀ id ∈ ids m', id ∈ ids m ∨ id ∈ left.map (·.instanceId)
  taken : ∀ row ∈ left, ∀ t ∈ unused, SameOrder row t → Taken m' row t

theorem matchOrderId_loop (hids : (unused.map (·.id)).Nodup) {left : List SimPackageDTO}
    (hleft : ∀ row ∈ left, row ∈ topupRows rows) (hnodup : (left.map (·.instanceId)).Nodup)
    (hfree : ∀ row ∈ left, row.instanceId ∉ ids m) (hused : UsedKeys unused m)
    (hexact : ∀ p ∈ m.pairs, ∀ t, p.2 = .topup t → SameOrder p.1 t) :
    OrderIdLoop rows unused left m (left.foldl (Matching.matchOrderId unused) m) := by
  induction left generalizing m with
  | nil => exact ⟨.refl, hused, fun id hid => .inl hid, fun row hrow => nomatch hrow⟩
  | cons row left ih =>
    rw [List.foldl_cons]
    have hrow := hleft row List.mem_cons_self
    have hrest : ∀ row' ∈ left, row' ∈ topupRows rows :=
      fun row' h => hleft row' (List.mem_cons_of_mem _ h)
    rw [List.map_cons, List.nodup_cons] at hnodup
    have hfreeLeft : ∀ row' ∈ left, row'.instanceId ∉ ids m :=
      fun row' h => hfree row' (List.mem_cons_of_mem _ h)
    -- a row that is passed over leaves the matching as it was
    have pass : (∀ t ∈ unused, SameOrder row t → Taken m row t) →
        OrderIdLoop rows unused (row :: left) m (left.foldl (Matching.matchOrderId unused) m) := by
      intro htaken
      have hloop := ih hrest hnodup.2 hfreeLeft hused hexact
      refine ⟨hloop.picks, hloop.used, ?_, ?_⟩
      · intro id hid
        rcases hloop.free id hid with hold | hnew
        · exact .inl hold
        · exact .inr (List.mem_cons_of_mem _ hnew)
      · intro row' hrow' t ht hsame
        rcases List.mem_cons.1 hrow' with rfl | hrow'
        · exact (htaken t ht hsame).kept hloop.picks
        · exact hloop.taken row' hrow' t ht hsame
    cases hid : row.orderId with
    | none =>
      have hskip : Matching.matchOrderId unused m row = m := by
        unfold Matching.matchOrderId
        rw [hid]
      rw [hskip]
      refine pass fun t _ hsame => ?_
      unfold SameOrder at hsame
      rw [hid] at hsame
      cases hsame
    | some id =>
      cases hfind : unused.find? fun t =>
        t.id ∉ m.usedIds ∧ PyText.strip t.externalOrderId = id with
      | none =>
        have hskip : Matching.matchOrderId unused m row = m := by
          unfold Matching.matchOrderId
          rw [hid]
          dsimp only
          rw [hfind]
        rw [hskip]
        refine pass fun t ht hsame => ?_
        have hstrip : PyText.strip t.externalOrderId = id := by
          unfold SameOrder at hsame
          rw [hid] at hsame
          exact (Option.some.inj hsame).symm
        -- every top-up with the id is used, and by a row that has it
        have hin : t.id ∈ m.usedIds := by
          by_contra hout
          have hno := List.find?_eq_none.1 hfind t ht
          exact hno (decide_eq_true ⟨hout, hstrip⟩)
        obtain ⟨p, hp, hspend⟩ := List.mem_map.1 ((hused t ht).2 hin)
        refine .inr ⟨p.1, hexact p hp t hspend, ?_⟩
        rw [← hspend]
        exact hp
      | some t =>
        have hstep : Matching.matchOrderId unused m row = (m.use t).assign row (.topup t) := by
          unfold Matching.matchOrderId
          rw [hid]
          dsimp only
          rw [hfind]
        have ht := List.mem_of_find?_eq_some hfind
        have hfound := List.find?_some hfind
        obtain ⟨hout, hstrip⟩ := of_decide_eq_true hfound
        have hsame : SameOrder row t := by
          unfold SameOrder
          rw [hid, hstrip]
        have hpick :=
          pick_assign hrow ht (hfree row List.mem_cons_self) (fun hc => hout ((hused t ht).1 hc))
        rw [hstep]
        have hloop := @ih ((m.use t).assign row (.topup t)) hrest hnodup.2 ?_
          (usedKeys_assign hids hused ht) ?_
        · refine ⟨(Relation.ReflTransGen.single ⟨row, t, hsame, hpick⟩).trans hloop.picks,
            hloop.used, ?_, ?_⟩
          · intro id' hid'
            rcases hloop.free id' hid' with hold | hnew
            · rcases List.mem_cons.1 hold with rfl | hold
              · exact .inr List.mem_cons_self
              · exact .inl hold
            · exact .inr (List.mem_cons_of_mem _ hnew)
          · intro row' hrow' u hu hsame'
            rcases List.mem_cons.1 hrow' with rfl | hrow'
            · exact .inl ⟨t, hsame, hloop.picks.kept List.mem_cons_self⟩
            · exact hloop.taken row' hrow' u hu hsame'
        · intro row' hrow' hmem
          rcases List.mem_cons.1 hmem with heq | hold
          · exact hnodup.1 (List.mem_map.2 ⟨row', hrow', heq⟩)
          · exact hfreeLeft row' hrow' hold
        · intro p hp u hu
          rcases List.mem_cons.1 hp with rfl | hold
          · cases hu
            exact hsame
          · exact hexact p hold u hu

/-! ## By its own id -/

/-- The id of the row is that of the order of the top-up. -/
def SameInstance (row : SimPackageDTO) (t : TopupRow) : Prop :=
  PyText.strip row.instanceId = PyText.strip t.externalOrderId

theorem isPaid_iff {id : String} : m.isPaid id = true ↔ ∃ amount, (id, amount) ∈ m.paid := by
  unfold Matching.isPaid newest
  rw [Option.isSome_map, List.find?_isSome]
  constructor
  · rintro ⟨⟨id', amount⟩, hmem, hid⟩
    have heq : id' = id := of_decide_eq_true hid
    rw [heq] at hmem
    exact ⟨amount, hmem⟩
  · rintro ⟨amount, hmem⟩
    exact ⟨_, hmem, decide_eq_true rfl⟩

/-- A top-up's row that is matched is paid for. -/
theorem MatchInv.isPaid (h : MatchInv order rows unused m)
    (hrows : (rows.map (·.instanceId)).Nodup) (hrow : row ∈ topupRows rows)
    (hid : row.instanceId ∈ ids m) :
    m.isPaid row.instanceId = true := by
  obtain ⟨hmem, hkind⟩ := mem_topupRows.1 hrow
  obtain ⟨p, hp, heq⟩ := List.mem_map.1 hid
  have hsame := List.inj_on_of_nodup_map hrows (h.rows p hp) hmem heq
  rcases h.kinds p hp with ⟨-, hesim⟩ | ⟨t, -, hspend, -⟩
  · rw [hsame] at hesim
    exact absurd hesim hkind
  · refine isPaid_iff.2 ⟨t.amount.micros, ?_⟩
    rw [h.paid]
    refine List.mem_filterMap.2 ⟨p, hp, ?_⟩
    rw [hspend, hsame]
    rfl

/-- A dictionary of top-ups that are not used yet, by the id of their order. -/
def ByExternalId (unused : List TopupRow) (m : Matching) (dict : String → List TopupRow) : Prop :=
  ∀ key, ∀ t ∈ dict key, t ∈ unused ∧ PyText.strip t.externalOrderId = key ∧ t.id ∉ m.usedIds

theorem matchInstanceId_loop (hids : (unused.map (·.id)).Nodup)
    (hrows : (rows.map (·.instanceId)).Nodup) {left : List SimPackageDTO}
    (hleft : ∀ row ∈ left, row ∈ topupRows rows) {dict : String → List TopupRow}
    (hm : MatchInv order rows unused m) (hused : UsedKeys unused m)
    (hdict : ByExternalId unused m dict) :
    Picks rows unused SameInstance m (left.foldl Matching.matchInstanceId (m, dict)).1
      ∧ UsedKeys unused (left.foldl Matching.matchInstanceId (m, dict)).1 := by
  induction left generalizing m dict with
  | nil => exact ⟨.refl, hused⟩
  | cons row left ih =>
    rw [List.foldl_cons]
    have hrow := hleft row List.mem_cons_self
    have hrest : ∀ row' ∈ left, row' ∈ topupRows rows :=
      fun row' h => hleft row' (List.mem_cons_of_mem _ h)
    unfold Matching.matchInstanceId
    dsimp only
    by_cases hskip : m.isPaid row.instanceId = true ∨ PyText.strip row.instanceId = ""
    · rw [if_pos hskip]
      exact ih hrest hm hused hdict
    · rw [if_neg hskip]
      split
      · rename_i t hone
        have hmem : t ∈ dict (PyText.strip row.instanceId) := by
          rw [hone]
          exact List.mem_singleton.2 rfl
        obtain ⟨ht, hstrip, hout⟩ := hdict _ t hmem
        have hfree : row.instanceId ∉ ids m := fun hc => hskip (.inl (hm.isPaid hrows hrow hc))
        have hpick := pick_assign hrow ht hfree (fun hc => hout ((hused t ht).1 hc))
        have hloop := @ih ((m.use t).assign row (.topup t)) hrest
          (Function.update dict (PyText.strip row.instanceId) []) (hm.pick hpick)
          (usedKeys_assign hids hused ht) ?_
        · exact ⟨(Relation.ReflTransGen.single ⟨row, t, hstrip.symm, hpick⟩).trans hloop.1, hloop.2⟩
        · intro key u hu
          by_cases hkey : key = PyText.strip row.instanceId
          · rw [hkey, Function.update_self] at hu
            cases hu
          · rw [Function.update_of_ne hkey] at hu
            obtain ⟨hu', hustrip, huout⟩ := hdict key u hu
            refine ⟨hu', hustrip, ?_⟩
            intro hc
            rcases List.mem_cons.1 hc with heq | hold
            · have hsame := List.inj_on_of_nodup_map hids hu' ht heq
              rw [hsame] at hustrip
              exact hkey (hustrip.symm.trans hstrip)
            · exact huout hold
      · exact ih hrest hm hused hdict

/-! ## By its package -/

/-- The row and the top-up are of one package. -/
def SamePackage (row : SimPackageDTO) (t : TopupRow) : Prop :=
  row.packageExternalId = t.packageExternalId

/-- What is free of a package when the last loop comes to it. -/
def FreeOf (rows : List SimPackageDTO) (topups : List TopupRow) (m : Matching)
    (package : String) : Prop :=
  (∀ row ∈ rows, row.packageExternalId = package → row.instanceId ∉ ids m)
    ∧ ∀ t ∈ topups, t.packageExternalId = package → .topup t ∉ spends m

theorem matchPackage_loop (hrows : (rows.map (·.instanceId)).Nodup) {free : List SimPackageDTO}
    (hfree : ∀ row ∈ free, row ∈ topupRows rows) (htopups : ∀ t ∈ topups, t ∈ unused)
    {packages : List String} (hpackages : packages.Nodup)
    (hall : ∀ p ∈ packages, FreeOf free topups m p) :
    Picks rows unused SamePackage m (packages.foldl (Matching.matchPackage free topups) m) := by
  induction packages generalizing m with
  | nil => exact .refl
  | cons package packages ih =>
    rw [List.foldl_cons]
    rw [List.nodup_cons] at hpackages
    have hrest : ∀ p ∈ packages, FreeOf free topups m p :=
      fun p hp => hall p (List.mem_cons_of_mem _ hp)
    unfold Matching.matchPackage
    split
    · rename_i row t hrow ht
      have hmem : row ∈ free.filter (·.packageExternalId = package) := by
        rw [hrow]
        exact List.mem_singleton.2 rfl
      have hmem' : t ∈ topups.filter (·.packageExternalId = package) := by
        rw [ht]
        exact List.mem_singleton.2 rfl
      obtain ⟨hin, hpackage⟩ := List.mem_filter.1 hmem
      obtain ⟨hin', hpackage'⟩ := List.mem_filter.1 hmem'
      have hpackage := of_decide_eq_true hpackage
      have hpackage' := of_decide_eq_true hpackage'
      obtain ⟨hfreeRow, hfreeTopup⟩ := hall package List.mem_cons_self
      have hpick : Pick rows unused row t m (m.assign row (.topup t)) :=
        ⟨hfree row hin, htopups t hin', hfreeRow row hin hpackage,
          hfreeTopup t hin' hpackage', rfl, rfl⟩
      refine (Relation.ReflTransGen.single ⟨row, t, hpackage.trans hpackage'.symm, hpick⟩).trans
        (ih hpackages.2 ?_)
      -- the packages that are left have other rows and other top-ups
      intro p hp
      have hne : p ≠ package := fun heq => hpackages.1 (heq ▸ hp)
      obtain ⟨hrowsLeft, htopupsLeft⟩ := hrest p hp
      constructor
      · intro row' hrow' hp' hc
        rcases List.mem_cons.1 hc with heq | hold
        · have hsame := List.inj_on_of_nodup_map hrows (mem_topupRows.1 (hfree row' hrow')).1
            (mem_topupRows.1 (hfree row hin)).1 heq
          rw [hsame] at hp'
          exact hne (hp'.symm.trans hpackage)
        · exact hrowsLeft row' hrow' hp' hold
      · intro t' ht' hp' hc
        rcases List.mem_cons.1 hc with heq | hold
        · cases heq
          exact hne (hp'.symm.trans hpackage')
        · exact htopupsLeft t' ht' hp' hold
    · exact ih hpackages.2 hrest

theorem matchPackages_picks (hrows : (rows.map (·.instanceId)).Nodup)
    (hm : MatchInv order rows unused m) (hused : UsedKeys unused m) :
    Picks rows unused SamePackage m (m.matchPackages (topupRows rows) unused) := by
  unfold Matching.matchPackages
  refine matchPackage_loop hrows ?_ ?_ (List.nodup_reverse.2 (List.nodup_dedup _)) ?_
  · intro row hrow
    exact (List.mem_filter.1 hrow).1
  · intro t ht
    exact (List.mem_filter.1 ht).1
  · intro package _
    constructor
    · intro row hrow _ hid
      obtain ⟨hlisted, hcheck⟩ := List.mem_filter.1 hrow
      exact (of_decide_eq_true hcheck).1 (hm.isPaid hrows hlisted hid)
    · intro t ht _ hspend
      obtain ⟨hcandidate, hcheck⟩ := List.mem_filter.1 ht
      exact of_decide_eq_true hcheck ((hused t hcandidate).1 hspend)

/-! ## The order of the eSIM -/

/-- The row has the id of the order. -/
def OfOrder (order : InitialOrder) (row : SimPackageDTO) : Prop :=
  PyText.strip order.externalOrderId ≠ "" ∧ row.orderId = some (PyText.strip order.externalOrderId)

instance (order : InitialOrder) (row : SimPackageDTO) : Decidable (OfOrder order row) :=
  inferInstanceAs (Decidable (_ ∧ _))

/-- What `_match_initial_order` comes to: at most one row, and none that has another id than one
there is. -/
structure OrderMatched (order : InitialOrder) (rows : List SimPackageDTO)
    (m : Matching) : Prop where
  inv : MatchInv order rows [] m
  unused : m.usedIds = []
  /-- A row that has the id of the order is not passed over for another. -/
  exact : ∀ row ∈ esimRows rows, OfOrder order row → ∀ p ∈ m.pairs, OfOrder order p.1

theorem orderMatched_empty : OrderMatched order rows Matching.empty where
  inv := ⟨rfl, fun _ hp => (nomatch hp), fun _ hp => (nomatch hp), .nil, .nil⟩
  unused := rfl
  exact := fun _ _ _ _ hp => nomatch hp

theorem orderMatched_one (hrow : row ∈ esimRows rows)
    (hexact : ∀ row' ∈ esimRows rows, OfOrder order row' → OfOrder order row) :
    OrderMatched order rows (Matching.empty.assign row (.order order)) := by
  obtain ⟨hmem, hkind⟩ := mem_esimRows.1 hrow
  have hpairs : (Matching.empty.assign row (.order order)).pairs = [(row, .order order)] := rfl
  refine ⟨⟨?_, ?_, ?_, ?_, ?_⟩, rfl, ?_⟩
  · unfold Matching.assign
    cases hcharge : (LocalSpend.order order).charge? with
    | none =>
      rw [List.filterMap_cons, hcharge]
      rfl
    | some amount =>
      rw [List.filterMap_cons, hcharge]
      rfl
  · intro p hp
    rw [hpairs] at hp
    rw [List.mem_singleton.1 hp]
    exact hmem
  · intro p hp
    rw [hpairs] at hp
    rw [List.mem_singleton.1 hp]
    exact .inl ⟨rfl, hkind⟩
  · exact List.nodup_singleton _
  · exact List.nodup_singleton _
  · intro row' hrow' hof p hp
    rw [hpairs] at hp
    rw [List.mem_singleton.1 hp]
    exact hexact row' hrow' hof

theorem matchInitialOrder_matched (order : InitialOrder) (rows : List SimPackageDTO) :
    OrderMatched order rows (Matching.empty.matchInitialOrder order (esimRows rows)) := by
  unfold Matching.matchInitialOrder
  dsimp only
  -- the rows that have the id of the order are those the first list is made of
  have hhits : ∀ row, row ∈ (esimRows rows).filter
    (fun row => PyText.strip order.externalOrderId ≠ ""
      ∧ row.orderId = some (PyText.strip order.externalOrderId))
        ↔ row ∈ esimRows rows ∧ OfOrder order row := by
    intro row
    rw [List.mem_filter, decide_eq_true_eq]
    rfl
  split
  · rename_i row hone
    have hrow := (hhits row).1 (by rw [hone]; exact List.mem_singleton.2 rfl)
    exact orderMatched_one hrow.1 fun _ _ _ => hrow.2
  · exact orderMatched_empty
  · rename_i hnone
    split
    · rename_i row hall
      split
      · refine orderMatched_one (by rw [hall]; exact List.mem_singleton.2 rfl) ?_
        intro row' hrow' hof
        have hmem := (hhits row').2 ⟨hrow', hof⟩
        rw [hnone] at hmem
        cases hmem
      · exact orderMatched_empty
    · exact orderMatched_empty

/-! ## All of it -/

/-- What the matching of an eSIM's rows comes to. -/
structure Matched (order : InitialOrder) (rows : List SimPackageDTO) (unused : List TopupRow)
    (m : Matching) :
    Prop where
  inv : MatchInv order rows unused m
  /-- The order goes to a row with its id, where there is one. -/
  ofOrder : ∀ row ∈ esimRows rows, OfOrder order row → ∀ p ∈ m.pairs, p.2 = .order order
    → OfOrder order p.1
  /-- A row and a top-up that have one order's id are not both passed over. -/
  sameOrder : ∀ row ∈ topupRows rows, ∀ t ∈ unused, SameOrder row t → Taken m row t

theorem MatchInv.more (h : MatchInv order rows [] m) : MatchInv order rows unused m := by
  refine ⟨h.paid, h.rows, ?_, h.once, h.spendOnce⟩
  intro p hp
  rcases h.kinds p hp with horder | ⟨t, ht, -⟩
  · exact .inl horder
  · cases ht

/-! ## The stages -/

/-- The matching once the order is matched. -/
def afterOrder (order : InitialOrder) (rows : List SimPackageDTO) : Matching :=
  Matching.empty.matchInitialOrder order (esimRows rows)

/-- The matching after the loop over the ids of orders. -/
def afterOrderIds (order : InitialOrder) (rows : List SimPackageDTO)
    (unused : List TopupRow) : Matching :=
  (topupRows rows).foldl (Matching.matchOrderId unused) (afterOrder order rows)

/-- The matching after the loop over the rows' own ids. -/
def afterInstanceIds (order : InitialOrder) (rows : List SimPackageDTO)
    (unused : List TopupRow) : Matching :=
  (afterOrderIds order rows unused).matchTopupsByInstanceId (topupRows rows) unused

theorem matchSpend_eq (unused : Candidates topups) : matchSpend order unused rows
    = (afterInstanceIds order rows unused.rows).matchPackages (topupRows rows) unused.rows := rfl

/-- Before the top-ups are matched, only a row of the eSIM itself can be. -/
theorem afterOrder_pairs (hp : p ∈ (afterOrder order rows).pairs) :
    p.2 = .order order ∧ kind p.1.planType = .esim := by
  rcases (matchInitialOrder_matched order rows).inv.kinds p hp with h | ⟨t, ht, -⟩
  · exact h
  · cases ht

theorem afterOrder_inv : MatchInv order rows unused (afterOrder order rows) :=
  (matchInitialOrder_matched order rows).inv.more

theorem afterOrder_used : UsedKeys unused (afterOrder order rows) := by
  intro t _
  have hunused : (afterOrder order rows).usedIds = [] :=
    (matchInitialOrder_matched order rows).unused
  rw [hunused]
  constructor
  · intro hmem
    obtain ⟨p, hp, hspend⟩ := List.mem_map.1 hmem
    rw [(afterOrder_pairs hp).1] at hspend
    cases hspend
  · intro hmem
    cases hmem

section Stages

variable (order) (hids : (unused.map (·.id)).Nodup) (hrows : (rows.map (·.instanceId)).Nodup)

include hids hrows

theorem afterOrderIds_loop :
    OrderIdLoop rows unused (topupRows rows) (afterOrder order rows)
      (afterOrderIds order rows unused) := by
  have htopupRows : ((topupRows rows).map (·.instanceId)).Nodup :=
    hrows.sublist (List.filter_sublist.map _)
  refine matchOrderId_loop hids (fun _ h => h) htopupRows ?_ afterOrder_used ?_
  · intro row hrow hid
    obtain ⟨hmem, hkind⟩ := mem_topupRows.1 hrow
    obtain ⟨p, hp, heq⟩ := List.mem_map.1 hid
    have hinv : MatchInv order rows unused (afterOrder order rows) := afterOrder_inv
    have hsame := List.inj_on_of_nodup_map hrows (hinv.rows p hp) hmem heq
    rw [← hsame] at hkind
    exact hkind (afterOrder_pairs hp).2
  · intro p hp t hspend
    rw [(afterOrder_pairs hp).1] at hspend
    cases hspend

theorem afterOrderIds_inv : MatchInv order rows unused (afterOrderIds order rows unused) :=
  (afterOrderIds_loop order hids hrows).picks.inv afterOrder_inv

theorem afterInstanceIds_picks :
    Picks rows unused SameInstance (afterOrderIds order rows unused)
      (afterInstanceIds order rows unused)
      ∧ UsedKeys unused (afterInstanceIds order rows unused) := by
  refine matchInstanceId_loop hids hrows (fun _ h => h) (afterOrderIds_inv order hids hrows)
    (afterOrderIds_loop order hids hrows).used ?_
  intro key t ht
  dsimp only at ht
  split at ht
  · cases ht
  obtain ⟨hleft, hkey⟩ := List.mem_filter.1 ht
  obtain ⟨hmem, hout⟩ := List.mem_filter.1 hleft
  exact ⟨hmem, of_decide_eq_true hkey, of_decide_eq_true hout⟩

theorem afterInstanceIds_inv : MatchInv order rows unused (afterInstanceIds order rows unused) :=
  (afterInstanceIds_picks order hids hrows).1.inv (afterOrderIds_inv order hids hrows)

end Stages

theorem candidates_ids (unused : Candidates topups) (hids : (topups.map (·.id)).Nodup) :
    (unused.rows.map (·.id)).Nodup :=
  (unused.perm.map _).nodup_iff.2 (hids.sublist (List.filter_sublist.map _))

theorem matchSpend_matched (order : InitialOrder) (unused : Candidates topups)
    (hids : (topups.map (·.id)).Nodup) (hrows : (rows.map (·.instanceId)).Nodup) :
    Matched order rows unused.rows (matchSpend order unused rows) := by
  have hunused := candidates_ids unused hids
  have hloop₁ := afterOrderIds_loop order hunused hrows
  obtain ⟨hpicks₂, hused₂⟩ := afterInstanceIds_picks order hunused hrows
  have hinv₂ := afterInstanceIds_inv order hunused hrows
  have hpicks₃ := matchPackages_picks hrows hinv₂ hused₂
  rw [matchSpend_eq]
  refine ⟨hpicks₃.inv hinv₂, ?_, ?_⟩
  · intro row hrow hof p hp hspend
    -- the loops over the top-ups give the order to no row
    have hkeep : ∀ {ok m m'}, Picks rows unused.rows ok m m' → p ∈ m'.pairs → p ∈ m.pairs := by
      intro ok m m' hpicks hmem
      rcases hpicks.made hmem with h | ⟨t, -, htopup, -⟩
      · exact h
      · rw [hspend] at htopup
        cases htopup
    exact (matchInitialOrder_matched order rows).exact row hrow hof p
      (hkeep hloop₁.picks (hkeep hpicks₂ (hkeep hpicks₃ hp)))
  · intro row hrow t ht hsame
    exact ((hloop₁.taken row hrow t ht hsame).kept hpicks₂).kept hpicks₃

/-! ## What is paid -/

theorem MatchInv.paid_iff (h : MatchInv order rows unused m) {id : String} {amount : Int} :
    newest m.paid id = some amount
      ↔ ∃ p ∈ m.pairs, p.1.instanceId = id ∧ p.2.charge? = some amount := by
  have hentry : ∀ amount, (id, amount) ∈ m.paid
      ↔ ∃ p ∈ m.pairs, p.1.instanceId = id ∧ p.2.charge? = some amount := by
    intro amount
    rw [h.paid, List.mem_filterMap]
    constructor
    · rintro ⟨p, hp, hmap⟩
      obtain ⟨c, hcharge, heq⟩ := Option.map_eq_some_iff.1 hmap
      cases heq
      exact ⟨p, hp, rfl, hcharge⟩
    · rintro ⟨p, hp, hid, hcharge⟩
      refine ⟨p, hp, ?_⟩
      rw [hcharge, hid]
      rfl
  have hnewest : ∀ amount, newest m.paid id = some amount → (id, amount) ∈ m.paid := by
    intro amount hnew
    unfold newest at hnew
    obtain ⟨⟨id', amount'⟩, hfind, heq⟩ := Option.map_eq_some_iff.1 hnew
    have hfound := List.find?_some hfind
    have hid : id' = id := of_decide_eq_true hfound
    rw [← heq, ← hid]
    exact List.mem_of_find?_eq_some hfind
  constructor
  · intro hnew
    exact (hentry amount).1 (hnewest amount hnew)
  · rintro ⟨p, hp, hid, hcharge⟩
    have hpaid : m.isPaid id = true :=
      isPaid_iff.2 ⟨amount, (hentry amount).2 ⟨p, hp, hid, hcharge⟩⟩
    obtain ⟨amount', hnew⟩ := Option.isSome_iff_exists.1 hpaid
    obtain ⟨p', hp', hid', hcharge'⟩ := (hentry amount').1 (hnewest amount' hnew)
    have hsame := List.inj_on_of_nodup_map h.once hp hp' (hid.trans hid'.symm)
    rw [hsame, hcharge'] at hcharge
    rw [hnew, hcharge]

theorem sum_le_of_subperm {α : Type} {f : α → Int} {xs ys : List α} (hnonneg : ∀ y ∈ ys, 0 ≤ f y)
    (h : xs.Subperm ys) :
    (xs.map f).sum ≤ (ys.map f).sum := by
  obtain ⟨zs, hperm, hsub⟩ := h
  rw [← (hperm.map f).sum_eq]
  refine (hsub.map f).sum_le_sum ?_
  intro x hx
  obtain ⟨y, hy, rfl⟩ := List.mem_map.1 hx
  exact hnonneg y hy

/-- What was charged for an eSIM: the order, and the top-ups that are fulfilled and are none of its
credit. -/
def fulfilledCharges (order : InitialOrder) (topups : List TopupRow) : Int :=
  (LocalSpend.order order).charge?.getD 0 + ((topups.filter isCandidate).map (·.amount.micros)).sum

theorem charge_nonneg (spend : LocalSpend) : 0 ≤ spend.charge?.getD 0 := by
  cases spend with
  | order o =>
    unfold LocalSpend.charge?
    dsimp only
    cases o.retailPriceUsd with
    | none => exact Int.le_refl 0
    | some cents =>
      show 0 ≤ (cents : Int) * 10000
      omega
  | topup t =>
    have hpos := t.amount.pos
    show 0 ≤ t.amount.micros
    omega

/-- The pairs cost no more than what there is to be paid for. -/
theorem MatchInv.charges_le {unused : Candidates topups} (h : MatchInv order rows unused.rows m) :
    (m.pairs.map fun p => p.2.charge?.getD 0).sum ≤ fulfilledCharges order topups := by
  have hsub : (spends m).Subperm (.order order :: unused.rows.map .topup) := by
    refine List.subperm_of_subset h.spendOnce ?_
    intro spend hspend
    obtain ⟨p, hp, rfl⟩ := List.mem_map.1 hspend
    rcases h.kinds p hp with ⟨horder, -⟩ | ⟨t, ht, htopup, -⟩
    · rw [horder]
      exact List.mem_cons_self
    · rw [htopup]
      exact List.mem_cons_of_mem _ (List.mem_map.2 ⟨t, ht, rfl⟩)
  have hle := sum_le_of_subperm (f := fun spend => spend.charge?.getD 0)
    (fun spend _ => charge_nonneg spend) hsub
  unfold spends at hle
  rw [List.map_map, List.map_cons, List.sum_cons, List.map_map] at hle
  have hperm := (unused.perm.map fun t => t.amount.micros).sum_eq
  have hleft :
    ((fun spend : LocalSpend => spend.charge?.getD 0) ∘ fun p : SimPackageDTO × LocalSpend => p.2)
      = fun p => p.2.charge?.getD 0 := rfl
  have hright : ((fun spend : LocalSpend => spend.charge?.getD 0) ∘ LocalSpend.topup)
      = fun t => t.amount.micros := rfl
  unfold fulfilledCharges
  rw [hleft, hright, hperm] at hle
  exact hle

/-- What is shown as paid is what the pairs cost. -/
theorem MatchInv.paid_sum (h : MatchInv order rows unused m)
    (hrows : (rows.map (·.instanceId)).Nodup) :
    (rows.map fun row => (newest m.paid row.instanceId).getD 0).sum
      = (m.pairs.map fun p => p.2.charge?.getD 0).sum := by
  have hfst : (m.pairs.map (·.1)).Nodup := by
    have honce : ((m.pairs.map (·.1)).map (·.instanceId)).Nodup := by
      rw [List.map_map]
      exact h.once
    exact honce.of_map
  have hsub : (m.pairs.map (·.1)).Subperm rows := by
    refine List.subperm_of_subset hfst ?_
    intro row hrow
    obtain ⟨p, hp, rfl⟩ := List.mem_map.1 hrow
    exact h.rows p hp
  obtain ⟨matched, hmatched, hsublist⟩ := hsub
  obtain ⟨rest, hperm⟩ := hsublist.exists_perm_append
  have hperm := hperm.trans (hmatched.append_right rest)
  have hnodup : (m.pairs.map (·.1) ++ rest).Nodup := hperm.nodup_iff.1 hrows.of_map
  have hrest : ∀ row ∈ rest, (newest m.paid row.instanceId).getD 0 = 0 := by
    intro row hrow
    cases hnew : newest m.paid row.instanceId with
    | none => rfl
    | some amount =>
      exfalso
      obtain ⟨p, hp, hid, -⟩ := h.paid_iff.1 hnew
      have hmem : row ∈ rows := hperm.mem_iff.2 (List.mem_append_right _ hrow)
      have hsame := List.inj_on_of_nodup_map hrows (h.rows p hp) hmem hid
      rw [← hsame] at hrow
      exact List.disjoint_of_nodup_append hnodup (List.mem_map.2 ⟨p, hp, rfl⟩) hrow
  have hpairs : ∀ p ∈ m.pairs, (newest m.paid p.1.instanceId).getD 0 = p.2.charge?.getD 0 := by
    intro p hp
    cases hcharge : p.2.charge? with
    | some amount => rw [h.paid_iff.2 ⟨p, hp, rfl, hcharge⟩]
    | none =>
      cases hnew : newest m.paid p.1.instanceId with
      | none => rfl
      | some amount =>
        exfalso
        obtain ⟨p', hp', hid, hcharge'⟩ := h.paid_iff.1 hnew
        rw [List.inj_on_of_nodup_map h.once hp' hp hid, hcharge] at hcharge'
        cases hcharge'
  rw [(hperm.map fun row => (newest m.paid row.instanceId).getD 0).sum_eq, List.map_append,
    List.sum_append, List.map_map]
  have hzero : (rest.map fun row => (newest m.paid row.instanceId).getD 0).sum = 0 :=
    List.sum_eq_zero fun x hx => by
      obtain ⟨row, hrow, rfl⟩ := List.mem_map.1 hx
      exact hrest row hrow
  rw [hzero, Int.add_zero]
  exact congrArg List.sum (List.map_congr_left hpairs)

/-- A row of the history has the id of its package, and what is paid for it. -/
theorem appliedPackage_eq {parse : String → Except Exc (Option Time)} {currency : String}
    {applied : AppliedPackage} (h : appliedPackage parse currency m row = .ok applied) :
    (applied.id, applied.paidUsd) = (row.instanceId, newest m.paid row.instanceId) := by
  unfold appliedPackage at h
  obtain ⟨createdAt, -, h⟩ := bind_ok h
  cases h
  rfl

theorem topupsOf_ids (table : Table TopupRow) (esim : Nat) :
    ((topupsOf table esim).map (·.id)).Nodup := by
  have hids : (table.rows.map (·.id)).Nodup := by
    refine List.pairwise_map.2 (table.apart.imp ?_)
    intro t u happart heq
    exact happart (.inl heq)
  exact hids.sublist (List.filter_sublist.map _)

/--
**The rows of the history are matched one to one with the order and the fulfilled top-ups, by
the id of an order before anything else, and what is shown as paid is no more than what was
charged.**
-/
theorem history_matched {table : Table TopupRow} {esim : Nat}
    (unused : Candidates (topupsOf table esim)) (order : InitialOrder) {rows : List SimPackageDTO}
    (hrows : (rows.map (·.instanceId)).Nodup) :
    let m := matchSpend order unused rows
    ((m.pairs.map (·.1)).Nodup ∧ (m.pairs.map (·.2)).Nodup)
      ∧ (∀ p ∈ m.pairs, p.1 ∈ rows ∧ (p.2 = .order order
        ∨ ∃ t ∈ table, t.esim = esim ∧ t.status = .fulfilled ∧ t.sequence ≠ some 0
          ∧ p.2 = .topup t))
      ∧ (∀ row ∈ esimRows rows, OfOrder order row → ∀ p ∈ m.pairs, p.2 = .order order
        → OfOrder order p.1)
      ∧ (∀ row ∈ topupRows rows, ∀ t ∈ topupsOf table esim, isCandidate t = true → SameOrder row t →
        Taken m row t)
      ∧ ∀ parse history, listPackages parse order unused rows = .ok history →
        history.map (·.id) = rows.map (·.instanceId)
          ∧ (∀ shown ∈ history, ∀ amount, shown.paidUsd = some amount ↔
            ∃ p ∈ m.pairs, p.1.instanceId = shown.id ∧ p.2.charge? = some amount)
          ∧ (history.map (·.paidUsd.getD 0)).sum
            ≤ fulfilledCharges order (topupsOf table esim) := by
  intro m
  obtain ⟨hinv, hofOrder, hsameOrder⟩ :=
    matchSpend_matched order unused (topupsOf_ids table esim) hrows
  have hcandidate : ∀ t, t ∈ unused.rows ↔ t ∈ topupsOf table esim ∧ isCandidate t = true := by
    intro t
    rw [unused.perm.mem_iff, List.mem_filter]
  refine ⟨⟨?_, hinv.spendOnce⟩, ?_, hofOrder, ?_, ?_⟩
  · have honce : ((m.pairs.map (·.1)).map (·.instanceId)).Nodup := by
      rw [List.map_map]
      exact hinv.once
    exact honce.of_map
  · intro p hp
    refine ⟨hinv.rows p hp, ?_⟩
    rcases hinv.kinds p hp with ⟨horder, -⟩ | ⟨t, ht, htopup, -⟩
    · exact .inl horder
    · obtain ⟨hmem, hcheck⟩ := (hcandidate t).1 ht
      obtain ⟨htable, hesim⟩ := List.mem_filter.1 hmem
      obtain ⟨hstatus, hsequence⟩ := Bool.and_eq_true_iff.1 hcheck
      exact .inr ⟨t, htable, of_decide_eq_true hesim, of_decide_eq_true hstatus,
        of_decide_eq_true hsequence, htopup⟩
  · intro row hrow t ht hcheck hsame
    exact hsameOrder row hrow t ((hcandidate t).2 ⟨ht, hcheck⟩) hsame
  · intro parse history hlist
    unfold listPackages at hlist
    have hshown := map_of_mapM (fun _ _ h => appliedPackage_eq h) hlist
    have hids : history.map (·.id) = rows.map (·.instanceId) := by
      have hfst := congrArg (List.map Prod.fst) hshown
      rw [List.map_map, List.map_map] at hfst
      exact hfst
    refine ⟨hids, ?_, ?_⟩
    · intro shown hmem amount
      obtain ⟨row, -, hrow⟩ := mem_of_mapM hlist hmem
      obtain ⟨hid, hpaid⟩ := Prod.mk.inj (appliedPackage_eq hrow)
      rw [hid, hpaid]
      exact hinv.paid_iff
    · have hpaid : history.map (·.paidUsd.getD 0) = rows.map fun row =>
          (newest m.paid row.instanceId).getD 0 := by
        have hsnd := congrArg (List.map fun x : String × Option Int => x.2.getD 0) hshown
        rw [List.map_map, List.map_map] at hsnd
        exact hsnd
      rw [hpaid, hinv.paid_sum hrows]
      exact hinv.charges_le

/-! ## Two top-ups of one package -/

/-- A list of the order's package and of two top-ups; the first has the id of the second
purchase. -/
def twoTopups : List SimPackageDTO :=
  [⟨"i1", "active", none, none, none, none, "japan", "sim", "1 GB", 7, false, none, none, none⟩,
    ⟨"i2", "active", none, none, none, none, "more", "topup", "1 GB", 7, false, some "b",
      none, none⟩,
    ⟨"i3", "active", none, none, none, none, "more", "topup", "1 GB", 7, false, some "a",
      none, none⟩]

/-- The order was ten dollars. -/
def tenDollars : InitialOrder := ⟨some 1000, "o", "USD", 0⟩

/-- Two purchases of five dollars each. -/
def twoPurchases : Table TopupRow :=
  ⟨[⟨alice, 1, "more", fiveDollars, .fulfilled, some 1, "", "a", 1⟩,
    ⟨bob, 1, "more", fiveDollars, .fulfilled, some 2, "", "b", 2⟩], by decide⟩

def inTurnCandidates : Candidates (topupsOf twoPurchases 1) :=
  ⟨twoPurchases.rows, .refl _, by decide⟩

theorem history_matched_two :
    (matchSpend tenDollars inTurnCandidates twoTopups).pairs.length = 3
      ∧ ((matchSpend tenDollars inTurnCandidates twoTopups).pairs.map (·.2)).Nodup
      ∧ ∃ history, listPackages (fun _ => .ok none) tenDollars inTurnCandidates twoTopups
        = .ok history
        ∧ history.length = 3 ∧ (history.map (·.paidUsd.getD 0)).sum ≤ 20000000 := by
  have hmatched := @history_matched twoPurchases 1 inTurnCandidates tenDollars twoTopups (by decide)
  obtain ⟨history, hlist⟩ :
      ∃ history, listPackages (fun _ => .ok none) tenDollars inTurnCandidates twoTopups
        = .ok history := ⟨_, rfl⟩
  obtain ⟨hids, _, hsum⟩ := hmatched.2.2.2.2 _ history hlist
  have hlength : history.length = 3 := by
    have hlengths := congrArg List.length hids
    rwa [List.length_map, List.length_map] at hlengths
  exact ⟨by decide, hmatched.1.2, history, hlist, hlength, hsum⟩

end Roamkit.Esims.Proof
