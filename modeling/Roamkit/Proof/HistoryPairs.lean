import Roamkit.Lib.Deal
import Roamkit.Lib.Singles
import Roamkit.Proof.PackageHistory

/-!
# What the history pairs

Which row the history pairs with which top-up, read off the two lists. Rows and top-ups
with the id of one order are dealt out in their places. Of what is left, a row's own id can
single out a top-up, and then the package can, where there is one of each.
-/

namespace Roamkit.Esims.Proof

open Lib Billing Spend

/-! ## Which row is tied to which top-up -/

section Ties

variable (rows : List SimPackageDTO) (unused : List TopupRow)

instance (row : SimPackageDTO) (t : TopupRow) : Decidable (SameOrder row t) :=
  inferInstanceAs (Decidable (_ = _))

/-- By the id of an order: they stand at one place among the rows, and the top-ups, that have it. -/
def ByOrderId (row : SimPackageDTO) (t : TopupRow) : Prop :=
  SameOrder row t ∧ ∃ k : Nat, (rows.filter (·.orderId = row.orderId))[k]? = some row
    ∧ (unused.filter (SameOrder row ·))[k]? = some t

/-- By the row's own id: of what no order ties, the row is the first with the id and the top-up the
only one. -/
def ByInstanceId (row : SimPackageDTO) (t : TopupRow) : Prop :=
  PyText.strip row.instanceId ≠ ""
    ∧ IsFirst rows (fun r => (¬ ∃ u, ByOrderId rows unused r u)
        ∧ PyText.strip r.instanceId = PyText.strip row.instanceId) row
    ∧ IsOnly unused (fun u => (¬ ∃ r, ByOrderId rows unused r u)
        ∧ PyText.strip u.externalOrderId = PyText.strip row.instanceId) t

/-- By the package: of what is not tied otherwise, each is the only one of it. -/
def ByPackage (row : SimPackageDTO) (t : TopupRow) : Prop :=
  row.packageExternalId ≠ ""
    ∧ IsOnly rows (fun r => (¬ ∃ u, ByOrderId rows unused r u ∨ ByInstanceId rows unused r u)
      ∧ r.orderId = none
        ∧ r.packageExternalId = row.packageExternalId) row
    ∧ IsOnly unused (fun u => (¬ ∃ r, ByOrderId rows unused r u ∨ ByInstanceId rows unused r u)
        ∧ u.packageExternalId = row.packageExternalId) t

/-- The row and the top-up are tied, by the first of the three that ties either. -/
def Tied (row : SimPackageDTO) (t : TopupRow) : Prop :=
  ByOrderId rows unused row t ∨ ByInstanceId rows unused row t ∨ ByPackage rows unused row t

end Ties

/-! ## The first loop -/

variable {order : InitialOrder} {rows : List SimPackageDTO} {unused : List TopupRow} {m : Matching}

/-- The top-ups the first loop may still give to a row, in the buckets of the ids of their
orders. -/
def LeftByOrder (unused : List TopupRow) (m : Matching)
    (buckets : Option String → List TopupRow) : Prop :=
  buckets none = [] ∧ ∀ id, buckets (some id)
    = unused.filter fun t => t.id ∉ m.usedIds ∧ PyText.strip t.externalOrderId = id

variable {t : TopupRow} {row : SimPackageDTO} {topups : List TopupRow}

theorem leftByOrder_use (hids : (unused.map (·.id)).Nodup)
    {buckets : Option String → List TopupRow} {id : String} {rest : List TopupRow}
    (h : LeftByOrder unused m buckets) (hbucket : buckets (some id) = t :: rest)
    (row : SimPackageDTO) :
    LeftByOrder unused ((m.use t).assign row (.topup t))
      (Function.update buckets (some id) rest) := by
  have hmore : ∀ id', unused.filter
    (fun u => u.id ∉ t.id :: m.usedIds ∧ PyText.strip u.externalOrderId = id')
      = (buckets (some id')).filter (·.id ≠ t.id) := by
    intro id'
    rw [h.2, List.filter_filter]
    refine List.filter_congr fun u _ => ?_
    rw [Bool.eq_iff_iff, Bool.and_eq_true, decide_eq_true_eq, decide_eq_true_eq, decide_eq_true_eq,
      List.mem_cons, not_or, and_assoc]
  have hbucketIds : ((buckets (some id)).map (·.id)).Nodup := by
    rw [h.2]
    exact hids.sublist (List.filter_sublist.map _)
  have ht : t ∈ unused ∧ PyText.strip t.externalOrderId = id := by
    have hmem : t ∈ buckets (some id) := by
      rw [hbucket]
      exact List.mem_cons_self
    rw [h.2] at hmem
    obtain ⟨hin, hcheck⟩ := List.mem_filter.1 hmem
    exact ⟨hin, (of_decide_eq_true hcheck).2⟩
  constructor
  · rw [Function.update_of_ne (by nofun)]
    exact h.1
  · intro id'
    show _ = unused.filter fun u => u.id ∉ t.id :: m.usedIds ∧ PyText.strip u.externalOrderId = id'
    rw [hmore]
    by_cases hid : id' = id
    · rw [hid, Function.update_self, hbucket]
      rw [hbucket, List.map_cons, List.nodup_cons] at hbucketIds
      rw [List.filter_cons_of_neg (by simp)]
      refine (List.filter_eq_self.2 fun u hu => decide_eq_true ?_).symm
      intro heq
      exact hbucketIds.1 (List.mem_map.2 ⟨u, hu, heq⟩)
    · rw [Function.update_of_ne (fun hc => hid (Option.some.inj hc))]
      refine (List.filter_eq_self.2 fun u hu => decide_eq_true ?_).symm
      intro heq
      rw [h.2] at hu
      obtain ⟨hin, hcheck⟩ := List.mem_filter.1 hu
      have hsame := List.inj_on_of_nodup_map hids hin ht.1 heq
      rw [hsame] at hcheck
      exact hid ((of_decide_eq_true hcheck).2.symm.trans ht.2)

/-- The pairs that are made are one that is made now, and those of the rest. -/
theorem mem_dealt {dealt : List (SimPackageDTO × TopupRow)} {p : SimPackageDTO × LocalSpend} :
    (p ∈ ((m.use t).assign row (.topup t)).pairs ∨ ∃ x ∈ dealt, p = (x.1, .topup x.2))
      ↔ p ∈ m.pairs ∨ ∃ x ∈ (row, t) :: dealt, p = (x.1, .topup x.2) := by
  constructor
  · rintro (hmem | ⟨x, hx, rfl⟩)
    · rcases List.mem_cons.1 hmem with rfl | hold
      · exact .inr ⟨(row, t), List.mem_cons_self, rfl⟩
      · exact .inl hold
    · exact .inr ⟨x, List.mem_cons_of_mem _ hx, rfl⟩
  · rintro (hold | ⟨x, hx, rfl⟩)
    · exact .inl (List.mem_cons_of_mem _ hold)
    · rcases List.mem_cons.1 hx with rfl | hx
      · exact .inl List.mem_cons_self
      · exact .inr ⟨x, hx, rfl⟩

/-- The first loop deals the top-ups of an order's id out to the rows that have it. -/
theorem matchOrderId_pairs (hids : (unused.map (·.id)).Nodup)
    {buckets : Option String → List TopupRow} (hbuckets : LeftByOrder unused m buckets)
    (left : List SimPackageDTO) (p : SimPackageDTO × LocalSpend) :
    p ∈ (left.foldl (Matching.matchOrderId unused) m).pairs
      ↔ p ∈ m.pairs ∨ ∃ x ∈ deal SimPackageDTO.orderId buckets left, p = (x.1, .topup x.2) := by
  induction left generalizing m buckets with
  | nil =>
    constructor
    · exact .inl
    · rintro (h | ⟨x, hx, -⟩)
      · exact h
      · cases hx
  | cons row left ih =>
    rw [List.foldl_cons]
    cases hbucket : buckets row.orderId with
    | nil =>
      have hskip : Matching.matchOrderId unused m row = m := by
        unfold Matching.matchOrderId
        cases hid : row.orderId with
        | none => rfl
        | some id =>
          rw [hid, hbuckets.2] at hbucket
          dsimp only
          rw [← List.head?_filter, hbucket]
          rfl
      rw [hskip, deal_empty hbucket]
      exact ih hbuckets
    | cons t rest =>
      rw [deal_taken hbucket]
      cases hid : row.orderId with
      | none =>
        rw [hid, hbuckets.1] at hbucket
        cases hbucket
      | some id =>
        rw [hid] at hbucket
        have hstep : Matching.matchOrderId unused m row = (m.use t).assign row (.topup t) := by
          have hfilter := hbucket
          rw [hbuckets.2] at hfilter
          unfold Matching.matchOrderId
          rw [hid]
          dsimp only
          rw [← List.head?_filter, hfilter]
          rfl
        rw [hstep, ih (leftByOrder_use hids hbuckets hbucket row)]
        exact mem_dealt

/-! ## The other loops -/

theorem isPaid_assign {id : String} :
    ((m.use t).assign row (.topup t)).isPaid id = true
      ↔ id = row.instanceId ∨ m.isPaid id = true := by
  rw [isPaid_iff, isPaid_iff]
  constructor
  · rintro ⟨amount, hmem⟩
    rcases List.mem_cons.1 hmem with heq | hold
    · cases heq
      exact .inl rfl
    · exact .inr ⟨amount, hold⟩
  · rintro (rfl | ⟨amount, hold⟩)
    · exact ⟨t.amount.micros, List.mem_cons_self⟩
    · exact ⟨amount, List.mem_cons_of_mem _ hold⟩

/-- A bucket with one top-up; any other counts as empty. -/
def single (topups : List TopupRow) : List TopupRow :=
  match topups with
  | [t] => [t]
  | _ => []

theorem single_eq {k : Nat} : (single topups)[k]? = some t ↔ k = 0 ∧ topups = [t] := by
  unfold single
  split
  · rename_i u
    cases k with
    | zero => simp
    | succ k => simp
  · rename_i hmany
    constructor
    · intro h
      cases h
    · rintro ⟨-, heq⟩
      exact absurd heq (hmany t)

/-- The single top-ups of a dictionary. -/
def singles (dict : String → List TopupRow) (key : String) : List TopupRow := single (dict key)

/-- The key of a row in that dictionary. -/
def ownId (row : SimPackageDTO) : String := PyText.strip row.instanceId

/-- The loop over the rows' own ids deals the single top-ups out to the rows that are not paid
for. -/
theorem matchInstanceId_pairs {dict : String → List TopupRow} (hblank : dict "" = [])
    {left : List SimPackageDTO} (hleft : (left.map (·.instanceId)).Nodup)
    (p : SimPackageDTO × LocalSpend) :
    p ∈ (left.foldl Matching.matchInstanceId (m, dict)).1.pairs ↔ p ∈ m.pairs
      ∨ ∃ x ∈ deal ownId (singles dict)
        (left.filter fun row => ¬ m.isPaid row.instanceId = true), p = (x.1, .topup x.2) := by
  induction left generalizing m dict with
  | nil =>
    constructor
    · exact .inl
    · rintro (h | ⟨x, hx, -⟩)
      · exact h
      · cases hx
  | cons row left ih =>
    rw [List.map_cons, List.nodup_cons] at hleft
    rw [List.foldl_cons]
    by_cases hpaid : m.isPaid row.instanceId = true
    · have hskip : Matching.matchInstanceId (m, dict) row = (m, dict) := if_pos (.inl hpaid)
      have hfilter : (row :: left).filter (fun r => ¬ m.isPaid r.instanceId = true)
          = left.filter fun r => ¬ m.isPaid r.instanceId = true :=
        List.filter_cons_of_neg (fun hc => of_decide_eq_true hc hpaid)
      rw [hskip, hfilter]
      exact ih hblank hleft.2
    · have hfilter : (row :: left).filter (fun r => ¬ m.isPaid r.instanceId = true)
          = row :: left.filter fun r => ¬ m.isPaid r.instanceId = true :=
        List.filter_cons_of_pos (decide_eq_true hpaid)
      rw [hfilter]
      -- a row whose id singles no top-up out goes without
      have hpass : Matching.matchInstanceId (m, dict) row = (m, dict) →
          singles dict (ownId row) = [] → (p ∈ (left.foldl Matching.matchInstanceId
            (Matching.matchInstanceId (m, dict) row)).1.pairs ↔ p ∈ m.pairs
              ∨ ∃ x ∈ deal ownId (singles dict)
                (row :: left.filter fun r => ¬ m.isPaid r.instanceId = true),
                  p = (x.1, .topup x.2)) := by
        intro hskip hnone
        rw [hskip, deal_empty hnone]
        exact ih hblank hleft.2
      by_cases hkey : ownId row = ""
      · refine hpass (if_pos (.inr hkey)) ?_
        unfold singles
        rw [hkey, hblank]
        rfl
      · have hstep : Matching.matchInstanceId (m, dict) row = match dict (ownId row) with
            | [t] => ((m.use t).assign row (.topup t), Function.update dict (ownId row) [])
            | _ => (m, dict) := if_neg (not_or.2 ⟨hpaid, hkey⟩)
        by_cases hone : ∃ t, dict (ownId row) = [t]
        · obtain ⟨t, hone⟩ := hone
          rw [hone] at hstep
          have hleft' : left.filter
            (fun r => ¬ ((m.use t).assign row (.topup t)).isPaid r.instanceId = true)
              = left.filter fun r => ¬ m.isPaid r.instanceId = true := by
            refine List.filter_congr fun r hr => ?_
            rw [Bool.eq_iff_iff, decide_eq_true_eq, decide_eq_true_eq, isPaid_assign, not_or,
              and_iff_right]
            intro heq
            exact hleft.1 (List.mem_map.2 ⟨r, hr, heq⟩)
          have hbuckets : singles (Function.update dict (ownId row) [])
              = Function.update (singles dict) (ownId row) [] := by
            funext key
            unfold singles
            by_cases heq : key = ownId row
            · rw [heq, Function.update_self, Function.update_self]
              rfl
            · rw [Function.update_of_ne heq, Function.update_of_ne heq]
          have hblank' : Function.update dict (ownId row) [] "" = [] := by
            rw [Function.update_of_ne (Ne.symm hkey)]
            exact hblank
          have hsingle : singles dict (ownId row) = [t] := by
            unfold singles
            rw [hone]
            rfl
          rw [hstep, deal_taken hsingle, ih hblank' hleft.2, hleft', hbuckets]
          exact mem_dealt
        · have hmany : ∀ t, dict (ownId row) ≠ [t] := fun t hc => hone ⟨t, hc⟩
          refine hpass ?_ ?_
          · rw [hstep]
            split
            · rename_i t hc
              exact absurd hc (hmany t)
            · rfl
          · unfold singles single
            split
            · rename_i t hc
              exact absurd hc (hmany t)
            · rfl

/-- The last loop pairs the row and the top-up of each package that has one of both. -/
theorem matchPackage_pairs {free : List SimPackageDTO} (packages : List String)
    (p : SimPackageDTO × LocalSpend) :
    p ∈ (packages.foldl (Matching.matchPackage free topups) m).pairs ↔ p ∈ m.pairs
      ∨ ∃ package ∈ packages, ∃ row t, free.filter (·.packageExternalId = package) = [row]
        ∧ topups.filter (·.packageExternalId = package) = [t] ∧ p = (row, .topup t) := by
  induction packages generalizing m with
  | nil =>
    constructor
    · exact .inl
    · rintro (h | ⟨package, hpackage, -⟩)
      · exact h
      · cases hpackage
  | cons package packages ih =>
    rw [List.foldl_cons, ih]
    have hstep : p ∈ (Matching.matchPackage free topups m package).pairs ↔ p ∈ m.pairs
        ∨ ∃ row t, free.filter (·.packageExternalId = package) = [row]
          ∧ topups.filter (·.packageExternalId = package) = [t] ∧ p = (row, .topup t) := by
      unfold Matching.matchPackage
      split
      · rename_i row t hrow ht
        constructor
        · intro hmem
          rcases List.mem_cons.1 hmem with rfl | hold
          · exact .inr ⟨row, t, hrow, ht, rfl⟩
          · exact .inl hold
        · rintro (hold | ⟨row', t', hrow', ht', rfl⟩)
          · exact List.mem_cons_of_mem _ hold
          · rw [hrow] at hrow'
            rw [ht] at ht'
            cases hrow'
            cases ht'
            exact List.mem_cons_self
      · rename_i hmany
        constructor
        · exact .inl
        · rintro (hold | ⟨row, t, hrow, ht, -⟩)
          · exact hold
          · exact absurd ht (hmany row t hrow)
    rw [hstep, or_assoc]
    constructor
    · rintro (hold | hpackage | ⟨package', hpackage', h⟩)
      · exact .inl hold
      · exact .inr ⟨package, List.mem_cons_self, hpackage⟩
      · exact .inr ⟨package', List.mem_cons_of_mem _ hpackage', h⟩
    · rintro (hold | ⟨package', hpackage', h⟩)
      · exact .inl hold
      · rcases List.mem_cons.1 hpackage' with rfl | hpackage'
        · exact .inr (.inl h)
        · exact .inr (.inr ⟨package', hpackage', h⟩)

/-! ## The stages, read off the lists -/

theorem paired_of_paid (h : MatchInv order rows unused m) (hrows : (rows.map (·.instanceId)).Nodup)
    (hrow : row ∈ topupRows rows) :
    m.isPaid row.instanceId = true ↔ ∃ t, (row, .topup t) ∈ m.pairs := by
  constructor
  · intro hpaid
    obtain ⟨amount, hmem⟩ := isPaid_iff.1 hpaid
    rw [h.paid] at hmem
    obtain ⟨p, hp, hmap⟩ := List.mem_filterMap.1 hmem
    obtain ⟨c, -, heq⟩ := Option.map_eq_some_iff.1 hmap
    obtain ⟨hlisted, hkind⟩ := mem_topupRows.1 hrow
    obtain rfl : p.1 = row :=
      List.inj_on_of_nodup_map hrows (h.rows p hp) hlisted (congrArg Prod.fst heq)
    rcases h.kinds p hp with ⟨-, hesim⟩ | ⟨t, -, hspend, -⟩
    · exact absurd hesim hkind
    · refine ⟨t, ?_⟩
      rw [← hspend]
      exact hp
  · rintro ⟨t, hp⟩
    exact h.isPaid hrows hrow (List.mem_map.2 ⟨_, hp, rfl⟩)

theorem paired_of_used (h : UsedKeys unused m) (ht : t ∈ unused) :
    t.id ∈ m.usedIds ↔ ∃ row, (row, .topup t) ∈ m.pairs := by
  rw [← h t ht]
  constructor
  · intro hmem
    obtain ⟨p, hp, hspend⟩ := List.mem_map.1 hmem
    refine ⟨p.1, ?_⟩
    rw [← hspend]
    exact hp
  · rintro ⟨row, hp⟩
    exact List.mem_map.2 ⟨_, hp, rfl⟩

/-- The top-ups by the ids of their orders. -/
def byOrder (unused : List TopupRow) (id : Option String) : List TopupRow :=
  unused.filter fun t => some (PyText.strip t.externalOrderId) = id

section Stages

variable (order) (hids : (unused.map (·.id)).Nodup) (hrows : (rows.map (·.instanceId)).Nodup)

include hids

theorem mem_afterOrderIds :
    (row, .topup t) ∈ (afterOrderIds order rows unused).pairs
      ↔ ByOrderId (topupRows rows) unused row t := by
  have hnone : byOrder unused none = [] := by
    refine List.filter_eq_nil_iff.2 fun u _ hc => ?_
    cases of_decide_eq_true hc
  have hbuckets : LeftByOrder unused (afterOrder order rows) (byOrder unused) := by
    refine ⟨hnone, fun id => List.filter_congr fun u _ => ?_⟩
    have hunused : (afterOrder order rows).usedIds = [] :=
      (matchInitialOrder_matched order rows).unused
    rw [hunused, Bool.eq_iff_iff, decide_eq_true_eq, decide_eq_true_eq, Option.some_inj]
    exact (and_iff_right List.not_mem_nil).symm
  have hbucket : byOrder unused row.orderId = unused.filter (SameOrder row ·) := by
    refine List.filter_congr fun u _ => ?_
    rw [Bool.eq_iff_iff, decide_eq_true_eq, decide_eq_true_eq]
    exact eq_comm
  unfold afterOrderIds
  rw [matchOrderId_pairs hids hbuckets]
  constructor
  · rintro (hp | ⟨⟨row', t'⟩, hdealt, heq⟩)
    · cases (afterOrder_pairs hp).1
    · cases heq
      obtain ⟨k, hrow, ht⟩ := mem_deal.1 hdealt
      rw [hbucket] at ht
      exact ⟨of_decide_eq_true (List.mem_filter.1 (List.mem_of_getElem? ht)).2, k, hrow, ht⟩
  · rintro ⟨-, k, hrow, ht⟩
    rw [← hbucket] at ht
    exact .inr ⟨(row, t), mem_deal.2 ⟨k, hrow, ht⟩, rfl⟩

include hrows

theorem mem_afterInstanceIds :
    (row, .topup t) ∈ (afterInstanceIds order rows unused).pairs
      ↔ ByOrderId (topupRows rows) unused row t ∨ ByInstanceId (topupRows rows) unused row t := by
  have hinv := afterOrderIds_inv order hids hrows
  have hused := (afterOrderIds_loop order hids hrows).used
  have htopupRows : ((topupRows rows).map (·.instanceId)).Nodup :=
    hrows.sublist (List.filter_sublist.map _)
  -- what the first loop has paid for, and used, is what an order ties
  have hfree : ∀ r ∈ topupRows rows, ¬ (afterOrderIds order rows unused).isPaid r.instanceId = true
      ↔ ¬ ∃ u, ByOrderId (topupRows rows) unused r u := fun r hr =>
    not_congr
      ((paired_of_paid hinv hrows hr).trans (exists_congr fun u => mem_afterOrderIds order hids))
  have hleft : ∀ u ∈ unused, u.id ∉ (afterOrderIds order rows unused).usedIds
      ↔ ¬ ∃ r, ByOrderId (topupRows rows) unused r u := fun u hu =>
    not_congr ((paired_of_used hused hu).trans (exists_congr fun r => mem_afterOrderIds order hids))
  unfold afterInstanceIds Matching.matchTopupsByInstanceId
  dsimp only
  rw [matchInstanceId_pairs (if_pos rfl) htopupRows, mem_afterOrderIds order hids]
  refine or_congr_right ?_
  have hdealt : (∃ x ∈ deal ownId (singles fun key => if key = "" then [] else
        ((afterOrderIds order rows unused).left unused).filter fun t =>
          PyText.strip t.externalOrderId = key)
        ((topupRows rows).filter fun row =>
          ¬ (afterOrderIds order rows unused).isPaid row.instanceId = true),
        (row, LocalSpend.topup t) = (x.1, .topup x.2))
      ↔ (((topupRows rows).filter fun row =>
        ¬ (afterOrderIds order rows unused).isPaid row.instanceId = true).filter
          (ownId · = ownId row))[0]? = some row
        ∧ ownId row ≠ "" ∧ (((afterOrderIds order rows unused).left unused).filter fun t =>
          PyText.strip t.externalOrderId = ownId row) = [t] := by
    constructor
    · rintro ⟨⟨row', t'⟩, hmem, heq⟩
      cases heq
      obtain ⟨k, hrow, ht⟩ := mem_deal.1 hmem
      obtain ⟨rfl, hone⟩ := single_eq.1 ht
      dsimp only at hone
      by_cases hblank : ownId row' = ""
      · rw [if_pos hblank] at hone
        cases hone
      · rw [if_neg hblank] at hone
        exact ⟨hrow, hblank, hone⟩
    · rintro ⟨hrow, hblank, ht⟩
      refine ⟨(row, t), mem_deal.2 ⟨0, hrow, single_eq.2 ⟨rfl, ?_⟩⟩, rfl⟩
      dsimp only
      rw [if_neg hblank]
      exact ht
  rw [hdealt, List.filter_filter, Matching.left, List.filter_filter,
    isFirst_iff (p :=
      fun r => (¬ ∃ u, ByOrderId (topupRows rows) unused r u) ∧ ownId r = ownId row),
    isOnly_iff hids.of_map (p := fun u => (¬ ∃ r, ByOrderId (topupRows rows) unused r u)
      ∧ PyText.strip u.externalOrderId = ownId row)]
  · exact ⟨fun ⟨hrow, hblank, ht⟩ => ⟨hblank, hrow, ht⟩,
      fun ⟨hblank, hrow, ht⟩ => ⟨hrow, hblank, ht⟩⟩
  · intro u hu
    rw [Bool.and_eq_true, decide_eq_true_eq, decide_eq_true_eq, hleft u hu, and_comm]
  · intro r hr
    rw [Bool.and_eq_true, decide_eq_true_eq, decide_eq_true_eq, hfree r hr, and_comm]

theorem mem_matchPackages :
    (row, .topup t)
      ∈ ((afterInstanceIds order rows unused).matchPackages (topupRows rows) unused).pairs
      ↔ Tied (topupRows rows) unused row t := by
  have hinv := afterInstanceIds_inv order hids hrows
  have hused := (afterInstanceIds_picks order hids hrows).2
  have htopupRows : (topupRows rows).Nodup := (hrows.sublist (List.filter_sublist.map _)).of_map
  -- what is tied otherwise is paid for, and used
  have hfree : ∀ r ∈ topupRows rows,
    ¬ (afterInstanceIds order rows unused).isPaid r.instanceId = true
      ↔ ¬ ∃ u, ByOrderId (topupRows rows) unused r u
        ∨ ByInstanceId (topupRows rows) unused r u := fun r hr =>
    not_congr ((paired_of_paid hinv hrows hr).trans
      (exists_congr fun u => mem_afterInstanceIds order hids hrows))
  have hleft : ∀ u ∈ unused, u.id ∉ (afterInstanceIds order rows unused).usedIds
      ↔ ¬ ∃ r, ByOrderId (topupRows rows) unused r u
        ∨ ByInstanceId (topupRows rows) unused r u := fun u hu =>
    not_congr ((paired_of_used hused hu).trans
      (exists_congr fun r => mem_afterInstanceIds order hids hrows))
  have hrowIff : ∀ {package : String}, ((topupRows rows).filter fun r =>
        ¬ (afterInstanceIds order rows unused).isPaid r.instanceId = true ∧ r.orderId = none).filter
          (·.packageExternalId = package) = [row]
      ↔ IsOnly (topupRows rows) (fun r => (¬ ∃ u, ByOrderId (topupRows rows) unused r u
        ∨ ByInstanceId (topupRows rows) unused r u) ∧ r.orderId = none
          ∧ r.packageExternalId = package) row := by
    intro package
    rw [List.filter_filter]
    refine isOnly_iff htopupRows fun r hr => ?_
    rw [Bool.and_eq_true, decide_eq_true_eq, decide_eq_true_eq, hfree r hr, and_comm, and_assoc]
  have htopupIff : ∀ {package : String},
      ((afterInstanceIds order rows unused).left unused).filter
        (·.packageExternalId = package) = [t]
      ↔ IsOnly unused (fun u => (¬ ∃ r, ByOrderId (topupRows rows) unused r u
        ∨ ByInstanceId (topupRows rows) unused r u) ∧ u.packageExternalId = package) t := by
    intro package
    unfold Matching.left
    rw [List.filter_filter]
    refine isOnly_iff hids.of_map fun u hu => ?_
    rw [Bool.and_eq_true, decide_eq_true_eq, decide_eq_true_eq, hleft u hu, and_comm]
  unfold Matching.matchPackages Tied
  rw [matchPackage_pairs, mem_afterInstanceIds order hids hrows, or_assoc]
  refine or_congr_right (or_congr_right ?_)
  constructor
  · rintro ⟨package, hpackage, row', t', hrow, ht, heq⟩
    cases heq
    have hone := hrowIff.1 hrow
    obtain rfl : row.packageExternalId = package := hone.2.1.2.2
    refine ⟨?_, hone, htopupIff.1 ht⟩
    rw [Matching.dictKeys, List.mem_reverse, List.mem_dedup, List.mem_reverse,
      List.mem_filter] at hpackage
    exact of_decide_eq_true hpackage.2
  · rintro ⟨hblank, hrow, ht⟩
    have hrow := hrowIff.2 hrow
    refine ⟨row.packageExternalId, ?_, row, t, hrow, htopupIff.2 ht, rfl⟩
    rw [Matching.dictKeys, List.mem_reverse, List.mem_dedup, List.mem_reverse, List.mem_filter]
    have hmem : row ∈ [row] := List.mem_singleton.2 rfl
    rw [← hrow] at hmem
    exact ⟨List.mem_map.2 ⟨row, (List.mem_filter.1 hmem).1, rfl⟩, decide_eq_true hblank⟩

end Stages

/-- **The history pairs the rows of top-ups with the top-ups they are tied to.** -/
theorem mem_history (order : InitialOrder) (unused : Candidates topups)
    (hids : (topups.map (·.id)).Nodup) (hrows : (rows.map (·.instanceId)).Nodup) :
    (row, .topup t) ∈ (matchSpend order unused rows).pairs
      ↔ Tied (topupRows rows) unused.rows row t := by
  rw [matchSpend_eq]
  exact mem_matchPackages order (candidates_ids unused hids) hrows

end Roamkit.Esims.Proof
