import Roamkit.Proof.Vouchers

/-!
# Revocation

A voucher is redeemed by its own status; that of its campaign or batch is not read.
So a revoked parent stops its vouchers only as far as the operations have written
the vouchers too. `KeepsRevoked` names the steps that do not: a save that sets the
status of a campaign, and an extension of an expired voucher.
-/

namespace Roamkit.Vouchers.Proof

open Lib Billing Billing.Proof Vouchers

/-- A campaign or a batch of a voucher is revoked. -/
def RevokedParent (s : VoucherDb) (v : Voucher) : Prop :=
  (∃ k ∈ s.campaigns, v.campaign = some k.id ∧ k.status = .revoked)
    ∨ ∃ b ∈ s.batches, v.batch = some b.id ∧ b.status = .revoked

/-- A step leaves no voucher of a revoked campaign or batch to be redeemed. -/
structure KeepsRevoked (s : VoucherDb) (t : VoucherThread) : Prop where
  /-- A save revokes no campaign that has active vouchers. -/
  save : ∀ locked row, t.pc = .saving locked row → row.status = .revoked →
    ∀ v ∈ s.vouchers, v.campaign = some row.id → v.status ≠ .active
  /-- No expired voucher of a revoked campaign or batch is extended. -/
  extend : ∀ v ∈ s.vouchers, t.call.extended? = some v.id → v.status = .expired
    → ¬ RevokedParent s v
  /-- None is issued as active under a revoked one. -/
  issue : ∀ code d, t.pc = .insertingVoucher code d → d.status = .active →
    ∀ v : Voucher, v.campaign = d.campaign → v.batch = d.batch → ¬ RevokedParent s v

/-! ## What a step makes of vouchers, campaigns and batches -/

/-- The same voucher, as far as its identity and its parents go. -/
structure SameVoucher (v v' : Voucher) : Prop where
  id : v.id = v'.id
  campaign : v.campaign = v'.campaign
  batch : v.batch = v'.batch

variable {v v' : Voucher} {p : Voucher → Bool}

theorem SameVoucher.revoked {s : VoucherDb} (h : SameVoucher v v') :
    RevokedParent s v ↔ RevokedParent s v' := by
  unfold RevokedParent
  rw [h.campaign, h.batch]

/-- Where a voucher of the tables after a step comes from. -/
inductive VoucherFrom (s : VoucherDb) (t : VoucherThread) (s₁ : VoucherDb) (v' : Voucher) : Prop
  | kept {v : Voucher} : v ∈ s.vouchers → SameVoucher v v' →
      (v'.status = .active → v.status = .active
        ∨ (t.call.extended? = some v.id ∧ v.status = .expired)) → VoucherFrom s t s₁ v'
  | issued {code : String} {d : VoucherData} : t.pc = .insertingVoucher code d →
      v'.status = d.status → v'.campaign = d.campaign → v'.batch = d.batch →
      s.hasParents v' = true → (∀ v ∈ s.vouchers, v.id ≠ v'.id) → VoucherFrom s t s₁ v'
  | drawn {d : Draw} {batch : Uuid} : t.pc = .drawing d → v'.campaign = d.campaign.map (·.id) →
      v'.batch = some batch → (∀ b ∈ s.batches, b.id ≠ batch) → (∃ b ∈ s₁.batches, b.id = batch) →
      (∀ v ∈ s.vouchers, v.id ≠ v'.id) → VoucherFrom s t s₁ v'

section Origins

variable {s s₁ : VoucherDb} {t : VoucherThread}

theorem sameVoucher_refl (v : Voucher) : SameVoucher v v := ⟨rfl, rfl, rfl⟩

/-- A voucher that stays as it is. -/
theorem VoucherFrom.same (hv : v ∈ s.vouchers) : VoucherFrom s t s₁ v :=
  .kept hv (sameVoucher_refl v) .inl

/-- A voucher of a table that was rewritten in status and expiry. -/
theorem VoucherFrom.rewrite {f : Voucher → Voucher} (hv' : v' ∈ s.vouchers.rows.map (rewrite p f))
    (hsame : ∀ v, SameVoucher v (f v))
    (hstatus : ∀ v ∈ s.vouchers, p v → (f v).status = .active → v.status = .active
      ∨ (t.call.extended? = some v.id ∧ v.status = .expired)) : VoucherFrom s t s₁ v' := by
  obtain ⟨v, hv, rfl⟩ := List.mem_map.1 hv'
  by_cases hp : p v
  · rw [rewrite_pos f hp]
    exact .kept hv (hsame v) (hstatus v hv hp)
  · rw [rewrite_neg f hp]
    exact .same hv

theorem VoucherFrom.revoked {now : Time} (hv' : v' ∈ (s.applyVoucherRevokes p now).vouchers) :
    VoucherFrom s t s₁ v' :=
  .rewrite hv' (fun _ => ⟨rfl, rfl, rfl⟩) fun _ _ _ h => by cases h

theorem voucher_from (hm : VoucherMove s t s₁) (hv' : v' ∈ s₁.vouchers) :
    VoucherFrom s t s₁ v' := by
  cases hm with
  | stays => exact .same hv'
  | posts _ => exact .same hv'
  | @grants r source _ _ _ _ _ _ _ hg =>
    obtain ⟨_, _, _, _, _, _, _, rfl⟩ := grant_ok hg
    cases source with
    | campaign _ => exact .same hv'
    | voucher _ => exact .rewrite hv' (fun _ => ⟨rfl, rfl, rfl⟩) fun _ _ _ h => by cases h
  | opens _ _ _ => exact .same hv'
  | issues hpc _ hstatus hcampaign hbatch hi =>
    obtain ⟨hparents, vouchers, hinsert, rfl⟩ := insertVoucher_ok hi
    rcases (Table.mem_insert hinsert).1 hv' with hv | rfl
    · exact .same hv
    · exact .issued hpc hstatus hcampaign hbatch hparents
        fun v hv hid => Table.apart_of_insert hinsert hv (.inl hid)
  | saves _ hs =>
    unfold VoucherDb.saveCampaign at hs
    obtain ⟨_, _, rfl⟩ := Option.map_eq_some_iff.1 hs
    exact .same hv'
  | @draws d batch ids now _ hpc _ hb =>
    obtain ⟨batches, vouchers, hbatches, rfl, hrows⟩ := createBatch_ok hb
    have hapart := vouchers.apart
    rw [hrows, List.pairwise_append] at hapart
    have hv' : v' ∈ vouchers.rows := hv'
    rw [hrows, List.mem_append] at hv'
    rcases hv' with hv | hv
    · exact .same hv
    · refine .drawn hpc ?_ ?_ (fun b hb => Table.apart_of_insert hbatches hb)
        ⟨_, (Table.mem_insert hbatches).2 (.inr rfl), rfl⟩
        fun v hx hid => hapart.2.2 v hx v' hv (.inl hid)
      · obtain ⟨⟨code, i⟩, _, rfl⟩ := List.mem_map.1 hv
        rfl
      · obtain ⟨⟨code, i⟩, _, rfl⟩ := List.mem_map.1 hv
        rfl
  | restates _ _ _ _ => exact .same hv'
  | @prolongs v expiresAt now hcall hv _ _ _ =>
    refine .rewrite hv' (fun _ => ⟨rfl, rfl, rfl⟩) ?_
    intro x hx hp hactive
    obtain rfl := Table.eq_of_clash hx hv (.inl (of_decide_eq_true hp))
    by_cases hexpired : x.status = .expired
    · exact .inr ⟨hcall, hexpired⟩
    · dsimp only at hactive
      rw [if_neg hexpired] at hactive
      exact .inl hactive
  | revokes _ => exact .revoked hv'
  | revokesCampaign _ _ _ => exact .revoked hv'
  | revokesBatch _ => exact .revoked hv'

/-- After the cascade no voucher it is about is active. -/
theorem not_active_of_revokes {now : Time} (hv' : v' ∈ (s.applyVoucherRevokes p now).vouchers)
    (hp : ∀ v, SameVoucher v v' → p v = true) :
    v'.status ≠ .active := by
  obtain ⟨v, hv, rfl⟩ := List.mem_map.1 hv'
  unfold Lib.rewrite at hp ⊢
  split
  · intro h
    cases h
  · rename_i hnot
    rw [if_neg hnot] at hp
    intro hactive
    apply hnot
    show (p v && v.status.isRevocable) = true
    rw [hp v (sameVoucher_refl v), hactive]
    rfl

/-- Where a campaign that is revoked after a step comes from. -/
inductive CampaignFrom (s : VoucherDb) (t : VoucherThread) (s₁ : VoucherDb) (k' : VoucherCampaign) :
    Prop
  | old {k : VoucherCampaign} : k ∈ s.campaigns → k.id = k'.id → k.status = .revoked →
      CampaignFrom s t s₁ k'
  | opened : (∀ k ∈ s.campaigns, k.id ≠ k'.id) → CampaignFrom s t s₁ k'
  | saved {locked row : VoucherCampaign} : t.pc = .saving locked row → row.id = k'.id →
      row.status = .revoked → s₁.vouchers = s.vouchers → CampaignFrom s t s₁ k'
  | cascaded : (∀ v ∈ s₁.vouchers, v.campaign = some k'.id → v.status ≠ .active) →
      CampaignFrom s t s₁ k'

theorem campaign_from {k' : VoucherCampaign} (hm : VoucherMove s t s₁) (hk' : k' ∈ s₁.campaigns)
    (hrevoked : k'.status = .revoked) : CampaignFrom s t s₁ k' := by
  cases hm with
  | stays => exact .old hk' rfl hrevoked
  | posts _ => exact .old hk' rfl hrevoked
  | @grants r source _ _ _ _ _ _ _ hg =>
    obtain ⟨_, _, _, _, _, _, _, rfl⟩ := grant_ok hg
    cases source <;> exact .old hk' rfl hrevoked
  | opens _ _ hi =>
    rcases (Table.mem_insert hi).1 hk' with hk | rfl
    · exact .old hk rfl hrevoked
    · exact .opened fun k hk hid => Table.apart_of_insert hi hk (.inl hid)
  | issues _ _ _ _ _ hi =>
    obtain ⟨_, _, _, rfl⟩ := insertVoucher_ok hi
    exact .old hk' rfl hrevoked
  | @saves locked row now _ hpc hs =>
    unfold VoucherDb.saveCampaign at hs
    obtain ⟨campaigns, hu, rfl⟩ := Option.map_eq_some_iff.1 hs
    obtain ⟨k, hk, hkk⟩ := (Table.mem_update? hu).1 hk'
    by_cases hid : k.id = row.id
    · rw [rewrite_pos _ (by simpa using hid)] at hkk
      subst hkk
      exact .saved hpc rfl hrevoked rfl
    · rw [rewrite_neg _ (by simpa using hid)] at hkk
      exact .old hk (by rw [hkk]) (hkk ▸ hrevoked)
  | draws _ _ hb =>
    obtain ⟨_, _, _, rfl, _⟩ := createBatch_ok hb
    exact .old hk' rfl hrevoked
  | @restates k status _ _ hk _ hstatus _ =>
    obtain ⟨x, hx, rfl⟩ := List.mem_map.1 hk'
    by_cases hid : x.id = k.id
    · rw [rewrite_pos _ (by simpa using hid)] at hrevoked
      exact absurd hrevoked hstatus
    · rw [rewrite_neg _ (by simpa using hid)] at hrevoked ⊢
      exact .old hx rfl hrevoked
  | prolongs _ _ _ _ _ => exact .old hk' rfl hrevoked
  | revokes _ => exact .old hk' rfl hrevoked
  | @revokesCampaign k _ _ hk _ _ =>
    obtain ⟨x, hx, rfl⟩ := List.mem_map.1 hk'
    by_cases hid : x.id = k.id
    · rw [rewrite_pos _ (by simpa using hid)]
      refine .cascaded ?_
      intro v' hv' hlink
      refine not_active_of_revokes hv' ?_
      intro v hsame
      rw [hsame.campaign, hlink, decide_eq_true_eq, hid]
    · rw [rewrite_neg _ (by simpa using hid)] at hrevoked ⊢
      exact .old hx rfl hrevoked
  | revokesBatch _ => exact .old hk' rfl hrevoked

/-- Where a batch that is revoked after a step comes from. -/
theorem batch_from {b' : VoucherBatch} (hm : VoucherMove s t s₁) (hb' : b' ∈ s₁.batches)
    (hrevoked : b'.status = .revoked) :
    (∃ b ∈ s.batches, b.id = b'.id ∧ b.status = .revoked)
      ∨ ∀ v ∈ s₁.vouchers, v.batch = some b'.id → v.status ≠ .active := by
  cases hm with
  | @grants r source _ _ _ _ _ _ _ hg =>
    obtain ⟨_, _, _, _, _, _, _, rfl⟩ := grant_ok hg
    cases source <;> exact .inl ⟨b', hb', rfl, hrevoked⟩
  | issues _ _ _ _ _ hi =>
    obtain ⟨_, _, _, rfl⟩ := insertVoucher_ok hi
    exact .inl ⟨b', hb', rfl, hrevoked⟩
  | saves _ hs =>
    unfold VoucherDb.saveCampaign at hs
    obtain ⟨_, _, rfl⟩ := Option.map_eq_some_iff.1 hs
    exact .inl ⟨b', hb', rfl, hrevoked⟩
  | @draws d batch ids now _ _ _ hb =>
    obtain ⟨batches, _, hi, rfl, _⟩ := createBatch_ok hb
    rcases (Table.mem_insert hi).1 hb' with hb | rfl
    · exact .inl ⟨b', hb, rfl, hrevoked⟩
    · exact absurd hrevoked (row_status d batch now)
  | @revokesBatch id _ _ =>
    obtain ⟨x, hx, rfl⟩ := List.mem_map.1 hb'
    by_cases hid : x.id = id
    · rw [rewrite_pos _ (by simpa using hid)]
      right
      intro v' hv' hlink
      refine not_active_of_revokes hv' ?_
      intro v hsame
      rw [hsame.batch, hlink, decide_eq_true_eq, hid]
    · rw [rewrite_neg _ (by simpa using hid)] at hrevoked ⊢
      exact .inl ⟨x, hx, rfl, hrevoked⟩
  | _ => exact .inl ⟨b', hb', rfl, hrevoked⟩

/-- A campaign stays, and stays revoked. -/
theorem campaign_stays {k : VoucherCampaign} (howns : Owns s t) (hm : VoucherMove s t s₁)
    (hk : k ∈ s.campaigns) :
    ∃ k' ∈ s₁.campaigns, k'.id = k.id ∧ (k.status = .revoked → k'.status = .revoked) := by
  cases hm with
  | @grants r source _ _ _ _ _ _ _ hg =>
    obtain ⟨_, _, _, _, _, _, _, rfl⟩ := grant_ok hg
    cases source <;> exact ⟨k, hk, rfl, id⟩
  | opens _ _ hi => exact ⟨k, (Table.mem_insert hi).2 (.inl hk), rfl, id⟩
  | issues _ _ _ _ _ hi =>
    obtain ⟨_, _, _, rfl⟩ := insertVoucher_ok hi
    exact ⟨k, hk, rfl, id⟩
  | @saves locked row now _ hpc hs =>
    unfold VoucherDb.saveCampaign at hs
    obtain ⟨campaigns, hu, rfl⟩ := Option.map_eq_some_iff.1 hs
    unfold Owns at howns
    rw [hpc] at howns
    refine ⟨_, (Table.mem_update? hu).2 ⟨k, hk, rfl⟩, ?_⟩
    by_cases hid : k.id = row.id
    · rw [rewrite_pos _ (by simpa using hid)]
      refine ⟨hid.symm, ?_⟩
      intro hrevoked
      rw [Table.eq_of_clash hk howns.1.mem (.inl (hid.trans howns.2.2))] at hrevoked
      exact absurd hrevoked howns.2.1
    · rw [rewrite_neg _ (by simpa using hid)]
      exact ⟨rfl, id⟩
  | draws _ _ hb =>
    obtain ⟨_, _, _, rfl, _⟩ := createBatch_ok hb
    exact ⟨k, hk, rfl, id⟩
  | @restates k₀ status _ _ hk₀ hstatus _ _ =>
    refine ⟨_, List.mem_map.2 ⟨k, hk, rfl⟩, ?_⟩
    by_cases hid : k.id = k₀.id
    · obtain rfl := Table.eq_of_clash hk hk₀ (.inl hid)
      rw [rewrite_pos _ (by simp)]
      exact ⟨rfl, fun hrevoked => absurd hrevoked hstatus⟩
    · rw [rewrite_neg _ (by simpa using hid)]
      exact ⟨rfl, id⟩
  | revokesCampaign _ _ _ =>
    refine ⟨_, List.mem_map.2 ⟨k, hk, rfl⟩, ?_⟩
    unfold Lib.rewrite
    split
    · exact ⟨rfl, fun _ => rfl⟩
    · exact ⟨rfl, id⟩
  | _ => exact ⟨k, hk, rfl, id⟩

/-- A batch stays, and stays revoked. -/
theorem batch_stays {b : VoucherBatch} (hm : VoucherMove s t s₁) (hb : b ∈ s.batches) :
    ∃ b' ∈ s₁.batches, b'.id = b.id ∧ (b.status = .revoked → b'.status = .revoked) := by
  cases hm with
  | @grants r source _ _ _ _ _ _ _ hg =>
    obtain ⟨_, _, _, _, _, _, _, rfl⟩ := grant_ok hg
    cases source <;> exact ⟨b, hb, rfl, id⟩
  | issues _ _ _ _ _ hi =>
    obtain ⟨_, _, _, rfl⟩ := insertVoucher_ok hi
    exact ⟨b, hb, rfl, id⟩
  | saves _ hs =>
    unfold VoucherDb.saveCampaign at hs
    obtain ⟨_, _, rfl⟩ := Option.map_eq_some_iff.1 hs
    exact ⟨b, hb, rfl, id⟩
  | draws _ _ hd =>
    obtain ⟨_, _, hi, rfl, _⟩ := createBatch_ok hd
    exact ⟨b, (Table.mem_insert hi).2 (.inl hb), rfl, id⟩
  | revokesBatch _ =>
    refine ⟨_, List.mem_map.2 ⟨b, hb, rfl⟩, ?_⟩
    unfold Lib.rewrite
    split
    · exact ⟨rfl, fun _ => rfl⟩
    · exact ⟨rfl, id⟩
  | _ => exact ⟨b, hb, rfl, id⟩

end Origins

/-! ## The invariant -/

structure RevocationInv (s : VoucherDb) : Prop where
  /-- No active voucher has a revoked parent. -/
  closed : ∀ v ∈ s.vouchers, v.status = .active → ¬ RevokedParent s v
  campaigns : ∀ v ∈ s.vouchers, ∀ id, v.campaign = some id → ∃ k ∈ s.campaigns, k.id = id
  batches : ∀ v ∈ s.vouchers, ∀ id, v.batch = some id → ∃ b ∈ s.batches, b.id = id
  known : ∀ r ∈ s.redemptions, ∀ id, r.source = .voucher id → ∃ v ∈ s.vouchers, v.id = id

section Preserved

variable {s s₁ : VoucherDb} {t : VoucherThread}

theorem hasParents_campaign {id : Uuid} (h : s.hasParents v = true) (hv : v.campaign = some id) :
    ∃ k ∈ s.campaigns, k.id = id := by
  unfold VoucherDb.hasParents at h
  rw [Bool.and_eq_true, hv] at h
  obtain ⟨k, hk, hid⟩ := List.any_eq_true.1 h.1
  exact ⟨k, hk, of_decide_eq_true hid⟩

theorem hasParents_batch {id : Uuid} (h : s.hasParents v = true) (hv : v.batch = some id) :
    ∃ b ∈ s.batches, b.id = id := by
  unfold VoucherDb.hasParents at h
  rw [Bool.and_eq_true, hv] at h
  obtain ⟨b, hb, hid⟩ := List.any_eq_true.1 h.2
  exact ⟨b, hb, of_decide_eq_true hid⟩

/-- The parents a voucher has after a step were there before, or its batch is made with it. -/
theorem campaign_known {id : Uuid} (h : RevocationInv s) (howns : Owns s t)
    (hfrom : VoucherFrom s t s₁ v') (hv' : v'.campaign = some id) :
    ∃ k ∈ s.campaigns, k.id = id := by
  cases hfrom with
  | kept hv hsame _ => exact h.campaigns _ hv id (hsame.campaign.trans hv')
  | issued _ _ _ _ hparents _ => exact hasParents_campaign hparents hv'
  | drawn hpc hcampaign _ _ _ _ =>
    obtain ⟨k, hk, rfl⟩ := Option.map_eq_some_iff.1 (hcampaign.symm.trans hv')
    unfold Owns at howns
    rw [hpc] at howns
    exact ⟨k, (howns k hk).1.mem, rfl⟩

/-- No voucher that is active after a step had a parent that was revoked before it. -/
theorem closed_before (h : RevocationInv s) (howns : Owns s t) (hok : KeepsRevoked s t)
    (hfrom : VoucherFrom s t s₁ v') (hactive : v'.status = .active) :
    ¬ RevokedParent s v' := by
  cases hfrom with
  | kept hv hsame hstatus =>
    rw [← hsame.revoked]
    rcases hstatus hactive with hold | ⟨hcall, hexpired⟩
    · exact h.closed _ hv hold
    · exact hok.extend _ hv hcall hexpired
  | issued hpc hstatus hcampaign hbatch _ _ =>
    exact hok.issue _ _ hpc (hstatus.symm.trans hactive) v' hcampaign hbatch
  | drawn hpc hcampaign hbatch hnew _ _ =>
    rintro (⟨k, hk, hlink, hrevoked⟩ | ⟨b, hb, hlink, _⟩)
    · obtain ⟨k', hk', hid⟩ := Option.map_eq_some_iff.1 (hcampaign.symm.trans hlink)
      unfold Owns at howns
      rw [hpc] at howns
      obtain ⟨hholds, hstatus⟩ := howns k' hk'
      rw [Table.eq_of_clash hk hholds.mem (.inl hid.symm)] at hrevoked
      exact hstatus hrevoked
    · exact hnew b hb (Option.some.inj (hlink.symm.trans hbatch))

/-- The redemptions of before, and one that is granted of an active voucher. -/
theorem redemption_from {r : VoucherRedemption} (howns : Owns s t) (hm : VoucherMove s t s₁)
    (hr : r ∈ s₁.redemptions) : r ∈ s.redemptions ∨ ∀ id, r.source = .voucher id →
      ∃ v ∈ s.vouchers, v.id = id ∧ v.status = .active := by
  by_cases hold : r ∈ s.redemptions
  · exact .inl hold
  · right
    obtain ⟨req, source, amount, instant, rid, result, _, hpc, _, rfl⟩ := granted_of_new hm hr hold
    rintro id rfl
    unfold Owns at howns
    rw [hpc] at howns
    exact howns.2

/-- A voucher stays. -/
theorem voucher_stays (hm : VoucherMove s t s₁) (hv : v ∈ s.vouchers) :
    ∃ v' ∈ s₁.vouchers, v'.id = v.id := by
  have hrewrite : ∀ (p : Voucher → Bool) (f : Voucher → Voucher), (∀ x, (f x).id = x.id) →
      ∃ v' ∈ s.vouchers.rows.map (rewrite p f), v'.id = v.id := by
    intro p f hid
    refine ⟨_, List.mem_map_of_mem hv, ?_⟩
    unfold Lib.rewrite
    split
    · exact hid v
    · rfl
  cases hm with
  | @grants r source _ _ _ _ _ _ _ hg =>
    obtain ⟨_, _, _, _, _, _, _, rfl⟩ := grant_ok hg
    exact exists_markRedeemed hv
  | issues _ _ _ _ _ hi =>
    obtain ⟨_, _, hinsert, rfl⟩ := insertVoucher_ok hi
    exact ⟨v, (Table.mem_insert hinsert).2 (.inl hv), rfl⟩
  | saves _ hs =>
    unfold VoucherDb.saveCampaign at hs
    obtain ⟨_, _, rfl⟩ := Option.map_eq_some_iff.1 hs
    exact ⟨v, hv, rfl⟩
  | draws _ _ hb =>
    obtain ⟨_, vouchers, _, rfl, hrows⟩ := createBatch_ok hb
    refine ⟨v, ?_, rfl⟩
    show v ∈ vouchers.rows
    rw [hrows]
    exact List.mem_append.2 (.inl hv)
  | prolongs _ _ _ _ _ => exact hrewrite _ _ fun _ => rfl
  | revokes _ => exact hrewrite _ _ fun _ => rfl
  | revokesCampaign _ _ _ => exact hrewrite _ _ fun _ => rfl
  | revokesBatch _ => exact hrewrite _ _ fun _ => rfl
  | _ => exact ⟨v, hv, rfl⟩

theorem revocationInv_move (h : RevocationInv s) (howns : Owns s t) (hok : KeepsRevoked s t)
    (hm : VoucherMove s t s₁) : RevocationInv s₁ := by
  refine ⟨?_, ?_, ?_, ?_⟩
  · intro v' hv' hactive
    have hfrom := voucher_from hm hv'
    have hbefore := closed_before h howns hok hfrom hactive
    rintro (⟨k', hk', hlink, hrevoked⟩ | ⟨b', hb', hlink, hrevoked⟩)
    · cases campaign_from hm hk' hrevoked with
      | old hk hid hstatus => exact hbefore (.inl ⟨_, hk, by rw [hlink, hid], hstatus⟩)
      | opened hnew =>
        obtain ⟨k, hk, hid⟩ := campaign_known h howns hfrom hlink
        exact hnew k hk hid
      | saved hpc hid hstatus hsame =>
        rw [hsame] at hv'
        exact hok.save _ _ hpc hstatus v' hv' (by rw [hlink, hid]) hactive
      | cascaded hall => exact hall v' hv' hlink hactive
    · rcases batch_from hm hb' hrevoked with ⟨b, hb, hid, hstatus⟩ | hall
      · exact hbefore (.inr ⟨b, hb, by rw [hlink, hid], hstatus⟩)
      · exact hall v' hv' hlink hactive
  · intro v' hv' id hlink
    obtain ⟨k, hk, rfl⟩ := campaign_known h howns (voucher_from hm hv') hlink
    obtain ⟨k', hk', hid, _⟩ := campaign_stays howns hm hk
    exact ⟨k', hk', hid⟩
  · intro v' hv' id hlink
    have hstays : ∀ {i}, (∃ b ∈ s.batches, b.id = i) → ∃ b ∈ s₁.batches, b.id = i := by
      rintro i ⟨b, hb, rfl⟩
      obtain ⟨b', hb', hid, _⟩ := batch_stays hm hb
      exact ⟨b', hb', hid⟩
    cases voucher_from hm hv' with
    | kept hv hsame _ => exact hstays (h.batches _ hv id (hsame.batch.trans hlink))
    | issued _ _ _ _ hparents _ => exact hstays (hasParents_batch hparents hlink)
    | drawn _ _ hbatch _ hmade _ =>
      obtain rfl := Option.some.inj (hlink.symm.trans hbatch)
      exact hmade
  · intro r hr id hsource
    have hv : ∃ v ∈ s.vouchers, v.id = id := by
      rcases redemption_from howns hm hr with hold | hnew
      · exact h.known r hold id hsource
      · obtain ⟨v, hv, hid, _⟩ := hnew id hsource
        exact ⟨v, hv, hid⟩
    obtain ⟨v, hv, rfl⟩ := hv
    exact voucher_stays hm hv

end Preserved

/-! ## Every run -/

/-- Nothing is revoked yet, and every row that is referred to is there. -/
structure Unrevoked (s : VoucherDb) : Prop where
  campaignStatus : ∀ k ∈ s.campaigns, k.status ≠ .revoked
  batchStatus : ∀ b ∈ s.batches, b.status ≠ .revoked
  campaigns : ∀ v ∈ s.vouchers, ∀ id, v.campaign = some id → ∃ k ∈ s.campaigns, k.id = id
  batches : ∀ v ∈ s.vouchers, ∀ id, v.batch = some id → ∃ b ∈ s.batches, b.id = id
  known : ∀ r ∈ s.redemptions, ∀ id, r.source = .voucher id → ∃ v ∈ s.vouchers, v.id = id

theorem revocationInv_init {s : VoucherDb} (h : Unrevoked s) : RevocationInv s := by
  refine ⟨?_, h.campaigns, h.batches, h.known⟩
  rintro v _ _ (⟨k, hk, _, hrevoked⟩ | ⟨b, hb, _, hrevoked⟩)
  · exact h.campaignStatus k hk hrevoked
  · exact h.batchStatus b hb hrevoked

theorem revocationInvariant (c : VoucherConfig) :
    Invariant (voucherProgram c) Unrevoked
      (fun s t _ => KeepsRevoked s t) RevocationInv Owns Apart :=
  voucherInvariant (fun _ => revocationInv_init)
    (fun _ _ h => ⟨h.closed, h.campaigns, h.batches, h.known⟩)
    fun _ _ _ _ hG hL hok hm => revocationInv_move hG hL hok hm

/-- What holds since a state: its revoked parents are, and their vouchers are not redeemed anew. -/
structure Since (s₀ s : VoucherDb) : Prop where
  parents : ∀ v, RevokedParent s₀ v → RevokedParent s v
  redemptions : ∀ v ∈ s.vouchers, RevokedParent s₀ v → ∀ r ∈ s.redemptions,
    r.source = .voucher v.id → r ∈ s₀.redemptions

section Runs

variable {c : VoucherConfig} {s₀ s s₁ : VoucherDb} {t : VoucherThread}
  {g g' : Config VoucherDb VoucherThread}

theorem since_move (h : Since s₀ s) (hG : RevocationInv s) (howns : Owns s t)
    (hm : VoucherMove s t s₁) : Since s₀ s₁ := by
  refine ⟨?_, ?_⟩
  · intro v hv
    rcases h.parents v hv with ⟨k, hk, hlink, hrevoked⟩ | ⟨b, hb, hlink, hrevoked⟩
    · obtain ⟨k', hk', hid, hstays⟩ := campaign_stays howns hm hk
      exact .inl ⟨k', hk', by rw [hlink, hid], hstays hrevoked⟩
    · obtain ⟨b', hb', hid, hstays⟩ := batch_stays hm hb
      exact .inr ⟨b', hb', by rw [hlink, hid], hstays hrevoked⟩
  · intro v' hv' hparent r hr hsource
    have hkept : ∀ v ∈ s.vouchers, SameVoucher v v' → r ∈ s₀.redemptions := by
      intro v hv hsame
      have hbefore := hsame.revoked.2 hparent
      rcases redemption_from howns hm hr with hold | hnew
      · exact h.redemptions v hv hbefore r hold (by rw [hsource, hsame.id])
      · obtain ⟨x, hx, hid, hactive⟩ := hnew v'.id hsource
        obtain rfl := Table.eq_of_clash hx hv (.inl (hid.trans hsame.id.symm))
        exact absurd (h.parents x hbefore) (hG.closed x hx hactive)
    have hnone : (∀ v ∈ s.vouchers, v.id ≠ v'.id) → r ∈ s₀.redemptions := by
      intro hfresh
      have hv : ∃ v ∈ s.vouchers, v.id = v'.id := by
        rcases redemption_from howns hm hr with hold | hnew
        · exact hG.known r hold v'.id hsource
        · obtain ⟨v, hv, hid, _⟩ := hnew v'.id hsource
          exact ⟨v, hv, hid⟩
      obtain ⟨v, hv, hid⟩ := hv
      exact absurd hid (hfresh v hv)
    cases voucher_from hm hv' with
    | kept hv hsame _ => exact hkept _ hv hsame
    | issued _ _ _ _ _ hfresh => exact hnone hfresh
    | drawn _ _ _ _ _ hfresh => exact hnone hfresh

/--
**Revocation is final.** Once a campaign or a batch is revoked, no voucher linked to
it is redeemed that was not, whatever steps follow that meet the condition.
-/
theorem revocation_final
    (h : (voucherProgram c).ReachWhere Unrevoked (fun s t _ => KeepsRevoked s t) g)
    (hl : (voucherProgram c).LeadsWhere (fun s t _ => KeepsRevoked s t) g g') :
    ∀ v ∈ g'.store.vouchers, RevokedParent g.store v →
      ∀ r ∈ g'.store.redemptions, r.source = .voucher v.id → r ∈ g.store.redemptions := by
  suffices Since g.store g'.store from this.redemptions
  induction hl with
  | refl => exact ⟨fun _ hv => hv, fun _ _ _ _ hr _ => hr⟩
  | @tail g₁ g₂ a hl hok he ih =>
    cases a with
    | call q k =>
      rw [(Program.exec_call he).2.1]
      exact ih
    | tick q x =>
      obtain ⟨t, t', ht, hs, _⟩ := Program.exec_tick he
      have hinv := (revocationInvariant c).reach (h.leads hl)
      obtain ⟨s₁, hm, hs₁⟩ := (voucherStep_stepped hs).move
      have hsince := since_move ih hinv.store (hinv.thread q t ht) hm
      rw [hs₁]
      exact ⟨hsince.parents, hsince.redemptions⟩

end Runs

/-! ## A campaign with a voucher -/

/-- A campaign whose vouchers are unique. -/
def autumn : VoucherCampaign where
  id := ⟨"00000000-0000-4000-8000-0000000000e5", by decide⟩
  code := none
  redemptionMode := .unique
  rewardType := .fixedCredit
  creditAmount := gift.creditAmount
  maxRedemptionsTotal := none
  maxRedemptionsPerAccount := none
  startsAt := none
  expiresAt := none
  status := .active
  updatedAt := 0

/-- The voucher of the campaign. -/
def linked : Voucher := { gift with campaign := some autumn.id }

def oneCampaign : VoucherDb :=
  { oneVoucher with
    campaigns := ⟨[autumn], by decide⟩
    vouchers := ⟨[linked], by decide⟩ }

theorem unrevoked_oneCampaign : Unrevoked oneCampaign := by
  have hone : ∀ v ∈ oneCampaign.vouchers, v = linked := fun v hv => List.mem_singleton.1 hv
  refine ⟨by decide, by decide, ?_, ?_, fun r hr => absurd hr (Table.not_mem_empty r)⟩
  · intro v hv id hid
    rw [hone v hv] at hid
    exact ⟨autumn, List.mem_singleton.2 rfl, Option.some.inj hid⟩
  · intro v hv id hid
    rw [hone v hv] at hid
    cases hid

/-- The campaign is revoked, and its voucher is not redeemed. -/
def isRevoked (g : Config VoucherDb VoucherThread) : Bool :=
  g.store.campaigns.rows.any (fun k => k.id = autumn.id && k.status = .revoked)
    && g.store.redemptions.rows.isEmpty

theorem isRevoked_iff {g : Config VoucherDb VoucherThread} (h : isRevoked g = true) :
    (∃ k ∈ g.store.campaigns, k.id = autumn.id ∧ k.status = .revoked)
    ∧ g.store.redemptions.rows = [] := by
  unfold isRevoked at h
  rw [Bool.and_eq_true, List.any_eq_true, List.isEmpty_iff] at h
  obtain ⟨⟨k, hk, hrevoked⟩, hnone⟩ := h
  simp only [Bool.and_eq_true, decide_eq_true_eq] at hrevoked
  exact ⟨⟨k, hk, hrevoked⟩, hnone⟩

/-- A voucher of the campaign, that is redeemed. -/
def isRedeemed (g : Config VoucherDb VoucherThread) : Bool :=
  g.store.vouchers.rows.any fun v => v.campaign = some autumn.id
    && g.store.redemptions.rows.any fun r => r.source = .voucher v.id

/-- The call asks for the voucher, and is told that it is revoked. -/
def isRefused (g : Config VoucherDb VoucherThread) : Bool :=
  match g.threads 1 with
  | some ⟨_, .raised (.voucherRevoked _)⟩ =>
      g.store.vouchers.rows.any fun v => v.campaign = some autumn.id
  | _ => false

/-- The campaign is revoked as it should be, and then the voucher is asked for. -/
theorem revocation_final_refused :
    ∃ g g', isRevoked g = true ∧ isRefused g' = true ∧ ∀ v ∈ g'.store.vouchers,
      RevokedParent g.store v → ∀ r ∈ g'.store.redemptions, r.source = .voucher v.id →
        r ∈ g.store.redemptions := by
  have hrun : ∃ g g', (voucherProgram voucherConfig).ReachWhere Unrevoked
    (fun s t _ => KeepsRevoked s t) g
      ∧ (voucherProgram voucherConfig).LeadsWhere (fun s t _ => KeepsRevoked s t) g g'
      ∧ (isRevoked g && isRefused g') = true :=
    Program.leadsWhere_check
      (fun _ t _ => match t.pc with
        | .saving _ _ => false
        | .insertingVoucher _ _ => false
        | _ => t.call.extended?.isNone)
      (by
        intro s t _ h
        refine ⟨?_, ?_, ?_⟩
        · intro locked row hpc
          rw [hpc] at h
          cases h
        · intro v _ hcall
          split at h
          · cases h
          · cases h
          · rw [hcall] at h
            cases h
        · intro code d hpc
          rw [hpc] at h
          cases h)
      unrevoked_oneCampaign
      [.call 0 (.revokeCampaign autumn.id "fraud" (some 0)), .tick 0 (voucherView bob)]
      [.call 1 (giftRequest alice), .tick 1 (voucherView alice), .tick 1 (voucherView alice)]
      (fun g g' => isRevoked g && isRefused g') (by decide)
  obtain ⟨g, g', hg, hl, hend⟩ := hrun
  rw [Bool.and_eq_true] at hend
  exact ⟨g, g', hend.1, hend.2, revocation_final hg hl⟩

/--
The form of the campaign saves the status alone. Its voucher is still active, and is
redeemed.
-/
theorem revoked_redeemed :
    ∃ g g', (voucherProgram voucherConfig).Reach Unrevoked g
      ∧ (voucherProgram voucherConfig).LeadsWhere (fun _ _ _ => True) g g'
      ∧ ∃ v ∈ g'.store.vouchers, RevokedParent g.store v
        ∧ ∃ r ∈ g'.store.redemptions, r.source = .voucher v.id ∧ r ∉ g.store.redemptions := by
  have hrun : ∃ g g', (voucherProgram voucherConfig).ReachWhere Unrevoked (fun _ _ _ => True) g
      ∧ (voucherProgram voucherConfig).LeadsWhere (fun _ _ _ => True) g g'
      ∧ (isRevoked g && isRedeemed g') = true :=
    Program.leadsWhere_check (fun _ _ _ => true) (fun _ _ _ _ => trivial) unrevoked_oneCampaign
      [.call 0 (.saveCampaign autumn.id (some 0) [.status .revoked]), .tick 0 (voucherView bob),
        .tick 0 (voucherView bob)]
      [.call 1 (giftRequest alice), .tick 1 (voucherView alice), .tick 1 (voucherView alice),
        .tick 1 (voucherView alice)]
      (fun g g' => isRevoked g && isRedeemed g') (by decide)
  obtain ⟨g, g', hg, hl, hend⟩ := hrun
  rw [Bool.and_eq_true] at hend
  obtain ⟨⟨k, hk, hid, hrevoked⟩, hnone⟩ := isRevoked_iff hend.1
  obtain ⟨v, hv, hredeemed⟩ := List.any_eq_true.1 hend.2
  rw [Bool.and_eq_true, List.any_eq_true] at hredeemed
  obtain ⟨hlink, r, hr, hsource⟩ := hredeemed
  refine ⟨g, g', hg, hl, v, hv, .inl ⟨k, hk, ?_, hrevoked⟩, r, hr, of_decide_eq_true hsource, ?_⟩
  · rw [of_decide_eq_true hlink, hid]
  · rw [Table.mem_def, hnone]
    exact List.not_mem_nil

end Roamkit.Vouchers.Proof
