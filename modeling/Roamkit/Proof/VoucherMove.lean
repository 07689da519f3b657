import Roamkit.Vouchers.Program
import Roamkit.Proof.Credit

/-!
# What a step of a voucher call can do

`VoucherMove` lists everything a step can do to the tables, and `Stepped` what it
does to the locks and to the row the call holds. A call that holds a row finds it
as it read it (`Owns`): no other call writes it, and no other call redeems from it.
-/

namespace Roamkit.Vouchers.Proof

open Lib Billing Vouchers

/-! ## The moves -/

/-- Everything a step can do to the tables. -/
inductive VoucherMove (s : VoucherDb) (t : VoucherThread) : VoucherDb → Prop
  | stays : VoucherMove s t s
  | posts {p : OtherPosting} {b : Books} {e : CreditLedgerEntry} :
      s.books.apply p.posting = .ok (b, e) → VoucherMove s t { s with books := b }
  | grants {r : RedeemRequest} {source : RedemptionSource} {amount : Amount} {instant : Time}
      {id : Uuid} {s' : VoucherDb} {result : RedeemResult} :
      t.call = .redeem r → t.pc = .granting source amount instant →
      s.grant r source amount instant id = .ok (s', result) → VoucherMove s t s'
  | opens {code : Option String} {d : CampaignData} {row : VoucherCampaign}
      {campaigns : Table VoucherCampaign} :
      t.pc = .inserting code d → row.code = code → s.campaigns.insert? row = some campaigns →
      VoucherMove s t { s with campaigns }
  | issues {code : String} {d : VoucherData} {v : Voucher} {s' : VoucherDb} :
      t.pc = .insertingVoucher code d → v.code = code → v.status = d.status →
      v.campaign = d.campaign → v.batch = d.batch → s.insertVoucher v = .ok s' → VoucherMove s t s'
  | saves {locked row : VoucherCampaign} {now : Time} {s' : VoucherDb} :
      t.pc = .saving locked row → s.saveCampaign row now = some s' → VoucherMove s t s'
  | draws {d : Draw} {batch : Uuid} {ids : Nat → Uuid} {now : Time} {s' : VoucherDb} :
      t.pc = .drawing d → ¬ d.codes.length < d.size → s.createBatch d batch ids now = .ok s' →
      VoucherMove s t s'
  /-- A campaign is activated, or its expiry is extended. -/
  | restates {k : VoucherCampaign} {status : CampaignStatus} {expiresAt : Option Time}
      {now : Time} :
      k ∈ s.campaigns → k.status ≠ .revoked → status ≠ .revoked → .campaign k.id ∉ s.locks →
      VoucherMove s t (s.saveCampaignStatus k.id status expiresAt now)
  | prolongs {v : Voucher} {expiresAt : Option Time} {now : Time} :
      t.call.extended? = some v.id → v ∈ s.vouchers → v.status ≠ .redeemed → v.status ≠ .revoked →
      .voucher v.id ∉ s.locks →
      VoucherMove s t (s.saveVoucherStatus v.id
        (if v.status = .expired then .active else v.status) expiresAt now)
  | revokes {p : Voucher → Bool} {now : Time} :
      s.areFree p = true → VoucherMove s t (s.applyVoucherRevokes p now)
  | revokesCampaign {k : VoucherCampaign} {expiresAt : Option Time} {now : Time} :
      k ∈ s.campaigns → .campaign k.id ∉ s.locks →
      s.areFree (fun v => v.campaign = some k.id) = true →
      VoucherMove s t
        ((s.applyVoucherRevokes (fun v => v.campaign = some k.id) now).saveCampaignStatus
        k.id .revoked expiresAt now)
  | revokesBatch {id : Uuid} {now : Time} :
      s.areFree (fun v => v.batch = some id) = true →
      VoucherMove s t ((s.applyVoucherRevokes (fun v => v.batch = some id) now).saveBatchStatus
        id .revoked now)

/-! ## The row a call holds -/

/-- The caps of a campaign leave room for one more redemption. -/
structure HasRoom (s : VoucherDb) (account : Uuid) (k : VoucherCampaign) : Prop where
  total : ∀ n, k.maxRedemptionsTotal = some n → (s.redemptionsOf (.campaign k.id)).length < n
  perAccount : ∀ n, k.maxRedemptionsPerAccount = some n →
    (s.redemptionsBy (.campaign k.id) account).length < n

/-- A campaign that a call holds, and has not found revoked. -/
structure Holds (s : VoucherDb) (k : VoucherCampaign) : Prop where
  locked : .campaign k.id ∈ s.locks
  mem : k ∈ s.campaigns

/-- A call that holds a row finds it as it read it. -/
def Owns (s : VoucherDb) (t : VoucherThread) : Prop :=
  match t.pc with
  | .holding v => .voucher v.id ∈ s.locks ∧ v ∈ s.vouchers
  | .holdingShared k => Holds s k
  | .granting (.voucher id) _ _ =>
    .voucher id ∈ s.locks ∧ ∃ v ∈ s.vouchers, v.id = id ∧ v.status = .active
  | .granting (.campaign id) _ _ =>
    ∃ k, k.id = id ∧ Holds s k ∧ ∀ r, t.call = .redeem r → HasRoom s r.account k
  | .saving locked row => Holds s locked ∧ locked.status ≠ .revoked ∧ row.id = locked.id
  | .drawing d => ∀ k, d.campaign = some k → Holds s k ∧ k.status ≠ .revoked
  | _ => True

/-- What a step does. -/
structure Stepped (s : VoucherDb) (t : VoucherThread) (s' : VoucherDb) (t' : VoucherThread) :
    Prop where
  move : ∃ s₁, VoucherMove s t s₁ ∧ s' = { s₁ with locks := s'.locks }
  /-- The locks of other calls stay. -/
  locks : ∀ row ∈ s.locks, t.pc.held ≠ some row → row ∈ s'.locks
  /-- A row that is taken was free. -/
  held : ∀ row, t'.pc.held = some row → t.pc.held = some row ∨ row ∉ s.locks
  owns : Owns s t → Owns s' t'
  /-- Only the step that returns writes. -/
  writes : (∀ a, t'.pc ≠ .returned a) → s' = { s with locks := s'.locks }

variable {a : VoucherAnswer} {k row : VoucherCampaign} {code reason : String} {v : Voucher}
  {r : RedeemRequest} {now : Time} {amount : Amount} {source : RedemptionSource} {id : Uuid}
  {fields : List CampaignField} {expected : Option Time} {impact : RevokeImpact}

section Steps

variable {c : VoucherConfig} {s s' s₁ : VoucherDb} {t t' : VoucherThread}

theorem mem_unlock {row : LockedRow} {held : Option LockedRow} (h : row ∈ s.locks)
    (hne : held ≠ some row) : row ∈ (s.unlock held).locks :=
  List.mem_filter.2 ⟨h, decide_eq_true hne⟩

/-- A step that writes and ends the call. -/
theorem stepped_answer (hm : VoucherMove s t s₁) (hl : s₁.locks = s.locks) :
    Stepped s t (s₁.answer t a).1 (s₁.answer t a).2 where
  move := ⟨s₁, hm, rfl⟩
  locks := fun _ h hne => mem_unlock (hl ▸ h) hne
  held := fun _ h => by cases h
  owns := fun _ => trivial
  writes := fun h => absurd rfl (h a)

theorem stepped_raise {e : Exc} : Stepped s t (s.raise t e).1 (s.raise t e).2 where
  move := ⟨s, .stays, rfl⟩
  locks := fun _ h hne => mem_unlock h hne
  held := fun _ h => by cases h
  owns := fun _ => trivial
  writes := fun _ => rfl

/-- A call all of whose queries are in one step. -/
theorem stepped_settle {r : Except Exc (VoucherDb × VoucherAnswer)}
    (hok : ∀ s₁ a, r = .ok (s₁, a) → VoucherMove s t s₁ ∧ s₁.locks = s.locks)
    (h : s.settle t r = (s', t')) : Stepped s t s' t' := by
  unfold VoucherDb.settle at h
  split at h
  · cases h
    exact stepped_raise
  · rename_i s₁ a
    obtain ⟨hm, hl⟩ := hok s₁ a rfl
    cases h
    exact stepped_answer hm hl

/-- A step that goes on without a write, and takes no row. -/
theorem stepped_goto {pc : VoucherPc} (hheld : pc.held = t.pc.held)
    (howns : Owns s t → Owns s (t.goto pc)) : Stepped s t s (t.goto pc) where
  move := ⟨s, .stays, rfl⟩
  locks := fun _ h _ => h
  held := fun _ h => .inl (hheld ▸ h)
  owns := howns
  writes := fun _ => rfl

/-- A step that takes a row. -/
theorem stepped_lock {pc : VoucherPc} {row : LockedRow} (hfree : s.isFree row = true)
    (hheld : pc.held = some row) (howns : Owns (s.lock row) (t.goto pc)) :
    Stepped s t (s.lock row) (t.goto pc) where
  move := ⟨s, .stays, rfl⟩
  locks := fun _ h _ => List.mem_cons_of_mem _ h
  held := by
    intro row' h
    have hsame : row = row' := Option.some.inj (hheld.symm.trans h)
    subst hsame
    exact .inr (of_decide_eq_true hfree)
  owns := fun _ => howns
  writes := fun _ => rfl

theorem holds_lock (hk : k ∈ s.campaigns) : Holds (s.lock (.campaign k.id)) k :=
  ⟨List.mem_cons_self, hk⟩

theorem mem_findUnique (h : s.findUnique code = some v) :
    v ∈ s.vouchers ∧ v.code = code ∧ v.redemptionMode = .unique := by
  have hp := Table.prop_of_find? h
  simp only [Bool.and_eq_true, decide_eq_true_eq] at hp
  exact ⟨Table.mem_of_find? h, hp⟩

theorem mem_findShared (h : s.findShared code = some k) :
    k ∈ s.campaigns ∧ k.code = some code ∧ k.redemptionMode = .shared := by
  have hp := Table.prop_of_find? h
  simp only [Bool.and_eq_true, decide_eq_true_eq] at hp
  exact ⟨Table.mem_of_find? h, hp⟩

theorem whenFree_some {free : Bool} {r : VoucherDb × VoucherThread}
    (h : whenFree free r = some (s', t')) : free = true ∧ r = (s', t') := by
  unfold whenFree at h
  split at h
  · rename_i hfree
    exact ⟨hfree, Option.some.inj h⟩
  · cases h

/-! ## Redemptions -/

theorem stepped_seekVoucher (hpc : t.pc = .asked) (h : seekVoucher s t code = some (s', t')) :
    Stepped s t s' t' := by
  unfold seekVoucher at h
  split at h
  · cases h
    exact stepped_goto (by rw [hpc]; rfl) fun _ => trivial
  · rename_i v hv
    obtain ⟨hfree, h⟩ := whenFree_some h
    cases h
    exact stepped_lock hfree rfl ⟨List.mem_cons_self, (mem_findUnique hv).1⟩

theorem stepped_seekCampaign (h : seekCampaign s t code = some (s', t')) :
    Stepped s t s' t' := by
  unfold seekCampaign at h
  split at h
  · cases h
    exact stepped_raise
  · rename_i k hk
    obtain ⟨hfree, h⟩ := whenFree_some h
    cases h
    exact stepped_lock hfree rfl (holds_lock (mem_findShared hk).1)

/-- What a unique voucher is granted for. -/
theorem redeemUnique_grants (h : redeemUnique s r v now = .ok (.grants amount)) :
    v.status = .active ∧ v.creditAmount = amount := by
  unfold redeemUnique at h
  split at h
  · split at h
    · rename_i existing _
      cases hr : s.replayOf r existing with
      | error e => rw [hr] at h; cases h
      | ok result => rw [hr] at h; cases h
    · cases h
  · cases h
  · cases h
  · cases h
  · rename_i hactive
    split at h
    · cases h
    unfold creditAmountForReward at h
    split at h
    · cases h
      exact ⟨hactive, rfl⟩
    · cases h

/-- What a campaign is granted for: its caps have room. -/
theorem redeemShared_grants (h : redeemShared s r k now = .ok (.grants amount)) :
    HasRoom s r.account k ∧ k.creditAmount = amount := by
  unfold redeemShared at h
  split at h
  · cases h
  · cases h
  · cases h
  · split at h
    · cases h
    split at h
    · cases h
    obtain ⟨replay, hper, h⟩ := bind_ok h
    split at h
    · cases h
    obtain ⟨_, htotal, h⟩ := bind_ok h
    unfold creditAmountForReward at h
    split at h
    · cases h
      refine ⟨⟨?_, ?_⟩, rfl⟩
      · intro n hn
        unfold checkTotal at htotal
        rw [hn] at htotal
        dsimp only at htotal
        split at htotal
        · cases htotal
        · omega
      · intro n hn
        unfold checkPerAccount at hper
        rw [hn] at hper
        dsimp only at hper
        split at hper
        · split at hper
          · split at hper
            · rename_i prior _ _
              cases hr : s.replayOf r prior with
              | error e => rw [hr] at hper; cases hper
              | ok result => rw [hr] at hper; cases hper
            · cases hper
          · cases hper
        · omega
    · cases h

/-- What a grant does: one more redemption, its posting, and the mark. -/
theorem grant_ok {instant : Time} {result : RedeemResult}
    (h : s.grant r source amount instant id = .ok (s₁, result)) :
    ∃ redemptions p b e,
      s.redemptions.insert? ⟨id, r.account, source, amount, r.rid, instant⟩ = some redemptions
      ∧ preparePosting r.account (.decimal (.finite (Dec.ofUnits 6 amount.micros)))
        (.member .voucher) id.str (redeemKey id) true = .ok p
      ∧ s.books.apply p = .ok (b, e)
      ∧ s₁ = { s with books := b, redemptions }.markRedeemed source instant := by
  unfold VoucherDb.grant at h
  split at h
  · cases h
  split at h
  · cases h
  rename_i redemptions hredemptions
  obtain ⟨p, hp, h⟩ := bind_ok h
  obtain ⟨⟨b, e⟩, hb, h⟩ := bind_ok h
  cases h
  exact ⟨redemptions, p, b, e, hredemptions, hp, hb, rfl⟩

theorem stepped_check {check : RedeemRequest → Except Exc Verdict}
    (hheld : ∀ amount, (VoucherPc.granting source amount now).held = t.pc.held)
    (hgrant : ∀ r amount, t.call = .redeem r → check r = .ok (.grants amount) → Owns s t →
      Owns s (t.goto (.granting source amount now)))
    (h : checkStep s t source now check = some (s', t')) : Stepped s t s' t' := by
  unfold checkStep at h
  split at h
  · rename_i r hr
    obtain h := Option.some.inj h
    unfold decideRedeem at h
    split at h
    · cases h
      exact stepped_raise
    · cases h
      exact stepped_answer .stays rfl
    · rename_i amount hcheck
      cases h
      exact stepped_goto (hheld amount) (hgrant r amount hr hcheck)
  · cases h

/-! ## Campaigns -/

theorem setField_id {field : CampaignField}
    (h : setField c.text s k field = .ok row) : row.id = k.id := by
  cases field with
  | code value =>
    obtain ⟨_, _, h⟩ := bind_ok h
    cases h
    rfl
  | creditAmount value =>
    obtain ⟨_, _, h⟩ := bind_ok h
    cases h
    rfl
  | _ =>
    cases h
    rfl

theorem setFields_id (h : setFields c.text s k fields = .ok row) : row.id = k.id := by
  induction fields generalizing k with
  | nil =>
    cases h
    rfl
  | cons field fields ih =>
    obtain ⟨k', hk', h⟩ := bind_ok h
    exact (ih h).trans (setField_id hk')

/-- What `save_campaign` goes on with. -/
theorem editCampaign_ok (h : editCampaign c.text s k expected fields = .ok row) :
    k.status ≠ .revoked ∧ setFields c.text s k fields = .ok row := by
  obtain ⟨_, _, h⟩ := bind_ok h
  split at h
  · cases h
  rename_i hstatus
  obtain ⟨row', hrow, h⟩ := bind_ok h
  obtain ⟨_, _, h⟩ := bind_ok h
  cases h
  exact ⟨hstatus, hrow⟩

theorem stepped_beginSave (hfree : s.isFree (.campaign id) = true)
    (h : beginSave c s t id expected fields = (s', t')) :
    Stepped s t s' t' := by
  unfold beginSave at h
  split at h
  · cases h
    exact stepped_raise
  · rename_i locked hlocked
    split at h
    · cases h
      exact stepped_raise
    · rename_i row hrow
      cases h
      obtain ⟨hstatus, hset⟩ := editCampaign_ok hrow
      have hid : locked.id = id := by simpa using Table.prop_of_find? hlocked
      exact stepped_lock (hid ▸ hfree) rfl
        ⟨holds_lock (Table.mem_of_find? hlocked), hstatus, setFields_id hset⟩

theorem activateCampaign_move (hfree : s.isFree (.campaign id) = true)
    (h : s.activateCampaign id expected now = .ok s₁) :
    VoucherMove s t s₁ ∧ s₁.locks = s.locks := by
  unfold VoucherDb.activateCampaign at h
  split at h
  · cases h
  rename_i locked hlocked
  obtain ⟨_, _, h⟩ := bind_ok h
  split at h
  · cases h
  rename_i hdraft
  cases h
  obtain rfl : locked.id = id := by simpa using Table.prop_of_find? hlocked
  refine ⟨.restates (Table.mem_of_find? hlocked) ?_ (by decide) (of_decide_eq_true hfree), rfl⟩
  rw [not_not.1 hdraft]
  decide

theorem extendCampaign_move {expiresAt : Time} (hfree : s.isFree (.campaign id) = true)
    (h : s.extendCampaignExpiry id expiresAt expected now = .ok s₁) :
    VoucherMove s t s₁ ∧ s₁.locks = s.locks := by
  unfold VoucherDb.extendCampaignExpiry at h
  split at h
  · cases h
  rename_i locked hlocked
  obtain ⟨_, _, h⟩ := bind_ok h
  split at h
  · cases h
  rename_i hrevoked
  cases h
  obtain rfl : locked.id = id := by simpa using Table.prop_of_find? hlocked
  refine ⟨.restates (Table.mem_of_find? hlocked) hrevoked ?_ (of_decide_eq_true hfree), rfl⟩
  split
  · decide
  · exact hrevoked

theorem extendVoucher_move {expiresAt : Time}
    (hcall : t.call = .extendVoucherExpiry id expiresAt expected)
    (hfree : s.isFree (.voucher id) = true)
    (h : s.extendVoucherExpiry id expiresAt expected now = .ok s₁) :
    VoucherMove s t s₁ ∧ s₁.locks = s.locks := by
  unfold VoucherDb.extendVoucherExpiry at h
  split at h
  · cases h
  rename_i locked hlocked
  obtain ⟨_, _, h⟩ := bind_ok h
  split at h
  · cases h
  rename_i hends
  cases h
  obtain rfl : locked.id = id := by simpa using Table.prop_of_find? hlocked
  exact ⟨.prolongs (by rw [hcall]; rfl) (Table.mem_of_find? hlocked) (fun h => hends (.inl h))
    (fun h => hends (.inr h)) (of_decide_eq_true hfree), rfl⟩

/-! ## Revoking -/

theorem revokeCampaign_move (hfree : s.isFree (.campaign id) = true)
    (hall : s.areFree (fun v => v.campaign = some id) = true)
    (h : s.revokeCampaign id reason expected now = .ok (s₁, impact)) :
    VoucherMove s t s₁ ∧ s₁.locks = s.locks := by
  obtain ⟨_, _, h⟩ := bind_ok h
  split at h
  · cases h
  rename_i locked hlocked
  obtain ⟨_, _, h⟩ := bind_ok h
  split at h
  · cases h
  cases h
  obtain rfl : locked.id = id := by simpa using Table.prop_of_find? hlocked
  exact ⟨.revokesCampaign (Table.mem_of_find? hlocked) (of_decide_eq_true hfree) hall, rfl⟩

theorem revokeBatch_move (hall : s.areFree (fun v => v.batch = some id) = true)
    (h : s.revokeBatch id reason expected now = .ok (s₁, impact)) :
    VoucherMove s t s₁ ∧ s₁.locks = s.locks := by
  obtain ⟨_, _, h⟩ := bind_ok h
  split at h
  · cases h
  obtain ⟨_, _, h⟩ := bind_ok h
  split at h
  · cases h
  · cases h
    exact ⟨.revokesBatch hall, rfl⟩

theorem revokeVouchers_move {ids : List Uuid}
    (hall : s.areFree (fun v => ids.contains v.id) = true)
    (h : s.revokeVouchers ids reason now = .ok (s₁, impact)) :
    VoucherMove s t s₁ ∧ s₁.locks = s.locks := by
  obtain ⟨_, _, h⟩ := bind_ok h
  cases h
  exact ⟨.revokes hall, rfl⟩

/-! ## Inserts -/

theorem insertVoucher_ok (h : s.insertVoucher v = .ok s₁) :
    s.hasParents v = true ∧ ∃ vouchers, s.vouchers.insert? v = some vouchers
      ∧ s₁ = { s with vouchers } := by
  unfold VoucherDb.insertVoucher at h
  split at h
  · cases h
  split at h
  · cases h
  rename_i hparents
  split at h
  · cases h
  rename_i vouchers hvouchers
  cases h
  exact ⟨not_not.1 hparents, vouchers, hvouchers, rfl⟩

theorem insertVouchers_ok {vs : List Voucher} (h : s.insertVouchers vs = .ok s₁) :
    ∃ vouchers, s₁ = { s with vouchers } ∧ vouchers.rows = s.vouchers.rows ++ vs := by
  induction vs generalizing s with
  | nil =>
    cases h
    exact ⟨_, rfl, (List.append_nil _).symm⟩
  | cons v vs ih =>
    obtain ⟨s₂, hs₂, h⟩ := bind_ok h
    obtain ⟨_, vouchers, hi, rfl⟩ := insertVoucher_ok hs₂
    obtain ⟨vouchers', rfl, hrows⟩ := ih h
    refine ⟨vouchers', rfl, ?_⟩
    rw [hrows, Table.rows_insert hi, List.append_assoc]
    rfl

theorem createBatch_ok {d : Draw} {batch : Uuid} {ids : Nat → Uuid}
    (h : s.createBatch d batch ids now = .ok s₁) :
    ∃ batches vouchers, s.batches.insert? (d.row batch now) = some batches
      ∧ s₁ = { s with batches, vouchers }
      ∧ vouchers.rows = s.vouchers.rows ++ d.vouchers batch ids now := by
  unfold VoucherDb.createBatch at h
  split at h
  · cases h
  rename_i batches hbatches
  obtain ⟨vouchers, rfl, hrows⟩ := insertVouchers_ok h
  exact ⟨batches, vouchers, hbatches, rfl, hrows⟩

/-- A batch is not made revoked. -/
theorem row_status (d : Draw) (batch : Uuid) (now : Time) :
    (d.row batch now).status ≠ .revoked := by
  unfold Draw.row
  dsimp only
  split <;> decide

theorem insertCampaign_move {code : Option String} {d : CampaignData}
    (hpc : t.pc = .inserting code d) (h : insertCampaign s code d id now = .ok (s₁, a)) :
    VoucherMove s t s₁ ∧ s₁.locks = s.locks := by
  obtain ⟨row, hrow, h⟩ := bind_ok h
  split at h
  · cases h
  rename_i campaigns hcampaigns
  cases h
  obtain ⟨amount, _, hrow⟩ := bind_ok hrow
  obtain ⟨_, _, hrow⟩ := bind_ok hrow
  cases hrow
  exact ⟨.opens hpc rfl hcampaigns, rfl⟩

theorem insertIssued_move {d : VoucherData} (hpc : t.pc = .insertingVoucher code d)
    (h : insertIssued s code d id now = .ok (s₁, a)) : VoucherMove s t s₁ ∧ s₁.locks = s.locks := by
  obtain ⟨row, hrow, h⟩ := bind_ok h
  obtain ⟨s₂, hs₂, h⟩ := bind_ok h
  cases h
  obtain ⟨amount, _, hrow⟩ := bind_ok hrow
  cases hrow
  refine ⟨.issues hpc rfl rfl rfl rfl hs₂, ?_⟩
  obtain ⟨_, vouchers, _, rfl⟩ := insertVoucher_ok hs₂
  rfl

theorem saveEdited_move {locked : VoucherCampaign} (hpc : t.pc = .saving locked row)
    (h : saveEdited s row now = .ok (s₁, a)) :
    VoucherMove s t s₁ ∧ s₁.locks = s.locks := by
  unfold saveEdited at h
  split at h
  · cases h
  rename_i s₂ hs₂
  cases h
  refine ⟨.saves hpc hs₂, ?_⟩
  unfold VoucherDb.saveCampaign at hs₂
  obtain ⟨campaigns, _, rfl⟩ := Option.map_eq_some_iff.1 hs₂
  rfl

/-! ## Batches -/

theorem drawFor_ok {d : BatchData} {advisory : Bool} {draw : Draw}
    (h : drawFor d k advisory = .ok draw) :
    draw.campaign = some k ∧ k.status ≠ .revoked ∧ draw.codes = [] := by
  obtain ⟨_, _, h⟩ := bind_ok h
  split at h
  · cases h
  split at h
  · cases h
  rename_i hstatus
  cases h
  exact ⟨rfl, hstatus, rfl⟩

theorem drawCode_ok {d d' : Draw} {token : HexToken} (h : drawCode c.text s d token = .ok d') :
    d'.campaign = d.campaign ∧ (d'.codes = d.codes ∨ ∃ code,
      assertCodeAvailable c.text s (candidateCode token) none = .ok code
        ∧ d'.codes = d.codes ++ [code]) := by
  unfold drawCode at h
  split at h
  · rename_i code hcode
    cases h
    exact ⟨rfl, .inr ⟨code, hcode, rfl⟩⟩
  · split at h
    · cases h
    · cases h
      exact ⟨rfl, .inl rfl⟩
  · cases h

theorem stepped_beginBatch {d : BatchData} {advisory : Bool} (hpc : t.pc = .asked)
    (h : beginBatch s t d advisory = (s', t')) : Stepped s t s' t' := by
  unfold beginBatch at h
  split at h
  · cases h
    exact stepped_raise
  · split at h
    · split at h
      · cases h
        exact stepped_raise
      · rename_i draw hdraw
        cases h
        obtain ⟨amount, _, hdraw⟩ := bind_ok hdraw
        cases hdraw
        exact stepped_goto (by rw [hpc]; rfl) fun _ k hk => by cases hk
    · split at h
      · cases h
        exact stepped_raise
      · rename_i locked hlocked
        split at h
        · cases h
          exact stepped_raise
        · rename_i hfree
          split at h
          · cases h
            exact stepped_raise
          · rename_i draw hdraw
            cases h
            obtain ⟨hcampaign, hstatus, _⟩ := drawFor_ok hdraw
            refine stepped_lock (not_not.1 hfree) ?_ ?_
            · show draw.campaign.map _ = _
              rw [hcampaign]
              rfl
            · intro k hk
              obtain rfl := Option.some.inj (hcampaign.symm.trans hk)
              exact ⟨holds_lock (Table.mem_of_find? hlocked), hstatus⟩

theorem stepped_draw {d : Draw} {x : VoucherView} (hpc : t.pc = .drawing d)
    (h : drawStep c s t d x = (s', t')) : Stepped s t s' t' := by
  unfold drawStep at h
  split at h
  · split at h
    · cases h
      exact stepped_raise
    · rename_i d' hd'
      cases h
      obtain ⟨hcampaign, _⟩ := drawCode_ok hd'
      refine stepped_goto ?_ ?_
      · rw [hpc]
        show d'.campaign.map _ = d.campaign.map _
        rw [hcampaign]
      · intro howns k hk
        unfold Owns at howns
        rw [hpc] at howns
        exact howns k (hcampaign ▸ hk)
  · rename_i hfull
    refine stepped_settle ?_ h
    intro s₁ a hok
    cases hb : s.createBatch d x.uuid x.uuids x.now with
    | error e => rw [hb] at hok; cases hok
    | ok s₂ =>
      rw [hb] at hok
      cases hok
      refine ⟨.draws hpc hfull hb, ?_⟩
      obtain ⟨batches, vouchers, _, rfl, _⟩ := createBatch_ok hb
      rfl

/-! ## Every step -/

theorem stepped_checkCode {d : CampaignData} {r : Except Exc (Option String)} (hpc : t.pc = .asked)
    (h : checkCode s t d r = (s', t')) : Stepped s t s' t' := by
  unfold checkCode at h
  split at h
  · cases h
    exact stepped_raise
  · cases h
    exact stepped_goto (by rw [hpc]; rfl) fun _ => trivial

theorem stepped_begin {x : VoucherView} (hpc : t.pc = .asked)
    (h : beginVoucher c s t x = some (s', t')) : Stepped s t s' t' := by
  unfold beginVoucher at h
  split at h
  · split at h
    · cases h
      exact stepped_raise
    · exact stepped_seekVoucher hpc h
  · exact stepped_checkCode hpc (Option.some.inj h)
  · exact stepped_checkCode hpc (Option.some.inj h)
  · exact stepped_checkCode hpc (Option.some.inj h)
  · obtain ⟨hfree, h⟩ := whenFree_some h
    exact stepped_beginSave hfree h
  · obtain ⟨hfree, h⟩ := whenFree_some h
    refine stepped_settle ?_ h
    intro s₁ a hok
    obtain ⟨s₂, hs₂, heq⟩ := map_ok hok
    cases heq
    exact activateCampaign_move hfree hs₂
  · obtain ⟨hfree, h⟩ := whenFree_some h
    refine stepped_settle ?_ h
    intro s₁ a hok
    obtain ⟨s₂, hs₂, heq⟩ := map_ok hok
    cases heq
    exact extendCampaign_move hfree hs₂
  · rename_i hcall
    obtain ⟨hfree, h⟩ := whenFree_some h
    refine stepped_settle ?_ h
    intro s₁ a hok
    obtain ⟨s₂, hs₂, heq⟩ := map_ok hok
    cases heq
    exact extendVoucher_move hcall hfree hs₂
  · obtain ⟨hfree, h⟩ := whenFree_some h
    rw [Bool.and_eq_true] at hfree
    refine stepped_settle ?_ h
    intro s₁ a hok
    obtain ⟨⟨s₂, impact⟩, hs₂, heq⟩ := map_ok hok
    cases heq
    exact revokeCampaign_move hfree.1 hfree.2 hs₂
  · obtain ⟨hfree, h⟩ := whenFree_some h
    refine stepped_settle ?_ h
    intro s₁ a hok
    obtain ⟨⟨s₂, impact⟩, hs₂, heq⟩ := map_ok hok
    cases heq
    exact revokeBatch_move hfree hs₂
  · obtain ⟨hfree, h⟩ := whenFree_some h
    refine stepped_settle ?_ h
    intro s₁ a hok
    obtain ⟨⟨s₂, impact⟩, hs₂, heq⟩ := map_ok hok
    cases heq
    exact revokeVouchers_move hfree hs₂
  · exact stepped_beginBatch hpc (Option.some.inj h)
  · split at h
    · cases h
      exact stepped_raise
    · cases h
      exact stepped_goto (by rw [hpc]; rfl) fun _ => trivial
  · split at h
    · cases h
      exact stepped_raise
    · rename_i books e hbooks
      cases h
      exact stepped_answer (.posts hbooks) rfl

/-- **What every step does.** -/
theorem voucherStep_stepped {x : VoucherInput} (h : voucherStep c s t x = some (s', t')) :
    Stepped s t s' t' := by
  unfold voucherStep at h
  split at h
  · split at h
    · cases h
      exact stepped_raise
    · cases h
  · split at h
    · rename_i hpc
      exact stepped_begin hpc h
    · exact stepped_seekCampaign h
    · rename_i v hpc
      refine stepped_check (fun _ => by rw [hpc]; rfl) ?_ h
      intro r amount _ hcheck howns
      unfold Owns at howns
      rw [hpc] at howns
      exact ⟨howns.1, v, howns.2, rfl, (redeemUnique_grants hcheck).1⟩
    · rename_i k hpc
      refine stepped_check (fun _ => by rw [hpc]; rfl) ?_ h
      intro r amount hcall hcheck howns
      unfold Owns at howns
      rw [hpc] at howns
      refine ⟨k, rfl, howns, ?_⟩
      intro r' hr'
      cases hcall.symm.trans hr'
      exact (redeemShared_grants hcheck).1
    · rename_i source amount instant hpc
      unfold grantStep at h
      split at h
      · rename_i r hr
        refine stepped_settle ?_ (Option.some.inj h)
        intro s₁ a hok
        obtain ⟨⟨s₂, result⟩, hs₂, heq⟩ := map_ok hok
        cases heq
        refine ⟨.grants hr hpc hs₂, ?_⟩
        obtain ⟨_, _, _, _, _, _, _, rfl⟩ := grant_ok hs₂
        cases source <;> rfl
      · cases h
    · rename_i hpc
      refine stepped_settle ?_ (Option.some.inj h)
      intro s₁ a hok
      exact insertCampaign_move hpc hok
    · rename_i hpc
      refine stepped_settle ?_ (Option.some.inj h)
      intro s₁ a hok
      exact insertIssued_move hpc hok
    · rename_i hpc
      refine stepped_settle ?_ (Option.some.inj h)
      intro s₁ a hok
      exact saveEdited_move hpc hok
    · rename_i hpc
      exact stepped_draw hpc (Option.some.inj h)
    · cases h
    · cases h

end Steps

/-! ## Rows that are held stay -/

section Held

variable {s s' s₁ : VoucherDb} {t t' u : VoucherThread}

/-- A voucher that is locked is not among those an operation may revoke. -/
theorem not_revocable_of_areFree {p : Voucher → Bool} (h : s.areFree p = true) (hv : v ∈ s.vouchers)
    (hlock : .voucher v.id ∈ s.locks) : ¬ (p v && v.status.isRevocable) = true := by
  intro hp
  unfold VoucherDb.areFree VoucherDb.isFree at h
  have hone := List.all_eq_true.1 h v hv
  rw [hp] at hone
  exact absurd hlock (by simpa using hone)

theorem kept_voucher (hm : VoucherMove s t s₁) (hv : v ∈ s.vouchers)
    (hlock : .voucher v.id ∈ s.locks) (hother : t.pc.held ≠ some (.voucher v.id)) :
    v ∈ s₁.vouchers := by
  cases hm with
  | stays => exact hv
  | posts _ => exact hv
  | @grants r source amount instant id result _ _ hpc hgrant =>
    obtain ⟨_, _, _, _, _, _, _, rfl⟩ := grant_ok hgrant
    cases source with
    | campaign _ => exact hv
    | voucher id' =>
      refine List.mem_map.2 ⟨_, hv, rewrite_neg _ ?_⟩
      intro hid
      apply hother
      rw [hpc, of_decide_eq_true hid]
      rfl
  | opens _ _ _ => exact hv
  | issues _ _ _ _ _ hi =>
    obtain ⟨_, vouchers, hinsert, rfl⟩ := insertVoucher_ok hi
    exact (Table.mem_insert hinsert).2 (.inl hv)
  | saves _ hs =>
    unfold VoucherDb.saveCampaign at hs
    obtain ⟨_, _, rfl⟩ := Option.map_eq_some_iff.1 hs
    exact hv
  | draws _ _ hb =>
    obtain ⟨_, vouchers, _, rfl, hrows⟩ := createBatch_ok hb
    show v ∈ vouchers
    rw [Table.mem_def, hrows]
    exact List.mem_append.2 (.inl hv)
  | restates _ _ _ _ => exact hv
  | prolongs _ _ _ _ hfree =>
    refine List.mem_map.2 ⟨_, hv, rewrite_neg _ ?_⟩
    intro hid
    rw [of_decide_eq_true hid] at hlock
    exact hfree hlock
  | revokes hfree =>
      exact List.mem_map.2 ⟨v, hv, rewrite_neg _ (not_revocable_of_areFree hfree hv hlock)⟩
  | revokesCampaign _ _ hfree =>
    exact List.mem_map.2 ⟨v, hv, rewrite_neg _ (not_revocable_of_areFree hfree hv hlock)⟩
  | revokesBatch hfree =>
      exact List.mem_map.2 ⟨v, hv, rewrite_neg _ (not_revocable_of_areFree hfree hv hlock)⟩

theorem kept_campaign (howns : Owns s t) (hm : VoucherMove s t s₁) (hk : k ∈ s.campaigns)
    (hlock : .campaign k.id ∈ s.locks)
    (hother : t.pc.held ≠ some (.campaign k.id)) : k ∈ s₁.campaigns := by
  cases hm with
  | stays => exact hk
  | posts _ => exact hk
  | @grants r source _ _ _ _ _ _ _ hgrant =>
    obtain ⟨_, _, _, _, _, _, _, rfl⟩ := grant_ok hgrant
    cases source with
    | campaign _ => exact hk
    | voucher _ => exact hk
  | opens _ _ hi => exact (Table.mem_insert hi).2 (.inl hk)
  | issues _ _ _ _ _ hi =>
    obtain ⟨_, vouchers, _, rfl⟩ := insertVoucher_ok hi
    exact hk
  | @saves locked row _ _ hpc hs =>
    unfold VoucherDb.saveCampaign at hs
    obtain ⟨campaigns, hu, rfl⟩ := Option.map_eq_some_iff.1 hs
    unfold Owns at howns
    rw [hpc] at howns
    refine (Table.mem_update? hu).2 ⟨k, hk, rewrite_neg _ ?_⟩
    intro hid
    apply hother
    rw [hpc, of_decide_eq_true hid, howns.2.2]
    rfl
  | draws _ _ hb =>
    obtain ⟨_, _, _, rfl, _⟩ := createBatch_ok hb
    exact hk
  | restates _ _ _ hfree =>
    refine List.mem_map.2 ⟨_, hk, rewrite_neg _ ?_⟩
    intro hid
    rw [of_decide_eq_true hid] at hlock
    exact hfree hlock
  | prolongs _ _ _ _ _ => exact hk
  | revokes _ => exact hk
  | revokesCampaign _ hfree _ =>
    refine List.mem_map.2 ⟨_, hk, rewrite_neg _ ?_⟩
    intro hid
    rw [of_decide_eq_true hid] at hlock
    exact hfree hlock
  | revokesBatch _ => exact hk

/-- The redemptions of a source: one move makes one, and that is under the lock of its source. -/
theorem kept_redemptions (hm : VoucherMove s t s₁)
    (hother : ∀ amount instant, t.pc ≠ .granting source amount instant) :
    s₁.redemptionsOf source = s.redemptionsOf source := by
  cases hm with
  | @grants r source' _ _ id _ _ _ hpc hgrant =>
    obtain ⟨redemptions, _, _, _, hi, _, _, rfl⟩ := grant_ok hgrant
    have hne : source' ≠ source := by
      rintro rfl
      exact hother _ _ hpc
    have hsame : redemptions.rows.filter (·.source = source)
        = s.redemptions.rows.filter (·.source = source) := by
      rw [Table.rows_insert hi, List.filter_append, List.filter_cons_of_neg (by simpa using hne),
        List.filter_nil, List.append_nil]
    cases source' <;> exact hsame
  | issues _ _ _ _ _ hi =>
    obtain ⟨_, _, _, rfl⟩ := insertVoucher_ok hi
    rfl
  | saves _ hs =>
    unfold VoucherDb.saveCampaign at hs
    obtain ⟨_, _, rfl⟩ := Option.map_eq_some_iff.1 hs
    rfl
  | draws _ _ hb =>
    obtain ⟨_, _, _, rfl, _⟩ := createBatch_ok hb
    rfl
  | _ => rfl

/-- Two calls that hold different rows. -/
def Apart (t u : VoucherThread) : Prop := ∀ row, t.pc.held = some row → u.pc.held ≠ some row

theorem apart_symm (h : Apart t u) : Apart u t := fun row hu ht => h row ht hu

/-- What a call holds is locked. -/
theorem held_locked {row : LockedRow} (h : Owns s t) (hheld : t.pc.held = some row) :
    row ∈ s.locks := by
  unfold Owns at h
  unfold VoucherPc.held at hheld
  split at hheld
  · rename_i hpc
    rw [hpc] at h
    cases hheld
    exact h.1
  · rename_i hpc
    rw [hpc] at h
    cases hheld
    exact h.locked
  · rename_i hpc
    rw [hpc] at h
    cases hheld
    exact h.1
  · rename_i hpc
    rw [hpc] at h
    cases hheld
    obtain ⟨k, rfl, hk, _⟩ := h
    exact hk.locked
  · rename_i hpc
    rw [hpc] at h
    cases hheld
    exact h.1.locked
  · rename_i hpc
    rw [hpc] at h
    obtain ⟨k, hk, rfl⟩ := Option.map_eq_some_iff.1 hheld
    exact (h k hk).1.locked
  · cases hheld

/-- **What a call owns, another call's step leaves to it.** -/
theorem owns_frame (howns : Owns s t) (h : Stepped s t s' t') (hu : Owns s u) (hapart : Apart t u) :
    Owns s' u := by
  obtain ⟨s₁, hm, hs'⟩ := h.move
  have hlocks : ∀ row, u.pc.held = some row → row ∈ s.locks → row ∈ s'.locks :=
    fun row hheld hrow => h.locks row hrow fun ht => hapart row ht hheld
  have hvoucher : ∀ v ∈ s.vouchers, u.pc.held = some (.voucher v.id) → .voucher v.id ∈ s.locks →
      v ∈ s'.vouchers := by
    intro v hv hheld hlock
    rw [hs']
    show v ∈ s₁.vouchers
    exact kept_voucher hm hv hlock fun ht => hapart _ ht hheld
  have hcampaign : ∀ k, u.pc.held = some (.campaign k.id) → Holds s k → Holds s' k := by
    intro k hheld hk
    refine ⟨hlocks _ hheld hk.locked, ?_⟩
    rw [hs']
    show k ∈ s₁.campaigns
    exact kept_campaign howns hm hk.mem hk.locked fun ht => hapart _ ht hheld
  unfold Owns at hu ⊢
  split
  · rename_i v hpc
    rw [hpc] at hu
    have hheld : u.pc.held = some (.voucher v.id) := by rw [hpc]; rfl
    exact ⟨hlocks _ hheld hu.1, hvoucher v hu.2 hheld hu.1⟩
  · rename_i k hpc
    rw [hpc] at hu
    exact hcampaign k (by rw [hpc]; rfl) hu
  · rename_i hpc
    rw [hpc] at hu
    obtain ⟨hlock, v, hv, rfl, hactive⟩ := hu
    have hheld : u.pc.held = some (.voucher v.id) := by rw [hpc]; rfl
    exact ⟨hlocks _ hheld hlock, v, hvoucher v hv hheld hlock, rfl, hactive⟩
  · rename_i hpc
    rw [hpc] at hu
    obtain ⟨k, rfl, hk, hroom⟩ := hu
    have hheld : u.pc.held = some (.campaign k.id) := by rw [hpc]; rfl
    refine ⟨k, rfl, hcampaign k hheld hk, ?_⟩
    have hsame : s'.redemptionsOf (.campaign k.id) = s.redemptionsOf (.campaign k.id) := by
      have hsame₁ : s₁.redemptionsOf (.campaign k.id) = s.redemptionsOf (.campaign k.id) := by
        refine kept_redemptions hm ?_
        intro amount instant ht
        exact hapart (.campaign k.id) (by rw [ht]; rfl) hheld
      rw [hs']
      exact hsame₁
    intro r hr
    obtain ⟨htotal, hper⟩ := hroom r hr
    refine ⟨?_, ?_⟩
    · intro n hn
      rw [hsame]
      exact htotal n hn
    · intro n hn
      unfold VoucherDb.redemptionsBy
      rw [hsame]
      exact hper n hn
  · rename_i hpc
    rw [hpc] at hu
    exact ⟨hcampaign _ (by rw [hpc]; rfl) hu.1, hu.2⟩
  · rename_i hpc
    rw [hpc] at hu
    intro k hk
    have hheld : u.pc.held = some (.campaign k.id) := by
      rw [hpc]
      exact Option.map_eq_some_iff.2 ⟨k, hk, rfl⟩
    exact ⟨hcampaign k hheld (hu k hk).1, (hu k hk).2⟩
  · trivial

theorem apart_step (h : Stepped s t s' t') (hu : Owns s u) (hapart : Apart t u) : Apart t' u := by
  intro row ht' hheld
  rcases h.held row ht' with ht | hfree
  · exact hapart row ht hheld
  · exact hfree (held_locked hu hheld)

end Held

/-! ## Invariants of the tables -/

/--
A property of the tables that every move keeps, where the step meets a condition,
is an invariant: the locks are taken care of.
-/
theorem voucherInvariant {c : VoucherConfig} {init G : VoucherDb → Prop}
    {ok : VoucherDb → VoucherThread → VoucherInput → Prop} (hinit : ∀ s, init s → G s)
    (hlocks : ∀ s l, G s → G { s with locks := l })
    (hmove : ∀ s t x s₁, G s → Owns s t → ok s t x → VoucherMove s t s₁ → G s₁) :
    Invariant (voucherProgram c) init ok G Owns Apart where
  init := hinit _
  start := fun _ _ => trivial
  apart_start := fun _ _ _ h => by cases h
  symm := apart_symm
  step := by
    intro s t x s' t' hG hL hok h
    have hstep := voucherStep_stepped h
    obtain ⟨s₁, hm, hs'⟩ := hstep.move
    refine ⟨?_, hstep.owns hL⟩
    rw [hs']
    exact hlocks _ _ (hmove s t x s₁ hG hL hok hm)
  frame := by
    intro s t x s' t' u _ hL _ h hu hapart
    have hstep := voucherStep_stepped h
    exact ⟨owns_frame hL hstep hu hapart, apart_step hstep hu hapart⟩

end Roamkit.Vouchers.Proof
