import Roamkit.Proof.VoucherMove
import Roamkit.Lib.Fields
import Roamkit.Lib.LetterCase

/-!
# Every redemption is credited once

A unique voucher has a redemption exactly if it is marked redeemed, and then one.
The redemptions and the voucher entries of the ledger name each other. What a
campaign's caps allow is counted under the lock of the campaign, so that they hold
at every grant.
-/

namespace Roamkit.Vouchers.Proof

open Lib Billing Billing.Proof Vouchers

/-! ## The invariant -/

/-- The credit of a redemption. -/
structure EntryOf (r : VoucherRedemption) (e : CreditLedgerEntry) : Prop where
  type : e.referenceType = .voucher
  reference : e.referenceId = r.id.str
  key : e.idempotencyKey = redeemKey r.id
  account : e.account = r.account
  delta : e.delta = r.amount.micros

structure RedeemInv (s : VoucherDb) : Prop where
  /-- A voucher is redeemed at most once. -/
  once : ∀ r ∈ s.redemptions, ∀ q ∈ s.redemptions, ∀ id,
    r.source = .voucher id → q.source = .voucher id → r = q
  redeemed : ∀ v ∈ s.vouchers,
    v.status = .redeemed ↔ ∃ r ∈ s.redemptions, r.source = .voucher v.id
  known : ∀ r ∈ s.redemptions, ∀ id, r.source = .voucher id → ∃ v ∈ s.vouchers, v.id = id
  entry : ∀ r ∈ s.redemptions, ∃ e ∈ s.books.entries, EntryOf r e
  origin : ∀ e ∈ s.books.entries,
    e.referenceType = .voucher ∨ (∃ id, e.idempotencyKey = redeemKey id) →
    ∃ r ∈ s.redemptions, EntryOf r e

variable {id : Uuid} {source : RedemptionSource} {r : RedeemRequest} {amount : Amount}
  {instant : Time} {result : RedeemResult}

theorem redeemKey_inj {id' : Uuid} (h : redeemKey id = redeemKey id') : id = id' := by
  have hlist := congrArg String.toList h
  unfold redeemKey at hlist
  rw [String.toList_append, String.toList_append] at hlist
  exact Uuid.ext (String.toList_injective (List.append_cancel_left hlist))

section Preserved

variable {s s₁ : VoucherDb} {t : VoucherThread}

/-- Vouchers that are rewritten, none of them from or to the mark of a redeemed one. -/
theorem RedeemInv.rewrite {p : Voucher → Bool} {f : Voucher → Voucher} {vouchers : Table Voucher}
    (h : RedeemInv s) (hrows : vouchers.rows = s.vouchers.rows.map (rewrite p f))
    (hid : ∀ v, (f v).id = v.id)
    (hstatus : ∀ v ∈ s.vouchers, p v → v.status ≠ .redeemed ∧ (f v).status ≠ .redeemed) :
    RedeemInv { s with vouchers } := by
  have hsame : ∀ v ∈ s.vouchers, (Lib.rewrite p f v).id = v.id
      ∧ ((Lib.rewrite p f v).status = .redeemed ↔ v.status = .redeemed) := by
    intro v hv
    by_cases hp : p v
    · rw [rewrite_pos f hp]
      exact ⟨hid v, iff_of_false (hstatus v hv hp).2 (hstatus v hv hp).1⟩
    · rw [rewrite_neg f hp]
      exact ⟨rfl, Iff.rfl⟩
  refine ⟨h.once, ?_, ?_, h.entry, h.origin⟩
  · intro v' hv'
    have hv' : v' ∈ vouchers.rows := hv'
    rw [hrows, List.mem_map] at hv'
    obtain ⟨v, hv, rfl⟩ := hv'
    rw [(hsame v hv).1, (hsame v hv).2]
    exact h.redeemed v hv
  · intro r hr id hsource
    obtain ⟨v, hv, hvid⟩ := h.known r hr id hsource
    refine ⟨Lib.rewrite p f v, ?_, (hsame v hv).1.trans hvid⟩
    show _ ∈ vouchers.rows
    rw [hrows]
    exact List.mem_map_of_mem hv

/-- Vouchers that are added, none of them redeemed. -/
theorem RedeemInv.append {vs : List Voucher} {vouchers : Table Voucher} (h : RedeemInv s)
    (hrows : vouchers.rows = s.vouchers.rows ++ vs) (hnew : ∀ v ∈ vs, v.status ≠ .redeemed) :
    RedeemInv { s with vouchers } := by
  have hapart := vouchers.apart
  rw [hrows, List.pairwise_append] at hapart
  refine ⟨h.once, ?_, ?_, h.entry, h.origin⟩
  · intro v hv
    have hv : v ∈ vouchers.rows := hv
    rw [hrows, List.mem_append] at hv
    rcases hv with hv | hv
    · exact h.redeemed v hv
    · refine iff_of_false (hnew v hv) ?_
      rintro ⟨r, hr, hsource⟩
      obtain ⟨x, hx, hid⟩ := h.known r hr v.id hsource
      exact hapart.2.2 x hx v hv (.inl hid)
  · intro r hr id hsource
    obtain ⟨v, hv, hid⟩ := h.known r hr id hsource
    refine ⟨v, ?_, hid⟩
    show v ∈ vouchers.rows
    rw [hrows]
    exact List.mem_append.2 (.inl hv)

/-- A posting that is no redemption's. -/
theorem RedeemInv.foreign {p : OtherPosting} {b : Books} {e : CreditLedgerEntry} (h : RedeemInv s)
    (ha : s.books.apply p.posting = .ok (b, e)) : RedeemInv { s with books := b } := by
  rcases apply_rows ha with ⟨rfl, _, _⟩ | ⟨hrows, htype, _, hkey, _⟩
  · exact h
  · refine ⟨h.once, h.redeemed, h.known, ?_, ?_⟩
    · intro r hr
      obtain ⟨f, hf, hof⟩ := h.entry r hr
      refine ⟨f, ?_, hof⟩
      show f ∈ b.entries.rows
      rw [hrows]
      exact List.mem_append.2 (.inl hf)
    · intro f hf hof
      have hf : f ∈ b.entries.rows := hf
      rw [hrows, List.mem_append, List.mem_singleton] at hf
      rcases hf with hf | rfl
      · exact h.origin f hf hof
      · rcases hof with hof | ⟨id, hof⟩
        · exact absurd (htype.symm.trans hof) p.notVoucher
        · exact absurd (hkey.symm.trans hof) (p.notRedeemKey id)

/-- The key of a redemption that is not there yet is unused. -/
theorem RedeemInv.unused {q : VoucherRedemption} {redemptions : Table VoucherRedemption}
    {e : CreditLedgerEntry} (h : RedeemInv s) (hi : s.redemptions.insert? q = some redemptions)
    (he : e ∈ s.books.entries) : e.idempotencyKey ≠ redeemKey q.id := by
  intro hkey
  obtain ⟨r, hr, hof⟩ := h.origin e he (.inr ⟨q.id, hkey⟩)
  exact Table.apart_of_insert hi hr (redeemKey_inj (hof.key.symm.trans hkey))

theorem markRedeemed_cases {now : Time} {v : Voucher}
    (h : v ∈ (s.markRedeemed source now).vouchers) :
    (v ∈ s.vouchers ∧ source ≠ .voucher v.id)
    ∨ (source = .voucher v.id ∧ v.status = .redeemed) := by
  cases source with
  | campaign _ => exact .inl ⟨h, fun hne => by cases hne⟩
  | voucher id =>
    obtain ⟨x, hx, rfl⟩ := List.mem_map.1 h
    by_cases hid : x.id = id
    · rw [rewrite_pos _ (by simpa using hid)]
      exact .inr ⟨by rw [hid], rfl⟩
    · rw [rewrite_neg _ (by simpa using hid)]
      refine .inl ⟨hx, ?_⟩
      intro hsame
      exact hid (RedemptionSource.voucher.inj hsame).symm

theorem exists_markRedeemed {now : Time} {v : Voucher} (h : v ∈ s.vouchers) :
    ∃ x ∈ (s.markRedeemed source now).vouchers, x.id = v.id := by
  cases source with
  | campaign _ => exact ⟨v, h, rfl⟩
  | voucher id =>
    refine ⟨_, List.mem_map.2 ⟨v, h, rfl⟩, ?_⟩
    unfold Lib.rewrite
    split <;> rfl

/-- **A grant credits its redemption, and no other.** -/
theorem RedeemInv.grant (h : RedeemInv s)
    (hactive : ∀ v, source = .voucher v → ∃ x ∈ s.vouchers, x.id = v ∧ x.status = .active)
    (hg : s.grant r source amount instant id = .ok (s₁, result)) : RedeemInv s₁ := by
  obtain ⟨redemptions, p, b, e, hi, hp, hb, rfl⟩ := grant_ok hg
  obtain ⟨hamount, haccount, hcredit, htype, href, hkey⟩ := preparePosting_eq hp
  rw [normalizeAmount_micros] at hamount
  obtain rfl := Except.ok.inj hamount
  have hmem : ∀ q, q ∈ redemptions
      ↔ q ∈ s.redemptions ∨ q = ⟨id, r.account, source, p.amount, r.rid, instant⟩ :=
    fun q => Table.mem_insert hi
  rcases apply_rows hb with ⟨_, he, hused⟩ | ⟨hrows, hetype, heref, hekey, heaccount, hedelta⟩
  · exact absurd (hused.trans hkey) (h.unused hi he)
  have hentries : ∀ f, f ∈ b.entries ↔ f ∈ s.books.entries ∨ f = e := by
    intro f
    rw [Table.mem_def, hrows, List.mem_append, List.mem_singleton]
    rfl
  have hof : EntryOf ⟨id, r.account, source, p.amount, r.rid, instant⟩ e := by
    refine ⟨hetype.trans htype, heref.trans href, hekey.trans hkey, heaccount.trans haccount, ?_⟩
    rw [hedelta, Posting.delta, hcredit]
    rfl
  -- no redemption has the voucher yet, since it is not marked
  have hnone : ∀ v, source = .voucher v → ∀ q ∈ s.redemptions, q.source ≠ .voucher v := by
    intro v hv q hq hqv
    obtain ⟨x, hx, hxid, hxactive⟩ := hactive v hv
    have hmark := (h.redeemed x hx).2 ⟨q, hq, by rw [hqv, hxid]⟩
    rw [hxactive] at hmark
    cases hmark
  have hsame : ({ s with books := b, redemptions }.markRedeemed source instant).books = b
      ∧ ({ s with books := b, redemptions }.markRedeemed source instant).redemptions
        = redemptions := by
    cases source <;> exact ⟨rfl, rfl⟩
  obtain ⟨hbooks, hredemptions⟩ := hsame
  refine ⟨?_, ?_, ?_, ?_, ?_⟩
  · rw [hredemptions]
    intro q hq q' hq' v hqv hqv'
    rcases (hmem q).1 hq with hq | rfl
    · rcases (hmem q').1 hq' with hq' | rfl
      · exact h.once q hq q' hq' v hqv hqv'
      · exact absurd hqv (hnone v hqv' q hq)
    · rcases (hmem q').1 hq' with hq' | rfl
      · exact absurd hqv' (hnone v hqv q' hq')
      · rfl
  · rw [hredemptions]
    intro v hv
    rcases markRedeemed_cases hv with ⟨hv, hne⟩ | ⟨hsource, hstatus⟩
    · rw [h.redeemed v hv]
      constructor
      · rintro ⟨q, hq, hqv⟩
        exact ⟨q, (hmem q).2 (.inl hq), hqv⟩
      · rintro ⟨q, hq, hqv⟩
        rcases (hmem q).1 hq with hq | rfl
        · exact ⟨q, hq, hqv⟩
        · exact absurd hqv hne
    · exact iff_of_true hstatus ⟨_, (hmem _).2 (.inr rfl), hsource⟩
  · rw [hredemptions]
    intro q hq v hqv
    have hold : ∃ x ∈ s.vouchers, x.id = v := by
      rcases (hmem q).1 hq with hq | rfl
      · exact h.known q hq v hqv
      · obtain ⟨x, hx, hxid, _⟩ := hactive v hqv
        exact ⟨x, hx, hxid⟩
    obtain ⟨x, hx, rfl⟩ := hold
    exact exists_markRedeemed hx
  · rw [hredemptions, hbooks]
    intro q hq
    rcases (hmem q).1 hq with hq | rfl
    · obtain ⟨f, hf, hqf⟩ := h.entry q hq
      exact ⟨f, (hentries f).2 (.inl hf), hqf⟩
    · exact ⟨e, (hentries e).2 (.inr rfl), hof⟩
  · rw [hredemptions, hbooks]
    intro f hf hkind
    rcases (hentries f).1 hf with hf | rfl
    · obtain ⟨q, hq, hqf⟩ := h.origin f hf hkind
      exact ⟨q, (hmem q).2 (.inl hq), hqf⟩
    · exact ⟨_, (hmem _).2 (.inr rfl), hof⟩

/-- No voucher is issued as redeemed. -/
def IssuesFresh (t : VoucherThread) : Prop :=
  ∀ code d, t.pc = .insertingVoucher code d → d.status ≠ .redeemed

theorem revocable_not_redeemed {p : Voucher → Bool} {v : Voucher}
    (h : (p v && v.status.isRevocable) = true) : v.status ≠ .redeemed := by
  intro hstatus
  rw [hstatus, Bool.and_eq_true] at h
  cases h.2

theorem RedeemInv.revoke (p : Voucher → Bool) (now : Time) (h : RedeemInv s) :
    RedeemInv (s.applyVoucherRevokes p now) :=
  h.rewrite rfl (fun _ => rfl) fun _ _ hp => ⟨revocable_not_redeemed hp, fun h => by cases h⟩

theorem redeemInv_move (h : RedeemInv s) (howns : Owns s t) (hok : IssuesFresh t)
    (hm : VoucherMove s t s₁) : RedeemInv s₁ := by
  cases hm with
  | stays => exact h
  | posts ha => exact h.foreign ha
  | @grants r source amount instant id result _ _ hpc hg =>
    refine h.grant ?_ hg
    rintro v rfl
    unfold Owns at howns
    rw [hpc] at howns
    exact howns.2
  | opens _ _ _ => exact ⟨h.once, h.redeemed, h.known, h.entry, h.origin⟩
  | issues hpc _ hstatus _ _ hi =>
    obtain ⟨_, vouchers, hinsert, rfl⟩ := insertVoucher_ok hi
    refine h.append (Table.rows_insert hinsert) ?_
    intro v hv
    rw [List.mem_singleton.1 hv, hstatus]
    exact hok _ _ hpc
  | saves _ hs =>
    unfold VoucherDb.saveCampaign at hs
    obtain ⟨_, _, rfl⟩ := Option.map_eq_some_iff.1 hs
    exact ⟨h.once, h.redeemed, h.known, h.entry, h.origin⟩
  | @draws d batch ids now _ _ _ hb =>
    obtain ⟨batches, vouchers, _, rfl, hrows⟩ := createBatch_ok hb
    have hnew := h.append hrows fun v hv => by
      obtain ⟨⟨code, i⟩, _, rfl⟩ := List.mem_map.1 hv
      unfold Draw.voucher
      dsimp only
      split <;> decide
    exact ⟨hnew.once, hnew.redeemed, hnew.known, hnew.entry, hnew.origin⟩
  | restates _ _ _ _ => exact ⟨h.once, h.redeemed, h.known, h.entry, h.origin⟩
  | prolongs _ hv hredeemed _ _ =>
    refine h.rewrite rfl (fun _ => rfl) ?_
    intro x hx hp
    obtain rfl := Table.eq_of_clash hx hv (.inl (of_decide_eq_true hp))
    refine ⟨hredeemed, ?_⟩
    dsimp only
    split
    · decide
    · exact hredeemed
  | revokes _ => exact h.revoke _ _
  | @revokesCampaign k _ now _ _ _ =>
    have hrevoked := h.revoke (fun v => v.campaign = some k.id) now
    exact ⟨hrevoked.once, hrevoked.redeemed, hrevoked.known, hrevoked.entry, hrevoked.origin⟩
  | @revokesBatch id now _ =>
    have hrevoked := h.revoke (fun v => v.batch = some id) now
    exact ⟨hrevoked.once, hrevoked.redeemed, hrevoked.known, hrevoked.entry, hrevoked.origin⟩

end Preserved

/-! ## Every run -/

/-- Accounts without entries, and nothing redeemed yet. -/
structure FreshVouchers (s : VoucherDb) : Prop where
  books : Books.Fresh s.books
  redemptions : s.redemptions.rows = []
  vouchers : ∀ v ∈ s.vouchers, v.status ≠ .redeemed

theorem redeemInv_init {s : VoucherDb} (h : FreshVouchers s) : RedeemInv s := by
  have hnone : ∀ r, r ∉ s.redemptions := by
    intro r hr
    rw [Table.mem_def, h.redemptions] at hr
    cases hr
  refine ⟨fun r hr => absurd hr (hnone r), ?_, fun r hr => absurd hr (hnone r),
    fun r hr => absurd hr (hnone r), ?_⟩
  · intro v hv
    refine iff_of_false (h.vouchers v hv) ?_
    rintro ⟨r, hr, _⟩
    exact hnone r hr
  · intro e he
    rw [Table.mem_def, h.books.entries] at he
    cases he

theorem redeemInvariant (c : VoucherConfig) :
    Invariant (voucherProgram c) FreshVouchers (fun _ t _ => IssuesFresh t) RedeemInv Owns Apart :=
  voucherInvariant (fun _ => redeemInv_init)
    (fun _ _ h => ⟨h.once, h.redeemed, h.known, h.entry, h.origin⟩)
    fun _ _ _ _ hG hL hok hm => redeemInv_move hG hL hok hm

/-- Vouchers, redemptions and the ledger agree. -/
structure VouchersSound (s : VoucherDb) : Prop where
  once : ∀ r ∈ s.redemptions, ∀ q ∈ s.redemptions, ∀ id,
    r.source = .voucher id → q.source = .voucher id → r = q
  redeemed : ∀ v ∈ s.vouchers,
    v.status = .redeemed ↔ ∃ r ∈ s.redemptions, r.source = .voucher v.id
  entry : ∀ r ∈ s.redemptions, ∃! e, e ∈ s.books.entries ∧ EntryOf r e
  origin : ∀ e ∈ s.books.entries, e.referenceType = .voucher →
    ∃! r, r ∈ s.redemptions ∧ EntryOf r e

/-- What a step may do about redemptions. -/
structure RedeemsSoundly (s s' : VoucherDb) (t' : VoucherThread) : Prop where
  /-- A redemption of a campaign is within the caps that the campaign has. -/
  caps : ∀ r ∈ s'.redemptions, r ∉ s.redemptions → ∀ id, r.source = .campaign id →
    ∃ k ∈ s'.campaigns, k.id = id
      ∧ (∀ n, k.maxRedemptionsTotal = some n → (s'.redemptionsOf (.campaign id)).length ≤ n)
      ∧ ∀ n, k.maxRedemptionsPerAccount = some n →
        (s'.redemptionsBy (.campaign id) r.account).length ≤ n
  /-- A call that has not returned, and one that raises, leaves every table as it was. -/
  unwritten : (∀ a, t'.pc ≠ .returned a) → s' = { s with locks := s'.locks }

section Caps

variable {c : VoucherConfig} {s s' s₁ : VoucherDb} {t t' : VoucherThread} {x : VoucherInput}

/-- One more redemption of a campaign, counted. -/
theorem redemptionsOf_grant (h : s.grant r source amount instant id = .ok (s₁, result)) :
    s₁.redemptionsOf source
      = s.redemptionsOf source ++ [⟨id, r.account, source, amount, r.rid, instant⟩] := by
  obtain ⟨redemptions, _, _, _, hi, _, _, rfl⟩ := grant_ok h
  have hrows : redemptions.rows.filter (·.source = source)
      = s.redemptionsOf source ++ [⟨id, r.account, source, amount, r.rid, instant⟩] := by
    rw [Table.rows_insert hi, List.filter_append, List.filter_cons_of_pos (by simp),
      List.filter_nil]
    rfl
  cases source <;> exact hrows

theorem redemptionsBy_grant (h : s.grant r source amount instant id = .ok (s₁, result)) :
    (s₁.redemptionsBy source r.account).length = (s.redemptionsBy source r.account).length + 1 := by
  unfold VoucherDb.redemptionsBy
  rw [redemptionsOf_grant h, List.filter_append, List.filter_cons_of_pos (by simp), List.filter_nil,
    List.length_append, List.length_singleton]

/-- A redemption that was not there is one that the step granted. -/
theorem granted_of_new {r : VoucherRedemption} (hm : VoucherMove s t s₁) (hr : r ∈ s₁.redemptions)
    (hnew : r ∉ s.redemptions) :
    ∃ req source amount instant id result, t.call = .redeem req
      ∧ t.pc = .granting source amount instant
      ∧ s.grant req source amount instant id = .ok (s₁, result)
      ∧ r = ⟨id, req.account, source, amount, req.rid, instant⟩ := by
  cases hm with
  | @grants req source amount instant id _ result hcall hpc hg =>
    refine ⟨req, source, amount, instant, id, result, hcall, hpc, hg, ?_⟩
    obtain ⟨redemptions, _, _, _, hi, _, _, rfl⟩ := grant_ok hg
    have hr : r ∈ redemptions := by cases source <;> exact hr
    rcases (Table.mem_insert hi).1 hr with hold | hone
    · exact absurd hold hnew
    · exact hone
  | issues _ _ _ _ _ hi =>
    obtain ⟨_, _, _, rfl⟩ := insertVoucher_ok hi
    exact absurd hr hnew
  | saves _ hs =>
    unfold VoucherDb.saveCampaign at hs
    obtain ⟨_, _, rfl⟩ := Option.map_eq_some_iff.1 hs
    exact absurd hr hnew
  | draws _ _ hb =>
    obtain ⟨_, _, _, rfl, _⟩ := createBatch_ok hb
    exact absurd hr hnew
  | _ => exact absurd hr hnew

/-- **A grant of a campaign is within its caps.** -/
theorem caps_step (howns : Owns s t) (h : Stepped s t s' t') {r : VoucherRedemption}
    (hr : r ∈ s'.redemptions) (hnew : r ∉ s.redemptions) (hsource : r.source = .campaign id) :
    ∃ k ∈ s'.campaigns, k.id = id
      ∧ (∀ n, k.maxRedemptionsTotal = some n → (s'.redemptionsOf (.campaign id)).length ≤ n)
      ∧ ∀ n, k.maxRedemptionsPerAccount = some n →
        (s'.redemptionsBy (.campaign id) r.account).length ≤ n := by
  obtain ⟨s₁, hm, hs'⟩ := h.move
  rw [hs'] at hr ⊢
  obtain ⟨req, source, amount, instant, rid, result, hcall, hpc, hg, rfl⟩ :=
    granted_of_new hm hr hnew
  obtain rfl : source = .campaign id := hsource
  unfold Owns at howns
  rw [hpc] at howns
  obtain ⟨k, rfl, hk, hroom⟩ := howns
  obtain ⟨htotal, hper⟩ := hroom req hcall
  refine ⟨k, ?_, rfl, ?_, ?_⟩
  · obtain ⟨_, _, _, _, _, _, _, rfl⟩ := grant_ok hg
    exact hk.mem
  · intro n hn
    have hlength := congrArg List.length (redemptionsOf_grant hg)
    rw [List.length_append, List.length_singleton] at hlength
    exact le_of_eq_of_le hlength (htotal n hn)
  · intro n hn
    have hlength := redemptionsBy_grant hg
    exact le_of_eq_of_le hlength (hper n hn)

end Caps

/-- Two entries or two redemptions that name each other are one. -/
theorem vouchersSound_of_inv {s : VoucherDb} (h : RedeemInv s) : VouchersSound s := by
  refine ⟨h.once, h.redeemed, ?_, ?_⟩
  · intro r hr
    obtain ⟨e, he, hof⟩ := h.entry r hr
    refine ⟨e, ⟨he, hof⟩, ?_⟩
    rintro f ⟨hf, hfof⟩
    exact Table.eq_of_clash hf he (hfof.key.trans hof.key.symm)
  · intro e he htype
    obtain ⟨r, hr, hof⟩ := h.origin e he (.inl htype)
    refine ⟨r, ⟨hr, hof⟩, ?_⟩
    rintro q ⟨hq, hqof⟩
    exact Table.eq_of_clash hq hr (redeemKey_inj (hqof.key.symm.trans hof.key))

/--
**Redemptions are sound.** In every state of every run the vouchers, the redemptions
and the ledger agree; every step keeps a campaign's redemptions within its caps,
and a call that raises has left the tables as they were.
-/
theorem vouchers_sound {c : VoucherConfig} {g : Config VoucherDb VoucherThread}
    (h : (voucherProgram c).ReachWhere FreshVouchers (fun _ t _ => IssuesFresh t) g) :
    VouchersSound g.store ∧ ∀ p t x s' t', g.threads p = some t →
      voucherStep c g.store t x = some (s', t') → RedeemsSoundly g.store s' t' := by
  have hinv := (redeemInvariant c).reach h
  refine ⟨vouchersSound_of_inv hinv.store, ?_⟩
  intro p t x s' t' ht hs
  have hstep := voucherStep_stepped hs
  exact ⟨fun r hr hnew id hsource => caps_step (hinv.thread p t ht) hstep hr hnew hsource,
    hstep.writes⟩

/-! ## A voucher that is redeemed -/

/-- Text within ASCII; what lies outside is left as it is. -/
def asciiText : CodeText where
  decomposition c := [c]
  combining _ := 0
  composite _ _ := none
  joins _ := false
  uppercase c := [c.toUpper]
  terminal c d hd := by rw [List.mem_singleton.1 hd]
  combining_joins _ h := absurd rfl h
  composite_joins _ _ _ h := by cases h
  composite_space _ _ _ h := by cases h
  composite_wide _ _ _ h := by cases h
  composite_upper _ _ _ h := by cases h
  space c h := by
    refine ⟨rfl, congrArg ([·]) (PyText.toUpper_of_not ?_)⟩
    intro hletter
    rw [PyText.isSpace_of_letter (by omega)] at h
    cases h
  ascii _ _ := ⟨rfl, rfl, rfl⟩
  letters c h := by
    refine ⟨List.cons_ne_nil _ _, fun d hd => ?_⟩
    rw [List.mem_singleton.1 hd, PyText.isSpace_toUpper, h]
  uppercase_twice c d hd := by rw [List.mem_singleton.1 hd, PyText.toUpper_toUpper]
  detached _ _ _ := UnicodeData.detached_cons.2 rfl
  capital c _ d hd := by
    obtain rfl := List.mem_singleton.1 hd
    refine ⟨fun e he => ?_, rfl, rfl, fun _ => UnicodeData.detached_cons.2 rfl,
      fun hlarge hspace => ⟨_, List.mem_singleton.2 rfl, hlarge, hspace⟩⟩
    obtain rfl := List.mem_singleton.1 he
    exact congrArg ([·]) (PyText.toUpper_toUpper c)

def voucherConfig : VoucherConfig := ⟨true, true, asciiText⟩

/-- A voucher worth five. -/
def gift : Voucher where
  id := ⟨"00000000-0000-4000-8000-0000000000e4", by decide⟩
  code := "RK-GIFT"
  redemptionMode := .unique
  rewardType := .fixedCredit
  creditAmount := fiveDollars
  campaign := none
  batch := none
  status := .active
  expiresAt := none
  updatedAt := 0

/-- Two accounts, and the voucher. -/
def oneVoucher : VoucherDb where
  books := twoAccounts
  campaigns := .empty
  batches := .empty
  vouchers := ⟨[gift], by decide⟩
  redemptions := .empty
  locks := []

theorem fresh_oneVoucher : FreshVouchers oneVoucher := ⟨fresh_twoAccounts, rfl, by decide⟩

/-- Random digits. -/
def token : HexToken := ⟨"00112233445566ff", by decide, by decide⟩

/-- A step at a time, with a UUID. -/
def voucherView (uuid : Uuid) : VoucherInput := .go ⟨0, uuid, fun _ => uuid, token, true⟩

/-- An account asks for the code, as it may be typed. -/
def giftRequest (account : Uuid) : VoucherCall := .redeem ⟨account, " rk-gift ", "req-1", bob⟩

/-- The two accounts both ask for the voucher; the second is answered after the first. -/
def twoRedeem : List (Act VoucherCall VoucherInput) :=
  [.call 0 (giftRequest alice), .call 1 (giftRequest bob), .tick 0 (voucherView alice),
    .tick 0 (voucherView alice), .tick 0 (voucherView alice), .tick 1 (voucherView bob),
    .tick 1 (voucherView bob)]

/-- The first was credited, the second was told that the voucher is redeemed. -/
def redeemedOnce (g : Config VoucherDb VoucherThread) : Bool :=
  match g.threads 0, g.threads 1 with
  | some ⟨_, .returned (.redeemed result)⟩, some ⟨_, .raised (.voucherInvalid _)⟩ =>
    result.balance = 5000000 && g.store.redemptions.rows.length = 1
  | _, _ => false

theorem vouchers_sound_redeemed :
    ∃ g, redeemedOnce g = true ∧ VouchersSound g.store := by
  have hrun : ∃ g, (voucherProgram voucherConfig).ReachWhere FreshVouchers
      (fun _ t _ => IssuesFresh t) g ∧ redeemedOnce g = true :=
    Program.reachWhere_check (fun _ t _ => match t.pc
      with | .insertingVoucher _ _ => false | _ => true)
      (fun _ t _ h code d hpc => by rw [hpc] at h; cases h) fresh_oneVoucher twoRedeem redeemedOnce
      (by decide)
  obtain ⟨g, hg, hend⟩ := hrun
  exact ⟨g, hend, (vouchers_sound hg).1⟩

end Roamkit.Vouchers.Proof
