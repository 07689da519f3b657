import Roamkit.Proof.Revocation

/-!
# Codes of vouchers and campaigns

A code is checked against both tables before it is inserted, and the insert is
another query. `IssuesInOrder` is what has to hold at each step for the codes to stay
in order: about the code that is given, where nothing checks it, and about the other
table at the time of the write.
-/

/-!
## What a code is normalized to

Normalizing a code a second time changes nothing exactly when the text it is the upper
case of has combining character sequences that stay in normal form in upper case. A
code the denylist is looked through for is within ASCII, and of these all are left as
they are.
-/

namespace Roamkit.Vouchers.Proof

open Lib Billing Vouchers

variable {c : CodeText} {raw code : String}

/-! ### The text behind a code -/

/-- The text that is put in upper case. -/
def stripped (c : CodeText) (raw : String) : List Char := PyText.trim (c.normalForm raw.toList)

theorem normalize_eq : normalizeVoucherCode c raw = String.ofList
    (c.capitals (stripped c raw)) := by
  unfold normalizeVoucherCode UnicodeData.upper PyText.strip UnicodeData.nfkc stripped
  rw [String.toList_ofList, String.toList_ofList]

theorem toList_normalize : (normalizeVoucherCode c raw).toList = c.capitals (stripped c raw) := by
  rw [normalize_eq, String.toList_ofList]

theorem settled_stripped : ∀ x ∈ stripped c raw, c.Settled x := by
  intro x hx
  obtain ⟨front, back, hcs, _, _⟩ := PyText.exists_trim (c.normalForm raw.toList)
  have hall : ∀ y ∈ c.normalForm raw.toList, c.Settled y := Ucd.settled_normalForm
  refine hall x ?_
  rw [hcs]
  exact List.mem_append_left _ (List.mem_append_right _ hx)

theorem trim_stripped : PyText.trim (stripped c raw) = stripped c raw := PyText.trim_trim _

/-- What is normalized twice. -/
theorem normalize_normalize : normalizeVoucherCode c (normalizeVoucherCode c raw)
    = String.ofList (c.capitals (PyText.trim (c.normalForm (c.capitals (stripped c raw))))) := by
  rw [normalize_eq, stripped, toList_normalize]

theorem normalize_twice_iff :
    normalizeVoucherCode c (normalizeVoucherCode c raw) = normalizeVoucherCode c raw ↔
      ∀ seq ∈ c.sequences (stripped c raw), c.normalForm (c.capitals seq) = c.capitals seq := by
  rw [normalize_normalize, normalize_eq, ← Ucd.twice_iff settled_stripped trim_stripped]
  exact ⟨String.ofList_injective, congrArg String.ofList⟩

theorem normalize_twice_of_ascii
    (h : isAscii (normalizeVoucherCode c (normalizeVoucherCode c raw)) = true) :
    normalizeVoucherCode c (normalizeVoucherCode c raw) = normalizeVoucherCode c raw := by
  rw [normalize_normalize] at h ⊢
  rw [normalize_eq, Ucd.twice_of_ascii settled_stripped trim_stripped]
  intro d hd
  refine of_decide_eq_true (List.all_eq_true.1 h d ?_)
  rwa [String.toList_ofList]

/-- A code within ASCII is its own normal form. -/
theorem normalize_of_ascii (h : isAscii (normalizeVoucherCode c raw) = true) :
    normalizeVoucherCode c (normalizeVoucherCode c raw) = normalizeVoucherCode c raw := by
  have hplain : ∀ d ∈ c.capitals (stripped c raw), c.decomposition d = [d] ∧ c.joins d = false := by
    intro d hd
    rw [← toList_normalize] at hd
    have hascii := c.ascii d (of_decide_eq_true (List.all_eq_true.1 h d hd))
    exact ⟨hascii.1, hascii.2.1⟩
  rw [normalize_normalize, normalize_eq, Ucd.normalForm_plain hplain,
    Ucd.trim_capitals trim_stripped, Ucd.capitals_capitals]

/-! ### The denylist -/

/-- Text outside ASCII cannot be compared, -/
theorem isOneOf_wide {reserved : String} {rest : List String} (h : isAscii code = false) :
    isOneOf code (reserved :: rest) = .error .typeError := by
  unfold isOneOf compareDigest
  rw [h, if_neg (by simp)]
  rfl

/-- and text within it is compared with each. -/
theorem isOneOf_ascii {codes : List String} (h : isAscii code = true)
    (hcodes : ∀ reserved ∈ codes, isAscii reserved = true) :
    isOneOf code codes = .ok (code ∈ codes) := by
  induction codes with
  | nil => rfl
  | cons reserved rest ih =>
    obtain ⟨hreserved, hrest⟩ := List.forall_mem_cons.1 hcodes
    unfold isOneOf compareDigest
    rw [if_pos ⟨h, hreserved⟩]
    by_cases hsame : code = reserved
    · simp [hsame, pure, Except.pure, bind, Except.bind]
    · simp [hsame, ih hrest, bind, Except.bind]

theorem reserved_ascii : ∀ reserved ∈ reservedVoucherCodes, isAscii reserved = true := by decide

/-- A code is looked for in the denylist when it is empty, or within ASCII. -/
theorem isReserved_eq : isReservedVoucherCode c code =
    if isAscii (normalizeVoucherCode c code) then
      .ok (normalizeVoucherCode c code ∈ reservedVoucherCodes)
    else .error .typeError := by
  unfold isReservedVoucherCode
  by_cases hempty : normalizeVoucherCode c code = ""
  · rw [if_pos hempty, hempty]
    decide
  · rw [if_neg hempty]
    by_cases hascii : isAscii (normalizeVoucherCode c code) = true
    · rw [if_pos hascii, isOneOf_ascii hascii reserved_ascii]
    · rw [if_neg hascii]
      exact isOneOf_wide (Bool.not_eq_true _ ▸ hascii)

/-- A code that was looked for is within ASCII, -/
theorem ascii_of_isReserved {b : Bool} (h : isReservedVoucherCode c code = .ok b) :
    isAscii (normalizeVoucherCode c code) = true := by
  by_contra hwide
  rw [isReserved_eq, if_neg hwide] at h
  cases h

/-- so that a normalized one was normal. -/
theorem normal_of_isReserved {b : Bool}
    (h : isReservedVoucherCode c (normalizeVoucherCode c raw) = .ok b) :
    normalizeVoucherCode c (normalizeVoucherCode c raw) = normalizeVoucherCode c raw :=
  normalize_twice_of_ascii (ascii_of_isReserved h)

end Roamkit.Vouchers.Proof

/-! ## The condition -/

namespace Roamkit.Vouchers.Proof

open Lib Billing Billing.Proof Vouchers

/-- A code in the form it is looked up in, that may be issued. -/
structure InOrder (c : CodeText) (code : String) : Prop where
  nonempty : code ≠ ""
  normal : normalizeVoucherCode c code = code
  unreserved : isReservedVoucherCode c code = .ok false

/-- The condition at a step. -/
structure IssuesInOrder (c : CodeText) (s : VoucherDb) (t : VoucherThread) : Prop where
  /-- What the add form stores as it is typed is normal, within ASCII, and not reserved. -/
  typed : ∀ typed d code, t.call = .addForm typed d → formCode typed = some code →
    normalizeVoucherCode c code = code ∧ isReservedVoucherCode c code = .ok false
  /-- `save_campaign` is not given the empty code. -/
  blank : ∀ id expected fields, t.call = .saveCampaign id expected fields → .code (some "") ∉ fields
  /-- No voucher has come to have the code of a campaign that is inserted, -/
  campaign : ∀ code d, t.pc = .inserting (some code) d → ∀ v ∈ s.vouchers, v.code ≠ code
  /-- or saved, -/
  save : ∀ locked row code, t.pc = .saving locked row → row.code = some code →
    ∀ v ∈ s.vouchers, v.code ≠ code
  /-- and no campaign that of a voucher that is issued, -/
  voucher : ∀ code d, t.pc = .insertingVoucher code d → ∀ k ∈ s.campaigns, k.code ≠ some code
  /-- or of a batch. -/
  batch : ∀ d, t.pc = .drawing d → ¬ d.codes.length < d.size → ∀ code ∈ d.codes,
    ∀ k ∈ s.campaigns, k.code ≠ some code

/-! ## Codes that are accepted -/

variable (g : Config VoucherDb VoucherThread) {exclude : Option Uuid}

section Text

variable {c : CodeText} {s : VoucherDb}

theorem assertCodeAvailable_ok {raw code : String}
    (h : assertCodeAvailable c s raw exclude = .ok code) :
    code = normalizeVoucherCode c raw ∧ code ≠ "" ∧ isReservedVoucherCode c code = .ok false
      ∧ s.hasVoucherCode code = false ∧ s.hasCampaignCode code exclude = false := by
  unfold assertCodeAvailable at h
  dsimp only at h
  by_cases hempty : normalizeVoucherCode c raw = ""
  · rw [if_pos hempty] at h
    cases h
  · rw [if_neg hempty] at h
    obtain ⟨reserved, hreserved, h⟩ := bind_ok h
    cases reserved with
    | true => cases h
    | false =>
      rw [if_neg Bool.false_ne_true] at h
      split at h
      · cases h
      rename_i hvoucher
      split at h
      · cases h
      rename_i hcampaign
      obtain rfl : normalizeVoucherCode c raw = code := Except.ok.inj h
      exact ⟨rfl, hempty, hreserved, Bool.eq_false_iff.2 hvoucher, Bool.eq_false_iff.2 hcampaign⟩

/-- A code that is passed on was accepted. -/
theorem available_of_some {raw x : String} {code : Option String}
    (h : some <$> assertCodeAvailable c s raw exclude = .ok code) (hx : code = some x) :
    assertCodeAvailable c s raw exclude = .ok x := by
  obtain ⟨y, hy, hyx⟩ := map_ok h
  obtain rfl : y = x := Option.some.inj (hyx.trans hx)
  exact hy

/-- No voucher has a code that is accepted, -/
theorem voucher_ne_of_available {raw code : String}
    (h : assertCodeAvailable c s raw exclude = .ok code) : ∀ v ∈ s.vouchers, v.code ≠ code := by
  obtain ⟨_, _, _, hvoucher, _⟩ := assertCodeAvailable_ok h
  exact fun v hv => of_decide_eq_false (Bool.eq_false_iff.2 (List.any_eq_false.1 hvoucher v hv))

/-- and no campaign, where none is left out. -/
theorem campaign_ne_of_available {raw code : String}
    (h : assertCodeAvailable c s raw none = .ok code) :
    ∀ k ∈ s.campaigns, k.code ≠ some code := by
  obtain ⟨_, _, _, _, hcampaign⟩ := assertCodeAvailable_ok h
  intro k hk hcode
  exact List.any_eq_false.1 hcampaign k hk (by simp [hcode])

/-- The code of a campaign that is created was accepted, -/
theorem createCampaign_code {d : CampaignData} {code : Option String} {x : String}
    (h : createCampaign c s d = .ok code) (hx : code = some x) :
    ∃ raw, assertCodeAvailable c s raw none = .ok x := by
  unfold createCampaign at h
  split at h
  · cases h
  split at h
  · cases h
  split at h
  · cases h
    cases hx
  · split at h
    · cases h
      cases hx
    · exact ⟨_, available_of_some h hx⟩

/-- A code that is accepted is in order. -/
theorem inOrder_of_available {raw code : String}
    (h : assertCodeAvailable c s raw exclude = .ok code) : InOrder c code := by
  obtain ⟨rfl, hne, hreserved, _, _⟩ := assertCodeAvailable_ok h
  exact ⟨hne, normal_of_isReserved hreserved, hreserved⟩

end Text

/-! ## The invariant -/

structure CodesInv (c : CodeText) (s : VoucherDb) : Prop where
  vouchers : ∀ v ∈ s.vouchers, InOrder c v.code
  campaigns : ∀ k ∈ s.campaigns, ∀ code, k.code = some code → InOrder c code
  apart : ∀ v ∈ s.vouchers, ∀ k ∈ s.campaigns, k.code ≠ some v.code

/-- What is so of the codes a call has checked, and goes on to write: `P` of that of a campaign,
`Q` of those of vouchers. -/
def PendingOf (P Q : String → Prop) (t : VoucherThread) : Prop :=
  match t.pc with
  | .inserting code _ => ∀ x, code = some x → P x
  | .insertingVoucher code _ => Q code
  | .saving _ row => ∀ x, row.code = some x → P x
  | .drawing d => ∀ x ∈ d.codes, Q x
  | _ => True

def Pending (c : CodeText) (t : VoucherThread) : Prop := PendingOf (InOrder c) (InOrder c) t

/-- What is so of every code that a step of this call may check or take over. -/
structure Checks (c : CodeText) (s : VoucherDb) (t : VoucherThread)
    (P Q : String → Prop) : Prop where
  available : ∀ raw exclude code, assertCodeAvailable c s raw exclude = .ok code → P code
  availableNew : ∀ raw code, assertCodeAvailable c s raw none = .ok code → Q code
  typed : ∀ typed d code, t.call = .addForm typed d → formCode typed = some code → P code
  blank : ∀ id expected fields, t.call = .saveCampaign id expected fields → .code (some "") ∉ fields
  stored : ∀ k ∈ s.campaigns, ∀ x, k.code = some x → P x

section Preserved

variable {c : VoucherConfig} {s s' s₁ : VoucherDb} {t t' : VoucherThread} {P Q : String → Prop}

/-- The code of a campaign after one of its fields is set. -/
theorem setField_code {k row : VoucherCampaign} {field : CampaignField}
    (h : setField c.text s k field = .ok row)
    (hgiven : ∀ raw, field = .code (some raw) → raw ≠ "") (hP : Checks c.text s t P Q)
    (hk : ∀ x, k.code = some x → P x) : ∀ x, row.code = some x → P x := by
  cases field with
  | code value =>
    obtain ⟨code, hcode, h⟩ := bind_ok h
    cases h
    intro x hx
    unfold savedCode at hcode
    split at hcode
    · cases hcode
      cases hx
    · rename_i raw
      rw [if_neg (hgiven raw rfl)] at hcode
      exact hP.available _ _ _ (available_of_some hcode hx)
  | creditAmount value =>
    obtain ⟨_, _, h⟩ := bind_ok h
    cases h
    exact hk
  | _ =>
    cases h
    exact hk

theorem setFields_code {fields : List CampaignField} {k row : VoucherCampaign}
    (h : setFields c.text s k fields = .ok row)
    (hgiven : ∀ raw, .code (some raw) ∈ fields → raw ≠ "") (hP : Checks c.text s t P Q)
    (hk : ∀ x, k.code = some x → P x) : ∀ x, row.code = some x → P x := by
  induction fields generalizing k with
  | nil =>
    cases h
    exact hk
  | cons field fields ih =>
    obtain ⟨k', hk', h⟩ := bind_ok h
    refine ih h (fun raw hraw => hgiven raw (List.mem_cons_of_mem _ hraw)) ?_
    refine setField_code hk' ?_ hP hk
    rintro raw rfl
    exact hgiven raw List.mem_cons_self

/-- What the form passes on was typed. -/
theorem addForm_code {typed x : String} {code : Option String} (h : addForm s typed = .ok code)
    (hx : code = some x) : formCode typed = some x := by
  unfold addForm at h
  split at h
  · cases h
    cases hx
  · rename_i raw hraw
    split at h
    · cases h
    cases h
    exact hraw.trans hx

theorem pending_settle {r : Except Exc (VoucherDb × VoucherAnswer)} (h : s.settle t r = (s', t')) :
    PendingOf P Q t' := by
  unfold VoucherDb.settle at h
  split at h
  · cases h
    trivial
  · cases h
    trivial

theorem pending_checkCode {d : CampaignData} {r : Except Exc (Option String)}
    (hr : ∀ code, r = .ok code → ∀ x, code = some x → P x)
    (h : checkCode s t d r = (s', t')) : PendingOf P Q t' := by
  unfold checkCode at h
  split at h
  · cases h
    trivial
  · rename_i code
    cases h
    exact hr code rfl

theorem pending_beginSave {id : Uuid} {expected : Option Time} {fields : List CampaignField}
    (hP : Checks c.text s t P Q) (hcall : t.call = .saveCampaign id expected fields)
    (h : beginSave c s t id expected fields = (s', t')) : PendingOf P Q t' := by
  unfold beginSave at h
  split at h
  · cases h
    trivial
  · rename_i locked hlocked
    split at h
    · cases h
      trivial
    · rename_i row hrow
      cases h
      refine setFields_code (editCampaign_ok hrow).2 ?_ hP
        (hP.stored locked (Table.mem_of_find? hlocked))
      intro raw hraw hempty
      rw [hempty] at hraw
      exact hP.blank id expected fields hcall hraw

/-- No code is drawn before the first draw. -/
theorem pending_beginBatch {d : BatchData} {advisory : Bool}
    (h : beginBatch s t d advisory = (s', t')) : PendingOf P Q t' := by
  unfold beginBatch at h
  split at h
  · cases h
    trivial
  · split at h
    · split at h
      · cases h
        trivial
      · rename_i draw hdraw
        cases h
        obtain ⟨amount, _, hdraw⟩ := bind_ok hdraw
        cases hdraw
        exact fun y hy => absurd hy List.not_mem_nil
    · split at h
      · cases h
        trivial
      · split at h
        · cases h
          trivial
        · split at h
          · cases h
            trivial
          · rename_i draw hdraw
            cases h
            intro y hy
            rw [(drawFor_ok hdraw).2.2] at hy
            cases hy

theorem pending_begin {x : VoucherView} (hP : Checks c.text s t P Q)
    (h : beginVoucher c s t x = some (s', t')) : PendingOf P Q t' := by
  unfold beginVoucher at h
  split at h
  · split at h
    · cases h
      trivial
    · unfold seekVoucher at h
      split at h
      · cases h
        trivial
      · obtain ⟨_, h⟩ := whenFree_some h
        cases h
        trivial
  · -- `create_campaign`
    rename_i d hcall
    refine pending_checkCode ?_ (Option.some.inj h)
    intro code hcode y hy
    obtain ⟨raw, hraw⟩ := createCampaign_code hcode hy
    exact hP.available _ _ _ hraw
  · -- `issue_shared_campaign`
    rename_i raw d hcall
    refine pending_checkCode ?_ (Option.some.inj h)
    exact fun code hcode y hy => hP.available _ _ _ (available_of_some hcode hy)
  · -- the add form checks the campaigns only, and passes on what was typed
    rename_i typed d hcall
    refine pending_checkCode ?_ (Option.some.inj h)
    exact fun code hcode y hy => hP.typed typed d y hcall (addForm_code hcode hy)
  · rename_i id expected fields hcall
    obtain ⟨_, h⟩ := whenFree_some h
    exact pending_beginSave hP hcall h
  -- what is done in one transaction leaves nothing to be written
  · obtain ⟨_, h⟩ := whenFree_some h
    exact pending_settle h
  · obtain ⟨_, h⟩ := whenFree_some h
    exact pending_settle h
  · obtain ⟨_, h⟩ := whenFree_some h
    exact pending_settle h
  · obtain ⟨_, h⟩ := whenFree_some h
    exact pending_settle h
  · obtain ⟨_, h⟩ := whenFree_some h
    exact pending_settle h
  · obtain ⟨_, h⟩ := whenFree_some h
    exact pending_settle h
  · exact pending_beginBatch (Option.some.inj h)
  · -- `issue_unique_voucher`
    rename_i d hcall
    split at h
    · cases h
      trivial
    · rename_i code hcode
      cases h
      exact hP.availableNew _ _ hcode
  · split at h
    · cases h
      trivial
    · cases h
      trivial

theorem pending_check {source : RedemptionSource} {now : Time}
    {check : RedeemRequest → Except Exc Verdict}
    (h : checkStep s t source now check = some (s', t')) : PendingOf P Q t' := by
  unfold checkStep at h
  split at h
  · obtain h := Option.some.inj h
    unfold decideRedeem at h
    split at h
    · cases h
      trivial
    · cases h
      trivial
    · cases h
      trivial
  · cases h

theorem pending_step {x : VoucherInput} (hP : Checks c.text s t P Q)
    (hL : ∀ d, t.pc = .drawing d → ∀ y ∈ d.codes, Q y) (h : voucherStep c s t x = some (s', t')) :
    PendingOf P Q t' := by
  unfold voucherStep at h
  split at h
  · split at h
    · cases h
      trivial
    · cases h
  · split at h
    · exact pending_begin hP h
    · unfold seekCampaign at h
      split at h
      · cases h
        trivial
      · obtain ⟨_, h⟩ := whenFree_some h
        cases h
        trivial
    · exact pending_check h
    · exact pending_check h
    · unfold grantStep at h
      split at h
      · exact pending_settle (Option.some.inj h)
      · cases h
    · exact pending_settle (Option.some.inj h)
    · exact pending_settle (Option.some.inj h)
    · exact pending_settle (Option.some.inj h)
    · rename_i x d hpc
      obtain h := Option.some.inj h
      unfold drawStep at h
      split at h
      · split at h
        · cases h
          trivial
        · rename_i d' hd'
          cases h
          intro y hy
          rcases (drawCode_ok hd').2 with hsame | ⟨code, hcode, hmore⟩
          · -- the code that was drawn is taken, and another one is drawn
            rw [hsame] at hy
            exact hL d hpc y hy
          · rw [hmore, List.mem_append, List.mem_singleton] at hy
            rcases hy with hy | rfl
            · exact hL d hpc y hy
            · exact hP.availableNew _ _ hcode
      · exact pending_settle h
    · cases h
    · cases h

/-- What a step of the condition checks or takes over is in order, -/
theorem checks_inOrder (hG : CodesInv c.text s) (hok : IssuesInOrder c.text s t) :
    Checks c.text s t (InOrder c.text) (InOrder c.text) where
  available _ _ _ := inOrder_of_available
  availableNew _ _ := inOrder_of_available
  typed typed d code hcall hraw := by
    obtain ⟨hnormal, hunreserved⟩ := hok.typed typed d code hcall hraw
    refine ⟨?_, hnormal, hunreserved⟩
    unfold formCode at hraw
    split at hraw
    · cases hraw
    · rename_i hne
      exact Option.some.inj hraw ▸ hne
  blank := hok.blank
  stored k hk x := hG.campaigns k hk x

/-- No voucher has the code. -/
def NoVoucher (s : VoucherDb) (code : String) : Prop := ∀ v ∈ s.vouchers, v.code ≠ code

/-- No campaign has the code, or the batch has drawn it before. -/
def NoCampaign (s : VoucherDb) (t : VoucherThread) (code : String) : Prop :=
  (∀ k ∈ s.campaigns, k.code ≠ some code) ∨ ∃ d, t.pc = .drawing d ∧ code ∈ d.codes

/-- and, but for what is typed into the add form, not in the other table. -/
theorem checks_free (hG : CodesInv c.text s) (hform : ∀ typed d, t.call ≠ .addForm typed d)
    (hok : IssuesInOrder c.text s t) : Checks c.text s t (NoVoucher s) (NoCampaign s t) where
  available _ _ _ := voucher_ne_of_available
  availableNew _ _ h := .inl (campaign_ne_of_available h)
  typed typed d _ hcall := absurd hcall (hform typed d)
  blank := hok.blank
  stored k hk x hx v hv hcode := hG.apart v hv k hk (by rw [hcode, hx])

/-- Where the code of a voucher comes from. -/
theorem voucher_code {v' : Voucher} (hm : VoucherMove s t s₁) (hv' : v' ∈ s₁.vouchers) :
    (∃ v ∈ s.vouchers, v.code = v'.code) ∨ (∃ d, t.pc = .insertingVoucher v'.code d)
      ∨ ∃ d, t.pc = .drawing d ∧ ¬ d.codes.length < d.size ∧ v'.code ∈ d.codes := by
  have hrewrite : ∀ {p : Voucher → Bool} {f : Voucher → Voucher},
      v' ∈ s.vouchers.rows.map (rewrite p f) → (∀ x, (f x).code = x.code) →
      ∃ v ∈ s.vouchers, v.code = v'.code := by
    intro p f hv' hcode
    obtain ⟨v, hv, rfl⟩ := List.mem_map.1 hv'
    refine ⟨v, hv, ?_⟩
    unfold Lib.rewrite
    split
    · exact (hcode v).symm
    · rfl
  cases hm with
  | @grants r source _ _ _ _ _ _ _ hg =>
    obtain ⟨_, _, _, _, _, _, _, rfl⟩ := grant_ok hg
    cases source with
    | campaign _ => exact .inl ⟨v', hv', rfl⟩
    | voucher _ => exact .inl (hrewrite hv' fun _ => rfl)
  | issues hpc hcode _ _ _ hi =>
    obtain ⟨_, vouchers, hinsert, rfl⟩ := insertVoucher_ok hi
    rcases (Table.mem_insert hinsert).1 hv' with hv | rfl
    · exact .inl ⟨v', hv, rfl⟩
    · exact .inr (.inl ⟨_, hcode ▸ hpc⟩)
  | saves _ hs =>
    unfold VoucherDb.saveCampaign at hs
    obtain ⟨_, _, rfl⟩ := Option.map_eq_some_iff.1 hs
    exact .inl ⟨v', hv', rfl⟩
  | @draws d batch ids now _ hpc hfull hb =>
    obtain ⟨_, vouchers, _, rfl, hrows⟩ := createBatch_ok hb
    have hv' : v' ∈ vouchers.rows := hv'
    rw [hrows, List.mem_append] at hv'
    rcases hv' with hv | hv
    · exact .inl ⟨v', hv, rfl⟩
    · obtain ⟨⟨code, i⟩, hi, rfl⟩ := List.mem_map.1 hv
      exact .inr (.inr ⟨d, hpc, hfull, (List.mem_zipIdx' hi).2 ▸ List.getElem_mem _⟩)
  | prolongs _ _ _ _ _ => exact .inl (hrewrite hv' fun _ => rfl)
  | revokes _ => exact .inl (hrewrite hv' fun _ => rfl)
  | revokesCampaign _ _ _ => exact .inl (hrewrite hv' fun _ => rfl)
  | revokesBatch _ => exact .inl (hrewrite hv' fun _ => rfl)
  | _ => exact .inl ⟨v', hv', rfl⟩

/-- Where the code of a campaign comes from. -/
theorem campaign_code {k' : VoucherCampaign} (hm : VoucherMove s t s₁) (hk' : k' ∈ s₁.campaigns) :
    (∃ k ∈ s.campaigns, k.code = k'.code) ∨ (∃ d, t.pc = .inserting k'.code d)
      ∨ ∃ locked row, t.pc = .saving locked row ∧ row.code = k'.code := by
  have hrewrite : ∀ {p : VoucherCampaign → Bool} {f : VoucherCampaign → VoucherCampaign},
      k' ∈ s.campaigns.rows.map (rewrite p f) → (∀ x, (f x).code = x.code) →
      ∃ k ∈ s.campaigns, k.code = k'.code := by
    intro p f hk' hcode
    obtain ⟨k, hk, rfl⟩ := List.mem_map.1 hk'
    refine ⟨k, hk, ?_⟩
    unfold Lib.rewrite
    split
    · exact (hcode k).symm
    · rfl
  cases hm with
  | @grants r source _ _ _ _ _ _ _ hg =>
    obtain ⟨_, _, _, _, _, _, _, rfl⟩ := grant_ok hg
    cases source <;> exact .inl ⟨k', hk', rfl⟩
  | opens hpc hcode hi =>
    rcases (Table.mem_insert hi).1 hk' with hk | rfl
    · exact .inl ⟨k', hk, rfl⟩
    · exact .inr (.inl ⟨_, hcode ▸ hpc⟩)
  | issues _ _ _ _ _ hi =>
    obtain ⟨_, _, _, rfl⟩ := insertVoucher_ok hi
    exact .inl ⟨k', hk', rfl⟩
  | @saves locked row now _ hpc hs =>
    unfold VoucherDb.saveCampaign at hs
    obtain ⟨campaigns, hu, rfl⟩ := Option.map_eq_some_iff.1 hs
    obtain ⟨k, hk, hkk⟩ := (Table.mem_update? hu).1 hk'
    unfold Lib.rewrite at hkk
    split at hkk
    · subst hkk
      exact .inr (.inr ⟨locked, row, hpc, rfl⟩)
    · exact .inl ⟨k, hk, by rw [hkk]⟩
  | draws _ _ hb =>
    obtain ⟨_, _, _, rfl, _⟩ := createBatch_ok hb
    exact .inl ⟨k', hk', rfl⟩
  | restates _ _ _ _ => exact .inl (hrewrite hk' fun _ => rfl)
  | revokesCampaign _ _ _ => exact .inl (hrewrite hk' fun _ => rfl)
  | _ => exact .inl ⟨k', hk', rfl⟩

theorem codesInv_move (h : CodesInv c.text s) (hL : Pending c.text t)
    (hok : IssuesInOrder c.text s t) (hm : VoucherMove s t s₁) : CodesInv c.text s₁ := by
  unfold Pending PendingOf at hL
  refine ⟨?_, ?_, ?_⟩
  · intro v' hv'
    rcases voucher_code hm hv' with ⟨v, hv, hcode⟩ | ⟨d, hpc⟩ | ⟨d, hpc, _, hcode⟩
    · rw [← hcode]
      exact h.vouchers v hv
    · rw [hpc] at hL
      exact hL
    · rw [hpc] at hL
      exact hL _ hcode
  · intro k' hk' code hk'code
    rcases campaign_code hm hk' with ⟨k, hk, hcode⟩ | ⟨d, hpc⟩ | ⟨locked, row, hpc, hcode⟩
    · exact h.campaigns k hk code (hcode.trans hk'code)
    · rw [hpc] at hL
      exact hL code hk'code
    · rw [hpc] at hL
      exact hL code (hcode.trans hk'code)
  · intro v' hv' k' hk' hsame
    -- one of the two rows was there before, and the other is not of its code
    rcases voucher_code hm hv' with ⟨v, hv, hvcode⟩ | ⟨d, hpc⟩ | ⟨d, hpc, hfull, hvcode⟩
    · rw [← hvcode] at hsame
      rcases campaign_code hm hk' with ⟨k, hk, hcode⟩ | ⟨d, hpc⟩ | ⟨locked, row, hpc, hcode⟩
      · exact h.apart v hv k hk (hcode.trans hsame)
      · rw [hsame] at hpc
        exact hok.campaign v.code d hpc v hv rfl
      · exact hok.save locked row v.code hpc (hcode.trans hsame) v hv rfl
    · rcases campaign_code hm hk' with ⟨k, hk, hcode⟩ | ⟨d', hpc'⟩ | ⟨locked, row, hpc', _⟩
      · exact hok.voucher v'.code d hpc k hk (hcode.trans hsame)
      · cases hpc.symm.trans hpc'
      · cases hpc.symm.trans hpc'
    · rcases campaign_code hm hk' with ⟨k, hk, hcode⟩ | ⟨d', hpc'⟩ | ⟨locked, row, hpc', _⟩
      · exact hok.batch d hpc hfull v'.code hvcode k hk (hcode.trans hsame)
      · cases hpc.symm.trans hpc'
      · cases hpc.symm.trans hpc'

end Preserved

/-! ## Every run -/

theorem codesInvariant (c : VoucherConfig) :
    Invariant (voucherProgram c) (CodesInv c.text) (fun s t _ => IssuesInOrder c.text s t)
      (CodesInv c.text) (fun _ => Pending c.text) (fun _ _ => True) where
  init := id
  start := fun _ _ => trivial
  apart_start := fun _ _ => trivial
  symm := fun _ => trivial
  step := by
    intro s t x s' t' hG hL hok h
    obtain ⟨s₁, hm, hs'⟩ := (voucherStep_stepped h).move
    have hG₁ := codesInv_move hG hL hok hm
    have hdrawn : ∀ d, t.pc = .drawing d → ∀ y ∈ d.codes, InOrder c.text y := by
      intro d hpc
      unfold Pending PendingOf at hL
      rwa [hpc] at hL
    refine ⟨?_, pending_step (checks_inOrder hG hok) hdrawn h⟩
    rw [hs']
    exact ⟨hG₁.vouchers, hG₁.campaigns, hG₁.apart⟩
  frame := fun _ _ _ _ hu _ => ⟨hu, trivial⟩

/-- Every code is in order, stands on one row, and leads to that row. -/
structure CodesSound (c : CodeText) (s : VoucherDb) : Prop where
  vouchers : ∀ v ∈ s.vouchers, InOrder c v.code
  campaigns : ∀ k ∈ s.campaigns, ∀ code, k.code = some code → InOrder c code
  once : ∀ v ∈ s.vouchers, ∀ q ∈ s.vouchers, v.code = q.code → v = q
  onceShared : ∀ k ∈ s.campaigns, ∀ q ∈ s.campaigns, k.code ≠ none → k.code = q.code → k = q
  apart : ∀ v ∈ s.vouchers, ∀ k ∈ s.campaigns, k.code ≠ some v.code
  finds : ∀ v ∈ s.vouchers, v.redemptionMode = .unique →
    s.findUnique (normalizeVoucherCode c v.code) = some v
  findsShared : ∀ k ∈ s.campaigns, ∀ code, k.code = some code → k.redemptionMode = .shared →
    s.findUnique (normalizeVoucherCode c code) = none
      ∧ s.findShared (normalizeVoucherCode c code) = some k

theorem codesSound_of_inv {c : CodeText} {s : VoucherDb} (h : CodesInv c s) : CodesSound c s := by
  refine ⟨h.vouchers, h.campaigns, ?_, ?_, h.apart, ?_, ?_⟩
  · exact fun v hv q hq hcode => Table.eq_of_clash hv hq (.inr hcode)
  · exact fun k hk q hq hsome hcode => Table.eq_of_clash hk hq (.inr ⟨hcode, hsome⟩)
  · intro v hv hunique
    rw [(h.vouchers v hv).normal]
    refine Table.find?_of_mem hv (by simp [hunique]) ?_
    intro x hx
    rw [Bool.and_eq_true] at hx
    exact .inr (of_decide_eq_true hx.1)
  · intro k hk code hcode hshared
    rw [(h.campaigns k hk code hcode).normal]
    constructor
    · refine Table.find?_eq_none.2 ?_
      intro v hv hfound
      rw [Bool.and_eq_true] at hfound
      exact h.apart v hv k hk (by rw [of_decide_eq_true hfound.1, hcode])
    · refine Table.find?_of_mem hk (by simp [hcode, hshared]) ?_
      intro x hx
      rw [Bool.and_eq_true] at hx
      have hx := of_decide_eq_true hx.1
      exact .inr ⟨hx.trans hcode.symm, by rw [hx]; exact Option.some_ne_none _⟩

/--
**Codes stay in order.** In every run whose steps meet the condition every code of
either table is non-empty, normal, not reserved and of one row, so that a redemption
that asks for it finds that row. When a call checks a code, no row of the other table
has it: what the condition asks at the write fails only where a write came between.
-/
theorem codes_sound {c : VoucherConfig} {g : Config VoucherDb VoucherThread}
    (h : (voucherProgram c).ReachWhere (CodesInv c.text)
      (fun s t _ => IssuesInOrder c.text s t) g) :
    CodesSound c.text g.store
      ∧ ∀ t x s' t', (∀ typed d, t.call ≠ .addForm typed d) → IssuesInOrder c.text g.store t →
        voucherStep c g.store t x = some (s', t') →
        PendingOf (NoVoucher g.store) (NoCampaign g.store t) t' := by
  have hG := ((codesInvariant c).reach h).store
  refine ⟨codesSound_of_inv hG, ?_⟩
  intro t x s' t' hform hok hs
  exact pending_step (checks_free hG hform hok) (fun d hpc y hy => .inr ⟨d, hpc, hy⟩) hs

/-! ## Codes that are not in order -/

/-- No campaign and no voucher yet. -/
def noVouchers : VoucherDb := { oneVoucher with vouchers := .empty }

theorem codesInv_noVouchers : CodesInv asciiText noVouchers :=
  ⟨fun v hv => absurd hv (Table.not_mem_empty v), fun k hk => absurd hk (Table.not_mem_empty k),
    fun v hv => absurd hv (Table.not_mem_empty v)⟩

/-- A shared campaign under a code. -/
def sharedData (code : String) : CampaignData where
  code := some code
  redemptionMode := .shared
  rewardType := .fixedCredit
  creditAmount := ⟨5, 0⟩
  maxRedemptionsTotal := none
  maxRedemptionsPerAccount := some 1
  startsAt := none
  expiresAt := none
  status := .active

/-- A voucher under a code. -/
def uniqueData (code : String) : VoucherData := ⟨code, ⟨5, 0⟩, .active, none, none, none⟩

/-- The campaign the service made. -/
def hasSummer : Bool :=
  g.store.campaigns.rows.any (·.code = some "SUMMER2027")

theorem codes_sound_created : ∃ g, hasSummer g = true ∧ CodesSound asciiText g.store := by
  have hrun : ∃ g, (voucherProgram voucherConfig).ReachWhere (CodesInv asciiText)
      (fun s t _ => IssuesInOrder asciiText s t) g ∧ hasSummer g = true :=
    Program.reachWhere_check
      (fun s t _ =>
        (match t.call with
          | .createCampaign d => d.code = some " summer2027"
          | _ => false)
        && (match t.pc with
          | .asked => true
          | .inserting _ _ => s.vouchers.rows.isEmpty
          | _ => false))
      (by
        intro s t _ h
        rw [Bool.and_eq_true] at h
        obtain ⟨hcall, hpc⟩ := h
        split at hcall
        · rename_i d hd
          have hcode := of_decide_eq_true hcall
          refine ⟨?_, ?_, ?_, ?_, ?_, ?_⟩
          · intro typed d' code hd'
            cases hd.symm.trans hd'
          · intro id expected fields hd'
            cases hd.symm.trans hd'
          · intro code d' hins v hv
            rw [hins] at hpc
            rw [Table.mem_def, List.isEmpty_iff.1 hpc] at hv
            cases hv
          · intro locked row code hsaving
            rw [hsaving] at hpc
            cases hpc
          · intro code d' hins
            rw [hins] at hpc
            cases hpc
          · intro d' hdraw
            rw [hdraw] at hpc
            cases hpc
        · cases hcall)
      codesInv_noVouchers
      [.call 0 (.createCampaign (sharedData " summer2027")), .tick 0 (voucherView alice),
        .tick 0 (voucherView alice)]
      hasSummer (by decide)
  obtain ⟨g, hg, hend⟩ := hrun
  exact ⟨g, hend, (codes_sound hg).1⟩

/-- A campaign under a code that no redemption looks for. -/
def hasTyped : Bool :=
  g.store.campaigns.rows.any (·.code = some "summer2027")

/-- A campaign and a voucher under one code. -/
def hasTwice : Bool :=
  g.store.campaigns.rows.any (·.code = some "GIFT") && g.store.vouchers.rows.any (·.code = "GIFT")

/--
The add form stores what is typed, and of two calls that have both checked one code
each writes it to its own table.
-/
theorem codes_disorder :
    (∃ g, (voucherProgram voucherConfig).Reach (CodesInv asciiText) g
      ∧ ∃ k ∈ g.store.campaigns, k.code = some "summer2027"
        ∧ normalizeVoucherCode asciiText "summer2027" ≠ "summer2027")
    ∧ ∃ g, (voucherProgram voucherConfig).Reach (CodesInv asciiText) g
      ∧ ∃ k ∈ g.store.campaigns, ∃ v ∈ g.store.vouchers, k.code = some v.code := by
  refine ⟨?_, ?_⟩
  · obtain ⟨g, hr, hend⟩ := Program.run_check (voucherProgram voucherConfig) noVouchers
      [.call 0 (.addForm " summer2027" (sharedData "")), .tick 0 (voucherView alice),
        .tick 0 (voucherView alice)] hasTyped (by decide)
    obtain ⟨k, hk, hcode⟩ := List.any_eq_true.1 hend
    exact ⟨g, Program.reach_run codesInv_noVouchers hr, k, hk, of_decide_eq_true hcode, by decide⟩
  · obtain ⟨g, hr, hend⟩ := Program.run_check (voucherProgram voucherConfig) noVouchers
      [.call 0 (.createCampaign (sharedData "GIFT")),
        .call 1 (.issueUniqueVoucher (uniqueData "gift")),
        .tick 0 (voucherView alice), .tick 1 (voucherView bob), .tick 0 (voucherView alice),
        .tick 1 (voucherView bob)] hasTwice (by decide)
    unfold hasTwice at hend
    rw [Bool.and_eq_true, List.any_eq_true, List.any_eq_true] at hend
    obtain ⟨⟨k, hk, hkcode⟩, v, hv, hvcode⟩ := hend
    refine ⟨g, Program.reach_run codesInv_noVouchers hr, k, hk, v, hv, ?_⟩
    rw [of_decide_eq_true hkcode, of_decide_eq_true hvcode]

end Roamkit.Vouchers.Proof
