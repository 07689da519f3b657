import Roamkit.Proof.VoucherCodes

/-!
# Codes that are typed back

What a code has to be for a redemption to find it by the form it is stored in. The
upper case of a text in normal form need not be in normal form, and the denylist
cannot be looked through for a code outside ASCII.
-/

namespace Roamkit.Vouchers.Proof

open Lib Billing Billing.Proof Vouchers

variable {c : CodeText} {raw code : String}

/-! ## The property -/

/-- A code that is stored is found by whoever types it, and given to no other row. -/
structure TypedBack (c : CodeText) (code : String) : Prop where
  found : ∀ (s : VoucherDb) (r : RedeemRequest), r.code = code →
    ∀ v ∈ s.vouchers, v.code = code → v.redemptionMode = .unique →
      ∃ normalized, prepareRedeem ⟨true, true, c⟩ r = .ok normalized
        ∧ s.findUnique normalized = some v
  foundShared : ∀ (s : VoucherDb) (r : RedeemRequest), r.code = code →
    ∀ k ∈ s.campaigns, k.code = some code → k.redemptionMode = .shared →
      ∃ normalized, prepareRedeem ⟨true, true, c⟩ r = .ok normalized
        ∧ s.findShared normalized = some k
  recognised : ∀ (s : VoucherDb) (exclude : Option Uuid),
    ((∃ v ∈ s.vouchers, v.code = code)
      ∨ ∃ k ∈ s.campaigns, k.code = some code ∧ exclude ≠ some k.id) →
      assertCodeAvailable c s code exclude = .error .valueError

/-- What normalizing makes of a text is its own normal form. -/
def Idempotent (c : CodeText) (raw : String) : Prop :=
  normalizeVoucherCode c (normalizeVoucherCode c raw) = normalizeVoucherCode c raw

/-- A code that may be issued is found in the form it is stored in. -/
def FoundAsStored (c : CodeText) (raw : String) : Prop :=
  normalizeVoucherCode c raw ≠ "" → normalizeVoucherCode c raw ∉ reservedVoucherCodes →
    TypedBack c (normalizeVoucherCode c raw)

/-- The combining character sequences of a text are in normal form in upper case. -/
def StaysNormal (c : CodeText) (cs : List Char) : Prop :=
  ∀ seq ∈ c.sequences cs, c.normalForm (c.capitals seq) = c.capitals seq

/-- The characters of a text have upper cases within ASCII. -/
def AsciiCapitals (c : CodeText) (cs : List Char) : Prop :=
  ∀ x ∈ cs, ∀ d ∈ c.uppercase x, d.toNat < 128

/-! ## Codes within ASCII -/

theorem ascii_normalize_iff :
    isAscii (normalizeVoucherCode c raw) = true ↔ AsciiCapitals c (stripped c raw) := by
  unfold isAscii
  rw [toList_normalize, List.all_eq_true]
  constructor
  · intro h x hx d hd
    exact of_decide_eq_true (h d (List.mem_flatMap.2 ⟨x, hx, hd⟩))
  · intro h d hd
    obtain ⟨x, hx, hd⟩ := List.mem_flatMap.1 hd
    exact decide_eq_true (h x hx d hd)

/-- A normal code within ASCII gets through the checks of a redemption. -/
theorem prepareRedeem_ascii {r : RedeemRequest} (hcode : r.code = code)
    (hnormal : normalizeVoucherCode c code = code) (hascii : isAscii code = true) (hne : code ≠ "")
    (hreserved : code ∉ reservedVoucherCodes) : prepareRedeem ⟨true, true, c⟩ r = .ok code := by
  have hfree : isReservedVoucherCode c code = .ok false := by
    rw [isReserved_eq, hnormal, if_pos hascii, decide_eq_false hreserved]
  have henabled : VoucherConfig.requireEnabled ⟨true, true, c⟩ = .ok () := rfl
  unfold prepareRedeem
  simp only [henabled, hcode, hnormal, if_neg hne, hfree, bind, Except.bind]
  rfl

/-- One outside ASCII does not. -/
theorem prepareRedeem_wide {r : RedeemRequest} (hcode : r.code = code)
    (hnormal : normalizeVoucherCode c code = code) (hwide : isAscii code = false) :
    prepareRedeem ⟨true, true, c⟩ r = .error .typeError := by
  have hraise : isReservedVoucherCode c code = .error .typeError := by
    rw [isReserved_eq, hnormal, hwide]
    rfl
  have hne : code ≠ "" := by
    rintro rfl
    cases hwide
  have henabled : VoucherConfig.requireEnabled ⟨true, true, c⟩ = .ok () := rfl
  unfold prepareRedeem
  simp only [henabled, hcode, hnormal, if_neg hne, hraise, bind, Except.bind]

theorem typedBack_ascii (hnormal : normalizeVoucherCode c code = code)
    (hascii : isAscii code = true) (hne : code ≠ "")
    (hreserved : code ∉ reservedVoucherCodes) : TypedBack c code := by
  refine ⟨?_, ?_, ?_⟩
  · intro s r hr v hv hcode hunique
    refine ⟨code, prepareRedeem_ascii hr hnormal hascii hne hreserved, ?_⟩
    refine Table.find?_of_mem hv (by simp [hcode, hunique]) ?_
    intro x hx
    rw [Bool.and_eq_true] at hx
    exact .inr ((of_decide_eq_true hx.1).trans hcode.symm)
  · intro s r hr k hk hcode hshared
    refine ⟨code, prepareRedeem_ascii hr hnormal hascii hne hreserved, ?_⟩
    refine Table.find?_of_mem hk (by simp [hcode, hshared]) ?_
    intro x hx
    rw [Bool.and_eq_true] at hx
    have hx := of_decide_eq_true hx.1
    exact .inr ⟨hx.trans hcode.symm, by rw [hx]; exact Option.some_ne_none _⟩
  · intro s exclude htaken
    have hfree : isReservedVoucherCode c code = .ok false := by
      rw [isReserved_eq, hnormal, if_pos hascii, decide_eq_false hreserved]
    unfold assertCodeAvailable
    simp only [hnormal, if_neg hne, hfree, bind, Except.bind]
    rcases htaken with ⟨v, hv, hcode⟩ | ⟨k, hk, hcode, hexclude⟩
    · have hhas : s.hasVoucherCode code = true := List.any_eq_true.2 ⟨v, hv, decide_eq_true hcode⟩
      rw [hhas]
      rfl
    · have hhas : s.hasCampaignCode code exclude = true :=
        List.any_eq_true.2 ⟨k, hk, by simp [hcode, hexclude]⟩
      rw [hhas]
      simp

/-- The voucher of a code. -/
def voucherWith (code : String) : VoucherDb :=
  { oneVoucher with vouchers := ⟨[{ gift with code }], List.pairwise_singleton _ _⟩ }

/-- A code that is found when it is typed back is within ASCII. -/
theorem ascii_of_typedBack (hnormal : normalizeVoucherCode c code = code) (h : TypedBack c code) :
    isAscii code = true := by
  by_contra hwide
  have hmem : { gift with code } ∈ (voucherWith code).vouchers := List.mem_singleton.2 rfl
  have hraise :=
      prepareRedeem_wide (r := ⟨alice, code, "", alice⟩) rfl hnormal (Bool.not_eq_true _ ▸ hwide)
  obtain ⟨normalized, hprepare, -⟩ :=
    h.found (voucherWith code) ⟨alice, code, "", alice⟩ rfl _ hmem rfl rfl
  rw [hraise] at hprepare
  cases hprepare

/--
**When a code is its own normal form.** Normalizing twice is normalizing once exactly
when each combining character sequence stays in normal form in upper case; and a code
in normal form is found, and recognised, exactly when it is within ASCII.
-/
theorem normalize_iff (c : CodeText) (raw : String) :
    (Idempotent c raw ↔ StaysNormal c (PyText.strip (c.nfkc raw)).toList)
    ∧ (Idempotent c raw ∧ FoundAsStored c raw
      ↔ AsciiCapitals c (PyText.strip (c.nfkc raw)).toList) := by
  have htext : (PyText.strip (c.nfkc raw)).toList = stripped c raw := by
    unfold PyText.strip UnicodeData.nfkc stripped
    rw [String.toList_ofList, String.toList_ofList]
  rw [htext]
  refine ⟨normalize_twice_iff, ?_⟩
  rw [← ascii_normalize_iff]
  constructor
  · rintro ⟨hidem, hfound⟩
    by_cases hne : normalizeVoucherCode c raw = ""
    · rw [hne]
      rfl
    · by_cases hreserved : normalizeVoucherCode c raw ∈ reservedVoucherCodes
      · exact reserved_ascii _ hreserved
      · exact ascii_of_typedBack hidem (hfound hne hreserved)
  · intro hascii
    have hnormal := normalize_of_ascii hascii
    exact ⟨hnormal, typedBack_ascii hnormal hascii⟩

/-! ## A code that is not -/

/-- A row of the tables: a character, its decomposition, its combining class and its upper case. -/
structure CharRow where
  char : Char
  decomposition : List Char
  combining : Nat
  uppercase : List Char

/-- Iota with and without its accents, and the accents. -/
def iotaRows : List CharRow := [
  ⟨'ι', ['ι'], 0, ['Ι']⟩,
  ⟨'ϊ', ['ι', '\u0308'], 0, ['Ϊ']⟩,
  ⟨'ί', ['ι', '\u0301'], 0, ['Ί']⟩,
  ⟨'ΐ', ['ι', '\u0308', '\u0301'], 0, ['Ι', '\u0308', '\u0301']⟩,
  ⟨'Ϊ', ['Ι', '\u0308'], 0, ['Ϊ']⟩,
  ⟨'Ί', ['Ι', '\u0301'], 0, ['Ί']⟩,
  ⟨'\u0308', ['\u0308'], 230, ['\u0308']⟩,
  ⟨'\u0301', ['\u0301'], 230, ['\u0301']⟩]

def iotaComposites : List (Char × Char × Char) := [
  ('ι', '\u0308', 'ϊ'), ('ι', '\u0301', 'ί'), ('ϊ', '\u0301', 'ΐ'), ('Ι', '\u0308', 'Ϊ'),
  ('Ι', '\u0301', 'Ί')]

def iotaRow? (c : Char) : Option CharRow := iotaRows.find? (·.char = c)

/-- ASCII and iota; what lies outside is left as it is. -/
def iotaData : UnicodeData where
  decomposition c := ((iotaRow? c).map (·.decomposition)).getD [c]
  combining c := ((iotaRow? c).map (·.combining)).getD 0
  composite a m := (iotaComposites.find? fun row => row.1 = a && row.2.1 = m).map (·.2.2)
  joins c := ((iotaRow? c).map (·.combining)).getD 0 ≠ 0
  uppercase c := ((iotaRow? c).map (·.uppercase)).getD [c.toUpper]

/-- A character is one of the rows, or in none of them. -/
theorem iota_cases {p : Char → Prop} (hrows : ∀ row ∈ iotaRows, p row.char)
    (hother : ∀ c, iotaRow? c = none → p c) (c : Char) : p c := by
  cases hrow : iotaRow? c with
  | none => exact hother c hrow
  | some row =>
    have hchar := List.find?_some hrow
    rw [← of_decide_eq_true hchar]
    exact hrows row (List.mem_of_find?_eq_some hrow)

theorem mem_iotaComposites {a m p : Char} (h : iotaData.composite a m = some p) :
    (a, m, p) ∈ iotaComposites := by
  obtain ⟨row, hrow, rfl⟩ := Option.map_eq_some_iff.1 h
  have hsame := List.find?_some hrow
  rw [Bool.and_eq_true] at hsame
  rw [← of_decide_eq_true hsame.1, ← of_decide_eq_true hsame.2]
  exact List.mem_of_find?_eq_some hrow

/-- The rows lie outside ASCII, -/
theorem iotaRow?_toUpper {c : Char} (h : iotaRow? c = none) : iotaRow? c.toUpper = none := by
  by_cases hletter : 97 ≤ c.toNat ∧ c.toNat ≤ 122
  · refine List.find?_eq_none.2 fun row hrow hchar => ?_
    have hwide : ∀ row ∈ iotaRows, 128 ≤ row.char.toNat := by decide
    have hlarge := hwide row hrow
    rw [of_decide_eq_true hchar, PyText.toNat_toUpper hletter] at hlarge
    omega
  · rwa [PyText.toUpper_of_not hletter]

/-- and what has no row is as in ASCII. -/
theorem iota_other {c : Char} (h : iotaRow? c = none) :
    iotaData.decomposition c = [c] ∧ iotaData.combining c = 0 ∧ iotaData.joins c = false
      ∧ iotaData.uppercase c = [c.toUpper] := by
  unfold iotaData
  simp [h]

/-- What is in upper case keeps what it is made of. -/
theorem iota_capital (c : Char) : ∀ d ∈ iotaData.uppercase c, iotaData.Capital d := by
  have hrows : iotaRows.all (fun row => (iotaData.uppercase row.char).all fun d =>
      (iotaData.decomposition d).all (fun e => iotaData.uppercase e = [e])
      && (iotaData.decomposition d).countP PyText.isSpace = [d].countP PyText.isSpace
      && (iotaData.decomposition d).countP (!iotaData.joins ·) = [d].countP (!iotaData.joins ·)
      && (iotaData.joins d || iotaData.Detached (iotaData.decomposition d))
      && (iotaData.decomposition d).any fun e =>
        128 ≤ e.toNat && !PyText.isSpace e) = true := by decide
  simp only [List.all_eq_true, List.any_eq_true, Bool.and_eq_true, Bool.or_eq_true,
    decide_eq_true_eq, Bool.not_eq_true'] at hrows
  refine iota_cases (p := fun c => ∀ d ∈ iotaData.uppercase c, iotaData.Capital d) ?_ ?_ c
  · intro row hrow d hd
    obtain ⟨⟨⟨⟨hupper, hspaces⟩, hparts⟩, hhead⟩, hwide⟩ := hrows row hrow d hd
    refine ⟨hupper, hspaces, hparts, fun hjoins => hhead.resolve_left ?_, fun _ _ => hwide⟩
    rw [hjoins]
    exact Bool.false_ne_true
  · intro c hc d hd
    rw [(iota_other hc).2.2.2] at hd
    obtain rfl := List.mem_singleton.1 hd
    obtain ⟨hdecomposition, _, hjoins, huppercase⟩ := iota_other (iotaRow?_toUpper hc)
    refine ⟨?_, by rw [hdecomposition], by rw [hdecomposition], ?_, ?_⟩
    · intro e he
      rw [hdecomposition] at he
      rw [List.mem_singleton.1 he, huppercase, PyText.toUpper_toUpper]
    · intro _
      rw [hdecomposition]
      exact UnicodeData.detached_cons.2 hjoins
    · intro hlarge hspace
      rw [hdecomposition]
      exact ⟨_, List.mem_singleton.2 rfl, hlarge, hspace⟩

/-- The laws of the other columns, character by character. -/
structure CharLaws (c : Char) : Prop where
  terminal : ∀ d ∈ iotaData.decomposition c, iotaData.decomposition d = [d]
  combining_joins : iotaData.combining c ≠ 0 → iotaData.joins c = true
  space : PyText.isSpace c = true → iotaData.joins c = false ∧ iotaData.uppercase c = [c]
  ascii : c.toNat < 128 →
    iotaData.decomposition c = [c] ∧ iotaData.joins c = false ∧ iotaData.uppercase c = [c.toUpper]
  letters : PyText.isSpace c = false →
    iotaData.uppercase c ≠ [] ∧ ∀ d ∈ iotaData.uppercase c, PyText.isSpace d = false
  uppercase_twice : ∀ d ∈ iotaData.uppercase c, iotaData.uppercase d = [d]
  detached : iotaData.joins c = false → iotaData.Detached (iotaData.uppercase c)

theorem iota_laws : ∀ c, CharLaws c := by
  have hrows : iotaRows.all (fun row =>
      (iotaData.decomposition row.char).all (fun d => iotaData.decomposition d = [d])
      && (iotaData.combining row.char = 0 || iotaData.joins row.char)
      && !PyText.isSpace row.char && 128 ≤ row.char.toNat
      && !(iotaData.uppercase row.char).isEmpty
      && (iotaData.uppercase row.char).all (fun d => !PyText.isSpace d)
      && (iotaData.uppercase row.char).all (fun d => iotaData.uppercase d = [d])
      && (iotaData.joins row.char || iotaData.Detached (iotaData.uppercase row.char))) = true := by
        decide
  simp only [List.all_eq_true, Bool.and_eq_true, Bool.or_eq_true, decide_eq_true_eq,
    Bool.not_eq_true', List.isEmpty_eq_false_iff] at hrows
  refine iota_cases ?_ ?_
  · intro row hrow
    obtain ⟨⟨⟨⟨⟨⟨⟨hterminal, hcombining⟩, hspace⟩, hwide⟩, hne⟩, hletters⟩, htwice⟩, hdetached⟩ :=
      hrows row hrow
    refine ⟨hterminal, fun h => hcombining.resolve_left h,
      fun h => absurd (hspace.symm.trans h) Bool.false_ne_true,
      fun h => absurd h (by omega), fun _ => ⟨hne, hletters⟩, htwice, fun hjoins =>
        hdetached.resolve_left ?_⟩
    rw [hjoins]
    exact Bool.false_ne_true
  · intro c hc
    obtain ⟨hdecomposition, hcombining, hjoins, huppercase⟩ := iota_other hc
    refine ⟨?_, fun h => absurd hcombining h, ?_,
      fun _ => ⟨hdecomposition, hjoins, huppercase⟩, ?_, ?_, ?_⟩
    · intro d hd
      rw [hdecomposition] at hd
      rw [List.mem_singleton.1 hd, hdecomposition]
    · intro hspace
      refine ⟨hjoins, ?_⟩
      rw [huppercase, PyText.toUpper_of_not]
      intro hletter
      rw [PyText.isSpace_of_letter (by omega)] at hspace
      cases hspace
    · intro hspace
      rw [huppercase]
      refine ⟨List.cons_ne_nil _ _, fun d hd => ?_⟩
      rw [List.mem_singleton.1 hd, PyText.isSpace_toUpper, hspace]
    · intro d hd
      rw [huppercase] at hd
      rw [List.mem_singleton.1 hd, (iota_other (iotaRow?_toUpper hc)).2.2.2, PyText.toUpper_toUpper]
    · intro _
      rw [huppercase]
      exact UnicodeData.detached_cons.2 (iota_other (iotaRow?_toUpper hc)).2.2.1

def iotaText : CodeText where
  toUnicodeData := iotaData
  terminal c := (iota_laws c).terminal
  combining_joins c := (iota_laws c).combining_joins
  composite_joins a m p h := by
    have hall : ∀ row ∈ iotaComposites,
        iotaData.joins row.2.1 = true ∧ iotaData.joins row.2.2 = iotaData.joins row.1 := by decide
    exact hall _ (mem_iotaComposites h)
  composite_space a m p h := by
    have hall : ∀ row ∈ iotaComposites, PyText.isSpace row.1 = false
        ∧ PyText.isSpace row.2.1 = false ∧ PyText.isSpace row.2.2 = false := by decide
    exact hall _ (mem_iotaComposites h)
  composite_wide a m p h := by
    have hall : ∀ row ∈ iotaComposites, 128 ≤ row.2.2.toNat := by decide
    exact hall _ (mem_iotaComposites h)
  composite_upper a m p h := by
    have hall : ∀ row ∈ iotaComposites, iotaData.uppercase row.1 = [row.1] →
        iotaData.uppercase row.2.1 = [row.2.1] → iotaData.uppercase row.2.2 = [row.2.2] := by decide
    exact hall _ (mem_iotaComposites h)
  space c := (iota_laws c).space
  ascii c := (iota_laws c).ascii
  letters c := (iota_laws c).letters
  uppercase_twice c := (iota_laws c).uppercase_twice
  detached c _ := (iota_laws c).detached
  capital c _ := iota_capital c

/--
Iota with dialytika and tonos is put in upper case as three characters, the first two
of which normalizing composes; and a voucher under an accented capital is in its
table, but neither redeemed nor recognised.
-/
theorem normalize_iota :
    normalizeVoucherCode iotaText (normalizeVoucherCode iotaText "ΐ")
      ≠ normalizeVoucherCode iotaText "ΐ"
    ∧ normalizeVoucherCode iotaText "ί" = "Ί" ∧ normalizeVoucherCode iotaText "Ί" = "Ί"
    ∧ (voucherWith "Ί").findUnique "Ί" ≠ none
    ∧ prepareRedeem ⟨true, true, iotaText⟩ ⟨alice, "Ί", "", alice⟩ = .error .typeError
    ∧ assertCodeAvailable iotaText (voucherWith "Ί") "Ί" none = .error .typeError := by
  refine ⟨by decide, by decide, by decide, by decide, rfl, rfl⟩

end Roamkit.Vouchers.Proof
