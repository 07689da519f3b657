import Roamkit.Lib.PyText

/-!
# Texts in lower and in upper case

White space has no case, so a text may be stripped before its case is changed or after.
-/

namespace Roamkit.Lib.PyText

/-! ## Lower case: one character -/

theorem toNat_toLower {ch : Char} (h : 65 ≤ ch.toNat ∧ ch.toNat ≤ 90) :
    ch.toLower.toNat = ch.toNat + 32 := by
  have hval : ch.val ≥ 'A'.val ∧ ch.val ≤ 'Z'.val :=
    ⟨UInt32.le_iff_toNat_le.2 h.1, UInt32.le_iff_toNat_le.2 h.2⟩
  unfold Char.toLower
  rw [dif_pos hval]
  show (ch.val + 32).toNat = ch.toNat + 32
  rw [UInt32.toNat_add]
  have hlt : ch.val.toNat + 32 < 2 ^ 32 := by
    have hle : ch.val.toNat ≤ 90 := h.2
    omega
  exact Nat.mod_eq_of_lt hlt

theorem toLower_of_not {ch : Char} (h : ¬ (65 ≤ ch.toNat ∧ ch.toNat ≤ 90)) : ch.toLower = ch := by
  unfold Char.toLower
  rw [dif_neg]
  intro hval
  exact h ⟨UInt32.le_iff_toNat_le.1 hval.1, UInt32.le_iff_toNat_le.1 hval.2⟩

theorem toLower_toLower (ch : Char) : ch.toLower.toLower = ch.toLower := by
  by_cases h : 65 ≤ ch.toNat ∧ ch.toNat ≤ 90
  · refine toLower_of_not ?_
    rw [toNat_toLower h]
    omega
  · rw [toLower_of_not h]
    exact toLower_of_not h

theorem isSpace_toLower (ch : Char) : isSpace ch.toLower = isSpace ch := by
  by_cases h : 65 ≤ ch.toNat ∧ ch.toNat ≤ 90
  · have hlower := toNat_toLower h
    rw [isSpace_of_letter (by omega), isSpace_of_letter (by omega)]
  · rw [toLower_of_not h]

/-! ## Lower case: a text -/

theorem trim_lower (cs : List Char) : trim (cs.map Char.toLower) = (trim cs).map Char.toLower :=
  trim_map isSpace_toLower cs

theorem lower_lower (s : String) : lower (lower s) = lower s := by
  unfold lower
  rw [String.toList_ofList, List.map_map]
  congr 1
  exact List.map_congr_left fun ch _ => toLower_toLower ch

theorem toList_lower_strip (s : String) :
    (lower (strip s)).toList = (trim s.toList).map Char.toLower := by
  unfold lower strip
  rw [String.toList_ofList, String.toList_ofList]

/-- A text that was stripped and lower-cased stays as it is. -/
theorem lower_strip_idem (s : String) : lower (strip (lower (strip s))) = lower (strip s) := by
  have hstrip : strip (lower (strip s)) = lower (strip s) := by
    have htrim : trim ((trim s.toList).map Char.toLower) = (trim s.toList).map Char.toLower := by
      rw [trim_lower, trim_trim]
    rw [strip, toList_lower_strip, htrim, ← toList_lower_strip, String.ofList_toList]
  rw [hstrip, lower_lower]

/-!
## Upper case

`str.upper` as far as its result can lie within ASCII: the small letters, and the few
characters outside ASCII that turn into capital ones. Every other character outside
ASCII has an upper case outside ASCII, and stands for itself here.
-/

/-- `str.upper` of one character. -/
def upperChar (ch : Char) : List Char :=
  match ch.toNat with
  | 0x131 => ['I']
  | 0x17f => ['S']
  | 0xdf => ['S', 'S']
  | 0xfb00 => ['F', 'F']
  | 0xfb01 => ['F', 'I']
  | 0xfb02 => ['F', 'L']
  | 0xfb03 => ['F', 'F', 'I']
  | 0xfb04 => ['F', 'F', 'L']
  | 0xfb05 => ['S', 'T']
  | 0xfb06 => ['S', 'T']
  | _ => [ch.toUpper]

/-- `s.upper()` -/
def upper (s : String) : String := String.ofList (s.toList.flatMap upperChar)

example : upper "not_active" = "NOT_ACTIVE" ∧ upper "ﬁniſhed" = "FINISHED" := by decide

/-! ### One character within ASCII -/

theorem toNat_toUpper {ch : Char} (h : 97 ≤ ch.toNat ∧ ch.toNat ≤ 122) :
    ch.toUpper.toNat = ch.toNat - 32 := by
  have hval : 'a'.val ≤ ch.val ∧ ch.val ≤ 'z'.val :=
    ⟨UInt32.le_iff_toNat_le.2 h.1, UInt32.le_iff_toNat_le.2 h.2⟩
  have hle : ch.val.toNat ≤ 122 := h.2
  have hge : 97 ≤ ch.val.toNat := h.1
  unfold Char.toUpper
  rw [dif_pos hval]
  show (ch.val + ('A'.val - 'a'.val)).toNat = ch.val.toNat - 32
  have hdiff : ('A'.val - 'a'.val).toNat = 2 ^ 32 - 32 := by decide
  rw [UInt32.toNat_add, hdiff]
  omega

theorem toUpper_of_not {ch : Char} (h : ¬ (97 ≤ ch.toNat ∧ ch.toNat ≤ 122)) : ch.toUpper = ch := by
  unfold Char.toUpper
  rw [dif_neg]
  intro hval
  exact h ⟨UInt32.le_iff_toNat_le.1 hval.1, UInt32.le_iff_toNat_le.1 hval.2⟩

theorem toUpper_toUpper (ch : Char) : ch.toUpper.toUpper = ch.toUpper := by
  by_cases h : 97 ≤ ch.toNat ∧ ch.toNat ≤ 122
  · refine toUpper_of_not ?_
    rw [toNat_toUpper h]
    omega
  · rw [toUpper_of_not h]
    exact toUpper_of_not h

theorem isSpace_toUpper (ch : Char) : isSpace ch.toUpper = isSpace ch := by
  by_cases h : 97 ≤ ch.toNat ∧ ch.toNat ≤ 122
  · have hupper := toNat_toUpper h
    rw [isSpace_of_letter (by omega), isSpace_of_letter (by omega)]
  · rw [toUpper_of_not h]

end Roamkit.Lib.PyText
