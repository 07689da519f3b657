import Roamkit.Billing.Deposit
import Roamkit.Proof.Credit

/-!
# Amounts of money

`_normalize_amount` rounds before it looks at the range, and rounding is refused by the
context from 28 digits on. So the amounts from `10 ^ 22` on that are numbers leave the
function with another error than the one it documents, and no others do.
-/

namespace Roamkit.Billing.Proof

open Lib

/-- The number an amount stands for, whether or not it can be written out. -/
def amountValue : RawAmount → Option PyDecimal
  | .decimal d => some d
  | .int n => some (.finite ⟨n, 0⟩)
  | .str s => PyDecimal.ofStr s

/-- An amount is answered as documented: with its value, halves up, as a positive number of
millionths that fits a column, or with `InvalidAmountError` by every entry point. -/
def Answered (amount : RawAmount) : Prop :=
  (∃ a d, normalizeAmount amount = .ok a ∧ amountValue amount = some (.finite d)
    ∧ a.micros = d.units 6)
    ∨ ∃ reason, normalizeAmount amount = .error (.invalidAmount reason)
      ∧ (∀ account type referenceId key credit,
          preparePosting account amount type referenceId key credit
            = .error (.invalidAmount reason))
      ∧ ∀ (c : DepositSettings) (a : VerifyArgs)
        (method : PaymentMethod), a.amountRequested = amount →
          c.billingEnabled = true → a.idempotencyKey ≠ ""
            → normalizePaymentMethod a.paymentMethod = .ok method →
          a.normalize c = .error (.invalidAmount reason)

theorem preparePosting_refused {account : Uuid} {amount : RawAmount} {type : RawReferenceType}
    {referenceId key : String} {credit : Bool} {e : Exc} (h : normalizeAmount amount = .error e) :
    preparePosting account amount type referenceId key credit = .error e := by
  unfold preparePosting
  rw [h]
  rfl

theorem normalize_refused {c : DepositSettings} {a : VerifyArgs} {method : PaymentMethod} {e : Exc}
    (h : normalizeAmount a.amountRequested = .error e) (hbilling : c.billingEnabled = true)
    (hkey : a.idempotencyKey ≠ "") (hmethod : normalizePaymentMethod a.paymentMethod = .ok method) :
    a.normalize c = .error e := by
  unfold VerifyArgs.normalize
  rw [if_neg (not_not.2 hbilling), if_neg hkey, hmethod, h]
  rfl

/-- An error other than the documented one is no answer. -/
theorem answered_error {amount : RawAmount} {e : Exc} (h : normalizeAmount amount = .error e) :
    Answered amount ↔ ∃ reason, e = .invalidAmount reason := by
  constructor
  · rintro (⟨a, d, hok, -, -⟩ | ⟨reason, herror, -, -⟩)
    · rw [h] at hok
      cases hok
    · rw [h] at herror
      exact ⟨reason, Except.error.inj herror⟩
  · rintro ⟨reason, rfl⟩
    refine .inr ⟨reason, h, fun _ _ _ _ _ => preparePosting_refused h, ?_⟩
    rintro c a method rfl hbilling hkey hmethod
    exact normalize_refused h hbilling hkey hmethod

/-- What is done with an amount that was read. -/
theorem answered_finite {amount : RawAmount} {d : Dec} (hread : toDecimal amount = some (.finite d))
    (hvalue : amountValue amount = some (.finite d)) :
    Answered amount ↔ (d.units 6).natAbs < 10 ^ precision := by
  by_cases hfits : (d.units 6).natAbs < 10 ^ precision
  · have hquantize : d.quantize 6 = some (d.units 6) := if_pos hfits
    have hnormal : normalizeAmount amount
        = if h : 0 < d.units 6 then
            if h' : d.units 6 < maxMoney then .ok ⟨d.units 6, h, h'⟩
              else .error (.invalidAmount .outOfRange)
          else .error (.invalidAmount .notPositive) := by
      simp only [normalizeAmount, hread, hquantize]
    refine ⟨fun _ => hfits, fun _ => ?_⟩
    by_cases hpos : 0 < d.units 6
    · rw [dif_pos hpos] at hnormal
      by_cases hlt : d.units 6 < maxMoney
      · rw [dif_pos hlt] at hnormal
        exact .inl ⟨_, d, hnormal, hvalue, rfl⟩
      · rw [dif_neg hlt] at hnormal
        exact (answered_error hnormal).2 ⟨_, rfl⟩
    · rw [dif_neg hpos] at hnormal
      exact (answered_error hnormal).2 ⟨_, rfl⟩
  · have hquantize : d.quantize 6 = none := if_neg hfits
    have hnormal : normalizeAmount amount = .error .invalidOperation := by
      simp only [normalizeAmount, hread, hquantize]
    rw [answered_error hnormal]
    refine ⟨?_, fun hlt => absurd hlt hfits⟩
    rintro ⟨_, hinvalid⟩
    cases hinvalid

theorem units_int (n : Int) : (⟨n, 0⟩ : Dec).units 6 = n * 10 ^ 6 := by
  unfold Dec.units
  norm_num [Int.toNat]

/-- What `str` does not write has more digits than the context keeps. -/
theorem natAbs_of_unwritable {n : Int} (h : ¬ PyText.fitsStr n = true) :
    10 ^ precision ≤ n.natAbs := by
  have hdigits : precision ≤ PyText.maxStrDigits := by decide
  unfold PyText.fitsStr at h
  generalize PyText.maxStrDigits = digits at h hdigits
  rw [decide_eq_true_eq] at h
  exact (Nat.pow_le_pow_right (by omega) hdigits).trans (Nat.le_of_not_lt h)

/-- **An amount is answered as documented exactly when it is not a number that rounds to
`10 ^ 22` or more.** -/
theorem amount_answered_iff (amount : RawAmount) :
    Answered amount ↔ ∀ d, amountValue amount = some (.finite d)
      → (d.units 6).natAbs < 10 ^ precision := by
  have hone : ∀ d : Dec, amountValue amount = some (.finite d) →
      ((∀ d', amountValue amount = some (.finite d') → (d'.units 6).natAbs < 10 ^ precision)
        ↔ (d.units 6).natAbs < 10 ^ precision) := by
    intro d hd
    refine ⟨fun h => h d hd, fun h d' hd' => ?_⟩
    rw [hd] at hd'
    cases hd'
    exact h
  have hspecial : toDecimal amount = amountValue amount
    → (∀ d, amountValue amount ≠ some (.finite d)) →
      Answered amount := by
    intro hread hnumber
    cases hvalue : amountValue amount with
    | none =>
      have herror : normalizeAmount amount = .error (unreadable amount) := by
        unfold normalizeAmount
        rw [hread, hvalue]
      refine (answered_error herror).2 ?_
      cases amount with
      | int n => cases hvalue
      | _ => exact ⟨_, rfl⟩
    | some value =>
      have herror : normalizeAmount amount = .error (.invalidAmount .notFinite) := by
        unfold normalizeAmount
        rw [hread, hvalue]
        cases value with
        | finite d => exact absurd hvalue (hnumber d)
        | _ => rfl
      exact (answered_error herror).2 ⟨_, rfl⟩
  have hplain : toDecimal amount = amountValue amount →
      (Answered amount ↔ ∀ d, amountValue amount = some (.finite d)
        → (d.units 6).natAbs < 10 ^ precision) := by
    intro hread
    by_cases hnumber : ∃ d, amountValue amount = some (.finite d)
    · obtain ⟨d, hd⟩ := hnumber
      rw [hone d hd]
      exact answered_finite (hread.trans hd) hd
    · have hnone : ∀ d, amountValue amount ≠ some (.finite d) := fun d hd => hnumber ⟨d, hd⟩
      exact ⟨fun _ d hd => absurd hd (hnone d), fun _ => hspecial hread hnone⟩
  cases amount with
  | decimal d => exact hplain rfl
  | str s => exact hplain rfl
  | int n =>
    by_cases hfits : PyText.fitsStr n = true
    · refine hplain ?_
      unfold toDecimal
      dsimp only
      rw [if_pos hfits]
      rfl
    · -- an integer that cannot be written out is far beyond the context, and so is its message
      have herror : normalizeAmount (.int n) = .error .valueError := by
        have hread : toDecimal (.int n) = none := by
          unfold toDecimal
          dsimp only
          rw [if_neg hfits]
        unfold normalizeAmount
        rw [hread]
        rfl
      have hlarge := natAbs_of_unwritable hfits
      rw [answered_error herror, hone ⟨n, 0⟩ rfl, units_int]
      refine ⟨fun ⟨_, hc⟩ => (nomatch hc), fun hc => ?_⟩
      omega

/-- Beyond the range of the columns, and a digit beyond the context. -/
theorem amount_not_answered : normalizeAmount (.str "1e22") = .error .invalidOperation := by
  have hread : PyDecimal.ofStr "1e22" = some (.finite ⟨1, 22⟩) := by decide
  have hquantize : (⟨1, 22⟩ : Dec).quantize 6 = none := by decide
  unfold normalizeAmount toDecimal
  dsimp only
  rw [hread]
  dsimp only
  rw [hquantize]

end Roamkit.Billing.Proof
