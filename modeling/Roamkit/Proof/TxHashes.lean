import Mathlib.Data.Nat.Digits.Defs
import Roamkit.Lib.LetterCase
import Roamkit.Polygon.Provider

/-!
# What the three normalizers take for a transaction hash

A hash is sixty-four hexadecimal digits, in capitals or not, behind an `0x` or not. The
normalizers ask for the length of the text and for a number that `int(text, 16)` reads in
it, and `int` reads more than digits: underscores between them, and digits of any script.
-/

namespace Roamkit.Polygon.Proof

open Lib Billing Wallet

/-! ## What is asked for -/

/-- The normalizers of the three modules. -/
def normalizers : List (String → Except Exc String) :=
    [normalizeTxHash, normalizeObservedHash, fetchedTxHash]

variable (value : String) {c : Char} {cs : List Char}

/-- The text without what is around it and in small letters. -/
def hashText : List Char := (PyText.strip value).toList.map Char.toLower

/-- And without an `0x`. -/
def hashBody : List Char :=
  if (hashText value).take 2 = "0x".toList then (hashText value).drop 2 else hashText value

/-- The value spells a transaction hash. -/
def IsTxHash : Prop := (hashBody value).length = 64 ∧ ∀ c ∈ hashBody value, isHexDigit c = true

/-- The canonical spelling of a value. -/
def canonical : String := String.ofList ("0x".toList ++ hashBody value)

/-- The number that a hash is. -/
def hashNumber : Option Int := hexInt? ("0x".toList ++ hashBody value)

/-- The value has the length of a hash and is a number, but one that is not written in hexadecimal
digits. -/
def Loose : Prop :=
  (hashBody value).length = 64 ∧ isHexBody (hashBody value) = true
    ∧ ∃ c ∈ hashBody value, c = '_' ∨ 127 < c.toNat

/-- Each of the normalizers takes the value for what it is. -/
structure Normalized (value : String) : Prop where
  accepted : ∀ f ∈ normalizers, (∃ txHash, f value = .ok txHash) ↔ IsTxHash value
  same : ∀ f ∈ normalizers, ∀ txHash, f value = .ok txHash → txHash = canonical value
  idempotent : ∀ f ∈ normalizers, ∀ txHash, f value = .ok txHash → f txHash = .ok txHash

/-- Each of the two values is taken for what it is, and where they are one hash they become one
value. -/
structure NormalizedPair (value other : String) : Prop where
  left : Normalized value
  right : Normalized other
  one : ∀ f ∈ normalizers, ∀ g ∈ normalizers, ∀ txHash txHash', f value = .ok txHash
    → g other = .ok txHash' →
    hashNumber value = hashNumber other → txHash = txHash'

/-! ## Hexadecimal digits -/

/-- What there is to know of the characters in ASCII. -/
theorem ascii_table : ∀ n < 128, isHexDigit (Char.ofNat n) = isHex (Char.ofNat n)
    ∧ (isHexDigit (Char.ofNat n) = true
      → (Char.ofNat n ≠ '_' ∧ (Char.ofNat n).toLower = Char.ofNat n
      ∧ PyText.isSpace (Char.ofNat n) = false)
      ∧ hexDigit (Char.ofNat n) < 16 ∧ Nat.digitChar (hexDigit (Char.ofNat n)) = Char.ofNat n) := by
  decide

theorem isHexDigit_ascii (h : isHexDigit c = true) : c.toNat < 128 := by
  have hle : ∀ d : Char, c ≤ d → c.toNat ≤ d.toNat := fun d hd => hd
  unfold isHexDigit at h
  rw [Bool.or_eq_true, Bool.and_eq_true, Bool.and_eq_true] at h
  rcases h with ⟨-, h⟩ | ⟨-, h⟩
  · have hnine := hle _ (of_decide_eq_true h)
    have hto : '9'.toNat = 57 := rfl
    omega
  · have hf := hle _ (of_decide_eq_true h)
    have hto : 'f'.toNat = 102 := rfl
    omega

theorem ascii_of (h : c.toNat < 128) : isHexDigit c = isHex c
    ∧ (isHexDigit c = true → (c ≠ '_' ∧ c.toLower = c ∧ PyText.isSpace c = false)
      ∧ hexDigit c < 16 ∧ Nat.digitChar (hexDigit c) = c) := by
  have htable := ascii_table c.toNat h
  rw [Char.ofNat_toNat] at htable
  exact htable

/-- A digit is one that `int` reads, within ASCII. -/
theorem isHexDigit_iff : isHexDigit c = true ↔ isHex c = true ∧ c.toNat ≤ 127 := by
  constructor
  · intro h
    have hascii := isHexDigit_ascii h
    refine ⟨?_, by omega⟩
    rw [← (ascii_of hascii).1]
    exact h
  · rintro ⟨h, hascii⟩
    rw [(ascii_of (by omega)).1]
    exact h

theorem digit_plain (h : isHexDigit c = true) :
    c ≠ '_' ∧ c.toLower = c ∧ PyText.isSpace c = false :=
  ((ascii_of (isHexDigit_ascii h)).2 h).1

/-! ## Numbers of digits -/

/-- Without underscores, what `int` reads is a number of digits. -/
theorem isHexGroups_iff (h : '_' ∉ cs) :
    isHexGroups cs = true ↔ cs ≠ [] ∧ ∀ c ∈ cs, isHex c = true := by
  induction cs with
  | nil => exact iff_of_false Bool.false_ne_true fun hc => hc.1 rfl
  | cons c cs ih =>
    have ih := ih fun hc => h (List.mem_cons_of_mem _ hc)
    rw [List.forall_mem_cons, and_iff_right (List.cons_ne_nil c cs)]
    cases cs with
    | nil =>
      unfold isHexGroups
      exact (and_iff_left fun c hc => nomatch hc).symm
    | cons d cs =>
      have hd : d ≠ '_' := by
        rintro rfl
        exact h (List.mem_cons_of_mem _ List.mem_cons_self)
      have hstep : isHexGroups (c :: d :: cs) = (isHex c && isHexGroups (d :: cs)) := by
        rw [isHexGroups]
        · exact fun hc => nomatch hc
        · intro cs' hc
          exact hd (List.cons.inj hc).1
      rw [hstep, Bool.and_eq_true, ih, and_iff_right (List.cons_ne_nil d cs)]

theorem isHexBody_eq (h : '_' ∉ cs) : isHexBody cs = isHexGroups cs := by
  unfold isHexBody
  split
  · exact absurd List.mem_cons_self h
  · rfl

/-- A hash is a number of the length of a hash, in digits of ASCII without underscores. -/
theorem isTxHash_iff {value : String} : IsTxHash value
    ↔ ((hashBody value).length = 64 ∧ isHexBody (hashBody value) = true) ∧ ¬ Loose value := by
  constructor
  · rintro ⟨hlength, hdigits⟩
    have hplain : '_' ∉ hashBody value := fun hc => (digit_plain (hdigits _ hc)).1 rfl
    have hbody : isHexBody (hashBody value) = true := by
      rw [isHexBody_eq hplain, isHexGroups_iff hplain]
      refine ⟨fun hc => ?_, fun c hc => (isHexDigit_iff.1 (hdigits c hc)).1⟩
      rw [hc] at hlength
      cases hlength
    refine ⟨⟨hlength, hbody⟩, fun hloose => ?_⟩
    obtain ⟨-, -, c, hc, rfl | hwide⟩ := hloose
    · exact hplain hc
    · have hascii := (isHexDigit_iff.1 (hdigits c hc)).2
      omega
  · rintro ⟨⟨hlength, hbody⟩, hloose⟩
    have hneat : ∀ c ∈ hashBody value, c ≠ '_' ∧ c.toNat ≤ 127 := by
      intro c hc
      refine ⟨fun hcase => hloose ⟨hlength, hbody, c, hc, .inl hcase⟩,
        Nat.le_of_not_lt fun hcase => ?_⟩
      exact hloose ⟨hlength, hbody, c, hc, .inr hcase⟩
    have hplain : '_' ∉ hashBody value := fun hc => (hneat _ hc).1 rfl
    rw [isHexBody_eq hplain, isHexGroups_iff hplain] at hbody
    exact ⟨hlength, fun c hc => isHexDigit_iff.2 ⟨hbody.2 c hc, (hneat c hc).2⟩⟩

/-- Digits are told by the number they spell, as many of them. -/
theorem hexFold_inj {ds : List Char} (hcs : ∀ c ∈ cs, isHexDigit c = true)
    (hds : ∀ c ∈ ds, isHexDigit c = true) (hlength : cs.length = ds.length)
    (h : cs.foldl (fun n c => 16 * n + hexDigit c) 0
      = ds.foldl (fun n c => 16 * n + hexDigit c) 0) :
    cs = ds := by
  have hfold : ∀ xs : List Char, xs.foldl (fun n c => 16 * n + hexDigit c) 0
      = Nat.ofDigits 16 (xs.map hexDigit).reverse := by
    intro xs
    rw [Nat.ofDigits_eq_foldr, List.foldr_reverse, List.foldl_map]
    refine congrArg (fun f => List.foldl f 0 xs) ?_
    funext n c
    exact Nat.add_comm _ _
  have hlt : ∀ xs : List Char, (∀ c ∈ xs, isHexDigit c = true)
      → ∀ d ∈ (xs.map hexDigit).reverse, d < 16 := by
    intro xs hxs d hd
    obtain ⟨c, hc, rfl⟩ := List.mem_map.1 (List.mem_reverse.1 hd)
    exact ((ascii_of (isHexDigit_ascii (hxs c hc))).2 (hxs c hc)).2.1
  have hback : ∀ xs : List Char, (∀ c ∈ xs, isHexDigit c = true)
      → (xs.map hexDigit).map Nat.digitChar = xs := by
    intro xs hxs
    rw [List.map_map]
    refine (List.map_congr_left fun c hc => ?_).trans (List.map_id xs)
    exact ((ascii_of (isHexDigit_ascii (hxs c hc))).2 (hxs c hc)).2.2
  rw [hfold, hfold] at h
  have hdigits :=
    Nat.ofDigits_inj_of_len_eq (by decide) (by simpa using hlength) (hlt cs hcs) (hlt ds hds) h
  rw [← hback cs hcs, ← hback ds hds, List.reverse_injective hdigits]

/-! ## The normalizers -/

theorem zeroX : "0x".toList = ['0', 'x'] := by decide

theorem drop_zeroX (cs : List Char) : ("0x".toList ++ cs).drop 2 = cs := by
  rw [zeroX]
  rfl

theorem hashText_eq :
    (if (hashText value).take 2 = "0x".toList then hashText value
      else "0x".toList ++ hashText value)
      = "0x".toList ++ hashBody value := by
  unfold hashBody
  split
  · rename_i h
    rw [← h, List.take_append_drop]
  · rfl

theorem normalizeTxHash_eq : normalizeTxHash value
    = if (hashBody value).length = 64 ∧ isHexBody (hashBody value) = true then .ok (canonical value)
      else .error (.depositVerification ("Invalid transaction hash: " ++ PyText.repr value)) := by
  have hlength : ("0x".toList ++ hashBody value).length = 66 ↔ (hashBody value).length = 64 := by
    rw [List.length_append, zeroX, List.length_cons, List.length_singleton]
    omega
  unfold normalizeTxHash
  have htext := hashText_eq value
  unfold hashText at htext
  dsimp only
  rw [htext, drop_zeroX]
  simp only [hlength]
  rfl

/-- All of them take what is a number of the length of a hash, and make the same of it. -/
theorem normalizers_ok {f : String → Except Exc String} (hf : f ∈ normalizers)
    {value txHash : String} :
    f value = .ok txHash ↔ ((hashBody value).length = 64 ∧ isHexBody (hashBody value) = true)
      ∧ txHash = canonical value := by
  have hnormalize : normalizeTxHash value = .ok txHash
      ↔ ((hashBody value).length = 64 ∧ isHexBody (hashBody value) = true)
        ∧ txHash = canonical value := by
    rw [normalizeTxHash_eq]
    split
    · rename_i h
      rw [Except.ok.injEq, and_iff_right h]
      exact eq_comm
    · rename_i h
      exact iff_of_false (fun hc => nomatch hc) fun hc => h hc.1
  unfold normalizers at hf
  rcases List.mem_cons.1 hf with rfl | hf
  · exact hnormalize
  · rcases List.mem_cons.1 hf with rfl | hf
    · exact mapError_ok.trans hnormalize
    · obtain rfl := List.mem_singleton.1 hf
      exact mapError_ok.trans hnormalize

/-- What is around a text is taken off it once, and its letters are small. -/
theorem hashText_plain :
    PyText.trim (hashText value) = hashText value
      ∧ (hashText value).map Char.toLower = hashText value := by
  unfold hashText PyText.strip
  rw [String.toList_ofList]
  refine ⟨?_, ?_⟩
  · rw [PyText.trim_lower, PyText.trim_trim]
  · rw [List.map_map]
    exact List.map_congr_left fun c _ => PyText.toLower_toLower c

/-- The body is the end of the text. -/
theorem hashBody_end : ∃ front, hashText value = front ++ hashBody value := by
  unfold hashBody
  split
  · exact ⟨_, (List.take_append_drop 2 (hashText value)).symm⟩
  · exact ⟨[], rfl⟩

/-- A canonical spelling is spelt as it is. -/
theorem hashBody_canonical {value : String} (h : hashBody value ≠ []) :
    hashBody (canonical value) = hashBody value := by
  obtain ⟨htrimmed, hsmall⟩ := hashText_plain value
  obtain ⟨front, hfront⟩ := hashBody_end value
  have hlast : ∀ xs : List Char, (xs ++ hashBody value).getLast? = (hashBody value).getLast? := by
    intro xs
    rw [List.getLast?_append, Option.or_of_isSome]
    rw [List.getLast?_isSome]
    exact h
  have htrim : PyText.trim ("0x".toList ++ hashBody value) = "0x".toList ++ hashBody value := by
    refine PyText.trim_eq_self_iff.2 ⟨?_, ?_⟩
    · rw [zeroX]
      intro c hc
      obtain rfl := Option.some.inj hc
      decide
    · rw [hlast, ← hlast front, ← hfront]
      exact (PyText.trim_eq_self_iff.1 htrimmed).2
  have hlower : ("0x".toList ++ hashBody value).map Char.toLower
      = "0x".toList ++ hashBody value := by
    rw [hfront, List.map_append] at hsmall
    rw [List.map_append, (List.append_inj' hsmall (List.length_map _)).2]
    rfl
  have htext : hashText (canonical value) = "0x".toList ++ hashBody value := by
    unfold hashText canonical PyText.strip
    rw [String.toList_ofList, String.toList_ofList, htrim, hlower]
  have htake : ("0x".toList ++ hashBody value).take 2 = "0x".toList := by
    rw [zeroX]
    rfl
  rw [hashBody, htext, if_pos htake, drop_zeroX]

/-- What is normalized stays as it is, however it was spelt. -/
theorem normalizeTxHash_idem {value txHash : String} (h : normalizeTxHash value = .ok txHash) :
    normalizeTxHash txHash = .ok txHash := by
  rw [normalizeTxHash_eq] at h
  split at h
  · rename_i hnumber
    obtain rfl := Except.ok.inj h
    have hbody : hashBody (canonical value) = hashBody value := by
      refine hashBody_canonical ?_
      intro hnil
      rw [hnil] at hnumber
      cases hnumber.1
    rw [normalizeTxHash_eq, hbody, if_pos hnumber]
    unfold canonical at hbody ⊢
    rw [hbody]
  · cases h

/-- Spellings of one number are one canonical value. -/
theorem canonical_inj {value other : String} (h : IsTxHash value) (h' : IsTxHash other)
    (hone : hashNumber value = hashNumber other) : canonical value = canonical other := by
  have hread : ∀ {v : String}, IsTxHash v →
      hashNumber v = some (Int.ofNat ((hashBody v).foldl (fun n c => 16 * n + hexDigit c) 0)) := by
    intro v hv
    have hkept : (hashBody v).filter (· ≠ '_') = hashBody v :=
      List.filter_eq_self.2 fun c hc => decide_eq_true (digit_plain (hv.2 c hc)).1
    unfold hashNumber hexInt?
    rw [drop_zeroX, if_pos (isTxHash_iff.1 hv).1.2, hkept]
    rfl
  rw [hread h, hread h', Option.some.injEq, Int.ofNat_eq_natCast, Int.ofNat_eq_natCast,
    Nat.cast_inj] at hone
  have hlength : (hashBody value).length = (hashBody other).length := h.1.trans h'.1.symm
  unfold canonical
  rw [hexFold_inj h.2 h'.2 hlength hone]

theorem normalized_iff {value : String} : Normalized value ↔ ¬ Loose value := by
  constructor
  · rintro h ⟨hlength, hbody, hodd⟩
    -- it is accepted, as the number it is
    have hmem : normalizeTxHash ∈ normalizers := List.mem_cons_self
    have haccepted := (h.accepted _ hmem).1 ⟨_, (normalizers_ok hmem).2 ⟨⟨hlength, hbody⟩, rfl⟩⟩
    exact (isTxHash_iff.1 haccepted).2 ⟨hlength, hbody, hodd⟩
  · intro h
    have hvalid : ((hashBody value).length = 64 ∧ isHexBody (hashBody value) = true)
        ↔ IsTxHash value := by
      rw [isTxHash_iff, and_iff_left h]
    refine ⟨fun f hf => ?_, fun f hf txHash hok => ?_, fun f hf txHash hok => ?_⟩
    · constructor
      · rintro ⟨txHash, hok⟩
        exact hvalid.1 ((normalizers_ok hf).1 hok).1
      · intro hhash
        exact ⟨_, (normalizers_ok hf).2 ⟨hvalid.2 hhash, rfl⟩⟩
    · exact ((normalizers_ok hf).1 hok).2
    · have hself : normalizeTxHash ∈ normalizers := List.mem_cons_self
      have hidem := normalizeTxHash_idem ((normalizers_ok hself).2 ((normalizers_ok hf).1 hok))
      exact (normalizers_ok hf).2 ((normalizers_ok hself).1 hidem)

/--
**The normalizers take just the hashes, alike and each to its one spelling, exactly for values that
are not written with underscores or with digits outside ASCII.**
-/
theorem normalizes_iff (value other : String) :
    NormalizedPair value other ↔ ¬ Loose value ∧ ¬ Loose other := by
  rw [← normalized_iff, ← normalized_iff]
  constructor
  · intro h
    exact ⟨h.left, h.right⟩
  · rintro ⟨h, h'⟩
    refine ⟨h, h', fun f hf g hg txHash txHash' hok hok' hone => ?_⟩
    rw [h.same f hf txHash hok, h'.same g hg txHash' hok']
    exact canonical_inj ((h.accepted f hf).1 ⟨_, hok⟩) ((h'.accepted g hg).1 ⟨_, hok'⟩) hone

/-- An underscore and sixty-three zeros. -/
def underscored : String := "0x_" ++ String.ofList (List.replicate 63 '0')

/-- It is taken for a hash as it stands, with the underscore. -/
theorem normalize_underscored :
    normalizeTxHash underscored = .ok underscored ∧ ¬ IsTxHash underscored
    ∧ ¬ NormalizedPair underscored underscored := by
  have hok : normalizeTxHash underscored = .ok underscored := by decide
  have hhash : ¬ IsTxHash underscored := by
    rintro ⟨-, hdigits⟩
    have hbad := hdigits '_' (by decide)
    cases hbad
  refine ⟨hok, hhash, fun h => hhash ?_⟩
  exact (h.left.accepted _ List.mem_cons_self).1 ⟨_, hok⟩

end Roamkit.Polygon.Proof
