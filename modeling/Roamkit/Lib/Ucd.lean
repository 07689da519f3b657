import Roamkit.Lib.Unicode

/-!
# Upper case and normal form KC

The laws of the tables that tell what becomes of a text in normal form when it is put
in upper case and normalized again: case mapping and composition act inside a
combining character sequence, and nothing is trimmed that was not before.
-/

namespace Roamkit.Lib

open PyText

/-- Whether a text is within ASCII. -/
def isAscii (s : String) : Bool := s.toList.all (·.toNat < 128)

namespace UnicodeData

/-- A character of texts in normal form KC. -/
inductive Settled (u : UnicodeData) : Char → Prop where
  | terminal {c : Char} : u.decomposition c = [c] → Settled u c
  | composed {a m p : Char} : Settled u a → u.decomposition m = [m] → u.composite a m = some p →
      Settled u p

/-- What decomposing keeps of a character in upper case. -/
structure Capital (u : UnicodeData) (d : Char) : Prop where
  upper : ∀ e ∈ u.decomposition d, u.uppercase e = [e]
  spaces : (u.decomposition d).countP isSpace = [d].countP isSpace
  parts : (u.decomposition d).countP (!u.joins ·) = [d].countP (!u.joins ·)
  head : u.joins d = false → u.Detached (u.decomposition d)
  wide : 128 ≤ d.toNat → isSpace d = false →
    ∃ e ∈ u.decomposition d, 128 ≤ e.toNat ∧ isSpace e = false

instance (u : UnicodeData) (cs : List Char) : Decidable (u.Detached cs) :=
  match cs with
  | [] => .isTrue detached_nil
  | c :: _ => decidable_of_iff (u.joins c = false) detached_cons.symm

end UnicodeData

open UnicodeData

/-- The character database, as far as the two functions rely on it. -/
structure Ucd extends UnicodeData where
  terminal : ∀ c, ∀ d ∈ decomposition c, decomposition d = [d]
  combining_joins : ∀ c, combining c ≠ 0 → joins c = true
  composite_joins : ∀ a m p, composite a m = some p → joins m = true ∧ joins p = joins a
  /-- No composite is made of white space, or is some, -/
  composite_space : ∀ a m p, composite a m = some p →
    isSpace a = false ∧ isSpace m = false ∧ isSpace p = false
  /-- or lies within ASCII. -/
  composite_wide : ∀ a m p, composite a m = some p → 128 ≤ p.toNat
  composite_upper : ∀ a m p, composite a m = some p → uppercase a = [a] → uppercase m = [m] →
    uppercase p = [p]
  space : ∀ c, isSpace c = true → joins c = false ∧ uppercase c = [c]
  ascii : ∀ c, c.toNat < 128 → decomposition c = [c] ∧ joins c = false ∧ uppercase c = [c.toUpper]
  /-- No upper case is empty, or has white space. -/
  letters : ∀ c, isSpace c = false → uppercase c ≠ [] ∧ ∀ d ∈ uppercase c, isSpace d = false
  uppercase_twice : ∀ c, ∀ d ∈ uppercase c, uppercase d = [d]
  /-- A character that joins none before it has such an upper case, -/
  detached : ∀ c, toUnicodeData.Settled c → joins c = false → toUnicodeData.Detached (uppercase c)
  /-- and what is in upper case is in the parts it is made of. -/
  capital : ∀ c, toUnicodeData.Settled c → ∀ d ∈ uppercase c, toUnicodeData.Capital d

namespace Ucd

variable {u : Ucd} {cs ds t : List Char}

/-! ## Normal form -/

/-- What joins nothing is a starter, -/
theorem starter {d : Char} (h : u.joins d = false) : u.combining d = 0 := by
  by_contra hne
  rw [u.combining_joins d hne] at h
  cases h

/-- and second in no composite. -/
theorem composite_none {a d : Char} (h : u.joins d = false) : u.composite a d = none := by
  cases hp : u.composite a d with
  | none => rfl
  | some p =>
    rw [(u.composite_joins a d p hp).1] at h
    cases h

/-- The second part begins with what is composed with nothing before it. -/
theorem normalForm_append (h : u.Detached (ds.flatMap u.decomposition)) :
    u.normalForm (cs ++ ds) = u.normalForm cs ++ u.normalForm ds := by
  unfold normalForm
  rw [List.flatMap_append]
  cases hds : ds.flatMap u.decomposition with
  | nil =>
    rw [List.append_nil]
    exact (List.append_nil _).symm
  | cons d rest =>
    rw [hds] at h
    have hjoins := detached_cons.1 h
    have hstarter := starter hjoins
    have horder : u.reorder (d :: rest) = d :: u.reorder rest := place_starter hstarter
    rw [reorder_append hstarter, compose_append hstarter fun _ => composite_none hjoins, horder]

theorem normalForm_detached (h : u.Detached (ds.flatMap u.decomposition)) :
    u.Detached (u.normalForm ds) := by
  unfold normalForm
  cases hds : ds.flatMap u.decomposition with
  | nil => exact detached_nil
  | cons d rest =>
    rw [hds] at h
    have hjoins := detached_cons.1 h
    have hstarter := starter hjoins
    have horder : u.reorder (d :: rest) = d :: u.reorder rest := place_starter hstarter
    rw [horder, compose, if_neg fun hne => hne hstarter]
    exact composeFrom_detached (fun a m p hp => (u.composite_joins a m p hp).2) hjoins

theorem normalForm_all {s r : Char → Prop} (hr : ∀ c, s c → r c)
    (hcomposite : ∀ a m p, r a → s m → u.composite a m = some p → r p)
    (hcs : ∀ c ∈ cs, ∀ d ∈ u.decomposition c, s d) : ∀ c ∈ u.normalForm cs, r c := by
  refine compose_all hr hcomposite ?_
  intro d hd
  obtain ⟨c, hc, hdc⟩ := List.mem_flatMap.1 ((reorder_perm _).mem_iff.1 hd)
  exact hcs c hc d hdc

theorem normalForm_count {count : Char → Bool}
    (hcomposite : ∀ a m p, u.composite a m = some p → [p].countP count = [a, m].countP count)
    (hcs : ∀ c ∈ cs, (u.decomposition c).countP count = [c].countP count) :
    (u.normalForm cs).countP count = cs.countP count := by
  unfold normalForm
  rw [compose_count hcomposite, (reorder_perm _).countP_eq]
  induction cs with
  | nil => rfl
  | cons c cs ih =>
    obtain ⟨hc, hcs⟩ := List.forall_mem_cons.1 hcs
    rw [List.flatMap_cons, List.countP_append, hc, ih hcs, ← List.countP_append]
    rfl

theorem settled_normalForm : ∀ c ∈ u.normalForm cs, u.Settled c :=
  normalForm_all (s := fun c => u.decomposition c = [c]) (fun _ h => .terminal h)
    (fun _ _ _ ha hm hp => .composed ha hm hp) fun c _ d hd => u.terminal c d hd

/-- What is not decomposed and joins nothing stays as it is. -/
theorem normalForm_plain (h : ∀ c ∈ cs, u.decomposition c = [c] ∧ u.joins c = false) :
    u.normalForm cs = cs := by
  induction cs with
  | nil => rfl
  | cons c cs ih =>
    obtain ⟨⟨hdecomposition, hjoins⟩, hcs⟩ := List.forall_mem_cons.1 h
    have hdetached : u.Detached (cs.flatMap u.decomposition) := by
      cases cs with
      | nil => exact detached_nil
      | cons d ds =>
        obtain ⟨hd, hjoins⟩ := hcs d List.mem_cons_self
        rw [List.flatMap_cons, hd]
        exact detached_cons.2 hjoins
    have hone : u.normalForm [c] = [c] := by
      unfold normalForm
      rw [List.flatMap_singleton, hdecomposition]
      exact ite_self _
    rw [← List.singleton_append, normalForm_append hdetached, hone, ih hcs]

/-! ## Upper case -/

theorem capitals_fixed (h : ∀ d ∈ cs, u.uppercase d = [d]) : u.capitals cs = cs := by
  induction cs with
  | nil => rfl
  | cons c cs ih =>
    obtain ⟨hc, hcs⟩ := List.forall_mem_cons.1 h
    show u.uppercase c ++ u.capitals cs = c :: cs
    rw [hc, ih hcs]
    rfl

theorem upper_of_mem {d : Char} (h : d ∈ u.capitals cs) : u.uppercase d = [d] := by
  obtain ⟨c, _, hd⟩ := List.mem_flatMap.1 h
  exact u.uppercase_twice c d hd

theorem capitals_capitals : u.capitals (u.capitals cs) = u.capitals cs :=
  capitals_fixed fun _ hd => upper_of_mem hd

theorem uppercase_ne_nil (c : Char) : u.uppercase c ≠ [] := by
  by_cases hspace : isSpace c = true
  · rw [(u.space c hspace).2]
    exact List.cons_ne_nil _ _
  · exact (u.letters c (Bool.not_eq_true _ ▸ hspace)).1

theorem capitals_append : u.capitals (cs ++ ds) = u.capitals cs ++ u.capitals ds :=
  List.flatMap_append

/-- No white space is put at the ends. -/
theorem trim_capitals (h : trim t = t) : trim (u.capitals t) = u.capitals t := by
  obtain ⟨hhead, hlast⟩ := trim_eq_self_iff.1 h
  refine trim_eq_self_iff.2 ⟨?_, ?_⟩
  · cases t with
    | nil => exact fun c hc => by cases hc
    | cons c cs =>
      obtain ⟨hne, hletters⟩ := u.letters c (hhead c rfl)
      intro d hd
      refine hletters d ?_
      have hd : d ∈ (u.uppercase c ++ u.capitals cs).head? := hd
      rw [List.head?_append_of_ne_nil _ hne] at hd
      exact List.mem_of_mem_head? hd
  · cases hback : t.getLast? with
    | none =>
      rw [List.getLast?_eq_none_iff.1 hback]
      exact fun c hc => by cases hc
    | some c =>
      obtain ⟨front, rfl⟩ := List.getLast?_eq_some_iff.1 hback
      obtain ⟨hne, hletters⟩ := u.letters c (hlast c hback)
      have hone : u.capitals [c] = u.uppercase c := List.append_nil _
      intro d hd
      refine hletters d ?_
      rw [capitals_append, hone, List.getLast?_append_of_ne_nil _ hne] at hd
      exact List.mem_of_getLast? hd

section Settled

theorem capital_of_mem (ht : ∀ c ∈ t, u.Settled c) {d : Char}
    (h : d ∈ u.capitals t) : u.Capital d := by
  obtain ⟨c, hc, hd⟩ := List.mem_flatMap.1 h
  exact u.capital c (ht c hc) d hd

theorem detached_capitals (ht : ∀ c ∈ t, u.Settled c) (h : u.Detached t) :
    u.Detached (u.capitals t) := by
  cases t with
  | nil => exact detached_nil
  | cons c cs =>
    have hc := u.detached c (ht c List.mem_cons_self) (detached_cons.1 h)
    exact hc.append (uppercase_ne_nil c)

/-- What is decomposed of capitals begins where they do. -/
theorem detached_decomposed (hcs : ∀ d ∈ cs, u.Capital d) (h : u.Detached cs) :
    u.Detached (cs.flatMap u.decomposition) := by
  cases cs with
  | nil => exact detached_nil
  | cons d ds =>
    have hd := hcs d List.mem_cons_self
    have hjoins := detached_cons.1 h
    refine (hd.head hjoins).append ?_
    intro hnil
    have hparts := hd.parts
    rw [hnil, List.countP_singleton, hjoins] at hparts
    cases hparts

/-- Normalizing what is in upper case gives text in upper case, -/
theorem upper_normalForm (ht : ∀ c ∈ t, u.Settled c) :
    ∀ d ∈ u.normalForm (u.capitals t), u.uppercase d = [d] :=
  normalForm_all (s := fun d => u.uppercase d = [d]) (fun _ h => h)
    (fun a m p ha hm hp => u.composite_upper a m p hp ha hm) fun _ hd =>
      (capital_of_mem ht hd).upper

/-- with as much white space -/
theorem spaces_normalForm (ht : ∀ c ∈ t, u.Settled c) :
    (u.normalForm (u.capitals t)).countP isSpace = (u.capitals t).countP isSpace := by
  refine normalForm_count ?_ fun _ hd => (capital_of_mem ht hd).spaces
  intro a m p hp
  obtain ⟨ha, hm, hp⟩ := u.composite_space a m p hp
  simp [ha, hm, hp]

/-- and as many parts. -/
theorem parts_normalForm (ht : ∀ c ∈ t, u.Settled c) :
    (u.normalForm (u.capitals t)).countP (!u.joins ·) = (u.capitals t).countP (!u.joins ·) := by
  refine normalForm_count ?_ fun _ hd => (capital_of_mem ht hd).parts
  intro a m p hp
  obtain ⟨hm, hp⟩ := u.composite_joins a m p hp
  simp [List.countP_cons, hm, hp]

/-- Capitals are in normal form when those of two parts are, the second of them detached. -/
theorem normalForm_capitals_append (hcs : ∀ c ∈ cs, u.Settled c) (hds : ∀ c ∈ ds, u.Settled c)
    (h : u.Detached ds) :
    u.normalForm (u.capitals (cs ++ ds)) = u.capitals (cs ++ ds) ↔
      u.normalForm (u.capitals cs) = u.capitals cs
        ∧ u.normalForm (u.capitals ds) = u.capitals ds := by
  have hbegins := detached_capitals hds h
  have hdecomposed := detached_decomposed (fun _ hd => capital_of_mem hds hd) hbegins
  rw [capitals_append, normalForm_append hdecomposed]
  constructor
  · intro hsame
    exact append_cancel (normalForm_detached hdecomposed) hbegins (parts_normalForm hcs) hsame
  · rintro ⟨hfirst, hsecond⟩
    rw [hfirst, hsecond]

theorem normalForm_flatten {seqs : List (List Char)} (hseqs : ∀ seq ∈ seqs, ∀ c ∈ seq, u.Settled c)
    (hchain : seqs.IsChain fun a b => ∃ (_ : a ≠ []) (hb : b ≠ []), u.joins (b.head hb) = false) :
    u.normalForm (u.capitals seqs.flatten) = u.capitals seqs.flatten ↔
      ∀ seq ∈ seqs, u.normalForm (u.capitals seq) = u.capitals seq := by
  induction seqs with
  | nil => exact ⟨fun _ _ h => absurd h List.not_mem_nil, fun _ => rfl⟩
  | cons seq seqs ih =>
    obtain ⟨hseq, hseqs⟩ := List.forall_mem_cons.1 hseqs
    have hdetached : u.Detached seqs.flatten := by
      cases seqs with
      | nil => exact detached_nil
      | cons next rest =>
        obtain ⟨_, hne, hjoins⟩ := (List.isChain_cons_cons.1 hchain).1
        refine Detached.append ?_ hne
        intro c hc
        rw [List.head?_eq_some_head hne] at hc
        cases hc
        exact hjoins
    have hsettled : ∀ c ∈ seqs.flatten, u.Settled c := by
      intro c hc
      obtain ⟨next, hnext, hc⟩ := List.mem_flatten.1 hc
      exact hseqs next hnext c hc
    rw [List.flatten_cons, normalForm_capitals_append hseq hsettled hdetached,
      ih hseqs hchain.tail, List.forall_mem_cons]

/-- A text in upper case is in normal form when each of its combining character sequences is. -/
theorem normalForm_capitals_iff (ht : ∀ c ∈ t, u.Settled c) :
    u.normalForm (u.capitals t) = u.capitals t ↔
      ∀ seq ∈ u.sequences t, u.normalForm (u.capitals seq) = u.capitals seq := by
  have hflatten : (u.sequences t).flatten = t := List.flatten_splitBy _ t
  have hmem : ∀ seq ∈ u.sequences t, ∀ c ∈ seq, u.Settled c := by
    intro seq hseq c hc
    refine ht c ?_
    rw [← hflatten]
    exact List.mem_flatten.2 ⟨seq, hseq, hc⟩
  have hchain := List.isChain_getLast_head_splitBy (fun _ c => u.joins c) t
  rw [← normalForm_flatten hmem hchain, hflatten]

/-! ## Once more -/

/-- What is normalized, trimmed and put in upper case a second time. -/
theorem twice_eq (ht : ∀ c ∈ t, u.Settled c) :
    u.capitals (trim (u.normalForm (u.capitals t))) = trim (u.normalForm (u.capitals t)) := by
  refine capitals_fixed fun d hd => ?_
  obtain ⟨front, back, hcs, _, _⟩ := exists_trim (u.normalForm (u.capitals t))
  refine upper_normalForm ht d ?_
  rw [hcs]
  exact List.mem_append_left _ (List.mem_append_right _ hd)

/-- The second time changes nothing when each sequence is in normal form in upper case. -/
theorem twice_iff (ht : ∀ c ∈ t, u.Settled c) (htrim : trim t = t) :
    u.capitals (trim (u.normalForm (u.capitals t))) = u.capitals t ↔
      ∀ seq ∈ u.sequences t, u.normalForm (u.capitals seq) = u.capitals seq := by
  rw [twice_eq ht, ← normalForm_capitals_iff ht]
  constructor
  · intro h
    -- as much white space is left as there was, so none was trimmed
    have hkept : trim (u.normalForm (u.capitals t)) = u.normalForm (u.capitals t) := by
      refine trim_of_count ?_
      rw [h, spaces_normalForm ht]
    rw [← hkept, h]
  · intro h
    rw [h, trim_capitals htrim]

/-- Text that lies within ASCII the second time did so before. -/
theorem twice_of_ascii (ht : ∀ c ∈ t, u.Settled c) (htrim : trim t = t)
    (h : ∀ d ∈ u.capitals (trim (u.normalForm (u.capitals t))), d.toNat < 128) :
    u.capitals (trim (u.normalForm (u.capitals t))) = u.capitals t := by
  rw [twice_eq ht] at h ⊢
  by_cases hwide : ∃ d ∈ u.capitals t, 128 ≤ d.toNat ∧ isSpace d = false
  · obtain ⟨d, hd, hlarge, hspace⟩ := hwide
    obtain ⟨e, he, hq⟩ := (capital_of_mem ht hd).wide hlarge hspace
    have hdecomposed : ∃ e ∈ u.reorder ((u.capitals t).flatMap u.decomposition),
        128 ≤ e.toNat ∧ isSpace e = false :=
      ⟨e, (reorder_perm _).mem_iff.2 (List.mem_flatMap.2 ⟨d, hd, he⟩), hq⟩
    have hkept : ∀ a m p, u.composite a m = some p → 128 ≤ p.toNat ∧ isSpace p = false :=
      fun a m p hp => ⟨u.composite_wide a m p hp, (u.composite_space a m p hp).2.2⟩
    obtain ⟨f, hf, hlarge, hspace⟩ :=
      compose_exists (fun a m p _ => hkept a m p) (fun a m p _ => hkept a m p) hdecomposed
    have hlt := h f (mem_trim hf hspace)
    omega
  · -- what is left outside ASCII is white space, which has no upper case
    have hplain : ∀ d ∈ u.capitals t, u.decomposition d = [d] ∧ u.joins d = false := by
      intro d hd
      by_cases hascii : d.toNat < 128
      · exact ⟨(u.ascii d hascii).1, (u.ascii d hascii).2.1⟩
      · have hspace : isSpace d = true := by
          by_contra hne
          exact hwide ⟨d, hd, by omega, Bool.not_eq_true _ ▸ hne⟩
        obtain ⟨c, hc, hdc⟩ := List.mem_flatMap.1 hd
        have hsame : d = c := by
          by_cases hcspace : isSpace c = true
          · rw [(u.space c hcspace).2] at hdc
            exact List.mem_singleton.1 hdc
          · have hletter := (u.letters c (Bool.not_eq_true _ ▸ hcspace)).2 d hdc
            rw [hletter] at hspace
            cases hspace
        rw [← hsame] at hc
        refine ⟨?_, (u.space d hspace).1⟩
        cases ht d hc with
        | terminal h => exact h
        | composed _ _ hp =>
          rw [(u.composite_space _ _ _ hp).2.2] at hspace
          cases hspace
    rw [normalForm_plain hplain, trim_capitals htrim]

end Settled

end Ucd

end Roamkit.Lib
