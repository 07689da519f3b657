import Roamkit.Partner.InviteCalls
import Roamkit.Proof.SelfReferral

/-!
# How the invite of a login ends

What makes the calls of `Partner.InviteCalls` raise: the self-referral of the cookie, and a
registration bonus that the ledger refuses. Everything else they meet they answer.
-/

namespace Roamkit.Partner.Proof

open Lib Billing Organizations Partner Billing.Proof

/-- What the constraints of the database say of a state. -/
structure Consistent (s : ReferralDb) : Prop where
  /-- Foreign keys to channels, -/
  linked : ∀ l ∈ s.links, ∃ ch ∈ s.channels, ch.id = l.partnerChannel
  pended : ∀ p ∈ s.pendings, ∃ ch ∈ s.channels, ch.id = p.partnerChannel
  /-- and to users. -/
  owned : ∀ ch ∈ s.channels, ∀ user, ch.owner = .individual user → ∃ p ∈ s.people, p.id = user
  joined : ∀ m ∈ s.memberships, ∃ p ∈ s.people, p.id = m.user
  /-- No balance is negative. -/
  balances : ∀ row ∈ s.books.accounts, 0 ≤ row.balance
  /-- A bonus fits its column. -/
  bonuses : ∀ l ∈ s.links, (l.bonusAmount : Int) < maxMoney

/-- An exception that nobody on the way catches. -/
def Breaks {α : Type} (r : Except Exc α) : Prop := ∃ e, r = .error e ∧ e ≠ .integrity

/-! ## Where the ledger refuses a bonus -/

/-- An account has no room for a credit, or there is none. -/
def noRoom (b : Books) (account : Uuid) (key : String) (amount : Nat) : Bool :=
  match b.accounts.find? (·.id = account) with
  | none => true
  | some row =>
    (b.entries.find? (·.idempotencyKey = key)).isNone
      && (maxMoney ≤ row.balance + amount || 128 < key.length || maxVersion ≤ row.version)

/-- The ledger refuses a bonus of a user. -/
def refusesBonus (s : ReferralDb) (user : UserId) (bonus : Nat) : Bool :=
  bonus ≠ 0 &&
    match s.accounts.find? (·.user = some user) with
    | none => true
    | some account => noRoom s.books account.id (bonusKey user) bonus

section Bonus

variable {b : Books} {p : Posting} {row : Account} {s : ReferralDb} {a : CustomerAttribution}
  {n : Nat}

/-- The text of a UUID has 36 characters. -/
theorem uuid_length (u : Uuid) : u.str.length = 36 := by
  have hc := u.canonical
  unfold isUuidText at hc
  dsimp only at hc
  have hlengths : (u.str.toList.splitOn '-').map List.length = [8, 4, 4, 4, 12] := by
    simpa using (Bool.and_eq_true_iff.1 hc).1
  have hjoin : ['-'].intercalate (u.str.toList.splitOn '-') = u.str.toList :=
    List.intercalate_splitOn _
  generalize u.str.toList.splitOn '-' = groups at hlengths hjoin
  obtain ⟨g₁, _, rfl, h₁, hlengths⟩ := List.map_eq_cons_iff.1 hlengths
  obtain ⟨g₂, _, rfl, h₂, hlengths⟩ := List.map_eq_cons_iff.1 hlengths
  obtain ⟨g₃, _, rfl, h₃, hlengths⟩ := List.map_eq_cons_iff.1 hlengths
  obtain ⟨g₄, _, rfl, h₄, hlengths⟩ := List.map_eq_cons_iff.1 hlengths
  obtain ⟨g₅, _, rfl, h₅, hlengths⟩ := List.map_eq_cons_iff.1 hlengths
  obtain rfl := List.map_eq_nil_iff.1 hlengths
  have hlist := congrArg List.length hjoin
  simp only [List.intercalate, List.intersperse, List.flatten_cons, List.flatten_nil,
    List.length_append, List.length_cons, List.length_nil, String.length_toList] at hlist
  omega

theorem apply_replays (hrow : b.accounts.find? (·.id = p.account) = some row)
    (hkey : (b.entries.find? (·.idempotencyKey = p.idempotencyKey)).isSome = true) :
    ∃ e, b.apply p = .ok (b, e) := by
  obtain ⟨e, he⟩ := Option.isSome_iff_exists.1 hkey
  refine ⟨e, ?_⟩
  unfold Books.apply
  rw [hrow]
  dsimp only
  rw [he]

/-- An entry under a new key is posted where its values fit, and nothing is where they do not. -/
theorem apply_posts (hrow : b.accounts.find? (·.id = p.account) = some row)
    (hkey : b.entries.find? (·.idempotencyKey = p.idempotencyKey) = none)
    (hfunds : 0 ≤ row.balance + p.delta) :
    ((p.entry row.balance).fits = true → row.version < maxVersion → ∃ r, b.apply p = .ok r)
      ∧ ((p.entry row.balance).fits = false ∨ maxVersion ≤ row.version
        → b.apply p = .error .data) := by
  obtain ⟨b', hpost⟩ : ∃ b', b.post row (p.entry row.balance) = some b' := by
    refine post_isSome fun f hf hsame => ?_
    exact Table.not_of_find? hkey hf (decide_eq_true hsame)
  have happly : b.apply p = if ¬ (p.entry row.balance).fits = true then .error .data
      else if maxVersion < row.version + 1 then .error .data
        else .ok (b', p.entry row.balance) := by
    unfold Books.apply
    rw [hrow]
    dsimp only
    rw [hkey]
    dsimp only
    rw [if_neg (by omega), hpost]
  rw [happly]
  refine ⟨?_, ?_⟩
  · intro hfits hversion
    rw [if_neg (by rw [hfits]; simp), if_neg (by omega)]
    exact ⟨_, rfl⟩
  · rintro (hfits | hversion)
    · rw [if_pos (by rw [hfits]; simp)]
    · split
      · rfl
      · rw [if_pos (by omega)]

/-- A credit fits where the balance after it and the key do. -/
theorem credit_fits (hdelta : p.delta = n) (hreference : p.referenceId.length ≤ 64)
    (hnonneg : 0 ≤ row.balance) :
    (p.entry row.balance).fits = true
      ↔ row.balance + n < maxMoney ∧ p.idempotencyKey.length ≤ 128 := by
  have habs : ((row.balance + (n : Int)).natAbs : Int) = row.balance + n := by omega
  unfold CreditLedgerEntry.fits Posting.entry
  dsimp only
  rw [hdelta, Bool.and_eq_true, Bool.and_eq_true, decide_eq_true_iff, decide_eq_true_iff,
    decide_eq_true_iff, habs]
  exact ⟨fun h => ⟨h.1.1, h.2⟩, fun h => ⟨⟨h.1, hreference⟩, h.2⟩⟩

/-- A credit is posted exactly where there is room for it. -/
theorem apply_credit (hbalances : ∀ row ∈ b.accounts, 0 ≤ row.balance) (hdelta : p.delta = n)
    (hreference : p.referenceId.length ≤ 64) :
    (noRoom b p.account p.idempotencyKey n = false → ∃ r, b.apply p = .ok r)
      ∧ (noRoom b p.account p.idempotencyKey n = true → Breaks (b.apply p)) := by
  unfold noRoom
  cases hrow : b.accounts.find? (·.id = p.account) with
  | none =>
    refine ⟨fun h => by simp at h, fun _ => ⟨.doesNotExist "Account", ?_, by simp⟩⟩
    unfold Books.apply
    rw [hrow]
  | some row =>
    dsimp only
    cases hkey : b.entries.find? (·.idempotencyKey = p.idempotencyKey) with
    | some e =>
      obtain ⟨e', happly⟩ := apply_replays hrow (by rw [hkey]; rfl)
      exact ⟨fun _ => ⟨_, happly⟩, fun h => by simp at h⟩
    | none =>
      have hnonneg := hbalances row (Table.mem_of_find? hrow)
      obtain ⟨hposts, hfails⟩ := apply_posts hrow hkey (by omega)
      have hfits := credit_fits hdelta hreference hnonneg
      rw [Option.isNone_none, Bool.true_and]
      refine ⟨fun h => ?_, fun h => ?_⟩
      · rw [Bool.or_eq_false_iff, Bool.or_eq_false_iff, decide_eq_false_iff_not,
          decide_eq_false_iff_not, decide_eq_false_iff_not] at h
        obtain ⟨⟨hroom, hlength⟩, hversion⟩ := h
        exact hposts (hfits.2 ⟨Int.not_le.1 hroom, Nat.not_lt.1 hlength⟩) (Nat.not_le.1 hversion)
      · refine ⟨.data, hfails ?_, by simp⟩
        rw [Bool.or_eq_true, Bool.or_eq_true, decide_eq_true_iff, decide_eq_true_iff,
          decide_eq_true_iff] at h
        rcases h with (hroom | hlength) | hversion
        · exact .inl (Bool.eq_false_iff.2 fun hfit => absurd (hfits.1 hfit).1 (Int.not_lt.2 hroom))
        · exact .inl (Bool.eq_false_iff.2 fun hfit =>
            absurd (hfits.1 hfit).2 (Nat.not_le.2 hlength))
        · exact .inr hversion

theorem bonusKey_ne (user : UserId) : bonusKey user ≠ "" := by
  intro h
  have hlist := congrArg String.toList h
  unfold bonusKey at hlist
  rw [String.toList_append] at hlist
  exact absurd (List.append_eq_nil_iff.1 hlist).1 (by decide)

/-- The posting of a bonus. -/
def bonusPosting (account : Uuid) (a : CustomerAttribution) (amount : Amount) : Posting :=
  ⟨account, amount, true, .partnerInviteBonus, a.id.str, bonusKey a.user, bonusKey_ne a.user⟩

theorem prepare_bonus (account : Uuid) (a : CustomerAttribution) (amount : Amount) :
    preparePosting account (.decimal (.finite (Dec.ofUnits 6 amount.micros)))
      (.member .partnerInviteBonus)
        a.id.str (bonusKey a.user) true = .ok (bonusPosting account a amount) := by
  unfold preparePosting
  rw [normalizeAmount_micros]
  simp only [bind, Except.bind, normalizeReferenceType]
  rw [dif_neg (bonusKey_ne a.user)]
  rfl

theorem creditBonus_unpaid (h : a.registeredViaInvite = false) :
    creditRegistrationInviteBonus s a = .ok s := by
  unfold creditRegistrationInviteBonus
  rw [h]

/-- **The bonus of a registration is credited exactly where the ledger has room for it.** -/
theorem creditBonus_ends (hbalances : ∀ row ∈ s.books.accounts, 0 ≤ row.balance)
    (hregistered : a.registeredViaInvite = true) (hbonus : a.bonusAmountSnapshot = some n)
    (hcolumn : (n : Int) < maxMoney) :
    (refusesBonus s a.user n = false → ∃ s', creditRegistrationInviteBonus s a = .ok s')
      ∧ (refusesBonus s a.user n = true → Breaks (creditRegistrationInviteBonus s a)) := by
  unfold creditRegistrationInviteBonus refusesBonus
  rw [hregistered, hbonus]
  dsimp only
  by_cases hzero : n = 0
  · rw [if_pos hzero, hzero]
    exact ⟨fun _ => ⟨s, rfl⟩, fun h => by simp at h⟩
  rw [if_neg hzero, decide_eq_true hzero, Bool.true_and]
  cases haccount : s.accounts.find? (·.user = some a.user) with
  | none => exact ⟨fun h => by simp at h, fun _ => ⟨_, rfl, by simp⟩⟩
  | some account =>
    dsimp only
    have hpos : (0 : Int) < n := by omega
    rw [prepare_bonus account.id a ⟨n, hpos, hcolumn⟩]
    obtain ⟨hposts, hfails⟩ :=
        apply_credit (p := bonusPosting account.id a ⟨n, hpos, hcolumn⟩) (n := n)
      hbalances rfl (by show a.id.str.length ≤ 64; rw [uuid_length]; omega)
    refine ⟨fun hroom => ?_, fun hroom => ?_⟩
    · obtain ⟨r, happly⟩ := hposts hroom
      refine ⟨{ s with books := r.1 }, ?_⟩
      show (s.books.apply _ >>= _) = _
      rw [happly]
      rfl
    · obtain ⟨e, happly, hne⟩ := hfails hroom
      refine ⟨e, ?_, hne⟩
      show (s.books.apply _ >>= _) = _
      rw [happly]
      rfl

end Bonus

/-! ## Inserting an attribution -/

section Insert

variable {c : ReferralSettings} {s s₁ : ReferralDb} {a : NewAttribution} {pending : Option Uuid}
  {v : ReferralView} {user : UserId} {id : Uuid} {n : Nat}

theorem refersToSelf_error {channel : PartnerChannel} {e : Exc}
    (h : s.refersToSelf user channel = some e) :
    ∃ message, e = .partnerSelfReferral message := by
  unfold ReferralDb.refersToSelf at h
  cases ho : channel.owner with
  | individual owner =>
    rw [ho] at h
    by_cases hself : owner = user
    · exact ⟨_, (Option.some.inj ((if_pos hself).symm.trans h)).symm⟩
    · exact absurd ((if_neg hself).symm.trans h) (by simp)
  | team organization =>
    rw [ho] at h
    by_cases hmember : s.activeMember organization user = true
    · exact ⟨_, (Option.some.inj ((if_pos hmember).symm.trans h)).symm⟩
    · exact absurd ((if_neg hmember).symm.trans h) (by simp)

/-- The link that a visit locks is of a channel there is. -/
theorem Consistent.channel_of_visit (h : Consistent s) {window : Bool} {now : Time}
    {visit : InviteVisit} {link : PartnerInviteLink}
    (hv : lockVisit s id window now = some (visit, link)) :
    link ∈ s.links ∧ ∃ channel, s.channel? link.partnerChannel = some channel := by
  have hlink : link ∈ s.links := by
    unfold lockVisit visitLink? at hv
    split at hv
    · cases hv
    rename_i visit' link' hfound
    split at hv
    · cases hv
      split at hfound
      · cases hfound
      obtain ⟨l, hl, heq⟩ := Option.map_eq_some_iff.1 hfound
      cases heq
      exact Table.mem_of_find? hl
    · cases hv
  obtain ⟨ch, hch, hid⟩ := h.linked link hlink
  refine ⟨hlink, ch, Table.find?_of_mem hch (decide_eq_true hid) ?_⟩
  intro x hx
  exact .inl ((of_decide_eq_true hx).trans hid.symm)

theorem insert_fresh (row : CustomerAttribution) (hfresh : ∀ r ∈ s.attributions, r.id ≠ row.id)
    (hnone : s.attribution? row.user = none) :
    ∃ attributions, s.attributions.insert? row = some attributions := by
  cases hi : s.attributions.insert? row with
  | some attributions => exact ⟨attributions, rfl⟩
  | none =>
    obtain ⟨r, hr, hid | huser⟩ := Table.clash_of_insert_none hi
    · exact absurd hid (hfresh r hr)
    · exact absurd (decide_eq_true huser) (Table.not_of_find? hnone hr)

/-- Without a bonus to pay, the insert fails on its row only. -/
theorem insert_unpaid (hplain : a.registeredViaInvite = false) :
    insertAttribution s a pending v =
      match s.attributions.insert? (a.row (v.uuid 0) v.now) with
      | none => .error .integrity
      | some attributions =>
        .ok (pending.elim { s with attributions } (dropPending { s with attributions }),
          .attribution (a.row (v.uuid 0) v.now)) := by
  unfold insertAttribution
  dsimp only
  cases s.attributions.insert? (a.row (v.uuid 0) v.now) with
  | none => rfl
  | some attributions =>
    have hcredit : creditRegistrationInviteBonus { s with attributions } (a.row (v.uuid 0) v.now)
        = .ok { s with attributions } := creditBonus_unpaid hplain
    dsimp only
    rw [hcredit]
    rfl

/-- With one, it fails where the ledger refuses it. -/
theorem insert_paid (pending : Option Uuid) (h : Consistent s)
    (hfresh : ∀ r ∈ s.attributions, r.id ≠ v.uuid 0)
    (hnone : s.attribution? a.user = none) (hregistered : a.registeredViaInvite = true)
    (hbonus : a.bonusAmountSnapshot = some n) (hcolumn : (n : Int) < maxMoney) :
    (refusesBonus s a.user n = false → ∃ r, insertAttribution s a pending v = .ok r)
      ∧ (refusesBonus s a.user n = true → Breaks (insertAttribution s a pending v)) := by
  obtain ⟨attributions, hi⟩ := insert_fresh (a.row (v.uuid 0) v.now) hfresh hnone
  obtain ⟨hpays, hfails⟩ :=
      creditBonus_ends (s := { s with attributions }) (a := a.row (v.uuid 0) v.now)
    h.balances hregistered hbonus hcolumn
  unfold insertAttribution
  dsimp only
  rw [hi]
  dsimp only
  refine ⟨fun hroom => ?_, fun hroom => ?_⟩
  · obtain ⟨s', hs'⟩ := hpays hroom
    rw [hs']
    exact ⟨_, rfl⟩
  · obtain ⟨e, he, hne⟩ := hfails hroom
    refine ⟨e, ?_, hne⟩
    rw [he]
    rfl

/-- Who is attributed has an attribution. -/
theorem insert_attributes {ans : ReferralAnswer}
    (hs : insertAttribution s a pending v = .ok (s₁, ans)) :
    (s₁.attribution? a.user).isSome = true := by
  obtain ⟨hi, _⟩ := insertAttribution_rows hs
  cases hq : s₁.attribution? a.user with
  | some r => rfl
  | none =>
    have hmem : a.row (v.uuid 0) v.now ∈ s₁.attributions := (Table.mem_insert hi).2 (.inr rfl)
    exact absurd (decide_eq_true (rfl : (a.row (v.uuid 0) v.now).user = a.user))
      (Table.not_of_find? hq hmem)

end Insert

/-! ## The three calls -/

/-- The visit of a cookie would make a user their own customer. -/
def conflicts (c : ReferralSettings) (s : ReferralDb) (user : UserId) (visit : Option Uuid)
    (now : Time) : Bool :=
  c.partnerChannelEnabled && (s.attribution? user).isNone &&
    match visit.bind (lockVisit s · true now) with
    | none => false
    | some (_, link) =>
        (s.channel? link.partnerChannel).any fun channel => (s.refersToSelf user channel).isSome

/-- An activation leaves a user without a pending row, and does not attribute them. -/
def losesPending (s : ReferralDb) (user : UserId) (now : Time) : Bool :=
  match s.pending? user with
  | none => true
  | some p =>
    p.expiresAt ≤ now ||
      match p.inviteVisit with
      | some id => (lockVisit s id false now).isNone
      | none => (currentLink? s p).isNone

/-- The ledger refuses the bonus of the pending row that an activation applies. -/
def refusesPending (c : ReferralSettings) (s : ReferralDb) (user : UserId) (now : Time) : Bool :=
  match s.pending? user with
  | none => false
  | some p =>
    now < p.expiresAt && (s.attribution? user).isNone && c.partnerChannelEnabled &&
      match p.inviteVisit.bind (lockVisit s · false now) with
      | none => false
      | some (_, link) =>
        (s.channel? link.partnerChannel).any fun channel =>
          (s.refersToSelf user channel).isNone && refusesBonus s user link.bonusAmount

section Calls

variable {c : ReferralSettings} {s : ReferralDb} {user : UserId} {visit : Option Uuid}
  {v : ReferralView}

/-- **A cookie is consumed, unless it conflicts.** -/
theorem consume_ends (c : ReferralSettings) (visit : Option Uuid) (user : UserId) (v : ReferralView)
    (h : Consistent s) :
    (conflicts c s user visit v.now = true → (s.pending? user).isNone = true →
        Breaks (consumePartnerPending c s user visit v))
      ∧ (conflicts c s user visit v.now = false ∨ (s.pending? user).isNone = false →
        ∃ r, consumePartnerPending c s user visit v = .ok r) := by
  unfold consumePartnerPending conflicts
  cases hattribution : s.attribution? user with
  | some a => exact ⟨fun hc => by simp at hc, fun _ => ⟨_, rfl⟩⟩
  | none =>
    rw [if_neg (by simp), Option.isNone_none, Bool.and_true]
    cases visit with
    | none => exact ⟨fun hc => by simp at hc, fun _ => ⟨_, rfl⟩⟩
    | some id =>
      by_cases henabled : c.partnerChannelEnabled = true
      case neg =>
        dsimp only
        rw [if_pos henabled, Bool.eq_false_iff.2 henabled]
        exact ⟨fun hc => by simp at hc, fun _ => ⟨_, rfl⟩⟩
      rw [henabled, Bool.true_and, Option.bind_some]
      dsimp only
      rw [if_neg (by simp)]
      cases hpending : s.pending? user with
      | some p =>
        rw [if_pos (by simp)]
        exact ⟨fun _ hnone => by simp at hnone, fun _ => ⟨_, rfl⟩⟩
      | none =>
        rw [if_neg (by simp)]
        cases hvisit : lockVisit s id true v.now with
        | none => exact ⟨fun hc => by simp at hc, fun _ => ⟨_, rfl⟩⟩
        | some found =>
          obtain ⟨visit, link⟩ := found
          obtain ⟨_, channel, hchannel⟩ := h.channel_of_visit hvisit
          have hof : (visitAttribution user visit link false).partnerChannel
              = link.partnerChannel := rfl
          have hwho : (visitAttribution user visit link false).user = user := rfl
          dsimp only
          unfold insertIfAllowed
          rw [hof, hwho, hchannel, Option.any_some]
          dsimp only
          cases hself : s.refersToSelf user channel with
          | some e =>
            refine ⟨fun _ _ => ?_, fun hno => by simp at hno⟩
            obtain ⟨message, rfl⟩ := refersToSelf_error hself
            exact ⟨_, rfl, by simp⟩
          | none =>
            refine ⟨fun hc => by simp at hc, fun _ => ?_⟩
            rw [insert_unpaid rfl]
            cases s.attributions.insert? _ with
            | none => exact ⟨_, rfl⟩
            | some attributions => exact ⟨_, rfl⟩

/-- A cookie is consumed after an activation from `s` on. -/
def ConsumesAfter (c : ReferralSettings) (s s₁ : ReferralDb) (user : UserId)
    (v : ReferralView) : Prop :=
  ∀ visit, (conflicts c s user visit v.now = true → losesPending s user v.now = true →
      Breaks (consumePartnerPending c s₁ user visit v))
    ∧ (conflicts c s user visit v.now = false ∨ losesPending s user v.now = false →
      ∃ r, consumePartnerPending c s₁ user visit v = .ok r)

theorem not_conflicts_attributed (h : (s.attribution? user).isSome = true) (visit : Option Uuid)
    (now : Time) :
    conflicts c s user visit now = false := by
  obtain ⟨a, ha⟩ := Option.isSome_iff_exists.1 h
  unfold conflicts
  rw [ha, Option.isNone_some, Bool.and_false, Bool.false_and]

theorem consumes_attributed {s₁ : ReferralDb} (h : (s₁.attribution? user).isSome = true)
    (hnot : ∀ visit, conflicts c s user visit v.now = false ∨ losesPending s user v.now = false) :
    ConsumesAfter c s s₁ user v := by
  intro visit
  refine ⟨fun hc hl => ?_, fun _ => ⟨_, if_pos h⟩⟩
  rcases hnot visit with hno | hno
  · rw [hno] at hc
    cases hc
  · rw [hno] at hl
    cases hl

theorem consumes_without (h : Consistent s) (hp : s.pending? user = none) :
    ConsumesAfter c s s user v := by
  intro visit
  have hloses : losesPending s user v.now = true := by
    unfold losesPending
    rw [hp]
  have hnone : (s.pending? user).isNone = true := by
    rw [hp]
    rfl
  obtain ⟨hbreaks, hends⟩ := consume_ends c visit user v h
  refine ⟨fun hc _ => hbreaks hc hnone, ?_⟩
  rintro (hc | hl)
  · exact hends (.inl hc)
  · rw [hloses] at hl
    cases hl

theorem consumes_kept (h : Consistent s) (hp : (s.pending? user).isNone = false)
    (hnot : ∀ visit, conflicts c s user visit v.now = false ∨ losesPending s user v.now = false) :
    ConsumesAfter c s s user v := by
  intro visit
  obtain ⟨_, hends⟩ := consume_ends c visit user v h
  refine ⟨fun hc hl => ?_, fun _ => hends (.inr hp)⟩
  rcases hnot visit with hno | hno
  · rw [hno] at hc
    cases hc
  · rw [hno] at hl
    cases hl

/-- A user has one pending row, so that none is left when it is deleted. -/
theorem pending_dropped {p : PendingPartnerAttribution} (hp : s.pending? user = some p) :
    (dropPending s p.id).pending? user = none := by
  refine Table.find?_eq_none.2 fun r hr hsame => ?_
  obtain ⟨hmem, hid⟩ := Table.mem_remove.1 hr
  have howner : p.user = user := by simpa using Table.prop_of_find? hp
  have heq : r = p := Table.eq_of_clash hmem (Table.mem_of_find? hp)
    (.inr ((of_decide_eq_true hsame).trans howner.symm))
  rw [heq] at hid
  exact of_decide_eq_false hid rfl

theorem consumes_dropped (h : Consistent s) {p : PendingPartnerAttribution}
    (hp : s.pending? user = some p) (hl : losesPending s user v.now = true) :
    ConsumesAfter c s (dropPending s p.id) user v := by
  intro visit
  have hdropped : Consistent (dropPending s p.id) :=
    { h with pended := fun r hr => h.pended r (Table.mem_remove.1 hr).1 }
  have hnone : ((dropPending s p.id).pending? user).isNone = true := by
    rw [pending_dropped hp]
    rfl
  obtain ⟨hbreaks, hends⟩ := consume_ends c visit user v hdropped
  refine ⟨fun hc _ => hbreaks hc hnone, ?_⟩
  rintro (hc | hno)
  · exact hends (.inl hc)
  · rw [hl] at hno
    cases hno

/-- **An activation applies its pending row, unless the ledger refuses the bonus.** -/
theorem apply_ends (user : UserId) (h : Consistent s)
    (hfresh : ∀ r ∈ s.attributions, r.id ≠ v.uuid 0) :
    (refusesPending c s user v.now = true → Breaks (applyPendingOnActivation c s user v))
      ∧ (refusesPending c s user v.now = false →
        ∃ r, applyPendingOnActivation c s user v = .ok r ∧ ConsumesAfter c s r.1 user v) := by
  unfold applyPendingOnActivation refusesPending
  cases hp : s.pending? user with
  | none => exact ⟨fun hr => by simp at hr, fun _ => ⟨_, rfl, consumes_without h hp⟩⟩
  | some p =>
    dsimp only
    have hkept : (s.pending? user).isNone = false := by
      rw [hp]
      rfl
    by_cases hexpired : p.expiresAt ≤ v.now
    · have hl : losesPending s user v.now = true := by
        unfold losesPending
        rw [hp]
        simp [hexpired]
      rw [if_pos hexpired, decide_eq_false (Int.not_lt.2 hexpired)]
      exact ⟨fun hr => by simp at hr, fun _ => ⟨_, rfl, consumes_dropped h hp hl⟩⟩
    rw [if_neg hexpired, decide_eq_true (Int.not_le.1 hexpired), Bool.true_and]
    cases hattribution : s.attribution? user with
    | some a =>
      have hsome : (s.attribution? user).isSome = true := by
        rw [hattribution]
        rfl
      rw [if_pos (by rfl)]
      refine ⟨fun hr => by simp at hr, fun _ => ⟨_, rfl, ?_⟩⟩
      exact consumes_attributed hsome fun visit => .inl (not_conflicts_attributed hsome visit v.now)
    | none =>
      rw [if_neg (by simp), Option.isNone_none, Bool.true_and]
      by_cases henabled : c.partnerChannelEnabled = true
      case neg =>
        rw [if_pos henabled, Bool.eq_false_iff.2 henabled]
        refine ⟨fun hr => by
          simp at hr, fun _ => ⟨_, rfl, consumes_kept h hkept fun visit => .inl ?_⟩⟩
        unfold conflicts
        rw [Bool.eq_false_iff.2 henabled, Bool.false_and, Bool.false_and]
      rw [if_neg (by simpa using henabled), henabled, Bool.true_and]
      cases hvisit : p.inviteVisit with
      | some id =>
        dsimp only
        rw [Option.bind_some]
        cases hlock : lockVisit s id false v.now with
        | none =>
          have hl : losesPending s user v.now = true := by
            unfold losesPending
            rw [hp]
            simp [hvisit, hlock]
          exact ⟨fun hr => by simp at hr, fun _ => ⟨_, rfl, consumes_dropped h hp hl⟩⟩
        | some found =>
          obtain ⟨visit, link⟩ := found
          have hl : losesPending s user v.now = false := by
            unfold losesPending
            rw [hp]
            simp [hvisit, hlock, hexpired]
          obtain ⟨hlink, channel, hchannel⟩ := h.channel_of_visit hlock
          have hof : (visitAttribution user visit link true).partnerChannel = link.partnerChannel :=
            rfl
          have hwho : (visitAttribution user visit link true).user = user := rfl
          dsimp only
          unfold insertIfAllowed
          rw [hof, hwho, hchannel, Option.any_some]
          dsimp only
          cases hself : s.refersToSelf user channel with
          | some e =>
            exact ⟨fun hr => by simp at hr,
              fun _ => ⟨_, rfl, consumes_kept h hkept fun _ => .inr hl⟩⟩
          | none =>
            obtain ⟨hpays, hfails⟩ := insert_paid (a := visitAttribution user visit link true)
              (some p.id) h hfresh hattribution rfl rfl (h.bonuses link hlink)
            rw [Option.isNone_none, Bool.true_and]
            refine ⟨hfails, fun hroom => ?_⟩
            obtain ⟨r, hr⟩ := hpays hroom
            refine ⟨r, hr, consumes_attributed (insert_attributes hr) fun _ => .inr hl⟩
      | none =>
        dsimp only
        rw [Option.bind_none]
        refine ⟨fun hr => by simp at hr, fun _ => ?_⟩
        cases hlink : currentLink? s p with
        | none =>
          have hl : losesPending s user v.now = true := by
            unfold losesPending
            rw [hp]
            simp [hvisit, hlink]
          exact ⟨_, rfl, consumes_dropped h hp hl⟩
        | some link =>
          have hl : losesPending s user v.now = false := by
            unfold losesPending
            rw [hp]
            simp [hvisit, hlink, hexpired]
          obtain ⟨ch, hch, hid⟩ := h.pended p (Table.mem_of_find? hp)
          have hchannel : s.channel? (legacyAttribution user p link).partnerChannel = some ch := by
            refine Table.find?_of_mem hch (decide_eq_true hid) fun x hx => .inl ?_
            exact (of_decide_eq_true hx).trans hid.symm
          have hwho : (legacyAttribution user p link).user = user := rfl
          dsimp only
          unfold insertIfAllowed
          rw [hchannel, hwho]
          dsimp only
          cases s.refersToSelf user ch with
          | some e => exact ⟨_, rfl, consumes_kept h hkept fun _ => .inr hl⟩
          | none =>
            obtain ⟨_, hi⟩ := insert_fresh
              ((legacyAttribution user p link).row (v.uuid 0) v.now) hfresh hattribution
            have hr := @insert_unpaid s (legacyAttribution user p link) (some p.id) v rfl
            rw [hi] at hr
            exact ⟨_, hr, consumes_attributed (insert_attributes hr) fun _ => .inr hl⟩

/-- A user nobody has referred to yet, with an account that is empty. -/
structure JustCreated (s : ReferralDb) (user : UserId) : Prop where
  owns : ∀ ch ∈ s.channels, ch.owner ≠ .individual user
  joins : ∀ m ∈ s.memberships, m.user ≠ user
  account : ∃ account, s.accounts.find? (·.user = some user) = some account
    ∧ s.books.accounts.find? (·.id = account.id) = some ⟨account.id, 0, 0⟩
  key : (bonusKey user).length ≤ 128

theorem JustCreated.allowed (h : JustCreated s user) {channel : PartnerChannel}
    (hmem : channel ∈ s.channels) :
    s.refersToSelf user channel = none := by
  unfold ReferralDb.refersToSelf
  cases ho : channel.owner with
  | individual owner =>
    refine if_neg fun hself => h.owns channel hmem ?_
    rw [ho, hself]
  | team organization =>
    refine if_neg fun hmember => ?_
    obtain ⟨m, hm, _, hu, _⟩ := activeMember_iff.1 hmember
    exact h.joins m hm hu

theorem JustCreated.paid (h : JustCreated s user) {n : Nat} (hcolumn : (n : Int) < maxMoney) :
    refusesBonus s user n = false := by
  obtain ⟨account, haccount, hrow⟩ := h.account
  have hroom : ¬ maxMoney ≤ (0 : Int) + n := by omega
  have hkey : ¬ 128 < (bonusKey user).length := Nat.not_lt.2 h.key
  have hversion : ¬ maxVersion ≤ 0 := by decide
  unfold refusesBonus noRoom
  rw [haccount]
  dsimp only
  rw [hrow]
  dsimp only
  rw [decide_eq_false hroom, decide_eq_false hkey, decide_eq_false hversion, Bool.or_false,
    Bool.or_false, Bool.and_false, Bool.and_false]

/-- **A new user is attributed or not, and the login goes on.** -/
theorem attributeCreated_ends (visit : Option Uuid) (h : Consistent s)
    (hfresh : ∀ r ∈ s.attributions, r.id ≠ v.uuid 0) (hnew : JustCreated s user) :
    ∃ r, attributeCreatedInvite c s user visit v = .ok r := by
  unfold attributeCreatedInvite
  cases visit with
  | none => exact ⟨_, rfl⟩
  | some id =>
    dsimp only
    by_cases henabled : ¬ c.partnerChannelEnabled = true
    · rw [if_pos henabled]
      exact ⟨_, rfl⟩
    rw [if_neg henabled]
    cases hattribution : s.attribution? user with
    | some a => exact ⟨_, rfl⟩
    | none =>
      rw [if_neg (by simp)]
      cases hlock : lockVisit s id true v.now with
      | none => exact ⟨_, rfl⟩
      | some found =>
        obtain ⟨visit, link⟩ := found
        obtain ⟨hlink, channel, hchannel⟩ := h.channel_of_visit hlock
        have hof : (visitAttribution user visit link true).partnerChannel = link.partnerChannel :=
          rfl
        have hwho : (visitAttribution user visit link true).user = user := rfl
        obtain ⟨hpays, _⟩ := insert_paid (a := visitAttribution user visit link true) none
          h hfresh hattribution rfl rfl (h.bonuses link hlink)
        dsimp only
        unfold insertIfAllowed
        rw [hof, hwho, hchannel]
        dsimp only
        rw [hnew.allowed (Table.mem_of_find? hchannel)]
        exact hpays (hnew.paid (h.bonuses link hlink))

end Calls

end Roamkit.Partner.Proof
