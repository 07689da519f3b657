import Roamkit.Proof.InviteBonus

/-!
# Visits that attribute

An attribution by an invite goes by a visit, which is checked under the lock of its link;
the link stays locked until the attribution is inserted. A click is compared with the
last regeneration by their times, which are in the order of the writes when the clock
only moves on. How old a click may be is asked once: when it is checked for the
attribution or, before that, for a pending row.
-/

namespace Roamkit.Partner.Proof

open Lib Billing Organizations Partner Billing.Proof

/-- The clock of a step is later than the times of clicks and of regenerations. -/
def ClockAhead (s : ReferralDb) (_ : ReferralThread) (x : ReferralInput) : Prop :=
  ∀ v, x = .go v → (∀ w ∈ s.visits, w.createdAt < v.now)
    ∧ ∀ l ∈ s.links, ∀ r, l.regeneratedAt = some r → r < v.now

/-- No registration is pending. -/
def NoPendings (s : ReferralDb) : Prop := s.pendings = .empty ∧ s.locks = []

/-- The attribution a call has checked. -/
def checkedAttribution? : ReferralPc → Option (NewAttribution × Option Uuid)
  | .attributing a pending => some (a, pending)
  | .inserting a pending => some (a, pending)
  | _ => none

/-- A visit that is good, by a link the call holds. -/
def GoodVisit (s : ReferralDb) (t : ReferralThread) (a : NewAttribution) (visit : Uuid) : Prop :=
  ∃ w ∈ s.visits, ∃ l ∈ s.links, w.id = visit ∧ l.id = w.inviteLink ∧ a.inviteLink = some l.id
    ∧ l.isActive = true ∧ visitPredatesRegeneration w l = false ∧ .link l.id ∈ t.held

/-- What an attribution by a visit relies on. -/
structure VisitLocal (s : ReferralDb) (t : ReferralThread) : Prop where
  locked : Locked s t
  good : ∀ a pending visit, checkedAttribution? t.pc = some (a, pending)
    → a.inviteVisit = some visit →
    GoodVisit s t a visit

/-! ## What a step does to visits, links and pending rows -/

/-- The tables an invite is about, after a step. -/
inductive VisitMove (s : ReferralDb) (t : ReferralThread) (x : ReferralInput)
    (s₁ : ReferralDb) : Prop
  | drops : s₁.visits = s.visits → s₁.links = s.links → (∀ p ∈ s₁.pendings, p ∈ s.pendings)
      → VisitMove s t x s₁
  | records {user : UserId} {id : Uuid} {visit : InviteVisit} {link : PartnerInviteLink}
      {v : ReferralView} :
      x = .go v → PassesVisit s id true v.now visit link →
      s.pendings.insert? (pendingRow user visit link v) = some s₁.pendings → s₁.visits = s.visits →
      s₁.links = s.links → VisitMove s t x s₁
  | relinks {id : Uuid} {f : PartnerInviteLink → PartnerInviteLink} {v : ReferralView} :
      x = .go v → s.grants t (.link id) = true → Relinks v.now f →
      s₁.links.rows = s.links.rows.map (rewrite (·.id = id) f) → s₁.visits = s.visits →
      (∀ p ∈ s₁.pendings, p ∈ s.pendings) → VisitMove s t x s₁
  | mints {link : PartnerInviteLink} :
      s.links.insert? link = some s₁.links → s₁.visits = s.visits → s₁.pendings = s.pendings →
      VisitMove s t x s₁
  | visits {visit : InviteVisit} : s.visits.insert? visit = some s₁.visits → s₁.links = s.links →
      s₁.pendings = s.pendings → VisitMove s t x s₁

variable {id : Uuid} {a : NewAttribution} {pending : Option Uuid}

section Moves

variable {c : ReferralSettings} {s s' s₁ : ReferralDb} {t t' u : ReferralThread} {x : ReferralInput}

theorem VisitMove.of_same (hvisits : s₁.visits = s.visits) (hlinks : s₁.links = s.links)
    (hpendings : s₁.pendings = s.pendings) : VisitMove s t x s₁ :=
  .drops hvisits hlinks fun _ hp => hpendings ▸ hp

theorem saveMembershipRow_visits {f : Membership → Membership}
    (h : saveMembershipRow s id f = .ok s₁) : VisitMove s t x s₁ := by
  obtain ⟨_, _, rfl⟩ := saveMembershipRow_cases h
  exact .of_same rfl rfl rfl

theorem insertAttribution_visits {v : ReferralView} {ans : ReferralAnswer}
    (h : insertAttribution s a pending v = .ok (s₁, ans)) : VisitMove s t x s₁ := by
  obtain ⟨attributions, s₂, _, hb, rfl⟩ := insertAttribution_cases h
  have hs₂ : s₂.visits = s.visits ∧ s₂.links = s.links ∧ s₂.pendings = s.pendings := by
    rcases creditBonus_cases hb with rfl | ⟨_, _, _, _, _, _, _, _, _, _, _, _, rfl⟩
    · exact ⟨rfl, rfl, rfl⟩
    · exact ⟨rfl, rfl, rfl⟩
  obtain ⟨hvisits, hlinks, hpendings⟩ := hs₂
  cases pending with
  | none => exact .of_same hvisits hlinks hpendings
  | some id =>
    refine .drops hvisits hlinks fun p hp => ?_
    rw [← hpendings]
    exact (Table.mem_remove.1 hp).1

theorem write_visits (hw : ReferralWrite c s t x s₁) : VisitMove s t x s₁ := by
  cases hw with
  | stays => exact .of_same rfl rfl rfl
  | creates h =>
    obtain ⟨_, _, _, _, rfl⟩ := createOrganization_tables h
    exact .of_same rfl rfl rfl
  | setsStatus => exact .of_same rfl rfl rfl
  | promotes _ _ _ h =>
    rcases promote_cases h with rfl | ⟨_, s₂, _, _, _, _, h₂, h₃⟩
    · exact .of_same rfl rfl rfl
    · obtain ⟨_, _, rfl⟩ := saveMembershipRow_cases h₂
      obtain ⟨_, _, rfl⟩ := saveMembershipRow_cases h₃
      exact .of_same rfl rfl rfl
  | setsRole _ _ h =>
    obtain ⟨_, _, _, _, _, hs⟩ := setRole_cases h
    exact saveMembershipRow_visits hs
  | revokes _ _ h =>
    rcases revoke_cases h with rfl | ⟨_, _, _, hs⟩
    · exact .of_same rfl rfl rfl
    · exact saveMembershipRow_visits hs
  | writesInvite _ _ _ hi =>
    obtain ⟨_, rfl⟩ := writeInvite_cases hi
    exact .of_same rfl rfl rfl
  | revokesInvite _ hi =>
    obtain ⟨_, rfl⟩ := revokeInvite_cases hi
    exact .of_same rfl rfl rfl
  | expires _ _ =>
    obtain ⟨_, hexpired⟩ := expire_cases s _
    rw [hexpired]
    exact .of_same rfl rfl rfl
  | accepts _ _ _ => exact .of_same rfl rfl rfl
  | joins _ _ _ => exact .of_same rfl rfl rfl
  | rejoins _ _ _ _ h =>
    obtain ⟨_, _, rfl⟩ := saveMembershipRow_cases h
    exact .of_same rfl rfl rfl
  | saves _ _ h =>
    obtain ⟨_, rfl⟩ := saveForms_cases h
    exact .of_same rfl rfl rfl
  | records hx hpasses hi => exact .records hx hpasses hi rfl rfl
  | drops hsub => exact .drops rfl rfl hsub
  | attributes _ _ h => exact insertAttribution_visits h
  | moves _ _ => exact .of_same rfl rfl rfl
  | mints _ _ _ h =>
    obtain ⟨_, channels, links, _, _, hl, rfl⟩ := createChannel_cases h
    exact .mints hl rfl rfl
  | resettles _ => exact .of_same rfl rfl rfl
  | relinks hx hgrant hf hrows hsub => exact .relinks hx hgrant hf hrows rfl hsub
  | visits _ _ hi => exact .visits hi rfl rfl
  | registers h =>
    obtain ⟨_, _, _, rfl⟩ := registerPerson_cases h
    exact .of_same rfl rfl rfl
  | posts _ _ => exact .of_same rfl rfl rfl

/-! ## Clicks stay, and links keep what they were regenerated -/

/-- No click is lost, and the last regeneration of a link is never an earlier one. -/
structure ClicksKept (s s₁ : ReferralDb) : Prop where
  visits : ∀ w ∈ s.visits, w ∈ s₁.visits
  links : ∀ l ∈ s.links, ∃ l' ∈ s₁.links, l'.id = l.id
    ∧ ∀ r, l.regeneratedAt = some r → ∃ r', l'.regeneratedAt = some r' ∧ r ≤ r'

theorem ClicksKept.refl (s : ReferralDb) : ClicksKept s s :=
  ⟨fun _ hw => hw, fun l hl => ⟨l, hl, rfl, fun r hr => ⟨r, hr, le_refl r⟩⟩⟩

theorem ClicksKept.trans {s₂ : ReferralDb} (h : ClicksKept s s₁)
    (h' : ClicksKept s₁ s₂) : ClicksKept s s₂ := by
  refine ⟨fun w hw => h'.visits w (h.visits w hw), fun l hl => ?_⟩
  obtain ⟨l₁, hl₁, hid₁, hr₁⟩ := h.links l hl
  obtain ⟨l₂, hl₂, hid₂, hr₂⟩ := h'.links l₁ hl₁
  refine ⟨l₂, hl₂, hid₂.trans hid₁, fun r hr => ?_⟩
  obtain ⟨r₁, hsome₁, hle₁⟩ := hr₁ r hr
  obtain ⟨r₂, hsome₂, hle₂⟩ := hr₂ r₁ hsome₁
  exact ⟨r₂, hsome₂, le_trans hle₁ hle₂⟩

theorem ClicksKept.of_links (hvisits : ∀ w ∈ s.visits, w ∈ s₁.visits)
    (hlinks : ∀ l ∈ s.links, l ∈ s₁.links) :
    ClicksKept s s₁ :=
  ⟨hvisits, fun l hl => ⟨l, hlinks l hl, rfl, fun r hr => ⟨r, hr, le_refl r⟩⟩⟩

theorem VisitMove.kept (h : VisitMove s t x s₁) (hok : ClockAhead s t x) : ClicksKept s s₁ := by
  cases h with
  | drops hvisits hlinks _ => exact .of_links (fun w hw => hvisits ▸ hw) fun l hl => hlinks ▸ hl
  | records _ _ _ hvisits hlinks =>
      exact .of_links (fun w hw => hvisits ▸ hw) fun l hl => hlinks ▸ hl
  | mints hi hvisits _ =>
    exact .of_links (fun w hw => hvisits ▸ hw) fun l hl => (Table.mem_insert hi).2 (.inl hl)
  | visits hi hlinks _ =>
    exact .of_links (fun w hw => (Table.mem_insert hi).2 (.inl hw)) fun l hl => hlinks ▸ hl
  | @relinks id f v hx _ hf hrows hvisits _ =>
    refine ⟨fun w hw => hvisits ▸ hw, fun l hl => ?_⟩
    have hmem : rewrite (·.id = id) f l ∈ s₁.links := by
      rw [Table.mem_def, hrows]
      exact Table.mem_rewritten hl
    refine ⟨_, hmem, ?_, fun r hr => ?_⟩
    · unfold Lib.rewrite
      split
      · exact hf.id l
      · rfl
    · by_cases hid : l.id = id
      · rw [rewrite_pos f (by simpa using hid)]
        rcases hf.regeneratedAt with hsame | hnow
        · exact ⟨r, (hsame l).trans hr, le_refl r⟩
        · -- the clock has moved on since the regeneration before
          have hlt := (hok v hx).2 l hl r hr
          exact ⟨v.now, hnow l, le_of_lt hlt⟩
      · rw [rewrite_neg f (by simpa using hid)]
        exact ⟨r, hr, le_refl r⟩

/-! ## Every step keeps it -/

theorem PassesVisit.rows {checkWindow : Bool} {now : Time} {w : InviteVisit}
    {l : PartnerInviteLink} (h : PassesVisit s id checkWindow now w l) :
    w ∈ s.visits ∧ l ∈ s.links ∧ w.id = id ∧ l.id = w.inviteLink ∧ l.isActive = true
      ∧ visitPredatesRegeneration w l = false
        ∧ (checkWindow = true → now - attributionWindow ≤ w.createdAt) := by
  obtain ⟨hfound, hvalid⟩ := h
  unfold visitLink? at hfound
  split at hfound
  · cases hfound
  rename_i row hrow
  obtain ⟨link, hlink, heq⟩ := Option.map_eq_some_iff.1 hfound
  cases heq
  unfold validInviteVisit at hvalid
  rw [Bool.and_eq_true, Bool.and_eq_true] at hvalid
  obtain ⟨⟨hactive, hnot⟩, hold⟩ := hvalid
  refine ⟨Table.mem_of_find? hrow, Table.mem_of_find? hlink, by
    simpa using Table.prop_of_find? hrow,
    by simpa using Table.prop_of_find? hlink, hactive, by simpa using hnot, ?_⟩
  intro hcheck
  have hlate : ¬ w.createdAt < now - attributionWindow := by simpa [hcheck] using hold
  exact Int.not_lt.1 hlate

/-- A link that another call holds stays as it is. -/
theorem VisitMove.held {l : PartnerInviteLink} (hmove : VisitMove s t x s₁) (hu : Locked s u)
    (hapart : ApartRows t u) (hheld : .link l.id ∈ u.held) (hl : l ∈ s.links) : l ∈ s₁.links := by
  cases hmove with
  | drops _ hlinks _ => exact hlinks ▸ hl
  | records _ _ _ _ hlinks => exact hlinks ▸ hl
  | mints hi _ _ => exact (Table.mem_insert hi).2 (.inl hl)
  | visits _ hlinks _ => exact hlinks ▸ hl
  | @relinks id f _ _ hgrant _ hrows _ _ =>
    rw [Table.mem_def, hrows]
    have hother : l.id ≠ id := by
      rintro rfl
      rw [not_grants hu hapart hheld] at hgrant
      cases hgrant
    have hsame : rewrite (·.id = id) f l = l := rewrite_neg f (by simpa using hother)
    exact List.mem_map.2 ⟨l, hl, hsame⟩

/-- What is checked when a call goes on to its attribution. -/
theorem goes_checked {visit : Uuid} {held : List LockedRow} {pc : ReferralPc}
    (hgoes : ReferralGoes c s t x held pc) (hpc : checkedAttribution? pc = some (a, pending))
    (hvisit : a.inviteVisit = some visit) :
    checkedAttribution? t.pc = some (a, pending) ∨ AttributesVisit s t x held a pending visit := by
  have hcases : pc = .attributing a pending ∨ pc = .inserting a pending := by
    unfold checkedAttribution? at hpc
    split at hpc
    · cases hpc
      exact .inl rfl
    · cases hpc
      exact .inr rfl
    · cases hpc
  rcases hcases with rfl | rfl
  · cases hgoes with
    | plain hplain => cases hplain
    | proceeds _ _ _ _ _ _ _ hok =>
      have hplace := proceeds_of_ok hok
      cases hplace
    | takesUser _ _ _ _ _ _ _ _ hattributes => exact .inr (hattributes a pending visit rfl hvisit)
  · cases hgoes with
    | plain hplain => cases hplain
    | proceeds _ _ _ _ _ _ _ hok =>
      have hplace := proceeds_of_ok hok
      cases hplace
    | takesUser _ _ _ hinserting _ _ _ _ _ => exact absurd rfl (hinserting a pending)
    | allows _ hfrom _ _ _ =>
      rw [hfrom]
      exact .inl rfl

theorem GoodVisit.held {visit : Uuid} {locks : List LockedRow} (h : GoodVisit s t a visit)
    (hheld : ∀ row ∈ t.held, row ∈ t'.held) : GoodVisit { s with locks } t' a visit := by
  obtain ⟨w, hw, l, hl, hwid, hlid, ha, hactive, hnot, hrow⟩ := h
  exact ⟨w, hw, l, hl, hwid, hlid, ha, hactive, hnot, hheld _ hrow⟩

end Moves

theorem visitInvariant (c : ReferralSettings) :
    Invariant (referralProgram c) NoPendings ClockAhead (fun _ => True) VisitLocal ApartRows where
  init _ := trivial
  start k _ := by
    refine ⟨?_, ?_⟩
    · intro row hrow
      cases hrow
    · intro a pending visit hpc
      cases hpc
  apart_start k _ := ApartRows.start k
  symm h := h.symm
  step := by
    intro s t x s' t' _ hL hok hstep
    have he := referralStep_effect hstep
    refine ⟨trivial, he.taken hL.locked, ?_⟩
    intro a pending visit hpc hvisit
    have hlive : t'.pc.isLive = true := by
      unfold checkedAttribution? at hpc
      split at hpc
      · rename_i h
        rw [h]
        rfl
      · rename_i h
        rw [h]
        rfl
      · cases hpc
    obtain ⟨hsame, hheld, hgoes⟩ := he.goes hlive
    rw [hsame]
    rcases goes_checked hgoes hpc hvisit with hold | ⟨v, w, l, _, _, hpasses, ha, hrow⟩
    · exact (hL.good a pending visit hold hvisit).held hheld
    · obtain ⟨hw, hl, hwid, hlid, hactive, hnot, _⟩ := hpasses.rows
      exact ⟨w, hw, l, hl, hwid, hlid, ha, hactive, hnot, hrow⟩
  frame := by
    intro s t x s' t' u hG hL hok hstep hu hapart
    have he := referralStep_effect hstep
    obtain ⟨s₁, hw, hs'⟩ := he.write
    obtain ⟨hlocked, hapart'⟩ := he.frame hu.locked hapart
    refine ⟨⟨hlocked, ?_⟩, hapart'⟩
    intro a pending visit hpc hvisit
    obtain ⟨w, hw', l, hl, hwid, hlid, ha, hactive, hnot, hrow⟩ :=
      hu.good a pending visit hpc hvisit
    have hmove := write_visits hw
    have hwisit := (hmove.kept hok).visits w hw'
    have hlink := hmove.held hu.locked hapart hrow hl
    rw [hs']
    exact ⟨w, hwisit, l, hlink, hwid, hlid, ha, hactive, hnot, hrow⟩

/-! ## What was checked, and when -/

section History

variable {c : ReferralSettings} {g g' : Config ReferralDb ReferralThread} {p : Nat} {visit : Uuid}

/-- The runs in which the clock only moves on. -/
abbrev ClockedReach (c : ReferralSettings) (g : Config ReferralDb ReferralThread) : Prop :=
  (referralProgram c).ReachWhere NoPendings ClockAhead g

abbrev ClockedLeads (c : ReferralSettings) (g g' : Config ReferralDb ReferralThread) : Prop :=
  (referralProgram c).LeadsWhere ClockAhead g g'

/-- The transaction of a call has checked a visit; without a pending row, the age of it too. -/
def CheckedEarlier (c : ReferralSettings) (g : Config ReferralDb ReferralThread) (p : Nat)
    (visit : Uuid) (pending : Option Uuid) : Prop :=
  ∃ g₀ g₁ t₀ v, ClockedReach c g₀ ∧ g₀.threads p = some t₀ ∧ t₀.pc = .visiting visit pending
    ∧ (referralProgram c).exec g₀ (.tick p (.go v)) = some g₁ ∧ ClockedLeads c g₁ g
    ∧ ∃ w ∈ g₀.store.visits, w.id = visit
      ∧ (pending = none → v.now - attributionWindow ≤ w.createdAt)

/-- There was a pending row of a visit. -/
def PendedEarlier (c : ReferralSettings) (g : Config ReferralDb ReferralThread)
    (visit id : Uuid) : Prop :=
  ∃ g₀ row, ClockedReach c g₀ ∧ ClockedLeads c g₀ g ∧ row ∈ g₀.store.pendings ∧ row.id = id
    ∧ row.inviteVisit = some visit

/-- A pending row was recorded, by a step that checked its visit: it was at most 30 days old
then. -/
def RecordedEarlier (c : ReferralSettings) (g : Config ReferralDb ReferralThread) (w : InviteVisit)
    (id : Uuid) :
    Prop :=
  ∃ g₀ g₁ q v row, ClockedReach c g₀ ∧ (∀ p ∈ g₀.store.pendings, p.id ≠ id)
    ∧ (referralProgram c).exec g₀ (.tick q (.go v)) = some g₁ ∧ ClockedLeads c g₁ g
    ∧ row ∈ g₁.store.pendings ∧ row.id = id ∧ row.inviteVisit = some w.id
    ∧ row.expiresAt = pendingExpiresAt (v.now + v.lag)
    ∧ w ∈ g₀.store.visits ∧ v.now - attributionWindow ≤ w.createdAt

/-- What a call knows of the run so far. -/
structure Remembers (c : ReferralSettings) (g : Config ReferralDb ReferralThread) (p : Nat)
    (t : ReferralThread) :
    Prop where
  checked : ∀ a pending visit, checkedAttribution? t.pc = some (a, pending)
    → a.inviteVisit = some visit →
    CheckedEarlier c g p visit pending ∧ ∀ id, pending = some id → PendedEarlier c g visit id
  visiting : ∀ visit id, t.pc = .visiting visit (some id) → PendedEarlier c g visit id

theorem PendedEarlier.later (h : PendedEarlier c g visit id) (hl : ClockedLeads c g g') :
    PendedEarlier c g' visit id := by
  obtain ⟨g₀, row, hreach, hleads, hprops⟩ := h
  exact ⟨g₀, row, hreach, hleads.trans hl, hprops⟩

theorem RecordedEarlier.later {w : InviteVisit} (h : RecordedEarlier c g w id)
    (hl : ClockedLeads c g g') : RecordedEarlier c g' w id := by
  obtain ⟨g₀, g₁, q, v, row, hreach, hnone, he, hleads, hprops⟩ := h
  exact ⟨g₀, g₁, q, v, row, hreach, hnone, he, hleads.trans hl, hprops⟩

theorem CheckedEarlier.later (h : CheckedEarlier c g p visit pending) (hl : ClockedLeads c g g') :
    CheckedEarlier c g' p visit pending := by
  obtain ⟨g₀, g₁, t₀, v, hreach, hp, hpc, he, hleads, hprops⟩ := h
  exact ⟨g₀, g₁, t₀, v, hreach, hp, hpc, he, hleads.trans hl, hprops⟩

theorem Remembers.later {t : ReferralThread} (h : Remembers c g p t) (hl : ClockedLeads c g g') :
    Remembers c g' p t := by
  refine ⟨?_, fun visit id hpc => (h.visiting visit id hpc).later hl⟩
  intro a pending visit hpc hvisit
  obtain ⟨hchecked, hpended⟩ := h.checked a pending visit hpc hvisit
  exact ⟨hchecked.later hl, fun id hid => (hpended id hid).later hl⟩

/-- A step of a call, as the call remembers the run. -/
theorem Remembers.step {t t' : ReferralThread} {x : ReferralInput} (hreach : ClockedReach c g)
    (hok : Program.Meets ClockAhead g (.tick p x : Act ReferralCall ReferralInput))
    (he : (referralProgram c).exec g (.tick p x) = some g') (ht : g.threads p = some t)
    (hstep : referralStep c g.store t x = some (g'.store, t')) (h : Remembers c g p t) :
    Remembers c g' p t' := by
  have hl : ClockedLeads c g g' := .tail .refl hok he
  have heffect := referralStep_effect hstep
  refine ⟨?_, ?_⟩
  · intro a pending visit hpc hvisit
    have hlive : t'.pc.isLive = true := by
      cases hp : t'.pc with
      | returned _ => rw [hp] at hpc; cases hpc
      | raised _ => rw [hp] at hpc; cases hpc
      | _ => rfl
    obtain ⟨_, _, hgoes⟩ := heffect.goes hlive
    rcases goes_checked hgoes hpc hvisit with hold | ⟨v, w, l, rfl, hfrom, hpasses, _, _⟩
    · obtain ⟨hchecked, hpended⟩ := h.checked a pending visit hold hvisit
      exact ⟨hchecked.later hl, fun id hid => (hpended id hid).later hl⟩
    · obtain ⟨hw, _, hwid, _, _, _, hold⟩ := hpasses.rows
      refine ⟨⟨g, g', t, v, hreach, ht, hfrom, he, .refl, w, hw, hwid, ?_⟩, ?_⟩
      · rintro rfl
        exact hold rfl
      · rintro id rfl
        exact (h.visiting visit id hfrom).later hl
  · intro visit id hpc
    have hlive : t'.pc.isLive = true := by
      rw [hpc]
      rfl
    obtain ⟨_, _, hgoes⟩ := heffect.goes hlive
    rw [hpc] at hgoes
    cases hgoes with
    | plain hplain => cases hplain
    | proceeds _ _ _ _ _ _ _ hproceed =>
      have hplace := proceeds_of_ok hproceed
      cases hplace
    | takesUser _ _ _ _ _ _ _ hpended _ =>
      obtain ⟨row, hrow, hid, hvisit⟩ := hpended visit id rfl
      exact ⟨g, row, hreach, hl, hrow, hid, hvisit⟩

theorem remembers (h : ClockedReach c g) {t : ReferralThread} (ht : g.threads p = some t) :
    Remembers c g p t := by
  induction h generalizing t with
  | idle _ => cases ht
  | @tail g g' a hreach hok he ih =>
    have hl : ClockedLeads c g g' := .tail .refl hok he
    cases a with
    | call q k =>
      obtain ⟨_, _, hthreads⟩ := Program.exec_call he
      rw [hthreads] at ht
      by_cases hpq : p = q
      · rw [hpq, Function.update_self] at ht
        cases ht
        refine ⟨?_, ?_⟩
        · intro a pending visit hpc
          cases hpc
        · intro visit id hpc
          cases hpc
      · rw [Function.update_of_ne hpq] at ht
        exact (ih ht).later hl
    | tick q x =>
      obtain ⟨u, u', hu, hstep, hthreads⟩ := Program.exec_tick he
      rw [hthreads] at ht
      by_cases hpq : p = q
      · subst hpq
        rw [Function.update_self] at ht
        cases ht
        exact (ih hu).step hreach hok he hu hstep
      · rw [Function.update_of_ne hpq] at ht
        exact (ih ht).later hl

theorem clicks_later (hreach : ClockedReach c g) (hl : ClockedLeads c g g') :
    ClicksKept g.store g'.store := by
  refine hl.keeps hreach ClicksKept.refl (fun _ _ _ h h' => h.trans h') ?_
  intro g p t x s' t' _ _ hok hstep
  obtain ⟨s₁, hw, hs'⟩ := (referralStep_effect hstep).write
  have hkept := (write_visits hw).kept hok
  rw [hs']
  exact ⟨hkept.visits, hkept.links⟩

/-- Every pending row with a visit was recorded by a step of the run. -/
theorem pendings_recorded (h : ClockedReach c g) {row : PendingPartnerAttribution}
    (hrow : row ∈ g.store.pendings) (hvisit : row.inviteVisit = some visit) :
    ∃ w ∈ g.store.visits, w.id = visit ∧ RecordedEarlier c g w row.id := by
  induction h generalizing row with
  | @idle s hs =>
    have hrow : row ∈ s.pendings := hrow
    rw [hs.1] at hrow
    exact absurd hrow (Table.not_mem_empty row)
  | @tail g g' a hreach hok he ih =>
    have hl : ClockedLeads c g g' := .tail .refl hok he
    have hkept := (clicks_later hreach hl).visits
    -- a row that was there before was recorded by an earlier step
    have hold : row ∈ g.store.pendings →
        ∃ w ∈ g'.store.visits, w.id = visit ∧ RecordedEarlier c g' w row.id := by
      intro hrow
      obtain ⟨w, hw, hwid, hrecorded⟩ := ih hrow hvisit
      exact ⟨w, hkept w hw, hwid, hrecorded.later hl⟩
    cases a with
    | call q k =>
      obtain ⟨_, hsame, _⟩ := Program.exec_call he
      exact hold (hsame ▸ hrow)
    | tick q x =>
      obtain ⟨u, u', _, hstep, _⟩ := Program.exec_tick he
      obtain ⟨s₁, hwrite, hs₁⟩ := (referralStep_effect hstep).write
      have hrow₁ : row ∈ s₁.pendings := by
        rw [hs₁] at hrow
        exact hrow
      cases write_visits hwrite with
      | drops _ _ hsub => exact hold (hsub row hrow₁)
      | relinks _ _ _ _ _ hsub => exact hold (hsub row hrow₁)
      | mints _ _ hsame => exact hold (hsame ▸ hrow₁)
      | visits _ _ hsame => exact hold (hsame ▸ hrow₁)
      | @records user id w link v hx hpasses hi _ _ =>
        rcases (Table.mem_insert hi).1 hrow₁ with hrow | rfl
        · exact hold hrow
        · -- the row is new, so the step that recorded it is this one
          obtain ⟨hw, _, _, _, _, _, hage⟩ := hpasses.rows
          obtain rfl : w.id = visit := Option.some.inj hvisit
          subst hx
          have hfresh : ∀ p ∈ g.store.pendings, p.id ≠ v.uuid 0 := by
            intro p hp hsame
            exact Table.apart_of_insert hi hp (.inl hsame)
          exact ⟨w, hkept w hw, rfl, g, g', q, v, _, hreach, hfresh, he, .refl, hrow, rfl,
            rfl, rfl, hw, hage rfl⟩

end History

/-! ## The headline -/

/-- A step that regenerates a link. -/
def Regenerates (s s₁ : ReferralDb) (id : Uuid) : Prop :=
  ∃ l ∈ s.links, ∃ l₁ ∈ s₁.links, l.id = id ∧ l₁.id = id ∧ l₁.regeneratedAt ≠ l.regeneratedAt

/-- A regeneration is at the time of the clock. -/
theorem regenerates_now {s s₁ : ReferralDb} {t : ReferralThread} {x : ReferralInput}
    (hmove : VisitMove s t x s₁) (hreg : Regenerates s s₁ id) :
    ∃ v, x = .go v ∧ ∃ l₁ ∈ s₁.links, l₁.id = id ∧ l₁.regeneratedAt = some v.now := by
  obtain ⟨l, hl, l₁, hl₁, hid, hid₁, hne⟩ := hreg
  -- two rows of one id are one row, so a link that stands was not regenerated
  have hstays : l ∈ s₁.links
      → ∃ v, x = .go v ∧ ∃ l₁ ∈ s₁.links, l₁.id = id ∧ l₁.regeneratedAt = some v.now := by
    intro hmem
    have hsame : l₁ = l := Table.eq_of_clash hl₁ hmem (.inl (hid₁.trans hid.symm))
    exact absurd (congrArg PartnerInviteLink.regeneratedAt hsame) hne
  cases hmove with
  | drops _ hlinks _ => exact hstays (hlinks ▸ hl)
  | records _ _ _ _ hlinks => exact hstays (hlinks ▸ hl)
  | mints hi _ _ => exact hstays ((Table.mem_insert hi).2 (.inl hl))
  | visits _ hlinks _ => exact hstays (hlinks ▸ hl)
  | @relinks id' f v hx _ hf hrows _ _ =>
    rw [Table.mem_def, hrows] at hl₁
    obtain ⟨l₀, hl₀, ⟨_, rfl⟩ | ⟨_, rfl⟩⟩ := Table.of_mem_rewritten hl₁
    · have hsame : l₀ = l :=
        Table.eq_of_clash hl₀ hl (.inl ((hf.id l₀).symm.trans (hid₁.trans hid.symm)))
      rcases hf.regeneratedAt with hkept | hnow
      · exact absurd ((hkept l₀).trans (by rw [hsame])) hne
      · refine ⟨v, hx, f l₀, ?_, hid₁, hnow l₀⟩
        rw [Table.mem_def, hrows]
        exact hl₁
    · have hsame : l₁ = l := Table.eq_of_clash hl₀ hl (.inl (hid₁.trans hid.symm))
      exact absurd (congrArg PartnerInviteLink.regeneratedAt hsame) hne

/-- The attribution a step makes, of a user who had none. -/
theorem attribution_inserted {c : ReferralSettings} {s s' : ReferralDb} {t t' : ReferralThread}
    {x : ReferralInput} {r : CustomerAttribution} (hstep : referralStep c s t x = some (s', t'))
    (hr : r ∈ s'.attributions) (hnew : ∀ a ∈ s.attributions, a.user ≠ r.user) :
    ∃ a pending, t.pc = .inserting a pending ∧ a.inviteVisit = r.inviteVisit
      ∧ a.inviteLink = r.inviteLink := by
  obtain ⟨s₁, hw, hs'⟩ := (referralStep_effect hstep).write
  rw [hs'] at hr
  have hstays : s₁.attributions = s.attributions → False :=
    fun hsame => hnew r (hsame ▸ hr) rfl
  cases write_bonus hw with
  | same hattributions _ _ => exact (hstays hattributions).elim
  | opens _ _ hattributions _ => exact (hstays hattributions).elim
  | posts _ _ hattributions _ => exact (hstays hattributions).elim
  | moves hmoved =>
    -- the row had its user before
    rw [hmoved] at hr
    obtain ⟨a, ha, rfl⟩ := List.mem_map.1 hr
    refine absurd ?_ (hnew a ha)
    unfold Lib.rewrite
    split <;> rfl
  | @attributes k a pending v ans _ hpc hs =>
    obtain ⟨hi, _⟩ := insertAttribution_rows hs
    rcases (Table.mem_insert hi).1 hr with hold | rfl
    · exact absurd rfl (hnew r hold)
    · exact ⟨a, pending, hpc, rfl, rfl⟩

/--
**An attribution by a click is by a link that is active, and not regenerated since the
click.** The click was at most 30 days old when the transaction of the attribution
checked it or, where it goes by a pending row, when the one that recorded the row did.
-/
theorem invite_attributions_sound {c : ReferralSettings} {g g' : Config ReferralDb ReferralThread}
    {p : Nat} {x : ReferralInput} {r : CustomerAttribution} {visit : Uuid} (h : ClockedReach c g)
    (he : (referralProgram c).exec g (.tick p x) = some g') (hr : r ∈ g'.store.attributions)
    (hnew : ∀ a ∈ g.store.attributions, a.user ≠ r.user) (hvisit : r.inviteVisit = some visit) :
    ∃ w ∈ g.store.visits, ∃ l ∈ g.store.links, w.id = visit ∧ l.id = w.inviteLink
      ∧ r.inviteLink = some l.id
      ∧ l.isActive = true
      ∧ (∀ g₀ g₁ q y, ClockedReach c g₀
        → Program.Meets ClockAhead g₀ (.tick q y : Act ReferralCall ReferralInput) →
          (referralProgram c).exec g₀ (.tick q y) = some g₁ → ClockedLeads c g₁ g →
          Regenerates g₀.store g₁.store l.id → ∀ w₀ ∈ g₀.store.visits, w₀.id ≠ visit)
      ∧ ∃ pending, CheckedEarlier c g p visit pending
          ∧ ∀ id, pending = some id → RecordedEarlier c g w id := by
  obtain ⟨t, t', ht, hstep, _⟩ := Program.exec_tick he
  obtain ⟨a, pending, hpc, havisit, halink⟩ := attribution_inserted hstep hr hnew
  have hplace : checkedAttribution? t.pc = some (a, pending) := by
    rw [hpc]
    rfl
  have hlocal := ((visitInvariant c).reach h).thread p t ht
  obtain ⟨w, hw, l, hl, hwid, hlid, hlink, hactive, hnot, _⟩ :=
    hlocal.good a pending visit hplace (havisit.trans hvisit)
  obtain ⟨hchecked, hpended⟩ :=
    (remembers h ht).checked a pending visit hplace (havisit.trans hvisit)
  refine ⟨w, hw, l, hl, hwid, hlid, halink ▸ hlink, hactive, ?_, pending, hchecked, ?_⟩
  · intro g₀ g₁ q y hreach₀ hok₀ he₀ hleads hreg w₀ hw₀ hid₀
    obtain ⟨t₀, t₁, ht₀, hstep₀, _⟩ := Program.exec_tick he₀
    obtain ⟨s₁, hw₁, hs₁⟩ := (referralStep_effect hstep₀).write
    have hreg' : Regenerates g₀.store s₁ l.id := by
      rw [hs₁] at hreg
      exact hreg
    obtain ⟨v, rfl, l₁, hl₁, hlid₁, hat⟩ := regenerates_now (write_visits hw₁) hreg'
    -- the click was before the regeneration, and the link still has that one or a later one
    have hbefore : w₀.createdAt < v.now := (hok₀ t₀ ht₀ v rfl).1 w₀ hw₀
    have hreach₁ : ClockedReach c g₁ := .tail hreach₀ hok₀ he₀
    have hkept₀ := clicks_later hreach₀ (.tail .refl hok₀ he₀)
    have hkept := clicks_later hreach₁ hleads
    have hl₁' : l₁ ∈ g₁.store.links := by
      rw [hs₁]
      exact hl₁
    obtain ⟨l', hl', hlid', hlater⟩ := hkept.links l₁ hl₁'
    obtain ⟨r', hr', hle⟩ := hlater v.now hat
    have hsame : l' = l := Table.eq_of_clash hl' hl (.inl (hlid'.trans hlid₁))
    have hsamew : w₀ = w :=
      Table.eq_of_clash (hkept.visits w₀ (hkept₀.visits w₀ hw₀)) hw (hid₀.trans hwid.symm)
    rw [hsame] at hr'
    rw [hsamew] at hbefore
    have hpredates : visitPredatesRegeneration w l = true := by
      unfold visitPredatesRegeneration
      rw [hr']
      exact decide_eq_true (lt_of_lt_of_le hbefore hle)
    rw [hpredates] at hnot
    cases hnot
  · intro id hid
    obtain ⟨g₀, row, hreach₀, hleads, hrow, rfl, hrvisit⟩ := hpended id hid
    obtain ⟨w₀, hw₀, hwid₀, hrecorded⟩ := pendings_recorded hreach₀ hrow hrvisit
    have hsame : w₀ = w :=
      Table.eq_of_clash ((clicks_later hreach₀ hleads).visits w₀ hw₀) hw (hwid₀.trans hwid.symm)
    exact hsame ▸ hrecorded.later hleads

/-! ## A guest who registers by an invite -/

/-- A step at a time. -/
def stepAt (now : Time) : ReferralInput := .go ⟨now, fun i => drawn.getD i alice, fun _ => "", 0⟩

/-- The guest is attributed as a new user, at the given times. -/
def registeringAt (times : List Time) : List (Act ReferralCall ReferralInput) :=
  .call 0 (.attribution (.attributeCreated guest.id (some guestVisit)))
    :: times.map fun now => .tick 0 (stepAt now)

/-- The clock of a step is ahead, as a check. -/
def clockAhead (s : ReferralDb) (_ : ReferralThread) : ReferralInput → Bool
  | .go v => s.visits.rows.all (fun w => decide (w.createdAt < v.now))
      && s.links.rows.all fun l => l.regeneratedAt.all fun r => decide (r < v.now)
  | _ => true

theorem clockAhead_check (s : ReferralDb) (t : ReferralThread) (x : ReferralInput)
    (h : clockAhead s t x = true) : ClockAhead s t x := by
  rintro v rfl
  unfold clockAhead at h
  rw [Bool.and_eq_true, List.all_eq_true, List.all_eq_true] at h
  obtain ⟨hvisits, hlinks⟩ := h
  refine ⟨fun w hw => of_decide_eq_true (hvisits w hw), fun l hl r hr => ?_⟩
  have hl := hlinks l hl
  rw [hr] at hl
  exact of_decide_eq_true hl

/-- The next step attributes the guest by the visit, and the call has no pending row. -/
def attributesAt (now : Time) (g : Config ReferralDb ReferralThread) : Bool :=
  g.store.attributions.rows.isEmpty
    && (g.threads 0).any (fun t => decide ((checkedAttribution? t.pc).map Prod.snd = some none))
    && ((referralProgram referralSettings).exec g (.tick 0 (stepAt now))).any fun g' =>
      g'.store.attributions.rows.any fun r =>
        r.inviteVisit = some guestVisit && r.attributedAt = now

theorem of_attributesAt {now : Time} {g : Config ReferralDb ReferralThread}
    (h : attributesAt now g = true) :
    g.store.attributions.rows = []
      ∧ (∃ t a, g.threads 0 = some t ∧ checkedAttribution? t.pc = some (a, none))
      ∧ ∃ g' r, (referralProgram referralSettings).exec g (.tick 0 (stepAt now)) = some g'
        ∧ r ∈ g'.store.attributions ∧ r.inviteVisit = some guestVisit ∧ r.attributedAt = now := by
  unfold attributesAt at h
  rw [Bool.and_eq_true, Bool.and_eq_true] at h
  obtain ⟨⟨hempty, hplace⟩, hafter⟩ := h
  obtain ⟨t, ht, hpc⟩ := (Option.any_eq_true _ _).1 hplace
  obtain ⟨g', he, hany⟩ := (Option.any_eq_true _ _).1 hafter
  obtain ⟨r, hr, hprop⟩ := List.any_eq_true.1 hany
  obtain ⟨⟨a, pending⟩, hchecked, hnone⟩ := Option.map_eq_some_iff.1 (of_decide_eq_true hpc)
  obtain ⟨hvisit, hat⟩ : r.inviteVisit = some guestVisit ∧ r.attributedAt = now := by
    simpa using hprop
  refine ⟨List.isEmpty_iff.1 hempty, ⟨t, a, ht, ?_⟩, g', r, he, hr, hvisit, hat⟩
  rw [hchecked, ← hnone]

theorem noPendings_invited : NoPendings invited := ⟨rfl, rfl⟩

theorem invite_attributions_sound_registered : ∃ g g' r,
    (referralProgram referralSettings).exec g (.tick 0 (stepAt 4)) = some g'
      ∧ r ∈ g'.store.attributions
      ∧ ∃ l ∈ g.store.links, r.inviteLink = some l.id ∧ l.isActive = true := by
  have hrun : ∃ g, ClockedReach referralSettings g ∧ attributesAt 4 g = true :=
    Program.reachWhere_check clockAhead clockAhead_check noPendings_invited
      (registeringAt [1, 2, 3]) (attributesAt 4) (by decide)
  obtain ⟨g, hg, hf⟩ := hrun
  obtain ⟨hnone, _, g', r, he, hr, hvisit, _⟩ := of_attributesAt hf
  have hnew : ∀ a ∈ g.store.attributions, a.user ≠ r.user := by
    intro a ha
    rw [Table.mem_def, hnone] at ha
    cases ha
  obtain ⟨w, _, l, hl, _, _, hlink, hactive, _⟩ := invite_attributions_sound hg he hr hnew hvisit
  exact ⟨g, g', r, he, hr, l, hl, hlink, hactive⟩

/--
**Without a pending row, an attribution may come more than 30 days after its visit.** The
transaction locks the link and checks the visit first, and inserts the attribution later.
-/
theorem late_attribution : ∃ g g' p v r w, ClockedReach referralSettings g
    ∧ (referralProgram referralSettings).exec g (.tick p (.go v)) = some g'
    ∧ (∃ t a, g.threads p = some t ∧ checkedAttribution? t.pc = some (a, none))
    ∧ g.store.attributions.rows = [] ∧ r ∈ g'.store.attributions ∧ r.attributedAt = v.now
    ∧ w ∈ g.store.visits ∧ r.inviteVisit = some w.id ∧ w.createdAt < v.now - attributionWindow := by
  -- the visit is at most 30 days old when it is checked, and older when the attribution is made
  have hrun : ∃ g, ClockedReach referralSettings g ∧ attributesAt (attributionWindow + 2) g
      ∧ g.store.visits.rows = invited.visits.rows := by
    have hcheck :=
        Program.reachWhere_check (P := referralProgram referralSettings) clockAhead clockAhead_check
      noPendings_invited
        (registeringAt [attributionWindow - 1, attributionWindow, attributionWindow + 1])
      (fun g => attributesAt (attributionWindow + 2) g
        && decide (g.store.visits.rows = invited.visits.rows))
      (by decide)
    obtain ⟨g, hg, hf⟩ := hcheck
    rw [Bool.and_eq_true, decide_eq_true_iff] at hf
    exact ⟨g, hg, hf⟩
  obtain ⟨g, hg, hf, hvisits⟩ := hrun
  obtain ⟨hnone, hplace, g', r, he, hr, hvisit, hat⟩ := of_attributesAt hf
  refine ⟨g, g', 0, _, r, ⟨guestVisit, founderLink, 0⟩, hg, he, hplace, hnone, hr, hat, ?_,
    hvisit, by decide⟩
  rw [Table.mem_def, hvisits]
  exact List.mem_singleton.2 rfl

end Roamkit.Partner.Proof
