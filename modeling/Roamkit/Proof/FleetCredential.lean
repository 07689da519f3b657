import Roamkit.Organizations.FleetCredential

/-!
# Which fleet secrets are accepted

A rotation overwrites the hash before the last, so a row knows two secrets: the one
handed out last, and the one before it until the grace period of the rotation is over.
`Knows` ties a row to what was handed out to its organization, and is kept by every call.
-/

namespace Roamkit.Organizations.Proof

open Lib Organizations

/-- The secret was handed out last, or before the last and the grace period of the rotation is not
over. -/
def Accepted : List FleetIssue → String → Time → Prop
  | [], _, _ => False
  | [i], secret, _ => secret = i.credential
  | i :: j :: _, secret, now =>
    secret = i.credential ∨ (secret = j.credential ∧ now ≤ i.issuedAt + seconds (max i.grace 0))

/-- A row keeps the hashes of the last two secrets handed out, and how long the older one is
good. -/
def Knows (c : FleetSettings) (f : OrganizationFleetCredential) : List FleetIssue → Prop
  | [] => False
  | [i] => f.currentCredentialHash = c.sha256 i.credential ∧ f.previousCredentialHash = ""
  | i :: j :: _ =>
    f.currentCredentialHash = c.sha256 i.credential
      ∧ f.previousCredentialHash = c.sha256 j.credential
      ∧ f.previousCredentialHash ≠ ""
      ∧ f.previousValidUntil = some (i.issuedAt + seconds (max i.grace 0))

structure FleetInv (c : FleetSettings) (r : FleetRun) : Prop where
  knows : ∀ f ∈ r.rows, Knows c f (r.issuesOf f.organization)
  /-- Nothing was handed out where there is no row. -/
  rowless : ∀ organization, (∀ f ∈ r.rows, f.organization ≠ organization)
    → r.issuesOf organization = []
  named : ∀ f ∈ r.rows, f.fleetExternalId ≠ ""
  hashed : ∀ f ∈ r.rows, f.currentCredentialHash ≠ ""
  secret : ∀ i ∈ r.issues, i.credential ≠ ""

section Calls

variable {c : FleetSettings} {s s' : FleetDb} {organization : Uuid} {grace : Option Int}
  {d : FleetDraw} {issue : FleetIssue}

/-- A period of grace that is no period is none. -/
theorem validUntil_eq {now untilTime : Time} {n : Int} (h : validUntil now n = .ok untilTime) :
    untilTime = now + seconds (max n 0) := by
  unfold validUntil at h
  split at h
  · rename_i hpos
    split at h
    · cases h
      rw [max_eq_left (by omega)]
    · cases h
  · rename_i hneg
    cases h
    have hzero : max n 0 = 0 := max_eq_right (by omega)
    have hnone : seconds 0 = 0 := rfl
    rw [hzero, hnone, add_zero]

theorem issue_cases (h : issueFleetCredential c s organization grace d = .ok (s', issue)) :
    (∀ f ∈ s, f.organization ≠ organization) ∧ c.sha256 d.credential.text ≠ ""
      ∧ s.insert? (newFleetCredential c organization d) = some s'
      ∧ issue.organization = organization ∧ issue.credential = d.credential.text := by
  unfold issueFleetCredential at h
  obtain ⟨n, _, h⟩ := bind_ok h
  split at h
  · cases h
  rename_i hnone
  dsimp only at h
  split at h
  · cases h
  rename_i hhash
  split at h
  · cases h
  rename_i rows hi
  split at h
  · cases h
  cases h
  refine ⟨?_, hhash, hi, rfl, rfl⟩
  intro f hf heq
  have hsome : (s.find? (·.organization = organization)).isSome = true :=
    List.find?_isSome.2 ⟨f, hf, by simpa using heq⟩
  exact hnone hsome

theorem rotate_cases (h : rotateFleetCredential c s organization grace d = .ok (s', issue)) :
    ∃ fleet ∈ s, fleet.organization = organization ∧ c.sha256 d.credential.text ≠ ""
      ∧ s' = s.update (·.organization = organization)
          (rotated c (issue.issuedAt + seconds (max issue.grace 0)) d) (fun _ _ h => h)
      ∧ issue.organization = organization ∧ issue.credential = d.credential.text := by
  unfold rotateFleetCredential at h
  split at h
  · cases h
  rename_i fleet hfind
  obtain ⟨n, _, h⟩ := bind_ok h
  obtain ⟨untilTime, huntil, h⟩ := bind_ok h
  split at h
  · cases h
  rename_i hhash
  cases h
  have horg : fleet.organization = organization := by simpa using Table.prop_of_find? hfind
  refine ⟨fleet, Table.mem_of_find? hfind, horg, hhash, ?_, rfl, rfl⟩
  rw [validUntil_eq huntil]

end Calls

/-! ## Every call keeps it -/

variable {issues : List FleetIssue}

section Preserved

variable {c : FleetSettings} {r : FleetRun} {s' : FleetDb} {organization : Uuid} {d : FleetDraw}
  {issue : FleetIssue}

theorem issuesOf_cons_self (h : issue.organization = organization) :
    FleetRun.issuesOf ⟨s', issue :: r.issues⟩ organization = issue :: r.issuesOf organization :=
  List.filter_cons_of_pos (by simpa using h)

theorem issuesOf_cons_other (h : issue.organization ≠ organization) :
    FleetRun.issuesOf ⟨s', issue :: r.issues⟩ organization = r.issuesOf organization :=
  List.filter_cons_of_neg (by simpa using h)

theorem secret_cons (h : FleetInv c r) (hcred : issue.credential = d.credential.text) :
    ∀ i ∈ issue :: r.issues, i.credential ≠ "" := by
  intro i hi
  rcases List.mem_cons.1 hi with rfl | hi
  · rw [hcred]
    exact d.credential.nonempty
  · exact h.secret i hi

theorem FleetInv.issued (h : FleetInv c r) (hnone : ∀ f ∈ r.rows, f.organization ≠ organization)
    (hhash : c.sha256 d.credential.text ≠ "")
    (hi : r.rows.insert? (newFleetCredential c organization d) = some s')
    (horg : issue.organization = organization) (hcred : issue.credential = d.credential.text) :
    FleetInv c ⟨s', issue :: r.issues⟩ := by
  refine ⟨?_, ?_, ?_, ?_, secret_cons h hcred⟩
  · intro f hf
    rcases (Table.mem_insert hi).1 hf with hf | rfl
    · rw [issuesOf_cons_other fun heq => hnone f hf (heq.symm.trans horg)]
      exact h.knows f hf
    · -- the first secret of the organization
      have hfirst : r.issuesOf organization = [] := h.rowless organization hnone
      rw [show (newFleetCredential c organization d).organization = organization from rfl,
        issuesOf_cons_self horg, hfirst]
      refine ⟨?_, rfl⟩
      rw [hcred]
      rfl
  · intro o ho
    have hne : issue.organization ≠ o := by
      rw [horg]
      exact ho _ ((Table.mem_insert hi).2 (.inr rfl))
    rw [issuesOf_cons_other hne]
    exact h.rowless o fun f hf => ho f ((Table.mem_insert hi).2 (.inl hf))
  · intro f hf
    rcases (Table.mem_insert hi).1 hf with hf | rfl
    · exact h.named f hf
    · exact d.fleetExternalId.nonempty
  · intro f hf
    rcases (Table.mem_insert hi).1 hf with hf | rfl
    · exact h.hashed f hf
    · exact hhash

/-- What a row knew is what the secret before the last was. -/
theorem Knows.rotate {f : OrganizationFleetCredential} (h : Knows c f issues)
    (hhashed : f.currentCredentialHash ≠ "") (hcred : issue.credential = d.credential.text) :
    Knows c (rotated c (issue.issuedAt + seconds (max issue.grace 0)) d f) (issue :: issues) := by
  cases issues with
  | nil => exact h.elim
  | cons i rest =>
    have hcurrent : f.currentCredentialHash = c.sha256 i.credential := by
      cases rest with
      | nil => exact h.1
      | cons j rest => exact h.1
    refine ⟨?_, hcurrent, hhashed, rfl⟩
    rw [hcred]
    rfl

theorem FleetInv.rotate {fleet : OrganizationFleetCredential} (h : FleetInv c r)
    (hfleet : fleet ∈ r.rows)
    (hof : fleet.organization = organization) (hhash : c.sha256 d.credential.text ≠ "")
    (hs' : s' = r.rows.update (·.organization = organization)
      (rotated c (issue.issuedAt + seconds (max issue.grace 0)) d) (fun _ _ h => h))
    (horg : issue.organization = organization) (hcred : issue.credential = d.credential.text) :
    FleetInv c ⟨s', issue :: r.issues⟩ := by
  -- a row of the table is one that was there, rotated if it is the organization's
  have hrows : ∀ f' ∈ s', ∃ f ∈ r.rows, (f.organization = organization
        ∧ f' = rotated c (issue.issuedAt + seconds (max issue.grace 0)) d f)
      ∨ (f.organization ≠ organization ∧ f' = f) := by
    intro f' hf'
    rw [hs'] at hf'
    obtain ⟨f, hf, rfl⟩ := List.mem_map.1 hf'
    by_cases heq : f.organization = organization
    · exact ⟨f, hf, .inl ⟨heq, rewrite_pos _ (by simpa using heq)⟩⟩
    · exact ⟨f, hf, .inr ⟨heq, rewrite_neg _ (by simpa using heq)⟩⟩
  refine ⟨?_, ?_, ?_, ?_, secret_cons h hcred⟩
  · intro f' hf'
    obtain ⟨f, hf, ⟨heq, rfl⟩ | ⟨hne, rfl⟩⟩ := hrows f' hf'
    · rw [show (rotated c (issue.issuedAt + seconds (max issue.grace 0)) d f).organization
        = f.organization from rfl, issuesOf_cons_self (horg.trans heq.symm)]
      exact (h.knows f hf).rotate (h.hashed f hf) hcred
    · rw [issuesOf_cons_other fun h' => hne (h'.symm.trans horg)]
      exact h.knows f' hf
  · intro o ho
    have hkept : ∀ f ∈ r.rows, f.organization ≠ o := by
      intro f hf heq
      refine ho (rewrite (·.organization = organization)
        (rotated c (issue.issuedAt + seconds (max issue.grace 0)) d) f) ?_ ?_
      · rw [hs']
        exact List.mem_map.2 ⟨f, hf, rfl⟩
      · unfold Lib.rewrite
        split <;> exact heq
    have hne : issue.organization ≠ o := by
      rw [horg, ← hof]
      exact hkept fleet hfleet
    rw [issuesOf_cons_other hne]
    exact h.rowless o hkept
  · intro f' hf'
    obtain ⟨f, hf, ⟨_, rfl⟩ | ⟨_, rfl⟩⟩ := hrows f' hf'
    · exact h.named f hf
    · exact h.named f' hf
  · intro f' hf'
    obtain ⟨f, hf, ⟨_, rfl⟩ | ⟨_, rfl⟩⟩ := hrows f' hf'
    · exact hhash
    · exact h.hashed f' hf

theorem FleetInv.call (h : FleetInv c r) (k : FleetCall) : FleetInv c (r.call c k) := by
  unfold FleetRun.call
  split
  · exact h
  · rename_i rows issue hok
    cases k with
    | issue organization grace d =>
      obtain ⟨hnone, hhash, hi, horg, hcred⟩ := issue_cases hok
      exact h.issued hnone hhash hi horg hcred
    | rotate organization grace d =>
      obtain ⟨fleet, hfleet, hof, hhash, hs', horg, hcred⟩ := rotate_cases hok
      exact h.rotate hfleet hof hhash hs' horg hcred

theorem FleetInv.calls (h : FleetInv c r) (ks : List FleetCall) : FleetInv c (r.calls c ks) := by
  induction ks generalizing r with
  | nil => exact h
  | cons k ks ih => exact ih (h.call k)

theorem fleetInv_start (c : FleetSettings) : FleetInv c .start where
  knows f hf := absurd hf (Table.not_mem_empty f)
  rowless _ _ := rfl
  named f hf := absurd hf (Table.not_mem_empty f)
  hashed f hf := absurd hf (Table.not_mem_empty f)
  secret _ hi := absurd hi List.not_mem_nil

end Preserved

/-! ## Acceptance -/

section Acceptance

variable {c : FleetSettings} {r : FleetRun} {organization : Uuid} {secret : String} {now : Time}

/-- A row accepts what it knows. -/
theorem accepts_iff (hinj : Function.Injective c.sha256) {f : OrganizationFleetCredential}
    (h : Knows c f issues) :
    f.accepts (c.sha256 secret) now = true ↔ Accepted issues secret now := by
  have hsame : ∀ x, c.sha256 x = c.sha256 secret ↔ secret = x :=
    fun x => hinj.eq_iff.trans eq_comm
  match issues, h with
  | [i], ⟨hcurrent, hprevious⟩ =>
    simp [OrganizationFleetCredential.accepts, Accepted, hcurrent, hprevious, hsame]
  | i :: j :: rest, ⟨hcurrent, hprevious, hne, huntil⟩ =>
    rw [hprevious] at hne
    simp only [OrganizationFleetCredential.accepts, Accepted, hcurrent, hprevious,
      huntil, hsame, hne,
      Option.any_some, Bool.or_eq_true, Bool.and_eq_true, decide_eq_true_eq, ne_eq,
        not_false_eq_true,
      true_and]
    rw [and_comm]

theorem Accepted.mem (h : Accepted issues secret now) :
    ∃ i ∈ issues.take 2, secret = i.credential := by
  match issues, h with
  | [i], h => exact ⟨i, by simp, h⟩
  | i :: j :: rest, h =>
    rcases h with h | ⟨h, _⟩
    · exact ⟨i, by simp, h⟩
    · exact ⟨j, by simp, h⟩

/-- **Verification accepts what the organization of the row was handed out last, or before it in
time.** -/
theorem verify_iff (hinj : Function.Injective c.sha256) (h : FleetInv c r) {externalId : String}
    {fleet : OrganizationFleetCredential} :
    verifyFleetCredential c r.rows externalId secret now = .ok fleet ↔
      fleet ∈ r.rows ∧ fleet.fleetExternalId = PyText.strip externalId
        ∧ Accepted (r.issuesOf fleet.organization) secret now := by
  unfold verifyFleetCredential
  constructor
  · intro hok
    split at hok
    · cases hok
    split at hok
    · cases hok
    rename_i found hfind
    split at hok
    · rename_i haccepts
      cases hok
      have hmem := Table.mem_of_find? hfind
      exact ⟨hmem, by
        simpa using Table.prop_of_find? hfind, (accepts_iff hinj (h.knows fleet hmem)).1 haccepts⟩
    · cases hok
  · rintro ⟨hmem, hid, haccepted⟩
    have hguard : ¬ (PyText.strip externalId = "" ∨ secret = "") := by
      rintro (hempty | hempty)
      · exact h.named fleet hmem (hid.trans hempty)
      · obtain ⟨i, hi, heq⟩ := haccepted.mem
        exact h.secret i (List.mem_filter.1 (List.mem_of_mem_take hi) |>.1) (heq.symm.trans hempty)
    have hfind : r.rows.find? (·.fleetExternalId = PyText.strip externalId) = some fleet := by
      refine Table.find?_of_mem hmem (by simpa using hid) ?_
      intro f hsame
      exact .inr ((of_decide_eq_true hsame).trans hid.symm)
    rw [if_neg hguard, hfind]
    dsimp only
    rw [if_pos ((accepts_iff hinj (h.knows fleet hmem)).2 haccepted)]

end Acceptance

/-! ## Later calls -/

section Later

variable {c : FleetSettings} {secret : String}

theorem call_issues (organization : Uuid) (r : FleetRun) (k : FleetCall) :
    (r.call c k).issuesOf organization = r.issuesOf organization
      ∨ ∃ i, (r.call c k).issuesOf organization = i :: r.issuesOf organization
          ∧ i.credential = k.draw.credential.text := by
  unfold FleetRun.call
  split
  · exact .inl rfl
  · rename_i rows issue hok
    have hcred : issue.credential = k.draw.credential.text := by
      cases k with
      | issue o grace d => exact (issue_cases hok).2.2.2.2
      | rotate o grace d =>
        obtain ⟨_, _, _, _, _, _, hcred⟩ := rotate_cases hok
        exact hcred
    by_cases horg : issue.organization = organization
    · exact .inr ⟨issue, issuesOf_cons_self horg, hcred⟩
    · exact .inl (issuesOf_cons_other horg)

/-- A secret that is none of the last two is none of them later on. -/
theorem calls_issues (organization : Uuid) (ks : List FleetCall)
    (hfresh : ∀ k ∈ ks, k.draw.credential.text ≠ secret)
    (r : FleetRun) (hold : ∀ i ∈ (r.issuesOf organization).take 2, secret ≠ i.credential) :
    ∀ i ∈ ((r.calls c ks).issuesOf organization).take 2, secret ≠ i.credential := by
  induction ks generalizing r with
  | nil => exact hold
  | cons k ks ih =>
    refine ih (fun k' hk' => hfresh k' (List.mem_cons_of_mem _ hk')) (r.call c k) ?_
    rcases call_issues organization r k with hsame | ⟨i, hcons, hcred⟩
    · rw [hsame]
      exact hold
    · rw [hcons]
      intro j hj
      rcases List.mem_cons.1 (List.take_succ_cons ▸ hj) with rfl | hj
      · rw [hcred]
        exact (hfresh k List.mem_cons_self).symm
      · exact hold j (List.take_subset_take_left _ (by omega) hj)

end Later

/--
**Exactly the last secret of an organization is accepted, and the one before it until
the grace period of the rotation is over.** So at most two are accepted, and one that
is older is not accepted again, however the calls go on.
-/
theorem fleet_credentials_sound (c : FleetSettings) (hinj : Function.Injective c.sha256)
    (ks : List FleetCall) :
    (∀ externalId secret now fleet,
      verifyFleetCredential c (FleetRun.start.calls c ks).rows externalId secret now = .ok fleet ↔
        fleet ∈ (FleetRun.start.calls c ks).rows ∧ fleet.fleetExternalId = PyText.strip externalId
          ∧ Accepted ((FleetRun.start.calls c ks).issuesOf fleet.organization) secret now)
    ∧ (∀ externalId, ∃ a b, ∀ secret now fleet,
      verifyFleetCredential c (FleetRun.start.calls c ks).rows externalId secret now = .ok fleet →
        secret = a ∨ secret = b)
    ∧ ∀ organization secret,
      (∀ i ∈ ((FleetRun.start.calls c ks).issuesOf organization).take 2, secret ≠ i.credential) →
      ∀ ks', (∀ k ∈ ks', k.draw.credential.text ≠ secret) → ∀ externalId now fleet,
        fleet.organization = organization →
        verifyFleetCredential c (FleetRun.start.calls c (ks ++ ks')).rows externalId secret now
          ≠ .ok fleet := by
  have hinv : ∀ ks, FleetInv c (FleetRun.start.calls c ks) := (fleetInv_start c).calls
  refine ⟨fun _ _ _ _ => verify_iff hinj (hinv ks), ?_, ?_⟩
  · intro externalId
    cases hfind : (FleetRun.start.calls c ks).rows.find?
      (·.fleetExternalId = PyText.strip externalId) with
    | none =>
      refine ⟨"", "", ?_⟩
      intro secret now fleet hok
      obtain ⟨hmem, hid, _⟩ := (verify_iff hinj (hinv ks)).1 hok
      exact absurd hid (by simpa using Table.find?_eq_none.1 hfind fleet hmem)
    | some row =>
      -- both are secrets of the one row that has the identifier
      obtain ⟨a, b, hab⟩ : ∃ a b, ∀ i
        ∈ ((FleetRun.start.calls c ks).issuesOf row.organization).take 2,
          i.credential = a ∨ i.credential = b := by
        match (FleetRun.start.calls c ks).issuesOf row.organization with
        | [] => exact ⟨"", "", by simp⟩
        | [i] => exact ⟨i.credential, "", by simp⟩
        | i :: j :: rest => exact ⟨i.credential, j.credential, by simp⟩
      refine ⟨a, b, ?_⟩
      intro secret now fleet hok
      obtain ⟨hmem, hid, haccepted⟩ := (verify_iff hinj (hinv ks)).1 hok
      have hrow : fleet = row := by
        refine Table.eq_of_clash hmem (Table.mem_of_find? hfind) (.inr ?_)
        have hprop := Table.prop_of_find? hfind
        exact hid.trans (by simpa using hprop : row.fleetExternalId = _).symm
      obtain ⟨i, hi, heq⟩ := haccepted.mem
      rw [hrow] at hi
      rw [heq]
      exact hab i hi
  · intro organization secret hold ks' hfresh externalId now fleet horg hok
    obtain ⟨_, _, haccepted⟩ := (verify_iff hinj (hinv (ks ++ ks'))).1 hok
    obtain ⟨i, hi, heq⟩ := haccepted.mem
    have hlater := calls_issues (c := c) organization ks' hfresh _ hold
    rw [horg, FleetRun.calls, List.foldl_append] at hi
    exact hlater i hi heq

/-! ## Two rotations -/

def fleetSettings : FleetSettings := ⟨3600, fun s => "sha256:" ++ s⟩

theorem fleetSettings_injective : Function.Injective fleetSettings.sha256 := by
  intro a b h
  have hlist := congrArg String.toList h
  rw [fleetSettings, String.toList_append, String.toList_append] at hlist
  exact String.toList_injective (List.append_cancel_left hlist)

def fleetOwner : Uuid := ⟨"00000000-0000-4000-8000-0000000000f1", by decide⟩

/-- What a call draws at a number of seconds. -/
def fleetDraw (now : Int) (credential : UrlToken) : FleetDraw :=
  ⟨seconds now, credential, ⟨"fleet", by decide, by decide⟩⟩

def firstSecret : UrlToken := ⟨"first", by decide, by decide⟩

def secondSecret : UrlToken := ⟨"second", by decide, by decide⟩

def thirdSecret : UrlToken := ⟨"third", by decide, by decide⟩

/-- One secret, and two after it, the last with a grace of 60 seconds. -/
def twoRotations : List FleetCall :=
  [.issue fleetOwner none (fleetDraw 0 firstSecret),
    .rotate fleetOwner none (fleetDraw 100 secondSecret),
    .rotate fleetOwner (some 60) (fleetDraw 200 thirdSecret)]

/-- The second secret is accepted 50 seconds after the second rotation. -/
theorem fleet_credentials_sound_rotated :
    ∃ fleet ∈ (FleetRun.start.calls fleetSettings twoRotations).rows,
      Accepted ((FleetRun.start.calls fleetSettings twoRotations).issuesOf fleet.organization)
        "second" (seconds 250) := by
  have hok : ∃ fleet, verifyFleetCredential fleetSettings
      (FleetRun.start.calls fleetSettings twoRotations).rows "fleet" "second" (seconds 250)
        = .ok fleet :=
    ⟨_, rfl⟩
  obtain ⟨fleet, hok⟩ := hok
  obtain ⟨hmem, _, haccepted⟩ :=
    ((fleet_credentials_sound fleetSettings fleetSettings_injective twoRotations).1 _ _ _ _).1 hok
  exact ⟨fleet, hmem, haccepted⟩

end Roamkit.Organizations.Proof
