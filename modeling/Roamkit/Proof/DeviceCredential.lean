import Roamkit.Proof.Devices
import Roamkit.Proof.FleetCredential
import Roamkit.Proof.Credit

/-!
# Which device secrets are accepted

A binding stores the hash of the secret handed out for it last, and none when it is not
active any more. A secret of a binding that was rotated, replaced or unbound is of a
binding that is not active, or is not the last; neither is ever undone.
-/

namespace Roamkit.Organizations.Proof

open Lib Billing Partner Organizations

/-- The secret handed out last for a binding. -/
def latest (issued : List (Uuid × String)) (id : Uuid) : Option String :=
  (issued.find? (·.1 = id)).map (·.2)

theorem latest_cons_self (issued : List (Uuid × String)) (id : Uuid) (x : String) :
    latest ((id, x) :: issued) id = some x := by
  unfold latest
  rw [List.find?_cons_of_pos (by simp)]
  rfl

theorem latest_cons_other {issued : List (Uuid × String)} {id id' : Uuid} {x : String}
    (h : id ≠ id') :
    latest ((id, x) :: issued) id' = latest issued id' := by
  unfold latest
  rw [List.find?_cons_of_neg (by simpa using h)]

theorem mem_of_latest {issued : List (Uuid × String)} {id : Uuid} {x : String}
    (h : latest issued id = some x) : (id, x) ∈ issued := by
  obtain ⟨⟨id', x'⟩, hfind, rfl⟩ := Option.map_eq_some_iff.1 h
  have hid : id' = id := by simpa using List.find?_some hfind
  rw [← hid]
  exact List.mem_of_find?_eq_some hfind

/-- A secret that was never handed out, and an identifier no binding has. -/
def FreshDraw (s : DeviceDb) (_ : DeviceThread) (x : DeviceInput) : Prop :=
  ∀ d, x = .go d → (∀ i ∈ s.issued, i.2 ≠ d.credential.text)
    ∧ ∀ b ∈ s.bindings, b.deviceExternalId ≠ d.deviceExternalId.str

/-- No device was ever bound. -/
def NoDevices (s : DeviceDb) : Prop := s.bindings = .empty ∧ s.issued = [] ∧ s.locks = []

structure DeviceInv (c : DeviceSettings) (s : DeviceDb) : Prop where
  cleared : ∀ b ∈ s.bindings, b.status ≠ .active → b.credentialHash = ""
  current : ∀ b ∈ s.bindings, b.status = .active →
    ∃ x, latest s.issued b.id = some x ∧ b.credentialHash = c.sha256 x
  external : ∀ b ∈ s.bindings, ∀ b' ∈ s.bindings, b.deviceExternalId = b'.deviceExternalId
    → b.id = b'.id
  named : ∀ b ∈ s.bindings, b.deviceExternalId ≠ ""
  /-- The eSIM of a device is the one that was bound. -/
  direct : ∀ b ∈ s.bindings, b.uemDeviceGuid = ""
  known : ∀ i ∈ s.issued, ∃ b ∈ s.bindings, b.id = i.1
  /-- A secret is handed out once. -/
  once : ∀ i ∈ s.issued, ∀ j ∈ s.issued, i.2 = j.2 → i = j
  secret : ∀ i ∈ s.issued, i.2 ≠ ""

/-! ## Every step keeps it -/

section Preserved

variable {c : DeviceSettings} {s s₁ : DeviceDb} {o : Organization} {esim : Nat} {d : DeviceDraw}

/-- The parts of the invariant that are about what was handed out, after one more secret. -/
theorem DeviceInv.once_cons (h : DeviceInv c s) (id : Uuid)
    (hfresh : ∀ i ∈ s.issued, i.2 ≠ d.credential.text) :
    (∀ i ∈ (id, d.credential.text) :: s.issued, ∀ j ∈ (id, d.credential.text) :: s.issued,
      i.2 = j.2 → i = j)
      ∧ ∀ i ∈ (id, d.credential.text) :: s.issued, i.2 ≠ "" := by
  refine ⟨?_, ?_⟩
  · intro i hi j hj heq
    rcases List.mem_cons.1 hi with rfl | hi <;> rcases List.mem_cons.1 hj with rfl | hj
    · rfl
    · exact absurd heq.symm (hfresh j hj)
    · exact absurd heq (hfresh i hi)
    · exact h.once i hi j hj heq
  · intro i hi
    rcases List.mem_cons.1 hi with rfl | hi
    · exact d.credential.nonempty
    · exact h.secret i hi

theorem uuid_nonempty (u : Uuid) : u.str ≠ "" := by
  intro h
  have hdash := u.dash_mem
  rw [h] at hdash
  simp at hdash

/-- A row that is kept is as good as it was, where nothing was handed out for it. -/
theorem DeviceInv.kept (h : DeviceInv c s) {b b' : DeviceBinding} (hb : b ∈ s.bindings)
    (hk : Kept b b') :
    (b'.status ≠ .active → b'.credentialHash = "")
      ∧ (b'.status = .active → ∃ x, latest s.issued b'.id = some x
        ∧ b'.credentialHash = c.sha256 x) := by
  rcases hk.state with ⟨hstatus, hhash⟩ | ⟨hended, hhash⟩
  · rw [hstatus, hhash, hk.id]
    exact ⟨h.cleared b hb, h.current b hb⟩
  · exact ⟨fun _ => hhash, fun hactive => absurd hactive hended⟩

theorem DeviceInv.unbound {id : Uuid} (h : DeviceInv c s)
    (hu : Unbound s s₁ id) : DeviceInv c s₁ := by
  refine ⟨?_, ?_, ?_, ?_, ?_, ?_, ?_, ?_⟩
  · intro b' hb'
    obtain ⟨b, hb, hk⟩ := hu.rows b' hb'
    exact (h.kept hb hk).1
  · intro b' hb'
    obtain ⟨b, hb, hk⟩ := hu.rows b' hb'
    rw [hu.issued]
    exact (h.kept hb hk).2
  · intro b₁' hb₁' b₂' hb₂' heq
    obtain ⟨b₁, hb₁, hk₁⟩ := hu.rows b₁' hb₁'
    obtain ⟨b₂, hb₂, hk₂⟩ := hu.rows b₂' hb₂'
    rw [hk₁.id, hk₂.id]
    exact h.external b₁ hb₁ b₂ hb₂ (hk₁.external.symm.trans (heq.trans hk₂.external))
  · intro b' hb'
    obtain ⟨b, hb, hk⟩ := hu.rows b' hb'
    rw [hk.external]
    exact h.named b hb
  · intro b' hb'
    obtain ⟨b, hb, hk⟩ := hu.rows b' hb'
    rw [hk.guid]
    exact h.direct b hb
  · intro i hi
    rw [hu.issued] at hi
    obtain ⟨b, hb, hid⟩ := h.known i hi
    obtain ⟨b', hb', hid'⟩ := hu.kept b hb
    exact ⟨b', hb', hid'.trans hid⟩
  · rw [hu.issued]
    exact h.once
  · rw [hu.issued]
    exact h.secret

theorem DeviceInv.rotated (h : DeviceInv c s) {b₀ : DeviceBinding} (hb₀ : b₀ ∈ s.bindings)
    (hactive : b₀.status = .active) (hfresh : ∀ i ∈ s.issued, i.2 ≠ d.credential.text) :
    DeviceInv c (s.setCredential c b₀.id d) := by
  -- what the columns a rotation does not write say stays
  have hrows : ∀ b' ∈ (s.setCredential c b₀.id d).bindings, ∃ b ∈ s.bindings,
      b'.id = b.id ∧ b'.deviceExternalId = b.deviceExternalId
        ∧ b'.uemDeviceGuid = b.uemDeviceGuid := by
    intro b' hb'
    obtain ⟨b, hb, ⟨_, hre⟩ | ⟨_, rfl⟩⟩ := setCredential_rows hb'
    · exact ⟨b, hb, hre.id, hre.external, hre.guid⟩
    · exact ⟨b', hb, rfl, rfl, rfl⟩
  obtain ⟨honce, hsecret⟩ := h.once_cons b₀.id hfresh
  refine ⟨?_, ?_, ?_, ?_, ?_, ?_, honce, hsecret⟩
  · intro b' hb' hended
    obtain ⟨b, hb, ⟨hid, hre⟩ | ⟨_, rfl⟩⟩ := setCredential_rows hb'
    · have hsame : b = b₀ := Table.eq_of_clash hb hb₀ (.inl hid)
      rw [hre.status, hsame] at hended
      exact absurd hactive hended
    · exact h.cleared b' hb hended
  · intro b' hb' hactive'
    obtain ⟨b, hb, ⟨hid, hre⟩ | ⟨hid, rfl⟩⟩ := setCredential_rows hb'
    · refine ⟨d.credential.text, ?_, hre.hash⟩
      rw [hre.id, hid]
      exact latest_cons_self ..
    · obtain ⟨x, hx, hhash⟩ := h.current b' hb hactive'
      exact ⟨x, (latest_cons_other (Ne.symm hid)).trans hx, hhash⟩
  · intro b₁' hb₁' b₂' hb₂' heq
    obtain ⟨b₁, hb₁, hid₁, hext₁, _⟩ := hrows b₁' hb₁'
    obtain ⟨b₂, hb₂, hid₂, hext₂, _⟩ := hrows b₂' hb₂'
    rw [hid₁, hid₂]
    exact h.external b₁ hb₁ b₂ hb₂ (hext₁.symm.trans (heq.trans hext₂))
  · intro b' hb'
    obtain ⟨b, hb, _, hext, _⟩ := hrows b' hb'
    rw [hext]
    exact h.named b hb
  · intro b' hb'
    obtain ⟨b, hb, _, _, hguid⟩ := hrows b' hb'
    rw [hguid]
    exact h.direct b hb
  · intro i hi
    have hof : ∃ b ∈ s.bindings, b.id = i.1 := by
      rcases List.mem_cons.1 hi with rfl | hi
      · exact ⟨b₀, hb₀, rfl⟩
      · exact h.known i hi
    obtain ⟨b, hb, hid⟩ := hof
    obtain ⟨b', hb', hid', _⟩ := mem_setCredential (c := c) (d := d) b₀.id hb
    exact ⟨b', hb', hid'.trans hid⟩

theorem DeviceInv.bound (h : DeviceInv c s) (hbound : Bound c s s₁ o esim d)
    (hfresh : ∀ i ∈ s.issued, i.2 ≠ d.credential.text)
    (hunknown : ∀ b ∈ s.bindings, b.deviceExternalId ≠ d.deviceExternalId.str) :
    DeviceInv c s₁ := by
  obtain ⟨honce, hsecret⟩ := h.once_cons d.binding hfresh
  refine ⟨?_, ?_, ?_, ?_, ?_, ?_, ?_, ?_⟩
  · intro b' hb' hended
    rcases hbound.rows b' hb' with hnew | ⟨b, hb, hk⟩
    · exact absurd hnew.status hended
    · exact (h.kept hb hk).1 hended
  · intro b' hb' hactive
    rw [hbound.issued]
    rcases hbound.rows b' hb' with hnew | ⟨b, hb, hk⟩
    · refine ⟨d.credential.text, ?_, hnew.hash⟩
      rw [hnew.id]
      exact latest_cons_self ..
    · obtain ⟨x, hx, hhash⟩ := (h.kept hb hk).2 hactive
      have hne : d.binding ≠ b'.id := by
        rw [hk.id]
        exact Ne.symm (hbound.fresh b hb)
      exact ⟨x, (latest_cons_other hne).trans hx, hhash⟩
  · intro b₁' hb₁' b₂' hb₂' heq
    rcases hbound.rows b₁' hb₁' with hnew₁ | ⟨b₁, hb₁, hk₁⟩ <;>
      rcases hbound.rows b₂' hb₂' with hnew₂ | ⟨b₂, hb₂, hk₂⟩
    · exact hnew₁.id.trans hnew₂.id.symm
    · exact absurd (hk₂.external.symm.trans (heq.symm.trans hnew₁.external)) (hunknown b₂ hb₂)
    · exact absurd (hk₁.external.symm.trans (heq.trans hnew₂.external)) (hunknown b₁ hb₁)
    · rw [hk₁.id, hk₂.id]
      exact h.external b₁ hb₁ b₂ hb₂ (hk₁.external.symm.trans (heq.trans hk₂.external))
  · intro b' hb'
    rcases hbound.rows b' hb' with hnew | ⟨b, hb, hk⟩
    · rw [hnew.external]
      exact uuid_nonempty _
    · rw [hk.external]
      exact h.named b hb
  · intro b' hb'
    rcases hbound.rows b' hb' with hnew | ⟨b, hb, hk⟩
    · exact hnew.guid
    · rw [hk.guid]
      exact h.direct b hb
  · intro i hi
    rw [hbound.issued] at hi
    rcases List.mem_cons.1 hi with rfl | hi
    · obtain ⟨b', hb', hid, _⟩ := hbound.made
      exact ⟨b', hb', hid⟩
    · obtain ⟨b, hb, hid⟩ := h.known i hi
      obtain ⟨b', hb', hid'⟩ := hbound.kept b hb
      exact ⟨b', hb', hid'.trans hid⟩
  · rw [hbound.issued]
    exact honce
  · rw [hbound.issued]
    exact hsecret

theorem DeviceInv.same {s' : DeviceDb} (h : DeviceInv c s) (hbindings : s'.bindings = s.bindings)
    (hissued : s'.issued = s.issued) : DeviceInv c s' := by
  obtain ⟨cleared, current, external, named, direct, known, once, secret⟩ := h
  constructor <;> (try rw [hbindings]) <;> (try rw [hissued]) <;> assumption

theorem transfer_same {user : UserId} {fulfilling : Bool}
    (h : s.transferEsimInventory esim user fulfilling = .ok s₁) :
    s₁.bindings = s.bindings ∧ s₁.issued = s.issued := by
  rcases transfer_cases h with ⟨_, rfl⟩ | ⟨account, _, rfl⟩ <;> exact ⟨rfl, rfl⟩

theorem DeviceInv.move {t : DeviceThread} {x : DeviceInput} (h : DeviceInv c s)
    (hok : FreshDraw s t x) (hmove : DeviceMove c s t x s₁) : DeviceInv c s₁ := by
  cases hmove with
  | still => exact h
  | status organization status => exact h.same rfl rfl
  | transfer _ _ _ htransfer =>
    obtain ⟨hbindings, hissued⟩ := transfer_same htransfer
    exact h.same hbindings hissued
  | create _ hx hbind =>
    obtain ⟨hfresh, hunknown⟩ := hok _ hx
    exact h.bound (bind_cases hbind) hfresh hunknown
  | rotate hx hrotate =>
    obtain ⟨b₀, hb₀, hactive, rfl, _⟩ := rotation_cases hrotate
    exact h.rotated hb₀ hactive (hok _ hx).1
  | unbind hunbind => exact h.unbound (unbind_cases hunbind)

end Preserved

/-- The eSIM a call has read is the one it is asked for. -/
def OfCall (_ : DeviceDb) (t : DeviceThread) : Prop :=
  ∀ esim, esimRead? t.pc = some esim → esimAsked? t.call = some esim

theorem deviceInvariant (c : DeviceSettings) :
    Invariant (deviceProgram c) NoDevices FreshDraw (DeviceInv c) OfCall (fun _ _ => True) where
  init := by
    rintro s ⟨hbindings, hissued, _⟩
    have hnone : ∀ b, b ∉ s.bindings := by
      intro b
      rw [hbindings]
      exact Table.not_mem_empty b
    refine ⟨?_, ?_, ?_, ?_, ?_, ?_, ?_, ?_⟩
    all_goals first
      | exact fun b hb => absurd hb (hnone b)
      | (rw [hissued]; exact fun i hi => absurd hi List.not_mem_nil)
  start _ _ esim h := by cases h
  apart_start _ _ := trivial
  symm _ := trivial
  step := by
    intro s t x s' t' hG hL hok h
    have heffect := deviceStep_effect h
    refine ⟨?_, ?_⟩
    · obtain ⟨s₁, locks, hmove, rfl⟩ := heffect.move
      exact (hG.move hok hmove).same rfl rfl
    · intro esim hread
      rw [heffect.call]
      rcases heffect.esim esim hread with hold | hasked
      · exact hL esim hold
      · exact hasked
  frame _ _ _ _ hu _ := ⟨hu, trivial⟩

/-! ## Acceptance -/

section Acceptance

variable {c : DeviceSettings} {s s₁ : DeviceDb} {external secret : String} {b : DeviceBinding}
  {esim : Nat}

/-- **A secret is accepted for the identifier of an active binding it was handed out for last, and
else never.** -/
theorem resolve_iff (hinj : Function.Injective c.sha256) (hhex : ∀ x, c.sha256 x ≠ "")
    (h : DeviceInv c s) :
    DeviceDb.resolveByCredential c s external secret = .ok (b, esim) ↔
      b ∈ s.bindings ∧ b.deviceExternalId = PyText.strip external ∧ b.status = .active
        ∧ latest s.issued b.id = some secret ∧ esim = b.esim := by
  unfold DeviceDb.resolveByCredential
  constructor
  · intro hok
    split at hok
    · cases hok
    split at hok
    · cases hok
    rename_i found hfind
    have hmem := Table.mem_of_find? hfind
    have hprop : found.deviceExternalId = PyText.strip external ∧ found.status = .active := by
      simpa using Table.prop_of_find? hfind
    split at hok
    · cases hok
    split at hok
    · cases hok
    rename_i hhash
    rw [if_neg (by rw [h.direct found hmem]; decide)] at hok
    cases hok
    obtain ⟨x, hx, hcurrent⟩ := h.current b hmem hprop.2
    have hsame : x = secret := hinj (hcurrent.symm.trans (not_not.1 hhash))
    exact ⟨hmem, hprop.1, hprop.2, hsame ▸ hx, rfl⟩
  · rintro ⟨hmem, hid, hactive, hlatest, rfl⟩
    have hguard : ¬ (PyText.strip external = "" ∨ secret = "") := by
      rintro (hempty | hempty)
      · exact h.named b hmem (hid.trans hempty)
      · exact h.secret _ (mem_of_latest hlatest) hempty
    have hfind : s.bindings.find?
      (fun r => r.deviceExternalId = PyText.strip external && r.status = .active)
        = some b := by
      refine Table.find?_of_mem_where hmem (by simp [hid, hactive]) ?_
      intro r hr hsame
      have hprop : r.deviceExternalId = PyText.strip external ∧ r.status = .active := by
        simpa using hsame
      exact .inl (h.external r hr b hmem (hprop.1.trans hid.symm))
    obtain ⟨x, hx, hcurrent⟩ := h.current b hmem hactive
    have hsame : x = secret := Option.some.inj (hx.symm.trans hlatest)
    rw [if_neg hguard, hfind]
    dsimp only
    rw [if_neg (by rw [hcurrent]; exact hhex x),
      if_neg (by rw [hcurrent, hsame]; exact not_not.2 rfl),
      if_neg (by rw [h.direct b hmem]; decide)]

end Acceptance

/-! ## Later steps -/

/-- The secret was handed out for the binding, which is not active, or has got another since. -/
def Revoked (s : DeviceDb) (id : Uuid) (secret : String) : Prop :=
  (id, secret) ∈ s.issued
    ∧ (latest s.issued id ≠ some secret ∨ ∀ b ∈ s.bindings, b.id = id → b.status ≠ .active)

section Later

variable {c : DeviceSettings} {s s₁ : DeviceDb} {t : DeviceThread} {x : DeviceInput} {id : Uuid}
  {secret : String} {o : Organization} {esim : Nat} {d : DeviceDraw}

/-- One more secret, for a binding that is not active where it is this one. -/
theorem latest_cons_ne {id' : Uuid} (hfresh : ∀ i ∈ s.issued, i.2 ≠ d.credential.text)
    (hissued : (id, secret) ∈ s.issued) (h : latest s.issued id ≠ some secret ∨ id' = id) :
    latest ((id', d.credential.text) :: s.issued) id ≠ some secret := by
  by_cases hid : id' = id
  · rw [hid, latest_cons_self]
    intro heq
    exact hfresh _ hissued (Option.some.inj heq).symm
  · rw [latest_cons_other hid]
    exact h.resolve_right hid

theorem Revoked.unbound {binding : Uuid} (h : Revoked s id secret) (hu : Unbound s s₁ binding) :
    Revoked s₁ id secret := by
  obtain ⟨hissued, hor⟩ := h
  unfold Revoked
  rw [hu.issued]
  refine ⟨hissued, hor.imp_right ?_⟩
  intro hended b' hb' hid hactive
  obtain ⟨b, hb, hk⟩ := hu.rows b' hb'
  rcases hk.state with ⟨hstatus, _⟩ | ⟨hnot, _⟩
  · exact hended b hb (hk.id.symm.trans hid) (hstatus.symm.trans hactive)
  · exact hnot hactive

theorem Revoked.rotated {rotated : Uuid} (h : Revoked s id secret)
    (hfresh : ∀ i ∈ s.issued, i.2 ≠ d.credential.text) :
    Revoked (s.setCredential c rotated d) id secret := by
  obtain ⟨hissued, hor⟩ := h
  refine ⟨List.mem_cons_of_mem _ hissued, ?_⟩
  rcases hor with hlater | hended
  · exact .inl (latest_cons_ne hfresh hissued (.inl hlater))
  · refine .inr ?_
    intro b' hb' hid
    obtain ⟨b, hb, ⟨_, hre⟩ | ⟨_, rfl⟩⟩ := setCredential_rows hb'
    · rw [hre.status]
      exact hended b hb (hre.id.symm.trans hid)
    · exact hended b' hb hid

theorem Revoked.bound (hinv : DeviceInv c s) (h : Revoked s id secret)
    (hbound : Bound c s s₁ o esim d) (hfresh : ∀ i ∈ s.issued, i.2 ≠ d.credential.text) :
    Revoked s₁ id secret := by
  obtain ⟨hissued, hor⟩ := h
  unfold Revoked
  rw [hbound.issued]
  refine ⟨List.mem_cons_of_mem _ hissued, ?_⟩
  rcases hor with hlater | hended
  · exact .inl (latest_cons_ne hfresh hissued (.inl hlater))
  · refine .inr ?_
    intro b' hb' hid hactive
    rcases hbound.rows b' hb' with hnew | ⟨b, hb, hk⟩
    · -- what was handed out is of a binding that was there
      obtain ⟨b, hb, hof⟩ := hinv.known _ hissued
      exact hbound.fresh b hb (hof.trans (hid.symm.trans hnew.id))
    · rcases hk.state with ⟨hstatus, _⟩ | ⟨hnot, _⟩
      · exact hended b hb (hk.id.symm.trans hid) (hstatus.symm.trans hactive)
      · exact hnot hactive

theorem Revoked.move (hinv : DeviceInv c s) (h : Revoked s id secret) (hok : FreshDraw s t x)
    (hmove : DeviceMove c s t x s₁) : Revoked s₁ id secret := by
  cases hmove with
  | still => exact h
  | status organization status => exact h
  | transfer _ _ _ htransfer =>
    obtain ⟨hbindings, hissued⟩ := transfer_same htransfer
    unfold Revoked
    rw [hbindings, hissued]
    exact h
  | create _ hx hbind => exact h.bound hinv (bind_cases hbind) (hok _ hx).1
  | rotate hx hrotate =>
    obtain ⟨b₀, _, _, rfl, _⟩ := rotation_cases hrotate
    exact h.rotated (hok _ hx).1
  | unbind hunbind => exact h.unbound (unbind_cases hunbind)

/-! ## Secrets that are taken back -/

/-- The bindings whose secrets a call takes back: the one it is for, or those of the eSIM it binds
again. -/
def TakesBack (call : DeviceCall) (b : DeviceBinding) : Prop :=
  match call with
  | .createDeviceBinding _ _ esim _ => b.esim = esim
  | .rotateDeviceCredential _ _ binding => b.id = binding
  | .unbindDeviceBinding _ _ binding => b.id = binding
  | _ => False

/-- **A call that returns has taken back every secret that was handed out before.** -/
theorem Returns.revokes {b b₀ : DeviceBinding} {credential : Option String} (hcall : OfCall s t)
    (hok : FreshDraw s t x) (h : Returns c s t x s₁ b credential) (hb₀ : b₀ ∈ s.bindings)
    (hback : TakesBack t.call b₀) (hissued : (b₀.id, secret) ∈ s.issued) :
    Revoked s₁ b₀.id secret := by
  cases h with
  | @create o esim previous d _ hpc hx hbind =>
    have hbound := bind_cases hbind
    have hasked : esimAsked? t.call = some esim := hcall esim (by rw [hpc]; rfl)
    have hesim : b₀.esim = esim := by
      unfold esimAsked? at hasked
      split at hasked
      · rename_i hcreate
        rw [hcreate] at hback
        exact hback.trans (Option.some.inj hasked)
      · cases hasked
    unfold Revoked
    rw [hbound.issued]
    refine ⟨List.mem_cons_of_mem _ hissued, .inr ?_⟩
    -- the new binding is active, so no other one of its eSIM is
    intro b' hb' hid hactive
    obtain ⟨made, hmade, hmadeid, hmadeactive, _, hmadeesim⟩ := hbound.made
    have hfresh := hbound.fresh b₀ hb₀
    rcases hbound.rows b' hb' with hnew | ⟨b₁, hb₁, hkept⟩
    · exact hfresh (hid.symm.trans hnew.id)
    · have hrow : b₁ = b₀ := Table.eq_of_clash hb₁ hb₀ (.inl (hkept.id.symm.trans hid))
      have hsame : b'.esim = made.esim := by rw [hkept.esim, hrow, hesim, hmadeesim]
      have hone : b' = made := Table.eq_of_clash hb' hmade (.inr ⟨hactive, hmadeactive, .inl hsame⟩)
      exact hfresh (hid.symm.trans (hone ▸ hmadeid))
  | rotate hrotates hx hrotate =>
    obtain ⟨b₁, _, _, rfl, hid, _⟩ := rotation_cases hrotate
    rw [hrotates] at hback
    -- the secret that was drawn is the last one now
    exact ⟨List.mem_cons_of_mem _ hissued,
      .inl (latest_cons_ne (hok _ hx).1 hissued (.inr (hid.trans hback.symm)))⟩
  | unbind hunbinds hunbind =>
    have hunbound := unbind_cases hunbind
    rw [hunbinds] at hback
    -- no secret is added, and the binding is not active any more
    unfold Revoked
    rw [hunbound.issued]
    exact ⟨hissued, .inr fun b' hb' hid => hunbound.ended b' hb' (hid.trans hback)⟩

/-- A secret that is returned is the last one of the binding that is. -/
theorem Returns.latest {b : DeviceBinding} (h : Returns c s t x s₁ b (some secret)) :
    Proof.latest s₁.issued b.id = some secret := by
  cases h with
  | create _ _ hbind =>
    rw [(bind_cases hbind).issued, bind_id hbind]
    exact latest_cons_self ..
  | rotate _ _ hrotate =>
    obtain ⟨b₁, _, _, rfl, hid, hid'⟩ := rotation_cases hrotate
    rw [hid'.trans hid.symm]
    exact latest_cons_self ..

theorem revoked_later {g g' : Config DeviceDb DeviceThread}
    (h : (deviceProgram c).ReachWhere NoDevices FreshDraw g)
    (hlater : (deviceProgram c).LeadsWhere FreshDraw g g') (hrevoked : Revoked g.store id secret) :
    Revoked g'.store id secret := by
  refine hlater.keeps (K := fun s s' => ∀ id secret, Revoked s id secret → Revoked s' id secret) h
    (fun _ _ _ h => h) (fun _ _ _ h h' id secret hs => h' id secret (h id secret hs)) ?_ id
    secret hrevoked
  intro g p t x s' t' hg _ hok hstep id secret hs
  obtain ⟨s₁, locks, hmove, rfl⟩ := (deviceStep_effect hstep).move
  have hmoved : Revoked s₁ id secret := hs.move ((deviceInvariant c).reach hg).store hok hmove
  exact hmoved

end Later

/--
**Exactly the last secret of an active binding is accepted.** A binding that is not
active has no hash, and an eSIM has one active binding at most. When a rotation, an
unbinding or a creation returns, all secrets handed out before for its binding, or for
the earlier bindings of its eSIM, are revoked, and a revoked secret is not accepted again.
-/
theorem device_credentials_sound {c : DeviceSettings} (hinj : Function.Injective c.sha256)
    (hhex : ∀ x, c.sha256 x ≠ "") {g : Config DeviceDb DeviceThread}
    (h : (deviceProgram c).ReachWhere NoDevices FreshDraw g) :
    (∀ external secret b esim, DeviceDb.resolveByCredential c g.store external secret
      = .ok (b, esim) ↔
      b ∈ g.store.bindings ∧ b.deviceExternalId = PyText.strip external ∧ b.status = .active
        ∧ latest g.store.issued b.id = some secret ∧ esim = b.esim)
    ∧ (∀ b ∈ g.store.bindings, b.status ≠ .active → b.credentialHash = "")
    ∧ (∀ b ∈ g.store.bindings, ∀ b' ∈ g.store.bindings, b.status = .active → b'.status = .active →
        b.esim = b'.esim → b = b')
    ∧ (∀ g' p x t b credential, Program.Meets FreshDraw g (.tick p x : Act DeviceCall DeviceInput) →
        (deviceProgram c).exec g (.tick p x) = some g' → g'.threads p = some t
          → t.pc = .returned b credential →
          (∀ secret, credential = some secret → latest g'.store.issued b.id = some secret)
          ∧ ∀ b₀ ∈ g.store.bindings, TakesBack t.call b₀ →
              ∀ secret, (b₀.id, secret) ∈ g.store.issued → Revoked g'.store b₀.id secret)
    ∧ ∀ g' id secret, (deviceProgram c).LeadsWhere FreshDraw g g' → Revoked g.store id secret →
        ∀ external r, DeviceDb.resolveByCredential c g'.store external secret ≠ .ok r := by
  have hinv : DeviceInv c g.store := ((deviceInvariant c).reach h).store
  refine ⟨fun _ _ _ _ => resolve_iff hinj hhex hinv, hinv.cleared, ?_, ?_, ?_⟩
  · intro b hb b' hb' hactive hactive' hesim
    exact Table.eq_of_clash hb hb' (.inr ⟨hactive, hactive', .inl hesim⟩)
  · intro g' p x t b credential hok he ht hpc
    obtain ⟨u, u', hu, hstep, hthreads⟩ := Program.exec_tick he
    rw [hthreads, Function.update_self] at ht
    cases ht
    have heffect := deviceStep_effect hstep
    obtain ⟨s₁, locks, hreturns, hs'⟩ := heffect.returns b credential hpc
    rw [hs', heffect.call]
    refine ⟨?_, ?_⟩
    · rintro secret rfl
      exact hreturns.latest
    · intro b₀ hb₀ hback secret hissued
      have hcall := ((deviceInvariant c).reach h).thread p u hu
      have hrevoked : Revoked s₁ b₀.id secret := hreturns.revokes hcall (hok u hu) hb₀ hback hissued
      exact hrevoked
  · intro g' id secret hlater hrevoked external r hok
    have hinv' : DeviceInv c g'.store := ((deviceInvariant c).reach (h.leads hlater)).store
    obtain ⟨hissued, hor⟩ := revoked_later h hlater hrevoked
    obtain ⟨hmem, _, hactive, hlatest, _⟩ := (resolve_iff hinj hhex hinv').1 hok
    -- a secret is of one binding
    have hid : r.1.id = id := congrArg Prod.fst (hinv'.once _ (mem_of_latest hlatest) _ hissued rfl)
    rcases hor with hlater' | hended
    · exact hlater' (hid ▸ hlatest)
    · exact hended r.1 hmem hid hactive

/-! ## A device that is bound, and whose credential is rotated -/

def deviceSettings : DeviceSettings := ⟨fleetSettings.sha256, fun _ => .error .integrity⟩

theorem deviceSettings_hex (x : String) : deviceSettings.sha256 x ≠ "" := by
  intro h
  have hlist := congrArg String.toList h
  rw [deviceSettings, fleetSettings, String.toList_append] at hlist
  simp at hlist

def team : Uuid := ⟨"00000000-0000-4000-8000-0000000000a0", by decide⟩

def teamAccount : Uuid := ⟨"00000000-0000-4000-8000-0000000000a1", by decide⟩

/-- A team of one, with two eSIMs, and someone else. -/
def teamInventory : DeviceDb where
  people := ⟨[⟨1, "owner@example.com"⟩, ⟨2, "guest@example.com"⟩], by decide⟩
  accounts :=
    ⟨[⟨teamAccount, none, .organization⟩, ⟨Billing.Proof.bob, some 2, .personal⟩], by decide⟩
  organizations := ⟨[⟨team, "Team", .active, teamAccount⟩], by decide⟩
  memberships := ⟨[⟨Billing.Proof.alice, team, 1, .owner, .active⟩], by decide⟩
  esims := ⟨[⟨1, teamAccount, 1⟩, ⟨2, teamAccount, 1⟩], by decide⟩
  bindings := .empty
  issued := []
  locks := []

theorem noDevices_teamInventory : NoDevices teamInventory := ⟨rfl, rfl, rfl⟩

def firstBinding : Uuid := ⟨"00000000-0000-4000-8000-0000000000b1", by decide⟩

def firstDevice : Uuid := ⟨"00000000-0000-4000-8000-0000000000d4", by decide⟩

def secondBinding : Uuid := ⟨"00000000-0000-4000-8000-0000000000b2", by decide⟩

def secondDevice : Uuid := ⟨"00000000-0000-4000-8000-0000000000d2", by decide⟩

/-- Steps of a call, with what they draw. -/
def deviceSteps (p count : Nat) (binding device : Uuid) (credential : UrlToken) :
    List (Act DeviceCall DeviceInput) :=
  List.replicate count (.tick p (.go ⟨0, binding, device, credential, false⟩))

/-- The first eSIM is bound. -/
def binding : List (Act DeviceCall DeviceInput) :=
  .call 0 (.createDeviceBinding 1 team 1 false)
    :: deviceSteps 0 5 firstBinding firstDevice firstSecret

/-- The credential of the first binding is rotated. -/
def rotating : List (Act DeviceCall DeviceInput) :=
  .call 1 (.rotateDeviceCredential 1 team firstBinding)
    :: deviceSteps 1 3 secondBinding secondDevice secondSecret

/-- The first eSIM is bound again. -/
def replacing : List (Act DeviceCall DeviceInput) :=
  .call 2 (.createDeviceBinding 1 team 1 true)
    :: deviceSteps 2 6 secondBinding secondDevice thirdSecret

/-- The check of `FreshDraw`. -/
def freshDraw? (s : DeviceDb) (_ : DeviceThread) (x : DeviceInput) : Bool :=
  match x with
  | .go d =>
      s.issued.all (·.2 ≠ d.credential.text)
        && s.bindings.rows.all (·.deviceExternalId ≠ d.deviceExternalId.str)
  | .fail => true

theorem freshDraw_of_check {s : DeviceDb} {t : DeviceThread} {x : DeviceInput}
    (h : freshDraw? s t x = true) : FreshDraw s t x := by
  rintro d rfl
  obtain ⟨hissued, hbindings⟩ := Bool.and_eq_true_iff.1 h
  refine ⟨?_, ?_⟩
  · intro i hi
    exact of_decide_eq_true (List.all_eq_true.1 hissued i hi)
  · intro b hb
    exact of_decide_eq_true (List.all_eq_true.1 hbindings b hb)

/-- The first secret was handed out and rotated, and then the binding was replaced. -/
theorem device_credentials_sound_rotated : ∃ s s' : DeviceDb, Revoked s firstBinding "first"
    ∧ (∃ b ∈ s'.bindings, b.status = .replaced)
    ∧ (∃ b, b ∈ s.bindings ∧ b.status = .active ∧ latest s.issued b.id = some "second")
    ∧ ∀ external r, DeviceDb.resolveByCredential deviceSettings s' external "first" ≠ .ok r := by
  have hrun : ∃ g g', (deviceProgram deviceSettings).ReachWhere NoDevices FreshDraw g
      ∧ (deviceProgram deviceSettings).LeadsWhere FreshDraw g g'
      ∧ (g.store.issued.any (· = (firstBinding, "first"))
        && latest g.store.issued firstBinding ≠ some "first"
          && (DeviceDb.resolveByCredential deviceSettings g.store firstDevice.str
            "second").toOption.isSome
          && g'.store.bindings.rows.any (·.status = .replaced)) = true :=
    Program.leadsWhere_check freshDraw? (fun _ _ _ => freshDraw_of_check) noDevices_teamInventory
      (binding ++ rotating) replacing
      (fun g g' => g.store.issued.any (· = (firstBinding, "first"))
        && latest g.store.issued firstBinding ≠ some "first"
        && (DeviceDb.resolveByCredential deviceSettings g.store firstDevice.str
          "second").toOption.isSome
        && g'.store.bindings.rows.any (·.status = .replaced)) (by decide)
  obtain ⟨g, g', hg, hlater, hf⟩ := hrun
  obtain ⟨hf, hreplaced⟩ := Bool.and_eq_true_iff.1 hf
  obtain ⟨hf, haccepted⟩ := Bool.and_eq_true_iff.1 hf
  obtain ⟨hissued, hlatest⟩ := Bool.and_eq_true_iff.1 hf
  obtain ⟨i, hi, heq⟩ := List.any_eq_true.1 hissued
  have hrevoked : Revoked g.store firstBinding "first" :=
    ⟨of_decide_eq_true heq ▸ hi, .inl (of_decide_eq_true hlatest)⟩
  obtain ⟨hiff, _, _, _, hnever⟩ :=
    device_credentials_sound fleetSettings_injective deviceSettings_hex hg
  refine ⟨g.store, g'.store, hrevoked, ?_, ?_, hnever g' firstBinding "first" hlater hrevoked⟩
  · obtain ⟨b, hb, hstatus⟩ := List.any_eq_true.1 hreplaced
    exact ⟨b, hb, of_decide_eq_true hstatus⟩
  · cases hresolve : DeviceDb.resolveByCredential deviceSettings g.store firstDevice.str "second"
      with
    | error e =>
      rw [hresolve] at haccepted
      cases haccepted
    | ok r =>
      obtain ⟨hmem, _, hactive, hsecond, _⟩ := (hiff _ _ r.1 r.2).1 hresolve
      exact ⟨r.1, hmem, hactive, hsecond⟩

end Roamkit.Organizations.Proof
