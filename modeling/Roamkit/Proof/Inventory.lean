import Roamkit.Proof.DeviceCredential

/-!
# Whose eSIM a binding is of

A binding is made for an eSIM of the account of the organization. A transfer that moves
an eSIM does not look at bindings, and a creation checks the account before its insert
and not with it; apart from these two, every step leaves the inventory of a team with it.
-/

namespace Roamkit.Organizations.Proof

open Lib Billing Partner Organizations

/-- An active binding is of an eSIM of the account of its organization. -/
def TeamInventory (s : DeviceDb) : Prop :=
  ∀ b ∈ s.bindings, b.status = .active → ∃ e ∈ s.esims, ∃ o ∈ s.organizations,
    e.id = b.esim ∧ o.id = b.organization ∧ e.account = o.account

/-- A transfer moves no eSIM that is bound, and an insert finds the eSIM where it was. -/
structure KeepsInventory (c : DeviceSettings) (s : DeviceDb) (t : DeviceThread)
    (x : DeviceInput) : Prop where
  transfer : ∀ esim user d account, t.pc = .asked → t.call = .transferEsimInventory esim user
    → x = .go d →
    destination? s esim user d.fulfilling = some account →
    ∀ b ∈ s.bindings, b.esim = esim → b.status ≠ .active
  insert : ∀ o esim previous d r, t.pc = .binding o esim previous → x = .go d →
    s.bind c o esim previous d = .ok r → ∃ e ∈ s.esims, e.id = esim ∧ e.account = o.account

/-- The organization a call has read is still there, with the account it had. -/
def ReadLocal (s : DeviceDb) (t : DeviceThread) : Prop :=
  ∀ o, readOrganization? t.pc = some o
    → ∃ o' ∈ s.organizations, o'.id = o.id ∧ o'.account = o.account

variable {o : Organization} {esim : Nat}

section Step

variable {c : DeviceSettings} {s s₁ s' : DeviceDb} {t t' : DeviceThread} {x : DeviceInput}
  {d : DeviceDraw}

theorem setStatus_organizations {organization : Uuid} {status : OrganizationStatus}
    (ho : o ∈ s.organizations) :
    ∃ o' ∈ (s.setStatus organization status).organizations, o'.id = o.id
      ∧ o'.account = o.account := by
  refine ⟨_, Table.mem_rewritten ho, ?_⟩
  unfold Lib.rewrite
  split <;> exact ⟨rfl, rfl⟩

/-- No step takes an organization away, or its account. -/
theorem DeviceMove.organizations (h : DeviceMove c s t x s₁) (ho : o ∈ s.organizations) :
    ∃ o' ∈ s₁.organizations, o'.id = o.id ∧ o'.account = o.account := by
  cases h with
  | still => exact ⟨o, ho, rfl, rfl⟩
  | status organization status => exact setStatus_organizations ho
  | transfer _ _ _ htransfer =>
    rcases transfer_cases htransfer with ⟨_, rfl⟩ | ⟨account, _, rfl⟩ <;> exact ⟨o, ho, rfl, rfl⟩
  | create _ _ hbind =>
    rw [(bind_cases hbind).organizations]
    exact ⟨o, ho, rfl, rfl⟩
  | rotate _ hrotate =>
    obtain ⟨b₀, _, _, rfl, _⟩ := rotation_cases hrotate
    exact ⟨o, ho, rfl, rfl⟩
  | unbind hunbind =>
    rw [(unbind_cases hunbind).organizations]
    exact ⟨o, ho, rfl, rfl⟩

theorem TeamInventory.move (h : TeamInventory s) (hread : ReadLocal s t)
    (hok : KeepsInventory c s t x) (hmove : DeviceMove c s t x s₁) : TeamInventory s₁ := by
  cases hmove with
  | still => exact h
  | status organization status =>
    intro b hb hactive
    obtain ⟨e, he, o, ho, hesim, horg, haccount⟩ := h b hb hactive
    obtain ⟨o', ho', hid, haccount'⟩ := setStatus_organizations ho
    exact ⟨e, he, o', ho', hesim, hid.trans horg, haccount.trans haccount'.symm⟩
  | @transfer _ esim user d hcall hpc hx htransfer =>
    rcases transfer_cases htransfer with ⟨_, rfl⟩ | ⟨account, hdest, rfl⟩
    · exact h
    · intro b hb hactive
      obtain ⟨e, he, o, ho, hesim, horg, haccount⟩ := h b hb hactive
      -- the eSIM that moves has no active binding
      have hother : e.id ≠ esim :=
        fun heq => hok.transfer esim user d account hpc hcall hx hdest b hb
          (hesim.symm.trans heq) hactive
      have hmem : rewrite (·.id = esim) (DeviceDb.moved account.id user) e = e :=
        rewrite_neg _ (by simpa using hother)
      exact ⟨e, List.mem_map.2 ⟨e, he, hmem⟩, o, ho, hesim, horg, haccount⟩
  | @create _ o esim previous d _ hpc hx hbind =>
    have hbound := bind_cases hbind
    intro b' hb' hactive
    rw [hbound.esims, hbound.organizations]
    rcases hbound.rows b' hb' with hnew | ⟨b, hb, hk⟩
    · obtain ⟨e, he, hesim, haccount⟩ := hok.insert o esim previous d _ hpc hx hbind
      obtain ⟨o', ho', hid, haccount'⟩ := hread o (by rw [hpc]; rfl)
      exact ⟨e, he, o', ho', hesim.trans hnew.esim.symm, hid.trans hnew.organization.symm,
        haccount.trans haccount'.symm⟩
    · rcases hk.state with ⟨hstatus, _⟩ | ⟨hended, _⟩
      · rw [hk.esim, hk.organization]
        exact h b hb (hstatus.symm.trans hactive)
      · exact absurd hactive hended
  | rotate _ hrotate =>
    obtain ⟨b₀, _, _, rfl, _⟩ := rotation_cases hrotate
    intro b' hb' hactive
    obtain ⟨b, hb, ⟨_, hre⟩ | ⟨_, rfl⟩⟩ := setCredential_rows hb'
    · rw [hre.esim, hre.organization]
      exact h b hb (hre.status.symm.trans hactive)
    · exact h b' hb hactive
  | unbind hunbind =>
    have hunbound := unbind_cases hunbind
    intro b' hb' hactive
    rw [hunbound.esims, hunbound.organizations]
    obtain ⟨b, hb, hk⟩ := hunbound.rows b' hb'
    rcases hk.state with ⟨hstatus, _⟩ | ⟨hended, _⟩
    · rw [hk.esim, hk.organization]
      exact h b hb (hstatus.symm.trans hactive)
    · exact absurd hactive hended

/-- A transfer that would move an eSIM moves it. -/
theorem step_transfer {user : UserId} {account : AccountIdentity} (hpc : t.pc = .asked)
    (hcall : t.call = .transferEsimInventory esim user)
    (hdest : destination? s esim user d.fulfilling = some account)
    (h : deviceStep c s t (.go d) = some (s', t')) :
    s'.esims = s.esims.update (·.id = esim) (DeviceDb.moved account.id user) (fun _ _ h => h)
      ∧ s'.bindings = s.bindings ∧ s'.organizations = s.organizations := by
  unfold destination? at hdest
  obtain ⟨locked, hlocked, hdest⟩ := Option.bind_eq_some_iff.1 hdest
  obtain ⟨person, hperson, hdest⟩ := Option.bind_eq_some_iff.1 hdest
  obtain ⟨account', haccount, hdest⟩ := Option.bind_eq_some_iff.1 hdest
  split at hdest
  · rename_i hmoves
    cases hdest
    have hok : s.transferEsimInventory esim user d.fulfilling = .ok { s with
        esims :=
          s.esims.update (·.id = esim) (DeviceDb.moved account.id user) (fun _ _ h => h) } := by
      unfold DeviceDb.transferEsimInventory
      rw [hlocked]
      dsimp only
      rw [if_neg (by rw [hperson]; simp), haccount]
      dsimp only
      rw [if_neg hmoves.1, if_neg (by rw [hmoves.2]; simp)]
    unfold deviceStep at h
    rw [hpc] at h
    dsimp only at h
    unfold DeviceDb.begin at h
    rw [hcall] at h
    dsimp only at h
    rw [hok] at h
    have hs' := (Prod.mk.inj (Option.some.inj h)).1
    rw [← hs']
    exact ⟨rfl, rfl, rfl⟩
  · cases hdest

/-- The account of an eSIM that a transfer would move is another one. -/
theorem destination_ne {user : UserId} {fulfilling : Bool} {account : AccountIdentity}
    (hdest : destination? s esim user fulfilling = some account) {e : InventoryEsim}
    (he : e ∈ s.esims) (hid : e.id = esim) : e.account ≠ account.id := by
  unfold destination? at hdest
  obtain ⟨locked, hlocked, hdest⟩ := Option.bind_eq_some_iff.1 hdest
  obtain ⟨_, _, hdest⟩ := Option.bind_eq_some_iff.1 hdest
  obtain ⟨account', _, hdest⟩ := Option.bind_eq_some_iff.1 hdest
  have hprop : locked.id = esim := by simpa using Table.prop_of_find? hlocked
  have hsame : e = locked :=
    Table.eq_of_clash he (Table.mem_of_find? hlocked) (hid.trans hprop.symm)
  split at hdest
  · rename_i hmoves
    cases hdest
    rw [hsame]
    exact hmoves.1
  · cases hdest

/-- An insert that is not refused is made. -/
theorem step_create {previous : Option DeviceBinding} {r : DeviceDb × DeviceBinding}
    (hpc : t.pc = .binding o esim previous) (hbind : s.bind c o esim previous d = .ok r)
    (h : deviceStep c s t (.go d) = some (s', t')) :
    s'.bindings = r.1.bindings ∧ s'.esims = r.1.esims ∧ s'.organizations = r.1.organizations := by
  unfold deviceStep at h
  rw [hpc] at h
  dsimp only at h
  unfold DeviceDb.create at h
  rw [hbind] at h
  have hs' := (Prod.mk.inj (Option.some.inj h)).1
  rw [← hs']
  exact ⟨rfl, rfl, rfl⟩

/-- A step after which the inventory is as it should be met the condition. -/
theorem keepsInventory_of_step (h : TeamInventory s) (hread : ReadLocal s t) (h' : TeamInventory s')
    (hstep : deviceStep c s t x = some (s', t')) : KeepsInventory c s t x := by
  constructor
  · rintro esim user d account hpc hcall rfl hdest b hb hof hactive
    obtain ⟨hesims, hbindings, horganizations⟩ := step_transfer hpc hcall hdest hstep
    obtain ⟨e, he, o, ho, hesim, horg, haccount⟩ := h b hb hactive
    obtain ⟨e', he', o', ho', hesim', horg', haccount'⟩ := h' b (hbindings ▸ hb) hactive
    rw [hesims] at he'
    rw [horganizations] at ho'
    have hsame : o' = o := Table.eq_of_clash ho' ho (.inl (horg'.trans horg.symm))
    obtain ⟨e₀, he₀, ⟨hid, rfl⟩ | ⟨hid, rfl⟩⟩ := Table.of_mem_rewritten he'
    · have he₀ : e₀ = e := Table.eq_of_clash he₀ he (hesim'.trans hesim.symm)
      have hmoved : account.id = o'.account := haccount'
      refine destination_ne hdest he (hesim.trans hof) ?_
      rw [hmoved, hsame]
      exact haccount
    · exact hid (by simpa using hesim'.trans hof)
  · rintro o esim previous d r hpc rfl hbind
    obtain ⟨hbindings, hesims, horganizations⟩ := step_create hpc hbind hstep
    have hbound := bind_cases hbind
    obtain ⟨b', hb', _, hactive, hof, hesim'⟩ := hbound.made
    obtain ⟨e, he, o₁, ho₁, hesim, horg, haccount⟩ := h' b' (hbindings ▸ hb') hactive
    obtain ⟨o₂, ho₂, hid, haccount'⟩ := hread o (by rw [hpc]; rfl)
    rw [hesims, hbound.esims] at he
    rw [horganizations, hbound.organizations] at ho₁
    have hsame : o₁ = o₂ := Table.eq_of_clash ho₁ ho₂ (.inl (horg.trans (hof.trans hid.symm)))
    refine ⟨e, he, hesim.trans hesim', ?_⟩
    rw [haccount, hsame, haccount']

end Step

/-! ## Runs -/

theorem inventoryInvariant (c : DeviceSettings) :
    Invariant (deviceProgram c) (fun s => TeamInventory s ∧ s.locks = [])
      (KeepsInventory c) TeamInventory ReadLocal (fun _ _ => True) where
  init hs := hs.1
  start k _ := by
    intro o ho
    cases ho
  apart_start _ _ := trivial
  symm _ := trivial
  step := by
    intro s t x s' t' hG hL hok h
    have heffect := deviceStep_effect h
    obtain ⟨s₁, locks, hmove, rfl⟩ := heffect.move
    have hkept : TeamInventory s₁ := TeamInventory.move hG hL hok hmove
    refine ⟨hkept, ?_⟩
    intro o ho
    rcases heffect.read o ho with hread | hmem
    · obtain ⟨o₁, ho₁, hid₁, haccount₁⟩ := hL o hread
      obtain ⟨o₂, ho₂, hid₂, haccount₂⟩ := hmove.organizations ho₁
      exact ⟨o₂, ho₂, hid₂.trans hid₁, haccount₂.trans haccount₁⟩
    · exact hmove.organizations hmem
  frame := by
    intro s t x s' t' u _ _ _ h hu _
    obtain ⟨s₁, locks, hmove, rfl⟩ := (deviceStep_effect h).move
    refine ⟨?_, trivial⟩
    intro o ho
    obtain ⟨o₁, ho₁, hid₁, haccount₁⟩ := hu o ho
    obtain ⟨o₂, ho₂, hid₂, haccount₂⟩ := hmove.organizations ho₁
    exact ⟨o₂, ho₂, hid₂.trans hid₁, haccount₂.trans haccount₁⟩

/--
**While no transfer moves an eSIM that is bound, and no eSIM is moved while it is being
bound, every active binding is of an eSIM of the team.** And a step leaves it so exactly
when it meets that condition.
-/
theorem team_inventory_sound {c : DeviceSettings} {g : Config DeviceDb DeviceThread}
    (h : (deviceProgram c).ReachWhere (fun s => TeamInventory s ∧ s.locks = [])
      (KeepsInventory c) g) :
    TeamInventory g.store
      ∧ ∀ p t x g', g.threads p = some t → (deviceProgram c).exec g (.tick p x) = some g' →
          (TeamInventory g'.store ↔ KeepsInventory c g.store t x) := by
  have hholds := (inventoryInvariant c).reach h
  refine ⟨hholds.store, ?_⟩
  intro p t x g' hp he
  obtain ⟨t₀, t', ht, hs, _⟩ := Program.exec_tick he
  rw [hp] at ht
  cases ht
  constructor
  · intro h'
    exact keepsInventory_of_step hholds.store (hholds.thread p t hp) h' hs
  · intro hok
    exact ((inventoryInvariant c).step hholds.store (hholds.thread p t hp) hok hs).1

/-! ## A transfer of an eSIM that is bound -/

theorem teamInventory_start : TeamInventory teamInventory ∧ teamInventory.locks = [] :=
  ⟨fun b hb => absurd hb (Table.not_mem_empty b), rfl⟩

/-- An eSIM is transferred to the guest. -/
def transferring (esim : Nat) : List (Act DeviceCall DeviceInput) :=
  .call 3 (.transferEsimInventory esim 2)
    :: deviceSteps 3 1 secondBinding secondDevice secondSecret

/-- The check of `KeepsInventory`. -/
def keepsInventory? (c : DeviceSettings) (s : DeviceDb) (t : DeviceThread)
    (x : DeviceInput) : Bool :=
  match x with
  | .fail => true
  | .go d =>
    match t.pc with
    | .asked =>
      match t.call with
      | .transferEsimInventory esim user =>
        (destination? s esim user d.fulfilling).isNone
          || s.bindings.rows.all fun b => b.esim ≠ esim || b.status ≠ .active
      | _ => true
    | .binding o esim previous =>
      (s.bind c o esim previous d).toOption.isNone
        || s.esims.rows.any fun e => e.id = esim && e.account = o.account
    | _ => true

theorem keepsInventory_of_check {c : DeviceSettings} {s : DeviceDb} {t : DeviceThread}
    {x : DeviceInput} (h : keepsInventory? c s t x = true) : KeepsInventory c s t x := by
  constructor
  · rintro esim user d account hpc hcall rfl hdest b hb hesim hactive
    simp only [keepsInventory?, hpc, hcall, hdest] at h
    rw [Option.isNone_some, Bool.false_or] at h
    have hrow := List.all_eq_true.1 h b hb
    simp [hesim, hactive] at hrow
  · rintro o esim previous d r hpc rfl hbind
    simp only [keepsInventory?, hpc, hbind] at h
    obtain ⟨e, he, hprop⟩ := List.any_eq_true.1 (show s.esims.rows.any _ = true from h)
    exact ⟨e, he, by simpa using hprop⟩

/-- The first eSIM is bound, and not the guest's. -/
def firstBound (g : Config DeviceDb DeviceThread) (account : Uuid) : Bool :=
  (g.store.bindings.rows.any fun b => b.esim = 1 && b.organization = team && b.status = .active)
    && (g.store.esims.find? (·.id = 1)).any (·.account = account)
    && (g.store.organizations.find? (·.id = team)).any (·.account = teamAccount)

/-- The first eSIM is bound, and the second is transferred. -/
theorem team_inventory_sound_bound :
    ∃ g, firstBound g teamAccount = true ∧ TeamInventory g.store := by
  have hrun : ∃ g, (deviceProgram deviceSettings).ReachWhere
    (fun s => TeamInventory s ∧ s.locks = [])
      (KeepsInventory deviceSettings) g ∧ firstBound g teamAccount = true :=
    Program.reachWhere_check (keepsInventory? deviceSettings) (fun _ _ _ => keepsInventory_of_check)
      teamInventory_start (binding ++ transferring 2) (firstBound · teamAccount) (by decide)
  obtain ⟨g, hg, hf⟩ := hrun
  exact ⟨g, hf, (team_inventory_sound hg).1⟩

/-- **An eSIM with an active binding is transferred to the guest.** -/
theorem bound_esim_transferred : ∃ g,
    (deviceProgram deviceSettings).Reach (fun s => TeamInventory s ∧ s.locks = []) g
      ∧ ¬ TeamInventory g.store := by
  obtain ⟨g, hr, hf⟩ := Program.run_check (deviceProgram deviceSettings) teamInventory
    (binding ++ transferring 1) (firstBound · Billing.Proof.bob) (by decide)
  refine ⟨g, Program.reach_run teamInventory_start hr, ?_⟩
  intro hinventory
  obtain ⟨hf, horg⟩ := Bool.and_eq_true_iff.1 hf
  obtain ⟨hbound, hesim⟩ := Bool.and_eq_true_iff.1 hf
  obtain ⟨b, hb, hprop⟩ := List.any_eq_true.1 hbound
  obtain ⟨⟨hof, hteam⟩, hactive⟩ : (b.esim = 1 ∧ b.organization = team) ∧ b.status = .active := by
    simpa using hprop
  obtain ⟨e, he, o, ho, hid, hoid, haccount⟩ := hinventory b hb hactive
  obtain ⟨e₁, he₁, haccount₁⟩ := (Option.any_eq_true _ _).1 hesim
  obtain ⟨o₁, ho₁, haccount₂⟩ := (Option.any_eq_true _ _).1 horg
  have he₁id : e₁.id = 1 := by simpa using Table.prop_of_find? he₁
  have ho₁id : o₁.id = team := by simpa using Table.prop_of_find? ho₁
  have hsame : e = e₁ :=
    Table.eq_of_clash he (Table.mem_of_find? he₁) (hid.trans (hof.trans he₁id.symm))
  have hsame' : o = o₁ :=
    Table.eq_of_clash ho (Table.mem_of_find? ho₁) (.inl (hoid.trans (hteam.trans ho₁id.symm)))
  rw [hsame, hsame', of_decide_eq_true haccount₁, of_decide_eq_true haccount₂] at haccount
  exact absurd haccount (by decide)

end Roamkit.Organizations.Proof
