import Roamkit.Organizations.Devices

/-!
# Device bindings and what they are tied to

What one step of a binding service, a transfer or a status change may do to the tables is
said once, in `DeviceMove`. Two results are read off it. A device is let in by the secret
handed out last for a binding that is active, and by no other; and an eSIM with an active
binding is of the account of the organization, as long as no transfer moves it away.
-/

namespace Roamkit.Organizations.Proof

open Lib Billing Partner Organizations

/-! ## What a step does -/

/-- The tables after a step, before its transaction lets its locks go. -/
inductive DeviceMove (c : DeviceSettings) (s : DeviceDb) (t : DeviceThread) (x : DeviceInput) :
    DeviceDb → Prop
  | still : DeviceMove c s t x s
  | status (organization : Uuid) (status : OrganizationStatus) :
      DeviceMove c s t x (s.setStatus organization status)
  | transfer {s₁ : DeviceDb} {esim : Nat} {user : UserId} {d : DeviceDraw} :
      t.call = .transferEsimInventory esim user → t.pc = .asked → x = .go d →
      s.transferEsimInventory esim user d.fulfilling = .ok s₁ → DeviceMove c s t x s₁
  | create {s₁ : DeviceDb} {o : Organization} {esim : Nat} {previous : Option DeviceBinding}
      {d : DeviceDraw} {b : DeviceBinding} :
      t.pc = .binding o esim previous → x = .go d → s.bind c o esim previous d = .ok (s₁, b) →
      DeviceMove c s t x s₁
  | rotate {s₁ : DeviceDb} {organization binding : Uuid} {d : DeviceDraw} {b : DeviceBinding} :
      x = .go d → s.rotate c organization binding d = .ok (s₁, b) → DeviceMove c s t x s₁
  | unbind {s₁ : DeviceDb} {organization binding : Uuid} {b : DeviceBinding} :
      s.unbind organization binding = .ok (s₁, b) → DeviceMove c s t x s₁

/-- The organization a call has read. -/
def readOrganization? : DevicePc → Option Organization
  | .located o => some o
  | .allowed o => some o
  | .looking o _ => some o
  | .locking o _ _ => some o
  | .binding o _ _ => some o
  | _ => none

/-- The eSIM a creation is asked for, -/
def esimAsked? : DeviceCall → Option Nat
  | .createDeviceBinding _ _ esim _ => some esim
  | _ => none

/-- and the one a call has read. -/
def esimRead? : DevicePc → Option Nat
  | .looking _ esim => some esim
  | .locking _ esim _ => some esim
  | .binding _ esim _ => some esim
  | _ => none

/-- What a call that returns a binding, and perhaps a secret for it, has made of the tables. -/
inductive Returns (c : DeviceSettings) (s : DeviceDb) (t : DeviceThread) (x : DeviceInput) :
    DeviceDb → DeviceBinding → Option String → Prop
  | create {s₁ : DeviceDb} {o : Organization} {esim : Nat} {previous : Option DeviceBinding}
      {d : DeviceDraw} {b : DeviceBinding} :
      t.pc = .binding o esim previous → x = .go d → s.bind c o esim previous d = .ok (s₁, b) →
      Returns c s t x s₁ b (some d.credential.text)
  | rotate {s₁ : DeviceDb} {actor : UserId} {organization binding : Uuid} {o : Organization}
      {d : DeviceDraw} {b : DeviceBinding} :
      t.call = .rotateDeviceCredential actor organization binding → x = .go d →
      s.rotate c o.id binding d = .ok (s₁, b) → Returns c s t x s₁ b (some d.credential.text)
  | unbind {s₁ : DeviceDb} {actor : UserId} {organization binding : Uuid} {o : Organization}
      {b : DeviceBinding} :
      t.call = .unbindDeviceBinding actor organization binding
        → s.unbind o.id binding = .ok (s₁, b) →
      Returns c s t x s₁ b none

/-- What a step makes of the tables, and of what the call has read. -/
structure DeviceEffect (c : DeviceSettings) (s : DeviceDb) (t : DeviceThread) (x : DeviceInput)
    (s' : DeviceDb) (t' : DeviceThread) : Prop where
  move : ∃ s₁ locks, DeviceMove c s t x s₁ ∧ s' = { s₁ with locks := locks }
  read : ∀ o, readOrganization? t'.pc = some o
    → readOrganization? t.pc = some o ∨ o ∈ s.organizations
  call : t'.call = t.call
  esim : ∀ e, esimRead? t'.pc = some e → esimRead? t.pc = some e ∨ esimAsked? t.call = some e
  returns : ∀ b credential, t'.pc = .returned b credential →
    ∃ s₁ locks, Returns c s t x s₁ b credential ∧ s' = { s₁ with locks := locks }

section Step

variable {c : DeviceSettings} {s s' s₁ : DeviceDb} {t t' : DeviceThread} {x : DeviceInput}
  {d : DeviceDraw}

theorem effect_finish {p : DevicePc} (hmove : DeviceMove c s t x s₁) (hp : p.isLive = false)
    (hreturns : ∀ b credential, p = .returned b credential → Returns c s t x s₁ b credential) :
    DeviceEffect c s t x (s₁.finish t p).1 (s₁.finish t p).2 where
  move := ⟨s₁, _, hmove, rfl⟩
  read o h := by
    have h : readOrganization? p = some o := h
    cases p <;> simp_all [readOrganization?, DevicePc.isLive]
  call := rfl
  esim e h := by
    have h : esimRead? p = some e := h
    cases p <;> simp_all [esimRead?, DevicePc.isLive]
  returns b credential h := ⟨s₁, _, hreturns b credential h, rfl⟩

theorem effect_raise (e : Exc) : DeviceEffect c s t x (s.raise t e).1 (s.raise t e).2 := by
  have hreturns : ∀ b credential, DevicePc.raised e = .returned b credential
      → Returns c s t x s b credential := by
    intro b credential h
    cases h
  exact effect_finish .still rfl hreturns

/-- What a call has read is of its eSIM, and an organization that is there. -/
structure Reads (s : DeviceDb) (t : DeviceThread) (pc : DevicePc) : Prop where
  organization : ∀ o, readOrganization? pc = some o
    → readOrganization? t.pc = some o ∨ o ∈ s.organizations
  esim : ∀ e, esimRead? pc = some e → esimRead? t.pc = some e ∨ esimAsked? t.call = some e

theorem effect_goto {pc : DevicePc} {locks held : List Uuid} (hlive : pc.isLive = true)
    (h : Reads s t pc) :
    DeviceEffect c s t x { s with locks } { t with pc, held } where
  move := ⟨s, _, .still, rfl⟩
  read := h.organization
  call := rfl
  esim := h.esim
  returns b credential hpc := by
    have hpc : pc = .returned b credential := hpc
    rw [hpc] at hlive
    cases hlive

theorem effect_change {binding : Uuid} {credential : Option String}
    {r : Except Exc (DeviceDb × DeviceBinding)}
    (hr : ∀ s₁ b, r = .ok (s₁, b) → DeviceMove c s t x s₁ ∧ Returns c s t x s₁ b credential)
    (h : s.change t binding credential r = some (s', t')) : DeviceEffect c s t x s' t' := by
  unfold DeviceDb.change at h
  split at h
  · cases h
  split at h
  · cases h
    exact effect_raise _
  · rename_i s₁ b
    cases h
    obtain ⟨hmove, hreturns⟩ := hr s₁ b rfl
    refine effect_finish hmove rfl ?_
    intro b' credential' h
    cases h
    exact hreturns

theorem effect_begin (hpc : t.pc = .asked) :
    DeviceEffect c s t (.go d) (s.begin t d).1 (s.begin t d).2 := by
  unfold DeviceDb.begin
  split
  · rename_i esim user hcall
    split
    · exact effect_raise _
    · rename_i s₁ hok
      exact effect_finish (.transfer hcall hpc rfl hok) rfl fun _ _ h => by cases h
  · exact effect_finish (.status _ _) rfl fun _ _ h => by cases h
  · split
    · exact effect_raise _
    · split
      · exact effect_raise _
      · rename_i o hfind
        refine effect_goto rfl ⟨?_, fun e he => by cases he⟩
        intro o' ho'
        cases ho'
        exact .inr (Table.mem_of_find? hfind)

theorem effect_proceed {o : Organization} (hpc : t.pc = .allowed o)
    (h : s.proceed t c o d = some (s', t')) : DeviceEffect c s t (.go d) s' t' := by
  unfold DeviceDb.proceed at h
  split at h
  · rename_i hcall
    split at h
    · cases h
      exact effect_raise _
    · cases h
      refine effect_goto rfl ⟨fun _ ho => .inl (hpc ▸ ho), fun e he => .inr ?_⟩
      rw [hcall]
      exact he
  · rename_i hcall
    exact effect_change (fun _ _ hok => ⟨.rotate rfl hok, .rotate hcall rfl hok⟩) h
  · rename_i hcall
    exact effect_change (fun _ _ hok => ⟨.unbind hok, .unbind hcall hok⟩) h
  · cases h

theorem effect_lock {o : Organization} {esim : Nat} {found : DeviceBinding}
    (hpc : t.pc = .locking o esim found) (h : s.lock t o esim found = some (s', t')) :
    DeviceEffect c s t x s' t' := by
  have hread : ∀ previous, Reads s t (.binding o esim previous) := by
    intro previous
    exact ⟨fun o' ho' => .inl (hpc ▸ ho'), fun e he => .inl (hpc ▸ he)⟩
  unfold DeviceDb.lock at h
  split at h
  · cases h
  split at h
  · cases h
    exact effect_goto rfl (hread _)
  · split at h
    · cases h
      exact effect_goto rfl (hread _)
    · cases h
      exact effect_raise _

theorem effect_of_eq {r : DeviceDb × DeviceThread} (hr : DeviceEffect c s t x r.1 r.2)
    (h : some r = some (s', t')) : DeviceEffect c s t x s' t' := by
  have heq : r = (s', t') := Option.some.inj h
  rw [heq] at hr
  exact hr

/-- **What one step of any call may do.** -/
theorem deviceStep_effect (h : deviceStep c s t x = some (s', t')) :
    DeviceEffect c s t x s' t' := by
  unfold deviceStep at h
  split at h
  · split at h
    · cases h
      exact effect_raise _
    · cases h
  · rename_i d
    split at h
    · rename_i hpc
      exact effect_of_eq (effect_begin hpc) h
    · rename_i o hpc
      refine effect_of_eq ?_ h
      unfold DeviceDb.authorize
      split
      · exact effect_raise _
      · split
        · exact effect_raise _
        · exact effect_goto rfl ⟨fun _ ho => .inl (hpc ▸ ho), fun _ he => by cases he⟩
    · rename_i o hpc
      exact effect_proceed hpc h
    · rename_i o esim hpc
      refine effect_of_eq ?_ h
      unfold DeviceDb.look
      split
      · exact effect_goto rfl ⟨fun _ ho => .inl (hpc ▸ ho), fun _ he => .inl (hpc ▸ he)⟩
      · exact effect_goto rfl ⟨fun _ ho => .inl (hpc ▸ ho), fun _ he => .inl (hpc ▸ he)⟩
    · rename_i o esim found hpc
      exact effect_lock hpc h
    · rename_i o esim previous hpc
      refine effect_of_eq ?_ h
      unfold DeviceDb.create
      split
      · exact effect_raise _
      · rename_i s₁ b hok
        refine effect_finish (.create hpc rfl hok) rfl ?_
        intro b' credential h
        cases h
        exact .create hpc rfl hok
    · cases h

end Step

/-! ## The rows after a step -/

/-- A row as it was, or as it was when it was active. -/
structure Kept (b b' : DeviceBinding) : Prop where
  id : b'.id = b.id
  organization : b'.organization = b.organization
  esim : b'.esim = b.esim
  external : b'.deviceExternalId = b.deviceExternalId
  guid : b'.uemDeviceGuid = b.uemDeviceGuid
  state : (b'.status = b.status ∧ b'.credentialHash = b.credentialHash)
    ∨ (b'.status ≠ .active ∧ b'.credentialHash = "")

theorem Kept.refl (b : DeviceBinding) : Kept b b := ⟨rfl, rfl, rfl, rfl, rfl, .inl ⟨rfl, rfl⟩⟩

theorem kept_ended {status : DeviceBindingStatus} (h : status ≠ .active) (b : DeviceBinding) :
    Kept b (DeviceDb.ended status b) := ⟨rfl, rfl, rfl, rfl, rfl, .inr ⟨h, rfl⟩⟩

/-- A row with another credential. -/
structure Reissued (hash : String) (b b' : DeviceBinding) : Prop where
  id : b'.id = b.id
  organization : b'.organization = b.organization
  esim : b'.esim = b.esim
  external : b'.deviceExternalId = b.deviceExternalId
  guid : b'.uemDeviceGuid = b.uemDeviceGuid
  status : b'.status = b.status
  hash : b'.credentialHash = hash

section Rows

variable {c : DeviceSettings} {s s₁ : DeviceDb} {o : Organization} {esim : Nat}
  {previous : Option DeviceBinding} {d : DeviceDraw} {b : DeviceBinding}
  {organization binding : Uuid}

theorem setCredential_rows {id : Uuid} {b' : DeviceBinding}
    (h : b' ∈ (s.setCredential c id d).bindings) :
    ∃ b ∈ s.bindings, (b.id = id ∧ Reissued (c.sha256 d.credential.text) b b')
      ∨ (b.id ≠ id ∧ b' = b) := by
  obtain ⟨b, hb, ⟨hid, rfl⟩ | ⟨hid, rfl⟩⟩ := Table.of_mem_rewritten h
  · exact ⟨b, hb, .inl ⟨by simpa using hid, rfl, rfl, rfl, rfl, rfl, rfl, rfl⟩⟩
  · exact ⟨b', hb, .inr ⟨by simpa using hid, rfl⟩⟩

theorem mem_setCredential (id : Uuid) (hb : b ∈ s.bindings) :
    ∃ b' ∈ (s.setCredential c id d).bindings, b'.id = b.id ∧ b'.status = b.status
      ∧ b'.organization = b.organization ∧ b'.esim = b.esim := by
  refine ⟨_, Table.mem_rewritten hb, ?_⟩
  unfold Lib.rewrite
  split <;> exact ⟨rfl, rfl, rfl, rfl⟩

/-- An active binding of the organization is what a rotation or an unbinding works on. -/
theorem activeBinding_ok (h : s.activeBinding organization binding = .ok b) :
    b ∈ s.bindings ∧ b.status = .active ∧ b.id = binding := by
  unfold DeviceDb.activeBinding at h
  split at h
  · cases h
  rename_i found hfind
  have hprop := Table.prop_of_find? hfind
  rw [Bool.and_eq_true, decide_eq_true_iff] at hprop
  split at h
  · rename_i hactive
    cases h
    exact ⟨Table.mem_of_find? hfind, hactive, hprop.1⟩
  · cases h

theorem rotation_cases (h : s.rotate c organization binding d = .ok (s₁, b)) :
    ∃ b₀ ∈ s.bindings, b₀.status = .active ∧ s₁ = s.setCredential c b₀.id d ∧ b₀.id = binding
      ∧ b.id = binding := by
  unfold DeviceDb.rotate at h
  obtain ⟨b₀, hactive, h⟩ := bind_ok h
  cases h
  obtain ⟨hmem, hstatus, hid⟩ := activeBinding_ok hactive
  exact ⟨b₀, hmem, hstatus, rfl, hid, hid⟩

/-- Where a transfer of an eSIM would take it, when it would move it. -/
def destination? (s : DeviceDb) (esim : Nat) (user : UserId) (fulfilling : Bool) :
    Option AccountIdentity :=
  do
  let locked ← s.esims.find? (·.id = esim)
  let _ ← s.people.find? (·.id = user)
  let account ← (s.accounts.find? (·.user = some user)).filter (·.kind = .personal)
  if locked.account ≠ account.id ∧ fulfilling = false then some account else none

/-- A transfer writes the one eSIM that it moves, or nothing. -/
theorem transfer_cases {user : UserId} {fulfilling : Bool}
    (h : s.transferEsimInventory esim user fulfilling = .ok s₁) :
    (destination? s esim user fulfilling = none ∧ s₁ = s)
      ∨ ∃ account, destination? s esim user fulfilling = some account
          ∧ s₁ = { s with
            esims :=
              s.esims.update (·.id = esim) (DeviceDb.moved account.id user) (fun _ _ h => h) } := by
  unfold DeviceDb.transferEsimInventory at h
  split at h
  · cases h
  rename_i locked hlocked
  split at h
  · cases h
  rename_i hperson
  obtain ⟨person, hperson⟩ : ∃ person, s.people.find? (·.id = user) = some person :=
    Option.ne_none_iff_exists'.1 (by simpa using hperson)
  split at h
  · cases h
  rename_i account haccount
  have hdest : destination? s esim user fulfilling
      = if locked.account ≠ account.id ∧ fulfilling = false then some account else none := by
    unfold destination?
    rw [hlocked, hperson, haccount]
    rfl
  split at h
  · rename_i hsame
    cases h
    exact .inl ⟨by rw [hdest, if_neg fun hn => hn.1 hsame], rfl⟩
  · rename_i hother
    split at h
    · cases h
    rename_i hfulfilling
    cases h
    exact .inr ⟨account, by rw [hdest, if_pos ⟨hother, by simpa using hfulfilling⟩], rfl⟩

/-- What an unbinding leaves of the tables. -/
structure Unbound (s s₁ : DeviceDb) (binding : Uuid) : Prop where
  rows : ∀ b' ∈ s₁.bindings, ∃ b ∈ s.bindings, Kept b b'
  kept : ∀ b ∈ s.bindings, ∃ b' ∈ s₁.bindings, b'.id = b.id
  /-- The binding is not active any more. -/
  ended : ∀ b' ∈ s₁.bindings, b'.id = binding → b'.status ≠ .active
  issued : s₁.issued = s.issued
  esims : s₁.esims = s.esims
  organizations : s₁.organizations = s.organizations

theorem unbind_cases (h : s.unbind organization binding = .ok (s₁, b)) : Unbound s s₁ binding := by
  unfold DeviceDb.unbind at h
  obtain ⟨b₀, hfound, h⟩ := bind_ok h
  cases h
  refine ⟨?_, ?_, ?_, rfl, rfl, rfl⟩
  · intro b' hb'
    obtain ⟨b, hb, ⟨_, rfl⟩ | ⟨_, rfl⟩⟩ := Table.of_mem_rewritten hb'
    · exact ⟨b, hb, kept_ended (by decide) b⟩
    · exact ⟨b', hb, .refl b'⟩
  · intro b hb
    refine ⟨_, Table.mem_rewritten hb, ?_⟩
    unfold Lib.rewrite
    split <;> rfl
  · intro b' hb' hid
    obtain ⟨b, hb, ⟨_, rfl⟩ | ⟨hother, rfl⟩⟩ := Table.of_mem_rewritten hb'
    · exact fun hc => by cases hc
    · have hother : b'.id ≠ b₀.id := by simpa using hother
      exact absurd (hid.trans (activeBinding_ok hfound).2.2.symm) hother

/-- The row a creation leaves. -/
structure Created (c : DeviceSettings) (o : Organization) (esim : Nat) (d : DeviceDraw)
    (b : DeviceBinding) :
    Prop where
  id : b.id = d.binding
  organization : b.organization = o.id
  esim : b.esim = esim
  external : b.deviceExternalId = d.deviceExternalId.str
  guid : b.uemDeviceGuid = ""
  status : b.status = .active
  hash : b.credentialHash = c.sha256 d.credential.text

/-- What a creation leaves of the tables. -/
structure Bound (c : DeviceSettings) (s s₁ : DeviceDb) (o : Organization) (esim : Nat)
    (d : DeviceDraw) :
    Prop where
  fresh : ∀ b ∈ s.bindings, b.id ≠ d.binding
  rows : ∀ b' ∈ s₁.bindings, Created c o esim d b' ∨ ∃ b ∈ s.bindings, Kept b b'
  made : ∃ b' ∈ s₁.bindings, b'.id = d.binding ∧ b'.status = .active ∧ b'.organization = o.id
    ∧ b'.esim = esim
  kept : ∀ b ∈ s.bindings, ∃ b' ∈ s₁.bindings, b'.id = b.id
  issued : s₁.issued = (d.binding, d.credential.text) :: s.issued
  esims : s₁.esims = s.esims
  organizations : s₁.organizations = s.organizations

/-- The insert, in the table whose slot is free, and the credential of the row. -/
theorem bound_of_insert (s₀ : DeviceDb) {s₂ : DeviceDb} {bindings : Table DeviceBinding}
    (hrows : ∀ b' ∈ s₀.bindings, ∃ b ∈ s.bindings, Kept b b')
    (hkept : ∀ b ∈ s.bindings, ∃ b' ∈ s₀.bindings, b'.id = b.id)
    (hrest : s₀.issued = s.issued ∧ s₀.esims = s.esims ∧ s₀.organizations = s.organizations)
    (hi : s₀.bindings.insert? (DeviceDb.newBinding o esim d) = some bindings)
    (hlink : ∀ b' ∈ s₂.bindings, ∃ b ∈ bindings, ∃ replacedBy, b'
      = { b with replacedBy := replacedBy })
    (hlinked : ∀ b ∈ bindings, ∃ b' ∈ s₂.bindings, ∃ replacedBy, b'
      = { b with replacedBy := replacedBy })
    (hsame : s₂.issued = s₀.issued ∧ s₂.esims = s₀.esims ∧ s₂.organizations = s₀.organizations) :
    Bound c s (s₂.setCredential c d.binding d) o esim d := by
  obtain ⟨hissued, hesims, horganizations⟩ := hrest
  obtain ⟨hissued', hesims', horganizations'⟩ := hsame
  have hfresh : ∀ b ∈ s₀.bindings, b.id ≠ d.binding :=
    fun b hb heq => Table.apart_of_insert hi hb (.inl heq)
  refine ⟨?_, ?_, ?_, ?_, ?_, hesims'.trans hesims, horganizations'.trans horganizations⟩
  · intro b hb heq
    obtain ⟨b', hb', hid⟩ := hkept b hb
    exact hfresh b' hb' (hid.trans heq)
  · intro b' hb'
    obtain ⟨b₂, hb₂, hb'⟩ := setCredential_rows hb'
    obtain ⟨b₁, hb₁, _, rfl⟩ := hlink b₂ hb₂
    rcases (Table.mem_insert hi).1 hb₁ with hold | rfl
    · -- a row that was there does not get the credential
      rcases hb' with ⟨hid, _⟩ | ⟨_, rfl⟩
      · exact absurd hid (hfresh b₁ hold)
      · obtain ⟨b, hb, hk⟩ := hrows b₁ hold
        exact .inr ⟨b, hb, hk.id, hk.organization, hk.esim, hk.external, hk.guid, hk.state⟩
    · rcases hb' with ⟨_, hre⟩ | ⟨hid, _⟩
      · exact .inl ⟨hre.id, hre.organization, hre.esim, hre.external, hre.guid,
          hre.status, hre.hash⟩
      · exact absurd rfl hid
  · obtain ⟨b₂, hb₂, _, rfl⟩ := hlinked _ ((Table.mem_insert hi).2 (.inr rfl))
    obtain ⟨b', hb', hid, hstatus, horg, hesim⟩ := mem_setCredential (c := c) (d := d) d.binding hb₂
    exact ⟨b', hb', hid, hstatus, horg, hesim⟩
  · intro b hb
    obtain ⟨b₀, hb₀, hid⟩ := hkept b hb
    obtain ⟨b₂, hb₂, _, rfl⟩ := hlinked b₀ ((Table.mem_insert hi).2 (.inl hb₀))
    obtain ⟨b', hb', hid', _⟩ := mem_setCredential (c := c) (d := d) d.binding hb₂
    exact ⟨b', hb', hid'.trans hid⟩
  · rw [← hissued, ← hissued']
    rfl

/-- What a creation returns is the row with its primary key. -/
theorem bind_id (h : s.bind c o esim previous d = .ok (s₁, b)) : b.id = d.binding := by
  unfold DeviceDb.bind at h
  dsimp only at h
  split at h
  · cases h
  · cases h
    rfl

theorem bind_cases (h : s.bind c o esim previous d = .ok (s₁, b)) : Bound c s s₁ o esim d := by
  unfold DeviceDb.bind at h
  cases previous with
  | none =>
    dsimp only at h
    split at h
    · cases h
    rename_i bindings hi
    cases h
    exact bound_of_insert s (fun b hb => ⟨b, hb, .refl b⟩) (fun b hb => ⟨b, hb, rfl⟩)
      ⟨rfl, rfl, rfl⟩ hi
      (fun b hb => ⟨b, hb, b.replacedBy, rfl⟩) (fun b hb => ⟨b, hb, b.replacedBy, rfl⟩)
        ⟨rfl, rfl, rfl⟩
  | some p =>
    dsimp only at h
    split at h
    · cases h
    rename_i bindings hi
    cases h
    let s₀ : DeviceDb := { s with
      bindings := s.bindings.update (·.id = p.id) (DeviceDb.ended .replaced)
        (DeviceDb.ended_keeps (by decide)) }
    refine bound_of_insert s₀ ?_ ?_ ⟨rfl, rfl, rfl⟩ hi ?_ ?_ ⟨rfl, rfl, rfl⟩
    · intro b' hb'
      obtain ⟨b, hb, ⟨_, rfl⟩ | ⟨_, rfl⟩⟩ := Table.of_mem_rewritten hb'
      · exact ⟨b, hb, kept_ended (by decide) b⟩
      · exact ⟨b', hb, .refl b'⟩
    · intro b hb
      refine ⟨_, Table.mem_rewritten hb, ?_⟩
      unfold Lib.rewrite
      split <;> rfl
    · intro b' hb'
      obtain ⟨b, hb, ⟨_, rfl⟩ | ⟨_, rfl⟩⟩ := Table.of_mem_rewritten hb'
      · exact ⟨b, hb, _, rfl⟩
      · exact ⟨b', hb, b'.replacedBy, rfl⟩
    · intro b hb
      refine ⟨_, Table.mem_rewritten hb, ?_⟩
      by_cases hp : b.id = p.id
      · exact ⟨_, rewrite_pos _ (by simpa using hp)⟩
      · exact ⟨b.replacedBy, rewrite_neg _ (by simpa using hp)⟩

end Rows

end Roamkit.Organizations.Proof
