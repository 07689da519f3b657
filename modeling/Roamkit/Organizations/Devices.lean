import Roamkit.Organizations.FleetCredential
import Roamkit.Partner.Rows

/-!
# Device bindings

A binding ties an eSIM of a team account to a device identifier, and carries the hash of
a secret that is handed out when it is made or rotated. `deviceProgram` runs any number
of the binding services at once, with transfers of eSIMs to personal accounts and changes
of the status of organizations in between. A query outside a lock is a step of its own;
what follows the last lock of a transaction is one step.
-/

namespace Roamkit.Organizations

open Lib Billing Partner

inductive DeviceBindingStatus where
  | active
  | unbound
  | replaced
deriving DecidableEq

structure DeviceBinding where
  id : Uuid
  organization : Uuid
  esim : Nat
  deviceExternalId : String
  uemDeviceGuid : String
  credentialHash : String
  credentialIssuedAt : Option Time
  status : DeviceBindingStatus
  replacedBy : Option Uuid
deriving DecidableEq

/-- The two partial unique constraints are of the active rows. -/
instance : Constraint DeviceBinding where
  clash a b := a.id = b.id ∨ (a.status = .active ∧ b.status = .active
    ∧ (a.esim = b.esim
      ∨ (a.organization = b.organization ∧ a.deviceExternalId = b.deviceExternalId)))
  symm := by
    intro a b h
    rcases h with h | ⟨ha, hb, h | ⟨h, h'⟩⟩
    · exact .inl h.symm
    · exact .inr ⟨hb, ha, .inl h.symm⟩
    · exact .inr ⟨hb, ha, .inr ⟨h.symm, h'.symm⟩⟩
  decClash _ _ := inferInstance

/-- The columns of `Esim` that say whose it is. -/
structure InventoryEsim where
  id : Nat
  account : Uuid
  user : UserId
deriving DecidableEq

instance : Constraint InventoryEsim where
  clash e f := e.id = f.id
  symm := Eq.symm
  decClash _ _ := inferInstance

structure DeviceDb where
  people : Table Person
  accounts : Table AccountIdentity
  organizations : Table Organization
  memberships : Table Membership
  esims : Table InventoryEsim
  bindings : Table DeviceBinding
  /-- The secrets handed out for bindings, the last first; the database has only hashes of them. -/
  issued : List (Uuid × String)
  /-- The bindings that transactions in flight hold. -/
  locks : List Uuid

structure DeviceSettings where
  /-- `hashlib.sha256(…).hexdigest()` -/
  sha256 : String → String
  /-- `_resolve_esim_via_uem` -/
  resolveEsimViaUem : DeviceBinding → Except Exc Nat

/-! ## Calls -/

inductive DeviceCall where
  | createDeviceBinding (actor : UserId) (organization : Uuid) (esim : Nat) (replace : Bool)
  | rotateDeviceCredential (actor : UserId) (organization binding : Uuid)
  | unbindDeviceBinding (actor : UserId) (organization binding : Uuid)
  | transferEsimInventory (esim : Nat) (destinationUser : UserId)
  /-- An organization is saved with another status. -/
  | setOrganizationStatus (organization : Uuid) (status : OrganizationStatus)

/-- The actor and the organization of a binding service. -/
def DeviceCall.context? : DeviceCall → Option (UserId × Uuid)
  | createDeviceBinding actor organization _ _ => some (actor, organization)
  | rotateDeviceCredential actor organization _ => some (actor, organization)
  | unbindDeviceBinding actor organization _ => some (actor, organization)
  | _ => none

inductive DevicePc where
  /-- Not begun. -/
  | asked
  /-- `resolve_organization_context` has read the organization. -/
  | located (o : Organization)
  /-- `require_device_bind` has passed. -/
  | allowed (o : Organization)
  /-- The eSIM is of the account of the organization. -/
  | looking (o : Organization) (esim : Nat)
  /-- An active binding of the eSIM was found, and is not locked yet. -/
  | locking (o : Organization) (esim : Nat) (found : DeviceBinding)
  /-- The binding to replace is locked, or there is none. -/
  | binding (o : Organization) (esim : Nat) (previous : Option DeviceBinding)
  | returned (b : DeviceBinding) (credential : Option String)
  | done
  | raised (e : Exc)

structure DeviceThread where
  call : DeviceCall
  pc : DevicePc
  /-- The bindings its transaction holds. -/
  held : List Uuid

/-- What a step gets from outside. -/
structure DeviceDraw where
  now : Time
  /-- The primary key of a new binding. -/
  binding : Uuid
  deviceExternalId : Uuid
  credential : UrlToken
  /-- A top-up of the eSIM is fulfilling. -/
  fulfilling : Bool

inductive DeviceInput where
  | go (d : DeviceDraw)
  | fail

/-! ## The services -/

variable (s : DeviceDb) (c : DeviceSettings)

namespace DeviceDb

/-- `resolve_organization_context` after its first query, and `require_device_bind`. -/
def requireDeviceBind (o : Organization) (actor : UserId) : Except Exc Unit :=
  match s.memberships.find? fun m => m.organization = o.id && m.user = actor with
  | none => .error (.notFound "Not found.")
  | some m =>
    if m.status ≠ .active then .error (.permissionDenied "Membership is not active.")
    else requireMutation ⟨o, m⟩ (·.canDeviceBind)

/-- `_team_esim_or_404` -/
def teamEsim (o : Organization) (esim : Nat) : Except Exc Unit :=
  match s.esims.find? fun e => e.id = esim && e.account = o.account with
  | none => .error (.notFound "Not found.")
  | some _ => .ok ()

/-- A credential column set, of the binding with a key. -/
def setCredential (c : DeviceSettings) (id : Uuid) (d : DeviceDraw) : DeviceDb :=
  { s with
    bindings := s.bindings.update (·.id = id)
      (fun b => { b with
        credentialHash := c.sha256 d.credential.text
        credentialIssuedAt := some d.now })
      (fun _ _ h => h)
    issued := (id, d.credential.text) :: s.issued }

/-- A binding that is active no more, without its credential. -/
def ended (status : DeviceBindingStatus) (b : DeviceBinding) : DeviceBinding :=
  { b with status, credentialHash := "", credentialIssuedAt := none }

theorem ended_keeps {status : DeviceBindingStatus} (h : status ≠ .active) :
    Table.Keeps (ended status) := by
  rintro a b (hid | ⟨hactive, _⟩)
  · exact .inl hid
  · exact absurd hactive h

/-- The row `create_device_binding` inserts. -/
def newBinding (o : Organization) (esim : Nat) (d : DeviceDraw) : DeviceBinding where
  id := d.binding
  organization := o.id
  esim
  deviceExternalId := d.deviceExternalId.str
  uemDeviceGuid := ""
  credentialHash := ""
  credentialIssuedAt := none
  status := .active
  replacedBy := none

/-- `create_device_binding`, after the lock. -/
def bind (c : DeviceSettings) (o : Organization) (esim : Nat) (previous : Option DeviceBinding)
    (d : DeviceDraw) : Except Exc (DeviceDb × DeviceBinding) :=
  -- the active slot is cleared before the insert
  let s₁ := match previous with
    | none => s
    | some p => { s with
        bindings := s.bindings.update (·.id = p.id) (ended .replaced) (ended_keeps (by decide)) }
  let b := newBinding o esim d
  match s₁.bindings.insert? b with
  | none => .error (.deviceBindingConflict "Active device binding conflict")
  | some bindings =>
    let s₂ := match previous with
      | none => { s₁ with bindings }
      | some p => { s₁ with
          bindings := bindings.update (·.id = p.id) (fun r => { r with replacedBy := some b.id })
            (fun _ _ h => h) }
    .ok (s₂.setCredential c b.id d, { b with
      credentialHash := c.sha256 d.credential.text
      credentialIssuedAt := some d.now })

/-- A binding of an organization that is locked and active. -/
def activeBinding (organization binding : Uuid) : Except Exc DeviceBinding :=
  match s.bindings.find? fun b => b.id = binding && b.organization = organization with
  | none => .error (.notFound "Not found.")
  | some b =>
    if b.status = .active then .ok b
    else .error (.deviceBindingNotFound "Device binding is not active")

/-- `rotate_device_credential`, its last queries. -/
def rotate (c : DeviceSettings) (organization binding : Uuid) (d : DeviceDraw) :
    Except Exc (DeviceDb × DeviceBinding) := do
  let b ← s.activeBinding organization binding
  return (s.setCredential c b.id d, { b with
    credentialHash := c.sha256 d.credential.text
    credentialIssuedAt := some d.now })

/-- `unbind_device_binding`, its last queries. -/
def unbind (organization binding : Uuid) : Except Exc (DeviceDb × DeviceBinding) := do
  let b ← s.activeBinding organization binding
  return ({ s with
    bindings := s.bindings.update (·.id = b.id) (ended .unbound) (ended_keeps (by decide)) },
    ended .unbound b)

/-- An eSIM as a transfer saves it. -/
def moved (account : Uuid) (user : UserId) (e : InventoryEsim) : InventoryEsim :=
  { e with account, user }

/-- `transfer_esim_inventory` -/
def transferEsimInventory (esim : Nat) (user : UserId) (fulfilling : Bool) :
    Except Exc DeviceDb :=
  match s.esims.find? (·.id = esim) with
  | none => .error (.doesNotExist "Esim")
  | some locked =>
    if (s.people.find? (·.id = user)).isNone then
      .error (.esimTransferDestination "Destination user does not exist")
    else
      match (s.accounts.find? (·.user = some user)).filter (·.kind = .personal) with
      | none =>
        .error (.esimTransferDestination
          "Destination must be an existing user with a personal account")
      | some account =>
        if locked.account = account.id then .ok s
        else if fulfilling then .error (.esimTransfer "A top-up is still fulfilling for this eSIM")
        else .ok { s with
          esims := s.esims.update (·.id = esim) (moved account.id user) (fun _ _ h => h) }

/-- An organization is saved with another status. -/
def setStatus (organization : Uuid) (status : OrganizationStatus) : DeviceDb :=
  { s with
    organizations := s.organizations.update (·.id = organization) (fun o => { o with status })
      (fun _ _ h => h) }

/-! ## A credential that is presented -/

/-- `_resolve_binding_and_esim_by_credential` -/
def resolveByCredential (s : DeviceDb) (deviceExternalId credential : String) :
    Except Exc (DeviceBinding × Nat) :=
  if PyText.strip deviceExternalId = "" ∨ credential = "" then .error (.notFound "Not found.")
  else
    match s.bindings.find? fun b =>
      b.deviceExternalId = PyText.strip deviceExternalId && b.status = .active with
    | none => .error (.notFound "Not found.")
    | some b =>
      if b.credentialHash = "" then .error (.notFound "Not found.")
      else if b.credentialHash ≠ c.sha256 credential then .error (.notFound "Not found.")
      else if PyText.strip b.uemDeviceGuid ≠ "" then do return (b, ← c.resolveEsimViaUem b)
      else .ok (b, b.esim)

/-! ## The steps of a call -/

/-- The end of a transaction. -/
def release (held : List Uuid) : DeviceDb := { s with locks := s.locks.filter (· ∉ held) }

/-- The call raises; its transaction is rolled back. -/
def raise (t : DeviceThread) (e : Exc) : DeviceDb × DeviceThread :=
  (s.release t.held, { t with pc := .raised e, held := [] })

/-- The call ends. -/
def finish (t : DeviceThread) (pc : DevicePc) : DeviceDb × DeviceThread :=
  (s.release t.held, { t with pc, held := [] })

/-- The call goes on. -/
def goto (t : DeviceThread) (pc : DevicePc) : DeviceDb × DeviceThread := (s, { t with pc })

/-- The first step of a call. -/
def begin (t : DeviceThread) (d : DeviceDraw) : DeviceDb × DeviceThread :=
  match t.call with
  | .transferEsimInventory esim user =>
    match s.transferEsimInventory esim user d.fulfilling with
    | .error e => s.raise t e
    | .ok s' => s'.finish t .done
  | .setOrganizationStatus organization status => (s.setStatus organization status).finish t .done
  | call =>
    match call.context? with
    | none => s.raise t .typeError
    | some (_, organization) =>
      match s.organizations.find? (·.id = organization) with
      | none => s.raise t (.notFound "Not found.")
      | some o => s.goto t (.located o)

/-- The rest of the context of a call. -/
def authorize (t : DeviceThread) (o : Organization) : DeviceDb × DeviceThread :=
  match t.call.context? with
  | none => s.raise t .typeError
  | some (actor, _) =>
    match s.requireDeviceBind o actor with
    | .error e => s.raise t e
    | .ok _ => s.goto t (.allowed o)

/-- A lock of a binding, and the rest of the transaction. -/
def change (t : DeviceThread) (binding : Uuid) (credential : Option String)
    (r : Except Exc (DeviceDb × DeviceBinding)) : Option (DeviceDb × DeviceThread) :=
  if binding ∈ s.locks then none
  else
    match r with
    | .error e => some (s.raise t e)
    | .ok (s', b) => some (s'.finish t (.returned b credential))

/-- A call goes on with its context. -/
def proceed (t : DeviceThread) (c : DeviceSettings) (o : Organization) (d : DeviceDraw) :
    Option (DeviceDb × DeviceThread) :=
  match t.call with
  | .createDeviceBinding _ _ esim _ =>
    match s.teamEsim o esim with
    | .error e => some (s.raise t e)
    | .ok _ => some (s.goto t (.looking o esim))
  | .rotateDeviceCredential _ _ binding =>
    s.change t binding (some d.credential.text) (s.rotate c o.id binding d)
  | .unbindDeviceBinding _ _ binding => s.change t binding none (s.unbind o.id binding)
  | _ => none

/-- The look-up of an active binding of the eSIM. -/
def look (t : DeviceThread) (o : Organization) (esim : Nat) : DeviceDb × DeviceThread :=
  match s.bindings.find? fun b => b.esim = esim && b.status = .active with
  | none => s.goto t (.binding o esim none)
  | some found => s.goto t (.locking o esim found)

/-- Its lock; a row that is active no more when it is free is passed over. -/
def lock (t : DeviceThread) (o : Organization) (esim : Nat) (found : DeviceBinding) :
    Option (DeviceDb × DeviceThread) :=
  if found.id ∈ s.locks then none
  else
    match s.bindings.find? fun b => b.id = found.id && b.esim = esim && b.status = .active with
    | none => some (s.goto t (.binding o esim none))
    | some existing =>
      match t.call with
      | .createDeviceBinding _ _ _ true =>
        some ({ s with locks := existing.id :: s.locks },
          { t with pc := .binding o esim (some existing), held := existing.id :: t.held })
      | _ => some (s.raise t (.deviceBindingConflict "eSIM already has an active device binding"))

/-- The insert of the binding, and the rest of the transaction. -/
def create (s : DeviceDb) (t : DeviceThread) (c : DeviceSettings) (o : Organization) (esim : Nat)
    (previous : Option DeviceBinding) (d : DeviceDraw) : DeviceDb × DeviceThread :=
  match s.bind c o esim previous d with
  | .error e => s.raise t e
  | .ok (s', b) => s'.finish t (.returned b (some d.credential.text))

end DeviceDb

/-- Whether a call has a query left. -/
def DevicePc.isLive : DevicePc → Bool
  | returned _ _ => false
  | done => false
  | raised _ => false
  | _ => true

/-- One step of a call. -/
def deviceStep (s : DeviceDb) (t : DeviceThread) (x : DeviceInput) :
    Option (DeviceDb × DeviceThread) :=
  match x with
  | .fail => if t.pc.isLive then some (s.raise t .operational) else none
  | .go d =>
    match t.pc with
    | .asked => some (s.begin t d)
    | .located o => some (s.authorize t o)
    | .allowed o => s.proceed t c o d
    | .looking o esim => some (s.look t o esim)
    | .locking o esim found => s.lock t o esim found
    | .binding o esim previous => some (s.create t c o esim previous d)
    | _ => none

/-- The binding services, transfers and status changes, run concurrently. -/
def deviceProgram : Program DeviceDb DeviceThread DeviceCall DeviceInput where
  start call := ⟨call, .asked, []⟩
  step := deviceStep c

end Roamkit.Organizations
