import Roamkit.Exceptions
import Roamkit.Lib.Table
import Roamkit.Values

/-!
# Fleet credentials

An organization has at most one fleet credential. The secret is handed out when it is
issued or rotated, and only its hash is kept; a rotation keeps the hash before it for a
grace period.
-/

namespace Roamkit.Organizations

open Lib

/-- What `secrets.token_urlsafe` answers: letters, digits, `-` and `_`. -/
structure UrlToken where
  text : String
  nonempty : text ≠ ""
  stripped : PyText.strip text = text
deriving DecidableEq

structure OrganizationFleetCredential where
  organization : Uuid
  fleetExternalId : String
  currentCredentialHash : String
  currentIssuedAt : Time
  previousCredentialHash : String
  previousValidUntil : Option Time
deriving DecidableEq

instance : Constraint OrganizationFleetCredential where
  clash f g := f.organization = g.organization ∨ f.fleetExternalId = g.fleetExternalId
  symm h := h.imp Eq.symm Eq.symm
  decClash _ _ := inferInstance

/-- The settings the services read. -/
structure FleetSettings where
  /-- `FLEET_CREDENTIAL_GRACE_SECONDS` -/
  graceSeconds : Int
  /-- `hashlib.sha256(…).hexdigest()` -/
  sha256 : String → String

abbrev FleetDb := Table OrganizationFleetCredential

/-- What a call hands out, and when. -/
structure FleetIssue where
  organization : Uuid
  fleetExternalId : String
  credential : String
  issuedAt : Time
  /-- The grace period of the secret before it, in seconds. -/
  grace : Int
deriving DecidableEq

/-- `datetime.max`, 9999-12-31 23:59:59.999999 -/
def datetimeMax : Time := 253402300799999999

variable (c : FleetSettings)

/-- `_grace_seconds` -/
def graceSeconds (override : Option Int) : Except Exc Int :=
  match override with
  | some grace => if grace < 0 then .error .valueError else .ok grace
  | none => .ok c.graceSeconds

/-- `now + timedelta(seconds=grace) if grace > 0 else now` -/
def validUntil (now : Time) (grace : Int) : Except Exc Time :=
  if 0 < grace then
    if now + seconds grace ≤ datetimeMax then .ok (now + seconds grace) else .error .overflowError
  else .ok now

/-- What a call gets from outside. -/
structure FleetDraw where
  now : Time
  credential : UrlToken
  /-- `_new_fleet_external_id()` -/
  fleetExternalId : UrlToken

/-- The row `issue_fleet_credential` creates. -/
def newFleetCredential (organization : Uuid) (d : FleetDraw) :
    OrganizationFleetCredential where
  organization
  fleetExternalId := d.fleetExternalId.text
  currentCredentialHash := c.sha256 d.credential.text
  currentIssuedAt := d.now
  previousCredentialHash := ""
  previousValidUntil := none

/-- `issue_fleet_credential` -/
def issueFleetCredential (s : FleetDb) (organization : Uuid) (override : Option Int)
    (d : FleetDraw) : Except Exc (FleetDb × FleetIssue) := do
  let grace ← graceSeconds c override
  if (s.find? (·.organization = organization)).isSome then
    .error (.fleetCredentialConflict "Organization already has a fleet credential; use rotate")
  else
    let fleet := newFleetCredential c organization d
    -- the check constraint wants a hash
    if fleet.currentCredentialHash = "" then .error .integrity
    else
      match s.insert? fleet with
      | none => .error .integrity
      | some s' =>
        if fleet.fleetExternalId = organization.str then
          .error (.fleetCredentialConflict "fleet_external_id must not equal org id")
        else .ok (s', ⟨organization, fleet.fleetExternalId, d.credential.text, d.now, grace⟩)

/-- A row as `rotate_fleet_credential` saves it. -/
def rotated (untilTime : Time) (d : FleetDraw) (f : OrganizationFleetCredential) :
    OrganizationFleetCredential :=
  { f with
    previousCredentialHash := f.currentCredentialHash
    previousValidUntil := some untilTime
    currentCredentialHash := c.sha256 d.credential.text
    currentIssuedAt := d.now }

/-- `rotate_fleet_credential` -/
def rotateFleetCredential (s : FleetDb) (organization : Uuid) (override : Option Int)
    (d : FleetDraw) : Except Exc (FleetDb × FleetIssue) :=
  match s.find? (·.organization = organization) with
  | none => .error (.fleetCredentialInvalid "Organization has no fleet credential")
  | some fleet => do
    let grace ← graceSeconds c override
    let untilTime ← validUntil d.now grace
    if c.sha256 d.credential.text = "" then .error .integrity
    else
      .ok (s.update (·.organization = organization) (rotated c untilTime d) (fun _ _ h => h),
        ⟨organization, fleet.fleetExternalId, d.credential.text, d.now, grace⟩)

/-- The current hash matches, or the one before it in its grace period. -/
def OrganizationFleetCredential.accepts (f : OrganizationFleetCredential) (digest : String)
    (now : Time) : Bool :=
  f.currentCredentialHash = digest
    || (f.previousCredentialHash ≠ "" && f.previousValidUntil.any (now ≤ ·)
      && f.previousCredentialHash = digest)

/-- `verify_fleet_credential` -/
def verifyFleetCredential (s : FleetDb) (fleetExternalId credential : String) (now : Time) :
    Except Exc OrganizationFleetCredential :=
  if PyText.strip fleetExternalId = "" ∨ credential = "" then
    .error (.fleetCredentialInvalid "Fleet credential invalid")
  else
    match s.find? (·.fleetExternalId = PyText.strip fleetExternalId) with
    | none => .error (.fleetCredentialInvalid "Fleet credential invalid")
    | some fleet =>
      if fleet.accepts (c.sha256 credential) now then .ok fleet
      else .error (.fleetCredentialInvalid "Fleet credential invalid")

/-! ## Sequences of calls -/

inductive FleetCall where
  | issue (organization : Uuid) (grace : Option Int) (d : FleetDraw)
  | rotate (organization : Uuid) (grace : Option Int) (d : FleetDraw)

def FleetCall.draw : FleetCall → FleetDraw
  | issue _ _ d => d
  | rotate _ _ d => d

def FleetCall.apply (s : FleetDb) : FleetCall → Except Exc (FleetDb × FleetIssue)
  | issue organization grace d => issueFleetCredential c s organization grace d
  | rotate organization grace d => rotateFleetCredential c s organization grace d

/-- The rows, and what was handed out so far, the last first. -/
structure FleetRun where
  rows : FleetDb
  issues : List FleetIssue

/-- One call; what raises changes nothing. -/
def FleetRun.call (r : FleetRun) (k : FleetCall) : FleetRun :=
  match k.apply c r.rows with
  | .error _ => r
  | .ok (rows, issue) => ⟨rows, issue :: r.issues⟩

/-- The calls one after the other. -/
def FleetRun.calls (r : FleetRun) (ks : List FleetCall) : FleetRun :=
  ks.foldl (FleetRun.call c) r

/-- Nothing was called yet. -/
def FleetRun.start : FleetRun := ⟨.empty, []⟩

/-- What was handed out to an organization, the last first. -/
def FleetRun.issuesOf (r : FleetRun) (organization : Uuid) : List FleetIssue :=
  r.issues.filter (·.organization = organization)

end Roamkit.Organizations
