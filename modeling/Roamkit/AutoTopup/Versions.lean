import Roamkit.AutoTopup.Program
import Roamkit.Lib.History

/-!
# The writers of a policy

A policy is written by the owner of its eSIM, who creates, changes and deletes it
with a version; by a transfer of the eSIM, which disables it; and by its evaluations.
`policyProgram` runs all of them at once, with purchases and other calls beside them. An evaluation
is that of `autoTopupStep`, here of a row that may be gone or replaced when it is read again.
-/

namespace Roamkit.AutoTopup

open Lib Spend Billing

/-! ## Rows -/

/-- A policy with its version. -/
structure StoredPolicy where
  policy : Policy
  version : Nat
deriving DecidableEq

instance : Constraint StoredPolicy where
  clash r q := r.policy.id = q.policy.id ∨ r.policy.esim = q.policy.esim
  symm h := h.imp Eq.symm Eq.symm
  decClash _ _ := inferInstance

/-- Who writes a policy. -/
inductive PolicyWriter where
  | upsert
  | delete
  | transfer
  | evaluation
deriving DecidableEq

/-- A write of the policy of an eSIM. -/
structure PolicyWrite where
  esim : Nat
  write : RowWrite PolicyWriter StoredPolicy
deriving DecidableEq

structure PolicyDb where
  spend : SpendDb
  policies : Table StoredPolicy
  events : List AutoTopupSucceeded
  /-- Not a table: every write of a policy, in order. -/
  log : List PolicyWrite

variable (s : PolicyDb) (c : AutoTopupSettings)

namespace PolicyDb

/-- `filter(esim=esim).first()` -/
def policyOf (esim : Nat) : Option StoredPolicy :=
  s.policies.find? (·.policy.esim = esim)

/-- `get(pk=id)` -/
def byId (id : Uuid) : Option StoredPolicy := s.policies.find? (·.policy.id = id)

/-- A row saved. -/
def save (writer : PolicyWriter) (row : StoredPolicy) (f : StoredPolicy → StoredPolicy)
    (hf : Table.Keeps f) : PolicyDb :=
  { s with
    policies := s.policies.update (·.policy.esim = row.policy.esim) f hf
    log := s.log ++ [⟨row.policy.esim, writer, some row, some (f row)⟩] }

/-- What an evaluation of a policy sees of the database. -/
def view (policy : Policy) : AutoTopupDb := ⟨s.spend, policy, s.events⟩

/-- What a step of an evaluation wrote beside the policy. -/
def put (db : AutoTopupDb) : PolicyDb :=
  { s with spend := db.spend, events := db.events }

end PolicyDb

/-! ## `upsert_policy` -/

/-- The arguments of `upsert_policy`; the eSIM is the copy the view loaded. -/
structure UpsertArgs where
  esim : Esim
  account : Uuid
  packageId : String
  expiryEnabled : Bool
  usageMode : UsageMode
  renewMode : RenewMode
  thresholdMb : Option Nat
  remainingCount : Option Nat
  activeUntil : Option Time
  enabled : Bool

/-- A configuration that has passed the checks. -/
structure PolicyConfig where
  packageId : String
  expiryEnabled : Bool
  usageMode : UsageMode
  thresholdMb : Option Nat
  renewMode : RenewMode
  remainingCount : Option Nat
  activeUntil : Option Time
  enabled : Bool
  thresholdRequired : usageMode = .threshold → thresholdMb ≠ none
  countRequired : renewMode = .fixedCount → remainingCount ≠ none

/-- What a request of the owner comes to. -/
inductive PolicyAnswer where
  | saved (row : StoredPolicy)
  | deleted
  /-- `LookupError("version_conflict")` -/
  | versionConflict
  /-- `VERSION_REQUIRED` -/
  | versionRequired
  /-- `EsimAutoTopupPolicy.DoesNotExist` -/
  | notFound
  /-- `PermissionError` -/
  | forbidden (message : String)
  /-- `ValueError` -/
  | badRequest (message : String)
  | raised (e : Exc)

/-- The checks of `upsert_policy` before it looks for a purchase in progress. -/
def UpsertArgs.check (a : UpsertArgs) (c : AutoTopupSettings) (isStaff : Option Bool) (now : Time)
    (r : Airalo.HttpReply) : Except PolicyAnswer PolicyConfig :=
  match rolloutAllows c a.account isStaff with
  | .error e => .error (.raised e)
  | .ok false => .error (.forbidden "Auto top-up is not enabled for this account")
  | .ok true =>
    match Airalo.topupPackages c.spend.writer a.esim.iccid r with
    | .error e => .error (.raised e)
    | .ok packages =>
      match packages.find? (·.externalId = a.packageId) with
      | none =>
        .error (.raised (.topupPackageNotFound
          ("Top-up package " ++ PyText.repr a.packageId ++ " is not available for this eSIM")))
      | some package =>
        if a.usageMode ≠ .disabled ∧ (package.isUnlimited ∨ a.esim.usage.isUnlimited = some true)
        then
          .error (.badRequest
            "usage_mode zero/threshold cannot be used with unlimited packages")
        else if h : a.usageMode = .threshold ∧ a.thresholdMb = none then
          .error (.badRequest "threshold_mb is required when usage_mode is threshold")
        else if a.enabled ∧ ¬ a.expiryEnabled ∧ a.usageMode = .disabled then
          .error (.badRequest "enabled policy requires expiry_enabled and/or a usage_mode")
        else if h' : a.renewMode = .fixedCount ∧ a.remainingCount = none then
          .error (.badRequest "remaining_count is required for fixed_count")
        else if a.enabled ∧ a.activeUntil.any (· ≤ now) then
          .error (.badRequest
            "active_until must be in the future when the policy is enabled")
        else
          .ok {
            packageId := a.packageId
            expiryEnabled := a.expiryEnabled
            usageMode := a.usageMode
            thresholdMb := if a.usageMode = .threshold then a.thresholdMb else none
            renewMode := a.renewMode
            remainingCount := a.remainingCount
            activeUntil := a.activeUntil
            enabled := a.enabled
            thresholdRequired := fun hm => by
              rw [if_pos hm]
              exact fun hn => h ⟨hm, hn⟩
            countRequired := fun hm hn => h' ⟨hm, hn⟩ }

/-- Whether a top-up of the eSIM is being fulfilled. -/
def spendInProgress (s : SpendDb) (esim : Nat) : Bool :=
  s.topups.rows.any fun t => t.esim = esim && t.status = .fulfilling

variable (cfg : PolicyConfig)

namespace PolicyConfig

def status : PolicyStatus := if cfg.enabled then .active else .disabled

def reason : PolicyReason := if cfg.enabled then .none else .manualPause

/-- Whether the values fit their columns. -/
def fits : Bool :=
  cfg.packageId.length ≤ 64 && cfg.thresholdMb.all (· < 2 ^ 31)
    && cfg.remainingCount.all (· < 2 ^ 31)

/-- The row `upsert_policy` creates. -/
def created (id account : Uuid) (esim : Nat) : StoredPolicy where
  policy := {
    id
    account
    esim
    packageId := cfg.packageId
    enabled := cfg.enabled
    status := cfg.status
    reason := cfg.reason
    expiryEnabled := cfg.expiryEnabled
    usageMode := cfg.usageMode
    thresholdMb := cfg.thresholdMb
    renewMode := cfg.renewMode
    remainingCount := cfg.remainingCount
    activeUntil := cfg.activeUntil
    cooldownUntil := none
    lastTriggeredAt := none
    lastTopup := none
    lastIdempotencyKey := ""
    thresholdRequired := cfg.thresholdRequired
    countRequired := cfg.countRequired }
  version := 0

/-- A row as `upsert_policy` saves it. -/
def updated (row : StoredPolicy) : StoredPolicy where
  policy := { row.policy with
    packageId := cfg.packageId
    expiryEnabled := cfg.expiryEnabled
    usageMode := cfg.usageMode
    thresholdMb := cfg.thresholdMb
    cooldownUntil :=
      if (row.policy.expiryEnabled, row.policy.usageMode, row.policy.thresholdMb)
          = (cfg.expiryEnabled, cfg.usageMode, cfg.thresholdMb) then row.policy.cooldownUntil
      else none
    renewMode := cfg.renewMode
    remainingCount := cfg.remainingCount
    activeUntil := cfg.activeUntil
    enabled := cfg.enabled
    status := cfg.status
    reason := cfg.reason
    thresholdRequired := cfg.thresholdRequired
    countRequired := cfg.countRequired }
  version := row.version + 1

end PolicyConfig

/-- The key of a new row, and whether the look-up missed a row that is being created. -/
structure PolicyDraw where
  id : Uuid
  raced : Bool

/-- The transaction of `upsert_policy`. -/
def upsertPolicy (a : UpsertArgs) (cfg : PolicyConfig) (expectedVersion : Option Int)
    (d : PolicyDraw) : PolicyDb × PolicyAnswer :=
  match if d.raced then none else s.policyOf a.esim.id with
  | none =>
    if expectedVersion ≠ none then (s, .versionConflict)
    else if ¬ cfg.fits then (s, .raised .data)
    else
      let row := cfg.created d.id a.account a.esim.id
      match s.policies.insert? row with
      | none => (s, .raised .integrity)
      | some policies =>
        ({ s with policies, log := s.log ++ [⟨a.esim.id, .upsert, none, some row⟩] }, .saved row)
  | some existing =>
    if expectedVersion ≠ some (existing.version : Int) then (s, .versionConflict)
    else if ¬ cfg.fits then (s, .raised .data)
    else (s.save .upsert existing cfg.updated (fun _ _ h => h), .saved (cfg.updated existing))

/-! ## `delete_policy` and `transfer_esim_inventory` -/

/-- `delete_policy` -/
def deletePolicy (esim : Nat) (expectedVersion : Option Int) :
    PolicyDb × PolicyAnswer :=
  match s.policyOf esim with
  | none => (s, .notFound)
  | some existing =>
    if expectedVersion ≠ some (existing.version : Int) then (s, .versionConflict)
    else
      ({ s with
          policies := s.policies.remove (·.policy.esim = esim)
          log := s.log ++ [⟨esim, .delete, some existing, none⟩] }, .deleted)

/-- A policy as a transfer saves it. -/
def retargeted (account : Uuid) (row : StoredPolicy) : StoredPolicy where
  policy :=
    { row.policy with account, enabled := false, status := .disabled, reason := .manualPause }
  version := row.version + 1

/-- `transfer_esim_inventory`, with what it does to the policy. -/
def transferInventory (esim : Nat) (account : Uuid) (user : UserId) :
    Except Exc PolicyDb :=
  match transferEsim s.spend esim account user with
  | .error e => .error e
  | .ok spend =>
    if s.spend.esims.rows.any fun e => e.id = esim && e.account = account then .ok s
    else
      match s.policyOf esim with
      | none => .ok { s with spend }
      | some row =>
        .ok (PolicyDb.save { s with spend } .transfer row (retargeted account) (fun _ _ h => h))

/-! ## `_resolve_expected_version` -/

/-- `_parse_if_match_version`; the message where it raises `ValueError`. -/
def parseIfMatchVersion (header : Option String) : Except String (Option Int) :=
  let value := PyText.trim (header.getD "").toList
  if value = [] ∨ value = ['*'] then .ok none
  else
    let value :=
      match value with
      | 'W' :: '/' :: rest => PyText.trim rest
      | 'w' :: '/' :: rest => PyText.trim rest
      | _ => value
    let value :=
      match value with
      | q :: rest =>
        if rest ≠ [] ∧ rest.getLast? = some q ∧ (q = '"' ∨ q = '\'') then rest.dropLast
        else value
      | [] => value
    match PyText.int? (String.ofList value) with
    | none => .error "If-Match must be an integer version"
    | some n => .ok (some n)

example : parseIfMatchVersion (some " W/\"3\" ") = .ok (some 3) ∧ parseIfMatchVersion
    (some "*") = .ok none := by
  decide

/-- `_resolve_expected_version` -/
def resolveExpectedVersion (body : Option Int) (ifMatch : Option String) :
    Except String (Option Int) :=
  match parseIfMatchVersion ifMatch with
  | .error message => .error message
  | .ok none => .ok body
  | .ok (some header) =>
    match body with
    | none => .ok (some header)
    | some version =>
      if header ≠ version then .error "If-Match and body version disagree"
      else .ok (some header)

/-! ## The program -/

inductive PolicyCall where
  | evaluate (id : Uuid)
  | put (a : UpsertArgs)
  | delete (esim : Nat)
  | transfer (esim : Nat) (account : Uuid) (user : UserId)
  /-- `UsageService.get_usage` -/
  | refresh (esim : Nat)
  /-- A purchase, a posting of another service, or the passing of time. -/
  | spend (call : SpendCall)

/-- The eSIM whose policy a request of the owner is about. -/
def PolicyCall.target : PolicyCall → Option Nat
  | put a => some a.esim.id
  | delete esim => some esim
  | _ => none

/-- An evaluation whose first transaction found its policy. -/
structure Evaluation where
  /-- The policy as it was first read. -/
  policy : Policy
  /-- How many writes of policies there had been. -/
  since : Nat
  /-- How many there had been when `_prepare` locked it; before that, as many. -/
  prepared : Nat
  pc : AutoTopupPc

/-- What the owner has read: the policy, and how many writes there had been. -/
structure Reading where
  seen : Option StoredPolicy
  since : Nat

/-- The version that was read, -/
def Reading.version (r : Reading) : Option Nat := r.seen.map StoredPolicy.version

/-- as a request carries it. -/
def Reading.carried (r : Reading) : Option Int := r.version.map Int.ofNat

inductive PolicyPc where
  /-- Not begun. -/
  | asked
  | evaluating (e : Evaluation)
  | spending (t : SpendThread)
  /-- The owner has read the policy, and has sent nothing yet. -/
  | reading (r : Reading)
  /-- `upsert_policy` with the version it is sent, before its checks. -/
  | sent (r : Reading) (expected : Option Int)
  /-- The query for a purchase in progress. -/
  | checked (r : Reading) (expected : Option Int) (cfg : PolicyConfig)
  /-- The transaction of `upsert_policy`. -/
  | saving (r : Reading) (expected : Option Int) (cfg : PolicyConfig)
  /-- The transaction of `delete_policy`. -/
  | deleting (r : Reading) (expected : Option Int)
  | answered (answer : PolicyAnswer)
  | done (e : Option Exc)
  /-- The process is gone. -/
  | crashed

structure PolicyThread where
  call : PolicyCall
  pc : PolicyPc

inductive PolicyInput where
  | go
  | evaluation (x : AutoTopupInput)
  | spend (x : SpendInput)
  | usage (r : Airalo.HttpReply)
  /-- The version in the body and the `If-Match` header. -/
  | send (body : Option Int) (ifMatch : Option String)
  /-- Whether the account's user is staff, and the provider's list of packages. -/
  | listing (isStaff : Option Bool) (r : Airalo.HttpReply)
  | save (d : PolicyDraw)
  /-- The transaction fails. -/
  | fail
  /-- The process is gone. -/
  | crash

/-- Whether the next transaction of an evaluation locks the policy. -/
def locksPolicy : AutoTopupPc → AutoTopupInput → Bool
  | .preparing, .go => true
  | .succeeding _ _, .go => true
  | .pausing, .go => true
  | .blocking, .go => true
  | _, _ => false

/-- A row with what an evaluation wrote to its policy. -/
def evaluated (policy : Policy) (row : StoredPolicy) : StoredPolicy :=
  { row with policy := { policy with id := row.policy.id, esim := row.policy.esim } }

def AutoTopupPc.isPreparing : AutoTopupPc → Bool
  | preparing => true
  | _ => false

/-- An evaluation after a step, before which there had been so many writes. -/
def Evaluation.goto (e : Evaluation) (writes : Nat) (pc : AutoTopupPc) : Evaluation :=
  { e with pc, prepared := if e.pc.isPreparing then writes else e.prepared }

/-- One step of an evaluation after its first transaction. -/
def evaluateStep (s : PolicyDb) (id : Uuid) (e : Evaluation) (x : AutoTopupInput) :
    Option (PolicyDb × Evaluation) :=
  if locksPolicy e.pc x then
    match s.byId id with
    | none => some (s, e.goto s.log.length (.raised (.doesNotExist "EsimAutoTopupPolicy")))
    | some row =>
      match autoTopupStep c (s.view row.policy) ⟨.evaluate, e.pc⟩ x with
      | none => none
      | some (db, t) =>
        let s' := s.put db
        some (if db.policy = row.policy then s'
            else s'.save .evaluation row (evaluated db.policy) (fun _ _ h => h),
          e.goto s.log.length t.pc)
  else
    match autoTopupStep c (s.view e.policy) ⟨.evaluate, e.pc⟩ x with
    | none => none
    | some (db, t) => some (s.put db, e.goto s.log.length t.pc)

/-- The first step of a call. -/
def beginStep (s : PolicyDb) :
    PolicyCall → PolicyInput → Option (PolicyDb × PolicyPc)
  | .evaluate id, .evaluation (.staff isStaff) =>
    match s.byId id with
    | none => some (s, .done none)
    | some row =>
      some (s, .evaluating ⟨row.policy, s.log.length, s.log.length,
        firstRead c (s.view row.policy) isStaff⟩)
  | .put a, .go => some (s, .reading ⟨s.policyOf a.esim.id, s.log.length⟩)
  | .delete esim, .go => some (s, .reading ⟨s.policyOf esim, s.log.length⟩)
  | .transfer esim account user, .go =>
    match transferInventory s esim account user with
    | .error e => some (s, .done (some e))
    | .ok s' => some (s', .done none)
  | .refresh esim, .usage r =>
    match s.spend.esims.find? (·.id = esim) with
    | none => some (s, .done (some (.doesNotExist "Esim")))
    | some row =>
      match getUsage c.spend.writer c.parseDatetime s.spend.now row.iccid r with
      | .error e => some (s, .done (some e))
      | .ok usage => some ({ s with spend := saveUsage s.spend row.id usage }, .done none)
  | .spend (.transfer _ _ _), _ => none
  | .spend call, .spend x =>
    match spendStep c.spend s.spend ⟨call, .asked⟩ x with
    | none => none
    | some (spend, t) => some ({ s with spend }, .spending t)
  | _, _ => none

/-- What the view does with a request before it calls the service. -/
def receive (call : PolicyCall) (r : Reading) (expected : Option Int) :
    Option PolicyPc :=
  match call with
  | .put a =>
    some (if (s.policyOf a.esim.id).isSome ∧ expected = none then .answered .versionRequired
      else .sent r expected)
  | .delete _ => some (if expected = none then .answered .versionRequired else .deleting r expected)
  | _ => none

/-- One step of a request of the owner. -/
def requestStep (s : PolicyDb) (call : PolicyCall) :
    PolicyPc → PolicyInput → Option (PolicyDb × PolicyPc)
  | .reading r, .send body ifMatch =>
    match resolveExpectedVersion body ifMatch with
    | .error message => some (s, .answered (.badRequest message))
    | .ok expected => (receive s call r expected).map fun pc => (s, pc)
  | .sent r expected, .listing isStaff reply =>
    match call with
    | .put a =>
      match a.check c isStaff s.spend.now reply with
      | .error answer => some (s, .answered answer)
      | .ok cfg => some (s, .checked r expected cfg)
    | _ => none
  | .checked r expected cfg, .go =>
    match call with
    | .put a =>
      some (s, if spendInProgress s.spend a.esim.id then
          .answered (.raised (.spendInProgress "Auto top-up purchase is still in progress"))
        else .saving r expected cfg)
    | _ => none
  | .saving _ expected cfg, .save d =>
    match call with
    | .put a =>
      some ((upsertPolicy s a cfg expected d).1, .answered (upsertPolicy s a cfg expected d).2)
    | _ => none
  | .deleting _ expected, .go =>
    match call with
    | .delete esim =>
      some ((deletePolicy s esim expected).1, .answered (deletePolicy s esim expected).2)
    | _ => none
  | _, _ => none

/-- The evaluation a call is at. -/
def PolicyPc.evaluation? : PolicyPc → Option Evaluation
  | evaluating e => some e
  | _ => none

/-- What a request of the owner that is under way has read. -/
def PolicyPc.reading? : PolicyPc → Option Reading
  | reading r => some r
  | sent r _ => some r
  | checked r _ _ => some r
  | saving r _ _ => some r
  | deleting r _ => some r
  | _ => none

/-- One step of a call. -/
def policyStep (s : PolicyDb) (t : PolicyThread) (x : PolicyInput) :
    Option (PolicyDb × PolicyThread) :=
  let move (r : PolicyDb × PolicyPc) : PolicyDb × PolicyThread := (r.1, { t with pc := r.2 })
  match t.pc, x with
  | .asked, .fail => some (s, { t with pc := .done (some .operational) })
  | .asked, .crash => some (s, { t with pc := .crashed })
  | .asked, x => (beginStep c s t.call x).map move
  | .evaluating e, .evaluation x =>
    match t.call with
    | .evaluate id => (evaluateStep c s id e x).map fun r => (r.1, { t with pc := .evaluating r.2 })
    | _ => none
  | .spending u, .spend x =>
    (spendStep c.spend s.spend u x).map fun r =>
      ({ s with spend := r.1 }, { t with pc := .spending r.2 })
  | pc, .fail =>
    if pc.reading?.isSome then some (s, { t with pc := .answered (.raised .operational) })
    else none
  | pc, .crash => if pc.reading?.isSome then some (s, { t with pc := .crashed }) else none
  | pc, x => (requestStep c s t.call pc x).map move

/-- The writers of policies, run concurrently. -/
def policyProgram : Program PolicyDb PolicyThread PolicyCall PolicyInput where
  start call := ⟨call, .asked⟩
  step := policyStep c

end Roamkit.AutoTopup
