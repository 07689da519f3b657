import Roamkit.Esims.StatusCalls

/-!
# When an eSIM was activated

The API gives the time of the first event of one type, `system.status.activated`. An event
has the time at which its row was inserted. The statuses themselves keep no times, so a
record of the saves stands beside the database.
-/

namespace Roamkit.Esims

open Lib Billing Spend

/-- `ACTIVATED_EVENT_TYPE` -/
def activatedEventType : String := "system.status.activated"

/-- The rows, and the times of the events. -/
structure TimedDb where
  db : LifecycleDb
  /-- `created_at` of the event an eSIM has under a key. -/
  createdAt : Nat → String → Time

namespace TimedDb

/-- The times after a step: `auto_now_add` for what had no row before. -/
def stamp (s : TimedDb) (now : Time) (esim : Nat) (key : String) : Time :=
  if s.db.eventOf esim key = none then now else s.createdAt esim key

/-- The events of an eSIM that say it was activated. -/
def activatedEvents (s : TimedDb) (esim : Nat) : List LifecycleEvent :=
  s.db.events.rows.filter fun v => v.esim = esim && v.eventType = activatedEventType

/-- `get_activated_at`; the first by `created_at` is the one with the least. -/
def getActivatedAt (s : TimedDb) (esim : Nat) : Option Time :=
  ((s.activatedEvents esim).map fun v => s.createdAt v.esim v.idempotencyKey).min?

end TimedDb

/-- A query of a request, with the times of the events it inserts. -/
def timedStep (s : TimedDb) (t : StatusThread) (x : StatusInput) :
    Option (TimedDb × StatusThread) :=
  match statusStep s.db t x with
  | none => none
  | some (db, t') =>
    match x with
    | .fail => some ({ s with db }, t')
    | .go now => some (⟨db, s.stamp now⟩, t')

def timedProgram : Program TimedDb StatusThread StatusRequest StatusInput where
  start := statusProgram.start
  step := timedStep

/-! ## The saves of a status -/

/-- A status that was saved to the row of an eSIM. -/
structure StatusSave where
  esim : Nat
  status : EsimStatus
  time : Time
deriving DecidableEq

/-- The eSIM and the status of an object a call may save. -/
def StatusPc.loaded? : StatusPc → Option (Nat × EsimStatus)
  | .holding copy status => some (copy.id, status)
  | .missed copy status _ _ => some (copy.id, status)
  | _ => none

/-- The status of the object, as it is after a save of it. -/
def StatusPc.saved? : StatusPc → Option EsimStatus
  | .holding _ status => some status
  | .missed _ status _ _ => some status
  | .overwritten _ _ p => some p.target
  | _ => none

/-- The record of the saves: a call that gives its object another status saves it to the row. -/
def noteSave (_ : TimedDb) (t : StatusThread) (x : StatusInput) (s' : TimedDb) (t' : StatusThread)
    (saves : List StatusSave) : List StatusSave :=
  match x, t.pc.loaded?, t'.pc.saved? with
  | .go now, some (esim, before), some after =>
    if after = before then saves else ⟨esim, s'.db.status esim, now⟩ :: saves
  | _, _, _ => saves

end Roamkit.Esims
