import Roamkit.Lib.Threads
import Roamkit.Pricing.Charge

/-!
# Saves of a pricing profile

The row of one profile, and the Python objects that are saved to it. `PricingProfile.save`
reads the stored terms without a lock, decides on the version and then writes the whole
object; between the two any other save may be committed. An admin edit loads the object and
compares versions first, with queries of their own, and then saves in the same way.
-/

namespace Roamkit.Pricing

open Lib

/-- The columns of a stored profile that its version is about; the percent in hundredths. -/
structure ProfileRow where
  discountPercent : Int
  floorPolicy : FloorPolicy
  version : Nat
deriving DecidableEq

variable (r : ProfileRow)

namespace ProfileRow

/-- What an order is priced with. -/
def terms : Int × FloorPolicy := (r.discountPercent, r.floorPolicy)

/-- The check constraints, and the range of the version's column. -/
def accepted : Bool :=
  0 ≤ r.discountPercent && r.discountPercent ≤ 10000 && 1 ≤ r.version && r.version ≤ 2147483647

end ProfileRow

/-- The same columns of a Python object, which need not be those of the row. -/
structure ProfileObject where
  discountPercent : Dec
  floorPolicy : FloorPolicy
  version : Nat
deriving DecidableEq

def ProfileRow.object : ProfileObject :=
  ⟨Dec.ofUnits 2 r.discountPercent, r.floorPolicy, r.version⟩

inductive ProfileField where
  | discountPercent
  | floorPolicy
  | version
deriving DecidableEq

variable (o : ProfileObject)

namespace ProfileObject

/-- The row an object is stored as. -/
def row : ProfileRow := ⟨o.discountPercent.units 2, o.floorPolicy, o.version⟩

/-- `material_changed` -/
def materialChanged (previous : ProfileRow) : Bool :=
  !o.discountPercent.eqv (Dec.ofUnits 2 previous.discountPercent)
    || o.floorPolicy ≠ previous.floorPolicy

/-- A row after the named columns are set to those of the object. -/
def setFields (fields : List ProfileField) (r : ProfileRow) : ProfileRow where
  discountPercent := if .discountPercent ∈ fields then o.row.discountPercent else r.discountPercent
  floorPolicy := if .floorPolicy ∈ fields then o.floorPolicy else r.floorPolicy
  version := if .version ∈ fields then o.version else r.version

/-- The version of an object after `save` has read the stored row. -/
def bumped (previous : Option ProfileRow) : ProfileObject :=
  match previous with
  | none => o
  | some p => if o.materialChanged p then { o with version := p.version + 1 } else o

end ProfileObject

/-- Where a thread stands with its object. -/
inductive ProfilePc where
  | idle
  /-- `save` has read the stored row, or that there is none. -/
  | saving (previous : Option ProfileRow)
  /-- The admin view has filled the form's values into the object it loaded. -/
  | adminFilled
  /-- `save_model` has read `expected_version`. -/
  | adminRead (expected : Nat)
  /-- The version was found again, or the row was missing from the start. -/
  | adminAligned
deriving DecidableEq

/-- A request or a script with an object of the profile. -/
structure ProfileThread where
  object : ProfileObject
  /-- The object was constructed and not stored yet: `_state.adding`. -/
  adding : Bool
  pc : ProfilePc
deriving DecidableEq

/-- What a thread does next. -/
inductive ProfileInput where
  | refresh
  /-- Any assignments to the attributes. -/
  | assign (o : ProfileObject)
  | save
  /-- `save(update_fields=…)`, of which `archive` names none of these columns. -/
  | saveFields (fields : List ProfileField)
  | saveOptimistic (expectedVersion : Nat) (fields : List ProfileField)
  /-- The form of the admin, whose version is read-only. -/
  | edit (discountPercent : Dec) (floorPolicy : FloorPolicy)
  | go

variable (t : ProfileThread)

namespace ProfileThread

/-- The first half of `save`: the unlocked read. -/
def readPrevious (s : Option ProfileRow) : ProfileThread :=
  { t with object := t.object.bumped s, pc := .saving s }

/-- The second half of `save`, which inserts a new object and writes every column of an old one. -/
def writeAll (s : Option ProfileRow) : Option ProfileRow × ProfileThread :=
  if t.object.row.accepted && !(t.adding && s.isSome) then
    (some t.object.row, { t with adding := false, pc := .idle })
  else (s, { t with pc := .idle })

/-- `save` with `update_fields`; a new object is inserted whole. -/
def writeFields (s : Option ProfileRow) (fields : List ProfileField) :
    Option ProfileRow × ProfileThread :=
  if t.adding then t.writeAll s
  else
    match s with
    | none => (s, t)
    | some r =>
      let r' := t.object.setFields fields r
      if r'.accepted then (some r', t) else (s, t)

/-- Whether `save_optimistic` counts the version up. -/
def material (fields : List ProfileField) : Bool :=
  .discountPercent ∈ fields || .floorPolicy ∈ fields

/-- `save_optimistic`: one `UPDATE` of the row, if it has the expected version. -/
def writeOptimistic (s : Option ProfileRow) (expectedVersion : Nat) (fields : List ProfileField) :
    Option ProfileRow × ProfileThread :=
  let object :=
      if material fields then { t.object with version := expectedVersion + 1 } else t.object
  let fields := if material fields then .version :: fields else fields
  match s with
  | none => (s, { t with object })
  | some r =>
    let r' := object.setFields fields r
    if r.version = expectedVersion && r'.accepted then (some r', { t with object })
    else (s, { t with object })

end ProfileThread

/-- One step of a thread, in which it queries the table once. -/
def profileStep (s : Option ProfileRow) (t : ProfileThread) (x : ProfileInput) :
    Option (Option ProfileRow × ProfileThread) :=
  match t.pc, x with
  | .idle, .refresh => s.map fun r => (s, ⟨r.object, false, .idle⟩)
  | .idle, .assign o => some (s, { t with object := o })
  | .idle, .save => some (s, t.readPrevious s)
  | .idle, .saveFields fields => some (t.writeFields s fields)
  | .idle, .saveOptimistic expectedVersion fields =>
      some (t.writeOptimistic s expectedVersion fields)
  | .idle, .edit discountPercent floorPolicy =>
    s.map fun r => (s, ⟨⟨discountPercent, floorPolicy, r.version⟩, false, .adminFilled⟩)
  | .adminFilled, .go =>
    match s with
    | none => some (s, { t with pc := .adminAligned })
    | some r => some (s, { t with pc := .adminRead r.version })
  | .adminRead expected, .go =>
    match s with
    | none => some (s, { t with pc := .idle })
    | some r =>
      -- "Stale version — reload and retry", where another save came in between
      if r.version ≠ expected then some (s, { t with pc := .idle })
      else
        let object := { t.object with version := expected }
        some (s, { t with object, pc := .adminAligned })
  | .adminAligned, .go => some (s, t.readPrevious s)
  | .saving _, .go => some (t.writeAll s)
  | _, _ => none

/-- The saves of a profile; a thread starts with an object it has constructed. -/
def profileProgram : Program (Option ProfileRow) ProfileThread ProfileObject ProfileInput where
  start o := ⟨o, true, .idle⟩
  step := profileStep

end Roamkit.Pricing
