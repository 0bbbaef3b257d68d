import SystemdControl.Text.PathLabel
import SystemdControl.Unit.State

/-!
# Records of units

What is known of a unit at one moment, and the row of the manager's listing that it is read from.
Empty texts of a row are absent in the record, and the three job fields are present only together.

* `UnitStatus.ofRow` reads a row of the listing;
* `UnitStatus.named` builds a record from a name and two states;
* `UnitStatus.sameApartFromJob` compares all but the job fields.
-/

namespace SystemdControl

/-- Empty texts count as absent. -/
def nonEmpty (s : String) : Option String :=
  if s.isEmpty then none else some s

/-- What is known of a unit. -/
structure UnitStatus where
  name : String
  description : Option String
  loadState : LoadState
  activeState : ActiveState
  subState : Option String
  followed : Option String
  unitPath : String
  jobId : Option UInt32
  jobType : Option String
  jobPath : Option String
  deriving DecidableEq

/-- One row of the manager's listing. -/
structure UnitRow where
  name : String
  description : String
  loadState : String
  activeState : String
  subState : String
  followed : String
  unitPath : String
  jobId : UInt32
  jobType : String
  jobPath : String
  deriving DecidableEq

/-- Whether a job is queued for the unit of a row. -/
def UnitRow.hasJob (row : UnitRow) : Bool :=
  row.jobId != 0 && row.jobPath != "/"

namespace UnitStatus

/-- The object path of a unit. -/
def pathOf (name : String) : String :=
  "/org/freedesktop/systemd1/unit/" ++ PathLabel.ofName name

/-- The object path of a job. -/
def jobPathOf (id : UInt32) : String :=
  "/org/freedesktop/systemd1/job/" ++ toString id.toNat

/-- A record of a name and two states, with nothing else known. -/
def named (name loadState activeState : String) : UnitStatus where
  name := name
  description := none
  loadState := .parse loadState
  activeState := .parse activeState
  subState := none
  followed := none
  unitPath := pathOf name
  jobId := none
  jobType := none
  jobPath := none

def withSubState (s : UnitStatus) (subState : String) : UnitStatus :=
  { s with subState := nonEmpty subState }

/-- The record with a job queued for its unit. -/
def withJob (s : UnitStatus) (id : UInt32) (type : String) : UnitStatus :=
  { s with jobPath := some (jobPathOf id), jobId := some id, jobType := nonEmpty type }

/-- The record of a row. -/
def ofRow (row : UnitRow) : UnitStatus where
  name := row.name
  description := nonEmpty row.description
  loadState := .parse row.loadState
  activeState := .parse row.activeState
  subState := nonEmpty row.subState
  followed := nonEmpty row.followed
  unitPath := row.unitPath
  jobId := if row.hasJob then some row.jobId else none
  jobType := if row.hasJob then nonEmpty row.jobType else none
  jobPath := if row.hasJob then some row.jobPath else none

/-- Whether two records agree in all fields but those of the job. -/
def sameApartFromJob (a b : UnitStatus) : Bool :=
  a.name == b.name && a.description == b.description && a.loadState == b.loadState &&
    a.activeState == b.activeState && a.subState == b.subState && a.followed == b.followed &&
    a.unitPath == b.unitPath

/-- The record without its job fields. -/
def eraseJob (s : UnitStatus) : UnitStatus :=
  { s with jobId := none, jobType := none, jobPath := none }

end UnitStatus

end SystemdControl
