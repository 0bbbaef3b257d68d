import SystemdControl.Error

/-!
# Results of jobs

How the manager names a job and says that it is gone.

* `JobResult.parse` and `JobResult.spelling` are inverse on the known spellings, and
  `spelling (parse s) = s` for every text;
* `Signal` is what arrives from the manager, decoded or not.
-/

namespace SystemdControl

/-- The object path of a job. -/
structure JobPath where
  text : String
  deriving DecidableEq, Repr

/-- Paths are ordered as their texts, by code points. -/
def JobPath.compare (a b : JobPath) : Ordering :=
  if a.text < b.text then .lt else if a.text = b.text then .eq else .gt

/-- How a job ended. -/
inductive JobResult where
  | done | canceled | timeout | failed | dependency | skipped
  | other (text : String)
  deriving DecidableEq, Repr

namespace JobResult

def parse (s : String) : JobResult :=
  match s with
  | "done" => done
  | "canceled" => canceled
  | "timeout" => timeout
  | "failed" => failed
  | "dependency" => dependency
  | "skipped" => skipped
  | s => other s

def spelling : JobResult → String
  | done => "done"
  | canceled => "canceled"
  | timeout => "timeout"
  | failed => "failed"
  | dependency => "dependency"
  | skipped => "skipped"
  | other s => s

/-- Whether the job did what it was for. -/
def isDone : JobResult → Bool
  | done => true
  | _ => false

theorem spelling_parse (s : String) : (parse s).spelling = s := by
  unfold parse
  split <;> rfl

end JobResult

/-- The manager's message that a job is gone. -/
structure JobRemoved where
  jobId : UInt32
  jobPath : JobPath
  unit : String
  result : JobResult
  deriving DecidableEq

/-- What arrives from the manager: a message, or one that cannot be decoded. -/
inductive Signal where
  | removed (event : JobRemoved)
  | undecodable (error : Error)
  deriving DecidableEq

end SystemdControl
