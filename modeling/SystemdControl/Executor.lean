import SystemdControl.Error

/-!
# Executors

Where a call is made from. Background work needs an executor, and a blocking call needs one that
can go on while the caller's thread waits.

* `Executor.spawn` says whether background work can begin, `Executor.block` whether a call may
  wait.
-/

namespace SystemdControl

/-- The executor around a call. -/
inductive Executor where
  /-- None: an ordinary thread. -/
  | absent
  | singleThread
  | multiThread
  deriving DecidableEq, Repr

namespace Executor

/-- Background work of a given name begins, unless there is nothing to run it. -/
def spawn (name : String) : Executor → Except Error Unit
  | absent =>
    .error (.backendUnavailable "tokio"
      ("cannot spawn " ++ name ++ " outside a tokio runtime: there is no reactor running"))
  | _ => .ok ()

/-- A call waits for its answer, unless it would keep the only thread from working on it. -/
def block : Executor → Except Error Unit
  | singleThread => .error (.invalidInput .blocksOnlyThread)
  | _ => .ok ()

end Executor

end SystemdControl
