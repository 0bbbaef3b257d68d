/-!
# States of a unit

The load state and the active state of a unit, and their spellings. A spelling that is not known is
kept as it is.

* `parse` and `spelling` of each state are inverse to each other on the known spellings, and
  `spelling (parse s) = s` for every text.
-/

namespace SystemdControl

/-- Whether the configuration of a unit could be loaded. -/
inductive LoadState where
  | loaded | notFound | error | masked | stub | merged | generated | transient | badSetting
  | unknown (text : String)
  deriving DecidableEq, Repr

namespace LoadState

def parse (s : String) : LoadState :=
  match s with
  | "loaded" => loaded
  | "not-found" => notFound
  | "error" => error
  | "masked" => masked
  | "stub" => stub
  | "merged" => merged
  | "generated" => generated
  | "transient" => transient
  | "bad-setting" => badSetting
  | s => unknown s

def spelling : LoadState → String
  | loaded => "loaded"
  | notFound => "not-found"
  | error => "error"
  | masked => "masked"
  | stub => "stub"
  | merged => "merged"
  | generated => "generated"
  | transient => "transient"
  | badSetting => "bad-setting"
  | unknown s => s

theorem spelling_parse (s : String) : (parse s).spelling = s := by
  unfold parse
  split <;> rfl

end LoadState

/-- Whether a unit is up. -/
inductive ActiveState where
  | active | reloading | inactive | failed | activating | deactivating | maintenance
  | unknown (text : String)
  deriving DecidableEq, Repr

namespace ActiveState

def parse (s : String) : ActiveState :=
  match s with
  | "active" => active
  | "reloading" => reloading
  | "inactive" => inactive
  | "failed" => failed
  | "activating" => activating
  | "deactivating" => deactivating
  | "maintenance" => maintenance
  | s => unknown s

def spelling : ActiveState → String
  | active => "active"
  | reloading => "reloading"
  | inactive => "inactive"
  | failed => "failed"
  | activating => "activating"
  | deactivating => "deactivating"
  | maintenance => "maintenance"
  | unknown s => s

theorem spelling_parse (s : String) : (parse s).spelling = s := by
  unfold parse
  split <;> rfl

end ActiveState

end SystemdControl
