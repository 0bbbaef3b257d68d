/-!
# Lists of labelled things

Things in the order in which they came, each under a label. A list may hold several things of one
label; look-up and removal mean the first.

* `Labelled.get?`, `Labelled.set`, `Labelled.remove` are look-up, replacement and removal.
-/

namespace SystemdControl

/-- Things in the order in which they came, each under a label. -/
abbrev Labelled (α : Type) := List (String × α)

namespace Labelled

variable {α : Type}

/-- The first thing under a label. -/
def get? (l : Labelled α) (label : String) : Option α :=
  (l.find? (·.1 = label)).map (·.2)

/-- Whether there is something under a label. -/
def has (l : Labelled α) (label : String) : Bool :=
  l.any (·.1 = label)

/-- The list without the first thing under a label. -/
def remove (l : Labelled α) (label : String) : Labelled α :=
  l.eraseP (·.1 = label)

/-- The list with the first thing under a label replaced, at its place; a new label comes last. -/
def set (l : Labelled α) (label : String) (a : α) : Labelled α :=
  match l with
  | [] => [(label, a)]
  | e :: rest => if e.1 = label then (label, a) :: rest else e :: set rest label a

end Labelled

end SystemdControl
