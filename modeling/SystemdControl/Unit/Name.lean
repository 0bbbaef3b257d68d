import SystemdControl.Error
import SystemdControl.Text.Blank
import SystemdControl.Text.Part

/-!
# Unit names

What a caller may write for a unit, and the full name that it stands for. A name without one of
the known type suffixes means a service.

* `UnitName.canonicalize` checks a text and completes it;
* `UnitName.hasType` says whether a text ends in a type suffix after a non-empty stem.
-/

namespace SystemdControl.UnitName

/-- The type suffixes of units. -/
def suffixes : List String :=
  [".service", ".socket", ".device", ".mount", ".automount", ".swap", ".target", ".path", ".timer",
    ".slice", ".scope"]

/-- Whether a name ends in a type suffix and has something before it. -/
def hasType (name : List Char) : Bool :=
  suffixes.any fun s => s.toList.length < name.length && s.toList.isSuffixOf name

/-- A name with its type suffix; a service if it has none. -/
def complete (name : String) : String :=
  if hasType name.toList then name else name ++ ".service"

/-- The full name that a caller's text stands for: blanks at its ends are dropped, and a type is
added where it has none. -/
def canonicalize (text : String) : Except Error String := do
  ensurePrintable "unit" text
  let name := Blank.strip text
  if name.isEmpty then throw (.invalidInput .unitEmpty)
  if name.toList.any fun c => c = '/' || c = '\\' then throw (.invalidInput .unitPathSeparator)
  if Part.inText ".." name then throw (.invalidInput .unitParentReference)
  return complete name

end SystemdControl.UnitName
