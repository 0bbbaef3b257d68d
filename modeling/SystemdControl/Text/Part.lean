/-!
# Parts of a text

Whether one text occurs inside another.

* `Part.occurs` is the search, on characters;
* `Part.occurs_iff` says that it decides `<:+:`.
-/

namespace SystemdControl.Part

/-- Whether `part` occurs in a list of characters. -/
def occurs (part : List Char) : List Char → Bool
  | [] => part.isEmpty
  | c :: cs => part.isPrefixOf (c :: cs) || occurs part cs

theorem occurs_iff {part whole : List Char} : occurs part whole = true ↔ part <:+: whole := by
  induction whole with
  | nil => simp [occurs, List.infix_nil]
  | cons c cs ih => simp [occurs, ih, List.infix_cons_iff]

/-- Whether `part` occurs in `whole`. -/
def inText (part whole : String) : Bool :=
  occurs part.toList whole.toList

end SystemdControl.Part
