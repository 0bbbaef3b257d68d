/-!
# Control characters

What makes a text printable: it holds no control character (Unicode category Cc, a fixed set).

* `Control.ofChar?` sorts a control character into its class;
* `Control.first?` is the class of the first control character of a text, if it has one.
-/

namespace SystemdControl

/-- The classes into which a complaint sorts control characters. -/
inductive Control where
  | nul
  | newline
  | other
  deriving DecidableEq, Repr

namespace Control

/-- The C0 controls, delete and the C1 controls. -/
def isControl (c : Char) : Bool :=
  c.toNat < 0x20 || (0x7f ≤ c.toNat && c.toNat < 0xa0)

/-- The class of a control character; `none` for any other character. -/
def ofChar? (c : Char) : Option Control :=
  if isControl c then
    if c = '\x00' then some nul
    else if c = '\n' ∨ c = '\r' then some newline
    else some other
  else none

theorem ofChar?_eq_none_iff (c : Char) : ofChar? c = none ↔ isControl c = false := by
  cases h : isControl c
  · simp [ofChar?, h]
  · simp only [ofChar?, h, if_true, Bool.true_eq_false, iff_false]
    split
    · exact Option.some_ne_none _
    · split <;> exact Option.some_ne_none _

/-- The class of the first control character of a text. -/
def first? (text : String) : Option Control :=
  text.toList.findSome? ofChar?

theorem first?_eq_none_iff (text : String) :
    first? text = none ↔ ∀ c ∈ text.toList, isControl c = false := by
  simp [first?, ofChar?_eq_none_iff]

/-- What a complaint calls the class. -/
def noun : Control → String
  | nul => "NUL"
  | newline => "newlines"
  | other => "control characters"

end Control

end SystemdControl
