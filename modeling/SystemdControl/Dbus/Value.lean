import SystemdControl.Unit.Property

/-!
# Values on the wire

The values of D-Bus messages, with their signatures, and the form in which the properties of a
transient unit are sent.

* `Wire.ofProperty` encodes a property and `Wire.toProperty?` reads it back;
* `Wire.toProperty?_ofProperty` says that nothing is lost;
* `WireValue.fits` says that no text of a value holds a NUL, which ends a text on the wire.
-/

namespace SystemdControl

/-- A value on the wire. -/
inductive WireValue where
  | u32 (v : UInt32)
  | i32 (v : Int32)
  | u64 (v : UInt64)
  | bool (v : Bool)
  | text (v : String)
  | objectPath (v : String)
  | texts (v : List String)
  /-- Structures of a path, arguments and whether a failure is ignored. -/
  | commands (v : List (String × List String × Bool))
  deriving DecidableEq

/-- The signature of a value. -/
def WireValue.signature : WireValue → String
  | u32 _ => "u"
  | i32 _ => "i"
  | u64 _ => "t"
  | bool _ => "b"
  | text _ => "s"
  | objectPath _ => "o"
  | texts _ => "as"
  | commands _ => "a(sasb)"

/-- Whether a text can be sent: a NUL would end it. -/
def Wire.fitsText (s : String) : Bool :=
  s.toList.all (· != '\x00')

/-- Whether all texts of a value can be sent. -/
def WireValue.fits : WireValue → Bool
  | u32 _ | i32 _ | u64 _ | bool _ => true
  | text v | objectPath v => Wire.fitsText v
  | texts v => v.all Wire.fitsText
  | commands v => v.all fun c => Wire.fitsText c.1 && c.2.1.all Wire.fitsText

namespace Wire

def ofCommand (c : ExecCommand) : String × List String × Bool :=
  (c.path, c.argv, c.ignoreFailure)

def toCommand (c : String × List String × Bool) : ExecCommand :=
  ⟨c.1, c.2.1, c.2.2⟩

/-- The value of a property on the wire. -/
def ofPropertyValue : PropertyValue → WireValue
  | .text v => .text v
  | .bool v => .bool v
  | .u32 v => .u32 v
  | .u64 v => .u64 v
  | .i32 v => .i32 v
  | .texts v => .texts v
  | .commands v => .commands (v.map ofCommand)

/-- The value of a property, if the wire value is one of a property. -/
def toPropertyValue? : WireValue → Option PropertyValue
  | .text v => some (.text v)
  | .bool v => some (.bool v)
  | .u32 v => some (.u32 v)
  | .u64 v => some (.u64 v)
  | .i32 v => some (.i32 v)
  | .texts v => some (.texts v)
  | .commands v => some (.commands (v.map toCommand))
  | .objectPath _ => none

/-- A property on the wire: its name and a variant. -/
def ofProperty (p : UnitProperty) : String × WireValue :=
  (p.name, ofPropertyValue p.value)

/-- Reads a property back. -/
def toProperty? (p : String × WireValue) : Option UnitProperty :=
  (toPropertyValue? p.2).map fun v => ⟨p.1, v⟩

theorem toPropertyValue?_ofPropertyValue (v : PropertyValue) :
    toPropertyValue? (ofPropertyValue v) = some v := by
  cases v with
  | commands v =>
    simp only [ofPropertyValue, toPropertyValue?, List.map_map]
    rw [show (toCommand ∘ ofCommand) = id from rfl, List.map_id]
  | _ => rfl

theorem toProperty?_ofProperty (p : UnitProperty) : toProperty? (ofProperty p) = some p := by
  simp [toProperty?, ofProperty, toPropertyValue?_ofPropertyValue]

end Wire

end SystemdControl
