import SystemdControl.Error

/-!
# Properties of transient units

The properties that a caller gives to a unit made for one occasion, and the rule for their names.

* `PropertyName.validate` accepts the non-empty texts of ASCII letters, digits and underscores;
* `EnvKey.validate` is the rule for the names of environment variables.
-/

namespace SystemdControl

/-- A command of an `Exec` property. -/
structure ExecCommand where
  path : String
  argv : List String
  ignoreFailure : Bool
  deriving DecidableEq, Repr

/-- The command whose path is its first argument. -/
def ExecCommand.ofArgv (argv : List String) : ExecCommand :=
  ⟨argv.headD "", argv, false⟩

/-- The value of a property. -/
inductive PropertyValue where
  | text (v : String)
  | bool (v : Bool)
  | u32 (v : UInt32)
  | u64 (v : UInt64)
  | i32 (v : Int32)
  | texts (v : List String)
  | commands (v : List ExecCommand)
  deriving DecidableEq

/-- A named property. -/
structure UnitProperty where
  name : String
  value : PropertyValue
  deriving DecidableEq

namespace PropertyName

/-- The characters of property names. -/
def isNameChar (c : Char) : Bool :=
  c.isAlphanum || c == '_'

def validate (name : String) : Except Error Unit := do
  if name.isEmpty then throw (.invalidInput .propertyNameEmpty)
  if !name.toList.all isNameChar then throw (.invalidInput (.propertyNameAlphabet name))

end PropertyName

namespace EnvKey

def validate (key : String) : Except Error Unit := do
  ensurePrintable "env key" key
  if key.isEmpty then throw (.invalidInput .envKeyEmpty)
  if key.toList.contains '=' then throw (.invalidInput .envKeyEquals)

end EnvKey

end SystemdControl
