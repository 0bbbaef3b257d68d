/-!
# Labels of object paths

The path element that stands for a name: ASCII letters and digits stand for themselves, except that
a digit may not come first; every other byte of the name's UTF-8 form is an underscore and two
lower-case hexadecimal digits.

* `PathLabel.encode` writes the label of a list of bytes, `PathLabel.ofName` of a name;
* `PathLabel.decode` reads the bytes back.
-/

namespace SystemdControl.PathLabel

def isLetter (b : UInt8) : Bool :=
  (0x41 ≤ b && b ≤ 0x5a) || (0x61 ≤ b && b ≤ 0x7a)

def isDigit (b : UInt8) : Bool :=
  0x30 ≤ b && b ≤ 0x39

/-- Whether a byte stands for itself; a digit does so only after the first place. -/
def isPlain (first : Bool) (b : UInt8) : Bool :=
  isLetter b || (isDigit b && !first)

/-- One byte of a label. -/
def encodeByte (first : Bool) (b : UInt8) : List Char :=
  if isPlain first b then [Char.ofNat b.toNat]
  else ['_', Nat.digitChar (b.toNat / 16), Nat.digitChar (b.toNat % 16)]

/-- The label of a list of bytes. -/
def encode : List UInt8 → List Char
  | [] => []
  | b :: rest => encodeByte true b ++ rest.flatMap (encodeByte false)

/-- The label of a name. -/
def ofName (name : String) : String :=
  .ofList (encode name.toUTF8.data.toList)

/-- The value of a lower-case hexadecimal digit. -/
def hexValue? (c : Char) : Option Nat :=
  if '0' ≤ c ∧ c ≤ '9' then some (c.toNat - 0x30)
  else if 'a' ≤ c ∧ c ≤ 'f' then some (c.toNat - 0x61 + 10)
  else none

/-- The bytes of a label; `none` if an underscore is not followed by two digits. -/
def decode : List Char → Option (List UInt8)
  | [] => some []
  | '_' :: h :: l :: rest => do
    let high ← hexValue? h
    let low ← hexValue? l
    return .ofNat (16 * high + low) :: (← decode rest)
  | c :: rest => if c = '_' then none else (decode rest).map (.ofNat c.toNat :: ·)

end SystemdControl.PathLabel
