import SystemdControl.Text.Concealed

/-!
# Quoted text

A text between double quotes, as complaints about a name show it. The quote, the backslash and
four controls have an escape of one letter; every other concealed character is written as its code
point in lower-case hexadecimal between braces; all else, the single quote included, stands for
itself.

* `Quoted.escape` writes one character;
* `Quoted.render` writes a text.
-/

namespace SystemdControl.Quoted

/-- A code point in lower-case hexadecimal, without leading zeros. -/
def hex (n : Nat) : List Char :=
  Nat.toDigits 16 n

/-- One character between the quotes. -/
def escape (c : Char) : List Char :=
  if c = '"' then ['\\', '"']
  else if c = '\\' then ['\\', '\\']
  else if c = '\n' then ['\\', 'n']
  else if c = '\r' then ['\\', 'r']
  else if c = '\t' then ['\\', 't']
  else if c = '\x00' then ['\\', '0']
  else if isConcealed c then ['\\', 'u', '\x7b'] ++ hex c.toNat ++ ['\x7d']
  else [c]

/-- A text with its quotes. -/
def render (text : String) : String :=
  .ofList ('"' :: text.toList.flatMap escape ++ ['"'])

end SystemdControl.Quoted
