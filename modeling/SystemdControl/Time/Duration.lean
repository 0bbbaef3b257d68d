/-!
# Durations

A span of time in whole seconds, a 64-bit word, and nanoseconds below one second.

* `Duration.text` writes the largest of the units s, ms, µs and ns of which the span holds at least
  one (ns for the empty span), with the exact decimal fraction that is left and no trailing zeros.
-/

namespace SystemdControl

/-- A span of time. -/
structure Duration where
  secs : UInt64
  nanos : Nat
  nanos_lt : nanos < 1000000000
  deriving DecidableEq

namespace Duration

def ofSecs (n : UInt64) : Duration := ⟨n, 0, by decide⟩

/-- A whole number of milliseconds. -/
def ofMillis (n : UInt64) : Duration :=
  ⟨n / 1000, n.toNat % 1000 * 1000000, by have := Nat.mod_lt n.toNat (by decide : 1000 > 0); omega⟩

/-- The whole span in nanoseconds. -/
def toNanos (d : Duration) : Nat :=
  -- The number comes first, since a product unfolds along its second factor.
  1000000000 * d.secs.toNat + d.nanos

def isZero (d : Duration) : Bool :=
  d.secs == 0 && d.nanos == 0

theorem isZero_iff (d : Duration) : d.isZero ↔ d.toNanos = 0 := by
  simp only [isZero, toNanos, Bool.and_eq_true, beq_iff_eq, ← UInt64.toNat_inj, UInt64.toNat_zero]
  omega

/-- The digits of a fraction of `width` places, without the zeros at its end. -/
def fraction (width n : Nat) : List Char :=
  let digits := Nat.toDigits 10 n
  let padded := List.replicate (width - digits.length) '0' ++ digits
  (padded.reverse.dropWhile (· = '0')).reverse

/-- A number with a fraction of `width` places and its unit. -/
def amount (whole part width : Nat) (unit : String) : String :=
  let digits := fraction width part
  let tail := if digits.isEmpty then "" else String.ofList ('.' :: digits)
  toString whole ++ tail ++ unit

/-- The span as complaints and option listings show it. -/
def text (d : Duration) : String :=
  if 0 < d.secs.toNat then amount d.secs.toNat d.nanos 9 "s"
  else if 1000000 ≤ d.nanos then amount (d.nanos / 1000000) (d.nanos % 1000000) 6 "ms"
  else if 1000 ≤ d.nanos then amount (d.nanos / 1000) (d.nanos % 1000) 3 "µs"
  else amount d.nanos 0 0 "ns"

end Duration

end SystemdControl
