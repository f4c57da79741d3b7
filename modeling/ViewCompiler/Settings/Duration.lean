import ViewCompiler.Settings.Error
import ViewCompiler.Text.Basic

/-!
# Durations

A duration is written as a whole number with a unit: `ms`, `s`, `m`, `h` or `d`. `Duration.ofText`
reads it, blanks around it do not count.
-/

namespace ViewCompiler

/-- A span of time. -/
structure Duration where
  /-- The whole number of milliseconds. -/
  milliseconds : Nat
  deriving DecidableEq, Repr, Inhabited

namespace Duration

/-- The whole seconds. -/
def seconds (duration : Duration) : Nat := duration.milliseconds / 1000

/-- The milliseconds beyond the whole seconds. -/
def subsecond (duration : Duration) : Nat := duration.milliseconds % 1000

/-- The units and how many milliseconds each has. -/
def units : List (String × Nat) :=
  [("ms", 1), ("s", 1000), ("m", 60 * 1000), ("h", 3600 * 1000), ("d", 86400 * 1000)]

/-- The milliseconds of a unit. -/
def unit? (name : String) : Option Nat :=
  (units.find? fun entry => entry.1 = name).map Prod.snd

/-- The value of decimal digits. -/
def digitsValue (digits : List Char) : Nat :=
  digits.foldl (fun value c => 10 * value + (c.toNat - 48)) 0

/-- The largest amount that can be written. -/
def maxAmount : Nat := Nat.pow 2 64 - 1

/-- The duration that a text without blanks around it writes. -/
def ofTrimmed? (cs : List Char) : Option Duration :=
  let digits := cs.takeWhile Text.isAsciiDigit
  let amount := digitsValue digits
  if digits.isEmpty || maxAmount < amount then none
  else (unit? (String.ofList (cs.drop digits.length))).map fun unit => ⟨amount * unit⟩

/-- The duration that a text writes. -/
def ofText (text : String) : Except SettingsError Duration :=
  let trimmed := Text.trim text.toList
  match ofTrimmed? trimmed with
  | some duration => .ok duration
  | none => .error (.invalidDuration (String.ofList trimmed))

end Duration

end ViewCompiler
