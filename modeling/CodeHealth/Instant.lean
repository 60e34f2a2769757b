/-!
Instants of time in universal time, and the two ways in which they are written.
-/

namespace CodeHealth

/-- An instant: the seconds since the start of 1970, and nanoseconds. In a leap second the
nanoseconds go on beyond one second. -/
structure Instant where
  seconds : Int
  nanos : Nat
deriving DecidableEq, Repr, Inhabited

namespace Instant

def isLeapYear (y : Int) : Bool := y % 4 == 0 && (y % 100 != 0 || y % 400 == 0)

def daysInMonth (y : Int) (m : Nat) : Nat :=
  if m = 2 then if isLeapYear y then 29 else 28
  else if m = 4 ∨ m = 6 ∨ m = 9 ∨ m = 11 then 30
  else 31

/-- The number of days from the start of 1970 to a date. Years are counted from March, so that the
leap day comes last. -/
def daysOfDate (y : Int) (m d : Nat) : Int :=
  let y' := if m ≤ 2 then y - 1 else y
  let era := y' / 400
  let yearOfEra := y' % 400
  let dayOfYear : Int := ((153 * ((m + 9) % 12) + 2) / 5 + d - 1 : Nat)
  let dayOfEra := yearOfEra * 365 + yearOfEra / 4 - yearOfEra / 100 + dayOfYear
  era * 146097 + dayOfEra - 719468

/-- The date that is a number of days from the start of 1970: year, month and day. -/
def dateOfDays (days : Int) : Int × Nat × Nat :=
  let z := days + 719468
  let era := z / 146097
  let dayOfEra := z % 146097
  let yearOfEra := (dayOfEra - dayOfEra / 1460 + dayOfEra / 36524 - dayOfEra / 146096) / 365
  let dayOfYear := dayOfEra - (365 * yearOfEra + yearOfEra / 4 - yearOfEra / 100)
  let month' := (5 * dayOfYear + 2) / 153
  let day := dayOfYear - (153 * month' + 2) / 5 + 1
  let month := if month' < 10 then month' + 3 else month' - 9
  let year := yearOfEra + era * 400 + (if month ≤ 2 then 1 else 0)
  (year, month.toNat, day.toNat)

/-- A number with leading zeros up to a width. -/
def padded (width n : Nat) : String :=
  let digits := toString n
  String.ofList (List.replicate (width - digits.length) '0') ++ digits

/-- A year: four digits, and a sign where four digits do not do. -/
def writeYear (y : Int) : String :=
  if 0 ≤ y ∧ y ≤ 9999 then padded 4 y.toNat
  else (if y < 0 then "-" else "+") ++ padded 4 y.natAbs

/-- The parts of an instant: year, month, day, hour, minute and second. -/
def parts (t : Instant) : Int × Nat × Nat × Nat × Nat × Nat :=
  let (y, m, d) := dateOfDays (t.seconds / 86400)
  let s := (t.seconds % 86400).toNat
  (y, m, d, s / 3600, s / 60 % 60, s % 60 + t.nanos / 1000000000)

/-- Nanoseconds behind a point: none, or three, six or nine digits, as few as do. -/
def writeFraction (nanos : Nat) : String :=
  if nanos = 0 then ""
  else if nanos % 1000000 = 0 then "." ++ padded 3 (nanos / 1000000)
  else if nanos % 1000 = 0 then "." ++ padded 6 (nanos / 1000)
  else "." ++ padded 9 nanos

def write (t : Instant) : String :=
  let (y, m, d, h, mi, s) := t.parts
  writeYear y ++ "-" ++ padded 2 m ++ "-" ++ padded 2 d ++ "T" ++ padded 2 h ++ ":" ++
    padded 2 mi ++ ":" ++ padded 2 s ++ writeFraction (t.nanos % 1000000000) ++ "Z"

def display (t : Instant) : String :=
  let (y, m, d, h, mi, s) := t.parts
  writeYear y ++ "-" ++ padded 2 m ++ "-" ++ padded 2 d ++ " " ++ padded 2 h ++ ":" ++
    padded 2 mi ++ ":" ++ padded 2 s ++ " UTC"

/-! ### Reading -/

/-- Reads a number of exactly `width` digits. -/
def readDigits (width : Nat) (cs : List Char) : Option (Nat × List Char) :=
  let ds := cs.take width
  if ds.length = width ∧ ds.all Char.isDigit then
    some (ds.foldl (fun n d => n * 10 + (d.toNat - 48)) 0, cs.drop width)
  else none

/-- The first year and the last one that can be told apart. -/
def minYear : Int := -262143

def maxYear : Int := 262142

def readYearDigits (cs : List Char) : Option (Nat × List Char) :=
  let ds := cs.takeWhile Char.isDigit
  if ds.isEmpty then none
  else some (ds.foldl (fun n d => n * 10 + (d.toNat - 48)) 0, cs.dropWhile Char.isDigit)

/-- Reads a year: four digits, or a sign and digits. -/
def readYear : List Char → Option (Int × List Char)
  | '-' :: cs => (readYearDigits cs).map fun (n, rest) => (-(n : Int), rest)
  | '+' :: cs => (readYearDigits cs).map fun (n, rest) => ((n : Int), rest)
  | cs => (readDigits 4 cs).map fun (n, rest) => ((n : Int), rest)

def readMark (marks : List Char) : List Char → Option (Char × List Char)
  | c :: cs => if marks.contains c then some (c, cs) else none
  | [] => none

/-- Reads a fraction of a second, if there is one, as nanoseconds; further digits are cut off. -/
def readFraction (cs : List Char) : Option (Nat × List Char) :=
  match cs with
  | '.' :: rest =>
    let ds := rest.takeWhile Char.isDigit
    if ds.isEmpty then none
    else
      let nine := (ds ++ List.replicate 9 '0').take 9
      some (nine.foldl (fun n d => n * 10 + (d.toNat - 48)) 0, rest.dropWhile Char.isDigit)
  | _ => some (0, cs)

/-- Reads the distance from universal time in seconds. -/
def readOffset (cs : List Char) : Option (Int × List Char) := do
  let (sign, rest) ← readMark ['Z', 'z', '+', '-'] cs
  if sign = 'Z' ∨ sign = 'z' then pure (0, rest)
  else
    let (h, rest) ← readDigits 2 rest
    let rest := match rest with
      | ':' :: r => r
      | r => r
    let (m, rest) ← readDigits 2 rest
    if h < 24 ∧ m < 60 then
      let seconds : Int := (h * 3600 + m * 60 : Nat)
      pure (if sign = '-' then -seconds else seconds, rest)
    else none

/-- Reads a date: year, month and day. -/
def readDate (cs : List Char) : Option ((Int × Nat × Nat) × List Char) := do
  let (y, cs) ← readYear cs
  let (_, cs) ← readMark ['-'] cs
  let (m, cs) ← readDigits 2 cs
  let (_, cs) ← readMark ['-'] cs
  let (d, cs) ← readDigits 2 cs
  pure ((y, m, d), cs)

/-- Reads a time of day: hour, minute, second and nanoseconds. -/
def readTime (cs : List Char) : Option ((Nat × Nat × Nat × Nat) × List Char) := do
  let (h, cs) ← readDigits 2 cs
  let (_, cs) ← readMark [':'] cs
  let (mi, cs) ← readDigits 2 cs
  let (_, cs) ← readMark [':'] cs
  let (s, cs) ← readDigits 2 cs
  let (nanos, cs) ← readFraction cs
  pure ((h, mi, s, nanos), cs)

/-- The instant that a date and time with a distance from universal time stands for. -/
def parse? (text : String) : Option Instant := do
  let ((y, m, d), cs) ← readDate text.toList
  let (_, cs) ← readMark ['T', 't', ' '] cs
  let ((h, mi, s, nanos), cs) ← readTime cs
  let (offset, cs) ← readOffset cs
  if cs.isEmpty ∧ minYear ≤ y ∧ y ≤ maxYear ∧ 1 ≤ m ∧ m ≤ 12 ∧ 1 ≤ d ∧ d ≤ daysInMonth y m ∧
      h < 24 ∧ mi < 60 ∧ s ≤ 60 then
    let leap := if s = 60 then 1 else 0
    let seconds := daysOfDate y m d * 86400 + (h * 3600 + mi * 60 + (s - leap) : Nat) - offset
    pure ⟨seconds, nanos + leap * 1000000000⟩
  else none

end Instant

end CodeHealth
