import CodeHealth.Decimal.Reading
import CodeHealth.Instant
import CodeHealth.Json.Scan

/-!
The leaves of configuration texts in TOML: blanks, comments, strings, numbers and times. Every scan
gives what it read and what is left, or nothing if the text is no such thing.
-/

namespace CodeHealth.Toml

/-! ### Blanks -/

/-- A blank inside a line. -/
def isIndent (c : Char) : Bool := c == ' ' || c == '\t'

/-- A character that can stand as it is in comments and strings. -/
def isPlain (c : Char) : Bool := c == '\t' || (' ' ≤ c && c != '\x7f')

/-- What is left behind blanks of a line. -/
def skipIndent (cs : List Char) : List Char := cs.dropWhile isIndent

/-- What is left behind the end of a line. -/
def afterNewline? : List Char → Option (List Char)
  | '\n' :: rest => some rest
  | '\r' :: '\n' :: rest => some rest
  | _ => none

/-- What is left behind a comment, if there is one. -/
def skipComment : List Char → List Char
  | '#' :: rest => rest.dropWhile isPlain
  | cs => cs

/-- What is left behind a line that has nothing more to say. -/
def endLine? (cs : List Char) : Option (List Char) :=
  match skipComment (skipIndent cs) with
  | [] => some []
  | rest => afterNewline? rest

/-- What is left behind blanks, comments and ends of lines; `commented` says that a comment is
open. -/
def skipGaps (commented : Bool) : List Char → List Char
  | [] => []
  | '\r' :: '\n' :: cs => skipGaps false cs
  | c :: cs =>
    if c = '\n' then skipGaps false cs
    else if commented then if isPlain c then skipGaps true cs else c :: cs
    else if c = '#' then skipGaps true cs
    else if isIndent c then skipGaps false cs
    else c :: cs

/-! ### Strings -/

/-- The character of a code that is written in so many hexadecimal digits. -/
def readCode? (width : Nat) (cs : List Char) : Option Char := do
  let digits ← (cs.take width).mapM Json.hexValue?
  let n := digits.foldl (fun n d => n * 16 + d) 0
  if digits.length = width ∧ n.isValidChar then some (Char.ofNat n) else none

/-- Reads what stands behind a backslash: the character and how many characters it takes. -/
def readEscape? : List Char → Option (Char × Nat)
  | 'b' :: _ => some ('\x08', 1)
  | 't' :: _ => some ('\t', 1)
  | 'n' :: _ => some ('\n', 1)
  | 'f' :: _ => some ('\x0c', 1)
  | 'r' :: _ => some ('\r', 1)
  | '"' :: _ => some ('"', 1)
  | '\\' :: _ => some ('\\', 1)
  | 'u' :: cs => (readCode? 4 cs).map (·, 5)
  | 'U' :: cs => (readCode? 8 cs).map (·, 9)
  | _ => none

/-- Reads the rest of a string in one line; the first `skip` characters were read already. -/
def readBasic : Nat → List Char → Option (List Char × List Char)
  | _, [] => none
  | skip + 1, _ :: cs => readBasic skip cs
  | 0, c :: cs =>
    if c = '"' then some ([], cs)
    else if c = '\\' then
      match readEscape? cs with
      | some (d, n) => (readBasic n cs).map fun (ds, rest) => (d :: ds, rest)
      | none => none
    else if isPlain c then (readBasic 0 cs).map fun (ds, rest) => (c :: ds, rest)
    else none

/-- Reads the rest of a string without escapes in one line. -/
def readLiteral (cs : List Char) : Option (List Char × List Char) :=
  let (ds, rest) := cs.span fun c => c != '\'' && isPlain c
  match rest with
  | '\'' :: rest => some (ds, rest)
  | _ => none

/-- The quotes that belong to a string of several lines whose end starts here, and what is left
behind the end. Three quotes end the string; two more may stand before them. -/
def closeLong? (q : Char) (cs : List Char) : Option (List Char × List Char) :=
  let n := (cs.takeWhile (· == q)).length
  if n < 3 then none
  else
    let inside := min (n - 3) 2
    some (List.replicate inside q, cs.drop (inside + 3))

/-- What is left behind blanks and ends of lines. -/
def skipLines : List Char → List Char
  | '\r' :: '\n' :: cs => skipLines cs
  | c :: cs => if isIndent c || c == '\n' then skipLines cs else c :: cs
  | [] => []

/-- The number of characters that a backslash at the end of a line hides. -/
def foldedLength? (cs : List Char) : Option Nat :=
  (afterNewline? (skipIndent cs)).map fun rest => cs.length - (skipLines rest).length

/-- Reads the rest of a string of several lines; the first `skip` characters were read already. -/
def readLong (q : Char) : Nat → List Char → Option (List Char × List Char)
  | _, [] => none
  | skip + 1, _ :: cs => readLong q skip cs
  | 0, c :: cs =>
    if c = q then
      match closeLong? q (c :: cs) with
      | some r => some r
      | none => (readLong q 0 cs).map fun (ds, rest) => (c :: ds, rest)
    else if c = '\\' ∧ q = '"' then
      match readEscape? cs with
      | some (d, n) => (readLong q n cs).map fun (ds, rest) => (d :: ds, rest)
      | none =>
        match foldedLength? cs with
        | some n => readLong q n cs
        | none => none
    else if c = '\n' then (readLong q 0 cs).map fun (ds, rest) => (c :: ds, rest)
    else if c = '\r' ∧ cs.head? = some '\n' then readLong q 0 cs
    else if isPlain c then (readLong q 0 cs).map fun (ds, rest) => (c :: ds, rest)
    else none

/-- Reads a string that starts with a quote. A string of several lines may start behind the end of
its first line. -/
def readString? (cs : List Char) : Option (String × List Char) :=
  let text (r : Option (List Char × List Char)) : Option (String × List Char) :=
    r.map fun (ds, rest) => (String.ofList ds, rest)
  match cs with
  | '"' :: '"' :: '"' :: rest => text (readLong '"' 0 ((afterNewline? rest).getD rest))
  | '\'' :: '\'' :: '\'' :: rest => text (readLong '\'' 0 ((afterNewline? rest).getD rest))
  | '"' :: rest => text (readBasic 0 rest)
  | '\'' :: rest => text (readLiteral rest)
  | _ => none

/-! ### Numbers -/

/-- The digits that a text starts with, low lines between them left out, and what is left. -/
def spanDigits (isDigit : Char → Bool) : List Char → List Char × List Char
  | '_' :: c :: cs =>
    if isDigit c then
      let (ds, rest) := spanDigits isDigit cs
      (c :: ds, rest)
    else ([], '_' :: c :: cs)
  | c :: cs =>
    if isDigit c then
      let (ds, rest) := spanDigits isDigit cs
      (c :: ds, rest)
    else ([], c :: cs)
  | [] => ([], [])

def readDigits? (isDigit : Char → Bool) (cs : List Char) : Option (List Char × List Char) :=
  if cs.head?.any isDigit then some (spanDigits isDigit cs) else none

/-- A sign, if there is one: whether it is a minus, and what is left. -/
def readSign : List Char → Bool × List Char
  | '+' :: cs => (false, cs)
  | '-' :: cs => (true, cs)
  | cs => (false, cs)

/-- A whole number as a value, if it fits 64 bits with a sign. -/
def wholeNumber? (n : Int) : Option Json :=
  if Word.fitsSigned64 n then some (.integer n) else none

/-- Reads a whole number in a base other than ten. -/
def readInBase? (base : Nat) (cs : List Char) : Option (Json × List Char) := do
  let (ds, rest) ← readDigits? (fun c => (Json.hexValue? c).any (· < base)) cs
  let n := (ds.filterMap Json.hexValue?).foldl (fun n d => n * base + d) 0
  pure (← wholeNumber? n, rest)

/-- Reads the digits of a whole part. A leading zero stands alone. -/
def readWhole? (cs : List Char) : Option (List Char × List Char) :=
  match cs with
  | '0' :: rest => some (['0'], rest)
  | _ => readDigits? Char.isDigit cs

/-- Reads the digits behind a point, if there is one. -/
def readFraction? (cs : List Char) : Option (Option (List Char) × List Char) :=
  match cs with
  | '.' :: rest => (readDigits? Char.isDigit rest).map fun (ds, r) => (some ds, r)
  | _ => some (none, cs)

def readExponent? (cs : List Char) : Option (Option Int × List Char) :=
  match cs with
  | c :: rest =>
    if c = 'e' ∨ c = 'E' then
      let (down, digits) := readSign rest
      (readDigits? Char.isDigit digits).map fun (ds, r) =>
        let e : Int := Decimal.valueOf ds
        (some (if down then -e else e), r)
    else some (none, cs)
  | [] => some (none, cs)

/-- Reads a number in base ten. A number with a point or an exponent is no whole number; one that
is too large is none at all. -/
def readDecimal? (negative : Bool) (cs : List Char) : Option (Json × List Char) := do
  let (whole, rest) ← readWhole? cs
  let (fraction, rest) ← readFraction? rest
  let (exponent, rest) ← readExponent? rest
  if fraction.isNone ∧ exponent.isNone then
    let n : Int := Decimal.valueOf whole
    pure (← wholeNumber? (if negative then -n else n), rest)
  else
    let digits := fraction.getD []
    let x := Decimal.Numeral.toFloat
      ⟨negative, whole ++ digits, exponent.getD 0 - (digits.length : Int)⟩
    if x.isInf && !negative then none else pure (.float x, rest)

def readNumber? (cs : List Char) : Option (Json × List Char) :=
  match cs with
  | '0' :: 'x' :: rest => readInBase? 16 rest
  | '0' :: 'o' :: rest => readInBase? 8 rest
  | '0' :: 'b' :: rest => readInBase? 2 rest
  | _ =>
    let (negative, rest) := readSign cs
    match rest with
    | 'i' :: 'n' :: 'f' :: r => some (.float (if negative then -1.0 / 0.0 else 1.0 / 0.0), r)
    | 'n' :: 'a' :: 'n' :: r => some (.float (0.0 / 0.0), r)
    | _ => readDecimal? negative rest

/-! ### Times -/

def readDate? (cs : List Char) : Option (String × List Char) := do
  let (y, cs) ← Instant.readDigits 4 cs
  let (_, cs) ← Instant.readMark ['-'] cs
  let (m, cs) ← Instant.readDigits 2 cs
  let (_, cs) ← Instant.readMark ['-'] cs
  let (d, cs) ← Instant.readDigits 2 cs
  if 1 ≤ m ∧ m ≤ 12 ∧ 1 ≤ d ∧ d ≤ Instant.daysInMonth y m then
    pure (Instant.padded 4 y ++ "-" ++ Instant.padded 2 m ++ "-" ++ Instant.padded 2 d, cs)
  else none

/-- A fraction of a second, without zeros at its end. -/
def writeNanos (nanos : Nat) : String :=
  if nanos = 0 then ""
  else "." ++ String.ofList
    ((Instant.padded 9 nanos).toList.reverse.dropWhile (· == '0')).reverse

/-- Reads a time of the day and writes it out. -/
def readTime? (cs : List Char) : Option (String × List Char) := do
  let (h, cs) ← Instant.readDigits 2 cs
  let (_, cs) ← Instant.readMark [':'] cs
  let (m, cs) ← Instant.readDigits 2 cs
  let (_, cs) ← Instant.readMark [':'] cs
  let (s, cs) ← Instant.readDigits 2 cs
  let (nanos, cs) ← Instant.readFraction cs
  if h < 24 ∧ m < 60 ∧ s ≤ 60 then
    pure (Instant.padded 2 h ++ ":" ++ Instant.padded 2 m ++ ":" ++ Instant.padded 2 s ++
      writeNanos nanos, cs)
  else none

/-- Reads the distance from universal time, if it is given, and writes it out. -/
def readOffset? (cs : List Char) : Option (String × List Char) :=
  match cs with
  | c :: rest =>
    if c = 'Z' ∨ c = 'z' then some ("Z", rest)
    else if c = '+' ∨ c = '-' then do
      let (h, rest) ← Instant.readDigits 2 rest
      let (_, rest) ← Instant.readMark [':'] rest
      let (m, rest) ← Instant.readDigits 2 rest
      if h < 24 ∧ m < 60 then
        let sign := if c = '-' ∧ 0 < h + m then "-" else "+"
        pure (sign ++ Instant.padded 2 h ++ ":" ++ Instant.padded 2 m, rest)
      else none
    else some ("", cs)
  | [] => some ("", cs)

def timeField : String := "$__toml_private_datetime"

def timeValue (text : String) : Json := .object [(timeField, .string text)]

/-- Whether a text starts with a number of digits and then a mark. -/
def startsTime (width : Nat) (mark : Char) (cs : List Char) : Bool :=
  (cs.take width).all Char.isDigit && (cs.drop width).head? = some mark

/-- Reads a date, a time of the day, or both. A blank before the time of the day is taken for the
letter between the two only if a time follows. -/
def readMoment? (cs : List Char) : Option (Json × List Char) := do
  if startsTime 4 '-' cs then
    let (date, rest) ← readDate? cs
    match rest with
    | c :: r =>
      if (c = 'T' ∨ c = 't' ∨ c = ' ') ∧ startsTime 2 ':' r then
        let (time, r) ← readTime? r
        let (offset, r) ← readOffset? r
        pure (timeValue (date ++ "T" ++ time ++ offset), r)
      else pure (timeValue date, rest)
    | [] => pure (timeValue date, rest)
  else
    let (time, rest) ← readTime? cs
    pure (timeValue time, rest)

/-- Whether a text starts like a date or a time of the day. -/
def startsMoment (cs : List Char) : Bool := startsTime 4 '-' cs || startsTime 2 ':' cs

end CodeHealth.Toml
