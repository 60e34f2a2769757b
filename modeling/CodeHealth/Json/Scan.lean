import CodeHealth.Json.Fault
import CodeHealth.Json.Writer
import CodeHealth.Word

/-!
The leaves of JSON texts: blanks, words, numbers and strings. Every scan gives what it read and
what is left, or the fault it met.
-/

namespace CodeHealth.Json

/-- A fault at the place reached so far. -/
def stopAt {α : Type} (fault : Fault) (rest : List Char) : Except Stop α := .error ⟨fault, rest, 0⟩

/-- A fault that is found by looking at the next byte. -/
def stopBefore {α : Type} (fault : Fault) (rest : List Char) : Except Stop α :=
  .error ⟨fault, rest, 1⟩

/-- Whether a character may stand between the parts of a text. -/
def isSpace (c : Char) : Bool := c == ' ' || c == '\n' || c == '\t' || c == '\r'

/-- What is left behind blanks. -/
def skipSpace (cs : List Char) : List Char := cs.dropWhile isSpace

/-- Expects the given characters and gives what is left behind them. -/
def readWord : List Char → List Char → Except Stop (List Char)
  | [], cs => .ok cs
  | _ :: _, [] => stopAt .endInValue []
  | w :: ws, c :: cs => if c = w then readWord ws cs else stopBefore .expectedIdent (c :: cs)

/-! ### Strings -/

def hexValue? (c : Char) : Option Nat :=
  if '0' ≤ c ∧ c ≤ '9' then some (c.toNat - 48)
  else if 'a' ≤ c ∧ c ≤ 'f' then some (c.toNat - 87)
  else if 'A' ≤ c ∧ c ≤ 'F' then some (c.toNat - 55)
  else none

/-- The value of the four hexadecimal digits that a text starts with. -/
def readHex : List Char → Except Stop Nat
  | cs =>
    match (cs.take 4).mapM hexValue? with
    | some [a, b, c, d] => .ok (((a * 16 + b) * 16 + c) * 16 + d)
    | _ =>
      if Text.byteLength (cs.take 4) < 4 then stopAt .endInString []
      else .error ⟨.invalidEscape, cs, 4⟩

/-- The character that an escape letter stands for. -/
def escaped? : Char → Option Char
  | '"' => some '"'
  | '\\' => some '\\'
  | '/' => some '/'
  | 'b' => some '\x08'
  | 'f' => some '\x0c'
  | 'n' => some '\n'
  | 'r' => some '\r'
  | 't' => some '\t'
  | _ => none

/-- Whether a 16-bit unit opens a pair. -/
def isLeading (n : Nat) : Bool := 0xD800 ≤ n && n ≤ 0xDBFF

/-- Whether a 16-bit unit closes a pair. -/
def isTrailing (n : Nat) : Bool := 0xDC00 ≤ n && n ≤ 0xDFFF

/-- Reads the digits behind `\u`: the character and how many characters it takes. A character
outside the basic plane is written as a pair of escapes. -/
def readUnicode (cs : List Char) : Except Stop (Char × Nat) := do
  let n ← readHex cs
  if isTrailing n then .error ⟨.loneSurrogate, cs, 4⟩
  else if isLeading n then
    match cs.drop 4 with
    | [] => stopAt .endInString []
    | '\\' :: [] => stopAt .endInString []
    | '\\' :: 'u' :: rest =>
      let m ← readHex rest
      if isTrailing m then
        pure (Char.ofNat (0x10000 + (n - 0xD800) * 0x400 + (m - 0xDC00)), 10)
      else .error ⟨.loneSurrogate, rest, 4⟩
    | '\\' :: rest => stopBefore .endOfHexEscape rest
    | rest => stopBefore .endOfHexEscape rest
  else pure (Char.ofNat n, 4)

/-- Reads what stands behind a backslash: the character and how many characters it takes. -/
def readEscape : List Char → Except Stop (Char × Nat)
  | [] => stopAt .endInString []
  | 'u' :: cs => (readUnicode cs).map fun (c, n) => (c, n + 1)
  | c :: cs =>
    match escaped? c with
    | some d => .ok (d, 1)
    | none => stopBefore .invalidEscape (c :: cs)

/-- Reads the rest of a string up to its closing quote; the first `skip` characters belong to an
escape that was read already. -/
def readStringFrom : Nat → List Char → Except Stop ((List Char) × List Char)
  | _, [] => stopAt .endInString []
  | skip + 1, _ :: cs => readStringFrom skip cs
  | 0, c :: cs =>
    if c = '"' then .ok ([], cs)
    else if c = '\\' then
      match readEscape cs with
      | .ok (d, n) => (readStringFrom n cs).map fun (ds, rest) => (d :: ds, rest)
      | .error stop => .error stop
    else if c.toNat < 0x20 then stopBefore .controlCharacter (c :: cs)
    else (readStringFrom 0 cs).map fun (ds, rest) => (c :: ds, rest)

/-- Reads a string whose opening quote has been read. -/
def readString (cs : List Char) : Except Stop (String × List Char) :=
  (readStringFrom 0 cs).map fun (ds, rest) => (String.ofList ds, rest)

/-- What is left behind a string that is not needed. Escapes are checked for their letters and
digits alone. -/
def skipStringFrom : Nat → List Char → Except Stop (List Char)
  | _, [] => stopAt .endInString []
  | skip + 1, _ :: cs => skipStringFrom skip cs
  | 0, c :: cs =>
    if c = '"' then .ok cs
    else if c = '\\' then
      match cs with
      | [] => stopAt .endInString []
      | 'u' :: rest =>
        match readHex rest with
        | .ok _ => skipStringFrom 5 cs
        | .error stop => .error stop
      | d :: _ =>
        if (escaped? d).isSome then skipStringFrom 1 cs else stopBefore .invalidEscape cs
    else if c.toNat < 0x20 then stopBefore .controlCharacter (c :: cs)
    else skipStringFrom 0 cs

/-! ### Numbers -/

def digitsValue (ds : List Char) : Nat := ds.foldl (fun n d => n * 10 + (d.toNat - 48)) 0

/-- A number as it is written: sign, digits before and behind the point, and exponent. -/
structure Numeral where
  negative : Bool
  whole : List Char
  fraction : Option (List Char)
  exponent : Option (Bool × List Char)

/-- The first digits of a significand are kept as long as its value fits 64 bits. Gives the value
and how many digits were dropped. -/
def significand : Nat → List Char → Nat × Nat
  | n, [] => (n, 0)
  | n, d :: ds =>
    let m := n * 10 + (d.toNat - 48)
    if m < Word.bound64 then significand m ds else (n, ds.length + 1)

/-- Scales a double by a power of ten in steps of at most `10 ^ 308`; nothing if it overflows. -/
def scaleFloat : Nat → Float → Int → Option Float
  | 0, x, _ => some x
  | fuel + 1, x, e =>
    if e.natAbs ≤ 308 then
      let power := Float.ofScientific 1 false e.natAbs
      if 0 ≤ e then
        let y := x * power
        if y.isInf then none else some y
      else some (x / power)
    else if x == 0.0 then some x
    else if 0 ≤ e then none
    else scaleFloat fuel (x / 1e308) (e + 308)

/-- The double that a numeral stands for: its significand, cut to 64 bits, times a power of ten.
Nothing if it is out of range. -/
def Numeral.toFloat? (n : Numeral) : Option Float :=
  let fraction := n.fraction.getD []
  let (whole, dropped) := significand 0 n.whole
  let (digits, kept) :=
    if dropped = 0 then
      let (v, cut) := significand whole fraction
      (v, fraction.length - cut)
    else (whole, 0)
  let shift : Int := (dropped : Int) - kept
  let sign (x : Float) : Float := if n.negative then -x else x
  match n.exponent with
  | none => (scaleFloat 8 (Float.ofNat digits) shift).map sign
  | some (down, ds) =>
    let e := digitsValue ds
    if Word.signedBound32 ≤ e then if digits = 0 ∨ down then some (sign 0.0) else none
    else
      let bound : Int := Word.signedBound32
      let total := if down then shift - e else shift + e
      (scaleFloat 8 (Float.ofNat digits) (max (-bound) (min total (bound - 1)))).map sign

/-- The value of a numeral. A whole number that fits 64 bits stays whole, save for `-0`. -/
def Numeral.toJson? (n : Numeral) : Option Json :=
  let v := digitsValue n.whole
  let fits := if n.negative then 0 < v ∧ v ≤ Word.signedBound64 else v < Word.bound64
  if n.fraction.isNone ∧ n.exponent.isNone ∧ fits then
    some (.integer (if n.negative then -(v : Int) else v))
  else n.toFloat?.map .float

/-- Reads the exponent of a number whose `e` has been read. -/
def readExponent (cs : List Char) : Except Stop ((Bool × List Char) × List Char) :=
  let (down, rest) := match cs with
    | '+' :: r => (false, r)
    | '-' :: r => (true, r)
    | r => (false, r)
  match rest with
  | [] => stopAt .endInValue []
  | c :: _ =>
    if c.isDigit then .ok ((down, rest.takeWhile Char.isDigit), rest.dropWhile Char.isDigit)
    else stopBefore .invalidNumber rest

def readExponent? (cs : List Char) : Except Stop ((Option (Bool × List Char)) × List Char) :=
  match cs with
  | 'e' :: rest => (readExponent rest).map fun (e, r) => (some e, r)
  | 'E' :: rest => (readExponent rest).map fun (e, r) => (some e, r)
  | _ => .ok (none, cs)

/-- Reads the digits behind the point of a number, if there is one. -/
def readFraction? (cs : List Char) : Except Stop ((Option (List Char)) × List Char) :=
  match cs with
  | '.' :: rest =>
    let ds := rest.takeWhile Char.isDigit
    let left := rest.dropWhile Char.isDigit
    if ds.isEmpty then
      if left.isEmpty then stopAt .endInValue [] else stopBefore .invalidNumber left
    else .ok (some ds, left)
  | _ => .ok (none, cs)

/-- Reads the digits of a number whose sign has been read. A leading zero stands alone. -/
def readNumeral (negative : Bool) (cs : List Char) : Except Stop (Numeral × List Char) := do
  let (whole, rest) ← match cs with
    | [] => stopAt .endInValue []
    | '0' :: r =>
      if r.head?.any Char.isDigit then stopBefore .invalidNumber r else .ok (['0'], r)
    | c :: _ =>
      if c.isDigit then .ok (cs.takeWhile Char.isDigit, cs.dropWhile Char.isDigit)
      else stopBefore .invalidNumber cs
  let (fraction, rest) ← readFraction? rest
  let (exponent, rest) ← readExponent? rest
  pure (⟨negative, whole, fraction, exponent⟩, rest)

/-- Reads a number whose sign has been read. -/
def readNumber (negative : Bool) (cs : List Char) : Except Stop (Json × List Char) := do
  let (n, rest) ← readNumeral negative cs
  match n.toJson? with
  | some j => pure (j, rest)
  | none => stopAt .numberOutOfRange rest

end CodeHealth.Json
