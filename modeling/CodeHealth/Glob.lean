import CodeHealth.Text.Utf8

/-!
Patterns of file names. A pattern is a list of tokens, and a text is matched byte by byte: `?` and
`*` stand for bytes other than the slash, `**` for whole directories. Each token leads from the
places of a text that are reached to those that it can reach from there, and a pattern matches the
texts whose end it reaches.
-/

namespace CodeHealth

namespace Glob

inductive Token where
  /-- One character as it is written. -/
  | literal (c : Char)
  /-- One byte other than the slash. -/
  | any
  /-- Bytes other than the slash. -/
  | many
  /-- Any directories in front. -/
  | leading
  /-- Any directories between two slashes. -/
  | inner
  /-- Everything inside a directory. -/
  | trailing
  /-- One byte in or outside the ranges. -/
  | oneOf (negated : Bool) (ranges : List (Char × Char))
  /-- One of several patterns. -/
  | alternatives (branches : List (List Token))
deriving Inhabited

/-! ### Reading -/

/-- The rest behind the class whose opening bracket has been read, and its ranges in reverse.
`first` says that nothing of the class has been read, `ranging` that a range is left open. A range
that runs backwards is no pattern; nothing is said of a class without an end. -/
def readRanges : Bool → Bool → List (Char × Char) → List Char →
    Except Unit (Option (List (Char × Char) × List Char))
  | _, _, _, [] => .ok none
  | first, ranging, ranges, c :: cs =>
    if c = ']' ∧ !first then
      .ok (some (if ranging then ('-', '-') :: ranges else ranges, cs))
    else if c = '-' ∧ !first ∧ !ranging then readRanges false true ranges cs
    else if ranging then
      match ranges with
      | (lo, _) :: rest =>
        if c < lo then .error () else readRanges false false ((lo, c) :: rest) cs
      | [] => .error ()
    else readRanges false false ((c, c) :: ranges) cs

/-- Reads the class whose opening bracket has been read. -/
def readClass (cs : List Char) : Except Unit (Option (Token × List Char)) :=
  let (negated, inside) := match cs with
    | '!' :: rest => (true, rest)
    | '^' :: rest => (true, rest)
    | _ => (false, cs)
  (readRanges true false [] inside).map fun r =>
    r.map fun (ranges, rest) => (.oneOf negated ranges.reverse, rest)

/-- A pattern that is being read: the tokens of the branch that is open, the latest first, and for
every open brace the branches that are complete and the tokens before the brace. -/
structure Draft where
  tokens : List Token
  braces : List (List (List Token) × List Token)

namespace Draft

def push (d : Draft) (t : Token) : Draft := { d with tokens := t :: d.tokens }

/-- The draft with `**` in it, and what is left behind it. Two stars mean directories where they
stand alone between slashes; elsewhere they are two stars. -/
def pushDouble (d : Draft) (before : Option Char) (rest : List Char) : Draft × List Char :=
  let plain : Draft × List Char := ((d.push .many).push .many, rest)
  let closes : Bool := match rest with
    | ',' :: _ => !d.braces.isEmpty
    | '\x7d' :: _ => !d.braces.isEmpty
    | [] => true
    | _ => false
  match d.tokens with
  | [] =>
    match rest with
    | '/' :: r => (d.push .leading, r)
    | [] => (d.push .leading, [])
    | _ => plain
  | t :: ts =>
    if before = some '/' then
      let merged (other : Token) : Token := match t with
        | .leading => .leading
        | .trailing => .trailing
        | _ => other
      match rest with
      | '/' :: r => ({ d with tokens := merged .inner :: ts }, r)
      | _ => if closes then ({ d with tokens := merged .trailing :: ts }, rest) else plain
    else plain

def openBrace (d : Draft) : Draft := ⟨[], ([], d.tokens) :: d.braces⟩

/-- The draft with the next branch of a brace begun; outside braces a comma is a character. -/
def comma (d : Draft) : Draft :=
  match d.braces with
  | (branches, outer) :: rest => ⟨[], (branches ++ [d.tokens.reverse], outer) :: rest⟩
  | [] => d.push (.literal ',')

/-- The draft with a brace closed, if one is open. -/
def closeBrace? (d : Draft) : Option Draft :=
  match d.braces with
  | (branches, outer) :: rest =>
    some ⟨.alternatives (branches ++ [d.tokens.reverse]) :: outer, rest⟩
  | [] => none

end Draft

/-- Reads a pattern; `before` is the character in front. -/
def readFrom : Nat → Option Char → Draft → List Char → Option (List Token)
  | 0, _, _, _ => none
  | _ + 1, _, d, [] => if d.braces.isEmpty then some d.tokens.reverse else none
  | fuel + 1, before, d, c :: cs =>
    match c with
    | '?' => readFrom fuel c (d.push .any) cs
    | '*' =>
      match cs with
      | '*' :: rest =>
        let (d, left) := d.pushDouble before rest
        readFrom fuel (if left.length < rest.length then '/' else '*') d left
      | _ => readFrom fuel c (d.push .many) cs
    | '[' =>
      match readClass cs with
      | .ok (some (t, rest)) => readFrom fuel ']' (d.push t) rest
      | .ok none => readFrom fuel c (d.push (.literal '[')) cs
      | .error _ => none
    | '\x7b' => readFrom fuel c d.openBrace cs
    | '\x7d' => d.closeBrace?.bind fun d => readFrom fuel c d cs
    | ',' => readFrom fuel c d.comma cs
    | '\\' =>
      match cs with
      | e :: rest => readFrom fuel e (d.push (.literal e)) rest
      | [] => none
    | _ => readFrom fuel c (d.push (.literal c)) cs

end Glob

structure Glob where
  tokens : List Glob.Token
deriving Inhabited

namespace Glob

/-- The pattern that a text stands for, if it does. -/
def parse? (text : String) : Option Glob :=
  let cs := text.toList
  (readFrom (cs.length + 1) none ⟨[], []⟩ cs).map Glob.mk

/-! ### Matching -/

/-- The places of a text that are reached: one mark before each byte and one at the end. -/
abbrev Marks := List Bool

def slash : UInt8 := 0x2F

/-- The bytes of a character. -/
def bytesOf (c : Char) : List UInt8 := (String.singleton c).toUTF8.toList

/-- The places behind one byte of a class. -/
def advance (allowed : UInt8 → Bool) (bs : List UInt8) (marks : Marks) : Marks :=
  false :: List.zipWith (fun m b => m && allowed b) marks bs

/-- The places behind the given bytes. -/
def expect (xs : List UInt8) (bs : List UInt8) (marks : Marks) : Marks :=
  xs.foldl (fun marks x => advance (· == x) bs marks) marks

/-- The places behind any number of bytes of a class; `carry` says that the first place is reached
from those before it. -/
def pass (allowed : UInt8 → Bool) (carry : Bool) : List UInt8 → Marks → Marks
  | _, [] => []
  | [], m :: _ => [m || carry]
  | b :: bs, m :: ms => (m || carry) :: pass allowed ((m || carry) && allowed b) bs ms

/-- The places behind any number of directories; `seen` says that a place before the first one is
reached, and `slashed` that a slash stands before it. -/
def passDirectories (seen slashed : Bool) : List UInt8 → Marks → Marks
  | _, [] => []
  | [], m :: _ => [m || (seen && slashed)]
  | b :: bs, m :: ms =>
    (m || (seen && slashed)) :: passDirectories (seen || m) (b == slash) bs ms

/-- The places that one of two sets holds. -/
def union (a b : Marks) : Marks := List.zipWith (· || ·) a b

/-- The bytes between two bounds, and the bytes of the bounds that stand outside. -/
def inRange (range : Char × Char) (b : UInt8) : Bool :=
  let lo := bytesOf range.1
  let hi := bytesOf range.2
  if range.1 = range.2 then lo.contains b
  else lo.dropLast.contains b || (hi.drop 1).contains b ||
    ((lo.getLast?.getD 0) ≤ b && b ≤ (hi.head?.getD 0))

mutual

/-- Whether a token stands for nothing at all. -/
def Token.isVoid : Token → Bool
  | .alternatives branches => areVoid branches
  | _ => false

/-- Whether a pattern stands for nothing at all. -/
def isVoid : List Token → Bool
  | [] => true
  | t :: ts => t.isVoid && isVoid ts

/-- Whether patterns all stand for nothing at all. -/
def areVoid : List (List Token) → Bool
  | [] => true
  | b :: bs => isVoid b && areVoid bs

end

mutual

def Token.run (bs : List UInt8) : Token → Marks → Marks
  | .literal c, marks => expect (bytesOf c) bs marks
  | .any, marks => advance (· != slash) bs marks
  | .many, marks => pass (· != slash) false bs marks
  | .leading, marks => passDirectories false false bs marks
  | .inner, marks => passDirectories false false bs (advance (· == slash) bs marks)
  | .trailing, marks => pass (fun _ => true) false bs (advance (· == slash) bs marks)
  | .oneOf negated ranges, marks => advance (fun b => ranges.any (inRange · b) != negated) bs marks
  | .alternatives branches, marks => if areVoid branches then marks else runAny bs branches marks

/-- The places that a pattern leads to. -/
def runAll (bs : List UInt8) : List Token → Marks → Marks
  | [], marks => marks
  | t :: ts, marks => runAll bs ts (t.run bs marks)

/-- The places that one of several patterns leads to; those that stand for nothing do not count. -/
def runAny (bs : List UInt8) : List (List Token) → Marks → Marks
  | [], marks => marks.map fun _ => false
  | b :: rest, marks =>
    let others := runAny bs rest marks
    if isVoid b then others else union (runAll bs b marks) others

end

/-- Whether a pattern matches a text. The pattern of directories alone matches every text. -/
def accepts (g : Glob) (text : String) : Bool :=
  match g.tokens with
  | [.leading] => true
  | tokens =>
    let bs := text.toUTF8.toList
    (runAll bs tokens (true :: bs.map fun _ => false)).getLast?.getD false

end Glob

end CodeHealth
