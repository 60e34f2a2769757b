import CodeHealth.Decimal.Reading
import CodeHealth.Word

/-!
Reading of command lines. A command knows its options and what each of them does with what has been
given so far; an option refuses a value that it cannot use, and most options refuse to be given
twice.
-/

namespace CodeHealth.CommandLine

/-- Why a command line leads to no command. -/
inductive Refusal where
  /-- Help was asked for. -/
  | help
  /-- The version was asked for. -/
  | version
  /-- It cannot be understood. -/
  | misuse
deriving DecidableEq, Repr

/-- What an option does with what has been given so far. Nothing means that it refuses. -/
inductive Action (α : Type) where
  | flag (set : α → Option α)
  | value (set : String → α → Option α)
  | stop (refusal : Refusal)

/-- The options of a command and its other arguments. -/
structure Grammar (α : Type) where
  long : String → Option (Action α)
  short : Char → Option (Action α)
  positional : String → α → Option α
  subcommands : List String

/-- What was given: the options and arguments of a command, and the name and the arguments of the
command inside it, if there is one. -/
abbrev Given (α : Type) := α × Option (String × List String)

def orMisuse {α : Type} : Option α → Except Refusal α
  | some a => .ok a
  | none => .error .misuse

/-- Whether an argument is written like an option. A dash alone is not. -/
def looksLikeOption (arg : String) : Bool := arg.startsWith "-" && arg != "-"

/-- What an argument says: an option with its name and perhaps a value behind `=`, options of one
letter with what is attached to them, or anything else. -/
inductive Word where
  | long (name : String) (attached : Option String)
  | letters (cs : List Char)
  | plain (text : String)
deriving DecidableEq, Repr

/-- The text behind the first `=` and the text before it. -/
def splitAtEquals (cs : List Char) : String × Option String :=
  match cs.span (· != '=') with
  | (name, _ :: value) => (String.ofList name, some (String.ofList value))
  | (name, []) => (String.ofList name, none)

def Word.ofArgument (arg : String) : Word :=
  match arg.toList with
  | '-' :: '-' :: name =>
    let (name, attached) := splitAtEquals name
    .long name attached
  | '-' :: c :: cs => .letters (c :: cs)
  | _ => .plain arg

namespace Grammar

variable {α : Type}

/-- What letters do that stand in one argument: a flag lets the next letter do its part, an option
takes what is attached to it as its value, or else waits for the next argument. -/
def readLetters (g : Grammar α) (a : α) :
    List Char → Except Refusal (α × Option (String → α → Option α))
  | [] => .ok (a, none)
  | c :: cs =>
    match g.short c with
    | none => .error .misuse
    | some (.stop refusal) => .error refusal
    | some (.flag set) =>
      match set a with
      | some a => g.readLetters a cs
      | none => .error .misuse
    | some (.value set) =>
      match cs with
      | [] => .ok (a, some set)
      | '=' :: value => (orMisuse (set (String.ofList value) a)).map (·, none)
      | value => (orMisuse (set (String.ofList value) a)).map (·, none)

/-- What an option does that is written by its name, or the option that waits for a value. -/
def readLong (g : Grammar α) (a : α) (name : String) (attached : Option String) :
    Except Refusal (α × Option (String → α → Option α)) :=
  match g.long name, attached with
  | none, _ => .error .misuse
  | some (.stop refusal), none => .error refusal
  | some (.stop _), some _ => .error .misuse
  | some (.flag set), none => (orMisuse (set a)).map (·, none)
  | some (.flag _), some _ => .error .misuse
  | some (.value set), some value => (orMisuse (set value a)).map (·, none)
  | some (.value set), none => .ok (a, some set)

/-- Reads arguments. Behind two dashes there are no options, and behind the name of a command inside
everything belongs to that command. -/
def read (g : Grammar α) (a : α) : List String → Except Refusal (Given α)
  | [] => .ok (a, none)
  | arg :: rest =>
    if g.subcommands.contains arg then .ok (a, some (arg, rest))
    else if arg = "--" then
      (orMisuse (rest.foldlM (fun a text => g.positional text a) a)).map (·, none)
    else
      let waiting := match Word.ofArgument arg with
        | .plain text => (orMisuse (g.positional text a)).map (·, none)
        | .long name attached => g.readLong a name attached
        | .letters cs => g.readLetters a cs
      match waiting with
      | .error refusal => .error refusal
      | .ok (a, none) => g.read a rest
      | .ok (a, some set) =>
        match rest with
        | [] => .error .misuse
        | value :: rest =>
          if looksLikeOption value then .error .misuse
          else
            match set value a with
            | some a => g.read a rest
            | none => .error .misuse

end Grammar

/-! ### Values -/

def digits? (cs : List Char) : Option Nat :=
  if cs.isEmpty || !cs.all Char.isDigit then none else some (Decimal.valueOf cs)

/-- A natural number below a bound. A plus may stand before it. -/
def natural? (bound : Nat) (text : String) : Option Nat :=
  let digits := match text.toList with
    | '+' :: cs => cs
    | cs => cs
  (digits? digits).filter (· < bound)

/-- A number of 32 bits. Zero may have a minus. -/
def word32? (text : String) : Option Nat :=
  match text.toList with
  | '-' :: cs => (digits? cs).filter (· = 0)
  | _ => natural? Word.bound32 text

/-- The parts of a decimal number: its digits and its exponent. There is a digit before the point
or behind it. -/
def decimalParts? (cs : List Char) : Option (List Char × Int) :=
  let whole := cs.takeWhile Char.isDigit
  let (fraction, rest) := match cs.dropWhile Char.isDigit with
    | '.' :: r => (r.takeWhile Char.isDigit, r.dropWhile Char.isDigit)
    | r => ([], r)
  if whole.isEmpty && fraction.isEmpty then none
  else
    let shift : Int := fraction.length
    let scaled (down : Bool) (ds : List Char) : Option (List Char × Int) :=
      (digits? ds).map fun e => (whole ++ fraction, (if down then -(e : Int) else e) - shift)
    match rest with
    | [] => some (whole ++ fraction, -shift)
    | e :: '+' :: ds => if e = 'e' ∨ e = 'E' then scaled false ds else none
    | e :: '-' :: ds => if e = 'e' ∨ e = 'E' then scaled true ds else none
    | e :: ds => if e = 'e' ∨ e = 'E' then scaled false ds else none

/-- A single. Letter case does not matter in the names of what is no finite number. -/
def single? (text : String) : Option Float32 :=
  let (negative, cs) := match text.toList with
    | '-' :: cs => (true, cs)
    | '+' :: cs => (false, cs)
    | cs => (false, cs)
  let name := String.ofList (cs.map Char.toLower)
  if name = "inf" ∨ name = "infinity" then some (if negative then -1.0 / 0.0 else 1.0 / 0.0)
  else if name = "nan" then some (0.0 / 0.0)
  else (decimalParts? cs).map fun (ds, e) => Decimal.Numeral.toFloat32 ⟨negative, ds, e⟩

end CodeHealth.CommandLine
