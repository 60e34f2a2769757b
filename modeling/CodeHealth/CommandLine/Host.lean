import CodeHealth.Advice.Service
import CodeHealth.CommandLine.Ansi
import CodeHealth.Instant
import CodeHealth.Project.UserSettings

/-!
What a command works with. A world is what it finds when it starts; a host does for it what cannot
be settled beforehand, in some kind of computation; an outcome is what it leaves.
-/

namespace CodeHealth.CommandLine

structure World where
  files : FileSystem
  environment : Environment
  now : Instant
  /-- Whether the output goes to a terminal. -/
  terminal : Bool

namespace World

/-- Whether a variable is set to something other than zero, or else a default. -/
def switch (w : World) (name : String) (default : Bool) : Bool :=
  ((w.environment name).map (· != "0")).getD default

/-- Whether there are colours: on a terminal unless they are switched off, and wherever they are
forced. -/
def colours (w : World) : Bool :=
  (w.terminal && w.switch "CLICOLOR" true && (w.environment "NO_COLOR").isNone) ||
    w.switch "CLICOLOR_FORCE" false

def paint (w : World) (style : Ansi.Style) (text : String) : String :=
  Ansi.paint w.colours style text

end World

structure Host (m : Type → Type) where
  /-- A service that is asked with a key. -/
  service : Advice.Backend → String → Advice.Service m
  /-- Writes a text to the file that a path leads to, or says why it cannot. -/
  save : Path → String → m (Option FileFault)

/-- What a command leaves: what it says, what it says of faults, and its exit code. -/
structure Outcome where
  output : String
  errors : String
  exitCode : Nat
deriving DecidableEq, Repr, Inhabited

/-- What keeps a command from its work, and why. -/
structure Obstacle where
  message : String
  cause : Option String
deriving DecidableEq, Repr

def moveIn (text : String) : String :=
  "\n".intercalate (((text.toList.splitOn '\n').map String.ofList).map ("    " ++ ·))

def Obstacle.text (o : Obstacle) : String :=
  "Error: " ++ o.message ++
    (match o.cause with
      | some cause => "\n\nCaused by:\n" ++ moveIn cause
      | none => "") ++ "\n"

namespace Outcome

/-- A command that has said what it had to say. -/
def done (output : String) : Outcome := ⟨output, "", 0⟩

def blocked (o : Obstacle) : Outcome := ⟨"", o.text, 1⟩

end Outcome

end CodeHealth.CommandLine
