import CodeHealth.Advice.Exchange
import CodeHealth.CommandLine.Run
import CodeHealth.CommandLine.Sight
import Std.Async.TCP
import Std.Async.Timer
import Std.Time.DateTime.Timestamp

/-!
The program on a machine: it gathers what the command has to see, runs the command, and prints what
the command leaves.
-/

namespace CodeHealth.Machine

/-! ### Files -/

/-- What stands at a path of the machine, links followed. -/
def kindAt (path : String) : IO (Option IO.FS.FileType) := do
  try
    pure (some (← ((← IO.currentDir) / path).metadata).type)
  catch _ => pure none

/-- A tree with what stands at a place of the machine. -/
def look (tree : FileTree) (place : List String) : IO FileTree := do
  let path := (FileSystem.absolute place).text
  match ← kindAt path with
  | some .dir => pure (tree.addDirectory place)
  | some .file =>
    try
      pure (tree.addFile place (← IO.FS.readBinFile path))
    catch _ => pure tree
  | _ => pure tree

/-- A tree with what stands at a place and on the way there. -/
def lookAlong (tree : FileTree) (place : List String) : IO FileTree :=
  (CommandLine.Sight.along place).foldlM look tree

/-- The greatest depth of directories that paths can be written for. -/
def maxDepth : Nat := 2048

/-- A tree with everything at and below a place that matters to an analysis. Links to scripts and
to directories are passed by. -/
def lookBelow : Nat → FileTree → List String → IO FileTree
  | 0, tree, _ => pure tree
  | depth + 1, tree, place => do
    let path := (FileSystem.absolute place).text
    let entries ← try ((← IO.currentDir) / path).readDir catch _ => pure #[]
    let tree ← look tree (place ++ [".git", "info", "exclude"])
    entries.foldlM (fun tree entry => do
      let inner := place ++ [entry.fileName]
      let kind ← try pure (some (← entry.path.symlinkMetadata).type) catch _ => pure none
      match kind with
      | some .dir =>
        let tree := tree.addDirectory inner
        if Discovery.excludedDirectories.contains entry.fileName then pure tree
        else lookBelow depth tree inner
      | some .file =>
        if CommandLine.Sight.isSetting entry.fileName || Discovery.isSource entry.fileName then
          look tree inner
        else pure tree
      | some .symlink =>
        if CommandLine.Sight.isSetting entry.fileName then look tree inner else pure tree
      | _ => pure tree) tree

/-- The files of the machine, as far as they have to be seen. -/
def filesFor (current : List String) (sight : CommandLine.Sight) : IO FileSystem := do
  let tree ← match sight.project with
    | some root => lookBelow maxDepth .empty root
    | none => pure .empty
  pure ⟨← sight.places.foldlM lookAlong tree, current⟩

def save (p : Path) (text : String) : IO (Option FileFault) := do
  try
    IO.FS.writeFile p.text text
    pure none
  catch
    | .noFileOrDirectory .. => pure (some .missing)
    | .inappropriateType _ 20 _ => pure (some .notDirectory)
    | .inappropriateType _ 21 _ => pure (some .isDirectory)
    | other => throw other

/-! ### Services -/

open Std.Async in
/-- The bytes that come over a connection until it ends. -/
def receive (connection : TCP.Socket.Client) : Nat → ByteArray → Async ByteArray
  | 0, got => pure got
  | left + 1, got => do
    match ← connection.recv? 65536 with
    | some more => receive connection left (got ++ more)
    | none => pure got

/-- The greatest number of pieces that a reply is taken in. -/
def maxPieces : Nat := 1000000

open Std.Async in
/-- One exchange with the service that runs on this machine. -/
def exchange (request : Advice.Request) : Async Advice.Outcome := do
  let connection ← TCP.Socket.Client.mk
  connection.connect (.v4 ⟨.ofParts 127 0 0 1, 11434⟩)
  connection.send (request.toHttp.bytes "localhost:11434" "/v1/chat/completions")
  pure (Advice.HttpReply.outcomeOfBytes (← receive connection maxPieces .empty))

open Std.Async in
/-- What an exchange comes to if it does not last too long. -/
def ask (request : Advice.Request) : IO Advice.Outcome := do
  let late : Async Advice.Outcome := do
    let sleep ← Sleep.mk (Std.Time.Millisecond.Offset.ofNat (request.timeoutSeconds * 1000))
    sleep.wait
    pure (.error (.timeout request.timeoutSeconds))
  try
    (Async.race (exchange request) late).block
  catch e => pure (.error (.other 0 ("connection failed: " ++ toString e)))

/-- The service on this machine; the others take requests over secured connections alone. -/
def service (backend : Advice.Backend) (_key : String) : Advice.Service IO where
  ask request :=
    if backend = .ollama then ask request
    else pure (.error (.other 0 (backend.url ++ " takes secured connections only")))
  wait milliseconds := IO.sleep milliseconds.toUInt32

/-! ### The program -/

/-- The variables that settle what the program does. -/
def environment : IO Environment := do
  let said ← CommandLine.variableNames.filterMapM fun name => do
    pure ((← IO.getEnv name).map fun value => (name, value))
  pure fun name => said.lookup name

def now : IO Instant := do
  let nanos := (← Std.Time.Timestamp.now).toNanosecondsSinceUnixEpoch.toInt
  pure ⟨nanos / 1000000000, (nanos % 1000000000).toNat⟩

/-- Runs the program with the arguments that it was given. -/
def run (args : List String) : IO UInt32 := do
  let current := (CodeHealth.Path.mk (← IO.currentDir).toString).placeFrom []
  let environment ← environment
  let files ← filesFor current (.ofArgs current environment args)
  let output ← IO.getStdout
  let world : CommandLine.World := ⟨files, environment, ← now, ← output.isTty⟩
  let outcome ← CommandLine.run ⟨service, save⟩ world args
  output.putStr outcome.output
  output.flush
  (← IO.getStderr).putStr outcome.errors
  pure outcome.exitCode.toUInt32

end CodeHealth.Machine

def main (args : List String) : IO UInt32 := CodeHealth.Machine.run args
