import BehaviorTree.CommandLine.Arguments
import BehaviorTree.Configuration
import BehaviorTree.Runner
import BehaviorTree.Snapshot.Json
import BehaviorTree.Snapshot.Outline
import BehaviorTree.Source.Tree

namespace BehaviorTree.CommandLine

/-!
# Performing a command

What the command line does, written over the operations of a `Terminal`, so that it can run on the
system as well as on files and clocks that are given as values.  `perform` answers the exit code: 0
when all went well, 1 when the command failed, and 2 when the arguments were wrong.
-/

/-- What a command needs of the system it runs on. -/
structure Terminal (m : Type → Type) where
  /-- Reads a text file. -/
  contents : String → m (Except FileError String)
  /-- The seconds that have passed since some moment. -/
  clock : m Float
  /-- Waits for some milliseconds. -/
  pause : UInt64 → m Unit
  /-- Writes a text to the output. -/
  print : String → m Unit
  /-- Writes an event to the log. -/
  log : Event → m Unit
  /-- Writes a text to the errors. -/
  complain : String → m Unit

/-- Why a command failed: its own words, and those of what it comes from, outermost first. -/
structure Failure where
  message : String
  causes : List String

/-- A text with `margin` before its first line, and blanks of its width before the others. -/
def indented (margin s : String) : String :=
  let lineBreak := '\n' :: List.replicate margin.length ' '
  margin ++ String.ofList (s.toList.flatMap fun c => if c = '\n' then lineBreak else [c])

/-- Numbered texts, from `n` on. -/
def numbered (n : Nat) : List String → List String
  | [] => []
  | s :: ss => indented ("    " ++ toString n ++ ": ") s :: numbered (n + 1) ss

/-- The text of a failure.  Several causes are numbered. -/
def Failure.report (f : Failure) : String :=
  let causes := match f.causes with
    | [] => []
    | [cause] => ["", "Caused by:", indented "    " cause]
    | causes => "" :: "Caused by:" :: numbered 0 causes
  String.join ((("Error: " ++ f.message) :: causes).map (· ++ "\n"))

/-- Whether events of a level are logged. -/
def isShown (verbose : Bool) : Log.Level → Bool
  | .trace => false
  | .debug => verbose
  | _ => true

variable {m : Type → Type} [Monad m]

namespace Terminal

/-- Writes a line to the output. -/
def printLine (t : Terminal m) (line : String) : m Unit := t.print (line ++ "\n")

/-- Logs the events that are shown. -/
def tell (t : Terminal m) (verbose : Bool) (events : List Event) : m Unit :=
  (events.filter (isShown verbose ·.level)).forM t.log

/-- Ends a command with a failure. -/
def fail (t : Terminal m) (f : Failure) : m UInt32 := do
  t.complain f.report
  return 1

end Terminal

/-- The leaves that tree files can use: those of the library. -/
def registry : Registry Builtin Unit := .withBuiltins id

/-- Reads the tree in a file. -/
def readTree (t : Terminal m) (verbose : Bool) (path : String) :
    m (Except Failure (Node Builtin)) := do
  let p := Source.readContent registry path (← t.contents path) ⟨1, ()⟩
  t.tell verbose (p.diagnostics.map (.record ·.record))
  t.tell verbose p.events
  return p.result.mapError fun e => ⟨"Failed to parse " ++ path, e.message :: e.causes⟩

/-- Shows the structure of the tree in a file. -/
def check (t : Terminal m) (verbose json : Bool) (path : String) : m UInt32 := do
  match ← readTree t verbose path with
  | .error f => t.fail f
  | .ok root =>
    let s := Snapshot.ofNode root
    if json then t.printLine (s.toJson.indented 0)
    else
      t.print s.outline
      t.printLine ""
      t.printLine (toString s.count ++ " nodes")
    return 0

/-- Lists the names of leaves and nodes. -/
def listNodes (t : Terminal m) : m UInt32 := do
  let list := fun (title : String) (names : List String) =>
    (title :: names.map ("  " ++ ·)).forM t.printLine
  list "Actions:" (registry.names .action)
  t.printLine ""
  list "Conditions:" (registry.names .condition)
  if !registry.nodeNames.isEmpty then
    t.printLine ""
    list "Nodes:" registry.nodeNames
  return 0

/-- Ticks a tree, at most this many times. -/
def drive (t : Terminal m) (verbose : Bool) (c : Configuration) :
    Nat → Runner Builtin → World Unit → m (Runner Builtin)
  | 0, runner, _ => return runner
  | n + 1, runner, w => do
    let (runner, w) := runner.tick (← t.clock) w
    t.tell verbose w.events
    t.tell verbose [.ticked runner.ticks runner.last]
    if c.stopOnTerminal && runner.last.isTerminal then return runner
    if c.tickInterval ≠ 0 then t.pause c.tickInterval
    drive t verbose c n runner { w with events := [] }

/-- Drives the tree in a file. -/
def run (t : Terminal m) (verbose : Bool) (path : String) (ticks : Option Nat)
    (config : Option String) : m UInt32 := do
  let place := Configuration.place path config
  let (found, events) := Configuration.find place (← t.contents place.path)
  t.tell verbose events
  match found with
  | .error e => t.fail ⟨e.message, e.causes⟩
  | .ok c =>
    match ← readTree t verbose path with
    | .error f => t.fail f
    | .ok root =>
      let maxTicks := ticks.getD c.maxTicks.toNat
      t.tell verbose [.runStarted path maxTicks]
      let w : World Unit := .start ()
      let runner ← drive t verbose c maxTicks { root } { w with blackboard := c.seed w.blackboard }
      t.tell verbose [.runFinished runner.ticks runner.last]
      t.printLine (runner.last.name ++ " after " ++ toString runner.ticks ++ " ticks")
      return 0

/-- How the command line is used. -/
def usage : String :=
  String.join
    (["Parse, inspect and run behavior trees",
      "",
      "Usage: grove [-v | --verbose] COMMAND",
      "",
      "Commands:",
      "  check FILE [--json]                   Parse a tree file and print its structure",
      "  run FILE [--ticks N] [--config FILE]  Run a tree with the built-in leaves",
      "  nodes                                 List registered action and condition names"].map
      (· ++ "\n"))

/-- Does what arguments ask for. -/
def perform (t : Terminal m) (args : List String) : m UInt32 := do
  match request? args with
  | none =>
    t.complain usage
    return 2
  | some .help =>
    t.print usage
    return 0
  | some .version =>
    t.printLine "grove 0.1.0"
    return 0
  | some (.perform verbose (.check file json)) => check t verbose json file
  | some (.perform verbose (.run file ticks config)) => run t verbose file ticks config
  | some (.perform _ .nodes) => listNodes t

end BehaviorTree.CommandLine
