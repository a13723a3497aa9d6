import BehaviorTree.Blackboard
import BehaviorTree.File
import BehaviorTree.Yaml.Reader

namespace BehaviorTree

/-!
# The configuration of a run

How long a run goes on, how fast, and what its blackboard starts with.  A configuration is written
as a YAML map; a field that is missing has its default, and a field of another name is passed over.

A configuration file is named for a run, or stands beside the tree file; only the latter may be
missing.
-/

/-- A scalar that a blackboard starts with. -/
inductive Seed where
  | flag (b : Bool)
  | integer (n : Int64)
  | real (x : Float)
  | text (s : String)

/-- The value of a scalar on a blackboard. -/
def Seed.value : Seed → Value
  | .flag b => .flag b
  | .integer n => .integer n
  | .real x => .real x
  | .text s => .text s

/-- The configuration of a run. -/
structure Configuration where
  /-- The run ends after this many ticks. -/
  maxTicks : UInt64 := 100
  /-- The pause after each tick, in milliseconds. -/
  tickInterval : UInt64 := 0
  /-- Whether the run ends when the root succeeds or fails. -/
  stopOnTerminal : Bool := true
  blackboard : Dict Seed := .empty

/-! ### From YAML -/

/-- The scalar that a YAML value is.  An integer above the signed words of 64 bits becomes a double
    while it is an unsigned word, and is refused otherwise. -/
def Seed.ofYaml? (y : Yaml) : Option Seed :=
  (y.scalar?.bind (·.atom?)).bind fun
    | .null => none
    | .flag b => some (.flag b)
    | .integer n =>
      if Int64.minValue.toInt ≤ n ∧ n ≤ Int64.maxValue.toInt then some (.integer (Int64.ofInt n))
      else if 0 ≤ n ∧ n < UInt64.size then some (.real (Decimal.ofInt n))
      else none
    | .real x => some (.real x)
    | .text s => some (.text s)

namespace Configuration

/-- The value of a field that stands at most once among the entries of a map. -/
def field {α : Type} (entries : List (String × Yaml)) (key : String) (default : α)
    (read : Yaml → Option α) : Option α :=
  match entries.filter (·.1 = key) with
  | [] => some default
  | [(_, y)] => read y
  | _ => none

/-- An unsigned word of 64 bits. -/
def word? (y : Yaml) : Option UInt64 :=
  (y.scalar?.bind (·.natural? UInt64.size)).map UInt64.ofNat

/-- What a blackboard starts with.  The last entry of a key counts, but all have to be right. -/
def seeds? (y : Yaml) : Option (Dict Seed) :=
  y.entries?.bind fun entries =>
    entries.foldlM (fun d e => (Seed.ofYaml? e.2).map (d.insert e.1)) .empty

/-- The configuration that a YAML value is. -/
def ofYaml? (y : Yaml) : Option Configuration := do
  let entries ← y.entries?
  let maxTicks ← field entries "max_ticks" 100 word?
  let tickInterval ← field entries "tick_interval_ms" 0 word?
  let stopOnTerminal ← field entries "stop_on_terminal" true (·.scalar?.bind Yaml.Scalar.flag?)
  let blackboard ← field entries "blackboard" .empty seeds?
  return { maxTicks, tickInterval, stopOnTerminal, blackboard }

/-- Whether all fields have their defaults. -/
def isDefault (c : Configuration) : Bool :=
  c.maxTicks = 100 && c.tickInterval = 0 && c.stopOnTerminal && c.blackboard.isEmpty

/-- Puts on a blackboard what it starts with. -/
def seed (c : Configuration) (bb : Blackboard) : Blackboard :=
  c.blackboard.entries.foldl (fun bb e => bb.insert e.1 e.2.value) bb

/-! ### Files -/

/-- Why a configuration was not read. -/
inductive Error where
  | unreadable (path : String) (cause : FileError)
  | malformed (path : String)
deriving DecidableEq, Repr

/-- The wording of an error. -/
def Error.message : Error → String
  | .unreadable path _ => "Failed to read config from " ++ path
  | .malformed path => "Failed to parse config from " ++ path

/-- The wording of what an error comes from. -/
def Error.causes : Error → List String
  | .unreadable _ cause => [cause.message]
  | .malformed _ => ["not a run configuration"]

/-- Where the configuration of a run is looked for. -/
inductive Place where
  /-- In a file that was named. -/
  | named (path : String)
  /-- In a file beside the tree file, which may be missing. -/
  | beside (path : String)
deriving DecidableEq, Repr

/-- The name of a configuration file beside a tree file. -/
def fileName : String := "grove.yaml"

/-- Where to look for the configuration of a tree file. -/
def place (tree : String) : Option String → Place
  | some path => .named path
  | none => .beside (pathBeside tree fileName)

/-- The path of a place. -/
def Place.path : Place → String
  | .named path => path
  | .beside path => path

/-- Reads the configuration in a file, whose text was found or not. -/
def read (path : String) : Except FileError String → Except Error Configuration
  | .error cause => .error (.unreadable path cause)
  | .ok source =>
    match (Yaml.read? source).bind ofYaml? with
    | some c => .ok c
    | none => .error (.malformed path)

/-- The configuration at a place, given what came of reading the file there, and the events of
    finding it. -/
def find (p : Place) (content : Except FileError String) :
    Except Error Configuration × List Event :=
  match p, content with
  | .named path, content => (read path content, [])
  | .beside path, .ok source => (read path (.ok source), [.configurationFound path])
  | .beside path, .error cause =>
    if cause.isFound then (read path (.error cause), [.configurationFound path]) else (.ok {}, [])

end Configuration

end BehaviorTree
