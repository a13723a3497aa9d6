import BehaviorTree.Kind
import BehaviorTree.Status
import BehaviorTree.Text.Quoted
import BehaviorTree.Value

namespace BehaviorTree

/-!
# Diagnostic events

What the library tells about itself beside the records of a tree: a level, a message and named
fields.  Each event is a constructor, and `level`, `message` and `fields` give its parts.
-/

/-- A diagnostic event. -/
inductive Event where
  /-- A record that went to the diagnostics. -/
  | record (r : Log.Record)
  /-- A reader found another type under a key than it asked for. -/
  | typeMismatch (key : String) (requested : ValueType)
  /-- A root ended its run on a tick. -/
  | treeFinished (tick : Nat) (status : Status) (root : String)
  /-- A tree file was read, with this many problems. -/
  | treeParsed (tree : String) (errors : Nat)
  /-- A leaf factory took the place of another. -/
  | factoryReplaced (kind : LeafKind) (name : String)
  /-- A node factory took the place of another. -/
  | nodeFactoryReplaced (name : String)
  /-- A run configuration was found beside the tree file. -/
  | configurationFound (path : String)
  /-- A run starts. -/
  | runStarted (path : String) (maxTicks : Nat)
  /-- A tick of a run was answered. -/
  | ticked (ticks : Nat) (status : Status)
  /-- A run is over. -/
  | runFinished (ticks : Nat) (status : Status)

namespace Event

/-- The text of a field: quoted where it can be any text, bare otherwise. -/
inductive Field where
  | quoted (s : String)
  | bare (s : String)
deriving DecidableEq, Repr

/-- The text of a field as it is. -/
def Field.text : Field → String
  | .quoted s => s
  | .bare s => s

/-- The text of a field in a log line. -/
def Field.shown : Field → String
  | .quoted s => Text.quote s
  | .bare s => s

/-- The type that a reader asked for, as the event names it. -/
def typeName : ValueType → String
  | .text => "alloc::string::String"
  | .real => "f64"
  | .integer => "i64"
  | .word => "u32"
  | .flag => "bool"
  | .history => "history"
  | .sink => "sink"
  | .reference _ => "reference"

/-- The level of an event. -/
def level : Event → Log.Level
  | .record r => r.level
  | .runStarted .. | .runFinished .. => .info
  | _ => .debug

/-- The message of an event. -/
def message : Event → String
  | .record r => r.message
  | .typeMismatch .. => "blackboard type mismatch"
  | .treeFinished .. => "tree finished"
  | .treeParsed .. => "parsed behavior tree"
  | .factoryReplaced .. => "replaced registered factory"
  | .nodeFactoryReplaced .. => "replaced registered node factory"
  | .configurationFound .. => "using run configuration"
  | .runStarted .. => "Starting run"
  | .ticked .. => "tick"
  | .runFinished .. => "Run finished"

/-- The fields of an event, in their order. -/
def fields : Event → List (String × Field)
  | .record r =>
    [("category", .quoted r.category), ("node", .quoted (r.node.getD "-")),
     ("line", .bare (toString (r.line.getD 0)))]
  | .typeMismatch key requested =>
    [("key", .quoted key), ("requested", .quoted (typeName requested))]
  | .treeFinished tick status root =>
    [("tick", .bare (toString tick)), ("status", .bare status.name), ("root", .quoted root)]
  | .treeParsed tree errors => [("tree", .bare tree), ("errors", .bare (toString errors))]
  | .factoryReplaced kind name => [("kind", .quoted kind.name), ("name", .bare name)]
  | .nodeFactoryReplaced name => [("name", .bare name)]
  | .configurationFound path => [("config", .bare path)]
  | .runStarted path maxTicks => [("tree", .bare path), ("max_ticks", .bare (toString maxTicks))]
  | .ticked ticks status => [("tick", .bare (toString ticks)), ("status", .bare status.name)]
  | .runFinished ticks status =>
    [("ticks", .bare (toString ticks)), ("status", .bare status.name)]

/-- A character of a message in a log line: a character on which a terminal would act is written
    as its code. -/
def messageChar (c : Char) : List Char :=
  let n := c.toNat
  if n = 0x1B ∨ n = 0x07 ∨ n = 0x08 ∨ n = 0x0C ∨ n = 0x7F then
    ['\\', 'x', Text.hexDigit (n / 16), Text.hexDigit (n % 16)]
  else if 0x80 ≤ n ∧ n ≤ 0x9F then ['\\', 'u', '{'] ++ Text.hexadecimal n ++ ['}']
  else [c]

/-- An event as a log line. -/
def logLine (e : Event) : String :=
  let message := String.ofList (e.message.toList.flatMap messageChar)
  " ".intercalate
    (e.level.capitals :: message :: e.fields.map fun f => f.1 ++ "=" ++ f.2.shown)

end Event

end BehaviorTree
