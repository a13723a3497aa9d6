namespace BehaviorTree.Log

/-!
# Log records

One diagnostic message, with its level, its category and what it is about.
-/

/-- How grave a message is. -/
inductive Level where
  | trace
  | debug
  | info
  | warn
  | error
deriving DecidableEq, Repr

namespace Level

/-- The levels by gravity. -/
def rank : Level → Nat
  | .trace => 0
  | .debug => 1
  | .info => 2
  | .warn => 3
  | .error => 4

instance : Ord Level := ⟨fun a b => compare a.rank b.rank⟩

/-- The name of a level. -/
def name : Level → String
  | .trace => "Trace"
  | .debug => "Debug"
  | .info => "Info"
  | .warn => "Warn"
  | .error => "Error"

/-- The name of a level at the start of a log line. -/
def capitals : Level → String
  | .trace => "TRACE"
  | .debug => "DEBUG"
  | .info => "INFO"
  | .warn => "WARN"
  | .error => "ERROR"

/-- The level with exactly this name. -/
def ofName? : String → Option Level
  | "Trace" => some .trace
  | "Debug" => some .debug
  | "Info" => some .info
  | "Warn" => some .warn
  | "Error" => some .error
  | _ => none

/-- The level that a word means, in any letter case; a warning has two words. -/
def ofWord? (word : String) : Option Level :=
  match String.ofList (word.toList.map Char.toLower) with
  | "trace" => some .trace
  | "debug" => some .debug
  | "info" => some .info
  | "warn" => some .warn
  | "warning" => some .warn
  | "error" => some .error
  | _ => none

@[simp]
theorem ofName?_name (l : Level) : ofName? l.name = some l := by cases l <;> rfl

end Level

/-- One diagnostic message. -/
structure Record where
  level : Level
  /-- The part of the program that speaks. -/
  category : String
  /-- The name of the node the message is about. -/
  node : Option String
  /-- The line of the tree file the message is about. -/
  line : Option Nat
  message : String
deriving DecidableEq, Repr

/-- A record as one line of text: category, line and node where known, and the message. -/
def Record.text (r : Record) : String :=
  let line := match r.line with
    | some n => " line " ++ toString n ++ ":"
    | none => ""
  let node := match r.node with
    | some name => " (" ++ name ++ ")"
    | none => ""
  "[" ++ r.category ++ "]" ++ line ++ node ++ " " ++ r.message

end BehaviorTree.Log
