import BehaviorTree.Decimal.Reader
import BehaviorTree.Json.Reader
import BehaviorTree.Log.History
import BehaviorTree.PropertyValue
import BehaviorTree.Status

namespace BehaviorTree

/-!
# JSON forms of the library's data

How answers, property values, log records and histories are written as JSON and read back.

* An answer or a level is its name; an object with the name as its only key, over null, reads as the
  same.
* A record or a history is an object of its fields, of which unknown ones are ignored and none may
  stand twice; the list of its fields in order reads as the same.
-/

namespace Json

/-- The name that a value of an enumeration is written with. -/
def name? : Json → Option String
  | .text s => some s
  | .object [(k, .null)] => some k
  | _ => none

/-- The text of a value. -/
def text? : Json → Option String
  | .text s => some s
  | _ => none

/-- The natural number of a value that is a word of 64 bits and is written in digits alone. -/
def natural? : Json → Option Nat
  | .number lexeme => Decimal.readNat? UInt64.size lexeme
  | _ => none

/-- The finite double nearest to the number of a value. -/
def real? : Json → Option Float
  | .number lexeme => (Decimal.readFloat? lexeme).filter Decimal.isFinite
  | _ => none

/-- What `read` makes of a value, or nothing for null. -/
def optional? {α : Type} (read : Json → Option α) : Json → Option (Option α)
  | .null => some none
  | j => (read j).map some

/-- The member of an object under a key: nothing at all when it stands there twice. -/
def member? (members : List (String × Json)) (key : String) : Option (Option Json) :=
  match members.filter (·.1 = key) with
  | [] => some none
  | [m] => some (some m.2)
  | _ => none

/-- A member that has to be there. -/
def required? {α : Type} (members : List (String × Json)) (key : String)
    (read : Json → Option α) : Option α :=
  (member? members key).bind (·.bind read)

/-- A member that may be missing or null. -/
def lenient? {α : Type} (members : List (String × Json)) (key : String)
    (read : Json → Option α) : Option (Option α) :=
  (member? members key).bind fun
    | some j => optional? read j
    | none => some none

end Json

/-! ### Answers and property values -/

/-- An answer as JSON. -/
def Status.toJson (s : Status) : Json := .text s.name

/-- The answer that a JSON value stands for. -/
def Status.ofJson? (j : Json) : Option Status := j.name?.bind Status.ofName?

/-- A property value as JSON. -/
def PropertyValue.toJson : PropertyValue → Json
  | .number x => .ofFloat x
  | .text s => .text s

/-- The property value that a JSON value stands for. -/
def PropertyValue.ofJson? (j : Json) : Option PropertyValue :=
  match j.text? with
  | some s => some (.text s)
  | none => j.real?.map .number

/-! ### Records and histories -/

namespace Log

/-- The level that a JSON value stands for. -/
def Level.ofJson? (j : Json) : Option Level := j.name?.bind Level.ofName?

/-- A record as JSON. -/
def Record.toJson (r : Record) : Json :=
  .object
    [("level", .text r.level.name), ("category", .text r.category),
     ("node", .ofOption .text r.node), ("line", .ofOption .ofNat r.line),
     ("message", .text r.message)]

/-- The record that a JSON value stands for. -/
def Record.ofJson? : Json → Option Record
  | .object members => do
    let level ← Json.required? members "level" Level.ofJson?
    let category ← Json.required? members "category" Json.text?
    let node ← Json.lenient? members "node" Json.text?
    let line ← Json.lenient? members "line" Json.natural?
    let message ← Json.required? members "message" Json.text?
    return { level, category, node, line, message }
  | .list [level, category, node, line, message] => do
    let level ← Level.ofJson? level
    let category ← category.text?
    let node ← Json.optional? Json.text? node
    let line ← Json.optional? Json.natural? line
    let message ← message.text?
    return { level, category, node, line, message }
  | _ => none

/-- The records that a JSON list stands for. -/
def recordsOfJson? : Json → Option (List Record)
  | .list items => items.mapM Record.ofJson?
  | _ => none

/-- A history as JSON. -/
def History.toJson (h : History) : Json :=
  let capacity := match h.capacity with
    | some c => [("capacity", Json.ofNat c)]
    | none => []
  .object (("records", .list (h.records.map Record.toJson)) :: capacity)

/-- The history that a JSON value stands for. -/
def History.ofJson? : Json → Option History
  | .object members => do
    let records ← Json.required? members "records" recordsOfJson?
    let capacity ← Json.lenient? members "capacity" Json.natural?
    return { records, capacity }
  | .list [records] => do
    let records ← recordsOfJson? records
    return { records, capacity := none }
  | .list [records, capacity] => do
    let records ← recordsOfJson? records
    let capacity ← Json.optional? Json.natural? capacity
    return { records, capacity }
  | _ => none

end Log

end BehaviorTree
