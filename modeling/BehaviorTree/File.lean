namespace BehaviorTree

/-!
# Text files

What comes of reading a text file: its text, or why there is none.  A path is a text whose parts
stand between slashes; empty parts and parts that are a point lead nowhere, so `pathBeside` leaves
them out where the directory of a file ends.
-/

/-! ### Contents -/

/-- Why a text file could not be read. -/
inductive FileError where
  /-- There is no file. -/
  | missing
  /-- A part of the path before the last one is no directory. -/
  | notDirectory
  /-- The bytes of the file are not UTF-8. -/
  | notText
  /-- The system gave another reason. -/
  | other (message : String)
deriving DecidableEq, Repr

/-- The wording of a reason. -/
def FileError.message : FileError → String
  | .missing => "No such file or directory (os error 2)"
  | .notDirectory => "Not a directory (os error 20)"
  | .notText => "stream did not contain valid UTF-8"
  | .other message => message

/-- Whether a path leads to something, though its text cannot be read. -/
def FileError.isFound : FileError → Bool
  | .missing => false
  | .notDirectory => false
  | .notText => true
  | .other _ => true

/-- The text that the bytes of a file write. -/
def textOfBytes (bytes : ByteArray) : Except FileError String :=
  match String.fromUTF8? bytes with
  | some s => .ok s
  | none => .error .notText

/-! ### Paths -/

/-- Drops the parts at the end of a path that lead nowhere, with the slashes before them.  The path
    is read from its end, and of a path that begins with a slash at least that is kept. -/
def dropIdleParts : List Char → List Char
  | ['/'] => ['/']
  | '/' :: cs => dropIdleParts cs
  | ['.', '/'] => ['/']
  | '.' :: '/' :: cs => dropIdleParts cs
  | cs => cs

/-- The directory of the file at a path, if the path has a part that leads to one. -/
def directoryOf? (path : String) : Option String :=
  match dropIdleParts path.toList.reverse with
  | [] => none
  | ['/'] => none
  | cs => some (String.ofList (dropIdleParts (cs.dropWhile (· ≠ '/'))).reverse)

/-- The path of a file in the directory of another one. -/
def pathBeside (path name : String) : String :=
  match directoryOf? path with
  | none => "./" ++ name
  | some "" => name
  | some "/" => "/" ++ name
  | some directory => directory ++ "/" ++ name

end BehaviorTree
