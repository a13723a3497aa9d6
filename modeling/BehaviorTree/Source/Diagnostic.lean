import BehaviorTree.Log.Record
import BehaviorTree.Source.Token

namespace BehaviorTree.Source

/-!
# What can be wrong with a tree file

Each fault is a constructor, and `Fault.message` holds the wording.  A `Diagnostic` says where a
fault was found; a `Failure` is a fault for which there is no tree at all.
-/

/-- What is wrong at some place of a tree file. -/
inductive Fault where
  /-- There is no tree in the file. -/
  | treeMissing
  | treeNameMissing
  | treeBraceMissing (tree : String)
  | treeEmpty (tree : String)
  | rootInvalid (tree : String)
  | treeOpen (tree : String)
  | wordUnknown (word : String)
  | wordExpected (found : TokenKind)
  | nameMissing (word : NodeWord)
  | braceMissing
  | inputEnded
  | unexpected (found : TokenKind)
  | valueMissing (key : String)
  | numberMalformed (key : String) (text : String)
  | valueExpected (key : String) (found : TokenKind)
  | unregistered (kind : LeafKind) (name : String)
  | childRefused (name : String)
  /-- The file could not be read. -/
  | unreadable (path : String) (cause : String)
deriving DecidableEq, Repr

/-- A text between single quotes. -/
def inQuotes (s : String) : String := "'" ++ s ++ "'"

/-- The wording of a fault. -/
def Fault.message : Fault → String
  | .treeMissing => "no `tree` declaration found"
  | .treeNameMissing => "expected a tree name after `tree`"
  | .treeBraceMissing tree => "expected `\x7b` after tree " ++ inQuotes tree
  | .treeEmpty tree => "tree " ++ inQuotes tree ++ " is empty"
  | .rootInvalid tree => "tree " ++ inQuotes tree ++ " has no valid root node"
  | .treeOpen tree => "expected `\x7d` to close tree " ++ inQuotes tree
  | .wordUnknown word => "unknown node type " ++ inQuotes word
  | .wordExpected found => "expected a node type, found " ++ found.describe
  | .nameMissing word => "expected a name after `" ++ word.spelling ++ "`"
  | .braceMissing => "expected `\x7b`"
  | .inputEnded => "unexpected end of input, missing `\x7d`"
  | .unexpected found => "unexpected " ++ found.describe
  | .valueMissing key => "property " ++ inQuotes key ++ " has no value"
  | .numberMalformed key text =>
    "property " ++ inQuotes key ++ " has malformed number " ++ inQuotes text
  | .valueExpected key found =>
    "property " ++ inQuotes key ++ " expects a value, found " ++ found.describe
  | .unregistered kind name => "no " ++ kind.word ++ " registered under " ++ inQuotes name
  | .childRefused name => "cannot take child " ++ inQuotes name ++ ", dropping it"
  | .unreadable path cause => "cannot read " ++ path ++ ": " ++ cause

/-- A fault with the line and the node it was found at, where known. -/
structure Diagnostic where
  fault : Fault
  line : Option Nat := none
  node : Option String := none
deriving DecidableEq, Repr

/-- The category of the records about tree files. -/
def category : String := "dsl.parse"

/-- A diagnostic as a log record. -/
def Diagnostic.record (d : Diagnostic) : Log.Record where
  level := .error
  category := category
  node := d.node
  line := d.line
  message := d.fault.message

/-- Why a tree file gave no tree. -/
inductive Failure where
  /-- There is no tree in the file. -/
  | treeMissing
  /-- The tree is wrong, at a line. -/
  | malformed (line : Nat) (fault : Fault)
  /-- The file could not be read. -/
  | unreadable (path : String) (cause : String)
deriving DecidableEq, Repr

/-- The wording of a failure. -/
def Failure.message : Failure → String
  | .treeMissing => Fault.treeMissing.message
  | .malformed line fault => "line " ++ toString line ++ ": " ++ fault.message
  | .unreadable path _ => "failed to read " ++ path

/-- The wording of what a failure comes from, outermost first. -/
def Failure.causes : Failure → List String
  | .unreadable _ cause => [cause]
  | _ => []

/-- The diagnostic of a failure. -/
def Failure.diagnostic : Failure → Diagnostic
  | .treeMissing => { fault := .treeMissing }
  | .malformed line fault => { fault, line := some line }
  | .unreadable path cause => { fault := .unreadable path cause }

end BehaviorTree.Source
