import BehaviorTree.Decimal.Reader

namespace BehaviorTree.CommandLine

/-!
# Arguments

The arguments of the command line:

    [-v | --verbose] check FILE [--json]
    [-v | --verbose] run FILE [--ticks N] [--config FILE]
    [-v | --verbose] nodes

Options of a command stand before or after its file, each at most once; `--verbose` stands before or
after the command.  The value of an option is the next argument, or it follows an equals sign.
After `--` every argument is a file.
-/

/-- What the command line can do. -/
inductive Command where
  /-- Shows the structure of a tree. -/
  | check (file : String) (json : Bool)
  /-- Drives a tree, for at most `ticks` ticks if given. -/
  | run (file : String) (ticks : Option Nat) (config : Option String)
  /-- Lists the names of the leaves. -/
  | nodes
deriving DecidableEq, Repr

/-- What the arguments ask for. -/
inductive Request where
  | perform (verbose : Bool) (command : Command)
  | help
  | version
deriving DecidableEq, Repr

/-- The words of the commands. -/
inductive CommandWord where
  | check
  | run
  | nodes
deriving DecidableEq, Repr

/-- The command of a word. -/
def CommandWord.ofSpelling? : String → Option CommandWord
  | "check" => some .check
  | "run" => some .run
  | "nodes" => some .nodes
  | _ => none

/-- What was given after the word of a command. -/
structure Given where
  verbose : Bool := false
  json : Bool := false
  file : Option String := none
  ticks : Option Nat := none
  config : Option String := none

/-- An argument by its looks. -/
inductive Argument where
  /-- The mark after which all arguments are files. -/
  | separator
  /-- An option by its long name, and its value if there is an equals sign. -/
  | long (name : String) (value : Option String)
  /-- Options by their letters. -/
  | letters (cs : List Char)
  /-- Anything else. -/
  | plain (text : String)

/-- How an argument looks. -/
def Argument.ofText (text : String) : Argument :=
  match text.toList with
  | ['-', '-'] => .separator
  | '-' :: '-' :: cs =>
    .long (String.ofList (cs.takeWhile (· ≠ '=')))
      (match cs.dropWhile (· ≠ '=') with
        | [] => none
        | _ :: value => some (String.ofList value))
  | '-' :: c :: cs => .letters (c :: cs)
  | _ => .plain text

/-- An argument as the value of an option before it. -/
def valueOf? (text : String) : Option String :=
  match Argument.ofText text with
  | .plain text => some text
  | _ => none

namespace Given

/-- Takes a file. -/
def takeFile (word : CommandWord) (g : Given) (path : String) : Option Given :=
  if word = .nodes ∨ g.file.isSome ∨ path.isEmpty then none
  else some { g with file := some path }

/-- Takes the switch `--verbose`. -/
def takeVerbose (g : Given) : Option Given :=
  if g.verbose then none else some { g with verbose := true }

/-- Takes the switch `--json`. -/
def takeJson (word : CommandWord) (g : Given) : Option Given :=
  if word ≠ .check ∨ g.json then none else some { g with json := true }

/-- Whether an option of a name has a value. -/
def hasValue (word : CommandWord) (name : String) : Bool :=
  word = .run && (name = "ticks" || name = "config")

/-- Takes an option with its value. -/
def takeOption (g : Given) (name value : String) : Option Given :=
  if name = "ticks" then
    if g.ticks.isSome then none
    else (Decimal.readNat? UInt64.size value.toList).map fun n => { g with ticks := some n }
  else if g.config.isSome ∨ value.isEmpty then none
  else some { g with config := some value }

/-- The command that all arguments make. -/
def command? (g : Given) : CommandWord → Option Command
  | .check => g.file.map (.check · g.json)
  | .run => g.file.map (.run · g.ticks g.config)
  | .nodes => some .nodes

end Given

/-- Switches by their letters: what they make of the arguments, or that one asks for help. -/
def switches (g : Given) : List Char → Option (Given ⊕ Unit)
  | [] => some (.inl g)
  | 'v' :: cs => g.takeVerbose.bind fun g => switches g cs
  | 'h' :: _ => some (.inr ())
  | _ => none

/-- The files that follow the separator. -/
def files (word : CommandWord) (g : Given) (args : List String) : Option Given :=
  args.foldlM (Given.takeFile word) g

/-- The request of a command, `verbose` being given before its word. -/
def afterWord (verbose : Bool) (word : CommandWord) (g : Given) : List String → Option Request
  | [] => (g.command? word).map (.perform (verbose || g.verbose))
  | arg :: args =>
    match Argument.ofText arg with
    | .separator =>
      (files word g args).bind fun g =>
        (g.command? word).map (.perform (verbose || g.verbose))
    | .plain path => (g.takeFile word path).bind fun g => afterWord verbose word g args
    | .letters cs =>
      (switches g cs).bind fun
        | .inl g => afterWord verbose word g args
        | .inr () => some .help
    | .long name (some value) =>
      if Given.hasValue word name then
        (g.takeOption name value).bind fun g => afterWord verbose word g args
      else none
    | .long "help" none => some .help
    | .long "verbose" none => g.takeVerbose.bind fun g => afterWord verbose word g args
    | .long "json" none => (g.takeJson word).bind fun g => afterWord verbose word g args
    | .long name none =>
      if Given.hasValue word name then
        match args with
        | [] => none
        | value :: args =>
          ((valueOf? value).bind (g.takeOption name)).bind fun g =>
            afterWord verbose word g args
      else none

/-- Whether the arguments after `help` name something to be helped with. -/
def isHelpTopic : List String → Bool
  | [] => true
  | [topic] => topic = "help" || (CommandWord.ofSpelling? topic).isSome
  | _ => false

/-- The request of arguments, `verbose` being given before them. -/
def beforeWord (verbose : Bool) : List String → Option Request
  | [] => none
  | arg :: args =>
    match Argument.ofText arg with
    | .plain "help" => if isHelpTopic args then some .help else none
    | .plain word => (CommandWord.ofSpelling? word).bind fun w => afterWord verbose w {} args
    | .letters cs => letters verbose cs args
    | .long "help" none => some .help
    | .long "version" none => some .version
    | .long "verbose" none => if verbose then none else beforeWord true args
    | _ => none
where
  /-- The request of letters and the arguments after them. -/
  letters (verbose : Bool) (cs : List Char) (args : List String) : Option Request :=
    match cs with
    | [] => beforeWord verbose args
    | 'v' :: cs => if verbose then none else letters true cs args
    | 'h' :: _ => some .help
    | 'V' :: _ => some .version
    | _ => none

/-- What arguments ask for, or nothing when they are wrong. -/
def request? (args : List String) : Option Request := beforeWord false args

end BehaviorTree.CommandLine
