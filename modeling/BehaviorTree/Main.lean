import BehaviorTree.CommandLine.Perform

/-!
# The command line

Runs a command on the files and the clock of the system.
-/

open BehaviorTree

/-- A reason of the system with its number. -/
def reason (details : String) (code : UInt32) : FileError :=
  if code = 20 then .notDirectory
  else .other (details ++ " (os error " ++ toString code.toNat ++ ")")

/-- Why the system gave no text. -/
def fileErrorOf : IO.Error → FileError
  | .noFileOrDirectory .. => .missing
  | .permissionDenied _ code details => reason details code
  | .inappropriateType _ code details => reason details code
  | .otherError code details => reason details code
  | e => .other (toString e)

/-- The system as a terminal whose clock starts at `start`, in nanoseconds. -/
def systemTerminal (start : Nat) : CommandLine.Terminal IO where
  contents path := do
    try
      return textOfBytes (← IO.FS.readBinFile path)
    catch e => return .error (fileErrorOf e)
  clock := return ((← IO.monoNanosNow) - start).toFloat / 1000000000.0
  pause milliseconds := IO.sleep (min milliseconds 0xFFFFFFFF).toUInt32
  print := IO.print
  log e := IO.println e.logLine
  complain := IO.eprint

def main (args : List String) : IO UInt32 := do
  CommandLine.perform (systemTerminal (← IO.monoNanosNow)) args
